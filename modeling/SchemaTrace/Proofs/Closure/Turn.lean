import SchemaTrace.Proofs.Closure.Entered
import SchemaTrace.Proofs.Except

/-! The turns of a closure. One turn looks at the next shape or takes up the next seed; at most it
enters one definition, which was not entered before, and puts what stands in it before all else. The
closure is what its turns lead to, and each turn leaves less to do: fewer seeds, else fewer types
not entered yet, else less to look at. -/

namespace SchemaTrace

namespace Closure

structure Entry where
  kind : MemberKind
  key : String
  deriving DecidableEq, Repr

def Entered.add (entered : Entered) (e : Entry) : Entered :=
  entered.set e.kind (e.key :: entered.get e.kind)

/-- Where a closure stands: what it has entered, what it still has to look at, and the seeds it has
not taken up yet. -/
structure State where
  entered : Entered
  pending : Pending
  seeds : List Seed

namespace State

def start (seeds : List Seed) : State := ⟨.fill fun _ => [], [], seeds⟩

def enter (s : State) (e : Entry) (shapes : Pending) : State :=
  { s with entered := s.entered.add e, pending := shapes ++ s.pending }

end State

/-- What one turn comes to. Only the last form enters a definition. -/
inductive Turn where
  | ended (result : Except Error Entered)
  | passes (next : State)
  | enters (e : Entry) (next : State)

def enterOnce (s : State) (e : Entry) (found : Except Error Pending) : Turn :=
  if e.key ∈ s.entered.get e.kind then .passes s
  else match found with
    | .error failure => .ended (.error failure)
    | .ok shapes => .enters e (s.enter e shapes)

def lookAt (model : Model) (s : State) (origin : String) : Shape → Turn
  | .reference target =>
    let name := QualifiedName.resolve target origin
    enterOnce s ⟨.type, name.toString⟩
      ((fun t => [(t.shape, name.domain)]) <$> model.type name)
  | .array items _ _ => .passes { s with pending := (items, origin) :: s.pending }
  | .object none => .passes s
  | .object (some properties) =>
    .passes { s with pending := propertyShapes origin properties ++ s.pending }
  | .unknown tag => .ended (.error (.schema (.unhandledType tag origin)))
  | .string _ | .integer | .number | .boolean | .any => .passes s

def takeUp (model : Model) (s : State) (name : QualifiedName) : MemberKind → Turn
  | .command =>
    enterOnce s ⟨.command, name.toString⟩
      ((fun c => (parameters c.parameters ++ parameters c.returns).map (·, name.domain)) <$>
        model.command name)
  | .event =>
    enterOnce s ⟨.event, name.toString⟩
      ((fun e => (parameters e.parameters).map (·, name.domain)) <$> model.event name)
  | .type => .passes { s with pending := (.reference name.toString, name.domain) :: s.pending }

def turn (model : Model) (s : State) : Turn :=
  match s.pending with
  | (shape, origin) :: pending => lookAt model { s with pending } origin shape
  | [] => match s.seeds with
    | [] => .ended (.ok s.entered)
    | seed :: seeds => match QualifiedName.parse? seed.name with
      | none => .ended (.error (.invalidRef seed.name))
      | some name => takeUp model { s with seeds } name seed.kind

variable {model : Model}

/-! ### A turn goes on with the closure -/

def resume (model : Model) (s : State) : Except Error Entered := do
  let types ← walk model s.entered.types s.pending
  enterSeeds model { s.entered with types } s.seeds

def Turn.outcome (model : Model) : Turn → Except Error Entered
  | .ended result => result
  | .passes next => resume model next
  | .enters _ next => resume model next

theorem resume_start (model : Model) (seeds : List Seed) :
    resume model (.start seeds) = enterSeeds model (.fill fun _ => []) seeds := by
  simp only [resume, State.start, walk]
  rfl

theorem outcome_enterOnce (s : State) (e : Entry) (found : Except Error Pending) :
    (enterOnce s e found).outcome model =
      if e.key ∈ s.entered.get e.kind then resume model s
      else found >>= fun shapes => resume model (s.enter e shapes) := by
  unfold enterOnce
  split
  · rfl
  · cases found <;> rfl

theorem outcome_lookAt (s : State) (origin : String) (shape : Shape) :
    (lookAt model s origin shape).outcome model =
      resume model { s with pending := (shape, origin) :: s.pending } := by
  cases shape with
  | reference target =>
    refine (outcome_enterOnce s _ _).trans ?_
    by_cases old : (QualifiedName.resolve target origin).toString ∈ s.entered.types
    · refine (if_pos old).trans ?_
      simp only [resume, walk_of_entered rfl old]
    · refine (if_neg old).trans ?_
      cases found : model.type? (QualifiedName.resolve target origin) with
      | none =>
        simp only [Model.type, found, resume, walk_of_missing rfl old found]
        rfl
      | some t =>
        simp only [Model.type, found, resume, walk_of_declared rfl old found]
        rfl
  | object properties =>
    cases properties with
    | none => simp only [lookAt, Turn.outcome, resume, walk]
    | some properties => simp only [lookAt, Turn.outcome, resume, walk]
  | unknown tag =>
    simp only [lookAt, Turn.outcome, resume, walk]
    rfl
  | array | string | integer | number | boolean | any =>
    simp only [lookAt, Turn.outcome, resume, walk]

theorem outcome_enterOnce_member {β : Type} (entered : Entered) (seeds : List Seed)
    (kind : MemberKind) (notType : kind ≠ .type) (key : String) (found : Except Error β)
    (shapes : β → Pending) :
    (enterOnce ⟨entered, [], seeds⟩ ⟨kind, key⟩ (shapes <$> found)).outcome model =
      (if key ∈ entered.get kind then pure entered
        else do
          let b ← found
          let types ← walk model entered.types (shapes b)
          pure (withMember entered kind key types)) >>=
        fun next => enterSeeds model next seeds := by
  rw [outcome_enterOnce]
  split
  · simp only [resume, walk]
    rfl
  · cases found with
    | error e => rfl
    | ok b =>
      have types : (entered.add ⟨kind, key⟩).types = entered.types := by
        cases kind with
        | type => exact absurd rfl notType
        | command => rfl
        | event => rfl
      simp only [Functor.map, Except.map, resume, State.enter, List.append_nil, types, bind,
        Except.bind]
      cases walk model entered.types (shapes b) <;> rfl

theorem outcome_takeUp (entered : Entered) (seeds : List Seed) {seed : Seed}
    {name : QualifiedName} (parsed : QualifiedName.parse? seed.name = some name) :
    (takeUp model ⟨entered, [], seeds⟩ name seed.kind).outcome model =
      enterSeed model entered seed >>= fun next => enterSeeds model next seeds := by
  obtain ⟨kind, text⟩ := seed
  simp only [enterSeed, parsed]
  cases kind with
  | command =>
    exact outcome_enterOnce_member entered seeds .command (by decide) name.toString
      (model.command name) _
  | event =>
    exact outcome_enterOnce_member entered seeds .event (by decide) name.toString
      (model.event name) _
  | type =>
    simp only [takeUp, Turn.outcome, resume, enterType]
    cases walk model entered.types [(.reference name.toString, name.domain)] <;> rfl

theorem outcome_turn (s : State) : (turn model s).outcome model = resume model s := by
  obtain ⟨entered, pending, seeds⟩ := s
  cases pending with
  | cons first pending => exact outcome_lookAt ⟨entered, pending, seeds⟩ first.2 first.1
  | nil =>
    cases seeds with
    | nil => simp [turn, Turn.outcome, resume, walk, enterSeeds, bind, Except.bind]
    | cons seed seeds =>
      cases parsed : QualifiedName.parse? seed.name with
      | none =>
        simp [turn, parsed, Turn.outcome, resume, walk, enterSeeds, enterSeed, bind, Except.bind]
      | some name =>
        simp only [turn, parsed]
        refine (outcome_takeUp entered seeds parsed).trans ?_
        simp only [resume, walk, enterSeeds]
        rfl

/-! ### What a turn may do -/

def Entry.place? (model : Model) (e : Entry) : Option Place := (model.members.get e.kind).get? e.key

def State.left (model : Model) (s : State) : Nat × Nat × Nat :=
  (s.seeds.length, remaining model s.entered.types, pendingSize s.pending)

/-- A turn from a state fails, or ends with what was entered, or goes on with less to do. It enters
nothing then, or one definition of the model that was not entered before. -/
inductive Advances (model : Model) (s : State) : Turn → Prop
  | failed (e : Error) : Advances model s (.ended (.error e))
  | done : Advances model s (.ended (.ok s.entered))
  | passes {next : State} : next.entered = s.entered →
      WellFoundedRelation.rel (next.left model) (s.left model) → Advances model s (.passes next)
  | enters {e : Entry} {next : State} : e.key ∉ s.entered.get e.kind →
      (e.place? model).isSome → next.entered = s.entered.add e →
      WellFoundedRelation.rel (next.left model) (s.left model) → Advances model s (.enters e next)

theorem left_of_seeds {next s : State} (fewer : next.seeds.length < s.seeds.length) :
    WellFoundedRelation.rel (next.left model) (s.left model) :=
  Prod.Lex.left _ _ fewer

theorem left_of_types {next s : State} (seeds : next.seeds = s.seeds)
    (fewer : remaining model next.entered.types < remaining model s.entered.types) :
    WellFoundedRelation.rel (next.left model) (s.left model) := by
  rw [State.left, State.left, seeds]
  exact Prod.Lex.right _ (Prod.Lex.left _ _ fewer)

theorem left_of_pending {next s : State} (seeds : next.seeds = s.seeds)
    (types : next.entered = s.entered) (less : pendingSize next.pending < pendingSize s.pending) :
    WellFoundedRelation.rel (next.left model) (s.left model) := by
  rw [State.left, State.left, seeds, types]
  exact Prod.Lex.right _ (Prod.Lex.right _ less)

theorem isSome_place?_of_enforce {β : Type} {kind : MemberKind} {name : QualifiedName}
    {at? : Domain × Nat → Option β} {b : β}
    (found : Model.enforce (.member kind) name.toString ((model.place? kind name).bind at?) =
      .ok b) : ((⟨kind, name.toString⟩ : Entry).place? model).isSome := by
  have looked := Model.enforce_eq_ok_iff.mp found
  simp only [Model.place?, Option.bind_eq_bind, Option.bind_eq_some_iff] at looked
  obtain ⟨_, ⟨place, indexed, -⟩, -⟩ := looked
  exact Option.isSome_of_eq_some indexed

theorem advances_enterOnce {entered : Entered} {pending pending' : Pending}
    {seeds seeds' : List Seed} {e : Entry} {found : Except Error Pending}
    (passed : WellFoundedRelation.rel (State.left model ⟨entered, pending, seeds⟩)
      (State.left model ⟨entered, pending', seeds'⟩))
    (goesOn : ∀ shapes, found = .ok shapes → e.key ∉ entered.get e.kind →
      (e.place? model).isSome ∧
        WellFoundedRelation.rel (((⟨entered, pending, seeds⟩ : State).enter e shapes).left model)
          (State.left model ⟨entered, pending', seeds'⟩)) :
    Advances model ⟨entered, pending', seeds'⟩ (enterOnce ⟨entered, pending, seeds⟩ e found) := by
  unfold enterOnce
  split
  · exact .passes rfl passed
  · next fresh =>
    cases found with
    | error failure => exact .failed failure
    | ok shapes =>
      obtain ⟨placed, less⟩ := goesOn shapes rfl fresh
      exact .enters fresh placed rfl less

theorem advances_lookAt (entered : Entered) (pending : Pending) (seeds : List Seed)
    (origin : String) (shape : Shape) :
    Advances model ⟨entered, (shape, origin) :: pending, seeds⟩
      (lookAt model ⟨entered, pending, seeds⟩ origin shape) := by
  cases shape with
  | reference target =>
    rw [lookAt]
    apply advances_enterOnce
    · exact left_of_pending rfl rfl (by simp [pendingSize, shapeSize])
    · intro shapes found fresh
      obtain ⟨t, looked, -⟩ := Except.map_eq_ok_iff.mp found
      refine ⟨isSome_place?_of_enforce looked, left_of_types rfl ?_⟩
      exact remaining_cons_lt (mem_keys_of_type? (Model.enforce_eq_ok_iff.mp looked)) fresh
  | object properties =>
    cases properties with
    | none => exact .passes rfl (left_of_pending rfl rfl (by simp [pendingSize, shapeSize]))
    | some properties =>
      refine .passes rfl (left_of_pending rfl rfl ?_)
      simp only [pendingSize, shapeSize, pendingSize_append, pendingSize_propertyShapes]
      omega
  | unknown tag => exact .failed _
  | array | string | integer | number | boolean | any =>
    exact .passes rfl (left_of_pending rfl rfl (by simp [pendingSize, shapeSize]))

theorem advances_enterOnce_member {β : Type} {entered : Entered} {seed : Seed} {seeds : List Seed}
    {kind : MemberKind} {name : QualifiedName} {at? : Domain × Nat → Option β}
    (shapes : β → Pending) :
    Advances model ⟨entered, [], seed :: seeds⟩
      (enterOnce ⟨entered, [], seeds⟩ ⟨kind, name.toString⟩
        (shapes <$>
          Model.enforce (.member kind) name.toString ((model.place? kind name).bind at?))) := by
  have fewer : seeds.length < (seed :: seeds).length := Nat.lt_succ_self _
  apply advances_enterOnce
  · exact left_of_seeds fewer
  · intro _ found _
    obtain ⟨b, looked, -⟩ := Except.map_eq_ok_iff.mp found
    exact ⟨isSome_place?_of_enforce looked, left_of_seeds fewer⟩

theorem advances_takeUp (entered : Entered) (seed : Seed) (seeds : List Seed)
    (name : QualifiedName) (kind : MemberKind) :
    Advances model ⟨entered, [], seed :: seeds⟩
      (takeUp model ⟨entered, [], seeds⟩ name kind) := by
  cases kind with
  | command => exact advances_enterOnce_member _
  | event => exact advances_enterOnce_member _
  | type => exact .passes rfl (left_of_seeds (Nat.lt_succ_self _))

theorem advances_turn (model : Model) (s : State) : Advances model s (turn model s) := by
  obtain ⟨entered, pending, seeds⟩ := s
  cases pending with
  | cons first pending => exact advances_lookAt entered pending seeds first.2 first.1
  | nil =>
    cases seeds with
    | nil => exact .done
    | cons seed seeds =>
      cases parsed : QualifiedName.parse? seed.name with
      | none =>
        simp only [turn, parsed]
        exact .failed _
      | some name =>
        simp only [turn, parsed]
        exact advances_takeUp entered seed seeds name seed.kind

theorem of_turn_eq_ended {s : State} {after : Entered}
    (turned : turn model s = .ended (.ok after)) : after = s.entered := by
  have advances := advances_turn model s
  rw [turned] at advances
  cases advances with
  | done => rfl

theorem of_turn_eq_passes {s next : State} (turned : turn model s = .passes next) :
    next.entered = s.entered ∧ WellFoundedRelation.rel (next.left model) (s.left model) := by
  have advances := advances_turn model s
  rw [turned] at advances
  cases advances with
  | passes same less => exact ⟨same, less⟩

theorem of_turn_eq_enters {s next : State} {e : Entry} (turned : turn model s = .enters e next) :
    e.key ∉ s.entered.get e.kind ∧ (e.place? model).isSome ∧ next.entered = s.entered.add e ∧
      WellFoundedRelation.rel (next.left model) (s.left model) := by
  have advances := advances_turn model s
  rw [turned] at advances
  cases advances with
  | enters fresh placed added less => exact ⟨fresh, placed, added, less⟩

end Closure
end SchemaTrace
