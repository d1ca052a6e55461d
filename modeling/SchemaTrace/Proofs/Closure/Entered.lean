import SchemaTrace.Proofs.Closure.Walk

/-! What entering seeds does. Each seed adds itself and the types it needs; a seed that was entered
before adds nothing. -/

namespace SchemaTrace

open QualifiedName (domainOf)

namespace Closure

variable {schema : Schema} {model : Model} {needed : MemberKind → String → Prop}

def withMember (entered : Entered) (kind : MemberKind) (key : String) (types : List String) :
    Entered :=
  (entered.set kind (key :: entered.get kind)).set .type types

inductive EntersSeed (schema : Schema) (model : Model) (entered : Entered) :
    MemberKind → String → Entered → Prop
  | again {kind : MemberKind} {key : String} :
      kind ≠ .type → key ∈ entered.get kind → EntersSeed schema model entered kind key entered
  | member {kind : MemberKind} {key : String} {shapes : List Shape} {types : List String} :
      kind ≠ .type → key ∉ entered.get kind → (key, shapes) ∈ schema.members kind →
      walk model entered.types (shapes.map (·, domainOf key)) = .ok types →
      EntersSeed schema model entered kind key (withMember entered kind key types)
  | type {key : String} {types : List String} :
      walk model entered.types [(.reference key, domainOf key)] = .ok types →
      EntersSeed schema model entered .type key { entered with types }

/-- Entering a member that a lookup finds under its key, with the shapes that stand in it. -/
theorem enter_lookup_eq_ok_iff {β : Type} (accepted : Model.ofSchema schema = .ok model)
    {entered after : Entered} (kind : MemberKind) (notType : kind ≠ .type) {name : QualifiedName}
    (plain : '.' ∉ name.domain.toList) (lookup : Option β) (shapes : β → List Shape)
    (found : ∀ b, lookup = some b → (name.toString, shapes b) ∈ schema.members kind)
    (declared : name.toString ∈ schema.keys kind → ∃ b, lookup = some b) :
    (if name.toString ∈ entered.get kind then pure entered
      else do
        let b ← Model.enforce (.member kind) name.toString lookup
        let types ← walk model entered.types ((shapes b).map (·, name.domain))
        pure (withMember entered kind name.toString types)) = Except.ok after ↔
      EntersSeed schema model entered kind name.toString after := by
  have distinct := (Model.unambiguous_of_ofSchema accepted).members kind
  have origin := QualifiedName.domainOf_toString plain
  constructor
  · intro run
    split at run
    · next old =>
      obtain rfl := Except.ok.inj run
      exact .again notType old
    · next fresh =>
      cases eq : lookup with
      | none => simp [Model.enforce, eq, bind, Except.bind] at run
      | some b =>
        simp only [Model.enforce, eq, bind, Except.bind] at run
        split at run
        · cases run
        · next types walked =>
          obtain rfl := Except.ok.inj run
          rw [← origin] at walked
          exact .member notType fresh (found b eq) walked
  · intro enters
    cases enters with
    | again _ old => rw [if_pos old]; rfl
    | member _ fresh member walked =>
      obtain ⟨b, eq⟩ := declared (Schema.mem_keys_iff.mpr ⟨_, member⟩)
      obtain rfl := Schema.shapes_unique distinct member (found b eq)
      rw [origin] at walked
      rw [if_neg fresh, eq]
      simp only [Model.enforce, bind, Except.bind, walked]
      rfl
    | type => exact absurd rfl notType

theorem enterCommand_eq_ok_iff (accepted : Model.ofSchema schema = .ok model)
    {entered after : Entered} {name : QualifiedName} (plain : '.' ∉ name.domain.toList) :
    enterCommand model entered name = .ok after ↔
      EntersSeed schema model entered .command name.toString after :=
  enter_lookup_eq_ok_iff accepted .command (by decide) plain (model.command? name)
    (fun c => parameters c.parameters ++ parameters c.returns)
    (fun _ found => Model.mem_members_of_command? accepted found)
    (Model.exists_command? accepted)

theorem enterEvent_eq_ok_iff (accepted : Model.ofSchema schema = .ok model)
    {entered after : Entered} {name : QualifiedName} (plain : '.' ∉ name.domain.toList) :
    enterEvent model entered name = .ok after ↔
      EntersSeed schema model entered .event name.toString after :=
  enter_lookup_eq_ok_iff accepted .event (by decide) plain (model.event? name)
    (fun e => parameters e.parameters)
    (fun _ found => Model.mem_members_of_event? accepted found)
    (Model.exists_event? accepted)

theorem enterType_eq_ok_iff {entered after : Entered} {name : QualifiedName}
    (plain : '.' ∉ name.domain.toList) :
    enterType model entered name = .ok after ↔
      EntersSeed schema model entered .type name.toString after := by
  have origin := QualifiedName.domainOf_toString plain
  constructor
  · intro run
    simp only [enterType, bind, Except.bind] at run
    split at run
    · cases run
    · next types walked =>
      obtain rfl := Except.ok.inj run
      rw [← origin] at walked
      exact .type walked
  · intro enters
    cases enters with
    | again notType => exact absurd rfl notType
    | member notType => exact absurd rfl notType
    | type walked =>
      rw [origin] at walked
      simp only [enterType, bind, Except.bind, walked]
      rfl

theorem enterSeed_eq_ok_iff (accepted : Model.ofSchema schema = .ok model)
    {entered after : Entered} {seed : Seed} :
    enterSeed model entered seed = .ok after ↔
      '.' ∈ seed.name.toList ∧ EntersSeed schema model entered seed.kind seed.name after := by
  obtain ⟨kind, text⟩ := seed
  simp only [enterSeed]
  cases parsed : QualifiedName.parse? text with
  | none =>
    have undotted : '.' ∉ text.toList := by
      intro dotted
      obtain ⟨q, parsed'⟩ := QualifiedName.exists_parse?_eq_some_iff.mpr dotted
      rw [parsed] at parsed'
      cases parsed'
    simp [undotted]
  | some name =>
    have dotted := QualifiedName.exists_parse?_eq_some_iff.mp ⟨name, parsed⟩
    obtain ⟨rfl, plain⟩ := QualifiedName.parse?_eq_some_iff.mp parsed
    simp only [dotted, true_and]
    cases kind with
    | command => exact enterCommand_eq_ok_iff accepted plain
    | event => exact enterEvent_eq_ok_iff accepted plain
    | type => exact enterType_eq_ok_iff plain

theorem mem_withMember_iff {entered : Entered} {kind other : MemberKind} (notType : kind ≠ .type)
    {key name : String} {types : List String} :
    name ∈ (withMember entered kind key types).get other ↔
      if other = .type then name ∈ types
      else name ∈ entered.get other ∨ other = kind ∧ name = key := by
  cases kind with
  | type => exact absurd rfl notType
  | command => cases other <;> simp [withMember, ByKind.set, ByKind.get, or_comm]
  | event => cases other <;> simp [withMember, ByKind.set, ByKind.get, or_comm]

/-- What entering has done: nothing is lost, and what is new is supported. -/
structure Added (schema : Schema) (entered : Entered) (after : Entered) : Prop where
  kept : ∀ kind, ∀ key ∈ entered.get kind, key ∈ after.get kind
  supported : ∀ kind, ∀ key ∈ after.get kind, key ∉ entered.get kind →
    Supported schema (· ∈ after.types) kind key

theorem Walked.added {entered : Entered} {pending : Pending} {types : List String}
    (walked : Walked schema entered.types pending types) :
    Added schema entered { entered with types } where
  kept kind key inside := by
    cases kind with
    | type => exact walked.kept key inside
    | command => exact inside
    | event => exact inside
  supported kind key inside new := by
    cases kind with
    | type => exact walked.supported key inside new
    | command => exact absurd inside new
    | event => exact absurd inside new

theorem Walked.added_withMember {entered : Entered} {pending : Pending} {types : List String}
    {kind : MemberKind} {key : String} (walked : Walked schema entered.types pending types)
    (notType : kind ≠ .type) (own : Supported schema (· ∈ types) kind key) :
    Added schema entered (withMember entered kind key types) where
  kept other k inside := by
    rw [mem_withMember_iff notType]
    split
    · next eq =>
      subst eq
      exact walked.kept k inside
    · exact .inl inside
  supported other k inside new := by
    rw [mem_withMember_iff notType] at inside
    split at inside
    · next eq =>
      subst eq
      exact walked.supported k inside new
    · rcases inside with old | ⟨rfl, rfl⟩
      · exact absurd old new
      · exact own

theorem added_of_entersSeed (accepted : Model.ofSchema schema = .ok model) {entered after : Entered}
    {kind : MemberKind} {key : String} (dotted : '.' ∈ key.toList)
    (enters : EntersSeed schema model entered kind key after) :
    Added schema entered after ∧ key ∈ after.get kind := by
  obtain ⟨name, parsed⟩ := QualifiedName.exists_parse?_eq_some_iff.mpr dotted
  obtain ⟨rfl, plain⟩ := QualifiedName.parse?_eq_some_iff.mp parsed
  have origin := QualifiedName.domainOf_toString plain
  cases enters with
  | again _ old =>
    refine ⟨⟨fun _ _ member => member, ?_⟩, old⟩
    intro _ _ member fresh
    exact absurd member fresh
  | @member _ _ shapes types notType fresh member run =>
    rw [origin] at run
    have walked := walked_of_walk accepted entered.types _ (forall_mem_shapes_iff.mpr
      fun _ _ => plain) run
    have own : Supported schema (· ∈ types) kind name.toString :=
      supported_of_mem_members accepted member plain (forall_mem_shapes_iff.mp walked.leads)
        (forall_mem_shapes_iff.mp walked.known)
    refine ⟨walked.added_withMember notType own, ?_⟩
    rw [mem_withMember_iff notType, if_neg notType]
    exact .inr ⟨rfl, rfl⟩
  | @type _ types run =>
    rw [origin] at run
    have walked := walked_of_walk accepted entered.types _
      (plain_cons_iff.mpr ⟨plain, List.forall_mem_nil _⟩) run
    have itself : name.toString ∈ types :=
      (leads_key plain).mp (allLead_cons_iff.mp walked.leads).1
    exact ⟨walked.added, itself⟩

theorem needed_of_entersSeed (accepted : Model.ofSchema schema = .ok model)
    (closed : Closed schema needed) {entered after : Entered} {kind : MemberKind} {key : String}
    (dotted : '.' ∈ key.toList) (enters : EntersSeed schema model entered kind key after)
    (inside : needed kind key) (old : ∀ other, ∀ k ∈ entered.get other, needed other k) :
    ∀ other, ∀ k ∈ after.get other, needed other k := by
  obtain ⟨name, parsed⟩ := QualifiedName.exists_parse?_eq_some_iff.mpr dotted
  obtain ⟨rfl, plain⟩ := QualifiedName.parse?_eq_some_iff.mp parsed
  have origin := QualifiedName.domainOf_toString plain
  cases enters with
  | again => exact old
  | @member _ _ shapes types notType fresh member run =>
    rw [origin] at run
    have leads := leads_of_mem_members closed member plain inside
    have types := needed_of_walk accepted closed entered.types _
      (forall_mem_shapes_iff.mpr fun _ _ => plain) (forall_mem_shapes_iff.mpr leads)
      (old .type) run
    intro other k new
    rw [mem_withMember_iff notType] at new
    split at new
    · next eq =>
      subst eq
      exact types k new
    · rcases new with member | ⟨rfl, rfl⟩
      · exact old other k member
      · exact inside
  | type run =>
    rw [origin] at run
    have leads := (leads_key plain).mpr inside
    have types := needed_of_walk accepted closed entered.types _
      (plain_cons_iff.mpr ⟨plain, List.forall_mem_nil _⟩)
      (allLead_cons_iff.mpr ⟨leads, List.forall_mem_nil _⟩) (old .type) run
    intro other k new
    cases other with
    | type => exact types k new
    | command => exact old .command k new
    | event => exact old .event k new

theorem exists_entersSeed (accepted : Model.ofSchema schema = .ok model)
    (closed : Closed schema needed) (sound : Sound schema needed) (entered : Entered)
    {kind : MemberKind} {key : String} (dotted : '.' ∈ key.toList) (inside : needed kind key) :
    ∃ after, EntersSeed schema model entered kind key after := by
  obtain ⟨name, parsed⟩ := QualifiedName.exists_parse?_eq_some_iff.mpr dotted
  obtain ⟨rfl, plain⟩ := QualifiedName.parse?_eq_some_iff.mp parsed
  have origin := QualifiedName.domainOf_toString plain
  by_cases isType : kind = .type
  · subst isType
    have leads := (leads_key plain).mpr inside
    obtain ⟨types, run⟩ := exists_walk accepted closed sound entered.types _
      (plain_cons_iff.mpr ⟨plain, List.forall_mem_nil _⟩)
      (allLead_cons_iff.mpr ⟨leads, List.forall_mem_nil _⟩)
      (allKnown_cons_iff.mpr ⟨.of_isLeaf trivial trivial, List.forall_mem_nil _⟩)
    rw [← origin] at run
    exact ⟨_, .type run⟩
  · by_cases old : name.toString ∈ entered.get kind
    · exact ⟨entered, .again isType old⟩
    · obtain ⟨shapes, member⟩ := Schema.mem_keys_iff.mp (sound.declared kind _ inside)
      obtain ⟨types, run⟩ := exists_walk accepted closed sound entered.types
        (shapes.map (·, name.domain)) (forall_mem_shapes_iff.mpr fun _ _ => plain)
        (forall_mem_shapes_iff.mpr (leads_of_mem_members closed member plain inside))
        (forall_mem_shapes_iff.mpr (known_of_mem_members sound member inside))
      rw [← origin] at run
      exact ⟨_, .member isType old member run⟩

/-! ### All seeds -/

theorem enterSeeds_cons_eq_ok_iff (accepted : Model.ofSchema schema = .ok model)
    {entered after : Entered} {seed : Seed} {seeds : List Seed} :
    enterSeeds model entered (seed :: seeds) = .ok after ↔ '.' ∈ seed.name.toList ∧
      ∃ next, EntersSeed schema model entered seed.kind seed.name next ∧
        enterSeeds model next seeds = .ok after := by
  have first (next : Entered) := @enterSeed_eq_ok_iff _ _ accepted entered next seed
  simp only [enterSeeds, bind, Except.bind]
  cases run : enterSeed model entered seed with
  | error e =>
    constructor
    · intro failed
      cases failed
    · intro given
      rcases given with ⟨dotted, next, enters, -⟩
      have run' := (first next).mpr ⟨dotted, enters⟩
      rw [run] at run'
      cases run'
  | ok next =>
    obtain ⟨dotted, enters⟩ := (first next).mp run
    constructor
    · intro rest
      exact ⟨dotted, next, enters, rest⟩
    · intro given
      rcases given with ⟨-, other, enters', rest⟩
      have run' := (first other).mpr ⟨dotted, enters'⟩
      rw [run] at run'
      obtain rfl := Except.ok.inj run'
      exact rest

theorem Added.trans {a b c : Entered} (first : Added schema a b) (second : Added schema b c) :
    Added schema a c where
  kept kind key member := second.kept kind key (first.kept kind key member)
  supported kind key member new := by
    by_cases between : key ∈ b.get kind
    · exact (first.supported kind key between new).mono (second.kept .type)
    · exact second.supported kind key member between

theorem added_of_enterSeeds (accepted : Model.ofSchema schema = .ok model) (seeds : List Seed)
    {entered after : Entered} (run : enterSeeds model entered seeds = .ok after) :
    Added schema entered after ∧
      ∀ seed ∈ seeds, '.' ∈ seed.name.toList ∧ seed.name ∈ after.get seed.kind := by
  induction seeds generalizing entered with
  | nil =>
    obtain rfl := Except.ok.inj run
    refine ⟨⟨fun _ _ member => member, ?_⟩, List.forall_mem_nil _⟩
    intro _ _ member new
    exact absurd member new
  | cons seed rest ih =>
    obtain ⟨dotted, next, enters, run⟩ := (enterSeeds_cons_eq_ok_iff accepted).mp run
    obtain ⟨added, inside⟩ := added_of_entersSeed accepted dotted enters
    obtain ⟨addedRest, insideRest⟩ := ih run
    refine ⟨added.trans addedRest, List.forall_mem_cons.mpr ⟨⟨dotted, ?_⟩, insideRest⟩⟩
    exact addedRest.kept _ _ inside

theorem needed_of_enterSeeds (accepted : Model.ofSchema schema = .ok model)
    (closed : Closed schema needed) (seeds : List Seed)
    (inside : ∀ seed ∈ seeds, needed seed.kind seed.name) {entered after : Entered}
    (old : ∀ kind, ∀ key ∈ entered.get kind, needed kind key)
    (run : enterSeeds model entered seeds = .ok after) :
    ∀ kind, ∀ key ∈ after.get kind, needed kind key := by
  induction seeds generalizing entered with
  | nil =>
    obtain rfl := Except.ok.inj run
    exact old
  | cons seed rest ih =>
    obtain ⟨first, insideRest⟩ := List.forall_mem_cons.mp inside
    obtain ⟨dotted, next, enters, run⟩ := (enterSeeds_cons_eq_ok_iff accepted).mp run
    exact ih insideRest (needed_of_entersSeed accepted closed dotted enters first old) run

theorem exists_enterSeeds (accepted : Model.ofSchema schema = .ok model)
    (closed : Closed schema needed) (sound : Sound schema needed) (seeds : List Seed)
    (inside : ∀ seed ∈ seeds, '.' ∈ seed.name.toList ∧ needed seed.kind seed.name)
    (entered : Entered) : ∃ after, enterSeeds model entered seeds = .ok after := by
  induction seeds generalizing entered with
  | nil => exact ⟨entered, rfl⟩
  | cons seed rest ih =>
    obtain ⟨⟨dotted, first⟩, insideRest⟩ := List.forall_mem_cons.mp inside
    obtain ⟨next, enters⟩ := exists_entersSeed accepted closed sound entered dotted first
    obtain ⟨after, run⟩ := ih insideRest next
    exact ⟨after, (enterSeeds_cons_eq_ok_iff accepted).mpr ⟨dotted, next, enters, run⟩⟩

end Closure
end SchemaTrace
