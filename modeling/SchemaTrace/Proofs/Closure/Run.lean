import SchemaTrace.Proofs.Closure.Exact
import SchemaTrace.Proofs.Closure.Turn

/-! Runs of a closure. From every state the turns come to an end, whatever the model refers to, and
in one run no definition is entered twice, also in a run that fails. -/

namespace SchemaTrace

namespace Closure

inductive Run (model : Model) : State → List Entry → Except Error Entered → Prop
  | ended {s : State} {result : Except Error Entered} :
      turn model s = .ended result → Run model s [] result
  | passes {s next : State} {trace : List Entry} {result : Except Error Entered} :
      turn model s = .passes next → Run model next trace result → Run model s trace result
  | enters {s next : State} {e : Entry} {trace : List Entry} {result : Except Error Entered} :
      turn model s = .enters e next → Run model next trace result →
      Run model s (e :: trace) result

variable {model : Model} {s : State} {trace : List Entry} {result : Except Error Entered}

/-! ### Every run ends -/

theorem exists_run (model : Model) (s : State) : ∃ trace result, Run model s trace result := by
  cases turned : turn model s with
  | ended result => exact ⟨[], result, .ended turned⟩
  | passes next =>
    have less := (of_turn_eq_passes turned).2
    obtain ⟨trace, result, run⟩ := exists_run model next
    exact ⟨trace, result, .passes turned run⟩
  | enters e next =>
    have less := (of_turn_eq_enters turned).2.2.2
    obtain ⟨trace, result, run⟩ := exists_run model next
    exact ⟨e :: trace, result, .enters turned run⟩
termination_by s.left model
decreasing_by
  · exact less
  · exact less

theorem Run.unique (run : Run model s trace result) {trace' : List Entry}
    {result' : Except Error Entered} (other : Run model s trace' result') :
    trace' = trace ∧ result' = result := by
  induction run generalizing trace' with
  | ended turned =>
    cases other with
    | ended turned' =>
      obtain rfl := Turn.ended.inj (turned.symm.trans turned')
      exact ⟨rfl, rfl⟩
    | passes turned' => cases turned.symm.trans turned'
    | enters turned' => cases turned.symm.trans turned'
  | passes turned run ih =>
    cases other with
    | ended turned' => cases turned.symm.trans turned'
    | passes turned' other =>
      obtain rfl := Turn.passes.inj (turned.symm.trans turned')
      exact ih other
    | enters turned' => cases turned.symm.trans turned'
  | enters turned run ih =>
    cases other with
    | ended turned' => cases turned.symm.trans turned'
    | passes turned' => cases turned.symm.trans turned'
    | enters turned' other =>
      obtain ⟨rfl, rfl⟩ := Turn.enters.inj (turned.symm.trans turned')
      obtain ⟨rfl, rfl⟩ := ih other
      exact ⟨rfl, rfl⟩

theorem Run.resume_eq (run : Run model s trace result) : resume model s = result := by
  induction run with
  | @ended s result turned => rw [← outcome_turn, turned, Turn.outcome]
  | @passes s next trace result turned run ih => rw [← outcome_turn, turned, Turn.outcome, ih]
  | @enters s next e trace result turned run ih => rw [← outcome_turn, turned, Turn.outcome, ih]

/-! ### No definition is entered twice -/

theorem mem_get_add_iff {entered : Entered} {e : Entry} {kind : MemberKind} {key : String} :
    key ∈ (entered.add e).get kind ↔ e = ⟨kind, key⟩ ∨ key ∈ entered.get kind := by
  obtain ⟨own, name⟩ := e
  by_cases same : own = kind
  · subst same
    rw [Entered.add, ByKind.get_set_self, List.mem_cons, Entry.mk.injEq]
    simp [eq_comm]
  · rw [Entered.add, ByKind.get_set_of_ne _ _ same]
    simp [same]

/-- What a run enters are definitions of the model, none of which was entered before, each of them
once. -/
theorem Run.fresh (run : Run model s trace result) :
    trace.Nodup ∧ ∀ e ∈ trace, e.key ∉ s.entered.get e.kind ∧ (e.place? model).isSome := by
  induction run with
  | ended => exact ⟨.nil, List.forall_mem_nil _⟩
  | passes turned run ih => rwa [← (of_turn_eq_passes turned).1]
  | @enters s next e trace result turned run ih =>
    obtain ⟨fresh, placed, added, -⟩ := of_turn_eq_enters turned
    obtain ⟨distinct, later⟩ := ih
    -- What is entered later is new to a state in which this one is entered already.
    have others : ∀ e' ∈ trace, e ≠ e' ∧ e'.key ∉ s.entered.get e'.kind := by
      intro e' member
      have new := (later e' member).1
      rw [added, mem_get_add_iff, not_or] at new
      exact new
    refine ⟨List.nodup_cons.mpr ⟨fun inside => (others e inside).1 rfl, distinct⟩, ?_⟩
    refine List.forall_mem_cons.mpr ⟨⟨fresh, placed⟩, ?_⟩
    exact fun e' member => ⟨(others e' member).2, (later e' member).2⟩

theorem Run.entered_eq (run : Run model s trace result) {after : Entered}
    (succeeded : result = .ok after) : after = trace.foldl Entered.add s.entered := by
  induction run with
  | ended turned => exact of_turn_eq_ended (succeeded ▸ turned)
  | passes turned run ih => rw [← (of_turn_eq_passes turned).1, ih succeeded]
  | enters turned run ih => rw [List.foldl_cons, ← (of_turn_eq_enters turned).2.2.1, ih succeeded]

theorem place?_inj {schema : Schema} (accepted : Model.ofSchema schema = .ok model) {a b : Entry}
    (kind : a.kind = b.kind) (placed : (a.place? model).isSome)
    (same : a.place? model = b.place? model) : a = b := by
  obtain ⟨own, key⟩ := a
  obtain ⟨other, key'⟩ := b
  obtain rfl : own = other := kind
  obtain ⟨⟨i, j⟩, found⟩ := Option.isSome_iff_exists.mp placed
  have indexed := ((Model.indexes_of_ofSchema accepted).2.2 own).get?_eq_some_iff
  obtain ⟨d, m, atDomain, atMember, rfl⟩ := Model.mem_places_iff.mp ((indexed key _).mp found)
  obtain ⟨d', m', atDomain', atMember', rfl⟩ :=
    Model.mem_places_iff.mp ((indexed key' _).mp (same.symm.trans found))
  obtain rfl := Option.some.inj (atDomain.symm.trans atDomain')
  obtain rfl := Option.some.inj (atMember.symm.trans atMember')
  rfl

/-- Every closure comes to an end, in one way, and is what its run comes to. No key is entered twice
in it; where the schema was accepted, no definition is. -/
theorem filter_run (model : Model) (seeds : List Seed) :
    ∃ trace result, Run model (.start seeds) trace result ∧
      (∀ trace' result', Run model (.start seeds) trace' result' →
        trace' = trace ∧ result' = result) ∧
      model.filter seeds = restrict model.schema <$> result ∧
      (∀ after, result = .ok after → after = trace.foldl Entered.add (.fill fun _ => [])) ∧
      (trace.Nodup ∧ ∀ e ∈ trace, (e.place? model).isSome) ∧
      ∀ schema, Model.ofSchema schema = .ok model →
        (trace.map fun e => (e.kind, e.place? model)).Nodup := by
  obtain ⟨trace, result, run⟩ := exists_run model (.start seeds)
  obtain ⟨distinct, fresh⟩ := run.fresh
  have placed : ∀ e ∈ trace, (e.place? model).isSome := fun e member => (fresh e member).2
  refine ⟨trace, result, run, fun _ _ => run.unique, ?_, fun _ => run.entered_eq,
    ⟨distinct, placed⟩, ?_⟩
  · rw [← run.resume_eq, resume_start]
    rfl
  · intro schema accepted
    refine distinct.map_on fun a member b _ same => ?_
    obtain ⟨kind, place⟩ := Prod.mk.inj same
    exact place?_inj accepted kind (placed a member) place

/-- Seeds of which one is repeated and the last is of no known form. -/
def repeatedSeeds : List Seed := [⟨.command, "A.go"⟩, ⟨.command, "A.go"⟩, ⟨.type, "B.V"⟩]

theorem filter_run_repeatedSeeds : ∃ model, Model.ofSchema cyclicSchema = .ok model ∧
    ∃ trace, Run model (.start repeatedSeeds) trace
      (.error (.schema (.unhandledType "tuple" "B"))) ∧
      trace = [⟨.command, "A.go"⟩, ⟨.type, "A.T"⟩, ⟨.type, "B.U"⟩, ⟨.type, "B.V"⟩] ∧
      (trace.map fun e => (e.kind, e.place? model)).Nodup := by
  have accepts : ∃ model, Model.ofSchema cyclicSchema = .ok model ∧
      Run model (.start repeatedSeeds)
        [⟨.command, "A.go"⟩, ⟨.type, "A.T"⟩, ⟨.type, "B.U"⟩, ⟨.type, "B.V"⟩]
        (.error (.schema (.unhandledType "tuple" "B"))) := by
    refine ⟨_, rfl, ?_⟩
    exact .enters rfl <| .passes rfl <| .enters rfl <| .enters rfl <| .passes rfl <| .passes rfl <|
      .passes rfl <| .passes rfl <| .passes rfl <| .enters rfl <| .ended rfl
  obtain ⟨model, accepted, run⟩ := accepts
  obtain ⟨trace, result, -, unique, -, -, -, distinct⟩ := filter_run model repeatedSeeds
  obtain ⟨rfl, rfl⟩ := unique _ _ run
  exact ⟨model, accepted, _, run, rfl, distinct cyclicSchema accepted⟩

end Closure
end SchemaTrace
