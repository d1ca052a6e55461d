import SchemaTrace.Proofs.Except
import SchemaTrace.Proofs.Model.Lookup
import SchemaTrace.Proofs.Schema.QualifiedName

/-! Why a closure of declared members fails. Its seeds are always found, so that the error is about
a type that one of them needs. -/

namespace SchemaTrace

namespace Closure

variable {schema : Schema} {model : Model} {e : Error}

/-- The errors about a needed type: it is not declared, or a shape in it is of no known form. -/
inductive TypeFailure : Error → Prop
  | missing (name : String) : TypeFailure (.notFound (.member .type) name)
  | unhandled (tag origin : String) : TypeFailure (.schema (.unhandledType tag origin))

theorem typeFailure_of_walk {entered : List String} {pending : Pending}
    (failed : walk model entered pending = .error e) : TypeFailure e := by
  fun_induction walk model entered pending with
  | case1 => cases failed
  | case3 entered origin rest target name =>
    obtain rfl := Except.error.inj failed
    exact .missing name.toString
  | case8 entered origin rest tag =>
    obtain rfl := Except.error.inj failed
    exact .unhandled tag origin
  -- All other shapes leave the walk to what is still pending.
  | case2 _ _ _ _ _ _ ih | case4 _ _ _ _ _ _ _ _ ih | case5 _ _ _ _ _ _ ih | case6 _ _ _ ih
  | case7 _ _ _ _ ih | case9 _ _ _ _ ih | case10 _ _ _ ih | case11 _ _ _ ih | case12 _ _ _ ih
  | case13 _ _ _ ih => exact ih failed

theorem typeFailure_of_enter_lookup {β : Type} {entered : Entered} (kind : MemberKind)
    {key : String} {lookup : Option β} (declared : ∃ b, lookup = some b) (shapes : β → Pending)
    (after : List String → Entered)
    (failed : (if key ∈ entered.get kind then pure entered
      else do
        let b ← Model.enforce (.member kind) key lookup
        let types ← walk model entered.types (shapes b)
        pure (after types)) = Except.error e) : TypeFailure e := by
  obtain ⟨b, rfl⟩ := declared
  split at failed
  · cases failed
  · rcases Except.bind_eq_error_iff.mp failed with missing | ⟨found, -, failed⟩
    · cases missing
    · rcases Except.bind_eq_error_iff.mp failed with failed | ⟨types, -, done⟩
      · exact typeFailure_of_walk failed
      · cases done

theorem typeFailure_of_enterSeed (accepted : Model.ofSchema schema = .ok model)
    {entered : Entered} {seed : Seed} (declared : seed.name ∈ schema.keys seed.kind)
    (failed : enterSeed model entered seed = .error e) : TypeFailure e := by
  obtain ⟨kind, text⟩ := seed
  obtain ⟨name, parsed⟩ :=
    QualifiedName.exists_parse?_eq_some_iff.mpr (Schema.dot_mem_of_mem_keys declared)
  obtain ⟨rfl, -⟩ := QualifiedName.parse?_eq_some_iff.mp parsed
  simp only [enterSeed, parsed] at failed
  cases kind with
  | command =>
    exact typeFailure_of_enter_lookup .command (Model.exists_command? accepted declared) _ _ failed
  | event =>
    exact typeFailure_of_enter_lookup .event (Model.exists_event? accepted declared) _ _ failed
  | type =>
    rcases Except.bind_eq_error_iff.mp failed with failed | ⟨types, -, done⟩
    · exact typeFailure_of_walk failed
    · cases done

theorem typeFailure_of_enterSeeds (accepted : Model.ofSchema schema = .ok model)
    {entered : Entered} {seeds : List Seed}
    (declared : ∀ seed ∈ seeds, seed.name ∈ schema.keys seed.kind)
    (failed : enterSeeds model entered seeds = .error e) : TypeFailure e := by
  induction seeds generalizing entered with
  | nil => cases failed
  | cons seed rest ih =>
    obtain ⟨here, later⟩ := List.forall_mem_cons.mp declared
    rcases Except.bind_eq_error_iff.mp failed with failed | ⟨after, -, failed⟩
    · exact typeFailure_of_enterSeed accepted here failed
    · exact ih later failed

theorem typeFailure_of_filter (accepted : Model.ofSchema schema = .ok model) {seeds : List Seed}
    (declared : ∀ seed ∈ seeds, seed.name ∈ schema.keys seed.kind)
    (failed : model.filter seeds = .error e) : TypeFailure e := by
  rcases Except.bind_eq_error_iff.mp failed with failed | ⟨entered, -, done⟩
  · exact typeFailure_of_enterSeeds accepted declared failed
  · cases done

end Closure
end SchemaTrace
