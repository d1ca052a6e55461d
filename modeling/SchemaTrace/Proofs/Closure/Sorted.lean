import SchemaTrace.Proofs.Closure.Exact
import SchemaTrace.Proofs.Schema.Sorted

/-! Sorting a schema does not change what it means. Its model finds the same members, so a closure
enters the same keys or fails with the same error, and what it keeps is the sorted closure. -/

namespace SchemaTrace

namespace Model

variable {schema : Schema} {model sorted : Model}

/-- Two models find the same member under each name. -/
structure Agree (model other : Model) : Prop where
  command? : ∀ name, other.command? name = model.command? name
  event? : ∀ name, other.event? name = model.event? name
  type? : ∀ name, other.type? name = model.type? name

theorem exists_mem_domains_sort_iff {β : Type} {list : Domain → List β} {nameOf : β → String}
    {key : String} {b : β} (same : ∀ d : Domain, b ∈ list d.sortMembers ↔ b ∈ list d) :
    (∃ d ∈ schema.sort.domains, b ∈ list d ∧ d.key (nameOf b) = key) ↔
      ∃ d ∈ schema.domains, b ∈ list d ∧ d.key (nameOf b) = key := by
  constructor
  · intro given
    rcases given with ⟨d, inside, member, eq⟩
    obtain ⟨inner, declared, rfl⟩ := Schema.mem_domains_sort_iff.mp inside
    exact ⟨inner, declared, (same inner).mp member, eq⟩
  · intro given
    rcases given with ⟨d, inside, member, eq⟩
    exact ⟨d.sortMembers, Schema.mem_domains_sort_iff.mpr ⟨d, inside, rfl⟩, (same d).mpr member, eq⟩

theorem agree_sort (accepted : ofSchema schema = .ok model)
    (acceptedSorted : ofSchema schema.sort = .ok sorted) : Agree model sorted where
  command? name := by
    apply Option.ext
    intro c
    rw [command?_eq_some_iff accepted, command?_eq_some_iff acceptedSorted]
    exact exists_mem_domains_sort_iff fun d => d.mem_commandList_sortMembers_iff
  event? name := by
    apply Option.ext
    intro e
    rw [event?_eq_some_iff accepted, event?_eq_some_iff acceptedSorted]
    exact exists_mem_domains_sort_iff fun d => d.mem_eventList_sortMembers_iff
  type? name := by
    apply Option.ext
    intro t
    rw [type?_eq_some_iff accepted, type?_eq_some_iff acceptedSorted]
    exact exists_mem_domains_sort_iff fun d => d.mem_typeList_sortMembers_iff

theorem domain?_sort (accepted : ofSchema schema = .ok model)
    (acceptedSorted : ofSchema schema.sort = .ok sorted) (name : String) :
    sorted.domain? name = (model.domain? name).map Domain.sortMembers := by
  apply Option.ext
  intro d
  rw [domain?_eq_some_iff acceptedSorted, Schema.mem_domains_sort_iff, Option.map_eq_some_iff]
  simp only [domain?_eq_some_iff accepted]
  constructor
  · intro given
    rcases given with ⟨⟨inner, declared, rfl⟩, named⟩
    exact ⟨inner, ⟨declared, named⟩, rfl⟩
  · intro given
    rcases given with ⟨inner, ⟨declared, named⟩, rfl⟩
    exact ⟨⟨inner, declared, rfl⟩, named⟩

end Model

namespace Closure

variable {schema : Schema} {model other sorted : Model}

theorem walk_of_agree (agree : Model.Agree model other) (entered : List String)
    (pending : Pending) : walk other entered pending = walk model entered pending := by
  fun_induction walk model entered pending with
  | case1 entered => rw [walk]
  | case2 entered origin rest target name old ih => rw [walk_of_entered rfl old, ih]
  | case3 entered origin rest target name fresh missing =>
    rw [walk_of_missing rfl fresh ((agree.type? name).trans missing)]
  | case4 entered origin rest target name fresh definition found ih =>
    rw [walk_of_declared rfl fresh ((agree.type? name).trans found), ih]
  | case8 entered origin rest tag => rw [walk]
  | case5 entered origin rest items least most ih | case6 entered origin rest ih
  | case7 entered origin rest properties ih | case9 entered origin rest _ ih
  | case10 entered origin rest ih | case11 entered origin rest ih
  | case12 entered origin rest ih | case13 entered origin rest ih =>
    rw [walk, ih]

theorem enterSeed_of_agree (agree : Model.Agree model other) (entered : Entered) (seed : Seed) :
    enterSeed other entered seed = enterSeed model entered seed := by
  have commands (name : QualifiedName) :
      enterCommand other entered name = enterCommand model entered name := by
    simp only [enterCommand, Model.command, agree.command?, walk_of_agree agree]
  have events (name : QualifiedName) :
      enterEvent other entered name = enterEvent model entered name := by
    simp only [enterEvent, Model.event, agree.event?, walk_of_agree agree]
  have types (name : QualifiedName) :
      enterType other entered name = enterType model entered name := by
    simp only [enterType, walk_of_agree agree]
  simp only [enterSeed, commands, events, types]

theorem enterSeeds_of_agree (agree : Model.Agree model other) (entered : Entered)
    (seeds : List Seed) : enterSeeds other entered seeds = enterSeeds model entered seeds := by
  induction seeds generalizing entered with
  | nil => rfl
  | cons seed rest ih => simp only [enterSeeds, enterSeed_of_agree agree, ih]

theorem restrict_sort (s : Schema) (entered : Entered) :
    restrict s.sort entered = (restrict s entered).sort := by
  rw [restrict_eq_restrictTo, restrict_eq_restrictTo, Schema.restrictTo_sort]

theorem filter_sort (accepted : Model.ofSchema schema = .ok model)
    (acceptedSorted : Model.ofSchema schema.sort = .ok sorted) (seeds : List Seed) :
    sorted.filter seeds = (model.filter seeds).map Schema.sort := by
  have agree := Model.agree_sort accepted acceptedSorted
  have same := (Model.indexes_of_ofSchema accepted).1
  have sameSorted := (Model.indexes_of_ofSchema acceptedSorted).1
  simp only [Model.filter, enterSeeds_of_agree agree, same, sameSorted, restrict_sort]
  cases enterSeeds model (.fill fun _ => []) seeds <;> rfl

/-- A sorted schema has a model if and only if the schema itself has one. Both find the same
members; a closure in the sorted schema fails with the same error as in the schema itself, or it
gives what that gives, sorted. -/
theorem sort_agrees (s : Schema) :
    ((∃ sorted, Model.ofSchema s.sort = .ok sorted) ↔ ∃ model, Model.ofSchema s = .ok model) ∧
      ∀ model sorted, Model.ofSchema s = .ok model → Model.ofSchema s.sort = .ok sorted →
        (∀ seeds, sorted.filter seeds = (model.filter seeds).map Schema.sort) ∧
        (∀ name, sorted.command? name = model.command? name) ∧
        (∀ name, sorted.event? name = model.event? name) ∧
        (∀ name, sorted.type? name = model.type? name) ∧
        ∀ name, sorted.domain? name = (model.domain? name).map Domain.sortMembers := by
  constructor
  · rw [Model.exists_ofSchema_iff, Model.exists_ofSchema_iff, Schema.unambiguous_sort_iff]
  · intro model sorted accepted acceptedSorted
    have agree := Model.agree_sort accepted acceptedSorted
    exact ⟨filter_sort accepted acceptedSorted, agree.command?, agree.event?, agree.type?,
      Model.domain?_sort accepted acceptedSorted⟩

def scatteredSchema : Schema where
  domains := [
    { name := "B"
      types := some
        [{ id := "V", shape := .unknown "tuple" }, { id := "U", shape := cyclicShape }] },
    { name := "A"
      commands := some [cyclicCommand]
      types := some [{ id := "T", shape := .reference "B.U" }] }]

theorem sort_scatteredSchema : scatteredSchema.sort = cyclicSchema := by
  have domains : compareNames "B" "A" = .gt := by decide +kernel
  have types : MemberKey.compare ⟨false, false, "V"⟩ ⟨false, false, "U"⟩ = .gt := by decide +kernel
  simp [scatteredSchema, cyclicSchema, Schema.sort, sortDomains, Domain.sortMembers, sortMembers,
    List.mergeSort, MemberKey.le, TypeDef.key, domains, types]

theorem sort_agrees_scatteredSchema : ∃ model sorted,
    Model.ofSchema scatteredSchema = .ok model ∧ Model.ofSchema cyclicSchema = .ok sorted ∧
      (model.filter [⟨.command, "A.go"⟩]).map Schema.sort = .ok cyclicPart ∧
      model.type? ⟨"B", "U"⟩ = sorted.type? ⟨"B", "U"⟩ := by
  obtain ⟨sorted, acceptedSorted, run⟩ := filter_cyclicSchema
  rw [← sort_scatteredSchema] at acceptedSorted
  obtain ⟨accepts, agrees⟩ := sort_agrees scatteredSchema
  obtain ⟨model, accepted⟩ := accepts.mp ⟨sorted, acceptedSorted⟩
  obtain ⟨filters, -, -, types, -⟩ := agrees model sorted accepted acceptedSorted
  rw [sort_scatteredSchema] at acceptedSorted
  exact ⟨model, sorted, accepted, acceptedSorted, (filters _).symm.trans run, (types _).symm⟩

end Closure
end SchemaTrace
