import SchemaTrace.Proofs.Text.Pieces
import SchemaTrace.Schema.Basic
import SchemaTrace.Schema.QualifiedName

/-! Parts of a qualified name. The domain of a name is the text before its first dot, also of a
name whose member has dots of its own. -/

namespace SchemaTrace

namespace QualifiedName

def domainOf (name : String) : String := String.ofList (name.toList.takeWhile (· ≠ '.'))

theorem toList_toString (q : QualifiedName) :
    q.toString.toList = q.domain.toList ++ '.' :: q.member.toList := by
  simp [toString, String.toList_append]

theorem dot_mem_toString (q : QualifiedName) : '.' ∈ q.toString.toList := by
  rw [toList_toString]
  exact List.mem_append_right _ List.mem_cons_self

theorem domainOf_toString {q : QualifiedName} (plain : '.' ∉ q.domain.toList) :
    domainOf q.toString = q.domain := by
  have before : ∀ c ∈ q.domain.toList, decide (c ≠ '.') = true := by
    intro c member
    exact decide_eq_true fun eq => plain (eq ▸ member)
  have cut : (q.domain.toList ++ '.' :: q.member.toList).takeWhile (· ≠ '.') =
      q.domain.toList := by
    rw [List.takeWhile_append_of_pos before]
    simp
  rw [domainOf, toList_toString, cut, String.ofList_toList]

theorem plain_domainOf (name : String) : '.' ∉ (domainOf name).toList := by
  intro inside
  rw [domainOf, String.toList_ofList] at inside
  simpa using List.mem_takeWhile_imp inside

theorem domainOf_eq_self_iff {name : String} : domainOf name = name ↔ '.' ∉ name.toList := by
  constructor
  · intro same
    exact same ▸ plain_domainOf name
  · intro plain
    have whole : ∀ c ∈ name.toList, decide (c ≠ '.') = true :=
      fun c member => decide_eq_true fun eq => plain (eq ▸ member)
    rw [domainOf, List.takeWhile_eq_self_iff.mpr whole, String.ofList_toList]

theorem parse?_eq_some_iff {name : String} {q : QualifiedName} :
    parse? name = some q ↔ name = q.toString ∧ '.' ∉ q.domain.toList := by
  simp only [parse?, Option.map_eq_some_iff, Prod.exists]
  constructor
  · intro given
    rcases given with ⟨domain, member, found, rfl⟩
    obtain ⟨split, absent⟩ := Text.splitFirst?_eq_some_iff.mp found
    constructor
    · apply String.toList_inj.mp
      rw [toList_toString, split]
      simp
    · simpa using absent
  · intro given
    rcases given with ⟨rfl, plain⟩
    refine ⟨q.domain.toList, q.member.toList, ?_, by simp⟩
    exact Text.splitFirst?_eq_some_iff.mpr ⟨toList_toString q, plain⟩

theorem exists_parse?_eq_some_iff {name : String} :
    (∃ q, parse? name = some q) ↔ '.' ∈ name.toList := by
  constructor
  · intro given
    rcases given with ⟨q, parsed⟩
    rw [(parse?_eq_some_iff.mp parsed).1]
    exact dot_mem_toString q
  · intro dotted
    obtain ⟨a, b, split, absent⟩ := List.eq_append_cons_of_mem dotted
    exact ⟨⟨String.ofList a, String.ofList b⟩, by
      simp [parse?, Text.splitFirst?_eq_some_iff.mpr ⟨split, absent⟩]⟩

theorem resolve_of_parse? {reference current : String} {q : QualifiedName}
    (parsed : parse? reference = some q) : resolve reference current = q := by
  rw [resolve, parsed, Option.getD_some]

theorem resolve_of_bare {reference : String} (bare : '.' ∉ reference.toList) (current : String) :
    resolve reference current = ⟨current, reference⟩ := by
  cases parsed : parse? reference with
  | none => rw [resolve, parsed, Option.getD_none]
  | some q => exact absurd (exists_parse?_eq_some_iff.mp ⟨q, parsed⟩) bare

theorem plain_resolve (reference : String) {current : String} (plain : '.' ∉ current.toList) :
    '.' ∉ (resolve reference current).domain.toList := by
  cases parsed : parse? reference with
  | none => simpa [resolve, parsed] using plain
  | some q =>
    rw [resolve_of_parse? parsed]
    exact (parse?_eq_some_iff.mp parsed).2

end QualifiedName

open QualifiedName (domainOf)

/-- A dot in the name of a domain ends the domain of its members early. -/
theorem domainOf_key (d : Domain) (member : String) :
    domainOf (d.key member) = domainOf d.name := by
  have split : (d.key member).toList = d.name.toList ++ '.' :: member.toList := by
    simp [Domain.key, String.toList_append]
  rw [domainOf, domainOf, split, List.takeWhile_append]
  split
  · next whole =>
    rw [(List.takeWhile_prefix _).eq_of_length whole]
    simp
  · rfl

theorem eq_of_key_eq {d : Domain} {member domain name : String} (plain : '.' ∉ domain.toList)
    (bare : '.' ∉ name.toList)
    (same : d.key member = (⟨domain, name⟩ : QualifiedName).toString) :
    d.name = domain ∧ member = name := by
  have split : domain.toList ++ '.' :: name.toList = d.name.toList ++ '.' :: member.toList :=
    calc
      domain.toList ++ '.' :: name.toList = (d.key member).toList := by
        rw [same, QualifiedName.toList_toString]
      _ = d.name.toList ++ '.' :: member.toList := by simp [Domain.key, String.toList_append]
  have parts := (List.append_cons_inj_of_notMem plain bare).mp split
  exact ⟨String.toList_inj.mp parts.1.symm, String.toList_inj.mp parts.2.2.symm⟩

end SchemaTrace
