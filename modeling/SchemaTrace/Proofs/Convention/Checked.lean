import SchemaTrace.Convention.Basic
import SchemaTrace.Proofs.Except

/-! What compiling a convention checks: the patterns of its subsets, the subsets it refers to, and
that each of its rules has needles, all of them templates. -/

namespace SchemaTrace

namespace Convention

variable {c : Convention} {filters : SortedMap PathFilter}

theorem checkSubsets_eq_ok_iff {names : List String} :
    c.checkSubsets filters names = .ok () ↔ ∀ name ∈ names, filters.contains name = true := by
  induction names with
  | nil => simp [checkSubsets]
  | cons name rest ih =>
    rw [checkSubsets]
    split
    · next known => simp [ih, known]
    · next unknown => simp [unknown]

theorem checkTemplates_eq_ok_iff {templates : List String} :
    checkTemplates templates = .ok () ↔
      ∀ template ∈ templates, Template.check template.toList = .ok () := by
  induction templates with
  | nil => simp [checkTemplates]
  | cons template rest ih =>
    rw [checkTemplates]
    split
    · next fault failed => simp [failed]
    · next passed => simp [ih, passed]

structure IsRule (rule : NeedleRule) : Prop where
  nonempty : rule.needles ≠ []
  templates : ∀ template ∈ rule.needles, Template.check template.toList = .ok ()

theorem checkRule_eq_ok_iff {kind : MemberKind} :
    c.checkRule kind = .ok () ↔ ∀ rule, c.rules.get kind = some rule → IsRule rule := by
  unfold checkRule
  split
  · next none => simp [none]
  · next rule held =>
    split
    · next empty =>
      constructor
      · intro passed
        cases passed
      · intro all
        exact absurd (List.isEmpty_iff.mp empty) (all rule held).nonempty
    · next nonempty =>
      rw [checkTemplates_eq_ok_iff]
      constructor
      · intro templates other same
        obtain rfl := Option.some.inj (held.symm.trans same)
        exact ⟨fun none => nonempty (List.isEmpty_iff.mpr none), templates⟩
      · intro all
        exact (all rule held).templates

/-- A convention compiles exactly if the patterns of its subsets do, the subsets it refers to are
among them, and each of its rules can be searched with. -/
theorem compile_eq_ok_iff : c.compile = .ok filters ↔
    filtersFrom (SortedMap.empty.insert allFiles .all) c.subsets.toList = .ok filters ∧
      (∀ name ∈ c.referredSubsets, filters.contains name = true) ∧
        ∀ kind rule, c.rules.get kind = some rule → IsRule rule := by
  rw [compile, Except.bind_eq_ok_iff]
  simp only [Except.check_bind_eq_ok_iff, checkSubsets_eq_ok_iff, checkRule_eq_ok_iff, pure,
    Except.pure, Except.ok.injEq]
  constructor
  · rintro ⟨_, built, referred, commands, events, types, rfl⟩
    refine ⟨built, referred, fun kind => ?_⟩
    cases kind with
    | command => exact commands
    | event => exact events
    | type => exact types
  · rintro ⟨built, referred, rules⟩
    exact ⟨_, built, referred, rules .command, rules .event, rules .type, rfl⟩

end Convention
end SchemaTrace
