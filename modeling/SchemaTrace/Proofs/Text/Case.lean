import SchemaTrace.Text.Case

/-! What case mapping may bring into a text. Every character has an image, and an opening brace is
the image of no other character, neither in upper nor in lower case. -/

namespace SchemaTrace.Text

def CaseRun.LeadsTo (run : CaseRun) (target : Nat) : Prop :=
  run.first ≤ (target - run.shift : Int) ∧ (target - run.shift : Int) ≤ run.last

instance (run : CaseRun) (target : Nat) : Decidable (run.LeadsTo target) :=
  inferInstanceAs (Decidable (_ ∧ _))

theorem CaseRun.leadsTo_of_apply? {run : CaseRun} {n image : Nat} (positive : 0 < image)
    (applied : run.apply? n = some image) : run.LeadsTo image := by
  simp only [Option.ite_none_right_eq_some, CaseRun.apply?, Bool.and_eq_true, decide_eq_true_eq,
    Option.some.injEq] at applied
  unfold CaseRun.LeadsTo
  omega

theorem eq_toNat_of_ofNat_eq {n : Nat} {c : Char} (positive : 0 < c.toNat)
    (same : Char.ofNat n = c) : n = c.toNat := by
  subst same
  by_cases valid : n.isValidChar
  · have image : Char.ofNat n = Char.ofNatAux n valid := dif_pos valid
    rw [image]
    rfl
  · have image : Char.ofNat n = Char.ofNat 0 := dif_neg valid
    rw [image] at positive
    exact absurd positive (Nat.lt_irrefl 0)

structure LeadNowhere (runs : List (Nat × Nat × Nat × Int)) (several : List (Nat × List Nat))
    (target : Nat) : Prop where
  runs : ∀ run ∈ runs, ¬CaseRun.LeadsTo ⟨run.1, run.2.1, run.2.2.1, run.2.2.2⟩ target
  several : ∀ entry ∈ several, target ∉ entry.2

theorem eq_of_mem_mapChar {runs : List (Nat × Nat × Nat × Int)} {several : List (Nat × List Nat)}
    {c d : Char} (positive : 0 < d.toNat) (apart : LeadNowhere runs several d.toNat)
    (member : d ∈ mapChar runs several c) : d = c := by
  unfold mapChar at member
  split at member
  · next images listed =>
    obtain ⟨n, inside, same⟩ := List.mem_map.mp member
    obtain ⟨before, behind, rfl, -⟩ := List.lookup_eq_some_iff.mp listed
    rw [eq_toNat_of_ofNat_eq positive same] at inside
    exact absurd inside (apart.several _ (List.mem_append_right before List.mem_cons_self))
  · split at member
    · next image found =>
      obtain ⟨run, listed, applied⟩ := List.exists_of_findSome?_eq_some found
      have same := eq_toNat_of_ofNat_eq positive (List.mem_singleton.mp member).symm
      rw [same] at applied
      exact absurd (CaseRun.leadsTo_of_apply? positive applied) (apart.runs run listed)
    · exact List.mem_singleton.mp member

theorem leadNowhere_lower : LeadNowhere lowerRuns lowerSeveral 123 :=
  ⟨by decide +kernel, by decide +kernel⟩

theorem leadNowhere_upper : LeadNowhere upperRuns upperSeveral 123 :=
  ⟨by decide +kernel, by decide +kernel⟩

/-- A mapping that is given by a function on ASCII and by tables beyond. -/
theorem brace_not_mem_of_leadNowhere {runs : List (Nat × Nat × Nat × Int)}
    {several : List (Nat × List Nat)} {f : Char → Char} {c : Char}
    (onAscii : ∀ n < 128, f (Char.ofNat n) = '\x7b' → n = 123)
    (beyond : LeadNowhere runs several 123) (other : c ≠ '\x7b') :
    '\x7b' ∉ if c.toNat < 128 then [f c] else mapChar runs several c := by
  intro member
  split at member
  · next ascii =>
    have code : c.toNat = 123 := by
      apply onAscii c.toNat ascii
      rw [Char.ofNat_toNat]
      exact (List.mem_singleton.mp member).symm
    exact other (Char.ofNat_toNat c ▸ congrArg Char.ofNat code)
  · exact other (eq_of_mem_mapChar (by decide) beyond member).symm

theorem brace_not_mem_lowerChar {c : Char} (other : c ≠ '\x7b') : '\x7b' ∉ lowerChar c :=
  brace_not_mem_of_leadNowhere (by decide +kernel) leadNowhere_lower other

theorem brace_not_mem_upperChar {c : Char} (other : c ≠ '\x7b') : '\x7b' ∉ upperChar c :=
  brace_not_mem_of_leadNowhere (by decide +kernel) leadNowhere_upper other

theorem mapChar_ne_nil {several : List (Nat × List Nat)}
    (images : ∀ entry ∈ several, entry.2 ≠ []) (runs : List (Nat × Nat × Nat × Int)) (c : Char) :
    mapChar runs several c ≠ [] := by
  unfold mapChar
  split
  · next found listed =>
    obtain ⟨before, behind, rfl, -⟩ := List.lookup_eq_some_iff.mp listed
    have held := images _ (List.mem_append_right before List.mem_cons_self)
    exact fun none => held (List.map_eq_nil_iff.mp none)
  · split
    · exact List.cons_ne_nil _ _
    · exact List.cons_ne_nil _ _

theorem lowerChar_ne_nil (c : Char) : lowerChar c ≠ [] := by
  unfold lowerChar
  split
  · exact List.cons_ne_nil _ _
  · exact mapChar_ne_nil (by decide) _ _

theorem upperChar_ne_nil (c : Char) : upperChar c ≠ [] := by
  unfold upperChar
  split
  · exact List.cons_ne_nil _ _
  · exact mapChar_ne_nil (by decide +kernel) _ _

end SchemaTrace.Text
