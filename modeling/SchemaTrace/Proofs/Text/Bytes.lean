import SchemaTrace.Text.Basic

/-! Byte lengths of texts, and the places in a text that a byte offset names. -/

namespace SchemaTrace

namespace Text

theorem byteLength_append (a b : Text) : byteLength (a ++ b) = byteLength a + byteLength b := by
  induction a with
  | nil => simp [byteLength]
  | cons c t ih =>
    simp only [List.cons_append, byteLength, ih]
    omega

theorem byteLength_pos {t : Text} (nonempty : t ≠ []) : 0 < byteLength t := by
  cases t with
  | nil => exact absurd rfl nonempty
  | cons c t =>
    have width := c.utf8Size_pos
    simp only [byteLength]
    omega

theorem after?_eq_some_iff {lead t rest : Text} :
    after? lead t = some rest ↔ t = lead ++ rest := by
  induction lead generalizing t with
  | nil => simp [after?, eq_comm]
  | cons l lead ih =>
    cases t with
    | nil => simp [after?]
    | cons c t =>
      by_cases same : l = c
      · simp [after?, same, ih]
      · have differs : ¬c = l := fun eq => same eq.symm
        simp [after?, same, differs]

theorem fromByte?_cons (width : Nat) (c : Char) (t : Text) :
    fromByte? (c.utf8Size + width) (c :: t) = fromByte? width t := by
  have positive := c.utf8Size_pos
  obtain ⟨n, eq⟩ : ∃ n, c.utf8Size + width = n + 1 := ⟨c.utf8Size + width - 1, by omega⟩
  have fits : c.utf8Size ≤ n + 1 := by omega
  have left : n + 1 - c.utf8Size = width := by omega
  rw [eq, fromByte?, if_pos fits, left]

theorem fromByte?_append (a b : Text) : fromByte? (byteLength a) (a ++ b) = some b := by
  induction a with
  | nil => simp [byteLength, fromByte?]
  | cons c t ih => rw [List.cons_append, byteLength, fromByte?_cons, ih]

theorem charsBefore?_cons (width : Nat) (c : Char) (t : Text) :
    charsBefore? (c.utf8Size + width) (c :: t) = (charsBefore? width t).map (· + 1) := by
  have positive := c.utf8Size_pos
  obtain ⟨n, eq⟩ : ∃ n, c.utf8Size + width = n + 1 := ⟨c.utf8Size + width - 1, by omega⟩
  have fits : c.utf8Size ≤ n + 1 := by omega
  have left : n + 1 - c.utf8Size = width := by omega
  rw [eq, charsBefore?, if_pos fits, left]

theorem charsBefore?_append (a b : Text) :
    charsBefore? (byteLength a) (a ++ b) = some a.length := by
  induction a with
  | nil => simp [byteLength, charsBefore?]
  | cons c t ih =>
    rw [List.cons_append, byteLength, charsBefore?_cons, ih, Option.map_some, List.length_cons]

theorem exists_append_of_byteLength_le {a b restA restB : Text}
    (same : a ++ restA = b ++ restB) (le : byteLength a ≤ byteLength b) :
    ∃ between, b = a ++ between := by
  rcases List.append_eq_append_iff.mp same with ⟨between, eq, -⟩ | ⟨between, eq, -⟩
  · exact ⟨between, eq⟩
  · cases between with
    | nil => exact ⟨[], by rw [eq, List.append_nil, List.append_nil]⟩
    | cons c between =>
      have width := byteLength_pos (List.cons_ne_nil c between)
      rw [eq, byteLength_append] at le
      omega

/-- A byte offset names one place in a text. -/
theorem append_inj_of_byteLength {a b restA restB : Text} (same : a ++ restA = b ++ restB)
    (width : byteLength a = byteLength b) : a = b ∧ restA = restB := by
  obtain ⟨between, rfl⟩ := exists_append_of_byteLength_le same (Nat.le_of_eq width)
  have none : between = [] := by
    cases between with
    | nil => rfl
    | cons c between =>
      have positive := byteLength_pos (List.cons_ne_nil c between)
      rw [byteLength_append] at width
      omega
  subst none
  rw [List.append_nil] at same ⊢
  exact ⟨rfl, List.append_cancel_left same⟩

theorem exists_append_of_byteLength_lt {a b restA restB : Text}
    (same : a ++ restA = b ++ restB) (less : byteLength a < byteLength b) :
    ∃ between, between ≠ [] ∧ b = a ++ between := by
  obtain ⟨between, eq⟩ := exists_append_of_byteLength_le same (Nat.le_of_lt less)
  refine ⟨between, ?_, eq⟩
  intro none
  rw [eq, none, List.append_nil] at less
  exact Nat.lt_irrefl _ less

theorem byteLength_lt_of_length_lt {a b restA restB : Text} (same : a ++ restA = b ++ restB)
    (less : a.length < b.length) : byteLength a < byteLength b := by
  obtain ⟨between, rfl⟩ := List.prefix_of_prefix_length_le (List.prefix_append a restA)
    (same ▸ List.prefix_append b restB) (Nat.le_of_lt less)
  have nonempty : between ≠ [] := by
    rintro rfl
    simp at less
  have width := byteLength_pos nonempty
  rw [byteLength_append]
  omega

end Text
end SchemaTrace
