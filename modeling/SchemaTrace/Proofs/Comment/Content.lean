import SchemaTrace.Proofs.Comment.Annotation
import SchemaTrace.Proofs.Comment.Mention

/-! What a comment says beyond the symbol it mentions. A comment says no more exactly if its prose
is the tag, whitespace and the symbol, and then nothing but the symbol is left of it without its
leading tag. -/

namespace SchemaTrace.Comment

open Text (after? after?_eq_some_iff byteLength byteLength_append byteLength_pos isWhitespace
  takeWhile_append_of_head trimStart)

/-- A place of a text where a symbol follows the tag, and how far the symbol reaches from there. -/
structure Occurs (tag prose : Text) (m : Mention) (before gap behind : Text) : Prop where
  place : prose = before ++ (tag ++ gap ++ m.symbol) ++ behind
  follows : ∃ dots rest, behind = dots ++ rest ∧ Follows gap m.symbol dots rest
  length : m.length = byteLength (tag ++ gap ++ m.symbol)

variable {tag prose : Text} {m : Mention}

/-! ### Where a mention was read -/

theorem Occurs.cons {before gap behind : Text} (occurs : Occurs tag prose m before gap behind)
    (c : Char) : Occurs tag (c :: prose) m (c :: before) gap behind where
  place := congrArg (c :: ·) occurs.place
  follows := occurs.follows
  length := occurs.length

theorem exists_occurs_of_mem_mentionsFrom (skip : Nat) (t : Text)
    (member : m ∈ mentionsFrom tag skip t) :
    ∃ before gap behind, Occurs tag t m before gap behind := by
  induction t generalizing skip with
  | nil => cases skip <;> cases member
  | cons c t ih =>
    have later (skip : Nat) (listed : m ∈ mentionsFrom tag skip t) :
        ∃ before gap behind, Occurs tag (c :: t) m before gap behind := by
      obtain ⟨before, gap, behind, occurs⟩ := ih skip listed
      exact ⟨c :: before, gap, behind, occurs.cons c⟩
    cases skip with
    | succ skip => exact later skip member
    | zero =>
      rw [mentionsFrom] at member
      cases found : after? tag (c :: t) with
      | none =>
        rw [found] at member
        exact later 0 member
      | some rest =>
        rw [found] at member
        simp only at member
        cases named : symbolAfterTag? rest with
        | none =>
          rw [named] at member
          exact later _ member
        | some read =>
          obtain ⟨gap, symbol⟩ := read
          rw [named] at member
          rcases List.mem_cons.mp member with rfl | listed
          · obtain ⟨dots, behind, rfl, follows⟩ := symbolAfterTag?_eq_some_iff.mp named
            refine ⟨[], gap, dots ++ behind, ?_, ⟨dots, behind, rfl, follows⟩, rfl⟩
            simp only [after?_eq_some_iff.mp found, List.nil_append, List.append_assoc]
          · exact later _ listed

theorem mem_of_mem_firstMentions {seen : List Text} {found : List Mention}
    (member : m ∈ firstMentions seen found) : m ∈ found := by
  fun_induction firstMentions seen found with
  | case1 seen => exact member
  | case2 seen other rest known ih => exact List.mem_cons_of_mem other (ih member)
  | case3 seen other rest fresh ih =>
    rcases List.mem_cons.mp member with rfl | later
    · exact List.mem_cons_self
    · exact List.mem_cons_of_mem other (ih later)

/-! ### Prose that says no more than the symbol -/

theorem Follows.whole {gap symbol dots rest : Text} (follows : Follows gap symbol dots rest)
    {white : Text} (nonempty : white ≠ []) (space : ∀ c ∈ white, isWhitespace c = true) :
    Follows white symbol [] [] where
  gap_ne_nil := nonempty
  whitespace := space
  run c member := follows.run c (List.mem_append_left dots (by simpa using member))
  maximal := by simp
  dots := by simp
  symbol_ne_nil := follows.symbol_ne_nil
  starts := follows.starts
  ends := follows.ends

theorem Follows.trimStart_append {gap symbol dots rest : Text}
    (follows : Follows gap symbol dots rest) : trimStart (gap ++ symbol) = symbol := by
  refine (takeWhile_append_of_head follows.whitespace ?_).2
  intro c member
  have inside := List.mem_append_left dots (List.mem_of_mem_head? member)
  exact isWhitespace_of_isSymbolChar (follows.run c inside)

theorem Occurs.eq_of_length_le {before gap behind : Text}
    (occurs : Occurs tag prose m before gap behind) (short : byteLength prose ≤ m.length) :
    prose = tag ++ (gap ++ m.symbol) := by
  have width := congrArg byteLength occurs.place
  rw [byteLength_append, byteLength_append, ← occurs.length] at width
  have empty {t : Text} (none : byteLength t = 0) : t = [] := by
    by_contra nonempty
    have := byteLength_pos nonempty
    omega
  have nothingBefore := empty (t := before) (by omega)
  have nothingBehind := empty (t := behind) (by omega)
  rw [occurs.place, nothingBefore, nothingBehind, List.nil_append, List.append_nil,
    List.append_assoc]

theorem Occurs.symbol_ne {before gap behind : Text}
    (occurs : Occurs tag prose m before gap behind) : prose ≠ m.symbol := by
  intro same
  obtain ⟨dots, rest, -, follows⟩ := occurs.follows
  have width := congrArg byteLength (same.symm.trans occurs.place)
  have gapWidth := byteLength_pos follows.gap_ne_nil
  simp only [byteLength_append] at width
  omega

theorem withoutLeadingTag_cases (tag prose : Text) :
    (∃ gap rest, prose = tag ++ (gap ++ rest) ∧ gap ≠ [] ∧ (∀ c ∈ gap, isWhitespace c = true) ∧
      withoutLeadingTag tag prose = rest) ∨ withoutLeadingTag tag prose = prose := by
  cases found : after? tag prose with
  | none => exact .inr (by rw [withoutLeadingTag, found])
  | some rest =>
    by_cases space : rest.head?.any isWhitespace = true
    · refine .inl ⟨rest.takeWhile isWhitespace, trimStart rest, ?_, ?_,
        fun _ => List.mem_takeWhile_imp, ?_⟩
      · rw [trimStart, List.takeWhile_append_dropWhile]
        exact after?_eq_some_iff.mp found
      · cases rest with
        | nil => simp at space
        | cons c rest => simp_all
      · rw [withoutLeadingTag, found]
        exact if_pos space
    · refine .inr ?_
      rw [withoutLeadingTag, found]
      exact if_neg space

theorem withoutLeadingTag_append {gap rest : Text} (nonempty : gap ≠ [])
    (space : ∀ c ∈ gap, isWhitespace c = true) :
    withoutLeadingTag tag (tag ++ (gap ++ rest)) = trimStart (gap ++ rest) := by
  obtain ⟨c, more, rfl⟩ := List.exists_cons_of_ne_nil nonempty
  rw [withoutLeadingTag, after?_eq_some_iff.mpr rfl]
  exact if_pos (space c List.mem_cons_self)

theorem length_of_mem_mentions_whole (tagged : tag ≠ []) {gap symbol : Text}
    (follows : Follows gap symbol [] [])
    (member : m ∈ mentions tag (tag ++ (gap ++ symbol))) :
    m.length = byteLength (tag ++ (gap ++ symbol)) := by
  have only := mentions_of_follows tagged follows
  rw [List.append_nil, List.append_nil, List.append_nil] at only
  rw [only] at member
  rw [List.mem_singleton.mp member, List.append_assoc]

/-- What is left without the leading tag is the symbol exactly if its first mention, wherever the
prose holds others, is as long as the prose. -/
theorem byteLength_le_length_iff (tagged : tag ≠ [])
    (member : m ∈ firstMentions [] (mentions tag prose)) :
    byteLength prose ≤ m.length ↔ withoutLeadingTag tag prose = m.symbol := by
  have listed := mem_of_mem_firstMentions member
  obtain ⟨before, gap, behind, occurs⟩ := exists_occurs_of_mem_mentionsFrom 0 prose listed
  obtain ⟨dots, rest, -, follows⟩ := occurs.follows
  constructor
  · intro short
    rw [occurs.eq_of_length_le short,
      withoutLeadingTag_append follows.gap_ne_nil follows.whitespace]
    exact follows.trimStart_append
  · intro left
    rcases withoutLeadingTag_cases tag prose with ⟨white, own, split, nonempty, space, eq⟩ | whole
    · obtain rfl := eq.symm.trans left
      rw [split] at listed ⊢
      exact (length_of_mem_mentions_whole tagged (follows.whole nonempty space) listed).ge
    · exact absurd (whole.symm.trans left) occurs.symbol_ne

/-! ### The annotations of a text -/

theorem exists_annotationsOf_of_mem_parse {content : Text} {symbol : String} {a : Annotation}
    (listed : a ∈ ((parse tag content).get? symbol).getD []) :
    tag ≠ [] ∧ ∃ span ∈ spans content,
      (symbol.toList, a) ∈ annotationsOf tag (.ofText content) span := by
  rw [parse_get?] at listed
  obtain ⟨⟨named, own⟩, kept, rfl⟩ := List.mem_map.mp listed
  obtain ⟨member, same⟩ := List.mem_filter.mp kept
  unfold annotations at member
  split at member
  · cases member
  · next held =>
    obtain ⟨span, inside, annotated⟩ := List.mem_flatMap.mp member
    obtain rfl := of_decide_eq_true same
    rw [String.toList_ofList]
    exact ⟨by simp_all, span, inside, annotated⟩

/-- A comment says more than a symbol it mentions exactly if the text of the annotation is not the
symbol alone. -/
theorem contentful_eq_false_iff (tag content : Text) (symbol : String) (a : Annotation)
    (listed : a ∈ ((parse tag content).get? symbol).getD []) :
    a.contentful = false ↔ a.text = symbol := by
  obtain ⟨tagged, span, -, annotated⟩ := exists_annotationsOf_of_mem_parse listed
  unfold annotationsOf at annotated
  split at annotated
  · obtain ⟨m, member, eq⟩ := List.mem_map.mp annotated
    obtain ⟨named, rfl⟩ := Prod.mk.inj eq
    have exact := byteLength_le_length_iff tagged member
    rw [named] at exact
    simp only [gt_iff_lt, decide_eq_false_iff_not, Nat.not_lt, exact]
    constructor
    · intro left
      rw [left, String.ofList_toList]
    · rintro rfl
      rw [String.toList_ofList]
  · cases annotated

/-- Comments with a tag in which the symbol they mention stands too. -/
def overlappingTag : Text := "// a b a\nint n; /* a b a b a */".toList

theorem contentful_eq_false_iff_overlappingTag :
    ∃ bare more, ((parse "a b".toList overlappingTag).get? "a").getD [] = [bare, more] ∧
      (bare.contentful = false ∧ bare.text = "a") ∧
      (more.contentful = true ∧ more.text = "a b a") := by
  have parsed : ((parse "a b".toList overlappingTag).get? "a").getD [] =
      [⟨⟨1, 1⟩, "a", false⟩, ⟨⟨2, 8⟩, "a b a", true⟩] := by
    decide +kernel
  refine ⟨_, _, parsed, ⟨?_, rfl⟩, rfl, rfl⟩
  apply (contentful_eq_false_iff "a b".toList overlappingTag "a" _ ?_).mpr rfl
  rw [parsed]
  exact List.mem_cons_self

end SchemaTrace.Comment
