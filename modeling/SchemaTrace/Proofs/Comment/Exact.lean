import Mathlib.Data.List.Forall2
import SchemaTrace.Proofs.Comment.Annotation
import SchemaTrace.Proofs.Comment.Clean
import SchemaTrace.Proofs.Comment.Mention

/-! The annotations of a symbol are those of the comments that mention it, one for each. Looking for
the tag in the raw text first loses none of them, since a tag that lies within a line of the prose
lies within a line of the raw comment. -/

namespace SchemaTrace.Comment

open Text (byteLength contains contains_eq_true_iff)

def mentioning (tag symbol content : Text) : List Span :=
  (spans content).filter fun span => Mentions tag symbol (clean span.raw)

/-- An annotation stands where its comment begins and holds the prose of the comment. -/
structure Annotates (tag content : Text) (span : Span) (a : Annotation) : Prop where
  position : ∃ before rest, content = before ++ span.raw ++ rest ∧
    span.start = byteLength before ∧ a.position = .after before
  text : a.text = String.ofList (withoutLeadingTag tag (clean span.raw))

variable {tag : Text}

theorem IsMarker.ne_nil (marker : IsMarker tag) : tag ≠ [] := by
  obtain ⟨c, rest, eq, -⟩ := marker.first
  exact eq ▸ List.cons_ne_nil c rest

/-! ### The tag in the raw text -/

theorem infix_of_mentions {symbol prose : Text} (mentioned : Mentions tag symbol prose) :
    tag <:+: prose := by
  obtain ⟨before, t, rfl, gap, dots, rest, rfl, -⟩ := mentioned
  exact ⟨before, gap ++ (symbol ++ dots) ++ rest, by simp only [List.append_assoc]⟩

theorem contains_raw_of_mentions (marker : IsMarker tag) {symbol raw : Text}
    (mentioned : Mentions tag symbol (clean raw)) : contains tag raw = true :=
  contains_eq_true_iff.mpr
    (infix_raw_of_infix_clean marker.ne_nil marker.oneLine (infix_of_mentions mentioned))

/-- A text without the tag has no comment with it, so looking for the tag first changes nothing. -/
theorem annotations_eq_flatMap (marker : IsMarker tag) (content : Text) :
    annotations tag content =
      (spans content).flatMap (annotationsOf tag (.ofText content)) := by
  rw [annotations, List.isEmpty_eq_false_iff.mpr marker.ne_nil, Bool.false_or]
  cases held : contains tag content with
  | true => rfl
  | false =>
    symm
    apply List.flatMap_eq_nil_iff.mpr
    intro span member
    obtain ⟨before, rest, eq, -⟩ := (cuts_spans content).exists_split member
    have absent : contains tag span.raw = false := by
      rw [Bool.eq_false_iff]
      intro inside
      have found := (contains_eq_true_iff.mp inside).trans ⟨before, rest, eq.symm⟩
      rw [contains_eq_true_iff.mpr found] at held
      cases held
    simp [annotationsOf, absent]

/-! ### One comment -/

def annotationsAbout (tag : Text) (lines : LineIndex) (symbol : Text) (span : Span) :
    List Annotation :=
  ((annotationsOf tag lines span).filter fun a => a.1 = symbol).map (·.2)

theorem exists_mem_annotationsOf_iff (marker : IsMarker tag) (lines : LineIndex) {span : Span}
    {symbol : Text} : (∃ a ∈ annotationsOf tag lines span, a.1 = symbol) ↔
      Mentions tag symbol (clean span.raw) := by
  cases held : contains tag span.raw with
  | true =>
    have first := @exists_mem_firstMentions_iff [] (mentions tag (clean span.raw)) symbol
      List.not_mem_nil
    rw [annotationsOf, if_pos held, ← exists_mem_mentions_iff marker, ← first]
    simp only [List.mem_map, exists_exists_and_eq_and]
  | false =>
    have absent : ¬Mentions tag symbol (clean span.raw) := by
      intro mentioned
      rw [contains_raw_of_mentions marker mentioned] at held
      cases held
    simp [annotationsOf, held, absent]

theorem annotationsAbout_eq_nil (marker : IsMarker tag) (lines : LineIndex) {symbol : Text}
    {span : Span} (absent : ¬Mentions tag symbol (clean span.raw)) :
    annotationsAbout tag lines symbol span = [] := by
  rw [annotationsAbout, List.map_eq_nil_iff, List.filter_eq_nil_iff]
  intro a member same
  exact absent ((exists_mem_annotationsOf_iff marker lines).mp ⟨a, member, of_decide_eq_true same⟩)

theorem exists_annotationsAbout_eq (marker : IsMarker tag) (lines : LineIndex) {symbol : Text}
    {span : Span} (mentioned : Mentions tag symbol (clean span.raw)) :
    ∃ a, annotationsAbout tag lines symbol span = [a.2] ∧ a ∈ annotationsOf tag lines span := by
  obtain ⟨a, member, named⟩ := (exists_mem_annotationsOf_iff marker lines).mpr mentioned
  have distinct := (annotationsOf_pairwise tag lines span).filter fun a => a.1 = symbol
  have inside : a ∈ (annotationsOf tag lines span).filter fun a => a.1 = symbol :=
    List.mem_filter.mpr ⟨member, decide_eq_true named⟩
  have all : ∀ b ∈ (annotationsOf tag lines span).filter fun a => a.1 = symbol, b.1 = symbol :=
    fun b held => of_decide_eq_true (List.mem_filter.mp held).2
  rw [annotationsAbout]
  cases listed : (annotationsOf tag lines span).filter fun a => a.1 = symbol with
  | nil => simp [listed] at inside
  | cons first rest =>
    rw [listed] at distinct inside all
    cases rest with
    | nil =>
      obtain rfl := List.mem_singleton.mp inside
      exact ⟨a, rfl, member⟩
    | cons second rest =>
      have differ := List.rel_of_pairwise_cons distinct List.mem_cons_self
      have same : first.1 = second.1 :=
        (all first List.mem_cons_self).trans
          (all second (List.mem_cons_of_mem first List.mem_cons_self)).symm
      exact absurd same differ

theorem annotates_of_mem {content : Text} {span : Span} (held : span ∈ spans content)
    {a : Text × Annotation} (member : a ∈ annotationsOf tag (.ofText content) span) :
    Annotates tag content span a.2 := by
  obtain ⟨before, rest, eq, start⟩ := (cuts_spans content).exists_split held
  rw [Nat.zero_add] at start
  constructor
  · refine ⟨before, rest, eq, start, ?_⟩
    rw [List.append_assoc] at eq
    rw [position_of_mem_annotationsOf member, start, eq, LineIndex.locate_of_append]
  · unfold annotationsOf at member
    split at member
    · obtain ⟨m, -, rfl⟩ := List.mem_map.mp member
      rfl
    · cases member

/-! ### All comments -/

theorem forall₂_filter_flatMap {α β : Type} {R : α → β → Prop} {chosen : α → Bool}
    {yields : α → List β} {l : List α}
    (one : ∀ a ∈ l, chosen a = true → ∃ b, yields a = [b] ∧ R a b)
    (none : ∀ a ∈ l, chosen a = false → yields a = []) :
    List.Forall₂ R (l.filter chosen) (l.flatMap yields) := by
  induction l with
  | nil => exact .nil
  | cons a rest ih =>
    have later := ih (fun b member => one b (List.mem_cons_of_mem a member))
      (fun b member => none b (List.mem_cons_of_mem a member))
    rw [List.flatMap_cons]
    cases choice : chosen a with
    | true =>
      obtain ⟨b, eq, related⟩ := one a List.mem_cons_self choice
      rw [List.filter_cons_of_pos choice, eq]
      exact .cons related later
    | false =>
      rw [List.filter_cons_of_neg (by simp [choice]), none a List.mem_cons_self choice]
      exact later

theorem parse_get?_eq_flatMap (marker : IsMarker tag) (content : Text) (symbol : String) :
    ((parse tag content).get? symbol).getD [] =
      (spans content).flatMap (annotationsAbout tag (.ofText content) symbol.toList) := by
  have same (a : Text × Annotation) : String.ofList a.1 = symbol ↔ a.1 = symbol.toList := by
    constructor
    · rintro rfl
      rw [String.toList_ofList]
    · intro eq
      rw [eq, String.ofList_toList]
  calc
    _ = ((annotations tag content).filter fun a => String.ofList a.1 = symbol).map (·.2) :=
      parse_get? tag content symbol
    _ = ((annotations tag content).filter fun a => a.1 = symbol.toList).map (·.2) := by
      simp only [same]
    _ = _ := by
      rw [annotations_eq_flatMap marker, List.filter_flatMap, List.map_flatMap]
      rfl

theorem forall₂_annotates (marker : IsMarker tag) (content : Text) (symbol : String) :
    List.Forall₂ (Annotates tag content) (mentioning tag symbol.toList content)
      (((parse tag content).get? symbol).getD []) := by
  rw [parse_get?_eq_flatMap marker]
  refine forall₂_filter_flatMap (fun span held mentioned => ?_) fun span held absent => ?_
  · obtain ⟨a, eq, member⟩ :=
      exists_annotationsAbout_eq marker (.ofText content) (of_decide_eq_true mentioned)
    exact ⟨a.2, eq, annotates_of_mem held member⟩
  · exact annotationsAbout_eq_nil marker (.ofText content) (of_decide_eq_false absent)

theorem parse_get?_eq_none_iff {content : Text} {symbol : String} :
    (parse tag content).get? symbol = none ↔ ((parse tag content).get? symbol).getD [] = [] := by
  have entered := SortedMap.isSome_foldl_append (annotations tag content)
    (fun a => String.ofList a.1) (fun a => [a.2]) .empty symbol
  simp only [SortedMap.get?_empty, Option.isSome_none, Bool.false_eq_true, false_or] at entered
  calc
    _ ↔ symbol ∉ (annotations tag content).map fun a => String.ofList a.1 := by
      rw [← Option.not_isSome_iff_eq_none]
      exact not_congr entered
    _ ↔ _ := by
      rw [parse_get?, List.map_eq_nil_iff, List.filter_eq_nil_iff]
      simp

/-- A symbol has one annotation for each comment whose prose mentions it, in the order of the
comments, and a symbol that no comment mentions has no entry. -/
theorem parse_exact (marker : IsMarker tag) (content : Text) (symbol : String) :
    ((parse tag content).get? symbol = none ↔ mentioning tag symbol.toList content = []) ∧
      List.Forall₂ (Annotates tag content) (mentioning tag symbol.toList content)
        (((parse tag content).get? symbol).getD []) ∧
      (((parse tag content).get? symbol).getD []).Pairwise fun a b =>
        a.position.Before b.position := by
  have exact := forall₂_annotates marker content symbol
  refine ⟨?_, exact, parse_pairwise tag content symbol⟩
  rw [parse_get?_eq_none_iff, ← List.length_eq_zero_iff, ← exact.length_eq, List.length_eq_zero_iff]

theorem isMarker_defaultTag : IsMarker defaultTag.toList :=
  ⟨by decide, '@', "cdp".toList, by decide, by decide, by decide, by decide⟩

/-- A comment with the tag on one line and the symbol, behind which dots stand, on the next. -/
def splitMention : Text := '/' :: '*' :: " Sends @cdp\n * A.b... */".toList

theorem spans_splitMention : spans splitMention = [⟨.block, 0, splitMention⟩] := by
  have closed : closeBlock " Sends @cdp\n * A.b... */".toList =
      (" Sends @cdp\n * A.b... */".toList, []) := by
    decide +kernel
  rw [splitMention, spans, spansFrom.eq_2, closed, spansFrom]

theorem mentioning_splitMention :
    mentioning defaultTag.toList "A.b".toList splitMention = [⟨.block, 0, splitMention⟩] ∧
      mentioning defaultTag.toList "A.b.".toList splitMention = [] := by
  simp only [mentioning, spans_splitMention]
  decide +kernel

theorem parse_exact_splitMention :
    (∃ a, ((parse defaultTag.toList splitMention).get? "A.b").getD [] = [a] ∧
      Annotates defaultTag.toList splitMention ⟨.block, 0, splitMention⟩ a) ∧
    (parse defaultTag.toList splitMention).get? "A.b." = none := by
  obtain ⟨mentioned, absent⟩ := mentioning_splitMention
  constructor
  · have annotated := (parse_exact isMarker_defaultTag splitMention "A.b").2.1
    rw [mentioned] at annotated
    obtain ⟨a, rest, annotates, none, eq⟩ := List.forall₂_cons_left_iff.mp annotated
    rw [eq, List.forall₂_nil_left_iff.mp none]
    exact ⟨a, rfl, annotates⟩
  · exact (parse_exact isMarker_defaultTag splitMention "A.b.").1.mpr absent

end SchemaTrace.Comment
