import SchemaTrace.Needle.Template
import SchemaTrace.Proofs.Except
import SchemaTrace.Proofs.Text.Case
import SchemaTrace.Proofs.Text.Replace

/-! Templates as lists of pieces. A template that passes its check is read in one way as characters
and placeholders, and expanding it puts in the values of all placeholders at once. Replacing one
placeholder after the other comes to the same, since no value holds an opening brace: what was put
in is never looked at again. -/

namespace SchemaTrace.Template

open Text (brace_not_mem_lowerChar brace_not_mem_upperChar lowerChar_ne_nil
  mem_of_mem_replaceFrom replace replace_append replace_append_of_not_mem replace_cons
  replace_ne_nil splitFirst? splitFirst?_eq_some_iff upperChar_ne_nil)

inductive Piece where
  | char (c : Char) (plain : c ≠ '\x7b')
  | placeholder (p : Placeholder)

def Piece.text (value : Placeholder → Text) : Piece → Text
  | .char c _ => [c]
  | .placeholder p => value p

def render (value : Placeholder → Text) (pieces : List Piece) : Text :=
  pieces.flatMap (Piece.text value)

def BracesOpen (t : Text) : Prop :=
  ∀ before rest, t = before ++ '\x7b' :: rest → ∃ p : Placeholder, p.written <+: '\x7b' :: rest

/-! ### Placeholders as they are written -/

namespace Placeholder

theorem brace_not_mem_name (p : Placeholder) : '\x7b' ∉ p.name := by
  cases p <;> decide

theorem close_not_mem_name (p : Placeholder) : '\x7d' ∉ p.name := by
  cases p <;> decide

theorem name_inj {p q : Placeholder} (same : p.name = q.name) : p = q := by
  revert same
  cases p <;> cases q <;> decide

theorem written_append (p : Placeholder) (rest : Text) :
    p.written ++ rest = '\x7b' :: (p.name ++ '\x7d' :: rest) := by
  simp [written]

theorem eq_of_written_append {p q : Placeholder} {rest rest' : Text}
    (same : p.written ++ rest = q.written ++ rest') : p = q ∧ rest = rest' := by
  rw [p.written_append, q.written_append] at same
  have first : splitFirst? '\x7d' (p.name ++ '\x7d' :: rest) = some (p.name, rest) :=
    splitFirst?_eq_some_iff.mpr ⟨rfl, p.close_not_mem_name⟩
  have second : splitFirst? '\x7d' (q.name ++ '\x7d' :: rest') = some (q.name, rest') :=
    splitFirst?_eq_some_iff.mpr ⟨rfl, q.close_not_mem_name⟩
  rw [(List.cons.inj same).2, second] at first
  obtain ⟨names, rests⟩ := Prod.mk.inj (Option.some.inj first)
  exact ⟨name_inj names.symm, rests.symm⟩

end Placeholder

/-! ### The grammar of templates -/

/-- A property that passes over characters and placeholders, and demands a placeholder at an opening
brace. -/
structure ReadsPieces (reads : Text → Prop) : Prop where
  nil : reads []
  char : ∀ c t, c ≠ '\x7b' → (reads (c :: t) ↔ reads t)
  placeholder : ∀ (p : Placeholder) t, reads (p.written ++ t) ↔ reads t
  opens : ∀ t, reads ('\x7b' :: t) → ∃ (p : Placeholder) (rest : Text),
    '\x7b' :: t = p.written ++ rest

variable {reads : Text → Prop} {t rest : Text}

theorem ReadsPieces.exists_pieces (reading : ReadsPieces reads) (t : Text) (held : reads t) :
    ∃ pieces, t = render Placeholder.written pieces := by
  cases t with
  | nil => exact ⟨[], rfl⟩
  | cons c t =>
    by_cases brace : c = '\x7b'
    · subst brace
      obtain ⟨p, rest, eq⟩ := reading.opens t held
      have shorter : rest.length < ('\x7b' :: t).length := by
        rw [eq, p.written_append]
        simp
        omega
      rw [eq, reading.placeholder] at held
      obtain ⟨pieces, rfl⟩ := reading.exists_pieces rest held
      exact ⟨.placeholder p :: pieces, eq⟩
    · obtain ⟨pieces, rfl⟩ := reading.exists_pieces t ((reading.char c t brace).mp held)
      exact ⟨.char c brace :: pieces, rfl⟩
termination_by t.length

theorem ReadsPieces.iff_exists_pieces (reading : ReadsPieces reads) :
    reads t ↔ ∃ pieces, t = render Placeholder.written pieces := by
  refine ⟨reading.exists_pieces t, ?_⟩
  rintro ⟨pieces, rfl⟩
  induction pieces with
  | nil => exact reading.nil
  | cons piece pieces ih =>
    cases piece with
    | char c plain => exact (reading.char c _ plain).mpr ih
    | placeholder p => exact (reading.placeholder p _).mpr ih

theorem exists_append_of_append_eq {a b before : Text} {c : Char} (absent : c ∉ a)
    (same : a ++ b = before ++ c :: rest) : ∃ between, b = between ++ c :: rest := by
  rcases List.append_eq_append_iff.mp same with ⟨between, -, eq⟩ | ⟨between, rfl, eq⟩
  · exact ⟨between, eq⟩
  · cases between with
    | nil => exact ⟨[], eq.symm⟩
    | cons d between =>
      obtain rfl := (List.cons.inj eq).1
      exact absurd (List.mem_append_right before List.mem_cons_self) absent

theorem readsPieces_bracesOpen : ReadsPieces BracesOpen where
  nil before rest eq := by simp at eq
  char c t other := by
    constructor
    · rintro opened before rest rfl
      exact opened (c :: before) rest rfl
    · intro opened before rest eq
      cases before with
      | nil => exact absurd (List.cons.inj eq).1 other
      | cons d before => exact opened before rest (List.cons.inj eq).2
  placeholder p t := by
    constructor
    · rintro opened before rest rfl
      exact opened (p.written ++ before) rest (List.append_assoc ..).symm
    · intro opened before rest eq
      cases before with
      | nil => exact ⟨p, t, eq⟩
      | cons d before =>
        have inside : p.name ++ ['\x7d'] ++ t = before ++ '\x7b' :: rest := by
          simpa [Placeholder.written] using (List.cons.inj eq).2
        have plain : '\x7b' ∉ p.name ++ ['\x7d'] := by simp [p.brace_not_mem_name]
        obtain ⟨between, later⟩ := exists_append_of_append_eq plain inside
        exact opened between rest later
  opens t opened := by
    obtain ⟨p, rest, eq⟩ := opened [] t rfl
    exact ⟨p, rest, eq.symm⟩

/-! ### The check follows the grammar -/

theorem checkPlaceholders_of_ne (template : Text) {c : Char} (other : c ≠ '\x7b') (t : Text) :
    checkPlaceholders template 0 (c :: t) = checkPlaceholders template 0 t :=
  if_neg other

theorem checkPlaceholders_unclosed (template : Text) (unclosed : splitFirst? '\x7d' t = none) :
    checkPlaceholders template 0 ('\x7b' :: t) = .error (.unclosed (String.ofList template)) := by
  refine (if_pos rfl).trans ?_
  rw [unclosed]

theorem checkPlaceholders_closed (template : Text) {name : Text}
    (closed : splitFirst? '\x7d' t = some (name, rest)) :
    checkPlaceholders template 0 ('\x7b' :: t) =
      if name ∈ Placeholder.all.map Placeholder.name then
        checkPlaceholders template (name.length + 1) t
      else .error (.unknownPlaceholder (String.ofList name) (String.ofList template)) := by
  refine (if_pos rfl).trans ?_
  rw [closed]

theorem checkPlaceholders_eq_drop (template : Text) (skip : Nat) (t : Text) :
    checkPlaceholders template skip t = checkPlaceholders template 0 (t.drop skip) := by
  induction t generalizing skip with
  | nil => cases skip <;> rfl
  | cons c t ih =>
    cases skip with
    | zero => rfl
    | succ skip => exact ih skip

theorem readsPieces_check (template : Text) :
    ReadsPieces fun t => checkPlaceholders template 0 t = .ok () where
  nil := rfl
  char c t other := by rw [checkPlaceholders_of_ne template other]
  placeholder p t := by
    have closed : splitFirst? '\x7d' (p.name ++ '\x7d' :: t) = some (p.name, t) :=
      splitFirst?_eq_some_iff.mpr ⟨rfl, p.close_not_mem_name⟩
    have known : p.name ∈ Placeholder.all.map Placeholder.name := by cases p <;> decide
    have behind : (p.name ++ '\x7d' :: t).drop (p.name.length + 1) = t := by simp
    rw [p.written_append, checkPlaceholders_closed template closed, if_pos known,
      checkPlaceholders_eq_drop, behind]
  opens t passed := by
    cases closed : splitFirst? '\x7d' t with
    | none =>
      rw [checkPlaceholders_unclosed template closed] at passed
      cases passed
    | some parts =>
      obtain ⟨name, rest⟩ := parts
      rw [checkPlaceholders_closed template closed] at passed
      by_cases known : name ∈ Placeholder.all.map Placeholder.name
      · obtain ⟨p, -, rfl⟩ := List.mem_map.mp known
        refine ⟨p, rest, ?_⟩
        rw [p.written_append, ← (splitFirst?_eq_some_iff.mp closed).1]
      · rw [if_neg known] at passed
        cases passed

theorem check_eq_ok_iff {template : Text} :
    check template = .ok () ↔ template ≠ [] ∧ BracesOpen template := by
  rw [readsPieces_bracesOpen.iff_exists_pieces, ← (readsPieces_check template).iff_exists_pieces,
    check, Except.check_bind_eq_ok_iff, and_comm]
  refine and_congr_left fun _ => ?_
  cases template with
  | nil => simp [throw, throwThe, MonadExceptOf.throw]
  | cons c t => simp [pure, Except.pure]

/-! ### Expansion piece by piece -/

theorem render_cons (value : Placeholder → Text) (piece : Piece) (pieces : List Piece) :
    render value (piece :: pieces) = piece.text value ++ render value pieces :=
  List.flatMap_cons

theorem render_written_inj {pieces others : List Piece}
    (same : render Placeholder.written pieces = render Placeholder.written others) :
    pieces = others := by
  induction pieces generalizing others with
  | nil =>
    cases others with
    | nil => rfl
    | cons other others => cases other <;> cases same
  | cons piece pieces ih =>
    cases others with
    | nil => cases piece <;> cases same
    | cons other others =>
      rw [render_cons, render_cons] at same
      cases piece with
      | char c plain =>
        cases other with
        | char d plain' =>
          obtain ⟨rfl, later⟩ := List.cons.inj same
          rw [ih later]
        | placeholder q => exact absurd (List.cons.inj same).1 plain
      | placeholder p =>
        cases other with
        | char d plain => exact absurd (List.cons.inj same).1.symm plain
        | placeholder q =>
          obtain ⟨rfl, later⟩ := Placeholder.eq_of_written_append same
          rw [ih later]

/-- The values of the placeholders that are already replaced; the others stand as written. -/
def staged (passed : List Placeholder) (value : Placeholder → Text) (p : Placeholder) : Text :=
  if p ∈ passed then value p else p.written

theorem staged_nil (value : Placeholder → Text) : staged [] value = Placeholder.written := by
  funext p
  exact if_neg List.not_mem_nil

theorem staged_of_forall_mem {passed : List Placeholder} (all : ∀ p, p ∈ passed)
    (value : Placeholder → Text) : staged passed value = value := by
  funext p
  exact if_pos (all p)

theorem replace_written_of_ne {p q : Placeholder} (differ : q ≠ p) (value t : Text) :
    replace p.written value (q.written ++ t) = q.written ++ replace p.written value t := by
  have elsewhere : ¬p.written <+: q.written ++ t := by
    rintro ⟨rest, eq⟩
    exact differ (Placeholder.eq_of_written_append eq).1.symm
  have plain : '\x7b' ∉ q.name ++ ['\x7d'] := by simp [q.brace_not_mem_name]
  have behind : replace p.written value (q.name ++ ['\x7d'] ++ t) =
      q.name ++ ['\x7d'] ++ replace p.written value t :=
    replace_append_of_not_mem plain value t
  calc replace p.written value (q.written ++ t)
      = '\x7b' :: replace p.written value (q.name ++ ['\x7d'] ++ t) := replace_cons elsewhere value
    _ = q.written ++ replace p.written value t := by
      rw [behind]
      rfl

variable {value : Placeholder → Text}

/-- Replacing one more placeholder puts in its values and changes nothing else, neither the
placeholders that are left nor what was put in for others. -/
theorem replace_render (plain : ∀ p, '\x7b' ∉ value p) (passed : List Placeholder)
    (p : Placeholder) (pieces : List Piece) :
    replace p.written (value p) (render (staged passed value) pieces) =
      render (staged (passed ++ [p]) value) pieces := by
  induction pieces with
  | nil => rfl
  | cons piece pieces ih =>
    rw [render_cons, render_cons, ← ih]
    cases piece with
    | char c other =>
      have absent : '\x7b' ∉ [c] := by simpa using other.symm
      exact replace_append_of_not_mem absent _ _
    | placeholder q =>
      simp only [Piece.text, staged, List.mem_append, List.mem_singleton]
      -- What was put in holds no opening brace, so the next placeholder is not found in there.
      by_cases old : q ∈ passed
      · rw [if_pos old, if_pos (.inl old)]
        exact replace_append_of_not_mem (plain q) _ _
      · by_cases same : q = p
        · subst same
          rw [if_neg old, if_pos (.inr rfl)]
          exact replace_append (List.cons_ne_nil _ _) _ _
        · rw [if_neg old, if_neg (not_or.mpr ⟨old, same⟩)]
          exact replace_written_of_ne same _ _

theorem foldl_replace_render (plain : ∀ p, '\x7b' ∉ value p) (passed order : List Placeholder)
    (pieces : List Piece) :
    order.foldl (fun t p => replace p.written (value p) t) (render (staged passed value) pieces) =
      render (staged (passed ++ order) value) pieces := by
  induction order generalizing passed with
  | nil => rw [List.append_nil, List.foldl_nil]
  | cons p order ih =>
    rw [List.foldl_cons, replace_render plain, ih, List.append_assoc, List.singleton_append]

/-! ### The values of placeholders -/

theorem brace_not_mem_image_append {image : Char → List Char} {c : Char}
    (apart : c ≠ '\x7b' → '\x7b' ∉ image c) (plain : '\x7b' ∉ c :: t) :
    '\x7b' ∉ image c ++ t := by
  obtain ⟨other, later⟩ := not_or.mp (List.mem_cons.not.mp plain)
  exact List.mem_append.not.mpr (not_or.mpr ⟨apart (Ne.symm other), later⟩)

theorem brace_not_mem_uncapitalize (plain : '\x7b' ∉ t) : '\x7b' ∉ uncapitalize t := by
  cases t with
  | nil => exact plain
  | cons c t => exact brace_not_mem_image_append brace_not_mem_lowerChar plain

theorem brace_not_mem_capitalize (plain : '\x7b' ∉ t) : '\x7b' ∉ capitalize t := by
  cases t with
  | nil => exact plain
  | cons c t => exact brace_not_mem_image_append brace_not_mem_upperChar plain

theorem brace_not_mem_wireLiteral {domain member : Text} (inDomain : '\x7b' ∉ domain)
    (inMember : '\x7b' ∉ member) : '\x7b' ∉ wireLiteral domain member := by
  have inName : '\x7b' ∉ domain ++ '.' :: member := by simp [inDomain, inMember]
  have inLiteral : '\x7b' ∉ replace ['"'] ['\\', '"'] (domain ++ '.' :: member) := by
    intro inside
    rcases mem_of_mem_replaceFrom inside with inValue | inside
    · exact absurd inValue (by decide)
    · exact inName inside
  simp [wireLiteral, inLiteral]

theorem Placeholder.brace_not_mem_value {domain member : Text} (inDomain : '\x7b' ∉ domain)
    (inMember : '\x7b' ∉ member) (p : Placeholder) : '\x7b' ∉ p.value domain member := by
  cases p with
  | domain => exact inDomain
  | domainCamel => exact brace_not_mem_uncapitalize inDomain
  | member => exact inMember
  | memberPascal => exact brace_not_mem_capitalize inMember
  | wire => exact brace_not_mem_wireLiteral inDomain inMember

theorem uncapitalize_ne_nil (named : t ≠ []) : uncapitalize t ≠ [] := by
  obtain ⟨c, t, rfl⟩ := List.exists_cons_of_ne_nil named
  exact List.append_ne_nil_of_left_ne_nil (lowerChar_ne_nil c) t

theorem capitalize_ne_nil (named : t ≠ []) : capitalize t ≠ [] := by
  obtain ⟨c, t, rfl⟩ := List.exists_cons_of_ne_nil named
  exact List.append_ne_nil_of_left_ne_nil (upperChar_ne_nil c) t

theorem Placeholder.value_ne_nil {domain member : Text} (namedDomain : domain ≠ [])
    (namedMember : member ≠ []) (p : Placeholder) : p.value domain member ≠ [] := by
  cases p with
  | domain => exact namedDomain
  | domainCamel => exact uncapitalize_ne_nil namedDomain
  | member => exact namedMember
  | memberPascal => exact capitalize_ne_nil namedMember
  | wire => exact List.cons_ne_nil _ _

/-- Of a template that is not empty each replacement leaves something, also where a name holds a
placeholder itself. -/
theorem expand_ne_nil {template domain member : Text} (nonempty : template ≠ [])
    (namedDomain : domain ≠ []) (namedMember : member ≠ []) :
    expand template domain member ≠ [] := by
  unfold expand
  generalize expansionOrder = order
  induction order generalizing template with
  | nil => exact nonempty
  | cons p order ih =>
    exact ih (replace_ne_nil nonempty (p.value_ne_nil namedDomain namedMember))

/-- A template is accepted exactly if it is not empty and each of its opening braces begins a
placeholder. It is then read in one way as characters and placeholders, and for names without an
opening brace its expansion puts in the values of all placeholders at once. So does every one of the
replacements that make up the expansion, for the placeholders replaced by then. -/
theorem check_expand (template : Text) :
    (check template = .ok () ↔ template ≠ [] ∧ BracesOpen template) ∧
      (check template = .ok () → ∃ pieces,
        (∀ others, template = render Placeholder.written others ↔ others = pieces) ∧
        ∀ domain member : Text, '\x7b' ∉ domain → '\x7b' ∉ member →
          expand template domain member = render (Placeholder.value domain member) pieces ∧
          ∀ passed, passed <+: expansionOrder →
            passed.foldl (fun t p => replace p.written (p.value domain member) t) template =
              render (staged passed (Placeholder.value domain member)) pieces) := by
  refine ⟨check_eq_ok_iff, fun accepted => ?_⟩
  obtain ⟨pieces, rfl⟩ :=
    readsPieces_bracesOpen.exists_pieces template (check_eq_ok_iff.mp accepted).2
  have unique (others : List Piece) :
      render Placeholder.written pieces = render Placeholder.written others ↔ others = pieces :=
    ⟨fun same => (render_written_inj same).symm, fun eq => by rw [eq]⟩
  refine ⟨pieces, unique, ?_⟩
  intro domain member inDomain inMember
  have plain := Placeholder.brace_not_mem_value inDomain inMember
  have stages (passed : List Placeholder) :
      passed.foldl (fun t p => replace p.written (p.value domain member) t)
        (render Placeholder.written pieces) =
          render (staged passed (Placeholder.value domain member)) pieces := by
    have replaced := foldl_replace_render plain [] passed pieces
    rw [staged_nil, List.nil_append] at replaced
    exact replaced
  refine ⟨?_, fun passed _ => stages passed⟩
  rw [expand, stages, staged_of_forall_mem]
  intro p
  cases p <;> decide

/-- Placeholders side by side, a closing brace that belongs to none, and names with a closing brace
and with a quote. -/
theorem check_expand_adjoining :
    check "\x7bdomainCamel\x7d\x7bmember\x7d\x7d:\x7bwire\x7d".toList = .ok () ∧
      expand "\x7bdomainCamel\x7d\x7bmember\x7d\x7d:\x7bwire\x7d".toList
        "Net\x7d".toList "get\"s".toList = "net\x7dget\"s\x7d:\"Net\x7d.get\\\"s\"".toList := by
  have accepted :
      check "\x7bdomainCamel\x7d\x7bmember\x7d\x7d:\x7bwire\x7d".toList = .ok () := by decide
  refine ⟨accepted, ?_⟩
  obtain ⟨pieces, read, expanded⟩ := (check_expand _).2 accepted
  obtain rfl := (read [.placeholder .domainCamel, .placeholder .member,
    .char '\x7d' (by decide), .char ':' (by decide), .placeholder .wire]).mp (by decide)
  rw [(expanded _ _ (by decide) (by decide)).1]
  decide

end SchemaTrace.Template
