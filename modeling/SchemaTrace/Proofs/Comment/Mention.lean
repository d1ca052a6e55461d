import SchemaTrace.Comment.Mention
import SchemaTrace.Proofs.Text.Pieces

/-! The mentions in the prose of a comment. A tag whose first character stands nowhere else in a
mention cannot begin inside one, so the search, which goes on behind what it has read, finds every
symbol that is mentioned anywhere. -/

namespace SchemaTrace.Comment

open Text (after? after?_eq_some_iff byteLength dropTail isWhitespace isAlphanumeric
  takeWhile_append_of_head)

/-- Whitespace, a symbol and dots behind it, as they stand between a tag and the rest of a text. The
symbol with its dots is a run of symbol characters as long as possible. -/
structure Follows (gap symbol dots rest : Text) : Prop where
  gap_ne_nil : gap ≠ []
  whitespace : ∀ c ∈ gap, isWhitespace c = true
  run : ∀ c ∈ symbol ++ dots, isSymbolChar c = true
  maximal : ∀ c ∈ rest.head?, isSymbolChar c = false
  dots : ∀ c ∈ dots, c = '.'
  symbol_ne_nil : symbol ≠ []
  starts : symbol.head? ≠ some '.'
  ends : symbol.getLast? ≠ some '.'

def BeginsWith (tag symbol t : Text) : Prop :=
  ∃ gap dots rest, t = tag ++ (gap ++ (symbol ++ dots) ++ rest) ∧ Follows gap symbol dots rest

def Mentions (tag symbol prose : Text) : Prop :=
  ∃ before t, prose = before ++ t ∧ BeginsWith tag symbol t

/-- A tag that lies within a line and whose first character is found nowhere else in a mention. -/
structure IsMarker (tag : Text) : Prop where
  oneLine : '\n' ∉ tag
  first : ∃ c rest, tag = c :: rest ∧ c ∉ rest ∧ isWhitespace c = false ∧ isSymbolChar c = false

/-! ### What follows a tag -/

def whitespaceCodes : List Nat :=
  [9, 10, 11, 12, 13, 32, 133, 160, 5760, 8192, 8193, 8194, 8195, 8196, 8197, 8198, 8199, 8200,
    8201, 8202, 8232, 8233, 8239, 8287, 12288]

theorem toNat_mem_whitespaceCodes {c : Char} (space : isWhitespace c = true) :
    c.toNat ∈ whitespaceCodes := by
  simp only [isWhitespace, Bool.or_eq_true, Bool.and_eq_true, decide_eq_true_eq] at space
  simp only [whitespaceCodes, List.mem_cons, List.not_mem_nil]
  omega

theorem isSymbolChar_of_isWhitespace {c : Char} (space : isWhitespace c = true) :
    isSymbolChar c = false := by
  have none : ∀ n ∈ whitespaceCodes, isSymbolChar (Char.ofNat n) = false := by decide +kernel
  have own := none c.toNat (toNat_mem_whitespaceCodes space)
  rwa [Char.ofNat_toNat] at own

theorem isWhitespace_of_isSymbolChar {c : Char} (symbolic : isSymbolChar c = true) :
    isWhitespace c = false := by
  cases space : isWhitespace c with
  | false => rfl
  | true =>
    rw [isSymbolChar_of_isWhitespace space] at symbolic
    cases symbolic

theorem exists_dots (run : Text) : ∃ dots, run = dropTail (· = '.') run ++ dots ∧
    (∀ c ∈ dots, c = '.') ∧ (dropTail (· = '.') run).getLast? ≠ some '.' := by
  refine ⟨(run.reverse.takeWhile (· = '.')).reverse, ?_, ?_, ?_⟩
  · rw [dropTail, ← List.reverse_append, List.takeWhile_append_dropWhile, List.reverse_reverse]
  · intro c member
    have holds := List.mem_takeWhile_imp (List.mem_reverse.mp member)
    simpa using holds
  · rw [dropTail, List.getLast?_reverse]
    intro dot
    have stops := List.head?_dropWhile_not (fun c : Char => c = '.') run.reverse
    rw [dot] at stops
    simp at stops

theorem dropTail_append_dots {symbol dots : Text} (all : ∀ c ∈ dots, c = '.')
    (ends : symbol.getLast? ≠ some '.') : dropTail (· = '.') (symbol ++ dots) = symbol := by
  have dotsFirst : ∀ c ∈ dots.reverse, decide (c = '.') = true := by
    intro c member
    exact decide_eq_true (all c (List.mem_reverse.mp member))
  have stops : ∀ c ∈ symbol.reverse.head?, decide (c = '.') = false := by
    intro c member
    rw [List.head?_reverse] at member
    exact decide_eq_false fun dot => ends (dot ▸ member)
  rw [dropTail, List.reverse_append, (takeWhile_append_of_head dotsFirst stops).2,
    List.reverse_reverse]

theorem symbolAfterTag?_eq_some_iff {t gap symbol : Text} :
    symbolAfterTag? t = some (gap, symbol) ↔
      ∃ dots rest, t = gap ++ (symbol ++ dots) ++ rest ∧ Follows gap symbol dots rest := by
  constructor
  · intro found
    simp only [symbolAfterTag?, Option.ite_none_left_eq_some, Option.some.injEq, Prod.mk.injEq,
      Bool.or_eq_true, List.isEmpty_iff, decide_eq_true_eq, not_or] at found
    obtain ⟨⟨⟨gapNonempty, nonempty⟩, starts⟩, rfl, rfl⟩ := found
    obtain ⟨dots, run, allDots, ends⟩ :=
      exists_dots ((t.dropWhile isWhitespace).takeWhile isSymbolChar)
    refine ⟨dots, (t.dropWhile isWhitespace).dropWhile isSymbolChar, ?_, ?_⟩
    · rw [← run, List.append_assoc, List.takeWhile_append_dropWhile,
        List.takeWhile_append_dropWhile]
    · refine ⟨gapNonempty, fun c => List.mem_takeWhile_imp, ?_, ?_, allDots, nonempty, starts, ends⟩
      · rw [← run]
        exact fun c => List.mem_takeWhile_imp
      · intro c member
        have stops := List.head?_dropWhile_not isSymbolChar (t.dropWhile isWhitespace)
        rwa [member] at stops
  · intro given
    rcases given with ⟨dots, rest, rfl, follows⟩
    have gapEnds : ∀ c ∈ (symbol ++ dots ++ rest).head?, isWhitespace c = false := by
      intro c member
      obtain ⟨first, more, eq⟩ := List.exists_cons_of_ne_nil follows.symbol_ne_nil
      rw [eq] at member
      obtain rfl := Option.some.inj member
      have inside : first ∈ symbol := eq ▸ List.mem_cons_self
      exact isWhitespace_of_isSymbolChar (follows.run first (List.mem_append_left dots inside))
    obtain ⟨gapTaken, gapDropped⟩ := takeWhile_append_of_head follows.whitespace gapEnds
    have runTaken := (takeWhile_append_of_head follows.run follows.maximal).1
    have symbolTaken := dropTail_append_dots follows.dots follows.ends
    rw [List.append_assoc]
    simp only [symbolAfterTag?, gapTaken, gapDropped, runTaken, symbolTaken]
    simp [follows.gap_ne_nil, follows.symbol_ne_nil, follows.starts]

variable {tag : Text}

/-! ### Where a mention begins -/

theorem beginsWith_iff {symbol t : Text} :
    BeginsWith tag symbol t ↔ ((after? tag t).bind symbolAfterTag?).map (·.2) = some symbol := by
  simp only [Option.map_eq_some_iff, Option.bind_eq_some_iff, after?_eq_some_iff]
  constructor
  · intro given
    rcases given with ⟨gap, dots, rest, eq, follows⟩
    exact ⟨(gap, symbol), ⟨_, eq, symbolAfterTag?_eq_some_iff.mpr ⟨dots, rest, rfl, follows⟩⟩, rfl⟩
  · intro given
    rcases given with ⟨⟨gap, own⟩, ⟨behind, eq, named⟩, rfl⟩
    obtain ⟨dots, rest, rfl, follows⟩ := symbolAfterTag?_eq_some_iff.mp named
    exact ⟨gap, dots, rest, eq, follows⟩

instance (symbol t : Text) : Decidable (BeginsWith tag symbol t) :=
  decidable_of_iff' _ beginsWith_iff

theorem mentions_nil_iff {symbol : Text} : Mentions tag symbol [] ↔ BeginsWith tag symbol [] := by
  constructor
  · intro given
    rcases given with ⟨before, behind, eq, begins⟩
    obtain ⟨-, rfl⟩ := List.append_eq_nil_iff.mp eq.symm
    exact begins
  · intro begins
    exact ⟨[], [], rfl, begins⟩

theorem mentions_cons_iff {symbol t : Text} {c : Char} :
    Mentions tag symbol (c :: t) ↔ BeginsWith tag symbol (c :: t) ∨ Mentions tag symbol t := by
  constructor
  · intro given
    rcases given with ⟨before, behind, eq, begins⟩
    cases before with
    | nil => exact .inl (eq ▸ begins)
    | cons d before => exact .inr ⟨before, behind, (List.cons.inj eq).2, begins⟩
  · intro given
    rcases given with begins | ⟨before, behind, rfl, begins⟩
    · exact ⟨[], _, rfl, begins⟩
    · exact ⟨c :: before, behind, rfl, begins⟩

instance decidableMentions (symbol : Text) : (prose : Text) → Decidable (Mentions tag symbol prose)
  | [] => decidable_of_iff' _ mentions_nil_iff
  | _ :: t =>
    have := decidableMentions symbol t
    decidable_of_iff' _ mentions_cons_iff

/-! ### The search goes on behind what it has read -/

theorem length_le_of_fresh {read rest before t : Text} {c : Char}
    (same : read ++ rest = before ++ c :: t) (later : before ≠ []) (fresh : c ∉ read.tail) :
    read.length ≤ before.length := by
  rcases List.append_eq_append_iff.mp same with ⟨between, eq, -⟩ | ⟨between, eq, behind⟩
  · rw [eq, List.length_append]
    omega
  · cases between with
    | nil =>
      rw [eq, List.append_nil]
    | cons d between =>
      obtain rfl := (List.cons.inj behind).1
      obtain ⟨head, before', rfl⟩ := List.exists_cons_of_ne_nil later
      rw [eq] at fresh
      exact absurd (List.mem_append_right before' List.mem_cons_self) fresh

theorem exists_cons_of_beginsWith (marker : IsMarker tag) {symbol t : Text}
    (begins : BeginsWith tag symbol t) :
    ∃ c more, t = c :: more ∧ c ∉ tag.tail ∧ isWhitespace c = false ∧ isSymbolChar c = false := by
  obtain ⟨c, rest, rfl, alone, space, symbolic⟩ := marker.first
  obtain ⟨gap, dots, behind, rfl, -⟩ := begins
  exact ⟨c, _, rfl, alone, space, symbolic⟩

/-- Nothing that begins inside of what the search has read begins with a mention. -/
theorem read_le_of_beginsWith (marker : IsMarker tag) {symbol read rest before t : Text}
    (same : read ++ rest = before ++ t) (later : before ≠ []) (begins : BeginsWith tag symbol t)
    (inside : ∀ c ∈ read.tail, c ∈ tag.tail ∨ isWhitespace c = true ∨ isSymbolChar c = true) :
    read.length ≤ before.length := by
  obtain ⟨c, more, rfl, alone, space, symbolic⟩ := exists_cons_of_beginsWith marker begins
  refine length_le_of_fresh same later fun member => ?_
  rcases inside c member with tail | white | run
  · exact alone tail
  · rw [space] at white
    cases white
  · rw [symbolic] at run
    cases run

theorem mentions_drop_iff (marker : IsMarker tag) (symbol : Text) {read rest t : Text} {c : Char}
    (same : read ++ rest = c :: t)
    (inside : ∀ c ∈ read.tail, c ∈ tag.tail ∨ isWhitespace c = true ∨ isSymbolChar c = true) :
    Mentions tag symbol (t.drop (read.length - 1)) ↔ Mentions tag symbol t := by
  constructor
  · intro given
    rcases given with ⟨before, behind, eq, begins⟩
    refine ⟨t.take (read.length - 1) ++ before, behind, ?_, begins⟩
    rw [List.append_assoc, ← eq, List.take_append_drop]
  · intro given
    rcases given with ⟨before, behind, rfl, begins⟩
    have ahead : read.length ≤ (c :: before).length :=
      read_le_of_beginsWith marker (t := behind) same (List.cons_ne_nil c before) begins inside
    rw [List.length_cons] at ahead
    exact ⟨before.drop (read.length - 1), behind,
      List.drop_append_of_le_length (by omega), begins⟩

theorem of_mem_tail_read (marker : IsMarker tag) {gap symbol dots rest : Text}
    (follows : Follows gap symbol dots rest) : ∀ c ∈ (tag ++ gap ++ symbol).tail,
      c ∈ tag.tail ∨ isWhitespace c = true ∨ isSymbolChar c = true := by
  intro c member
  obtain ⟨first, more, rfl, -⟩ := marker.first
  rcases List.mem_append.mp member with front | symbolic
  · rcases List.mem_append.mp front with tail | white
    · exact .inl tail
    · exact .inr (.inl (follows.whitespace c white))
  · exact .inr (.inr (follows.run c (List.mem_append_left dots symbolic)))

/-- The search loses nothing, although it skips what it has read: no mention begins in there. -/
theorem exists_mem_mentionsFrom_iff (marker : IsMarker tag) (symbol : Text) (skip : Nat)
    (t : Text) : (∃ m ∈ mentionsFrom tag skip t, m.symbol = symbol) ↔
      Mentions tag symbol (t.drop skip) := by
  induction t generalizing skip with
  | nil =>
    have none : ¬Mentions tag symbol [] := by
      intro mentioned
      obtain ⟨c, more, eq, -⟩ := exists_cons_of_beginsWith marker (mentions_nil_iff.mp mentioned)
      cases eq
    cases skip <;> simp [mentionsFrom, none]
  | cons c t ih =>
    cases skip with
    | succ skip => exact ih skip
    | zero =>
      rw [List.drop_zero, mentions_cons_iff, beginsWith_iff, mentionsFrom]
      cases found : after? tag (c :: t) with
      | none => simpa using ih 0
      | some rest =>
        have whole : tag ++ rest = c :: t := (after?_eq_some_iff.mp found).symm
        simp only [Option.bind_some]
        cases named : symbolAfterTag? rest with
        | none =>
          -- A bare tag: the search goes on behind it.
          have jumped := mentions_drop_iff marker symbol whole fun d => .inl
          simpa [← jumped] using ih (tag.length - 1)
        | some read =>
          obtain ⟨gap, own⟩ := read
          obtain ⟨dots, behind, rfl, follows⟩ := symbolAfterTag?_eq_some_iff.mp named
          -- The search goes on behind the symbol, before the dots that were dropped from it.
          have same : (tag ++ gap ++ own) ++ (dots ++ behind) = c :: t := by
            rw [← whole]
            simp only [List.append_assoc]
          have later := ih ((tag ++ gap ++ own).length - 1)
          rw [mentions_drop_iff marker symbol same (of_mem_tail_read marker follows)] at later
          simp only [List.mem_cons, exists_eq_or_imp, later, Option.map_some, Option.some.injEq]

theorem exists_mem_mentions_iff (marker : IsMarker tag) {symbol prose : Text} :
    (∃ m ∈ mentions tag prose, m.symbol = symbol) ↔ Mentions tag symbol prose :=
  exists_mem_mentionsFrom_iff marker symbol 0 prose

/-! ### Reading on behind a mention -/

theorem mentionsFrom_eq_drop (tag : Text) (skip : Nat) (t : Text) :
    mentionsFrom tag skip t = mentions tag (t.drop skip) := by
  induction t generalizing skip with
  | nil => cases skip <;> rfl
  | cons c t ih =>
    cases skip with
    | zero => rfl
    | succ skip => exact ih skip

theorem mentions_eq_nil {t : Text} (absent : ¬tag <:+: t) : mentions tag t = [] := by
  rw [mentions]
  induction t with
  | nil => rfl
  | cons c t ih =>
    cases found : after? tag (c :: t) with
    | none =>
      rw [mentionsFrom, found]
      exact ih fun inside => absent (inside.trans (List.suffix_cons c t).isInfix)
    | some rest => exact absurd ⟨[], rest, (after?_eq_some_iff.mp found).symm⟩ absent

theorem mentions_of_follows (nonempty : tag ≠ []) {gap symbol dots rest : Text}
    (follows : Follows gap symbol dots rest) :
    mentions tag (tag ++ (gap ++ (symbol ++ dots) ++ rest)) =
      ⟨symbol, byteLength (tag ++ gap ++ symbol)⟩ :: mentions tag (dots ++ rest) := by
  obtain ⟨c, name, rfl⟩ := List.exists_cons_of_ne_nil nonempty
  have found : after? (c :: name) (c :: (name ++ (gap ++ (symbol ++ dots) ++ rest))) =
      some (gap ++ (symbol ++ dots) ++ rest) := after?_eq_some_iff.mpr rfl
  have named := symbolAfterTag?_eq_some_iff.mpr ⟨dots, rest, rfl, follows⟩
  have left : (name ++ (gap ++ (symbol ++ dots) ++ rest)).drop
      ((c :: name ++ gap ++ symbol).length - 1) = dots ++ rest := by
    have cut : name ++ (gap ++ (symbol ++ dots) ++ rest) =
        name ++ gap ++ symbol ++ (dots ++ rest) := by
      simp only [List.append_assoc]
    rw [cut]
    exact List.drop_left
  rw [mentions, List.cons_append, mentionsFrom, found]
  simp only [named]
  rw [mentionsFrom_eq_drop, left]

/-! ### One mention of each symbol -/

theorem exists_mem_firstMentions_iff {seen : List Text} {found : List Mention} {symbol : Text}
    (unseen : symbol ∉ seen) :
    (∃ m ∈ firstMentions seen found, m.symbol = symbol) ↔ ∃ m ∈ found, m.symbol = symbol := by
  fun_induction firstMentions seen found with
  | case1 seen => rfl
  | case2 seen m rest known ih =>
    have other : m.symbol ≠ symbol := fun same => unseen (same ▸ known)
    simpa [other] using ih unseen
  | case3 seen m rest fresh ih =>
    by_cases same : m.symbol = symbol
    · simp [same]
    · have unseen' : symbol ∉ m.symbol :: seen := by
        simpa [unseen] using fun eq : symbol = m.symbol => same eq.symm
      simpa [same] using ih unseen'

end SchemaTrace.Comment
