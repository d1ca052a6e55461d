import SchemaTrace.Text.Basic
/-!
The comments of a C-style source text. A block comment runs to its first closing delimiter or to
the end of the text; line comments that stand alone on consecutive lines form one run. String
literals are not looked at.
-/
namespace SchemaTrace.Comment

inductive Shape where
  | lineRun
  | trailing
  | block
  deriving DecidableEq, Repr

structure Span where
  shape : Shape
  start : Nat
  raw : Text
  deriving DecidableEq, Repr

def Span.stop (s : Span) : Nat := s.start + Text.byteLength s.raw

/-- Splits after the first closing delimiter; an unclosed block takes all. -/
def closeBlock : Text → Text × Text
  | [] => ([], [])
  | c :: t =>
    if c = '*' && t.head? = some '/' then (['*', '/'], t.tail)
    else
      let (body, rest) := closeBlock t
      (c :: body, rest)

def restOfLine (t : Text) : Text × Text := (t.takeWhile (· ≠ '\n'), t.dropWhile (· ≠ '\n'))

def lineRun (t : Text) : Text × Text :=
  match _h : t.dropWhile (· ≠ '\n') with
  | [] => (t.takeWhile (· ≠ '\n'), [])
  | newline :: next =>
    if Text.startsWith ['/', '/'] (next.dropWhile Text.isBlank) then
      let (more, rest) := lineRun next
      (t.takeWhile (· ≠ '\n') ++ newline :: more, rest)
    else (t.takeWhile (· ≠ '\n'), newline :: next)
termination_by t.length
decreasing_by
  have shorter := (List.dropWhile_sublist (· ≠ '\n') (l := t)).length_le
  rw [_h] at shorter
  simp at shorter; omega

theorem closeBlock_append (t : Text) : (closeBlock t).1 ++ (closeBlock t).2 = t := by
  induction t with
  | nil => rfl
  | cons c t ih =>
    simp only [closeBlock]
    split
    · next h =>
      cases t with
      | nil => simp at h
      | cons d t => simp at h; simp [h]
    · simp [ih]

theorem lineRun_append (t : Text) : (lineRun t).1 ++ (lineRun t).2 = t := by
  fun_induction lineRun t with
  | case1 t h =>
    have whole := List.takeWhile_append_dropWhile (p := (· ≠ '\n')) (l := t)
    rwa [h] at whole
  | case2 t newline next h starts more rest eq ih =>
    have whole := List.takeWhile_append_dropWhile (p := (· ≠ '\n')) (l := t)
    rw [h] at whole
    rw [eq] at ih
    simp only [List.append_assoc, List.cons_append]
    rwa [ih]
  | case3 t newline next h starts =>
    have whole := List.takeWhile_append_dropWhile (p := (· ≠ '\n')) (l := t)
    rwa [h] at whole

theorem restOfLine_append (t : Text) : (restOfLine t).1 ++ (restOfLine t).2 = t :=
  List.takeWhile_append_dropWhile

/-- Comments of a text that starts at byte `offset`. `alone` tells whether only spaces and tabs
precede it on its line. -/
def spansFrom (alone : Bool) (offset : Nat) : Text → List Span
  | [] => []
  | c :: t =>
    match c, t with
    | '/', '*' :: t =>
      let raw := '/' :: '*' :: (closeBlock t).1
      ⟨.block, offset, raw⟩ :: spansFrom false (offset + Text.byteLength raw) (closeBlock t).2
    | '/', '/' :: t =>
      if alone then
        let raw := '/' :: '/' :: (lineRun t).1
        ⟨.lineRun, offset, raw⟩ :: spansFrom false (offset + Text.byteLength raw) (lineRun t).2
      else
        let raw := '/' :: '/' :: (restOfLine t).1
        ⟨.trailing, offset, raw⟩ :: spansFrom false (offset + Text.byteLength raw) (restOfLine t).2
    | c, t => spansFrom (c = '\n' || (alone && Text.isBlank c)) (offset + c.utf8Size) t
termination_by t => t.length
decreasing_by
  · have whole := congrArg List.length (closeBlock_append t)
    simp only [List.length_append] at whole
    simp only [List.length_cons]; omega
  · have whole := congrArg List.length (lineRun_append t)
    simp only [List.length_append] at whole
    simp only [List.length_cons]; omega
  · have whole := congrArg List.length (restOfLine_append t)
    simp only [List.length_append] at whole
    simp only [List.length_cons]; omega
  · simp

def spans (content : Text) : List Span := spansFrom true 0 content

end SchemaTrace.Comment
