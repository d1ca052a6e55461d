import SchemaTrace.Decimal.Fixed
import SchemaTrace.Document.Basic
import SchemaTrace.Text.Basic
/-!
JSON numbers. A literal without sign, point and exponent below 2^64 is a natural number; every
other literal is kept as it is written. A literal beyond the largest double cannot be read.
-/
namespace SchemaTrace.Json

def digitsValue (digits : Text) : Nat :=
  digits.foldl (fun n c => n * 10 + (c.toNat - '0'.toNat)) 0

def wordBound : Nat := Nat.pow 2 64

/-- Drops digits from the end of a mantissa until it is below the bound of natural numbers. -/
def leadingWord (mantissa : Nat) (exponent : Int) : Nat × Int :=
  if h : mantissa < wordBound then (mantissa, exponent)
  else leadingWord (mantissa / 10) (exponent + 1)
termination_by mantissa
decreasing_by
  have : 0 < wordBound := by decide
  omega

def nearestDouble (n : Nat) : Nat :=
  let unit := Nat.pow 2 (n.log2 - 52)
  Decimal.roundDiv n unit * unit

def maxPower : Nat := 308

def overflowBound : Nat := (Nat.pow 2 54 - 1) * Nat.pow 2 970

/-- Whether `mantissa` · 10^`exponent` is too large for a double, when it is computed as the product
of the doubles nearest to the leading digits of the mantissa and to the power of ten. -/
def overflows (mantissa : Nat) (exponent : Int) : Bool :=
  match leadingWord mantissa exponent with
  | (0, _) => false
  | (_, .negSucc _) => false
  | (digits, .ofNat power) =>
    maxPower < power || overflowBound ≤ nearestDouble digits * nearestDouble (Nat.pow 10 power)

def takeDigits (t : Text) : Text × Text := (t.takeWhile Char.isDigit, t.dropWhile Char.isDigit)

def digitFault : Text → Fault
  | [] => .numberEnded
  | _ => .malformed

def readExponent (t : Text) : Except Fault (Option (Text × Bool × Text) × Text) :=
  match t with
  | e :: rest =>
    if e = 'e' || e = 'E' then
      let (sign, negative, rest) := match rest with
        | '+' :: rest => (['+'], false, rest)
        | '-' :: rest => (['-'], true, rest)
        | rest => ([], false, rest)
      match takeDigits rest with
      | ([], after) => .error (digitFault after)
      | (digits, after) => .ok (some (e :: sign, negative, digits), after)
    else .ok (none, t)
  | [] => .ok (none, t)

def readFraction (t : Text) : Except Fault (Option Text × Text) :=
  match t with
  | '.' :: rest =>
    match takeDigits rest with
    | ([], after) => .error (digitFault after)
    | (digits, after) => .ok (some digits, after)
  | _ => .ok (none, t)

def readInteger (t : Text) : Except Fault (Text × Text) :=
  match takeDigits t with
  | ([], after) => .error (digitFault after)
  | (['0'], after) => .ok (['0'], after)
  | ('0' :: _, _) => .error .malformed
  | (digits, after) => .ok (digits, after)

structure NumberParts where
  negative : Bool
  integer : Text
  fraction : Option Text
  exponent : Option (Text × Bool × Text)

def readParts (t : Text) : Except Fault (NumberParts × Text) := do
  let (negative, unsigned) := match t with
    | '-' :: rest => (true, rest)
    | _ => (false, t)
  let (integer, rest) ← readInteger unsigned
  let (fraction, rest) ← readFraction rest
  let (exponent, rest) ← readExponent rest
  return (⟨negative, integer, fraction, exponent⟩, rest)

def NumberParts.source (p : NumberParts) : Text :=
  (if p.negative then ['-'] else []) ++ p.integer ++
    (p.fraction.map ('.' :: ·)).getD [] ++
    (p.exponent.map fun (mark, _, digits) => mark ++ digits).getD []

def NumberParts.mantissa (p : NumberParts) : Nat := digitsValue (p.integer ++ p.fraction.getD [])

def NumberParts.scale (p : NumberParts) : Int :=
  let shift : Int := -((p.fraction.getD []).length : Int)
  match p.exponent with
  | none => shift
  | some (_, true, digits) => shift - digitsValue digits
  | some (_, false, digits) => shift + digitsValue digits

def NumberParts.document (p : NumberParts) : Document :=
  if !p.negative && p.fraction.isNone && p.exponent.isNone && digitsValue p.integer < wordBound then
    .natural (digitsValue p.integer)
  else if overflows p.mantissa p.scale then .flawed .value .null
  else .fraction (String.ofList p.source)

end SchemaTrace.Json
