import SchemaTrace.Json.Number
/-!
Decimal literals: a sign, digits with or without a point, and a power of ten. Digits may be left
out on one side of the point.
-/
namespace SchemaTrace.Decimal

/-- `mantissa` · 10^`exponent`, with a sign. -/
structure Literal where
  negative : Bool
  mantissa : Nat
  exponent : Int
  deriving DecidableEq, Repr

namespace Literal

def readSign : Text → Bool × Text
  | '-' :: t => (true, t)
  | '+' :: t => (false, t)
  | t => (false, t)

def readPlaces : Text → Text × Text
  | '.' :: t => Json.takeDigits t
  | t => ([], t)

def readExponent? : Text → Option Int
  | [] => some 0
  | mark :: t =>
    if mark = 'e' || mark = 'E' then
      let (negative, t) := readSign t
      match Json.takeDigits t with
      | ([], _) => none
      | (digits, []) =>
        some (if negative then -(Json.digitsValue digits : Int) else Json.digitsValue digits)
      | _ => none
    else none

def ofText? (t : Text) : Option Literal := do
  let (negative, t) := readSign t
  let (whole, t) := Json.takeDigits t
  let (places, t) := readPlaces t
  if whole.isEmpty && places.isEmpty then none
  let exponent ← readExponent? t
  return ⟨negative, Json.digitsValue (whole ++ places), exponent - places.length⟩

/-- The power of ten just above the value. -/
def order (l : Literal) : Int := (Nat.toDigits 10 l.mantissa).length + l.exponent

/-- Whether the value is far below the least positive double. -/
def vanishes (l : Literal) : Bool := l.mantissa = 0 || l.order < -400

def isFinite (l : Literal) : Bool :=
  l.mantissa = 0 || l.order < 300 || (l.order ≤ 400 &&
    match l.exponent with
    | .ofNat n => l.mantissa * Nat.pow 10 n < Json.overflowBound
    | .negSucc n => l.mantissa < Json.overflowBound * Nat.pow 10 (n + 1))

def magnitude (l : Literal) : Float :=
  if l.vanishes then 0
  else if !l.isFinite then 1.0 / 0.0
  else Float.ofScientific l.mantissa (l.exponent < 0) l.exponent.natAbs

def toFloat (l : Literal) : Float := if l.negative then -l.magnitude else l.magnitude

end Literal

def named? (name : String) : Option Float :=
  if name = "inf" || name = "infinity" then some (1.0 / 0.0)
  else if name = "nan" then some (0.0 / 0.0)
  else none

def float? (text : String) : Option Float :=
  match Literal.ofText? text.toList with
  | some l => some l.toFloat
  | none =>
    let (negative, name) := Literal.readSign text.toList
    (named? (String.ofList (name.map Char.toLower))).map fun x => if negative then -x else x

end SchemaTrace.Decimal
