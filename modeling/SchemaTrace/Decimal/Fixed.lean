/-!
Decimal text of a double with a fixed number of places: the exact value is rounded to the nearest
such decimal, a tie going to the even neighbour.
-/
namespace SchemaTrace.Decimal

/-- The quotient rounded to the nearest natural number, a tie to the even one. -/
def roundDiv (num den : Nat) : Nat :=
  let q := num / den
  let twice := 2 * (num % den)
  if twice < den then q else if den < twice then q + 1 else if q % 2 = 0 then q else q + 1

/-- A finite non-negative double as `mantissa` · 2^(`exponent` - 1075). -/
def decompose (x : Float) : Nat × Nat :=
  let bits := x.toBits.toNat % Nat.pow 2 63
  let fraction := bits % Nat.pow 2 52
  let exponent := bits / Nat.pow 2 52
  if exponent = 0 then (fraction, 1) else (fraction + Nat.pow 2 52, exponent)

def scaled (places : Nat) (x : Float) : Nat :=
  let (mantissa, exponent) := decompose x
  let num := mantissa * Nat.pow 10 places
  if 1075 ≤ exponent then num * Nat.pow 2 (exponent - 1075)
  else roundDiv num (Nat.pow 2 (1075 - exponent))

def oneDecimalPlace (x : Float) : String :=
  let tenths := scaled 1 x
  toString (tenths / 10) ++ "." ++ toString (tenths % 10)

end SchemaTrace.Decimal
