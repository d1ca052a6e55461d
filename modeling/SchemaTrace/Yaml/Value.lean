import SchemaTrace.Decimal.Literal
import SchemaTrace.Document.Basic
/-!
What an unquoted scalar stands for where any value will do: nothing, a truth value, a number, or
its own text. Digits that start with a zero are a text.
-/
namespace SchemaTrace.Yaml

def digitValue? (c : Char) : Option Nat :=
  if '0' ≤ c && c ≤ '9' then some (c.toNat - '0'.toNat)
  else if 'a' ≤ c && c ≤ 'z' then some (c.toNat - 'a'.toNat + 10)
  else if 'A' ≤ c && c ≤ 'Z' then some (c.toNat - 'A'.toNat + 10)
  else none

def digitsIn? (base : Nat) (digits : Text) : Option Nat :=
  if digits.isEmpty then none
  else digits.foldl (fun total c => do
    let total ← total
    let digit ← digitValue? c
    if digit < base then some (total * base + digit) else none) (some 0)

/-- Whether a text is made of digits that no number starts with. -/
def isPadded : Text → Bool
  | '0' :: c :: t => (c :: t).all Char.isDigit
  | _ => false

def whole? : Text → Option Nat
  | '0' :: 'x' :: t => digitsIn? 16 t
  | '0' :: 'o' :: t => digitsIn? 8 t
  | '0' :: 'b' :: t => digitsIn? 2 t
  | t => if isPadded t then none else digitsIn? 10 t

def isNull (source : String) : Bool := source ∈ ["", "~", "null", "Null", "NULL"]

def bool? (source : String) : Option Bool :=
  if source ∈ ["true", "True", "TRUE"] then some true
  else if source ∈ ["false", "False", "FALSE"] then some false
  else none

def infinities : List String :=
  [".inf", ".Inf", ".INF", "+.inf", "+.Inf", "+.INF", "-.inf", "-.Inf", "-.INF"]

def notNumbers : List String := [".nan", ".NaN", ".NAN"]

/-- Whether a text is a number that is not a whole number without a sign. -/
def isFraction (source : String) : Bool :=
  let (_, unsigned) := Decimal.Literal.readSign source.toList
  (whole? unsigned).isSome || source ∈ infinities || source ∈ notNumbers ||
    (!isPadded unsigned && match Decimal.Literal.ofText? source.toList with
      | some l => l.isFinite
      | none => false)

def valueOf (source : String) : Document :=
  if isNull source then .null
  else match bool? source with
    | some b => .bool b
    | none =>
      match whole? source.toList with
      | some n => .natural n
      | none => if isFraction source then .fraction source else .text source

def plain (source : String) : Document := .plain source (valueOf source)

def absent : Document := plain ""

end SchemaTrace.Yaml
