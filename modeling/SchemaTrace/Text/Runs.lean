/-!
Sets of code points given by their boundaries: an increasing list whose entries alternately
open and close a run of members.
-/
namespace SchemaTrace.Text

/-- Whether `n` is a member, read from the boundaries still ahead; `inside` tells whether the
code points before the next boundary are members. -/
def inRunsFrom (inside : Bool) : List Nat → Nat → Bool
  | [], _ => inside
  | boundary :: rest, n => if n < boundary then inside else inRunsFrom (!inside) rest n

def inRuns (boundaries : List Nat) (c : Char) : Bool := inRunsFrom false boundaries c.toNat

end SchemaTrace.Text
