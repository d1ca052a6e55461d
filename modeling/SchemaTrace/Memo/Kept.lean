import SchemaTrace.Memo.Basic
/-!
What a memo keeps between calls that do not overlap: nothing yet, the value, or the error of the
last fetch. A value is kept for good; after an error the next call fetches again.
-/
namespace SchemaTrace

inductive Kept (α : Type) where
  | nothing
  | value (a : α)
  | error (e : FetchError)
  deriving DecidableEq, Repr

namespace Kept

variable {α : Type}

def status : Kept α → Memo.Status
  | .nothing => .unfetched
  | .value _ => .ready
  | .error _ => .failed

def value? : Kept α → Option α
  | .value a => some a
  | _ => none

def ofOutcome : Outcome α → Kept α
  | .ok a => .value a
  | .error e => .error e

end Kept
end SchemaTrace
