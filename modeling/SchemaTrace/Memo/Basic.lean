import SchemaTrace.Error
/-!
Memos: values fetched at most once, with callers that may overlap. A caller that finds a fetch in
flight joins it. A caller notices the outcome of the fetch it joined only when it is polled, and
only if that fetch is still the current one does this settle the memo. A failed memo starts a new
fetch for the next call.
-/
namespace SchemaTrace

namespace Memo

inductive Status where
  | unfetched
  | inFlight
  | ready
  | failed
  deriving DecidableEq, Repr

inductive State (α : Type) where
  | unfetched
  | inFlight (fetch : Nat)
  | ready (value : α)
  | failed (error : FetchError)
  deriving DecidableEq, Repr

def State.status {α : Type} : State α → Status
  | .unfetched => .unfetched
  | .inFlight _ => .inFlight
  | .ready _ => .ready
  | .failed _ => .failed

end Memo

abbrev Outcome (α : Type) := Except FetchError α

/-- A memo, the fetches it started, in order, with their outcomes as far as they are fixed, and
the callers that wait, each with the fetch it joined. -/
structure Memo (α : Type) where
  label : String
  state : Memo.State α := .unfetched
  fetches : List (Option (Outcome α)) := []
  callers : List (String × Nat) := []

namespace Memo

variable {α : Type}

def ofValue (label : String) (value : α) : Memo α := { label, state := .ready value }

def status (m : Memo α) : Status := m.state.status

def value? (m : Memo α) : Option α :=
  match m.state with
  | .ready value => some value
  | _ => none

def started (m : Memo α) : Nat := m.fetches.length

def outcome? (m : Memo α) (fetch : Nat) : Option (Outcome α) := (m.fetches[fetch]?).join

def joined? (m : Memo α) (caller : String) : Option Nat := m.callers.lookup caller

def drop (m : Memo α) (caller : String) : Memo α :=
  { m with callers := m.callers.filter fun (name, _) => name ≠ caller }

inductive Answer (α : Type) where
  | noCaller
  | pending
  | returned (outcome : Outcome α)

def stateOf : Outcome α → State α
  | .ok value => .ready value
  | .error error => .failed error

/-- Takes in the outcome of a fetch, if that fetch is the current one. -/
def settle (m : Memo α) (fetch : Nat) (outcome : Outcome α) : Memo α :=
  match m.state with
  | .inFlight current => if current = fetch then { m with state := stateOf outcome } else m
  | _ => m

def poll (m : Memo α) (caller : String) : Answer α × Memo α :=
  match m.joined? caller with
  | none => (.noCaller, m)
  | some fetch =>
    match m.outcome? fetch with
    | none => (.pending, m)
    | some outcome => (.returned outcome, (m.settle fetch outcome).drop caller)

def join (m : Memo α) (caller : String) (fetch : Nat) : Memo α :=
  { m with callers := (caller, fetch) :: m.callers }

def start (m : Memo α) : Memo α :=
  { m with state := .inFlight m.started, fetches := m.fetches ++ [none] }

def call (m : Memo α) (caller : String) : Answer α × Memo α :=
  let m := m.drop caller
  match m.state with
  | .ready value => (.returned (.ok value), m)
  | .inFlight fetch => (m.join caller fetch).poll caller
  | _ => (m.start.join caller m.started).poll caller

inductive Completion where
  | done
  | alreadyComplete
  | noFetch
  deriving DecidableEq, Repr

def complete (m : Memo α) (fetch : Nat) (outcome : Outcome α) : Completion × Memo α :=
  match m.fetches[fetch]? with
  | none => (.noFetch, m)
  | some (some _) => (.alreadyComplete, m)
  | some none => (.done, { m with fetches := m.fetches.set fetch (some outcome) })

end Memo
end SchemaTrace
