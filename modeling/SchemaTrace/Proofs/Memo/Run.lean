import SchemaTrace.Proofs.Memo.Operations

/-! Runs of a memo. Callers are created, polled and dropped, and outcomes of fetches are fixed, in
any order; a caller joins a fetch, or starts one, when it is polled for the first time. -/

namespace SchemaTrace

namespace Memo

variable {α : Type}

/-- What a caller got, with the fetch it had joined, or none if it found a value. -/
structure Return (α : Type) where
  caller : String
  fetch : Option Nat
  outcome : Outcome α

structure Run (α : Type) where
  memo : Memo α
  created : List String := []
  returns : List (Return α) := []

/-- A step of a run. A fetch that is done at once is one whose outcome is fixed right after the
poll that starts it. -/
inductive Step (α : Type) where
  | create (caller : String)
  | poll (caller : String)
  | drop (caller : String)
  | fix (fetch : Nat) (outcome : Outcome α)

namespace Run

def initial (label : String) : Run α := { memo := { label } }

def answered (r : Run α) (caller : String) (fetch : Option Nat) : Answer α × Memo α → Run α
  | (.returned outcome, memo) => { r with memo, returns := ⟨caller, fetch, outcome⟩ :: r.returns }
  | (_, memo) => { r with memo }

def step (r : Run α) : Step α → Run α
  | .create caller => { r with memo := r.memo.drop caller, created := caller :: r.created }
  | .poll caller =>
    if caller ∈ r.created then
      { r with created := r.created.filter (· ≠ caller) }.answered caller r.memo.joins?
        (r.memo.call caller)
    else r.answered caller (r.memo.joined? caller) (r.memo.poll caller)
  | .drop caller =>
    { r with memo := r.memo.drop caller, created := r.created.filter (· ≠ caller) }
  | .fix fetch outcome => { r with memo := (r.memo.complete fetch outcome).2 }

def after (r : Run α) (steps : List (Step α)) : Run α := steps.foldl step r

theorem after_cons (r : Run α) (s : Step α) (steps : List (Step α)) :
    r.after (s :: steps) = (r.step s).after steps := rfl

theorem after_append (r : Run α) (steps more : List (Step α)) :
    r.after (steps ++ more) = (r.after steps).after more :=
  List.foldl_append

theorem after_induction {motive : Run α → Prop} (kept : ∀ r s, motive r → motive (r.step s))
    {r : Run α} (start : motive r) (steps : List (Step α)) : motive (r.after steps) := by
  induction steps generalizing r with
  | nil => exact start
  | cons s steps ih => exact ih (kept r s start)

@[simp] theorem answered_memo (r : Run α) (caller : String) (fetch : Option Nat)
    (answer : Answer α × Memo α) : (r.answered caller fetch answer).memo = answer.2 := by
  obtain ⟨given, m⟩ := answer
  cases given <;> rfl

@[simp] theorem answered_created (r : Run α) (caller : String) (fetch : Option Nat)
    (answer : Answer α × Memo α) : (r.answered caller fetch answer).created = r.created := by
  obtain ⟨given, m⟩ := answer
  cases given <;> rfl

theorem answered_returns (r : Run α) (caller : String) (fetch : Option Nat)
    (answer : Answer α × Memo α) : ∃ new, (r.answered caller fetch answer).returns =
      new ++ r.returns ∧ ∀ given ∈ new, given.caller = caller ∧ given.fetch = fetch := by
  obtain ⟨given, m⟩ := answer
  cases given with
  | noCaller => exact ⟨[], rfl, List.forall_mem_nil _⟩
  | pending => exact ⟨[], rfl, List.forall_mem_nil _⟩
  | returned outcome =>
    refine ⟨[⟨caller, fetch, outcome⟩], rfl, ?_⟩
    intro given member
    rw [List.mem_singleton.mp member]
    exact ⟨rfl, rfl⟩

theorem step_poll_of_created {r : Run α} {caller : String} (created : caller ∈ r.created) :
    r.step (.poll caller) =
      { r with created := r.created.filter (· ≠ caller) }.answered caller r.memo.joins?
        (r.memo.call caller) :=
  if_pos created

theorem step_poll_of_not_created {r : Run α} {caller : String} (polled : caller ∉ r.created) :
    r.step (.poll caller) =
      r.answered caller (r.memo.joined? caller) (r.memo.poll caller) :=
  if_neg polled

theorem after_drop (r : Run α) (callers : List String) :
    (r.after (callers.map .drop)).memo.state = r.memo.state ∧
      (r.after (callers.map .drop)).memo.fetches = r.memo.fetches ∧
      (r.after (callers.map .drop)).returns = r.returns := by
  induction callers generalizing r with
  | nil => exact ⟨rfl, rfl, rfl⟩
  | cons name rest ih => exact ih (r.step (.drop name))

/-- What one step can do to the memo and to the returns. -/
inductive Change (r r' : Run α) : Prop
  | silent : r'.memo.state = r.memo.state → r'.memo.fetches = r.memo.fetches →
      r'.returns = r.returns → Change r r'
  | fixed (fetch : Nat) (outcome : Outcome α) : r.memo.fetches[fetch]? = some none →
      r'.memo.state = r.memo.state → r'.memo.fetches = r.memo.fetches.set fetch (some outcome) →
      r'.returns = r.returns → Change r r'
  | started : r.memo.Resets → r'.memo.state = .inFlight r.memo.started →
      r'.memo.fetches = r.memo.fetches ++ [none] →
      r'.returns = r.returns → Change r r'
  | found (caller : String) (value : α) : r.memo.state = .ready value →
      r'.memo.state = r.memo.state → r'.memo.fetches = r.memo.fetches →
      r'.returns = ⟨caller, none, .ok value⟩ :: r.returns → Change r r'
  | returned (caller : String) (fetch : Nat) (outcome : Outcome α) :
      r.memo.outcome? fetch = some outcome →
      r'.memo.state = (r.memo.settle fetch outcome).state → r'.memo.fetches = r.memo.fetches →
      r'.returns = ⟨caller, some fetch, outcome⟩ :: r.returns → Change r r'

theorem change_of_poll {r r' : Run α} {m : Memo α} (state : m.state = r.memo.state)
    (fetches : m.fetches = r.memo.fetches) (returns : r'.returns = r.returns) (caller : String) :
    Change r (r'.answered caller (m.joined? caller) (m.poll caller)) := by
  cases joined : m.joined? caller with
  | none =>
    rw [poll_of_no_caller joined]
    exact .silent state fetches returns
  | some fetch =>
    cases fixed : m.outcome? fetch with
    | none =>
      rw [poll_of_no_outcome joined fixed]
      exact .silent state fetches returns
    | some outcome =>
      rw [poll_of_outcome joined fixed]
      refine .returned caller fetch outcome ((outcome?_eq fetches fetch).symm.trans fixed) ?_ ?_ ?_
      · exact settle_state_congr state fetch outcome
      · exact (settle_fetches m fetch outcome).trans fetches
      · exact congrArg _ returns

theorem change_of_call {r r' : Run α} (returns : r'.returns = r.returns) (caller : String) :
    Change r (r'.answered caller r.memo.joins? (r.memo.call caller)) := by
  rcases r.memo.ready_or_inFlight_or_resets with ⟨value, state⟩ | ⟨fetch, state⟩ | resets
  · rw [call_of_ready state, joins?, state]
    exact .found caller value state rfl rfl (congrArg _ returns)
  · have joined : ((r.memo.drop caller).join caller fetch).joined? caller = r.memo.joins? := by
      rw [joined?_join, if_pos rfl, joins?, state]
    rw [call_of_inFlight state, ← joined]
    exact change_of_poll (m := (r.memo.drop caller).join caller fetch) rfl rfl returns caller
  · rw [call_of_resets resets]
    exact .started resets rfl rfl returns

theorem change_of_step (r : Run α) (s : Step α) : Change r (r.step s) := by
  cases s with
  | create caller => exact .silent rfl rfl rfl
  | drop caller => exact .silent rfl rfl rfl
  | poll caller =>
    simp only [step]
    split
    · apply change_of_call
      rfl
    · exact change_of_poll rfl rfl rfl caller
  | fix fetch outcome =>
    rcases complete_eq r.memo fetch outcome with ⟨unfixed, eq⟩ | eq
    · refine .fixed fetch outcome unfixed ?_ ?_ rfl
      · exact complete_state r.memo fetch outcome
      · exact congrArg Memo.fetches eq
    · exact .silent (congrArg Memo.state eq) (congrArg Memo.fetches eq) rfl

end Run
end Memo
end SchemaTrace
