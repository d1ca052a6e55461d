import SchemaTrace.Proofs.Memo.SingleFlight

/-! Callers that wait, that come late or that are dropped neither change a memo for others nor
keep it from being settled or fetched again. -/

namespace SchemaTrace

namespace Memo

namespace Run

variable {α : Type} {r : Run α} {caller : String}

structure Follows (r : Run α) (caller : String) (fetch : Option Nat) : Prop where
  polled : caller ∉ r.created
  joined : ∀ other, r.memo.joined? caller = some other → fetch = some other

theorem follows_of_first_poll (created : caller ∈ r.created) :
    (r.step (.poll caller)).Follows caller r.memo.joins? := by
  rw [step_poll_of_created created]
  constructor
  · simp
  · intro other joined
    rw [answered_memo] at joined
    exact joined?_call_self joined

theorem Follows.step {fetch : Option Nat} (follows : r.Follows caller fetch) (s : Step α)
    (same : s ≠ .create caller) : (r.step s).Follows caller fetch := by
  have same_callers {m : Memo α} (callers : m.callers = r.memo.callers) (other : Nat)
      (joined : m.joined? caller = some other) : fetch = some other := by
    rw [joined?_eq callers] at joined
    exact follows.joined other joined
  have dropped (name : String) (other : Nat)
      (joined : (r.memo.drop name).joined? caller = some other) : fetch = some other := by
    rw [joined?_drop] at joined
    split at joined
    · cases joined
    · exact follows.joined other joined
  -- A caller joins a fetch at its first poll only, and that is over.
  cases s with
  | create name =>
    refine ⟨?_, dropped name⟩
    intro member
    rcases List.mem_cons.mp member with eq | old
    · exact same (eq ▸ rfl)
    · exact follows.polled old
  | drop name =>
    refine ⟨?_, dropped name⟩
    intro member
    exact follows.polled (List.mem_filter.mp member).1
  | fix number outcome =>
    exact ⟨follows.polled, same_callers (complete_callers r.memo number outcome)⟩
  | poll name =>
    by_cases created : name ∈ r.created
    · have ne : caller ≠ name := by
        intro eq
        exact follows.polled (eq ▸ created)
      rw [step_poll_of_created created]
      constructor
      · rw [answered_created]
        intro member
        exact follows.polled (List.mem_filter.mp member).1
      · rw [answered_memo, joined?_call_of_ne r.memo ne]
        exact follows.joined
    · rw [step_poll_of_not_created created]
      constructor
      · rw [answered_created]
        exact follows.polled
      · intro other joined
        rw [answered_memo] at joined
        rcases joined?_poll r.memo name caller with kept | ⟨-, gone⟩
        · exact follows.joined other (kept ▸ joined)
        · rw [gone] at joined
          cases joined

theorem Follows.returns_step {fetch : Option Nat} (follows : r.Follows caller fetch) (s : Step α) :
    ∃ new, (r.step s).returns = new ++ r.returns ∧
      ∀ given ∈ new, given.caller = caller → given.fetch = fetch := by
  cases s with
  | create name => exact ⟨[], rfl, List.forall_mem_nil _⟩
  | drop name => exact ⟨[], rfl, List.forall_mem_nil _⟩
  | fix number outcome => exact ⟨[], rfl, List.forall_mem_nil _⟩
  | poll name =>
    by_cases created : name ∈ r.created
    · rw [step_poll_of_created created]
      obtain ⟨new, returns, own⟩ := answered_returns
        { r with created := r.created.filter (· ≠ name) } name r.memo.joins? (r.memo.call name)
      refine ⟨new, returns, ?_⟩
      intro given member eq
      -- Another caller's first poll: a caller that follows a fetch has had its own.
      obtain rfl := (own given member).1.symm.trans eq
      exact absurd created follows.polled
    · rw [step_poll_of_not_created created]
      cases joined : r.memo.joined? name with
      | none =>
        rw [poll_of_no_caller joined]
        exact ⟨[], rfl, List.forall_mem_nil _⟩
      | some number =>
        obtain ⟨new, returns, own⟩ := answered_returns r name (some number) (r.memo.poll name)
        refine ⟨new, returns, ?_⟩
        intro given member eq
        obtain ⟨named, joinedBy⟩ := own given member
        obtain rfl := named.symm.trans eq
        exact joinedBy.trans (follows.joined number joined).symm

theorem Follows.returns_after {fetch : Option Nat} (follows : r.Follows caller fetch)
    (steps : List (Step α)) (same : .create caller ∉ steps) :
    ∃ new, (r.after steps).returns = new ++ r.returns ∧
      ∀ given ∈ new, given.caller = caller → given.fetch = fetch := by
  induction steps generalizing r with
  | nil => exact ⟨[], rfl, List.forall_mem_nil _⟩
  | cons s steps ih =>
    obtain ⟨head, tail⟩ := List.ne_and_not_mem_of_not_mem_cons same
    obtain ⟨first, stepped, own⟩ := follows.returns_step s
    obtain ⟨later, rest, ownLater⟩ := ih (follows.step s (Ne.symm head)) tail
    refine ⟨later ++ first, ?_, ?_⟩
    · rw [after_cons, rest, stepped, List.append_assoc]
    · intro given member
      rcases List.mem_append.mp member with new | old
      · exact ownLater given new
      · exact own given old

/-- The returns of a caller from its first poll on have the fetch that it joined there. -/
theorem returns_of_first_poll (created : caller ∈ r.created) (steps : List (Step α))
    (same : .create caller ∉ steps) :
    ∃ new, (r.after (.poll caller :: steps)).returns = new ++ r.returns ∧
      ∀ given ∈ new, given.caller = caller → given.fetch = r.memo.joins? := by
  obtain ⟨later, rest, own⟩ := (follows_of_first_poll created).returns_after steps same
  obtain ⟨first, returns, ownFirst⟩ := answered_returns
    { r with created := r.created.filter (· ≠ caller) } caller r.memo.joins? (r.memo.call caller)
  rw [← step_poll_of_created created] at returns
  refine ⟨later ++ first, ?_, ?_⟩
  · rw [after_cons, rest, returns, List.append_assoc]
  · intro given member
    rcases List.mem_append.mp member with new | old
    · exact own given new
    · exact fun _ => (ownFirst given old).2

theorem step_poll_of_fixed {fetch : Nat} {outcome : Outcome α}
    (current : r.memo.state = .inFlight fetch) (fixed : r.memo.outcome? fetch = some outcome)
    (waits : caller ∈ r.created ∨ r.memo.joined? caller = some fetch) :
    (r.step (.poll caller)).returns = ⟨caller, some fetch, outcome⟩ :: r.returns ∧
      (r.step (.poll caller)).memo.state = stateOf outcome := by
  by_cases created : caller ∈ r.created
  · have joined : ((r.memo.drop caller).join caller fetch).joined? caller = some fetch := by
      rw [joined?_join, if_pos rfl]
    have same : ((r.memo.drop caller).join caller fetch).outcome? fetch = some outcome := fixed
    have joins : r.memo.joins? = some fetch := by rw [joins?, current]
    have settled := settle_of_current (m := (r.memo.drop caller).join caller fetch) current outcome
    rw [step_poll_of_created created, call_of_inFlight current, poll_of_outcome joined same,
      joins, settled]
    exact ⟨rfl, rfl⟩
  · have joined := waits.resolve_left created
    rw [step_poll_of_not_created created, poll_of_outcome joined fixed, joined,
      settle_of_current current]
    exact ⟨rfl, rfl⟩

theorem after_call_of_fixed {fetch : Nat} {outcome : Outcome α}
    (current : r.memo.state = .inFlight fetch) (fixed : r.memo.outcome? fetch = some outcome)
    (gone : List String) (caller : String) :
    (r.after (gone.map .drop ++ [.create caller, .poll caller])).returns =
        ⟨caller, some fetch, outcome⟩ :: r.returns ∧
      (r.after (gone.map .drop ++ [.create caller, .poll caller])).memo.state =
        stateOf outcome := by
  obtain ⟨state, fetches, returns⟩ := after_drop r gone
  rw [after_append, ← returns]
  have created : caller ∈ ((r.after (gone.map .drop)).step (.create caller)).created := .head _
  have currentThere :
      ((r.after (gone.map .drop)).step (.create caller)).memo.state = .inFlight fetch :=
    state.trans current
  have fixedThere :
      ((r.after (gone.map .drop)).step (.create caller)).memo.outcome? fetch = some outcome :=
    (outcome?_eq fetches fetch).trans fixed
  exact step_poll_of_fixed currentThere fixedThere (.inl created)

theorem state_of_late_return {fetch : Option Nat} {outcome : Outcome α}
    (returned : (r.step (.poll caller)).returns = ⟨caller, fetch, outcome⟩ :: r.returns)
    (late : ∀ current, r.memo.state = .inFlight current → fetch ≠ some current) :
    (r.step (.poll caller)).memo.state = r.memo.state := by
  cases change_of_step r (.poll caller) with
  | silent state => exact state
  | fixed _ _ _ state => exact state
  | found _ _ _ state => exact state
  | started _ _ _ returns =>
    rw [returns] at returned
    exact absurd returned.symm (List.cons_ne_self _ _)
  | returned name number given _ state _ returns =>
    have same : some number = fetch :=
      congrArg Return.fetch (List.head_eq_of_cons_eq (returns.symm.trans returned))
    have settled : r.memo.settle number given = r.memo := by
      apply settle_of_not_current
      intro current
      exact late number current same.symm
    rw [settled] at state
    exact state

theorem step_poll_of_resets (resets : r.memo.Resets) (created : caller ∈ r.created) :
    (r.step (.poll caller)).memo.started = r.memo.started + 1 ∧
      (r.step (.poll caller)).memo.state = .inFlight r.memo.started ∧
      (r.step (.poll caller)).memo.joined? caller = some r.memo.started := by
  have stepped : (r.step (.poll caller)).memo =
      (r.memo.drop caller).start.join caller r.memo.started := by
    rw [step_poll_of_created created, answered_memo, call_of_resets resets]
  refine ⟨?_, ?_, ?_⟩
  · exact started_of_append (congrArg Memo.fetches stepped)
  · exact congrArg Memo.state stepped
  · rw [stepped, joined?_join, if_pos rfl]

theorem after_call_of_resets (resets : r.memo.Resets) (caller : String) :
    (r.after [.create caller, .poll caller]).memo.started = r.memo.started + 1 ∧
      (r.after [.create caller, .poll caller]).memo.state = .inFlight r.memo.started ∧
      (r.after [.create caller, .poll caller]).memo.joined? caller = some r.memo.started := by
  have resetsThere : (r.step (.create caller)).memo.Resets := resets
  exact step_poll_of_resets resetsThere (.head _)

/-- What the callers of a memo can rely on at a point of a run, whatever the others do. -/
structure Undisturbed (r : Run α) : Prop where
  /-- A memo that is settled has the outcome of the last fetch. -/
  settled : ∀ outcome, r.memo.state = stateOf outcome → ∃ last, last + 1 = r.memo.started ∧
    r.memo.outcome? last = some outcome
  /-- A return is the outcome of the fetch it names, or the value found. -/
  returned : ∀ given ∈ r.returns,
    (∃ fetch, given.fetch = some fetch ∧ r.memo.outcome? fetch = some given.outcome) ∨
      given.fetch = none ∧ ∃ v, given.outcome = .ok v ∧ r.memo.state = .ready v
  /-- The fetch that a return names is the one its caller joined when it was first polled. -/
  joined : ∀ caller ∈ r.created, ∀ steps : List (Step α), .create caller ∉ steps →
    ∃ new, (r.after (.poll caller :: steps)).returns = new ++ r.returns ∧
      ∀ given ∈ new, given.caller = caller → given.fetch = r.memo.joins?
  /-- A return of another fetch than the current one leaves the memo in its state. -/
  late : ∀ caller fetch outcome,
    (r.step (.poll caller)).returns = ⟨caller, fetch, outcome⟩ :: r.returns →
    (∀ current, r.memo.state = .inFlight current → fetch ≠ some current) →
    (r.step (.poll caller)).memo.state = r.memo.state
  /-- Callers that are dropped leave the memo and its fetches as they are. -/
  dropped : ∀ callers : List String,
    (r.after (callers.map .drop)).memo.state = r.memo.state ∧
      (r.after (callers.map .drop)).memo.fetches = r.memo.fetches
  /-- Whoever is polled and waits for the current fetch settles the memo with its outcome. -/
  noticed : ∀ fetch outcome, r.memo.state = .inFlight fetch →
    r.memo.outcome? fetch = some outcome → ∀ caller,
    caller ∈ r.created ∨ r.memo.joined? caller = some fetch →
    (r.step (.poll caller)).returns = ⟨caller, some fetch, outcome⟩ :: r.returns ∧
      (r.step (.poll caller)).memo.state = stateOf outcome
  /-- So does a new call, also when others have been dropped. -/
  called : ∀ fetch outcome, r.memo.state = .inFlight fetch →
    r.memo.outcome? fetch = some outcome → ∀ (gone : List String) (caller : String),
    let r' := r.after (gone.map .drop ++ [.create caller, .poll caller])
    r'.returns = ⟨caller, some fetch, outcome⟩ :: r.returns ∧ r'.memo.state = stateOf outcome
  /-- A first poll starts one fetch if the memo was never fetched or has failed. -/
  restarted : r.memo.status = .unfetched ∨ r.memo.status = .failed → ∀ caller ∈ r.created,
    let r' := r.step (.poll caller)
    r'.memo.started = r.memo.started + 1 ∧ r'.memo.state = .inFlight r.memo.started ∧
      r'.memo.joined? caller = some r.memo.started
  /-- So does a new call. -/
  calledAgain : r.memo.status = .unfetched ∨ r.memo.status = .failed → ∀ caller : String,
    let r' := r.after [.create caller, .poll caller]
    r'.memo.started = r.memo.started + 1 ∧ r'.memo.state = .inFlight r.memo.started ∧
      r'.memo.joined? caller = some r.memo.started

theorem undisturbed_after (label : String) (steps : List (Step α)) :
    ((initial label).after steps).Undisturbed := by
  have sound : ((initial label).after steps : Run α).Sound := sound_after label steps
  constructor
  · intro outcome state
    obtain ⟨-, last, number, fixed, -⟩ := sound.settled outcome state
    exact ⟨last, number, fixed⟩
  · intro given member
    have fits := sound.returned given member
    cases named : given.fetch with
    | some fetch => exact .inl ⟨fetch, rfl, fits.joined fetch named⟩
    | none =>
      obtain ⟨v, value⟩ := fits.found named
      exact .inr ⟨rfl, v, value, fits.value v value⟩
  · exact fun _ created => returns_of_first_poll created
  · exact fun _ _ _ => state_of_late_return
  · intro callers
    exact ⟨(after_drop _ callers).1, (after_drop _ callers).2.1⟩
  · exact fun _ _ current fixed _ => step_poll_of_fixed current fixed
  · exact fun _ _ current fixed gone caller => after_call_of_fixed current fixed gone caller
  · exact fun resets _ created => step_poll_of_resets resets created
  · exact after_call_of_resets

theorem undisturbed_retry :
    let r := (initial "tree").after (retry.take 9)
    r.memo.state = .inFlight 1 ∧
      (r.step (.poll "b")).returns = ⟨"b", some 0, .error ⟨"tree", "reset"⟩⟩ :: r.returns ∧
      (r.step (.poll "b")).memo.state = r.memo.state ∧
      (r.after (["b", "c"].map .drop ++ [.create "d", .poll "d"])).memo.state = .ready "fresh" := by
  intro r
  have undisturbed : r.Undisturbed := undisturbed_after "tree" (retry.take 9)
  have state : r.memo.state = .inFlight 1 := rfl
  have returned :
      (r.step (.poll "b")).returns = ⟨"b", some 0, .error ⟨"tree", "reset"⟩⟩ :: r.returns := rfl
  refine ⟨state, returned, undisturbed.late "b" _ _ returned ?_, ?_⟩
  · intro current inFlight
    rw [state] at inFlight
    rw [← State.inFlight.inj inFlight]
    decide
  · exact (undisturbed.called 1 (.ok "fresh") state rfl ["b", "c"] "d").2

end Run
end Memo
end SchemaTrace
