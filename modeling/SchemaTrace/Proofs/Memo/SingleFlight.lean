import SchemaTrace.Proofs.Memo.Run

/-! At most one fetch is in flight, and all callers that get a value get the same one. -/

namespace SchemaTrace

namespace Memo

namespace Run

variable {α : Type}

/-- A return is the outcome of the fetch it names, or a value if it names none, and any returned
value is that of the memo. -/
structure Fits (m : Memo α) (given : Return α) : Prop where
  joined : ∀ fetch, given.fetch = some fetch → m.outcome? fetch = some given.outcome
  found : given.fetch = none → ∃ v, given.outcome = .ok v
  value : ∀ v, given.outcome = .ok v → m.state = .ready v

structure Sound (r : Run α) : Prop where
  fresh : r.memo.state = .unfetched → r.memo.started = 0
  current : ∀ fetch, r.memo.state = .inFlight fetch → fetch + 1 = r.memo.started
  settled : ∀ outcome, r.memo.state = stateOf outcome → ∃ caller last,
    last + 1 = r.memo.started ∧ r.memo.outcome? last = some outcome ∧
      ⟨caller, some last, outcome⟩ ∈ r.returns
  ended : ∀ fetch, fetch + 1 < r.memo.started → ∃ e, r.memo.outcome? fetch = some (.error e)
  returned : ∀ given ∈ r.returns, Fits r.memo given

theorem sound_initial (label : String) : (initial label : Run α).Sound where
  fresh _ := rfl
  current _ running := by cases running
  settled outcome state := absurd state.symm (stateOf_ne_unfetched outcome)
  ended _ less := absurd less (Nat.not_lt_zero _)
  returned _ given := absurd given List.not_mem_nil

variable {r r' : Run α}

theorem Sound.of_same_state (sound : r.Sound) (state : r'.memo.state = r.memo.state)
    (started : r'.memo.started = r.memo.started)
    (outcomes : ∀ fetch outcome, r.memo.outcome? fetch = some outcome →
      r'.memo.outcome? fetch = some outcome)
    (kept : ∀ given ∈ r.returns, given ∈ r'.returns)
    (fits : ∀ given ∈ r'.returns, given ∈ r.returns ∨ Fits r'.memo given) : r'.Sound := by
  constructor
  · intro fresh
    rw [started]
    exact sound.fresh (state ▸ fresh)
  · intro fetch current
    rw [started]
    exact sound.current fetch (state ▸ current)
  · intro outcome settled
    obtain ⟨caller, last, number, fixed, given⟩ := sound.settled outcome (state ▸ settled)
    exact ⟨caller, last, started ▸ number, outcomes last outcome fixed, kept _ given⟩
  · intro fetch earlier
    obtain ⟨e, failed⟩ := sound.ended fetch (started ▸ earlier)
    exact ⟨e, outcomes fetch _ failed⟩
  · intro given member
    rcases fits given member with old | new
    · have before := sound.returned given old
      constructor
      · exact fun fetch joined => outcomes fetch _ (before.joined fetch joined)
      · exact before.found
      · exact fun v value => state.trans (before.value v value)
    · exact new

/-- Before a memo is fetched again its last fetch has failed, and a caller was told so. -/
theorem Sound.of_resets (sound : r.Sound) (resets : r.memo.Resets) :
    (r.memo.status = .unfetched ∧ r.memo.started = 0) ∨
      r.memo.status = .failed ∧ ∃ caller last e, last + 1 = r.memo.started ∧
        r.memo.outcome? last = some (.error e) ∧ ⟨caller, some last, .error e⟩ ∈ r.returns := by
  rcases resets_iff.mp resets with state | ⟨e, state⟩
  · exact .inl ⟨congrArg State.status state, sound.fresh state⟩
  · obtain ⟨caller, last, number, failed, given⟩ := sound.settled (.error e) state
    exact .inr ⟨congrArg State.status state, caller, last, e, number, failed, given⟩

theorem Sound.of_started (sound : r.Sound) (resets : r.memo.Resets)
    (state : r'.memo.state = .inFlight r.memo.started)
    (fetches : r'.memo.fetches = r.memo.fetches ++ [none]) (returns : r'.returns = r.returns) :
    r'.Sound := by
  have started := started_of_append fetches
  constructor
  · intro fresh
    rw [state] at fresh
    cases fresh
  · intro fetch current
    rw [state] at current
    rw [started, State.inFlight.inj current]
  · intro outcome settled
    exact absurd (settled.symm.trans state) (stateOf_ne_inFlight outcome _)
  · intro fetch earlier
    simp only [outcome?_of_append fetches]
    -- The fetch that was the last one so far is the one whose error let this one start.
    by_cases before : fetch + 1 < r.memo.started
    · exact sound.ended fetch before
    · rcases sound.of_resets resets with ⟨-, none⟩ | ⟨-, _, last, e, number, failed, -⟩
      · omega
      · have same : fetch = last := by omega
        exact ⟨e, same ▸ failed⟩
  · intro given member
    have before := sound.returned given (returns ▸ member)
    constructor
    · exact fun fetch joined => (outcome?_of_append fetches).mpr (before.joined fetch joined)
    · exact before.found
    · intro v value
      exact absurd resets (not_resets_of_ready (before.value v value))

theorem Sound.of_settled (sound : r.Sound) {caller : String} {fetch : Nat} {outcome : Outcome α}
    (current : r.memo.state = .inFlight fetch) (fixed : r.memo.outcome? fetch = some outcome)
    (state : r'.memo.state = stateOf outcome) (fetches : r'.memo.fetches = r.memo.fetches)
    (returns : r'.returns = ⟨caller, some fetch, outcome⟩ :: r.returns) : r'.Sound := by
  have started := started_eq fetches
  have outcomes := outcome?_eq fetches
  constructor
  · intro fresh
    exact absurd (state.symm.trans fresh) (stateOf_ne_unfetched outcome)
  · intro other inFlight
    exact absurd (state.symm.trans inFlight) (stateOf_ne_inFlight outcome other)
  · intro other settled
    obtain rfl := stateOf_inj (state.symm.trans settled)
    rw [started, returns]
    exact ⟨caller, fetch, sound.current fetch current, (outcomes fetch).trans fixed, .head _⟩
  · intro other earlier
    rw [outcomes]
    exact sound.ended other (started ▸ earlier)
  · intro given member
    rw [returns] at member
    cases member with
    | head =>
      constructor
      · intro joined same
        rw [outcomes, ← Option.some.inj same, fixed]
      · intro alone
        cases alone
      · intro v value
        rw [state, show outcome = .ok v from value]
        rfl
    | tail _ old =>
      have before := sound.returned given old
      constructor
      · exact fun fetch joined => (outcomes fetch).trans (before.joined fetch joined)
      · exact before.found
      · intro v value
        rw [before.value v value] at current
        cases current

theorem Sound.ready_of_value (sound : r.Sound) {fetch : Nat} {v : α}
    (value : r.memo.outcome? fetch = some (.ok v)) (late : r.memo.state ≠ .inFlight fetch) :
    r.memo.state = .ready v := by
  have below := lt_started_of_outcome? value
  -- All fetches but the last have failed.
  have last : fetch + 1 = r.memo.started := by
    by_cases earlier : fetch + 1 < r.memo.started
    · obtain ⟨e, failed⟩ := sound.ended fetch earlier
      rw [value] at failed
      cases failed
    · omega
  have unique {outcome : Outcome α} (settled : r.memo.state = stateOf outcome) :
      outcome = .ok v := by
    obtain ⟨-, other, number, fixed, -⟩ := sound.settled outcome settled
    have same : other = fetch := by omega
    rw [same, value] at fixed
    exact (Option.some.inj fixed).symm
  cases state : r.memo.state with
  | unfetched =>
    have none := sound.fresh state
    omega
  | inFlight current =>
    have number := sound.current current state
    have same : current = fetch := by omega
    exact absurd (same ▸ state) late
  | ready w =>
    have same : Except.ok w = .ok v := unique state
    rw [Except.ok.inj same]
  | failed e =>
    have wrong : Except.error e = .ok v := unique state
    cases wrong

theorem Sound.of_change (sound : r.Sound) (change : Change r r') : r'.Sound := by
  cases change with
  | silent state fetches returns =>
    apply sound.of_same_state state (started_eq fetches)
    · exact fun fetch outcome fixed => (outcome?_eq fetches fetch).trans fixed
    · exact fun given member => returns ▸ member
    · exact fun given member => .inl (returns ▸ member)
  | fixed fetch outcome unfixed state fetches returns =>
    apply sound.of_same_state state (started_of_set fetches)
    · exact fun other fixed before => outcome?_of_set unfixed fetches before
    · exact fun given member => returns ▸ member
    · exact fun given member => .inl (returns ▸ member)
  | started resets state fetches returns => exact sound.of_started resets state fetches returns
  | found caller value ready state fetches returns =>
    apply sound.of_same_state state (started_eq fetches)
    · exact fun fetch outcome fixed => (outcome?_eq fetches fetch).trans fixed
    · exact fun given member => returns ▸ .tail _ member
    · intro given member
      rw [returns] at member
      cases member with
      | tail _ old => exact .inl old
      | head =>
        refine .inr ⟨?_, fun _ => ⟨value, rfl⟩, ?_⟩
        · intro fetch joined
          cases joined
        · intro v same
          rw [state, ready, Except.ok.inj same]
  | returned caller fetch outcome fixed state fetches returns =>
    -- Only the outcome of the current fetch settles the memo; one that comes late changes nothing.
    by_cases current : r.memo.state = .inFlight fetch
    · rw [settle_of_current current] at state
      exact sound.of_settled current fixed state fetches returns
    · rw [settle_of_not_current current] at state
      apply sound.of_same_state state (started_eq fetches)
      · exact fun other outcome before => (outcome?_eq fetches other).trans before
      · exact fun given member => returns ▸ .tail _ member
      · intro given member
        rw [returns] at member
        cases member with
        | tail _ old => exact .inl old
        | head =>
          refine .inr ⟨?_, ?_, ?_⟩
          · intro joined same
            rw [outcome?_eq fetches, ← Option.some.inj same, fixed]
          · intro alone
            cases alone
          · intro v value
            rw [show outcome = .ok v from value] at fixed
            exact state.trans (sound.ready_of_value fixed current)

theorem Sound.after (sound : r.Sound) (steps : List (Step α)) : (r.after steps).Sound :=
  after_induction (fun r s sound => sound.of_change (change_of_step r s)) sound steps

theorem sound_after (label : String) (steps : List (Step α)) :
    ((initial label).after steps).Sound :=
  (sound_initial label).after steps

theorem ready_of_change {v : α} (ready : r.memo.state = .ready v) (change : Change r r') :
    r'.memo.state = .ready v ∧ r'.memo.started = r.memo.started := by
  cases change with
  | silent state fetches => exact ⟨state.trans ready, started_eq fetches⟩
  | fixed _ _ _ state fetches => exact ⟨state.trans ready, started_of_set fetches⟩
  | started resets => exact absurd resets (not_resets_of_ready ready)
  | found _ _ _ state fetches => exact ⟨state.trans ready, started_eq fetches⟩
  | returned caller fetch outcome _ state fetches =>
    rw [settle_of_not_current (by rw [ready]; simp)] at state
    exact ⟨state.trans ready, started_eq fetches⟩

theorem ready_after {v : α} (ready : r.memo.state = .ready v) (steps : List (Step α)) :
    (r.after steps).memo.state = .ready v ∧ (r.after steps).memo.started = r.memo.started := by
  induction steps generalizing r with
  | nil => exact ⟨ready, rfl⟩
  | cons s steps ih =>
    obtain ⟨next, same⟩ := ready_of_change ready (change_of_step r s)
    obtain ⟨last, started⟩ := ih next
    exact ⟨last, started.trans same⟩

theorem started_of_change (change : Change r r')
    (more : r'.memo.started ≠ r.memo.started) : r'.memo.started = r.memo.started + 1 ∧
      r.memo.Resets := by
  cases change with
  | silent _ fetches => exact absurd (started_eq fetches) more
  | found _ _ _ _ fetches => exact absurd (started_eq fetches) more
  | returned _ _ _ _ _ fetches => exact absurd (started_eq fetches) more
  | fixed _ _ _ _ fetches => exact absurd (started_of_set fetches) more
  | started resets _ fetches => exact ⟨started_of_append fetches, resets⟩

/-- A fetch starts only when there was none, or when the one before has failed and a caller was
told so. Once a caller got a value the memo is ready with it for good, nothing more is fetched, and
all callers that get a value get that one. -/
theorem single_flight (label : String) (steps : List (Step α)) :
    let r : Run α := (initial label).after steps
    (∀ s, (r.step s).memo.started ≠ r.memo.started →
      (r.step s).memo.started = r.memo.started + 1 ∧
        ((r.memo.status = .unfetched ∧ r.memo.started = 0) ∨
          r.memo.status = .failed ∧ ∃ caller last e, last + 1 = r.memo.started ∧
            r.memo.outcome? last = some (.error e) ∧
            ⟨caller, some last, .error e⟩ ∈ r.returns)) ∧
    ∀ given ∈ r.returns, ∀ v, given.outcome = .ok v → ∀ more : List (Step α),
      let r' := r.after more
      r'.memo.status = .ready ∧ r'.memo.value? = some v ∧
        r'.memo.started = r.memo.started ∧
        ∀ other ∈ r'.returns, ∀ w, other.outcome = .ok w → w = v := by
  intro r
  have sound : r.Sound := sound_after label steps
  constructor
  · intro s more
    obtain ⟨started, resets⟩ := started_of_change (change_of_step r s) more
    exact ⟨started, sound.of_resets resets⟩
  · intro given member v value more r'
    have ready := (sound.returned given member).value v value
    obtain ⟨readyAfter, started⟩ := ready_after ready more
    have soundAfter : r'.Sound := sound.after more
    refine ⟨congrArg State.status readyAfter, ?_, started, ?_⟩
    · rw [value?, readyAfter]
    · intro other memberAfter w valueAfter
      have same := (soundAfter.returned other memberAfter).value w valueAfter
      rw [readyAfter] at same
      exact (State.ready.inj same).symm

/-- Two callers join a fetch that fails. One of them sees it, and a third caller fetches again. -/
def retry : List (Step String) := [
  .create "a", .create "b", .poll "a", .poll "b", .fix 0 (.error ⟨"tree", "reset"⟩), .poll "a",
  .create "c", .poll "c", .fix 1 (.ok "fresh"), .poll "c"]

theorem single_flight_retry :
    let r := (initial "tree").after retry
    r.returns = [⟨"c", some 1, .ok "fresh"⟩, ⟨"a", some 0, .error ⟨"tree", "reset"⟩⟩] ∧
      (r.after [.poll "b", .create "d", .poll "d"]).memo.value? = some "fresh" ∧
      (r.after [.poll "b", .create "d", .poll "d"]).memo.started = r.memo.started := by
  intro r
  have returns : r.returns =
      [⟨"c", some 1, .ok "fresh"⟩, ⟨"a", some 0, .error ⟨"tree", "reset"⟩⟩] := rfl
  have member : ⟨"c", some 1, .ok "fresh"⟩ ∈ r.returns := by
    rw [returns]
    exact .head _
  have kept := (single_flight "tree" retry).2 _ member "fresh" rfl
    [.poll "b", .create "d", .poll "d"]
  exact ⟨returns, kept.2.1, kept.2.2.1⟩

end Run
end Memo
end SchemaTrace
