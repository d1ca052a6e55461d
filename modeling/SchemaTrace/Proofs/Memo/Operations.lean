import SchemaTrace.Memo.Basic
import SchemaTrace.Proofs.SortedMap.Lookup

/-! What the operations of a memo change and what they leave as it was. -/

namespace SchemaTrace

namespace Memo

variable {α : Type}

theorem stateOf_inj {first second : Outcome α} (same : stateOf first = stateOf second) :
    first = second := by
  cases first with
  | ok v =>
    cases second with
    | ok w => rw [State.ready.inj same]
    | error e => cases same
  | error e =>
    cases second with
    | ok v => cases same
    | error e' => rw [State.failed.inj same]

theorem stateOf_ne_inFlight (outcome : Outcome α) (fetch : Nat) :
    stateOf outcome ≠ .inFlight fetch := by
  cases outcome <;> simp [stateOf]

theorem stateOf_ne_unfetched (outcome : Outcome α) : stateOf outcome ≠ .unfetched := by
  cases outcome <;> simp [stateOf]

@[simp] theorem drop_state (m : Memo α) (caller : String) : (m.drop caller).state = m.state := rfl

@[simp] theorem join_fetches (m : Memo α) (caller : String) (fetch : Nat) :
    (m.join caller fetch).fetches = m.fetches := rfl

theorem settle_of_current {m : Memo α} {fetch : Nat} (current : m.state = .inFlight fetch)
    (outcome : Outcome α) : m.settle fetch outcome = { m with state := stateOf outcome } := by
  simp [settle, current]

theorem settle_of_not_current {m : Memo α} {fetch : Nat} (late : m.state ≠ .inFlight fetch)
    (outcome : Outcome α) : m.settle fetch outcome = m := by
  unfold settle
  split
  · next current eq =>
    rw [eq] at late
    exact if_neg fun same => late (congrArg State.inFlight same)
  · rfl

@[simp] theorem settle_fetches (m : Memo α) (fetch : Nat) (outcome : Outcome α) :
    (m.settle fetch outcome).fetches = m.fetches := by
  by_cases current : m.state = .inFlight fetch
  · rw [settle_of_current current]
  · rw [settle_of_not_current current]

@[simp] theorem settle_callers (m : Memo α) (fetch : Nat) (outcome : Outcome α) :
    (m.settle fetch outcome).callers = m.callers := by
  by_cases current : m.state = .inFlight fetch
  · rw [settle_of_current current]
  · rw [settle_of_not_current current]

theorem settle_state_congr {m m' : Memo α} (same : m'.state = m.state) (fetch : Nat)
    (outcome : Outcome α) : (m'.settle fetch outcome).state = (m.settle fetch outcome).state := by
  by_cases current : m.state = .inFlight fetch
  · rw [settle_of_current current, settle_of_current (same.trans current)]
  · rw [settle_of_not_current current, settle_of_not_current (same ▸ current), same]

theorem started_eq {m m' : Memo α} (same : m'.fetches = m.fetches) : m'.started = m.started :=
  congrArg List.length same

theorem started_of_set {m m' : Memo α} {fetch : Nat} {outcome : Outcome α}
    (fixed : m'.fetches = m.fetches.set fetch (some outcome)) : m'.started = m.started := by
  rw [started, fixed, List.length_set]
  rfl

theorem started_of_append {m m' : Memo α} (next : m'.fetches = m.fetches ++ [none]) :
    m'.started = m.started + 1 := by
  rw [started, next, List.length_append]
  rfl

theorem outcome?_eq {m m' : Memo α} (same : m'.fetches = m.fetches) (fetch : Nat) :
    m'.outcome? fetch = m.outcome? fetch := by
  rw [outcome?, outcome?, same]

theorem outcome?_eq_some_iff {m : Memo α} {fetch : Nat} {outcome : Outcome α} :
    m.outcome? fetch = some outcome ↔ m.fetches[fetch]? = some (some outcome) := by
  rw [outcome?, Option.join_eq_some_iff]

theorem lt_started_of_outcome? {m : Memo α} {fetch : Nat} {outcome : Outcome α}
    (fixed : m.outcome? fetch = some outcome) : fetch < m.started :=
  (List.getElem?_eq_some_iff.mp (outcome?_eq_some_iff.mp fixed)).1

theorem outcome?_of_append {m m' : Memo α} (next : m'.fetches = m.fetches ++ [none])
    {fetch : Nat} {outcome : Outcome α} :
    m'.outcome? fetch = some outcome ↔ m.outcome? fetch = some outcome := by
  rw [outcome?_eq_some_iff, outcome?_eq_some_iff, next, List.getElem?_append]
  split
  · rfl
  · next beyond =>
    rw [List.getElem?_eq_none (Nat.le_of_not_lt beyond)]
    cases fetch - m.fetches.length <;> simp

theorem outcome?_of_set {m m' : Memo α} {target : Nat} {fresh : Outcome α}
    (unfixed : m.fetches[target]? = some none)
    (fixed : m'.fetches = m.fetches.set target (some fresh))
    {fetch : Nat} {outcome : Outcome α} (before : m.outcome? fetch = some outcome) :
    m'.outcome? fetch = some outcome := by
  rw [outcome?_eq_some_iff] at before ⊢
  have other : target ≠ fetch := by
    intro same
    rw [same, before] at unfixed
    cases unfixed
  rw [fixed, List.getElem?_set_ne other, before]

theorem complete_eq (m : Memo α) (fetch : Nat) (outcome : Outcome α) :
    m.fetches[fetch]? = some none ∧
        (m.complete fetch outcome).2 =
          { m with fetches := m.fetches.set fetch (some outcome) } ∨
      (m.complete fetch outcome).2 = m := by
  unfold complete
  split
  · exact .inr rfl
  · exact .inr rfl
  · next eq => exact .inl ⟨eq, rfl⟩

@[simp] theorem complete_state (m : Memo α) (fetch : Nat) (outcome : Outcome α) :
    (m.complete fetch outcome).2.state = m.state := by
  rcases complete_eq m fetch outcome with ⟨-, eq⟩ | eq
  · rw [eq]
  · rw [eq]

@[simp] theorem complete_callers (m : Memo α) (fetch : Nat) (outcome : Outcome α) :
    (m.complete fetch outcome).2.callers = m.callers := by
  rcases complete_eq m fetch outcome with ⟨-, eq⟩ | eq
  · rw [eq]
  · rw [eq]

theorem joined?_eq {m m' : Memo α} (same : m'.callers = m.callers) (caller : String) :
    m'.joined? caller = m.joined? caller := by
  rw [joined?, joined?, same]

theorem joined?_join (m : Memo α) (caller other : String) (fetch : Nat) :
    (m.join caller fetch).joined? other = if other = caller then some fetch else m.joined? other :=
  SortedMap.lookup_cons_eq_ite other caller fetch m.callers

theorem joined?_drop (m : Memo α) (caller other : String) :
    (m.drop caller).joined? other = if other = caller then none else m.joined? other := by
  unfold drop joined?
  simp only
  induction m.callers with
  | nil => simp
  | cons head rest ih =>
    obtain ⟨name, fetch⟩ := head
    rw [SortedMap.lookup_cons_eq_ite]
    by_cases removed : name = caller
    · rw [List.filter_cons_of_neg (by simp [removed]), ih, removed]
      split
      · rfl
      · rfl
    · rw [List.filter_cons_of_pos (by simp [removed]), SortedMap.lookup_cons_eq_ite, ih]
      by_cases here : other = name
      · rw [if_pos here, if_neg (here ▸ removed), if_pos here]
      · rw [if_neg here, if_neg here]

theorem poll_of_outcome {m : Memo α} {caller : String} {fetch : Nat} {outcome : Outcome α}
    (joined : m.joined? caller = some fetch) (fixed : m.outcome? fetch = some outcome) :
    m.poll caller = (.returned outcome, (m.settle fetch outcome).drop caller) := by
  simp only [poll, joined, fixed]

theorem poll_of_no_outcome {m : Memo α} {caller : String} {fetch : Nat}
    (joined : m.joined? caller = some fetch) (pending : m.outcome? fetch = none) :
    m.poll caller = (.pending, m) := by
  simp only [poll, joined, pending]

theorem poll_of_no_caller {m : Memo α} {caller : String} (unknown : m.joined? caller = none) :
    m.poll caller = (.noCaller, m) := by
  simp only [poll, unknown]

theorem poll_of_start (m : Memo α) (caller : String) :
    (m.start.join caller m.started).poll caller = (.pending, m.start.join caller m.started) := by
  apply poll_of_no_outcome
  · rw [joined?_join, if_pos rfl]
  · rw [outcome?, join_fetches, start, started, List.getElem?_concat_length]
    rfl

theorem call_of_ready {m : Memo α} {value : α} (state : m.state = .ready value)
    (caller : String) : m.call caller = (.returned (.ok value), m.drop caller) := by
  simp only [call, drop_state, state]

theorem call_of_inFlight {m : Memo α} {fetch : Nat} (state : m.state = .inFlight fetch)
    (caller : String) : m.call caller = ((m.drop caller).join caller fetch).poll caller := by
  simp only [call, drop_state, state]

/-- A memo for which the next call starts a fetch. -/
def Resets (m : Memo α) : Prop := m.status = .unfetched ∨ m.status = .failed

theorem resets_iff {m : Memo α} :
    m.Resets ↔ m.state = .unfetched ∨ ∃ error, m.state = .failed error := by
  cases state : m.state <;> simp [Resets, status, state, State.status]

theorem not_resets_of_ready {m : Memo α} {value : α} (ready : m.state = .ready value) :
    ¬m.Resets := by
  rw [resets_iff, ready]
  simp

theorem call_of_resets {m : Memo α} (resets : m.Resets) (caller : String) :
    m.call caller = (.pending, (m.drop caller).start.join caller m.started) := by
  have start : ((m.drop caller).start.join caller m.started).poll caller =
      (.pending, (m.drop caller).start.join caller m.started) :=
    poll_of_start (m.drop caller) caller
  rcases resets_iff.mp resets with state | ⟨error, state⟩
  · rwa [call, drop_state, state]
  · rwa [call, drop_state, state]

def joins? (m : Memo α) : Option Nat :=
  match m.state with
  | .ready _ => none
  | .inFlight fetch => some fetch
  | _ => some m.started

theorem joins?_of_resets {m : Memo α} (resets : m.Resets) : m.joins? = some m.started := by
  rcases resets_iff.mp resets with state | ⟨error, state⟩
  · rw [joins?, state]
  · rw [joins?, state]

theorem ready_or_inFlight_or_resets (m : Memo α) :
    (∃ value, m.state = .ready value) ∨ (∃ fetch, m.state = .inFlight fetch) ∨ m.Resets := by
  cases state : m.state with
  | ready value => exact .inl ⟨value, rfl⟩
  | inFlight fetch => exact .inr (.inl ⟨fetch, rfl⟩)
  | unfetched => exact .inr (.inr (.inl (congrArg State.status state)))
  | failed error => exact .inr (.inr (.inr (congrArg State.status state)))

theorem joined?_poll (m : Memo α) (caller other : String) :
    (m.poll caller).2.joined? other = m.joined? other ∨
      other = caller ∧ (m.poll caller).2.joined? other = none := by
  cases joined : m.joined? caller with
  | none => exact .inl (by rw [poll_of_no_caller joined])
  | some fetch =>
    cases fixed : m.outcome? fetch with
    | none => exact .inl (by rw [poll_of_no_outcome joined fixed])
    | some outcome =>
      rw [poll_of_outcome joined fixed, joined?_drop]
      by_cases same : other = caller
      · exact .inr ⟨same, if_pos same⟩
      · rw [if_neg same]
        exact .inl (joined?_eq (settle_callers m fetch outcome) other)

theorem joined?_call_of_ne (m : Memo α) {caller other : String} (ne : other ≠ caller) :
    (m.call caller).2.joined? other = m.joined? other := by
  have joins (n : Memo α) (callers : n.callers = (m.drop caller).callers) (fetch : Nat) :
      (n.join caller fetch).joined? other = m.joined? other := by
    rw [joined?_join, if_neg ne, joined?_eq callers, joined?_drop, if_neg ne]
  rcases m.ready_or_inFlight_or_resets with ⟨value, state⟩ | ⟨fetch, state⟩ | resets
  · rw [call_of_ready state, joined?_drop, if_neg ne]
  · rw [call_of_inFlight state]
    rcases joined?_poll ((m.drop caller).join caller fetch) caller other with same | ⟨eq, -⟩
    · rw [same, joins _ rfl]
    · exact absurd eq ne
  · rw [call_of_resets resets]
    exact joins (m.drop caller).start rfl m.started

theorem joined?_call_self {m : Memo α} {caller : String} {fetch : Nat}
    (joined : (m.call caller).2.joined? caller = some fetch) : m.joins? = some fetch := by
  rcases m.ready_or_inFlight_or_resets with ⟨value, state⟩ | ⟨current, state⟩ | resets
  · rw [call_of_ready state, joined?_drop, if_pos rfl] at joined
    cases joined
  · rw [call_of_inFlight state] at joined
    rw [joins?, state]
    rcases joined?_poll ((m.drop caller).join caller current) caller caller with same | ⟨-, gone⟩
    · rw [same, joined?_join, if_pos rfl] at joined
      exact joined
    · rw [gone] at joined
      cases joined
  · rw [call_of_resets resets, joined?_join, if_pos rfl] at joined
    rw [joins?_of_resets resets]
    exact joined

end Memo
end SchemaTrace
