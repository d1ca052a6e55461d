import SchemaTrace.Proofs.Snapshot.Moves
import SchemaTrace.Provider.Memory

/-! Histories of a snapshot cache. Its operations are called in any order, each with the provider as
it is at that moment. What the cache holds is exactly what it was answered, and it asks for nothing
that it was answered before. -/

namespace SchemaTrace

namespace Request

def commit? : Request → Option String
  | .head => none
  | .list commit _ => some commit
  | .file commit _ => some commit

end Request

inductive Exchange where
  | head (answer : Outcome String)
  | list (commit path : String) (answer : Outcome (List Entry))
  | file (commit path : String) (answer : Outcome String)
  deriving DecidableEq

namespace Exchange

def request : Exchange → Request
  | .head _ => .head
  | .list commit path _ => .list commit path
  | .file commit path _ => .file commit path

def file? : Exchange → Option (String × String)
  | .file _ path (.ok content) => some (path, content)
  | _ => none

theorem file?_eq_some_iff {e : Exchange} {path content : String} :
    e.file? = some (path, content) ↔ ∃ commit, e = .file commit path (.ok content) := by
  unfold file?
  split
  · simp [eq_comm]
  · next other =>
    simp only [reduceCtorEq, false_iff, not_exists]
    rintro commit rfl
    exact other _ _ _ rfl

/-- What was found out by an exchange need not be asked again. -/
inductive Settles : Exchange → Request → Prop
  | head {commit : String} : Settles (.head (.ok commit)) .head
  | file {commit path content commit' : String} :
    Settles (.file commit path (.ok content)) (.file commit' path)

end Exchange

def Provider.exchange (p : Provider) (repo : Repository) : Request → Exchange
  | .head => .head (p.head repo)
  | .list commit path => .list commit path (p.list commit path)
  | .file commit path => .file commit path (p.file commit path)

namespace SnapshotCache

inductive Call where
  | commit
  | tree (root : String)
  | file (path : String)
  | snapshot
  deriving DecidableEq, Repr

inductive Return where
  | commit (outcome : Outcome String)
  | tree (root : String) (outcome : Outcome (List String))
  | file (path : String) (outcome : Outcome String)
  | snapshot (outcome : Outcome Snapshot)
  deriving DecidableEq

def perform (p : Provider) (c : SnapshotCache) : Call → Return × SnapshotCache
  | .commit => (c.run (resolveCommit p)).map .commit id
  | .tree root => (c.run (listTree p root)).map (.tree root) id
  | .file path => (c.run (getFile p path)).map (.file path) id
  | .snapshot => (c.run (getSnapshot p)).map .snapshot id

structure History where
  cache : SnapshotCache
  exchanges : List Exchange := []
  returns : List Return := []

namespace History

def initial (repo : Repository) (scope : Scope) : History := { cache := { repo, scope } }

def step (h : History) (p : Provider) (call : Call) : History :=
  let (returned, cache) := h.cache.perform p call
  let asked := cache.requests.take (cache.requests.length - h.cache.requests.length)
  ⟨cache, asked.map (p.exchange h.cache.repo) ++ h.exchanges, returned :: h.returns⟩

def after (h : History) (calls : List (Provider × Call)) : History :=
  calls.foldl (fun h (p, call) => h.step p call) h

def fetched (h : History) : List (String × String) := h.exchanges.filterMap Exchange.file?

end History

/-- A cache holds the commit and the files that it was answered and no others, all at that commit,
and it asked for none of them again. -/
structure Accounts (c : SnapshotCache) (exchanges : List Exchange) : Prop where
  requests : c.requests = exchanges.map Exchange.request
  commit : ∀ commit, c.At commit ↔ .head (.ok commit) ∈ exchanges
  files : ∀ path content,
    c.HasFile path content ↔ (path, content) ∈ exchanges.filterMap Exchange.file?
  pinned : ∀ e ∈ exchanges, ∀ commit, e.request.commit? = some commit → c.At commit
  once : exchanges.Pairwise fun later earlier => ¬earlier.Settles later.request

variable {p : Provider} {c c' : SnapshotCache} {exchanges : List Exchange}

theorem Accounts.head (accounts : Accounts c exchanges) (missing : ∀ commit, ¬c.At commit)
    (answer : Outcome String) :
    Accounts { c with requests := .head :: c.requests, commit := .ofOutcome answer }
      (.head answer :: exchanges) where
  requests := by simp [Exchange.request, accounts.requests]
  commit commit := by
    have unanswered : .head (.ok commit) ∉ exchanges :=
      mt (accounts.commit commit).mpr (missing commit)
    unfold At
    rw [Kept.ofOutcome_eq_value_iff, List.mem_cons, or_iff_left unanswered, Exchange.head.injEq,
      eq_comm]
  files := accounts.files
  pinned e member commit about := by
    rcases List.mem_cons.mp member with rfl | earlier
    · cases about
    · exact absurd (accounts.pinned e earlier commit about) (missing commit)
  once := by
    refine .cons ?_ accounts.once
    intro e member settles
    cases settles
    exact missing _ ((accounts.commit _).mpr member)

theorem Accounts.list (accounts : Accounts c exchanges) {commit : String} (held : c.At commit)
    (path : String) (answer : Outcome (List Entry)) :
    Accounts { c with requests := .list commit path :: c.requests }
      (.list commit path answer :: exchanges) where
  requests := by simp [Exchange.request, accounts.requests]
  commit commit' := by
    rw [List.mem_cons, or_iff_right (by simp)]
    exact accounts.commit commit'
  files := accounts.files
  pinned e member commit' about := by
    rcases List.mem_cons.mp member with rfl | earlier
    · obtain rfl := Option.some.inj about
      exact held
    · exact accounts.pinned e earlier commit' about
  once := by
    refine .cons ?_ accounts.once
    intro e _ settles
    cases settles

theorem Accounts.file (accounts : Accounts c exchanges) {commit path : String}
    (held : c.At commit) (missing : ∀ content, ¬c.HasFile path content)
    (answer : Outcome String) :
    Accounts { c with
        requests := .file commit path :: c.requests
        files := c.files.insert path (.ofOutcome answer) }
      (.file commit path answer :: exchanges) where
  requests := by simp [Exchange.request, accounts.requests]
  commit commit' := by
    rw [List.mem_cons, or_iff_right (by simp)]
    exact accounts.commit commit'
  files path' content := by
    have answered : (Exchange.file commit path answer).file? = some (path', content) ↔
        path = path' ∧ answer = .ok content := by
      cases answer with
      | error e => simp [Exchange.file?]
      | ok content' => simp [Exchange.file?]
    rw [List.mem_filterMap, List.exists_mem_cons_iff, answered, ← List.mem_filterMap,
      ← accounts.files path' content]
    unfold HasFile
    rw [SortedMap.get?_insert]
    by_cases same : path' = path
    · subst same
      have unheld : c.files.get? path' ≠ some (.value content) := missing content
      rw [if_pos rfl, Option.some.injEq, Kept.ofOutcome_eq_value_iff]
      simp [unheld]
    · rw [if_neg same]
      simp [Ne.symm same]
  pinned e member commit' about := by
    rcases List.mem_cons.mp member with rfl | earlier
    · obtain rfl := Option.some.inj about
      exact held
    · exact accounts.pinned e earlier commit' about
  once := by
    refine .cons ?_ accounts.once
    intro e member settles
    cases settles
    exact missing _ ((accounts.files _ _).mpr (List.mem_filterMap.mpr ⟨_, member, rfl⟩))

theorem Accounts.move (accounts : Accounts c exchanges) (move : Move p c c') :
    ∃ request, c'.requests = request :: c.requests ∧
      Accounts c' (p.exchange c.repo request :: exchanges) := by
  cases move with
  | head missing => exact ⟨_, rfl, accounts.head missing (p.head c.repo)⟩
  | @list commit held path => exact ⟨_, rfl, accounts.list held path (p.list commit path)⟩
  | @file commit path held missing =>
    exact ⟨_, rfl, accounts.file held missing (p.file commit path)⟩

theorem Accounts.moves (accounts : Accounts c exchanges) (moves : Moves p c c') :
    ∃ asked, c'.requests = asked ++ c.requests ∧
      Accounts c' (asked.map (p.exchange c.repo) ++ exchanges) := by
  induction moves with
  | refl => exact ⟨[], rfl, accounts⟩
  | tail moves move ih =>
    obtain ⟨asked, eq, before⟩ := ih
    obtain ⟨request, eq', later⟩ := before.move move
    rw [(Moves.kept moves).1] at later
    exact ⟨request :: asked, by rw [eq', eq, List.cons_append], later⟩

/-- What a call can do. What is held it returns; else it makes moves, and the call for a snapshot
settles that, too. -/
inductive Performs (p : Provider) (c : SnapshotCache) : Return → SnapshotCache → Prop
  | commit {outcome : Outcome String} {c' : SnapshotCache} (moves : Moves p c c')
    (held : ∀ commit, outcome = .ok commit → c'.At commit)
    (kept : ∀ commit, c.At commit → outcome = .ok commit) : Performs p c (.commit outcome) c'
  | tree {root : String} {outcome : Outcome (List String)} {c' : SnapshotCache}
    (moves : Moves p c c') : Performs p c (.tree root outcome) c'
  | file {path : String} {outcome : Outcome String} {c' : SnapshotCache} (moves : Moves p c c')
    (held : ∀ content, outcome = .ok content → c'.HasFile path content)
    (kept : ∀ commit content, c.At commit → c.HasFile path content → outcome = .ok content) :
    Performs p c (.file path outcome) c'
  | found {s : Snapshot} (held : c.snapshot = .value s) : Performs p c (.snapshot (.ok s)) c
  | built {outcome : Outcome Snapshot} {c' : SnapshotCache} (missing : ∀ s, c.snapshot ≠ .value s)
    (moves : Moves p c c') (holds : ∀ s, outcome = .ok s → c'.Holds s) :
    Performs p c (.snapshot outcome) { c' with snapshot := .ofOutcome outcome }

theorem performs (p : Provider) (c : SnapshotCache) (call : Call) :
    Performs p c (c.perform p call).1 (c.perform p call).2 := by
  cases call with
  | commit =>
    obtain ⟨moves, held⟩ := leads_resolveCommit (p := p) c trivial
    refine .commit moves held ?_
    intro commit pinned
    exact congrArg Prod.fst (run_resolveCommit_of_held pinned)
  | tree root => exact .tree (leads_listTree (p := p) root c trivial).1
  | file path =>
    obtain ⟨moves, held⟩ := leads_getFile (p := p) path c trivial
    refine .file moves held ?_
    intro commit content pinned stored
    exact congrArg Prod.fst (run_getFile_of_held pinned stored)
  | snapshot =>
    by_cases held : ∃ s, c.snapshot = .value s
    · obtain ⟨s, held⟩ := held
      unfold perform
      rw [run_getSnapshot_of_held held]
      exact .found held
    · obtain ⟨moves, holds⟩ := leads_buildSnapshot (p := p) c trivial
      unfold perform
      rw [run_getSnapshot_of_missing (not_exists.mp held)]
      exact .built (not_exists.mp held) moves holds

def Return.HeldBy (c : SnapshotCache) : Return → Prop
  | .commit (.ok found) => c.At found
  | .file path (.ok content) => c.HasFile path content
  | .snapshot (.ok s) => c.snapshot = .value s
  | _ => True

structure Grows (c c' : SnapshotCache) : Prop where
  commit : ∀ commit, c.At commit → c'.At commit
  files : ∀ path content, c.HasFile path content → c'.HasFile path content
  snapshot : ∀ s, c.snapshot = .value s → c'.snapshot = .value s

theorem Return.HeldBy.grows {returned : Return} (held : returned.HeldBy c) (grows : c.Grows c') :
    returned.HeldBy c' := by
  unfold HeldBy at held ⊢
  split at held
  · next found => exact grows.commit found held
  · next path content => exact grows.files path content held
  · next s => exact grows.snapshot s held
  · exact trivial

theorem Moves.grows (moves : Moves p c c') : c.Grows c' where
  commit _ held := moves.commit_held held
  files _ _ held := moves.file_held held
  snapshot _ held := moves.kept.2.2.trans held

theorem Performs.grows {returned : Return} (performs : Performs p c returned c') : c.Grows c' := by
  cases performs with
  | commit moves => exact moves.grows
  | tree moves => exact moves.grows
  | file moves => exact moves.grows
  | found => exact Moves.grows (p := p) .refl
  | built missing moves =>
    exact ⟨moves.grows.commit, moves.grows.files, fun s held => absurd held (missing s)⟩

theorem Performs.heldBy {returned : Return} (performs : Performs p c returned c') :
    returned.HeldBy c' := by
  cases performs with
  | @commit outcome _ _ held =>
    cases outcome with
    | error e => exact trivial
    | ok commit => exact held commit rfl
  | tree => exact trivial
  | @file path outcome _ _ held =>
    cases outcome with
    | error e => exact trivial
    | ok content => exact held content rfl
  | found held => exact held
  | @built outcome =>
    cases outcome with
    | error e => exact trivial
    | ok s => rfl

theorem Performs.accounts {returned : Return} (performs : Performs p c returned c')
    (accounts : Accounts c exchanges) : ∃ asked, c'.requests = asked ++ c.requests ∧
      Accounts c' (asked.map (p.exchange c.repo) ++ exchanges) := by
  cases performs with
  | commit moves => exact accounts.moves moves
  | tree moves => exact accounts.moves moves
  | file moves => exact accounts.moves moves
  | found => exact ⟨[], rfl, accounts⟩
  | built _ moves =>
    obtain ⟨asked, eq, later⟩ := accounts.moves moves
    exact ⟨asked, eq, later.requests, later.commit, later.files, later.pinned, later.once⟩

theorem Performs.holds {returned : Return} (performs : Performs p c returned c')
    (holds : ∀ s, c.snapshot = .value s → c.Holds s) {s : Snapshot}
    (held : c'.snapshot = .value s) : c'.Holds s := by
  have kept (moves : Moves p c c') : c'.Holds s :=
    (holds s (moves.kept.2.2.symm.trans held)).moves moves
  cases performs with
  | commit moves => exact kept moves
  | tree moves => exact kept moves
  | file moves => exact kept moves
  | found => exact holds s held
  | built _ _ complete =>
    obtain ⟨commit, files⟩ := complete s (Kept.ofOutcome_eq_value_iff.mp held)
    exact ⟨commit, files⟩

def Return.Repeats : (earlier later : Return) → Prop
  | .commit (.ok found), .commit outcome => outcome = .ok found
  | .file path (.ok content), .file path' outcome => path' = path → outcome = .ok content
  | .snapshot (.ok s), .snapshot outcome => outcome = .ok s
  | _, _ => True

theorem Accounts.exists_at (accounts : Accounts c exchanges) {path content : String}
    (held : c.HasFile path content) : ∃ commit, c.At commit := by
  obtain ⟨e, member, answered⟩ := List.mem_filterMap.mp ((accounts.files path content).mp held)
  obtain ⟨commit, rfl⟩ := Exchange.file?_eq_some_iff.mp answered
  exact ⟨commit, accounts.pinned _ member commit rfl⟩

theorem Performs.repeats {earlier later : Return} (performs : Performs p c later c')
    (accounts : Accounts c exchanges) (held : earlier.HeldBy c) : earlier.Repeats later := by
  unfold Return.Repeats
  split
  · next found outcome =>
    cases performs with
    | commit _ _ kept => exact kept found held
  · next path content path' outcome =>
    rintro rfl
    obtain ⟨commit, pinned⟩ := accounts.exists_at held
    cases performs with
    | file _ _ kept => exact kept commit content pinned held
  · next s outcome =>
    cases performs with
    | found held' => rw [Kept.value.inj (held'.symm.trans held)]
    | built missing => exact absurd held (missing s)
  · exact trivial

namespace History

structure Sound (h : History) : Prop where
  accounts : Accounts h.cache h.exchanges
  held : ∀ returned ∈ h.returns, returned.HeldBy h.cache
  holds : ∀ s, h.cache.snapshot = .value s → h.cache.Holds s
  settled : h.returns.Pairwise fun later earlier => earlier.Repeats later

variable {h : History}

theorem sound_initial (repo : Repository) (scope : Scope) : Sound (initial repo scope) where
  accounts :=
    { requests := rfl
      commit commit := by simp [initial, At]
      files path content := by simp [initial, HasFile, SortedMap.get?_empty]
      pinned e member := by cases member
      once := .nil }
  held returned member := by cases member
  holds s held := by cases held
  settled := .nil

theorem step_eq {c' : SnapshotCache} {returned : Return} {call : Call} {asked : List Request}
    (performed : h.cache.perform p call = (returned, c'))
    (requests : c'.requests = asked ++ h.cache.requests) :
    h.step p call =
      ⟨c', asked.map (p.exchange h.cache.repo) ++ h.exchanges, returned :: h.returns⟩ := by
  have fresh : c'.requests.take (c'.requests.length - h.cache.requests.length) = asked := by
    rw [requests, List.length_append, Nat.add_sub_cancel, List.take_left]
  unfold step
  simp only [performed, fresh]

theorem Sound.step (sound : Sound h) (p : Provider) (call : Call) : Sound (h.step p call) := by
  have result := performs p h.cache call
  rcases performed : h.cache.perform p call with ⟨returned, c'⟩
  rw [performed] at result
  obtain ⟨asked, eq, accounts⟩ := result.accounts sound.accounts
  rw [step_eq performed eq]
  refine ⟨accounts, ?_, fun s => result.holds sound.holds, ?_⟩
  · intro returned' member
    rcases List.mem_cons.mp member with rfl | earlier
    · exact result.heldBy
    · exact (sound.held returned' earlier).grows result.grows
  · refine .cons ?_ sound.settled
    intro earlier member
    exact result.repeats sound.accounts (sound.held earlier member)

theorem Sound.after (sound : Sound h) (calls : List (Provider × Call)) : Sound (h.after calls) := by
  unfold History.after
  induction calls generalizing h with
  | nil => exact sound
  | cons call rest ih => exact ih (sound.step call.1 call.2)

/-- Everything in a history is at one commit, and each file in it was answered once. -/
structure Pinned (commit : String) (h : History) : Prop where
  commits : ∀ found, .commit (.ok found) ∈ h.returns → found = commit
  asked : ∀ e ∈ h.exchanges, ∀ about, e.request.commit? = some about → about = commit
  answered : (h.fetched.map Prod.fst).Nodup
  files : ∀ path content, .file path (.ok content) ∈ h.returns → (path, content) ∈ h.fetched
  snapshots : ∀ s, .snapshot (.ok s) ∈ h.returns →
    s.commit = commit ∧ ∀ path content, (path, content) ∈ s.files → (path, content) ∈ h.fetched
  /-- The snapshot that was returned once is returned by every later call, and so are the commit
  and each file. -/
  settled : h.returns.Pairwise fun later earlier => earlier.Repeats later

theorem Sound.answered (sound : Sound h) : (h.fetched.map Prod.fst).Nodup := by
  unfold fetched List.Nodup
  rw [List.pairwise_map, List.pairwise_filterMap]
  apply sound.accounts.once.imp
  intro later earlier fresh file answered file' answered' same
  obtain ⟨commit, rfl⟩ := Exchange.file?_eq_some_iff.mp answered
  obtain ⟨commit', rfl⟩ := Exchange.file?_eq_some_iff.mp answered'
  rw [same] at fresh
  exact fresh .file

theorem Sound.pinned (sound : Sound h) {commit : String}
    (only : ∀ other, h.cache.At other → other = commit) : Pinned commit h where
  commits found member := only found (sound.held _ member)
  asked e member about eq := only about (sound.accounts.pinned e member about eq)
  answered := sound.answered
  files path content member := (sound.accounts.files path content).mp (sound.held _ member)
  snapshots s member := by
    have holds := sound.holds s (sound.held _ member)
    refine ⟨only s.commit holds.commit, ?_⟩
    intro path content inside
    exact (sound.accounts.files path content).mp (holds.files path content inside)
  settled := sound.settled

/-- Whatever a provider answers, and however that changes from call to call, a cache stays at one
commit and with one answer for each file. -/
theorem after_pinned (repo : Repository) (scope : Scope) (calls : List (Provider × Call)) :
    ∃ commit, Pinned commit ((initial repo scope).after calls) := by
  have sound := (sound_initial repo scope).after calls
  by_cases held : ∃ commit, ((initial repo scope).after calls).cache.At commit
  · obtain ⟨commit, held⟩ := held
    refine ⟨commit, sound.pinned ?_⟩
    intro other held'
    exact Kept.value.inj (held'.symm.trans held)
  · -- Without a commit nothing was returned or asked about any, so it does not matter which.
    refine ⟨"", sound.pinned ?_⟩
    intro other held'
    exact absurd ⟨other, held'⟩ held

/-- A branch that moves on while it is read, over files that change. -/
def movingBranch : List (Provider × Call) :=
  let early : MemoryProvider := { commit := "c1", files := .ofList [("s/a", "1")] }
  let late : MemoryProvider :=
    { commit := "c2", files := .ofList [("s/a", "2"), ("s/b", "2")] }
  let grown : MemoryProvider :=
    { commit := "c1", files := .ofList [("s/a", "3"), ("s/b", "3")] }
  [((early.breakTarget "head" "offline").provider, .commit),
    ((early.breakTarget "file:s/a" "offline").provider, .snapshot),
    (early.provider, .file "s/a"), (late.provider, .commit), (late.provider, .file "s/b"),
    (grown.provider, .snapshot), (late.provider, .snapshot)]

def movingReturns : List Return :=
  let snapshot := .ofFiles "o" "r" "c1" [("s/a", "1"), ("s/b", "3")]
  [.snapshot (.ok snapshot), .snapshot (.ok snapshot),
    .file "s/b" (.error ⟨"commit c1", "unknown commit"⟩), .commit (.ok "c1"),
    .file "s/a" (.ok "1"), .snapshot (.error ⟨"file:s/a", "offline"⟩),
    .commit (.error ⟨"head", "offline"⟩)]

def movingHistory : History :=
  (initial { owner := "o", name := "r" } { roots := ["s"] }).after movingBranch

theorem after_pinned_movingBranch :
    movingHistory.returns = movingReturns ∧ Pinned "c1" movingHistory := by
  have returns : movingHistory.returns = movingReturns := by decide +kernel
  obtain ⟨commit, pinned⟩ :=
    after_pinned { owner := "o", name := "r" } { roots := ["s"] } movingBranch
  have member : .commit (.ok "c1") ∈ movingHistory.returns := by
    rw [returns]
    decide
  obtain rfl := pinned.commits "c1" member
  exact ⟨returns, pinned⟩

end History
end SnapshotCache
end SchemaTrace
