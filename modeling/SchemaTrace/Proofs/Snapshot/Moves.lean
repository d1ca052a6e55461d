import SchemaTrace.Snapshot.Cache
import SchemaTrace.Proofs.SortedMap.Lookup
import Mathlib.Data.List.Forall2
import Mathlib.Logic.Relation

/-! What a step of a snapshot cache can do. It asks for what is not held yet, at the commit that is
held, and keeps the answers; it never lets go of a commit or a file. -/

namespace SchemaTrace

theorem Kept.ofOutcome_eq_value_iff {α : Type} {outcome : Outcome α} {a : α} :
    Kept.ofOutcome outcome = .value a ↔ outcome = .ok a := by
  cases outcome with
  | error e => simp [ofOutcome]
  | ok b => simp [ofOutcome]

namespace SnapshotCache

variable {α β : Type} {p : Provider} {c c' : SnapshotCache}

theorem run_pure (c : SnapshotCache) (a : α) : c.run (pure a) = (.ok a, c) := rfl

theorem run_throw (c : SnapshotCache) (e : FetchError) :
    c.run (throw e : Fetching α) = (.error e, c) := rfl

theorem run_get_bind (c : SnapshotCache) (next : SnapshotCache → Fetching α) :
    c.run (get >>= next) = c.run (next c) := rfl

theorem run_bind (c : SnapshotCache) (step : Fetching α) (next : α → Fetching β) :
    c.run (step >>= next) =
      match c.run step with
      | (.ok a, c') => c'.run (next a)
      | (.error e, c') => (.error e, c') := by
  simp only [run, ExceptT.run_bind, StateT.run_bind]
  rcases StateT.run (ExceptT.run step) c with ⟨e | a, c'⟩
  · rfl
  · rfl

theorem run_ask (c : SnapshotCache) (request : Request) (answer : Outcome α) :
    c.run (ask request answer) = (answer, { c with requests := request :: c.requests }) := by
  cases answer with
  | error e => rfl
  | ok a => rfl

theorem run_record (c : SnapshotCache) (step : Fetching α)
    (keep : Outcome α → SnapshotCache → SnapshotCache) :
    c.run (record step keep) = ((c.run step).1, keep (c.run step).1 (c.run step).2) := rfl

def At (commit : String) (c : SnapshotCache) : Prop := c.commit = .value commit

def HasFile (path content : String) (c : SnapshotCache) : Prop :=
  c.files.get? path = some (.value content)

/-- One answer of a provider, taken in by a cache. -/
inductive Move (p : Provider) (c : SnapshotCache) : SnapshotCache → Prop
  | head (missing : ∀ commit, ¬c.At commit) :
    Move p c { c with requests := .head :: c.requests, commit := .ofOutcome (p.head c.repo) }
  | list {commit : String} (held : c.At commit) (path : String) :
    Move p c { c with requests := .list commit path :: c.requests }
  | file {commit path : String} (held : c.At commit)
      (missing : ∀ content, ¬c.HasFile path content) :
    Move p c { c with
      requests := .file commit path :: c.requests
      files := c.files.insert path (.ofOutcome (p.file commit path)) }

def Moves (p : Provider) : SnapshotCache → SnapshotCache → Prop := Relation.ReflTransGen (Move p)

theorem Moves.commit_held (moves : Moves p c c') {commit : String} (held : c.At commit) :
    c'.At commit := by
  induction moves with
  | refl => exact held
  | tail _ move ih =>
    cases move with
    | head missing => exact absurd ih (missing commit)
    | list => exact ih
    | file => exact ih

theorem Moves.file_held (moves : Moves p c c') {path content : String}
    (held : c.HasFile path content) : c'.HasFile path content := by
  induction moves with
  | refl => exact held
  | tail _ move ih =>
    cases move with
    | head => exact ih
    | list => exact ih
    | @file _ other _ missing =>
      have differs : path ≠ other := by
        intro same
        subst same
        exact missing content ih
      unfold HasFile
      rw [SortedMap.get?_insert, if_neg differs]
      exact ih

theorem Moves.kept (moves : Moves p c c') :
    c'.repo = c.repo ∧ c'.scope = c.scope ∧ c'.snapshot = c.snapshot := by
  induction moves with
  | refl => exact ⟨rfl, rfl, rfl⟩
  | tail _ move ih =>
    cases move with
    | head => exact ih
    | list => exact ih
    | file => exact ih

/-- A step makes moves only, and `after` holds of what it returns. -/
def Leads (p : Provider) (before : SnapshotCache → Prop) (step : Fetching α)
    (after : α → SnapshotCache → Prop) : Prop :=
  ∀ c, before c → Moves p c (c.run step).2 ∧ ∀ a, (c.run step).1 = .ok a → after a (c.run step).2

section Rules

variable {before : SnapshotCache → Prop} {middle : α → SnapshotCache → Prop}
  {after : β → SnapshotCache → Prop}

theorem Leads.imp {step : Fetching α} {given : SnapshotCache → Prop}
    {result : α → SnapshotCache → Prop} (leads : Leads p before step middle)
    (enough : ∀ c, given c → before c) (follows : ∀ a c, middle a c → result a c) :
    Leads p given step result := by
  intro c holds
  obtain ⟨moves, returns⟩ := leads c (enough c holds)
  exact ⟨moves, fun a eq => follows a _ (returns a eq)⟩

/-- What no move can undo still holds afterwards. -/
theorem Leads.frame {step : Fetching α} (leads : Leads p before step middle)
    {kept : SnapshotCache → Prop} (stays : ∀ {c c'}, Moves p c c' → kept c → kept c') :
    Leads p (fun c => before c ∧ kept c) step fun a c => middle a c ∧ kept c := by
  intro c holds
  obtain ⟨moves, returns⟩ := leads c holds.1
  exact ⟨moves, fun a eq => ⟨returns a eq, stays moves holds.2⟩⟩

theorem Leads.pure {a : α} (holds : ∀ c, before c → middle a c) :
    Leads p before (Pure.pure a) middle := by
  intro c given
  rw [run_pure]
  refine ⟨.refl, ?_⟩
  intro a' eq
  obtain rfl := Except.ok.inj eq
  exact holds c given

theorem Leads.get_bind {next : SnapshotCache → Fetching β}
    (each : ∀ seen, Leads p before (next seen) after) : Leads p before (get >>= next) after :=
  fun c holds => each c c holds

theorem Leads.bind {step : Fetching α} {next : α → Fetching β} (first : Leads p before step middle)
    (second : ∀ a, Leads p (middle a) (next a) after) : Leads p before (step >>= next) after := by
  intro c holds
  obtain ⟨moves, returns⟩ := first c holds
  rw [run_bind]
  rcases result : c.run step with ⟨e | a, c'⟩
  · rw [result] at moves
    exact ⟨moves, fun b eq => by cases eq⟩
  · rw [result] at moves returns
    obtain ⟨further, returned⟩ := second a c' (returns a rfl)
    exact ⟨moves.trans further, returned⟩

theorem Leads.mapM (brings : β → α → SnapshotCache → Prop)
    (stays : ∀ {b a c c'}, Moves p c c' → brings b a c → brings b a c') {step : β → Fetching α}
    (each : ∀ b, Leads p before (step b) fun a c => before c ∧ brings b a c) (items : List β) :
    Leads p before (items.mapM step) fun results c =>
      before c ∧ List.Forall₂ (fun b a => brings b a c) items results := by
  induction items with
  | nil => exact Leads.pure fun c holds => ⟨holds, .nil⟩
  | cons b rest ih =>
    rw [List.mapM_cons]
    apply Leads.bind (each b)
    intro a
    -- What the first step brought about is not undone by the others.
    apply Leads.bind (ih.frame stays)
    intro results
    exact Leads.pure fun c given => ⟨given.1.1, .cons given.2 given.1.2⟩

theorem Leads.mapM_of_keeps {step : β → Fetching α}
    (each : ∀ b, Leads p before (step b) fun _ => before) (items : List β) :
    Leads p before (items.mapM step) fun _ => before := by
  have steps (b : β) : Leads p before (step b) fun _ c => before c ∧ True :=
    (each b).imp (fun _ holds => holds) fun _ _ holds => ⟨holds, trivial⟩
  have all := Leads.mapM (fun _ _ _ => True) (fun _ _ => trivial) steps items
  exact all.imp (fun _ holds => holds) fun _ _ holds => holds.1

end Rules

theorem run_resolveCommit_of_held {commit : String} (held : c.At commit) :
    c.run (resolveCommit p) = (.ok commit, c) := by
  unfold resolveCommit
  rw [run_get_bind, show c.commit = .value commit from held]
  rfl

theorem run_resolveCommit_of_missing (missing : ∀ commit, ¬c.At commit) :
    c.run (resolveCommit p) = (p.head c.repo,
      { c with requests := .head :: c.requests, commit := .ofOutcome (p.head c.repo) }) := by
  unfold resolveCommit
  rw [run_get_bind]
  split
  · next commit held => exact absurd held (missing commit)
  · rw [run_record, run_ask]

theorem leads_resolveCommit : Leads p (fun _ => True) (resolveCommit p) At := by
  intro c _
  by_cases held : ∃ commit, c.At commit
  · obtain ⟨commit, held⟩ := held
    rw [run_resolveCommit_of_held held]
    refine ⟨.refl, ?_⟩
    intro commit' eq
    obtain rfl := Except.ok.inj eq
    exact held
  · have missing : ∀ commit, ¬c.At commit := not_exists.mp held
    rw [run_resolveCommit_of_missing missing]
    exact ⟨.single (.head missing), fun commit eq => Kept.ofOutcome_eq_value_iff.mpr eq⟩

theorem leads_ask_list (commit path : String) :
    Leads p (At commit) (ask (.list commit path) (p.list commit path)) fun _ c => c.At commit := by
  intro c held
  rw [run_ask]
  exact ⟨.single (.list held path), fun _ _ => held⟩

theorem leads_listFrom (commit : String) (levels : Nat) (path : String) :
    Leads p (At commit) (listFrom p commit levels path) fun _ => At commit := by
  induction levels generalizing path with
  | zero =>
    intro c _
    rw [listFrom, run_throw]
    exact ⟨.refl, fun paths eq => by cases eq⟩
  | succ levels ih =>
    unfold listFrom
    apply Leads.bind (leads_ask_list commit path)
    intro entries
    apply Leads.bind (Leads.mapM_of_keeps ih _)
    intro nested
    exact Leads.pure fun c held => held

theorem leads_listTree (root : String) :
    Leads p (fun _ => True) (listTree p root) fun _ _ => True := by
  apply Leads.bind leads_resolveCommit
  intro commit
  exact (leads_listFrom commit (p.depth + 1) root).imp (fun _ held => held) fun _ _ _ => trivial

theorem run_getFile_of_held {commit path content : String} (pinned : c.At commit)
    (held : c.HasFile path content) : c.run (getFile p path) = (.ok content, c) := by
  unfold getFile
  rw [run_bind, run_resolveCommit_of_held pinned]
  simp only [run_get_bind]
  rw [show c.files.get? path = some (.value content) from held]
  rfl

theorem leads_getFile (path : String) :
    Leads p (fun _ => True) (getFile p path) (HasFile path) := by
  apply Leads.bind leads_resolveCommit
  intro commit c held
  rw [run_get_bind]
  split
  · next content stored =>
    have kept : Leads p (HasFile path content) (pure content) (HasFile path) :=
      Leads.pure fun _ held => held
    exact kept c stored
  · next missing =>
    rw [run_record, run_ask]
    refine ⟨.single (.file held missing), ?_⟩
    intro content eq
    unfold HasFile
    rw [SortedMap.get?_insert, if_pos rfl, Kept.ofOutcome_eq_value_iff.mpr eq]

/-- A cache holds the commit of a snapshot and all its files. -/
structure Holds (c : SnapshotCache) (s : Snapshot) : Prop where
  commit : c.At s.commit
  files : ∀ path content, (path, content) ∈ s.files → c.HasFile path content

theorem Holds.moves {s : Snapshot} (holds : c.Holds s) (moves : Moves p c c') : c'.Holds s where
  commit := moves.commit_held holds.commit
  files path content member := moves.file_held (holds.files path content member)

theorem leads_buildSnapshot :
    Leads p (fun _ => True) (buildSnapshot p) fun s c => c.Holds s := by
  apply Leads.bind leads_resolveCommit
  intro commit
  apply Leads.get_bind
  intro seen
  apply Leads.bind (Leads.mapM_of_keeps (leads_listFrom commit (p.depth + 1)) _)
  intro listed
  have reading (path : String) : Leads p (At commit) (getFile p path)
      fun content c => c.At commit ∧ c.HasFile path content :=
    ((leads_getFile path).frame fun moves => moves.commit_held).imp
      (fun _ held => ⟨trivial, held⟩) fun _ _ given => given.symm
  apply Leads.bind (Leads.mapM HasFile (fun moves => moves.file_held) reading _)
  intro contents
  apply Leads.pure
  intro c given
  exact ⟨given.1, fun path content member => List.forall₂_zip given.2 member⟩

theorem run_getSnapshot_of_held {s : Snapshot} (held : c.snapshot = .value s) :
    c.run (getSnapshot p) = (.ok s, c) := by
  unfold getSnapshot
  rw [run_get_bind, held]
  rfl

theorem run_getSnapshot_of_missing (missing : ∀ s, c.snapshot ≠ .value s) :
    c.run (getSnapshot p) = ((c.run (buildSnapshot p)).1,
      { (c.run (buildSnapshot p)).2 with snapshot := .ofOutcome (c.run (buildSnapshot p)).1 }) := by
  unfold getSnapshot
  rw [run_get_bind]
  split
  · next s held => exact absurd held (missing s)
  · rw [run_record]

end SnapshotCache
end SchemaTrace
