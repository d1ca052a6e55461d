import SchemaTrace.Proofs.Schema.Members
import SchemaTrace.Proofs.SortedMap.Lookup

/-! How the index of a schema is filled. Entering keys one after the other gives an index of all
of them, and fails only if two are the same. -/

namespace SchemaTrace

namespace Model

variable {α : Type}

/-- The index holds the entries, each under a key of its own, and nothing else. -/
structure Indexes (index : SortedMap α) (entries : List (String × α)) : Prop where
  distinct : (entries.map (·.1)).Nodup
  get?_eq_some_iff : ∀ key value, index.get? key = some value ↔ (key, value) ∈ entries

def Enters (entries : List (String × α)) : Except Error (SortedMap α) → Prop
  | .ok index => Indexes index entries
  | .error _ => ¬(entries.map (·.1)).Nodup

theorem indexes_empty : Indexes (α := α) .empty [] :=
  ⟨List.nodup_nil, fun key value => by simp⟩

theorem contains_iff_mem_keys {index : SortedMap α} {entries : List (String × α)}
    (indexes : Indexes index entries) (key : String) :
    index.contains key = true ↔ key ∈ entries.map (·.1) := by
  rw [SortedMap.contains, Option.isSome_iff_exists]
  constructor
  · intro given
    rcases given with ⟨value, found⟩
    exact List.mem_map.mpr ⟨(key, value), (indexes.get?_eq_some_iff key value).mp found, rfl⟩
  · intro member
    obtain ⟨⟨_, value⟩, inside, rfl⟩ := List.mem_map.mp member
    exact ⟨value, (indexes.get?_eq_some_iff _ value).mpr inside⟩

theorem enter_enters {index : SortedMap α} {entries : List (String × α)}
    (indexes : Indexes index entries) (key : String) (value : α) (twice : Error) :
    Enters (entries ++ [(key, value)]) (enter index key value twice) := by
  have present := contains_iff_mem_keys indexes key
  unfold enter
  split
  · next held =>
    simp only [Enters, List.map_append, List.map_cons, List.map_nil]
    intro distinct
    have apart := (List.nodup_append.mp distinct).2.2
    exact apart key (present.mp held) key List.mem_cons_self rfl
  · next free =>
    have absent : key ∉ entries.map (·.1) := fun member => free (present.mpr member)
    constructor
    · rw [List.map_append, List.nodup_append]
      refine ⟨indexes.distinct, by simp, ?_⟩
      intro k member other single eq
      have eq' : other = key := by simpa using single
      exact absent (eq' ▸ eq ▸ member)
    · intro k v
      rw [SortedMap.get?_insert]
      by_cases same : k = key
      · subst same
        have none : (k, v) ∉ entries := fun member =>
          absent (List.mem_map.mpr ⟨(k, v), member, rfl⟩)
        simp [none, eq_comm]
      · simp [same, indexes.get?_eq_some_iff]

def placesOf (domain : Domain) (d m : Nat) (names : List String) : List (String × Place) :=
  (names.zipIdx m).map fun entry => (domain.key entry.1, ⟨d, entry.2⟩)

def places (kind : MemberKind) (d : Nat) (domains : List Domain) : List (String × Place) :=
  (domains.zipIdx d).flatMap fun entry =>
    placesOf entry.1 entry.2 0 (entry.1.memberNames kind)

def namePositions (d : Nat) (domains : List Domain) : List (String × Nat) :=
  (domains.zipIdx d).map fun entry => (entry.1.name, entry.2)

theorem nodup_keys_of_append {entries added : List (String × α)}
    (distinct : ((entries ++ added).map (·.1)).Nodup) : (entries.map (·.1)).Nodup := by
  rw [List.map_append] at distinct
  exact (List.nodup_append.mp distinct).1

theorem enterMembers_enters (domain : Domain) (d : Nat) (kind : MemberKind) (m : Nat)
    (names : List String) {index : SortedMap Place} {entries : List (String × Place)}
    (indexes : Indexes index entries) :
    Enters (entries ++ placesOf domain d m names) (enterMembers domain d kind m index names) := by
  induction names generalizing m index entries with
  | nil => simpa [placesOf, enterMembers, Enters] using indexes
  | cons name rest ih =>
    have first := enter_enters indexes (domain.key name) ⟨d, m⟩
      (.schema (.duplicateMember kind (domain.key name)))
    have regroup : entries ++ placesOf domain d m (name :: rest) =
        entries ++ [(domain.key name, ⟨d, m⟩)] ++ placesOf domain d (m + 1) rest := by
      simp [placesOf]
    rw [regroup]
    simp only [enterMembers]
    cases entered : enter index (domain.key name) ⟨d, m⟩
        (.schema (.duplicateMember kind (domain.key name))) with
    | error e =>
      rw [entered] at first
      exact fun distinct => first (nodup_keys_of_append distinct)
    | ok next =>
      rw [entered] at first
      exact ih (m + 1) first

/-- What entering domains gives: indices of their names and members, or an error because two
names or two keys are the same. -/
def EntersAll (names : List (String × Nat)) (entries : MemberKind → List (String × Place)) :
    Except Error (SortedMap Nat × ByKind (SortedMap Place)) → Prop
  | .ok (domains, members) =>
    Indexes domains names ∧ ∀ kind, Indexes (members.get kind) (entries kind)
  | .error _ => ¬((names.map (·.1)).Nodup ∧ ∀ kind, ((entries kind).map (·.1)).Nodup)

theorem enterDomain_entersAll (domain : Domain) (d : Nat) {domains : SortedMap Nat}
    {members : ByKind (SortedMap Place)} {names : List (String × Nat)}
    {entries : MemberKind → List (String × Place)} (indexesNames : Indexes domains names)
    (indexes : ∀ kind, Indexes (members.get kind) (entries kind)) :
    EntersAll (names ++ [(domain.name, d)])
      (fun kind => entries kind ++ placesOf domain d 0 (domain.memberNames kind))
      (enterDomain domain d domains members) := by
  have name := enter_enters indexesNames domain.name d (.schema (.duplicateDomain domain.name))
  have member (kind : MemberKind) :=
    enterMembers_enters domain d kind 0 (domain.memberNames kind) (indexes kind)
  have commands := member .command
  have events := member .event
  have types := member .type
  simp only [ByKind.get] at commands events types
  unfold enterDomain
  -- The first table that refuses a key ends the whole; the later ones are not entered then.
  cases entered : enter domains domain.name d (.schema (.duplicateDomain domain.name)) with
  | error e =>
    rw [entered] at name
    exact fun distinct => name distinct.1
  | ok domains' =>
    rw [entered] at name
    cases enteredCommands : enterMembers domain d .command 0 members.commands
        (domain.memberNames .command) with
    | error e =>
      rw [enteredCommands] at commands
      exact fun distinct => commands (distinct.2 .command)
    | ok commands' =>
      rw [enteredCommands] at commands
      cases enteredEvents : enterMembers domain d .event 0 members.events
          (domain.memberNames .event) with
      | error e =>
        rw [enteredEvents] at events
        exact fun distinct => events (distinct.2 .event)
      | ok events' =>
        rw [enteredEvents] at events
        cases enteredTypes : enterMembers domain d .type 0 members.types
            (domain.memberNames .type) with
        | error e =>
          rw [enteredTypes] at types
          exact fun distinct => types (distinct.2 .type)
        | ok types' =>
          rw [enteredTypes] at types
          refine ⟨name, ?_⟩
          intro kind
          cases kind with
          | command => exact commands
          | event => exact events
          | type => exact types

theorem enterDomains_entersAll (rest : List Domain) (d : Nat) {domains : SortedMap Nat}
    {members : ByKind (SortedMap Place)} {names : List (String × Nat)}
    {entries : MemberKind → List (String × Place)} (indexesNames : Indexes domains names)
    (indexes : ∀ kind, Indexes (members.get kind) (entries kind)) :
    EntersAll (names ++ namePositions d rest) (fun kind => entries kind ++ places kind d rest)
      (enterDomains d domains members rest) := by
  induction rest generalizing d domains members names entries with
  | nil => simpa [namePositions, places, enterDomains, EntersAll] using ⟨indexesNames, indexes⟩
  | cons domain rest ih =>
    have first := enterDomain_entersAll domain d indexesNames indexes
    have regroupNames : names ++ namePositions d (domain :: rest) =
        names ++ [(domain.name, d)] ++ namePositions (d + 1) rest := by
      simp [namePositions]
    have regroup (kind : MemberKind) : entries kind ++ places kind d (domain :: rest) =
        entries kind ++ placesOf domain d 0 (domain.memberNames kind) ++
          places kind (d + 1) rest := by
      simp [places]
    simp only [regroupNames, regroup, enterDomains]
    cases entered : enterDomain domain d domains members with
    | error e =>
      rw [entered] at first
      intro given
      rcases given with ⟨distinctNames, distinct⟩
      exact first ⟨nodup_keys_of_append distinctNames,
        fun kind => nodup_keys_of_append (distinct kind)⟩
    | ok next =>
      obtain ⟨domains', members'⟩ := next
      rw [entered] at first
      exact ih (d + 1) first.1 first.2

theorem keys_places (kind : MemberKind) (d : Nat) (domains : List Domain) :
    (places kind d domains).map (·.1) =
      domains.flatMap fun domain => (domain.memberNames kind).map domain.key := by
  induction domains generalizing d with
  | nil => rfl
  | cons domain rest ih =>
    have keysOf : (placesOf domain d 0 (domain.memberNames kind)).map (·.1) =
        (domain.memberNames kind).map domain.key := by
      rw [placesOf, List.map_map, ← List.zipIdx_map_fst 0 (domain.memberNames kind), List.map_map]
      simp [Function.comp_def]
    have rest' := ih (d + 1)
    simp only [places] at rest'
    simp [places, keysOf, rest']

theorem mem_places_iff {kind : MemberKind} {domains : List Domain} {key : String} {i j : Nat} :
    (key, ⟨i, j⟩) ∈ places kind 0 domains ↔ ∃ domain name, domains[i]? = some domain ∧
      (domain.memberNames kind)[j]? = some name ∧ domain.key name = key := by
  simp only [places, placesOf, List.mem_flatMap, List.mem_map, Prod.exists,
    List.mk_mem_zipIdx_iff_getElem?, Prod.mk.injEq, Place.mk.injEq]
  constructor
  · intro given
    rcases given with ⟨domain, _, atDomain, name, _, atName, eq, rfl, rfl⟩
    exact ⟨domain, name, atDomain, atName, eq⟩
  · intro given
    rcases given with ⟨domain, name, atDomain, atName, eq⟩
    exact ⟨domain, i, atDomain, name, j, atName, eq, rfl, rfl⟩

end Model
end SchemaTrace
