import SchemaTrace.Proofs.Model.Lookup
import SchemaTrace.Proofs.Schema.QualifiedName

/-! Look-ups in a model invert the listing of its schema. Each place of a domain or a member stands
in the index under the key that is declared there, and nothing else does. So a lookup under a key
finds what stands at the only place with that key, however the key divides into a domain and a
member, and finds nothing only if there is no such place. -/

namespace SchemaTrace

structure Listing (β : Type) where
  kind : MemberKind
  list : Domain → List β
  nameOf : β → String
  memberNames_eq : ∀ d : Domain, d.memberNames kind = (list d).map nameOf := by
    intro d
    rfl

namespace Listing

def commands : Listing Command where
  kind := .command
  list := Domain.commandList
  nameOf := Command.name

def events : Listing Event where
  kind := .event
  list := Domain.eventList
  nameOf := Event.name

def types : Listing TypeDef where
  kind := .type
  list := Domain.typeList
  nameOf := TypeDef.id

def Declares {β : Type} (listing : Listing β) (schema : Schema) (place : Place) (key : String)
    (b : β) : Prop :=
  ∃ d, schema.domains[place.domain]? = some d ∧ (listing.list d)[place.member]? = some b ∧
    d.key (listing.nameOf b) = key

end Listing

def Schema.DeclaresDomain (schema : Schema) (position : Nat) (name : String) (d : Domain) : Prop :=
  schema.domains[position]? = some d ∧ d.name = name

namespace Model

/-- An index and the two look-ups through it invert what is declared at which place. -/
structure Inverts {π β Name : Type} (declares : π → String → β → Prop) (index : SortedMap π)
    (keyOf : Name → String) (kind : LookupKind) (find : Name → Option β)
    (enforced : Name → Except Error β) : Prop where
  /-- The index holds no place out of range and misses none. -/
  indexed : ∀ key place, index.get? key = some place ↔ ∃ b, declares place key b
  unique : ∀ place place' key b b', declares place key b → declares place' key b' →
    place = place' ∧ b = b'
  found : ∀ name b, find name = some b ↔ ∃ place, declares place (keyOf name) b
  absent : ∀ name, find name = none ↔ ∀ place b, ¬declares place (keyOf name) b
  enforced_ok : ∀ name b, enforced name = .ok b ↔ ∃ place, declares place (keyOf name) b
  enforced_error : ∀ name e, enforced name = .error e ↔
    e = .notFound kind (keyOf name) ∧ ∀ place b, ¬declares place (keyOf name) b

structure InvertsMembers {β : Type} (listing : Listing β) (schema : Schema)
    (index : SortedMap Place) (find : QualifiedName → Option β)
    (enforced : QualifiedName → Except Error β) : Prop where
  inverts : Inverts (listing.Declares schema) index QualifiedName.toString (.member listing.kind)
    find enforced
  ownName : ∀ place key b, listing.Declares schema place key b →
    ∃ name, QualifiedName.parse? key = some name ∧ find name = some b

structure InvertsListing (schema : Schema) (model : Model) : Prop where
  domains : Inverts schema.DeclaresDomain model.domains id .domain model.domain? model.domain
  commands : InvertsMembers .commands schema model.members.commands model.command? model.command
  events : InvertsMembers .events schema model.members.events model.event? model.event
  types : InvertsMembers .types schema model.members.types model.type? model.type

variable {schema : Schema} {model : Model} {π β Name : Type}

/-! ### One kind of look-up -/

/-- A lookup that goes through an index of all places to what stands there inverts the listing. -/
theorem inverts_of_indexed {declares : π → String → β → Prop} {index : SortedMap π}
    {keyOf : Name → String} {kind : LookupKind} {find : Name → Option β}
    {enforced : Name → Except Error β} (valueAt? : π → Option β)
    (stands : ∀ place key b, declares place key b → valueAt? place = some b)
    (indexed : ∀ key place, index.get? key = some place ↔ ∃ b, declares place key b)
    (through : ∀ name, find name = (index.get? (keyOf name)).bind valueAt?)
    (enforces : ∀ name, enforced name = enforce kind (keyOf name) (find name)) :
    Inverts declares index keyOf kind find enforced := by
  have found (name : Name) (b : β) :
      find name = some b ↔ ∃ place, declares place (keyOf name) b := by
    rw [through, Option.bind_eq_some_iff]
    refine exists_congr fun place => ?_
    rw [indexed]
    constructor
    · intro given
      rcases given with ⟨⟨other, declared⟩, atPlace⟩
      obtain rfl := Option.some.inj ((stands _ _ _ declared).symm.trans atPlace)
      exact declared
    · intro declared
      exact ⟨⟨b, declared⟩, stands _ _ _ declared⟩
  have absent (name : Name) :
      find name = none ↔ ∀ place b, ¬declares place (keyOf name) b := by
    simp only [Option.eq_none_iff_forall_ne_some, ne_eq, found, not_exists]
    exact forall_comm
  refine ⟨indexed, ?_, found, absent, fun name b => ?_, fun name e => ?_⟩
  · intro place place' key b b' first second
    have same : place = place' := Option.some.inj
      (((indexed key place).mpr ⟨b, first⟩).symm.trans ((indexed key place').mpr ⟨b', second⟩))
    subst same
    exact ⟨rfl, Option.some.inj ((stands _ _ _ first).symm.trans (stands _ _ _ second))⟩
  · rw [enforces, enforce_eq_ok_iff, found]
  · rw [enforces, enforce_eq_error_iff, absent]

/-! ### Domains and members -/

theorem inverts_domains (accepted : ofSchema schema = .ok model) :
    Inverts schema.DeclaresDomain model.domains id .domain model.domain? model.domain := by
  obtain ⟨same, positions, -⟩ := indexes_of_ofSchema accepted
  refine inverts_of_indexed (fun position => model.schema.domains[position]?) ?_ ?_
    (fun name => rfl) fun name => rfl
  · intro position name d declared
    rw [same]
    exact declared.1
  · intro name position
    rw [positions.get?_eq_some_iff, mem_namePositions_iff, Option.map_eq_some_iff]
    rfl

theorem indexed_of_ofSchema (accepted : ofSchema schema = .ok model) (listing : Listing β)
    (key : String) (place : Place) :
    (model.members.get listing.kind).get? key = some place ↔
      ∃ b, listing.Declares schema place key b := by
  obtain ⟨-, -, members⟩ := indexes_of_ofSchema accepted
  rw [(members listing.kind).get?_eq_some_iff, mem_places_iff]
  simp only [listing.memberNames_eq, List.getElem?_map, Option.map_eq_some_iff]
  constructor
  · intro given
    rcases given with ⟨d, _, atDomain, ⟨b, atMember, rfl⟩, eq⟩
    exact ⟨b, d, atDomain, atMember, eq⟩
  · intro given
    rcases given with ⟨b, d, atDomain, atMember, eq⟩
    exact ⟨d, listing.nameOf b, atDomain, ⟨b, atMember, rfl⟩, eq⟩

def memberAt? (model : Model) (listing : Listing β) (place : Place) : Option β :=
  model.schema.domains[place.domain]?.bind fun d => (listing.list d)[place.member]?

theorem place?_bind_eq (listing : Listing β) (name : QualifiedName) :
    ((model.place? listing.kind name).bind fun found => (listing.list found.1)[found.2]?) =
      ((model.members.get listing.kind).get? name.toString).bind (model.memberAt? listing) := by
  simp only [place?, Option.bind_eq_bind, Option.bind_assoc, Option.pure_def, Option.bind_some]
  rfl

theorem invertsMembers_of_ofSchema (accepted : ofSchema schema = .ok model) (listing : Listing β)
    {find : QualifiedName → Option β} {enforced : QualifiedName → Except Error β}
    (finds : ∀ name, find name =
      (model.place? listing.kind name).bind fun found => (listing.list found.1)[found.2]?)
    (enforces : ∀ name,
      enforced name = enforce (.member listing.kind) name.toString (find name)) :
    InvertsMembers listing schema (model.members.get listing.kind) find enforced := by
  have same := (indexes_of_ofSchema accepted).1
  have inverts : Inverts (listing.Declares schema) (model.members.get listing.kind)
      QualifiedName.toString (.member listing.kind) find enforced := by
    refine inverts_of_indexed (model.memberAt? listing) ?_ (indexed_of_ofSchema accepted listing)
      (fun name => (finds name).trans (place?_bind_eq listing name)) enforces
    rintro place key b ⟨d, atDomain, atMember, -⟩
    rw [memberAt?, same, atDomain, Option.bind_some, atMember]
  refine ⟨inverts, ?_⟩
  rintro place key b ⟨d, atDomain, atMember, rfl⟩
  have dotted : '.' ∈ (d.key (listing.nameOf b)).toList := by
    simp [Domain.key, String.toList_append]
  obtain ⟨name, parsed⟩ := QualifiedName.exists_parse?_eq_some_iff.mpr dotted
  refine ⟨name, parsed, (inverts.found name b).mpr ⟨place, d, atDomain, atMember, ?_⟩⟩
  exact (QualifiedName.parse?_eq_some_iff.mp parsed).1

/-- A schema has a model exactly if it declares no domain and no member of a kind twice, and all
look-ups of the model invert the listing of the schema. -/
theorem ofSchema_exact (schema : Schema) :
    ((∃ model, ofSchema schema = .ok model) ↔ schema.Unambiguous) ∧
      ∀ model, ofSchema schema = .ok model → InvertsListing schema model := by
  refine ⟨exists_ofSchema_iff, fun model accepted => ?_⟩
  exact {
    domains := inverts_domains accepted
    commands := invertsMembers_of_ofSchema accepted .commands (fun _ => rfl) fun _ => rfl
    events := invertsMembers_of_ofSchema accepted .events (fun _ => rfl) fun _ => rfl
    types := invertsMembers_of_ofSchema accepted .types (fun _ => rfl) fun _ => rfl }

/-- A type and a command under one key, which divides in two ways into a domain and a member. -/
def dividedKeys : Schema where
  domains := [{ name := "A", types := some [{ id := "B.c", shape := .integer }] },
    { name := "A.B", commands := some [{ name := "c" }],
      types := some [{ id := "d", shape := .string none }] }]

theorem ofSchema_exact_dividedKeys :
    ∃ model, ofSchema dividedKeys = .ok model ∧
      (∃ t, model.type? ⟨"A.B", "c"⟩ = some t ∧ t.id = "B.c") ∧
      (∃ c, model.command? ⟨"A", "B.c"⟩ = some c ∧ c.name = "c") ∧
      model.event ⟨"A", "B.c"⟩ = .error (.notFound (.member .event) "A.B.c") := by
  obtain ⟨accepts, inverts⟩ := ofSchema_exact dividedKeys
  have unambiguous : dividedKeys.Unambiguous :=
    ⟨by decide, fun kind => by cases kind <;> decide⟩
  obtain ⟨model, accepted⟩ := accepts.mpr unambiguous
  have listing := inverts model accepted
  have type := (listing.types.inverts.found ⟨"A.B", "c"⟩ { id := "B.c", shape := .integer }).mpr
    ⟨⟨0, 0⟩, _, rfl, rfl, by decide⟩
  have command := (listing.commands.inverts.found ⟨"A", "B.c"⟩ { name := "c" }).mpr
    ⟨⟨1, 0⟩, _, rfl, rfl, by decide⟩
  refine ⟨model, accepted, ⟨_, type, rfl⟩, ⟨_, command, rfl⟩, ?_⟩
  refine (listing.events.inverts.enforced_error _ _).mpr ⟨by decide, ?_⟩
  rintro place e ⟨d, atDomain, atMember, -⟩
  have none : ∀ d ∈ dividedKeys.domains, Listing.events.list d = [] := by
    simp [dividedKeys, Listing.events, Domain.eventList]
  rw [none d (List.mem_of_getElem? atDomain)] at atMember
  cases atMember

end Model
end SchemaTrace
