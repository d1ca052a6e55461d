import SchemaTrace.Proofs.Schema.Members
import SchemaTrace.Schema.Decode

/-! Schemas as they are read back from what is written for them. An unknown shape is written as its
type tag and nothing else, and where this alone makes up a shape of a known kind, that shape is read
back; all else stays. -/

namespace SchemaTrace

namespace Shape

/-- The type tags that make up a shape without any other field. -/
def bareTags : List String := [Tag.object, .string, .integer, .number, .boolean, .any].map Tag.name

def ofTag (tag : String) : Shape :=
  match Tag.all.find? (·.name = tag) with
  | some .object => .object none
  | some .string => .string none
  | some .integer => .integer
  | some .number => .number
  | some .boolean => .boolean
  | some .any => .any
  | some .array | none => .unknown tag

mutual

/-- A shape as it is read back. -/
def settled : Shape → Shape
  | .array items minItems maxItems => .array (settled items) minItems maxItems
  | .object (some properties) => .object (some (settledProperties properties))
  | .unknown tag => ofTag tag
  | shape => shape

def settledProperties : List (Property Shape) → List (Property Shape)
  | [] => []
  | ⟨name, optional, description, experimental, deprecated, shape⟩ :: rest =>
    ⟨name, optional, description, experimental, deprecated, settled shape⟩ ::
      settledProperties rest

end

theorem ofTag_eq_unknown_iff {tag : String} : ofTag tag = .unknown tag ↔ tag ∉ bareTags := by
  cases found : Tag.all.find? (·.name = tag) with
  | none =>
    have unknown : ∀ t ∈ Tag.all, ¬t.name = tag := by
      simpa [List.find?_eq_none] using found
    have kept : ofTag tag = .unknown tag := by rw [ofTag, found]
    refine iff_of_true kept fun member => ?_
    obtain ⟨t, -, named⟩ := List.mem_map.mp member
    exact unknown t (by cases t <;> simp [Tag.all]) named
  | some t =>
    obtain rfl : t.name = tag := by simpa using List.find?_some found
    cases t with
    | array => exact iff_of_true (by rw [ofTag, found]) (by decide)
    | _ => exact iff_of_false (by rw [ofTag, found]; simp) (by decide)

end Shape

/-! ### Shapes changed throughout a schema -/

variable (f : Shape → Shape)

def Property.mapShape (p : Parameter) : Parameter := { p with shape := f p.shape }

def TypeDef.mapShape (t : TypeDef) : TypeDef := { t with shape := f t.shape }

def Command.mapShapes (c : Command) : Command :=
  { c with
    parameters := c.parameters.map (List.map (Property.mapShape f))
    returns := c.returns.map (List.map (Property.mapShape f)) }

def Event.mapShapes (e : Event) : Event :=
  { e with parameters := e.parameters.map (List.map (Property.mapShape f)) }

def Domain.mapShapes (d : Domain) : Domain :=
  { d with
    types := d.types.map (List.map (TypeDef.mapShape f))
    commands := d.commands.map (List.map (Command.mapShapes f))
    events := d.events.map (List.map (Event.mapShapes f)) }

def Schema.mapShapes (s : Schema) : Schema :=
  { s with domains := s.domains.map (Domain.mapShapes f) }

def Schema.settled (s : Schema) : Schema := s.mapShapes Shape.settled

section Unchanged

theorem map_eq_self_iff {α : Type} {g : α → α} {list : List α} :
    list.map g = list ↔ ∀ a ∈ list, g a = a := by
  induction list with
  | nil => simp
  | cons a rest ih => simp [ih]

theorem map_held_eq_self_iff {α : Type} {g : α → α} {held : Option (List α)} :
    held.map (List.map g) = held ↔ ∀ a ∈ held.getD [], g a = a := by
  cases held with
  | none => simp
  | some list => simp [map_eq_self_iff]

variable {f : Shape → Shape}

theorem map_parameters_eq_self_iff {held : Option (List Parameter)} :
    held.map (List.map (Property.mapShape f)) = held ↔
      ∀ shape ∈ Closure.parameters held, f shape = shape := by
  have own (p : Parameter) : p.mapShape f = p ↔ f p.shape = p.shape := by
    cases p
    simp [Property.mapShape]
  rw [map_held_eq_self_iff, Closure.parameters, List.forall_mem_map]
  simp only [own]

theorem Command.mapShapes_eq_self_iff {c : Command} : c.mapShapes f = c ↔
    ∀ shape ∈ Closure.parameters c.parameters ++ Closure.parameters c.returns,
      f shape = shape := by
  rw [List.forall_mem_append, ← map_parameters_eq_self_iff, ← map_parameters_eq_self_iff]
  cases c
  simp [mapShapes]

theorem Event.mapShapes_eq_self_iff {e : Event} : e.mapShapes f = e ↔
    ∀ shape ∈ Closure.parameters e.parameters, f shape = shape := by
  rw [← map_parameters_eq_self_iff]
  cases e
  simp [mapShapes]

theorem TypeDef.mapShape_eq_self_iff {t : TypeDef} : t.mapShape f = t ↔ f t.shape = t.shape := by
  cases t
  simp [mapShape]

theorem Domain.mapShapes_eq_self_iff {d : Domain} : d.mapShapes f = d ↔
    ∀ kind, ∀ m ∈ d.memberShapes kind, ∀ shape ∈ m.2, f shape = shape := by
  have parts : d.mapShapes f = d ↔ d.types.map (List.map (TypeDef.mapShape f)) = d.types ∧
      d.commands.map (List.map (Command.mapShapes f)) = d.commands ∧
      d.events.map (List.map (Event.mapShapes f)) = d.events := by
    cases d
    simp [mapShapes]
  rw [parts, map_held_eq_self_iff, map_held_eq_self_iff, map_held_eq_self_iff]
  simp only [TypeDef.mapShape_eq_self_iff, Command.mapShapes_eq_self_iff,
    Event.mapShapes_eq_self_iff]
  constructor
  · intro given kind
    rcases given with ⟨types, commands, events⟩
    cases kind with
    | command => exact List.forall_mem_map.mpr commands
    | event => exact List.forall_mem_map.mpr events
    | type =>
      have own : ∀ t ∈ d.typeList, ∀ shape ∈ [t.shape], f shape = shape := fun t member =>
        List.forall_mem_singleton.mpr (types t member)
      exact List.forall_mem_map.mpr own
  · intro all
    refine ⟨?_, List.forall_mem_map.mp (all .command), List.forall_mem_map.mp (all .event)⟩
    intro t member
    exact List.forall_mem_map.mp (all .type) t member t.shape List.mem_cons_self

theorem Schema.mapShapes_eq_self_iff {s : Schema} : s.mapShapes f = s ↔
    ∀ kind key shape, s.Carries kind key shape → f shape = shape := by
  have domains : s.mapShapes f = s ↔ s.domains.map (Domain.mapShapes f) = s.domains := by
    cases s
    simp [mapShapes]
  rw [domains, map_eq_self_iff]
  simp only [Domain.mapShapes_eq_self_iff]
  constructor
  · intro all kind key shape carried
    obtain ⟨shapes, member, inside⟩ := carried
    obtain ⟨d, listed, inDomain⟩ := List.mem_flatMap.mp member
    obtain ⟨m, own, same⟩ := List.mem_map.mp inDomain
    obtain ⟨-, rfl⟩ := Prod.mk.inj same
    exact all d listed kind m own shape inside
  · intro all d listed kind m own shape inside
    exact all kind _ shape ⟨m.2, Schema.mem_members_of_mem kind listed own, inside⟩

theorem parameters_map_mapShape (held : Option (List Parameter)) :
    Closure.parameters (held.map (List.map (Property.mapShape f))) =
      (Closure.parameters held).map f := by
  cases held <;> simp [Closure.parameters, Property.mapShape]

theorem Domain.memberShapes_mapShapes (d : Domain) (kind : MemberKind) :
    (d.mapShapes f).memberShapes kind = (d.memberShapes kind).map fun m => (m.1, m.2.map f) := by
  cases kind with
  | command =>
    cases held : d.commands <;>
      simp [memberShapes, commandList, mapShapes, held, Command.mapShapes, parameters_map_mapShape]
  | event =>
    cases held : d.events <;>
      simp [memberShapes, eventList, mapShapes, held, Event.mapShapes, parameters_map_mapShape]
  | type =>
    cases held : d.types <;> simp [memberShapes, typeList, mapShapes, held, TypeDef.mapShape]

theorem Schema.members_mapShapes (s : Schema) (kind : MemberKind) :
    (s.mapShapes f).members kind = (s.members kind).map fun m => (m.1, m.2.map f) := by
  simp only [members, mapShapes, List.flatMap_map, Domain.memberShapes_mapShapes,
    List.map_flatMap, List.map_map]
  rfl

theorem Schema.keys_mapShapes (s : Schema) (kind : MemberKind) :
    (s.mapShapes f).keys kind = s.keys kind := by
  rw [keys_eq_map, keys_eq_map, members_mapShapes, List.map_map]
  rfl

theorem Schema.carries_mapShapes_iff {s : Schema} {kind : MemberKind} {key : String}
    {shape : Shape} : (s.mapShapes f).Carries kind key shape ↔
      ∃ inner, s.Carries kind key inner ∧ f inner = shape := by
  simp only [Carries, members_mapShapes]
  constructor
  · intro given
    rcases given with ⟨shapes, member, inside⟩
    obtain ⟨m, listed, same⟩ := List.mem_map.mp member
    obtain ⟨rfl, rfl⟩ := Prod.mk.inj same
    obtain ⟨inner, held, eq⟩ := List.mem_map.mp inside
    exact ⟨inner, ⟨m.2, listed, held⟩, eq⟩
  · intro given
    rcases given with ⟨inner, ⟨shapes, member, inside⟩, rfl⟩
    exact ⟨shapes.map f, List.mem_map.mpr ⟨_, member, rfl⟩, List.mem_map_of_mem inside⟩

theorem Schema.names_mapShapes (s : Schema) :
    (s.mapShapes f).domains.map (·.name) = s.domains.map (·.name) := by
  rw [mapShapes, List.map_map]
  rfl

end Unchanged

namespace Shape

theorem settledProperties_eq_map (properties : List (Property Shape)) :
    settledProperties properties = properties.map (Property.mapShape settled) := by
  induction properties with
  | nil => rfl
  | cons p rest ih => rw [settledProperties, ih]; rfl

/-- A shape that is read back as it was written, at this place. -/
def Stays : Shape → Prop
  | .unknown tag => tag ∉ bareTags
  | _ => True

mutual

theorem settled_eq_self_iff : ∀ shape : Shape, shape.settled = shape ↔ shape.Everywhere Stays
  | .array items minItems maxItems => by
    rw [everywhere_array_iff, ← settled_eq_self_iff items, settled]
    simp [Stays]
  | .object (some properties) => by
    rw [everywhere_object_iff, ← settledProperties_eq_self_iff properties, settled]
    simp [Stays]
  | .unknown tag => by
    rw [settled, ofTag_eq_unknown_iff]
    exact ⟨fun stays => .of_isLeaf trivial stays, fun all => all.here⟩
  | .object none | .reference _ | .string _ | .integer | .number | .boolean | .any =>
    iff_of_true rfl (.of_isLeaf trivial trivial)

theorem settledProperties_eq_self_iff : ∀ properties : List (Property Shape),
    settledProperties properties = properties ↔ ∀ p ∈ properties, p.shape.Everywhere Stays
  | [] => by simp [settledProperties]
  | ⟨name, optional, description, experimental, deprecated, shape⟩ :: rest => by
    rw [List.forall_mem_cons, ← settled_eq_self_iff shape, ← settledProperties_eq_self_iff rest,
      settledProperties]
    simp

end

theorem settled_ofTag (tag : String) : (ofTag tag).settled = ofTag tag := by
  by_cases bare : tag ∈ bareTags
  · obtain ⟨t, listed, rfl⟩ := List.mem_map.mp bare
    cases t with
    | array => simp at listed
    | _ => rfl
  · rw [ofTag_eq_unknown_iff.mpr bare, settled, ofTag_eq_unknown_iff.mpr bare]

mutual

theorem settled_settled : ∀ shape : Shape, shape.settled.settled = shape.settled
  | .array items minItems maxItems => by rw [settled, settled, settled_settled items]
  | .object (some properties) => by
    rw [settled, settled, settledProperties_settledProperties properties]
  | .unknown tag => settled_ofTag tag
  | .object none | .reference _ | .string _ | .integer | .number | .boolean | .any => rfl

theorem settledProperties_settledProperties : ∀ properties : List (Property Shape),
    settledProperties (settledProperties properties) = settledProperties properties
  | [] => rfl
  | ⟨name, optional, description, experimental, deprecated, shape⟩ :: rest => by
    rw [settledProperties, settledProperties, settled_settled shape,
      settledProperties_settledProperties rest]

end

end Shape

theorem Schema.settled_eq_self_iff {s : Schema} : s.settled = s ↔
    ∀ kind key shape, s.Carries kind key shape →
      ∀ tag ∈ Shape.bareTags, ¬shape.Contains (.unknown tag) := by
  rw [settled, mapShapes_eq_self_iff]
  simp only [Shape.settled_eq_self_iff]
  constructor
  · intro all kind key shape carried tag bare within
    exact all kind key shape carried _ within bare
  · intro all kind key shape carried inner within
    cases inner with
    | unknown tag => exact fun bare => all kind key shape carried tag bare within
    | _ => trivial

theorem Schema.settled_settled (s : Schema) : s.settled.settled = s.settled := by
  rw [settled, settled, mapShapes_eq_self_iff]
  intro kind key shape carried
  obtain ⟨inner, -, rfl⟩ := carries_mapShapes_iff.mp carried
  exact inner.settled_settled

end SchemaTrace
