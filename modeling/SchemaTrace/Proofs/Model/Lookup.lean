import SchemaTrace.Proofs.Model.Index

/-! Look-ups in a model. A schema has a model exactly if it declares no domain and no member
twice, and then a lookup finds exactly what is declared under the key it is given. -/

namespace SchemaTrace

structure Schema.Unambiguous (s : Schema) : Prop where
  domains : (s.domains.map (·.name)).Nodup
  members : ∀ kind, (s.keys kind).Nodup

namespace Model

variable {schema : Schema} {model : Model}

theorem ofSchema_entersAll (schema : Schema) :
    EntersAll (namePositions 0 schema.domains) (fun kind => places kind 0 schema.domains)
      (enterDomains 0 .empty (.fill fun _ => .empty) schema.domains) := by
  have indexes (kind : MemberKind) :
      Indexes ((ByKind.fill fun _ => (.empty : SortedMap Place)).get kind) [] := by
    rw [ByKind.get_fill]
    exact indexes_empty
  simpa using enterDomains_entersAll schema.domains 0 indexes_empty indexes

theorem keys_namePositions (schema : Schema) :
    (namePositions 0 schema.domains).map (·.1) = schema.domains.map (·.name) := by
  calc
    (namePositions 0 schema.domains).map (·.1) =
        (schema.domains.zipIdx.map (·.1)).map (·.name) := by
      rw [namePositions, List.map_map, List.map_map]
      rfl
    _ = schema.domains.map (·.name) := by rw [List.zipIdx_map_fst]

theorem exists_ofSchema_iff : (∃ model, ofSchema schema = .ok model) ↔ schema.Unambiguous := by
  have all := ofSchema_entersAll schema
  cases entered : enterDomains 0 .empty (.fill fun _ => .empty) schema.domains with
  | error e =>
    rw [entered] at all
    constructor
    · intro given
      rcases given with ⟨model, accepted⟩
      simp [ofSchema, entered, bind, Except.bind] at accepted
    · intro unambiguous
      refine absurd ⟨?_, fun kind => ?_⟩ all
      · rw [keys_namePositions]
        exact unambiguous.domains
      · rw [keys_places]
        exact unambiguous.members kind
  | ok indices =>
    obtain ⟨domains, members⟩ := indices
    rw [entered] at all
    constructor
    · intro _
      constructor
      · rw [← keys_namePositions]
        exact all.1.distinct
      · intro kind
        have distinct := (all.2 kind).distinct
        rw [keys_places] at distinct
        exact distinct
    · intro _
      refine ⟨⟨schema, domains, members⟩, ?_⟩
      simp [ofSchema, entered, bind, Except.bind, pure, Except.pure]

/-- What an accepted schema's model holds: the schema and an index of all its members. -/
theorem indexes_of_ofSchema (accepted : ofSchema schema = .ok model) :
    model.schema = schema ∧ Indexes model.domains (namePositions 0 schema.domains) ∧
      ∀ kind, Indexes (model.members.get kind) (places kind 0 schema.domains) := by
  have all := ofSchema_entersAll schema
  cases entered : enterDomains 0 .empty (.fill fun _ => .empty) schema.domains with
  | error e => simp [ofSchema, entered, bind, Except.bind] at accepted
  | ok indices =>
    obtain ⟨domains, members⟩ := indices
    rw [entered] at all
    simp only [ofSchema, entered, bind, Except.bind, pure, Except.pure] at accepted
    obtain rfl := Except.ok.inj accepted
    exact ⟨rfl, all⟩

theorem place?_eq_some_iff (accepted : ofSchema schema = .ok model) {kind : MemberKind}
    {name : QualifiedName} {d : Domain} {m : Nat} :
    model.place? kind name = some (d, m) ↔
      d ∈ schema.domains ∧ ∃ member, (d.memberNames kind)[m]? = some member ∧
        d.key member = name.toString := by
  obtain ⟨same, -, members⟩ := indexes_of_ofSchema accepted
  have found := (members kind).get?_eq_some_iff name.toString
  have unfolded : model.place? kind name = some (d, m) ↔
      ∃ i, (model.members.get kind).get? name.toString = some ⟨i, m⟩ ∧
        schema.domains[i]? = some d := by
    simp only [place?, Option.bind_eq_bind, Option.bind_eq_some_iff, Option.pure_def,
      Option.some.injEq, Prod.mk.injEq, same]
    constructor
    · intro given
      rcases given with ⟨⟨i, j⟩, atKey, domain, atDomain, rfl, rfl⟩
      exact ⟨i, atKey, atDomain⟩
    · intro given
      rcases given with ⟨i, atKey, atDomain⟩
      exact ⟨⟨i, m⟩, atKey, d, atDomain, rfl, rfl⟩
  rw [unfolded]
  simp only [found, mem_places_iff]
  constructor
  · intro given
    rcases given with ⟨i, ⟨domain, member, atDomain, atMember, eq⟩, atDomain'⟩
    obtain rfl := Option.some.inj (atDomain.symm.trans atDomain')
    exact ⟨List.mem_of_getElem? atDomain, member, atMember, eq⟩
  · intro given
    rcases given with ⟨inside, member, atMember, eq⟩
    obtain ⟨i, atDomain⟩ := List.getElem?_of_mem inside
    exact ⟨i, ⟨d, member, atDomain, atMember, eq⟩, atDomain⟩

theorem enforce_eq_ok_iff {β : Type} {kind : LookupKind} {key : String} {lookup : Option β}
    {b : β} :
    enforce kind key lookup = .ok b ↔ lookup = some b := by
  cases lookup <;> simp [enforce]

theorem enforce_eq_error_iff {β : Type} {kind : LookupKind} {key : String} {lookup : Option β}
    {e : Error} :
    enforce kind key lookup = .error e ↔ e = .notFound kind key ∧ lookup = none := by
  cases lookup <;> simp [enforce, eq_comm]

theorem bind_place?_eq_some_iff (accepted : ofSchema schema = .ok model) {kind : MemberKind}
    {name : QualifiedName} {β : Type} {b : β} (list : Domain → List β) (nameOf : β → String)
    (names : ∀ d : Domain, d.memberNames kind = (list d).map nameOf) :
    ((model.place? kind name).bind fun place => (list place.1)[place.2]?) = some b ↔
      ∃ d ∈ schema.domains, b ∈ list d ∧ d.key (nameOf b) = name.toString := by
  rw [Option.bind_eq_some_iff]
  constructor
  · intro given
    rcases given with ⟨⟨d, m⟩, placed, atPlace⟩
    obtain ⟨inside, member, atMember, eq⟩ := (place?_eq_some_iff accepted).mp placed
    rw [names, List.getElem?_map, atPlace] at atMember
    obtain rfl := Option.some.inj atMember
    exact ⟨d, inside, List.mem_of_getElem? atPlace, eq⟩
  · intro given
    rcases given with ⟨d, inside, member, eq⟩
    obtain ⟨m, atPlace⟩ := List.getElem?_of_mem member
    have placed : model.place? kind name = some (d, m) := by
      apply (place?_eq_some_iff accepted).mpr
      refine ⟨inside, nameOf b, ?_, eq⟩
      rw [names, List.getElem?_map, atPlace]
      rfl
    exact ⟨(d, m), placed, atPlace⟩

theorem command?_eq_some_iff (accepted : ofSchema schema = .ok model) {name : QualifiedName}
    {c : Command} : model.command? name = some c ↔
      ∃ d ∈ schema.domains, c ∈ d.commandList ∧ d.key c.name = name.toString :=
  bind_place?_eq_some_iff accepted Domain.commandList Command.name fun _ => rfl

theorem event?_eq_some_iff (accepted : ofSchema schema = .ok model) {name : QualifiedName}
    {e : Event} : model.event? name = some e ↔
      ∃ d ∈ schema.domains, e ∈ d.eventList ∧ d.key e.name = name.toString :=
  bind_place?_eq_some_iff accepted Domain.eventList Event.name fun _ => rfl

theorem type?_eq_some_iff (accepted : ofSchema schema = .ok model) {name : QualifiedName}
    {t : TypeDef} : model.type? name = some t ↔
      ∃ d ∈ schema.domains, t ∈ d.typeList ∧ d.key t.id = name.toString :=
  bind_place?_eq_some_iff accepted Domain.typeList TypeDef.id fun _ => rfl

theorem unambiguous_of_ofSchema (accepted : ofSchema schema = .ok model) : schema.Unambiguous :=
  exists_ofSchema_iff.mp ⟨model, accepted⟩

theorem mem_members_of_command? (accepted : ofSchema schema = .ok model) {name : QualifiedName}
    {c : Command} (found : model.command? name = some c) :
    (name.toString, Closure.parameters c.parameters ++ Closure.parameters c.returns) ∈
      schema.members .command := by
  obtain ⟨d, inside, member, eq⟩ := (command?_eq_some_iff accepted).mp found
  rw [← eq]
  exact Schema.mem_members_of_mem .command inside (List.mem_map.mpr ⟨c, member, rfl⟩)

theorem mem_members_of_event? (accepted : ofSchema schema = .ok model) {name : QualifiedName}
    {e : Event} (found : model.event? name = some e) :
    (name.toString, Closure.parameters e.parameters) ∈ schema.members .event := by
  obtain ⟨d, inside, member, eq⟩ := (event?_eq_some_iff accepted).mp found
  rw [← eq]
  exact Schema.mem_members_of_mem .event inside (List.mem_map.mpr ⟨e, member, rfl⟩)

theorem mem_members_of_type? (accepted : ofSchema schema = .ok model) {name : QualifiedName}
    {t : TypeDef} (found : model.type? name = some t) :
    (name.toString, [t.shape]) ∈ schema.members .type := by
  obtain ⟨d, inside, member, eq⟩ := (type?_eq_some_iff accepted).mp found
  rw [← eq]
  exact Schema.mem_members_of_mem .type inside (List.mem_map.mpr ⟨t, member, rfl⟩)

theorem exists_declared {kind : MemberKind} {key : String} (declared : key ∈ schema.keys kind) :
    ∃ d ∈ schema.domains, ∃ member ∈ d.memberNames kind, d.key member = key := by
  obtain ⟨d, inside, inDomain⟩ := List.mem_flatMap.mp declared
  obtain ⟨member, named, eq⟩ := List.mem_map.mp inDomain
  exact ⟨d, inside, member, named, eq⟩

theorem exists_command? (accepted : ofSchema schema = .ok model) {name : QualifiedName}
    (declared : name.toString ∈ schema.keys .command) : ∃ c, model.command? name = some c := by
  obtain ⟨d, inside, member, named, eq⟩ := exists_declared declared
  obtain ⟨c, listed, rfl⟩ := List.mem_map.mp named
  exact ⟨c, (command?_eq_some_iff accepted).mpr ⟨d, inside, listed, eq⟩⟩

theorem exists_event? (accepted : ofSchema schema = .ok model) {name : QualifiedName}
    (declared : name.toString ∈ schema.keys .event) : ∃ e, model.event? name = some e := by
  obtain ⟨d, inside, member, named, eq⟩ := exists_declared declared
  obtain ⟨e, listed, rfl⟩ := List.mem_map.mp named
  exact ⟨e, (event?_eq_some_iff accepted).mpr ⟨d, inside, listed, eq⟩⟩

theorem exists_type? (accepted : ofSchema schema = .ok model) {name : QualifiedName}
    (declared : name.toString ∈ schema.keys .type) : ∃ t, model.type? name = some t := by
  obtain ⟨d, inside, member, named, eq⟩ := exists_declared declared
  obtain ⟨t, listed, rfl⟩ := List.mem_map.mp named
  exact ⟨t, (type?_eq_some_iff accepted).mpr ⟨d, inside, listed, eq⟩⟩

theorem mem_namePositions_iff {name : String} {d : Nat} :
    (name, d) ∈ namePositions 0 schema.domains ↔ (schema.domains[d]?).map (·.name) = some name := by
  simp only [namePositions, List.mem_map, Prod.exists, List.mk_mem_zipIdx_iff_getElem?,
    Prod.mk.injEq, Option.map_eq_some_iff]
  constructor
  · intro given
    rcases given with ⟨domain, _, found, named, rfl⟩
    exact ⟨domain, found, named⟩
  · intro given
    rcases given with ⟨domain, found, named⟩
    exact ⟨domain, d, found, named, rfl⟩

theorem domain?_eq_some_iff (accepted : ofSchema schema = .ok model) {name : String} {d : Domain} :
    model.domain? name = some d ↔ d ∈ schema.domains ∧ d.name = name := by
  obtain ⟨same, positions, -⟩ := indexes_of_ofSchema accepted
  have found := positions.get?_eq_some_iff name
  simp only [domain?, Option.bind_eq_bind, Option.bind_eq_some_iff, found, mem_namePositions_iff,
    same]
  constructor
  · intro given
    rcases given with ⟨i, named, atPlace⟩
    rw [atPlace] at named
    exact ⟨List.mem_of_getElem? atPlace, Option.some.inj named⟩
  · intro given
    rcases given with ⟨inside, named⟩
    obtain ⟨i, atPlace⟩ := List.getElem?_of_mem inside
    exact ⟨i, by rw [atPlace, ← named]; rfl, atPlace⟩

end Model
end SchemaTrace
