import SchemaTrace.Proofs.Closure.Reach

/-! The walk over pending shapes. What it enters is supported by what it has entered; it enters
nothing that the pending shapes do not lead to; and it fails only at a type that is not declared
or a shape that is not known. -/

namespace SchemaTrace

open QualifiedName (domainOf resolve)

namespace Closure

variable {schema : Schema} {model : Model}

/-- Every pending shape stands in a domain without a dot in its name. -/
def Plain (pending : Pending) : Prop := ∀ item ∈ pending, '.' ∉ item.2.toList

/-- All that stands in the pending shapes leads to types in the set. -/
def AllLead (types : String → Prop) (pending : Pending) : Prop :=
  ∀ item ∈ pending, item.1.Everywhere (Leads types item.2)

def AllKnown (pending : Pending) : Prop := ∀ item ∈ pending, item.1.Everywhere Known

theorem plain_cons_iff {shape : Shape} {origin : String} {rest : Pending} :
    Plain ((shape, origin) :: rest) ↔ '.' ∉ origin.toList ∧ Plain rest :=
  List.forall_mem_cons

theorem allLead_cons_iff {types : String → Prop} {shape : Shape} {origin : String}
    {rest : Pending} : AllLead types ((shape, origin) :: rest) ↔
      shape.Everywhere (Leads types origin) ∧ AllLead types rest :=
  List.forall_mem_cons

theorem allKnown_cons_iff {shape : Shape} {origin : String} {rest : Pending} :
    AllKnown ((shape, origin) :: rest) ↔ shape.Everywhere Known ∧ AllKnown rest :=
  List.forall_mem_cons

theorem forall_mem_propertyShapes_append {holds : Shape × String → Prop} {origin : String}
    {properties : List (Property Shape)} {rest : Pending} :
    (∀ item ∈ propertyShapes origin properties ++ rest, holds item) ↔
      (∀ p ∈ properties, holds (p.shape, origin)) ∧ ∀ item ∈ rest, holds item := by
  rw [List.forall_mem_append, propertyShapes, List.forall_mem_map]

theorem forall_mem_shapes_iff {holds : Shape × String → Prop} {origin : String}
    {shapes : List Shape} :
    (∀ item ∈ shapes.map (·, origin), holds item) ↔ ∀ shape ∈ shapes, holds (shape, origin) :=
  List.forall_mem_map

theorem supported_of_mem_members (accepted : Model.ofSchema schema = .ok model)
    {kind : MemberKind} {name : QualifiedName} {shapes : List Shape}
    (member : (name.toString, shapes) ∈ schema.members kind) (plain : '.' ∉ name.domain.toList)
    {types : String → Prop} (leads : ∀ shape ∈ shapes, shape.Everywhere (Leads types name.domain))
    (known : ∀ shape ∈ shapes, shape.Everywhere Known) :
    Supported schema types kind name.toString := by
  have distinct := (Model.unambiguous_of_ofSchema accepted).members kind
  constructor
  · exact Schema.mem_keys_iff.mpr ⟨shapes, member⟩
  · intro shape carried
    rw [QualifiedName.domainOf_toString plain]
    exact leads shape ((Schema.carries_iff_of_mem distinct member).mp carried)
  · intro shape carried
    exact known shape ((Schema.carries_iff_of_mem distinct member).mp carried)

theorem walk_of_declared {entered : List String} {pending : Pending} {target origin : String}
    {name : QualifiedName} {definition : TypeDef} (resolved : resolve target origin = name)
    (fresh : name.toString ∉ entered) (found : model.type? name = some definition) :
    walk model entered ((.reference target, origin) :: pending) =
      walk model (name.toString :: entered) ((definition.shape, name.domain) :: pending) := by
  subst resolved
  rw [walk, if_neg fresh]
  split
  · next missing =>
    rw [found] at missing
    cases missing
  · next other same =>
    obtain rfl := Option.some.inj (found.symm.trans same)
    rfl

theorem walk_of_entered {entered : List String} {pending : Pending} {target origin : String}
    {name : QualifiedName} (resolved : resolve target origin = name)
    (old : name.toString ∈ entered) :
    walk model entered ((.reference target, origin) :: pending) = walk model entered pending := by
  subst resolved
  rw [walk, if_pos old]

theorem walk_of_missing {entered : List String} {pending : Pending} {target origin : String}
    {name : QualifiedName} (resolved : resolve target origin = name)
    (fresh : name.toString ∉ entered) (missing : model.type? name = none) :
    walk model entered ((.reference target, origin) :: pending) =
      .error (.notFound (.member .type) name.toString) := by
  subst resolved
  rw [walk, if_neg fresh]
  split
  · rfl
  · next other found =>
    rw [missing] at found
    cases found

/-- What a walk from `entered` over `pending` has done when it ends with `result`. -/
structure Walked (schema : Schema) (entered : List String) (pending : Pending)
    (result : List String) : Prop where
  kept : ∀ key ∈ entered, key ∈ result
  leads : AllLead (· ∈ result) pending
  known : AllKnown pending
  supported : ∀ key ∈ result, key ∉ entered → Supported schema (· ∈ result) .type key

theorem Walked.cons {entered : List String} {shape : Shape} {origin : String} {rest : Pending}
    {result : List String} (walked : Walked schema entered rest result)
    (leads : shape.Everywhere (Leads (· ∈ result) origin)) (known : shape.Everywhere Known) :
    Walked schema entered ((shape, origin) :: rest) result where
  kept := walked.kept
  leads := allLead_cons_iff.mpr ⟨leads, walked.leads⟩
  known := allKnown_cons_iff.mpr ⟨known, walked.known⟩
  supported := walked.supported

theorem walked_of_walk (accepted : Model.ofSchema schema = .ok model) (entered : List String)
    (pending : Pending) (plain : Plain pending) {result : List String}
    (run : walk model entered pending = .ok result) : Walked schema entered pending result := by
  fun_induction walk model entered pending with
  | case1 entered =>
    obtain rfl := Except.ok.inj run
    refine ⟨fun key member => member, ?_, ?_, fun key member fresh => absurd member fresh⟩
    · simp [AllLead]
    · simp [AllKnown]
  | case2 entered origin rest target name old ih =>
    have walked := ih (plain_cons_iff.mp plain).2 run
    exact walked.cons (.of_isLeaf trivial (walked.kept _ old)) (.of_isLeaf trivial trivial)
  | case3 => cases run
  | case4 entered origin rest target name fresh definition found ih =>
    obtain ⟨plainOrigin, plainRest⟩ := plain_cons_iff.mp plain
    have plainName := QualifiedName.plain_resolve target plainOrigin
    have walked := ih (plain_cons_iff.mpr ⟨plainName, plainRest⟩) run
    have itself : name.toString ∈ result := walked.kept _ List.mem_cons_self
    obtain ⟨leads, leadsRest⟩ := allLead_cons_iff.mp walked.leads
    obtain ⟨known, knownRest⟩ := allKnown_cons_iff.mp walked.known
    have own : Supported schema (· ∈ result) .type name.toString :=
      supported_of_mem_members accepted (Model.mem_members_of_type? accepted found) plainName
        (List.forall_mem_singleton.mpr leads) (List.forall_mem_singleton.mpr known)
    -- Apart from the type itself, what is new to `entered` is new to the walk behind it.
    have walkedRest : Walked schema entered rest result := by
      refine ⟨fun key member => walked.kept key (List.mem_cons_of_mem _ member), leadsRest,
        knownRest, ?_⟩
      intro key member new
      by_cases same : key = name.toString
      · exact same ▸ own
      · exact walked.supported key member (List.not_mem_cons_of_ne_of_not_mem same new)
    exact walkedRest.cons (.of_isLeaf trivial itself) (.of_isLeaf trivial trivial)
  | case5 entered origin rest items least most ih =>
    obtain ⟨plainOrigin, plainRest⟩ := plain_cons_iff.mp plain
    have walked := ih (plain_cons_iff.mpr ⟨plainOrigin, plainRest⟩) run
    obtain ⟨leads, leadsRest⟩ := allLead_cons_iff.mp walked.leads
    obtain ⟨known, knownRest⟩ := allKnown_cons_iff.mp walked.known
    have walkedRest : Walked schema entered rest result :=
      ⟨walked.kept, leadsRest, knownRest, walked.supported⟩
    apply walkedRest.cons
    · exact Shape.everywhere_array_iff.mpr ⟨trivial, leads⟩
    · exact Shape.everywhere_array_iff.mpr ⟨trivial, known⟩
  | case7 entered origin rest properties ih =>
    obtain ⟨plainOrigin, plainRest⟩ := plain_cons_iff.mp plain
    have walked := ih (forall_mem_propertyShapes_append.mpr ⟨fun _ _ => plainOrigin, plainRest⟩) run
    obtain ⟨leads, leadsRest⟩ := forall_mem_propertyShapes_append.mp walked.leads
    obtain ⟨known, knownRest⟩ := forall_mem_propertyShapes_append.mp walked.known
    have walkedRest : Walked schema entered rest result :=
      ⟨walked.kept, leadsRest, knownRest, walked.supported⟩
    apply walkedRest.cons
    · exact Shape.everywhere_object_iff.mpr ⟨trivial, leads⟩
    · exact Shape.everywhere_object_iff.mpr ⟨trivial, known⟩
  | case8 => cases run
  -- The remaining shapes hold nothing and refer to nothing.
  | case6 entered origin rest ih | case9 entered origin rest _ ih | case10 entered origin rest ih
  | case11 entered origin rest ih | case12 entered origin rest ih
  | case13 entered origin rest ih =>
    have walked := ih (plain_cons_iff.mp plain).2 run
    exact walked.cons (.of_isLeaf trivial trivial) (.of_isLeaf trivial trivial)

/-- A set of members that holds, with each of them, all types that it refers to. -/
def Closed (schema : Schema) (needed : MemberKind → String → Prop) : Prop :=
  ∀ kind key, needed kind key → ∀ name, schema.Refers kind key name → needed .type name

/-- All members in the set are declared, without an unknown shape in any of them. -/
structure Sound (schema : Schema) (needed : MemberKind → String → Prop) : Prop where
  declared : ∀ kind key, needed kind key → key ∈ schema.keys kind
  known : ∀ kind key, needed kind key → ∀ shape, schema.Carries kind key shape →
    shape.Everywhere Known

variable {needed : MemberKind → String → Prop}

theorem leads_of_mem_members (closed : Closed schema needed) {kind : MemberKind}
    {name : QualifiedName} {shapes : List Shape}
    (member : (name.toString, shapes) ∈ schema.members kind) (plain : '.' ∉ name.domain.toList)
    (inside : needed kind name.toString) :
    ∀ shape ∈ shapes, shape.Everywhere (Leads (needed .type) name.domain) := by
  intro shape listed
  apply everywhere_leads_iff.mpr
  intro target within
  apply closed kind _ inside
  refine ⟨shape, target, ⟨shapes, member, listed⟩, within, ?_⟩
  rw [QualifiedName.domainOf_toString plain]

theorem known_of_mem_members (sound : Sound schema needed) {kind : MemberKind} {key : String}
    {shapes : List Shape} (member : (key, shapes) ∈ schema.members kind)
    (inside : needed kind key) : ∀ shape ∈ shapes, shape.Everywhere Known := by
  intro shape listed
  exact sound.known kind key inside shape ⟨shapes, member, listed⟩

/-- A walk enters only types of a closed set to which the pending shapes lead. -/
theorem needed_of_walk (accepted : Model.ofSchema schema = .ok model)
    (closed : Closed schema needed) (entered : List String) (pending : Pending)
    (plain : Plain pending) (leads : AllLead (needed .type) pending)
    (inside : ∀ key ∈ entered, needed .type key) {result : List String}
    (run : walk model entered pending = .ok result) : ∀ key ∈ result, needed .type key := by
  fun_induction walk model entered pending with
  | case1 entered =>
    obtain rfl := Except.ok.inj run
    exact inside
  | case2 entered origin rest target name old ih =>
    exact ih (plain_cons_iff.mp plain).2 (allLead_cons_iff.mp leads).2 inside run
  | case3 => cases run
  | case4 entered origin rest target name fresh definition found ih =>
    obtain ⟨plainOrigin, plainRest⟩ := plain_cons_iff.mp plain
    obtain ⟨leadsHere, leadsRest⟩ := allLead_cons_iff.mp leads
    have plainName := QualifiedName.plain_resolve target plainOrigin
    have itself : needed .type name.toString := leadsHere.here
    have leadsOn := leads_of_mem_members closed (Model.mem_members_of_type? accepted found)
      plainName itself definition.shape List.mem_cons_self
    refine ih (plain_cons_iff.mpr ⟨plainName, plainRest⟩)
      (allLead_cons_iff.mpr ⟨leadsOn, leadsRest⟩) ?_ run
    exact List.forall_mem_cons.mpr ⟨itself, inside⟩
  | case5 entered origin rest items least most ih =>
    obtain ⟨leadsHere, leadsRest⟩ := allLead_cons_iff.mp leads
    have leadsItems := (Shape.everywhere_array_iff.mp leadsHere).2
    exact ih (plain_cons_iff.mpr (plain_cons_iff.mp plain))
      (allLead_cons_iff.mpr ⟨leadsItems, leadsRest⟩) inside run
  | case7 entered origin rest properties ih =>
    obtain ⟨plainOrigin, plainRest⟩ := plain_cons_iff.mp plain
    obtain ⟨leadsHere, leadsRest⟩ := allLead_cons_iff.mp leads
    have leadsProperties := (Shape.everywhere_object_iff.mp leadsHere).2
    exact ih (forall_mem_propertyShapes_append.mpr ⟨fun _ _ => plainOrigin, plainRest⟩)
      (forall_mem_propertyShapes_append.mpr ⟨leadsProperties, leadsRest⟩) inside run
  | case8 => cases run
  | case6 entered origin rest ih | case9 entered origin rest _ ih | case10 entered origin rest ih
  | case11 entered origin rest ih | case12 entered origin rest ih
  | case13 entered origin rest ih =>
    exact ih (plain_cons_iff.mp plain).2 (allLead_cons_iff.mp leads).2 inside run

/-- Where all types of a closed set are declared and known, a walk that leads to them ends well. -/
theorem exists_walk (accepted : Model.ofSchema schema = .ok model)
    (closed : Closed schema needed) (sound : Sound schema needed) (entered : List String)
    (pending : Pending) (plain : Plain pending) (leads : AllLead (needed .type) pending)
    (known : AllKnown pending) : ∃ result, walk model entered pending = .ok result := by
  fun_induction walk model entered pending with
  | case1 entered => exact ⟨entered, rfl⟩
  | case2 entered origin rest target name old ih =>
    exact ih (plain_cons_iff.mp plain).2 (allLead_cons_iff.mp leads).2
      (allKnown_cons_iff.mp known).2
  | case3 entered origin rest target name fresh missing =>
    have itself : needed .type name.toString := (allLead_cons_iff.mp leads).1.here
    obtain ⟨t, found⟩ := Model.exists_type? accepted (sound.declared _ _ itself)
    rw [missing] at found
    cases found
  | case4 entered origin rest target name fresh definition found ih =>
    obtain ⟨plainOrigin, plainRest⟩ := plain_cons_iff.mp plain
    obtain ⟨leadsHere, leadsRest⟩ := allLead_cons_iff.mp leads
    have plainName := QualifiedName.plain_resolve target plainOrigin
    have itself : needed .type name.toString := leadsHere.here
    have member := Model.mem_members_of_type? accepted found
    have leadsOn := leads_of_mem_members closed member plainName itself definition.shape
      List.mem_cons_self
    have knownOn := known_of_mem_members sound member itself definition.shape List.mem_cons_self
    exact ih (plain_cons_iff.mpr ⟨plainName, plainRest⟩)
      (allLead_cons_iff.mpr ⟨leadsOn, leadsRest⟩)
      (allKnown_cons_iff.mpr ⟨knownOn, (allKnown_cons_iff.mp known).2⟩)
  | case5 entered origin rest items least most ih =>
    obtain ⟨leadsHere, leadsRest⟩ := allLead_cons_iff.mp leads
    obtain ⟨knownHere, knownRest⟩ := allKnown_cons_iff.mp known
    have leadsItems := (Shape.everywhere_array_iff.mp leadsHere).2
    have knownItems := (Shape.everywhere_array_iff.mp knownHere).2
    exact ih (plain_cons_iff.mpr (plain_cons_iff.mp plain))
      (allLead_cons_iff.mpr ⟨leadsItems, leadsRest⟩)
      (allKnown_cons_iff.mpr ⟨knownItems, knownRest⟩)
  | case7 entered origin rest properties ih =>
    obtain ⟨plainOrigin, plainRest⟩ := plain_cons_iff.mp plain
    obtain ⟨leadsHere, leadsRest⟩ := allLead_cons_iff.mp leads
    obtain ⟨knownHere, knownRest⟩ := allKnown_cons_iff.mp known
    have leadsProperties := (Shape.everywhere_object_iff.mp leadsHere).2
    have knownProperties := (Shape.everywhere_object_iff.mp knownHere).2
    exact ih (forall_mem_propertyShapes_append.mpr ⟨fun _ _ => plainOrigin, plainRest⟩)
      (forall_mem_propertyShapes_append.mpr ⟨leadsProperties, leadsRest⟩)
      (forall_mem_propertyShapes_append.mpr ⟨knownProperties, knownRest⟩)
  | case8 entered origin rest tag =>
    exact ((allKnown_cons_iff.mp known).1.here).elim
  | case6 entered origin rest ih | case9 entered origin rest _ ih | case10 entered origin rest ih
  | case11 entered origin rest ih | case12 entered origin rest ih
  | case13 entered origin rest ih =>
    exact ih (plain_cons_iff.mp plain).2 (allLead_cons_iff.mp leads).2
      (allKnown_cons_iff.mp known).2

end Closure
end SchemaTrace
