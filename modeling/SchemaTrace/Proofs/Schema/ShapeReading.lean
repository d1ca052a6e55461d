import SchemaTrace.Proofs.Document.Record
import SchemaTrace.Proofs.Schema.Settled
import SchemaTrace.Schema.Encode

/-! Reading shapes from what was written for them, and the parameters and types that hold them. -/

namespace SchemaTrace

open Document Document.RecordDecoder

namespace Shape

def fieldNames : List String :=
  ["$ref", "type", "items", "minItems", "maxItems", "properties", "enum"]

theorem name_mem_of_mem_fields (shape : Shape) : ∀ f ∈ shape.fields, f.1 ∈ fieldNames := by
  cases shape with
  | array items minItems maxItems =>
    cases minItems <;> cases maxItems <;> simp [fields, Encode.optional, fieldNames]
  | object properties => cases properties <;> simp [fields, fieldNames]
  | string values => cases values <;> simp [fields, Encode.optional, fieldNames]
  | _ => simp [fields, fieldNames]

theorem valuesOf_fields {name : String} (other : name ∉ fieldNames) (shape : Shape) :
    valuesOf name shape.fields = [] := by
  apply valuesOf_eq_nil
  intro f member eq
  exact other (eq ▸ shape.name_mem_of_mem_fields f member)

theorem filter_fields {names : List String} (others : ∀ name ∈ fieldNames, name ∉ names)
    (shape : Shape) : shape.fields.filter (fun f => f.1 ∉ names) = shape.fields := by
  apply List.filter_eq_self.mpr
  intro f member
  exact decide_eq_true (others f.1 (shape.name_mem_of_mem_fields f member))

def headOf (p : Parameter) : Encode.Fields :=
  Encode.field "name" (.text p.name) ++ Encode.flag "optional" p.optional ++
    Encode.optional "description" .text p.description ++
    Encode.flag "experimental" p.experimental ++ Encode.flag "deprecated" p.deprecated

theorem encodeParameter_eq (p : Parameter) :
    encodeParameter p = .record (headOf p ++ p.shape.fields) := by
  cases p
  rfl

theorem encodeParameters_eq_map (properties : List (Property Shape)) :
    encodeParameters properties = properties.map encodeParameter := by
  induction properties with
  | nil => rfl
  | cons p rest ih => rw [encodeParameters, ih, List.map_cons]

theorem whole_headOf (p : Parameter) : ∀ f ∈ headOf p, Whole f.2 := by
  simp only [headOf, List.forall_mem_append]
  exact ⟨⟨⟨⟨whole_field (whole_text _), whole_flag _⟩, whole_optional_text⟩,
    whole_flag _⟩, whole_flag _⟩

mutual

theorem whole_fields : ∀ shape : Shape, ∀ f ∈ shape.fields, Whole f.2
  | .array items minItems maxItems => by
    have inside := whole_record_iff.mpr (whole_fields items)
    simp only [fields, List.forall_mem_append, List.forall_mem_cons]
    exact ⟨⟨⟨whole_text _, inside, List.forall_mem_nil _⟩, whole_optional fun _ _ => rfl⟩,
      whole_optional fun _ _ => rfl⟩
  | .object (some properties) => by
    have inside := whole_list_iff.mpr (whole_encodeParameters properties)
    simp only [fields, List.forall_mem_cons]
    exact ⟨whole_text _, inside, List.forall_mem_nil _⟩
  | .string values => by
    simp only [fields, List.forall_mem_cons]
    exact ⟨whole_text _, whole_optional_list whole_text⟩
  | .object none | .reference _ | .integer | .number | .boolean | .any | .unknown _ =>
    List.forall_mem_singleton.mpr rfl

theorem whole_encodeParameters : ∀ properties : List (Property Shape),
    ∀ doc ∈ encodeParameters properties, Whole doc
  | [] => List.forall_mem_nil _
  | ⟨name, mayMiss, description, experimental, deprecated, shape⟩ :: rest => by
    have inside := whole_fields shape
    have head := whole_headOf ⟨name, mayMiss, description, experimental, deprecated, shape⟩
    have own := whole_record_iff.mpr (List.forall_mem_append.mpr ⟨head, inside⟩)
    exact List.forall_mem_cons.mpr ⟨own, whole_encodeParameters rest⟩

end

theorem whole_encodeParameter (p : Parameter) : Whole (encodeParameter p) := by
  rw [encodeParameter_eq]
  exact whole_record_iff.mpr (List.forall_mem_append.mpr ⟨whole_headOf p, whole_fields p.shape⟩)

theorem name_mem_of_mem_headOf (p : Parameter) :
    ∀ f ∈ headOf p, f.1 ∈ parameterFields.names := by
  have known : ∀ f ∈ headOf p,
      f.1 ∈ ["name", "optional", "description", "experimental", "deprecated"] := by
    intro f member
    simp only [headOf, List.mem_append] at member
    obtain (((member | member) | member) | member) | member := member
    · simp [List.mem_singleton.mp member]
    · simp [name_of_mem_flag _ f member]
    · simp [name_of_mem_optional f member]
    · simp [name_of_mem_flag _ f member]
    · simp [name_of_mem_flag _ f member]
  exact known

/-- The fields of a shape are those that its carrier does not know. -/
theorem withOthers_fields_eq_ok {α : Type} {r : RecordDecoder (Shape → α)} {head : Encode.Fields}
    {shape inner : Shape} {read : Decoder Shape} {f : Shape → α} (whole : ∀ f ∈ head, Whole f.2)
    (known : ∀ f ∈ head, f.1 ∈ r.names) (others : ∀ name ∈ fieldNames, name ∉ r.names)
    (reads : r.Reads (head ++ shape.fields) f)
    (inside : read (.record shape.fields) = .ok inner) :
    r.withOthers (fun rest => read (.record rest)) (.record (head ++ shape.fields)) =
      .ok (f, inner) := by
  have none : head.filter (fun f => f.1 ∉ r.names) = [] := by
    apply List.filter_eq_nil_iff.mpr
    intro f member
    simpa using known f member
  have rest : (head ++ shape.fields).filter (fun f => f.1 ∉ r.names) = shape.fields := by
    rw [List.filter_append, none, filter_fields others, List.nil_append]
  apply withOthers_eq_ok (List.forall_mem_append.mpr ⟨whole, whole_fields shape⟩) reads
  rw [rest]
  exact inside

theorem parameterWith_encodeParameter {shape : Decoder Shape} {p : Parameter} {inner : Shape}
    (read : shape (.record p.shape.fields) = .ok inner) :
    parameterWith shape (encodeParameter p) = .ok { p with shape := inner } := by
  have name : (required "name" Decode.text).Reads (headOf p ++ p.shape.fields) p.name := by
    apply reads_text
    simp (disch := decide) [headOf, valuesOf_fields]
  have optional : (flag "optional").Reads (headOf p ++ p.shape.fields) p.optional := by
    apply reads_flag
    simp (disch := decide) [headOf, valuesOf_fields]
  have description : (RecordDecoder.optional "description" Decode.text).Reads
      (headOf p ++ p.shape.fields) p.description := by
    apply reads_optional_text
    simp (disch := decide) [headOf, valuesOf_fields]
  have experimental : (flag "experimental").Reads (headOf p ++ p.shape.fields) p.experimental := by
    apply reads_flag
    simp (disch := decide) [headOf, valuesOf_fields]
  have deprecated : (flag "deprecated").Reads (headOf p ++ p.shape.fields) p.deprecated := by
    apply reads_flag
    simp (disch := decide) [headOf, valuesOf_fields]
  have reads : parameterFields.Reads (headOf p ++ p.shape.fields) fun shape =>
      ⟨p.name, p.optional, p.description, p.experimental, p.deprecated, shape⟩ :=
    ((((name.map _).seq optional).seq description).seq experimental).seq deprecated
  rw [parameterWith, encodeParameter_eq, withOthers_fields_eq_ok (whole_headOf p)
    (name_mem_of_mem_headOf p) (by decide) reads read]
  rfl

theorem decode_name (tag : Tag) : Tag.decode (.text tag.name) = .ok tag := by
  cases tag <;> rfl

theorem name_of_decode_text {text : String} {tag : Tag} (read : Tag.decode (.text text) = .ok tag) :
    tag.name = text := by
  simp only [Tag.decode] at read
  split at read
  · next found =>
    obtain rfl := Except.ok.inj read
    simpa using List.find?_some found
  · cases read

theorem asReference_eq_ok_iff {fields : Encode.Fields} (whole : ∀ f ∈ fields, Whole f.2)
    {shape : Shape} : asReference (.record fields) = .ok shape ↔
      ∃ target, (required "$ref" Decode.text).Reads fields target ∧ reference target = shape := by
  rw [asReference, byName_eq_ok_iff whole, reads_map_iff]

theorem asKnown_eq_ok_iff {fields : Encode.Fields} (whole : ∀ f ∈ fields, Whole f.2)
    {shape : Decoder Shape} {parameter : Decoder Parameter} {inner : Shape} :
    asKnown shape parameter (.record fields) = .ok inner ↔
      ∃ tag, (required "type" Tag.decode).Reads fields tag ∧
        (fieldsOf shape parameter tag).Reads fields inner := by
  simp only [asKnown, Except.bind_eq_ok_iff, byName_eq_ok_iff whole,
    decode_record_eq_ok_iff whole]

theorem decodeAt_eq_of_known (tag : Tag) {fields : Encode.Fields} (whole : ∀ f ∈ fields, Whole f.2)
    (targets : valuesOf "$ref" fields = []) {levels : Nat} {inner : Shape}
    (tags : valuesOf "type" fields = [.text tag.name])
    (reads :
      (fieldsOf (decodeAt levels) (parameterWith (decodeAt levels)) tag).Reads fields inner) :
    decodeAt (levels + 1) (.record fields) = .ok inner := by
  have known : asKnown (decodeAt levels) (parameterWith (decodeAt levels)) (.record fields) =
      .ok inner :=
    (asKnown_eq_ok_iff whole).mpr ⟨tag, reads_required tags (decode_name tag), reads⟩
  cases named : asReference (.record fields) with
  | ok shape =>
    obtain ⟨target, reads, -⟩ := (asReference_eq_ok_iff whole).mp named
    exact absurd reads (not_reads_required targets)
  | error e => simp only [decodeAt, named, known]

theorem decodeAt_eq_of_unfit {fields : Encode.Fields} (whole : ∀ f ∈ fields, Whole f.2)
    (targets : valuesOf "$ref" fields = []) {levels : Nat} {text : String}
    (tags : valuesOf "type" fields = [.text text])
    (unfit : ∀ tag : Tag, tag.name = text → ∀ inner,
      ¬(fieldsOf (decodeAt levels) (parameterWith (decodeAt levels)) tag).Reads fields inner) :
    decodeAt (levels + 1) (.record fields) = .ok (.unknown text) := by
  have unknown : asUnknown (.record fields) = .ok (.unknown text) := by
    have reads : (required "type" Decode.text).Reads fields text := reads_required tags rfl
    rw [asUnknown, byName_eq_ok_iff whole]
    exact reads.map unknown
  cases named : asReference (.record fields) with
  | ok shape =>
    obtain ⟨target, reads, -⟩ := (asReference_eq_ok_iff whole).mp named
    exact absurd reads (not_reads_required targets)
  | error e =>
    cases known : asKnown (decodeAt levels) (parameterWith (decodeAt levels)) (.record fields) with
    | ok inner =>
      obtain ⟨tag, tagged, reads⟩ := (asKnown_eq_ok_iff whole).mp known
      rw [required, reads_field_of_value tags] at tagged
      exact absurd reads (unfit tag (name_of_decode_text tagged) inner)
    | error e => simp only [decodeAt, named, known, unknown]

theorem reads_fieldsOf_bare {shape : Decoder Shape} {parameter : Decoder Parameter} {tag : Tag}
    (notArray : tag ≠ .array) :
    (fieldsOf shape parameter tag).Reads [("type", .text tag.name)] (ofTag tag.name) := by
  have absent {α : Type} {name : String} {decode : Decoder α} (other : "type" ≠ name) :
      (optional name decode).Reads [("type", .text tag.name)] none := by
    apply (reads_field_of_absent ?_).mpr rfl
    simp [other]
  cases tag with
  | array => exact absurd rfl notArray
  | object => exact (absent (by decide)).map _
  | string => exact (absent (by decide)).map _
  | integer | number | boolean | any => rfl

theorem decodeAt_bare (levels : Nat) (tag : String) :
    decodeAt (levels + 1) (.record [("type", .text tag)]) = .ok (ofTag tag) := by
  have whole : ∀ f ∈ [("type", Document.text tag)], Whole f.2 := List.forall_mem_singleton.mpr rfl
  have tags : valuesOf "type" [("type", .text tag)] = [.text tag] := by simp
  have targets : valuesOf "$ref" [("type", .text tag)] = [] := by simp
  by_cases bare : tag ∈ bareTags
  · obtain ⟨t, listed, rfl⟩ := List.mem_map.mp bare
    refine decodeAt_eq_of_known t whole targets tags (reads_fieldsOf_bare ?_)
    rintro rfl
    simp at listed
  · rw [ofTag_eq_unknown_iff.mpr bare]
    apply decodeAt_eq_of_unfit whole targets tags
    rintro t rfl inner reads
    -- The one tag that does not do alone is that of arrays, which need items.
    cases t with
    | array =>
      obtain ⟨_, _, reads, _⟩ := reads_seq_iff.mp reads
      obtain ⟨_, _, reads, _⟩ := reads_seq_iff.mp reads
      obtain ⟨_, reads, _⟩ := reads_map_iff.mp reads
      exact not_reads_required (by simp) reads
    | _ => exact bare (by decide)

theorem decodeAt_fields (levels : Nat) (shape : Shape)
    (deep : (Document.record shape.fields).depth < levels) :
    decodeAt levels (.record shape.fields) = .ok shape.settled := by
  -- The shapes inside take one level less, as their records are less deep.
  induction levels generalizing shape with
  | zero => exact absurd deep (Nat.not_lt_zero _)
  | succ levels ih =>
    have whole := whole_fields shape
    cases shape with
    | reference target =>
      have named : asReference (.record (reference target).fields) = .ok (reference target) :=
        (asReference_eq_ok_iff whole).mpr
          ⟨target, reads_text (by simp [fields]), rfl⟩
      simp only [decodeAt, named, settled]
    | array items minItems maxItems =>
      have member : ("items", Document.record items.fields) ∈
          (array items minItems maxItems).fields := by simp [fields]
      have shallow : (Document.record items.fields).depth <
          (Document.record (array items minItems maxItems).fields).depth :=
        depth_lt_of_mem_record member
      have inside := ih items (by omega)
      have read : (required "items" (decodeAt levels)).Reads
          (array items minItems maxItems).fields items.settled :=
        reads_required (by simp [fields]) inside
      have least : (optional "minItems" Decode.natural).Reads
          (array items minItems maxItems).fields minItems :=
        reads_optional_natural (by simp [fields])
      have most : (optional "maxItems" Decode.natural).Reads
          (array items minItems maxItems).fields maxItems :=
        reads_optional_natural (by simp [fields])
      exact decodeAt_eq_of_known .array whole (by simp [fields]) (by simp [fields, Tag.name])
        (((read.map _).seq least).seq most)
    | object properties =>
      cases properties with
      | none => exact decodeAt_bare levels "object"
      | some properties =>
        have listed : ("properties", Document.list (encodeParameters properties)) ∈
            (object (some properties)).fields := by simp [fields]
        have shallow : (Document.list (encodeParameters properties)).depth <
            (Document.record (object (some properties)).fields).depth :=
          depth_lt_of_mem_record listed
        have inside : ∀ p ∈ properties, parameterWith (decodeAt levels) (encodeParameter p) =
            .ok (p.mapShape settled) := by
          intro p member
          have encoded : encodeParameter p ∈ encodeParameters properties := by
            rw [encodeParameters_eq_map]
            exact List.mem_map_of_mem member
          have lower := depth_lt_of_mem_list encoded
          have own : (Document.record p.shape.fields).depth ≤ (encodeParameter p).depth := by
            rw [encodeParameter_eq, depth, depth, depthFields_append]
            omega
          exact parameterWith_encodeParameter (ih p.shape (by omega))
        have read : (optional "properties" (Decode.list (parameterWith (decodeAt levels)))).Reads
            (object (some properties)).fields (some (settledProperties properties)) := by
          have values : valuesOf "properties" (object (some properties)).fields =
              [Encode.list encodeParameter properties] := by
            simp [fields, encodeParameters_eq_map, Encode.list]
          rw [settledProperties_eq_map]
          exact (reads_field_of_value values).mpr (Decode.nullable_list_eq_ok inside)
        exact decodeAt_eq_of_known .object whole (by simp [fields])
          (by simp [fields, Tag.name]) (read.map _)
    | string values =>
      have read : (optional "enum" (Decode.list Decode.text)).Reads (string values).fields values :=
        reads_optional_texts (by simp [fields])
      exact decodeAt_eq_of_known .string whole (by simp [fields])
        (by simp [fields, Tag.name]) (read.map _)
    | integer | number | boolean | any => exact decodeAt_bare levels _
    | unknown tag => exact decodeAt_bare levels tag

theorem decode_fields (shape : Shape) : decode (.record shape.fields) = .ok shape.settled :=
  decodeAt_fields _ shape (Nat.lt_succ_self _)

end Shape
end SchemaTrace
