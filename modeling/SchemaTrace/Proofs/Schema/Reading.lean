import SchemaTrace.Proofs.Schema.ShapeReading

/-! Reading schemas from what was written for them, one kind of record after the other. -/

namespace SchemaTrace

open Document Document.RecordDecoder
open Shape (encodeParameter whole_encodeParameter)

namespace Schema

theorem decodeParameter_encode (p : Parameter) :
    decodeParameter (encodeParameter p) = .ok (p.mapShape Shape.settled) :=
  Shape.parameterWith_encodeParameter p.shape.decode_fields

theorem whole_encode_command (c : Command) : ∀ f ∈ c.encode.recordFields, Whole f.2 := by
  simp only [Command.encode, recordFields, List.forall_mem_append]
  exact ⟨⟨⟨⟨⟨⟨⟨whole_field (whole_text _), whole_optional_text⟩, whole_flag _⟩, whole_flag _⟩,
    whole_optional_list whole_encodeParameter⟩, whole_optional_list whole_encodeParameter⟩,
    whole_optional_text⟩, whole_flag _⟩

theorem decodeCommand_encode (c : Command) :
    decodeCommand c.encode = .ok (c.mapShapes Shape.settled) := by
  have name : (required "name" Decode.text).Reads c.encode.recordFields c.name :=
    reads_text (by simp [Command.encode, recordFields])
  have description : (optional "description" Decode.text).Reads c.encode.recordFields
      c.description := reads_optional_text (by simp [Command.encode, recordFields])
  have experimental : (flag "experimental").Reads c.encode.recordFields c.experimental :=
    reads_flag (by simp [Command.encode, recordFields])
  have deprecated : (flag "deprecated").Reads c.encode.recordFields c.deprecated :=
    reads_flag (by simp [Command.encode, recordFields])
  have parameters : (optional "parameters" (Decode.list decodeParameter)).Reads
      c.encode.recordFields (c.parameters.map (List.map (Property.mapShape Shape.settled))) :=
    reads_optional_list (by simp [Command.encode, recordFields]) decodeParameter_encode
  have returns : (optional "returns" (Decode.list decodeParameter)).Reads
      c.encode.recordFields (c.returns.map (List.map (Property.mapShape Shape.settled))) :=
    reads_optional_list (by simp [Command.encode, recordFields]) decodeParameter_encode
  have redirect : (optional "redirect" Decode.text).Reads c.encode.recordFields c.redirect :=
    reads_optional_text (by simp [Command.encode, recordFields])
  have asynchronous : (flag "async").Reads c.encode.recordFields c.asynchronous :=
    reads_flag (by simp [Command.encode, recordFields])
  exact (decode_record_eq_ok_iff (whole_encode_command c)).mpr
    ((((((((name.map _).seq description).seq experimental).seq deprecated).seq parameters).seq
      returns).seq redirect).seq asynchronous)

theorem whole_encode_event (e : Event) : ∀ f ∈ e.encode.recordFields, Whole f.2 := by
  simp only [Event.encode, recordFields, List.forall_mem_append]
  exact ⟨⟨⟨⟨whole_field (whole_text _), whole_optional_text⟩, whole_flag _⟩, whole_flag _⟩,
    whole_optional_list whole_encodeParameter⟩

theorem decodeEvent_encode (e : Event) :
    decodeEvent e.encode = .ok (e.mapShapes Shape.settled) := by
  have name : (required "name" Decode.text).Reads e.encode.recordFields e.name :=
    reads_text (by simp [Event.encode, recordFields])
  have description : (optional "description" Decode.text).Reads e.encode.recordFields
      e.description := reads_optional_text (by simp [Event.encode, recordFields])
  have experimental : (flag "experimental").Reads e.encode.recordFields e.experimental :=
    reads_flag (by simp [Event.encode, recordFields])
  have deprecated : (flag "deprecated").Reads e.encode.recordFields e.deprecated :=
    reads_flag (by simp [Event.encode, recordFields])
  have parameters : (optional "parameters" (Decode.list decodeParameter)).Reads
      e.encode.recordFields (e.parameters.map (List.map (Property.mapShape Shape.settled))) :=
    reads_optional_list (by simp [Event.encode, recordFields]) decodeParameter_encode
  exact (decode_record_eq_ok_iff (whole_encode_event e)).mpr
    (((((name.map _).seq description).seq experimental).seq deprecated).seq parameters)

def headOf (t : TypeDef) : Encode.Fields :=
  Encode.field "id" (.text t.id) ++ Encode.optional "description" .text t.description ++
    Encode.flag "experimental" t.experimental ++ Encode.flag "deprecated" t.deprecated

theorem whole_headOf (t : TypeDef) : ∀ f ∈ headOf t, Whole f.2 := by
  simp only [headOf, List.forall_mem_append]
  exact ⟨⟨⟨whole_field (whole_text _), whole_optional_text⟩, whole_flag _⟩, whole_flag _⟩

theorem name_mem_of_mem_headOf (t : TypeDef) : ∀ f ∈ headOf t, f.1 ∈ typeDefFields.names := by
  have known : ∀ f ∈ headOf t, f.1 ∈ ["id", "description", "experimental", "deprecated"] := by
    intro f member
    simp only [headOf, List.mem_append] at member
    obtain ((member | member) | member) | member := member
    · simp [List.mem_singleton.mp member]
    · simp [name_of_mem_optional f member]
    · simp [name_of_mem_flag _ f member]
    · simp [name_of_mem_flag _ f member]
  exact known

theorem whole_encode_typeDef (t : TypeDef) : Whole t.encode :=
  whole_record_iff.mpr (List.forall_mem_append.mpr ⟨whole_headOf t, t.shape.whole_fields⟩)

theorem decodeTypeDef_encode (t : TypeDef) :
    decodeTypeDef t.encode = .ok (t.mapShape Shape.settled) := by
  have id : (required "id" Decode.text).Reads (headOf t ++ t.shape.fields) t.id := by
    apply reads_text
    simp (disch := decide) [headOf, Shape.valuesOf_fields]
  have description : (optional "description" Decode.text).Reads (headOf t ++ t.shape.fields)
      t.description := by
    apply reads_optional_text
    simp (disch := decide) [headOf, Shape.valuesOf_fields]
  have experimental : (flag "experimental").Reads (headOf t ++ t.shape.fields)
      t.experimental := by
    apply reads_flag
    simp (disch := decide) [headOf, Shape.valuesOf_fields]
  have deprecated : (flag "deprecated").Reads (headOf t ++ t.shape.fields) t.deprecated := by
    apply reads_flag
    simp (disch := decide) [headOf, Shape.valuesOf_fields]
  have reads : typeDefFields.Reads (headOf t ++ t.shape.fields) fun shape =>
      ⟨t.id, t.description, t.experimental, t.deprecated, shape⟩ :=
    (((id.map _).seq description).seq experimental).seq deprecated
  have encoded : t.encode = .record (headOf t ++ t.shape.fields) := rfl
  rw [decodeTypeDef, encoded, Shape.withOthers_fields_eq_ok (whole_headOf t)
    (name_mem_of_mem_headOf t) (by decide) reads t.shape.decode_fields]
  rfl

theorem whole_encode_domain (d : Domain) : ∀ f ∈ d.encode.recordFields, Whole f.2 := by
  simp only [Domain.encode, recordFields, List.forall_mem_append]
  exact ⟨⟨⟨⟨⟨⟨⟨whole_field (whole_text _), whole_optional_text⟩, whole_flag _⟩, whole_flag _⟩,
    whole_optional_list whole_text⟩, whole_optional_list whole_encode_typeDef⟩,
    whole_optional_list fun c => whole_record_iff.mpr (whole_encode_command c)⟩,
    whole_optional_list fun e => whole_record_iff.mpr (whole_encode_event e)⟩

theorem decodeDomain_encode (d : Domain) :
    decodeDomain d.encode = .ok (d.mapShapes Shape.settled) := by
  have name : (required "domain" Decode.text).Reads d.encode.recordFields d.name :=
    reads_text (by simp [Domain.encode, recordFields])
  have description : (optional "description" Decode.text).Reads d.encode.recordFields
      d.description := reads_optional_text (by simp [Domain.encode, recordFields])
  have experimental : (flag "experimental").Reads d.encode.recordFields d.experimental :=
    reads_flag (by simp [Domain.encode, recordFields])
  have deprecated : (flag "deprecated").Reads d.encode.recordFields d.deprecated :=
    reads_flag (by simp [Domain.encode, recordFields])
  have dependencies : (optional "dependencies" (Decode.list Decode.text)).Reads
      d.encode.recordFields d.dependencies :=
    reads_optional_texts (by simp [Domain.encode, recordFields])
  have types : (optional "types" (Decode.list decodeTypeDef)).Reads d.encode.recordFields
      (d.types.map (List.map (TypeDef.mapShape Shape.settled))) :=
    reads_optional_list (by simp [Domain.encode, recordFields]) decodeTypeDef_encode
  have commands : (optional "commands" (Decode.list decodeCommand)).Reads d.encode.recordFields
      (d.commands.map (List.map (Command.mapShapes Shape.settled))) :=
    reads_optional_list (by simp [Domain.encode, recordFields]) decodeCommand_encode
  have events : (optional "events" (Decode.list decodeEvent)).Reads d.encode.recordFields
      (d.events.map (List.map (Event.mapShapes Shape.settled))) :=
    reads_optional_list (by simp [Domain.encode, recordFields]) decodeEvent_encode
  exact (decode_record_eq_ok_iff (whole_encode_domain d)).mpr
    ((((((((name.map _).seq description).seq experimental).seq deprecated).seq dependencies).seq
      types).seq commands).seq events)

theorem whole_encode_version (v : ProtocolVersion) : ∀ f ∈ v.encode.recordFields, Whole f.2 := by
  simp only [ProtocolVersion.encode, recordFields, List.forall_mem_cons]
  exact ⟨whole_text _, whole_text _, List.forall_mem_nil _⟩

theorem decodeVersion_encode (v : ProtocolVersion) : decodeVersion v.encode = .ok v := by
  have major : (required "major" Decode.text).Reads v.encode.recordFields v.major :=
    reads_text (by simp [ProtocolVersion.encode, recordFields])
  have minor : (required "minor" Decode.text).Reads v.encode.recordFields v.minor :=
    reads_text (by simp [ProtocolVersion.encode, recordFields])
  exact (decode_record_eq_ok_iff (whole_encode_version v)).mpr ((major.map _).seq minor)

theorem whole_encode (s : Schema) : ∀ f ∈ s.encode.recordFields, Whole f.2 := by
  simp only [Schema.encode, recordFields, List.forall_mem_append]
  exact ⟨whole_optional fun v _ => whole_record_iff.mpr (whole_encode_version v),
    whole_field (whole_list fun d _ => whole_record_iff.mpr (whole_encode_domain d))⟩

theorem decode_encode (s : Schema) : Schema.decode s.encode = .ok s.settled := by
  have versions : valuesOf "version" s.encode.recordFields =
      (s.version.map ProtocolVersion.encode).toList := by
    simp [Schema.encode, recordFields]
  have version : (optional "version" decodeVersion).Reads s.encode.recordFields s.version := by
    apply reads_optional_self versions
    intro v _
    change (decodeVersion v.encode).map some = _
    rw [decodeVersion_encode]
    rfl
  have lists : valuesOf "domains" s.encode.recordFields =
      [Encode.list Domain.encode s.domains] := by
    simp [Schema.encode, recordFields]
  have domains : (required "domains" (Decode.list decodeDomain)).Reads s.encode.recordFields
      (s.domains.map (Domain.mapShapes Shape.settled)) :=
    reads_required lists (Decode.list_eq_ok fun d _ => decodeDomain_encode d)
  exact (decode_record_eq_ok_iff (whole_encode s)).mpr ((version.map _).seq domains)

end Schema
end SchemaTrace
