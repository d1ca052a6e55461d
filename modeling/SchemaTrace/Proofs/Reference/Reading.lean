import SchemaTrace.Proofs.Document.Record
import SchemaTrace.Reference.Document

/-! References and comment indexes read from what was written for them. A comment holds the fields
of its location, so it could be read as a location as well; it is the attempt to read a comment,
made first, that tells the two kinds of reference apart. -/

namespace SchemaTrace

open Document Document.RecordDecoder

theorem SourceFile.whole_encode (s : SourceFile) : ∀ f ∈ s.encode.recordFields, Whole f.2 := by
  simp only [SourceFile.encode, recordFields, List.forall_mem_cons]
  exact ⟨whole_text _, whole_text _, whole_text _, whole_text _, List.forall_mem_nil _⟩

theorem SourceFile.decode_encode (s : SourceFile) :
    SourceFile.fields.decode s.encode = .ok s := by
  have owner : (required "owner" Decode.text).Reads s.encode.recordFields s.owner :=
    reads_text (by simp [SourceFile.encode, recordFields])
  have repo : (required "repo" Decode.text).Reads s.encode.recordFields s.repo :=
    reads_text (by simp [SourceFile.encode, recordFields])
  have commit : (required "commitSha" Decode.text).Reads s.encode.recordFields s.commit :=
    reads_text (by simp [SourceFile.encode, recordFields])
  have path : (required "path" Decode.text).Reads s.encode.recordFields s.path :=
    reads_text (by simp [SourceFile.encode, recordFields])
  apply (decode_record_eq_ok_iff s.whole_encode).mpr
  exact (((owner.map _).seq repo).seq commit).seq path

namespace Location

theorem whole_encodeFields (l : Location) : ∀ f ∈ l.encodeFields, Whole f.2 := by
  simp only [encodeFields, List.forall_mem_append, List.forall_mem_cons]
  exact ⟨whole_optional fun s _ => whole_record_iff.mpr s.whole_encode, rfl, rfl,
    List.forall_mem_nil _⟩

theorem name_mem_of_mem_encodeFields (l : Location) :
    ∀ f ∈ l.encodeFields, f.1 ∈ Location.fields.names := by
  have known : ∀ f ∈ l.encodeFields, f.1 ∈ ["source", "line", "column"] := by
    simp only [encodeFields, List.forall_mem_append, List.forall_mem_cons]
    refine ⟨fun f member => ?_, by simp, by simp, List.forall_mem_nil _⟩
    simp [name_of_mem_optional f member]
  exact known

theorem valuesOf_encodeFields (l : Location) {name : String}
    (foreign : name ∉ Location.fields.names) : valuesOf name l.encodeFields = [] :=
  valuesOf_eq_nil fun f member eq => foreign (eq ▸ l.name_mem_of_mem_encodeFields f member)

/-- A location is read from its own fields, whatever fields of other names stand behind them. -/
theorem reads_encodeFields (l : Location) {others : Encode.Fields}
    (foreign : ∀ f ∈ others, f.1 ∉ Location.fields.names) :
    Location.fields.Reads (l.encodeFields ++ others) l := by
  have none {name : String} (own : name ∈ Location.fields.names) : valuesOf name others = [] :=
    valuesOf_eq_nil fun f member eq => foreign f member (eq ▸ own)
  have source : (optional "source" SourceFile.fields.decode).Reads (l.encodeFields ++ others)
      l.source := by
    have values : valuesOf "source" (l.encodeFields ++ others) =
        (l.source.map SourceFile.encode).toList := by
      simp (disch := decide) [encodeFields, none]
    apply reads_optional_self values
    intro s _
    change (SourceFile.fields.decode s.encode).map some = _
    rw [s.decode_encode]
    rfl
  have line : (required "line" Decode.natural).Reads (l.encodeFields ++ others) l.position.line :=
    reads_natural (by simp (disch := decide) [encodeFields, none])
  have column : (required "column" Decode.natural).Reads (l.encodeFields ++ others)
      l.position.column := reads_natural (by simp (disch := decide) [encodeFields, none])
  exact ((source.map _).seq line).seq column

theorem reads_own_fields (l : Location) : Location.fields.Reads l.encodeFields l := by
  have reads : Location.fields.Reads (l.encodeFields ++ []) l :=
    l.reads_encodeFields (List.forall_mem_nil _)
  rwa [List.append_nil] at reads

end Location

namespace Reference

def proseFields (text : String) (contentful : Bool) : Encode.Fields :=
  [("comment", .text text), ("isContentfulComment", .bool contentful)]

theorem name_mem_of_mem_proseFields (text : String) (contentful : Bool) :
    ∀ f ∈ proseFields text contentful, f.1 ∈ commentFields.names := by
  have known : ∀ f ∈ proseFields text contentful, f.1 ∈ ["comment", "isContentfulComment"] := by
    simp [proseFields]
  exact known

theorem not_mem_commentFields_names :
    ∀ name ∈ Location.fields.names, name ∉ commentFields.names := by decide

theorem whole_comment (l : Location) (text : String) (contentful : Bool) :
    ∀ f ∈ l.encodeFields ++ proseFields text contentful, Whole f.2 :=
  List.forall_mem_append.mpr ⟨l.whole_encodeFields,
    List.forall_mem_cons.mpr ⟨whole_text _, List.forall_mem_singleton.mpr rfl⟩⟩

theorem whole_encode (r : Reference) : Whole r.encode := by
  cases r with
  | comment l text contentful => exact whole_record_iff.mpr (whole_comment l text contentful)
  | occurrence l => exact whole_record_iff.mpr l.whole_encodeFields

theorem decodeLocation_encode (r : Reference) :
    Location.fields.decode r.encode = .ok r.location := by
  cases r with
  | comment l text contentful =>
    apply (decode_record_eq_ok_iff (whole_comment l text contentful)).mpr
    apply l.reads_encodeFields
    intro f member own
    exact not_mem_commentFields_names f.1 own (name_mem_of_mem_proseFields text contentful f member)
  | occurrence l => exact (decode_record_eq_ok_iff l.whole_encodeFields).mpr l.reads_own_fields

theorem decodeComment_encode_comment (l : Location) (text : String) (contentful : Bool) :
    decodeComment (encode (.comment l text contentful)) = .ok (.comment l text contentful) := by
  have prose : (required "comment" Decode.text).Reads
      (l.encodeFields ++ proseFields text contentful) text := by
    apply reads_text
    simp (disch := decide) [proseFields, Location.valuesOf_encodeFields]
  have flag : (required "isContentfulComment" Decode.bool).Reads
      (l.encodeFields ++ proseFields text contentful) contentful := by
    apply reads_bool
    simp (disch := decide) [proseFields, Location.valuesOf_encodeFields]
  -- The location is made up of the fields that are not those of the prose.
  have left : (l.encodeFields ++ proseFields text contentful).filter
      (fun f => f.1 ∉ commentFields.names) = l.encodeFields := by
    have own : l.encodeFields.filter (fun f => f.1 ∉ commentFields.names) = l.encodeFields := by
      apply List.filter_eq_self.mpr
      intro f member
      exact decide_eq_true
        (not_mem_commentFields_names f.1 (l.name_mem_of_mem_encodeFields f member))
    have none : (proseFields text contentful).filter (fun f => f.1 ∉ commentFields.names) = [] := by
      apply List.filter_eq_nil_iff.mpr
      intro f member
      simpa using name_mem_of_mem_proseFields text contentful f member
    rw [List.filter_append, own, none, List.append_nil]
  have inside : Location.fields.ofFields ((l.encodeFields ++ proseFields text contentful).filter
      fun f => f.1 ∉ commentFields.names) = .ok l := by
    rw [left]
    exact (ofFields_eq_ok_iff l.whole_encodeFields).mpr l.reads_own_fields
  have encoded : encode (.comment l text contentful) =
      .record (l.encodeFields ++ proseFields text contentful) := rfl
  have read := withOthers_eq_ok (whole_comment l text contentful) ((prose.map _).seq flag) inside
  rw [decodeComment, encoded, commentFields, read]
  rfl

theorem decodeComment_encode_occurrence (l : Location) (r : Reference) :
    decodeComment (encode (.occurrence l)) ≠ .ok r := by
  intro read
  obtain ⟨⟨make, location⟩, read, -⟩ := Except.map_eq_ok_iff.mp read
  obtain ⟨flagged, contentful, prose, -⟩ := reads_seq_iff.mp (reads_of_withOthers_eq_ok read)
  obtain ⟨text, prose, -⟩ := reads_map_iff.mp prose
  exact not_reads_required (l.valuesOf_encodeFields (by decide)) prose

theorem decodeComment_encode_iff (r : Reference) :
    (∃ read, decodeComment r.encode = .ok read) ↔ r.isComment = true := by
  cases r with
  | comment l text contentful =>
    exact iff_of_true ⟨_, decodeComment_encode_comment l text contentful⟩ rfl
  | occurrence l =>
    apply iff_of_false
    · rintro ⟨read, eq⟩
      exact decodeComment_encode_occurrence l read eq
    · exact Bool.false_ne_true

/-- A document that can be read as a whole is a comment if the first attempt succeeds. -/
theorem decode_of_whole {doc : Document} (whole : Whole doc) :
    decode doc = match decodeComment doc with
      | .ok r => .ok r
      | .error _ => (Location.fields.decode doc).map .occurrence := by
  rw [decode, whole]
  rfl

theorem decode_encode (r : Reference) : decode r.encode = .ok r := by
  rw [decode_of_whole r.whole_encode]
  cases r with
  | comment l text contentful => rw [decodeComment_encode_comment]
  | occurrence l =>
    cases read : decodeComment (encode (.occurrence l)) with
    | ok r => exact absurd read (decodeComment_encode_occurrence l r)
    | error e =>
      simp only [decodeLocation_encode]
      rfl

end Reference

namespace ReferenceMap

theorem whole_encodeList (l : ReferenceList) : Whole (encodeList l) :=
  whole_map fun _ => whole_list fun r _ => r.whole_encode

theorem decodeList_encodeList (l : ReferenceList) : decodeList (encodeList l) = .ok l := by
  apply Decode.map_eq_ok
  intro references
  rw [Decode.list_eq_ok (f := id) fun r _ => r.decode_encode, List.map_id]

theorem whole_encode (m : ReferenceMap) : ∀ f ∈ m.encode.recordFields, Whole f.2 := by
  simp only [encode, recordFields, List.forall_mem_cons]
  exact ⟨whole_encodeList _, whole_encodeList _, whole_encodeList _, List.forall_mem_nil _⟩

theorem decode_encode (m : ReferenceMap) : decode m.encode = .ok m := by
  have commands : (required "commands" decodeList).Reads m.encode.recordFields m.commands :=
    reads_required (by simp [encode, recordFields]) (decodeList_encodeList m.commands)
  have events : (required "events" decodeList).Reads m.encode.recordFields m.events :=
    reads_required (by simp [encode, recordFields]) (decodeList_encodeList m.events)
  have types : (required "types" decodeList).Reads m.encode.recordFields m.types :=
    reads_required (by simp [encode, recordFields]) (decodeList_encodeList m.types)
  exact (decode_record_eq_ok_iff m.whole_encode).mpr (((commands.map _).seq events).seq types)

end ReferenceMap

namespace Comment

namespace Annotation

theorem whole_encode (a : Annotation) : ∀ f ∈ a.encode.recordFields, Whole f.2 := by
  simp only [encode, recordFields, List.forall_mem_cons]
  exact ⟨rfl, rfl, whole_text _, rfl, List.forall_mem_nil _⟩

theorem decode_encode (a : Annotation) : decode a.encode = .ok a := by
  have line : (required "line" Decode.natural).Reads a.encode.recordFields a.position.line :=
    reads_natural (by simp [encode, recordFields])
  have column : (required "column" Decode.natural).Reads a.encode.recordFields
      a.position.column := reads_natural (by simp [encode, recordFields])
  have prose : (required "cleanedText" Decode.text).Reads a.encode.recordFields a.text :=
    reads_text (by simp [encode, recordFields])
  have contentful : (required "hasAdditionalContent" Decode.bool).Reads a.encode.recordFields
      a.contentful := reads_bool (by simp [encode, recordFields])
  exact (decode_record_eq_ok_iff a.whole_encode).mpr
    ((((line.map _).seq column).seq prose).seq contentful)

end Annotation

namespace FileAnnotation

theorem whole_encode (a : FileAnnotation) : ∀ f ∈ a.encode.recordFields, Whole f.2 := by
  simp only [encode, recordFields, List.forall_mem_cons]
  exact ⟨whole_record_iff.mpr a.source.whole_encode, whole_record_iff.mpr a.comment.whole_encode,
    List.forall_mem_nil _⟩

theorem decode_encode (a : FileAnnotation) : decode a.encode = .ok a := by
  have source : (required "source" SourceFile.fields.decode).Reads a.encode.recordFields
      a.source :=
    reads_required (by simp [encode, recordFields]) a.source.decode_encode
  have comment : (required "comment" Annotation.decode).Reads a.encode.recordFields a.comment :=
    reads_required (by simp [encode, recordFields]) a.comment.decode_encode
  exact (decode_record_eq_ok_iff a.whole_encode).mpr ((source.map _).seq comment)

end FileAnnotation

theorem Index.decode_encode (index : Index) : Index.decode index.encode = .ok index := by
  apply Decode.map_eq_ok
  intro found
  rw [Decode.list_eq_ok (f := id) fun a _ => a.decode_encode, List.map_id]

end Comment
end SchemaTrace
