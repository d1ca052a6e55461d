import SchemaTrace.Proofs.Reference.Reading
import SchemaTrace.Report.Render

/-! Reports in JSON read back. Each is the text of a document from which the coverage, the
references or the comments are read as they were. -/

namespace SchemaTrace

open Document Document.RecordDecoder

theorem MemberCounts.whole_encode (c : MemberCounts) : ∀ f ∈ c.encode.recordFields, Whole f.2 := by
  simp only [MemberCounts.encode, recordFields, List.forall_mem_cons]
  exact ⟨rfl, rfl, rfl, rfl, List.forall_mem_nil _⟩

theorem MemberCounts.decode_encode (c : MemberCounts) : MemberCounts.decode c.encode = .ok c := by
  have domains : (required "domains" Decode.natural).Reads c.encode.recordFields c.domains :=
    reads_natural (by simp [MemberCounts.encode, recordFields])
  have commands : (required "commands" Decode.natural).Reads c.encode.recordFields c.commands :=
    reads_natural (by simp [MemberCounts.encode, recordFields])
  have events : (required "events" Decode.natural).Reads c.encode.recordFields c.events :=
    reads_natural (by simp [MemberCounts.encode, recordFields])
  have types : (required "types" Decode.natural).Reads c.encode.recordFields c.types :=
    reads_natural (by simp [MemberCounts.encode, recordFields])
  exact (decode_record_eq_ok_iff c.whole_encode).mpr
    ((((domains.map _).seq commands).seq events).seq types)

theorem Coverage.whole_encode (c : Coverage) : ∀ f ∈ c.encode.recordFields, Whole f.2 := by
  simp only [Coverage.encode, recordFields, List.forall_mem_cons]
  exact ⟨whole_text _, whole_record_iff.mpr c.total.whole_encode,
    whole_record_iff.mpr c.implemented.whole_encode, List.forall_mem_nil _⟩

theorem Coverage.decode_encode (c : Coverage) : Coverage.decode c.encode = .ok c := by
  have implementation : (required "implementation" Decode.text).Reads c.encode.recordFields
      c.implementation := reads_text (by simp [Coverage.encode, recordFields])
  have total : (required "protocol" MemberCounts.decode).Reads c.encode.recordFields c.total :=
    reads_required (by simp [Coverage.encode, recordFields]) c.total.decode_encode
  have implemented : (required "implemented" MemberCounts.decode).Reads c.encode.recordFields
      c.implemented :=
    reads_required (by simp [Coverage.encode, recordFields]) c.implemented.decode_encode
  exact (decode_record_eq_ok_iff c.whole_encode).mpr
    (((implementation.map _).seq total).seq implemented)

theorem Coverage.decode_encode_list (list : List Coverage) :
    Decode.list Coverage.decode (Encode.list Coverage.encode list) = .ok list := by
  rw [Decode.list_eq_ok (f := id) fun c _ => c.decode_encode, List.map_id]

namespace Report

/-- Every report in JSON is the text of a document that is read as what was reported. The two kinds
of reference are never confused: the attempt to read a comment succeeds for comments alone, whether
or not the file of a reference is known. -/
theorem json_read_back :
    (∀ implementation m verbose,
      references implementation m .json verbose = json m.encode ∧
        ReferenceMap.decode m.encode = .ok m) ∧
      (∀ index, comments index .json = json index.encode ∧
        Comment.Index.decode index.encode = .ok index) ∧
      (∀ list, coverages list .json = json (Encode.list Coverage.encode list) ∧
        Decode.list Coverage.decode (Encode.list Coverage.encode list) = .ok list) ∧
      ∀ r : Reference, Reference.decode r.encode = .ok r ∧
        ((∃ read, Reference.decodeComment r.encode = .ok read) ↔ r.isComment = true) := by
  refine ⟨fun implementation m verbose => ⟨rfl, m.decode_encode⟩,
    fun index => ⟨rfl, index.decode_encode⟩,
    fun list => ⟨rfl, Coverage.decode_encode_list list⟩, ?_⟩
  intro r
  exact ⟨r.decode_encode, r.decodeComment_encode_iff⟩

end Report
end SchemaTrace
