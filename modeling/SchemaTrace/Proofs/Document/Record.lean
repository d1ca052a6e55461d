import SchemaTrace.Document.Decode
import SchemaTrace.Document.Encode
import SchemaTrace.Proofs.Except
import SchemaTrace.Proofs.SortedMap.Lookup

/-! Reading records. What a record decoder reads by name depends, for each of its fields, on the
values that stand under the field's name. -/

namespace SchemaTrace

namespace Document

/-- All of a document can be read, and it stands for itself. -/
def Whole (doc : Document) : Prop := content doc = .ok doc

theorem contentItems_eq_self_iff {items : List Document} :
    contentItems items = .ok items ↔ ∀ item ∈ items, Whole item := by
  induction items with
  | nil => simp [contentItems]
  | cons item rest ih =>
    simp only [contentItems, Except.bind_eq_ok_iff, List.forall_mem_cons, ← ih]
    constructor
    · intro given
      rcases given with ⟨item', first, rest', others, eq⟩
      obtain ⟨rfl, rfl⟩ := List.cons.inj (Except.ok.inj eq)
      exact ⟨first, others⟩
    · intro given
      exact ⟨item, given.1, rest, given.2, rfl⟩

theorem contentFields_eq_self_iff {fields : List (String × Document)} :
    contentFields fields = .ok fields ↔ ∀ f ∈ fields, Whole f.2 := by
  induction fields with
  | nil => simp [contentFields]
  | cons f rest ih =>
    obtain ⟨name, value⟩ := f
    simp only [contentFields, Except.bind_eq_ok_iff, List.forall_mem_cons, ← ih]
    constructor
    · intro given
      rcases given with ⟨value', first, rest', others, eq⟩
      obtain ⟨head, rfl⟩ := List.cons.inj (Except.ok.inj eq)
      obtain ⟨-, rfl⟩ := Prod.mk.inj head
      exact ⟨first, others⟩
    · intro given
      exact ⟨value, given.1, rest, given.2, rfl⟩

theorem whole_list_iff {items : List Document} :
    Whole (.list items) ↔ ∀ item ∈ items, Whole item := by
  rw [← contentItems_eq_self_iff, Whole, content]
  cases contentItems items <;> simp [Except.map]

theorem whole_record_iff {fields : List (String × Document)} :
    Whole (.record fields) ↔ ∀ f ∈ fields, Whole f.2 := by
  rw [← contentFields_eq_self_iff, Whole, content]
  cases contentFields fields <;> simp [Except.map]

/-! What is written is whole if the values in it are. -/

theorem whole_field {name : String} {value : Document} (whole : Whole value) :
    ∀ f ∈ Encode.field name value, Whole f.2 :=
  List.forall_mem_singleton.mpr whole

theorem whole_optional {α : Type} {name : String} {encode : α → Document} {value : Option α}
    (whole : ∀ a ∈ value, Whole (encode a)) :
    ∀ f ∈ Encode.optional name encode value, Whole f.2 := by
  cases value with
  | none => exact List.forall_mem_nil _
  | some a => exact List.forall_mem_singleton.mpr (whole a rfl)

theorem whole_flag {name : String} (value : Bool) : ∀ f ∈ Encode.flag name value, Whole f.2 := by
  cases value with
  | false => exact List.forall_mem_nil _
  | true => exact List.forall_mem_singleton.mpr rfl

theorem whole_list {α : Type} {encode : α → Document} {list : List α}
    (whole : ∀ a ∈ list, Whole (encode a)) : Whole (Encode.list encode list) :=
  whole_list_iff.mpr (List.forall_mem_map.mpr whole)

theorem whole_map {α : Type} {encode : α → Document} {m : SortedMap α}
    (whole : ∀ a, Whole (encode a)) : Whole (Encode.map encode m) :=
  whole_record_iff.mpr (List.forall_mem_map.mpr fun e _ => whole e.2)

theorem whole_text (s : String) : Whole (.text s) := rfl

theorem whole_optional_text {name : String} {held : Option String} :
    ∀ f ∈ Encode.optional name .text held, Whole f.2 :=
  whole_optional fun s _ => whole_text s

theorem whole_optional_list {α : Type} {name : String} {encode : α → Document}
    {held : Option (List α)} (whole : ∀ a, Whole (encode a)) :
    ∀ f ∈ Encode.optional name (Encode.list encode) held, Whole f.2 :=
  whole_optional fun _ _ => whole_list fun a _ => whole a

mutual

theorem skip_of_content : ∀ doc doc' : Document, content doc = .ok doc' → skip doc = .ok ()
  | .list items, _, read => by
    simp only [content] at read
    cases inside : contentItems items with
    | error e => simp [inside, Except.map] at read
    | ok items' => exact skipItems_of_content items items' inside
  | .record fields, _, read => by
    simp only [content] at read
    cases inside : contentFields fields with
    | error e => simp [inside, Except.map] at read
    | ok fields' => exact skipFields_of_content fields fields' inside
  | .flawed _ _, _, read => by cases read
  | .broken _, _, read => by cases read
  | .null, _, _ | .bool _, _, _ | .natural _, _, _ | .fraction _, _, _ | .text _, _, _
  | .plain _ _, _, _ => rfl

theorem skipItems_of_content : ∀ items items' : List Document, contentItems items = .ok items' →
    skipItems items = .ok ()
  | [], _, _ => rfl
  | item :: rest, _, read => by
    simp only [contentItems, Except.bind_eq_ok_iff] at read
    obtain ⟨item', first, rest', others, -⟩ := read
    rw [skipItems, skip_of_content item item' first]
    exact skipItems_of_content rest rest' others

theorem skipFields_of_content : ∀ fields fields' : List (String × Document),
    contentFields fields = .ok fields' → skipFields fields = .ok ()
  | [], _, _ => rfl
  | (_, value) :: rest, _, read => by
    simp only [contentFields, Except.bind_eq_ok_iff] at read
    obtain ⟨value', first, rest', others, -⟩ := read
    rw [skipFields, skip_of_content value value' first]
    exact skipFields_of_content rest rest' others

end

def recordFields : Document → List (String × Document)
  | .record fields => fields
  | _ => []

def valuesOf (name : String) (fields : List (String × Document)) : List Document :=
  (fields.filter fun f => f.1 = name).map (·.2)

theorem map_snd_occurrences (name : String) (position : Nat) (fields : List (String × Document)) :
    (occurrences name position fields).map (·.2) = valuesOf name fields := by
  induction fields generalizing position with
  | nil => rfl
  | cons f rest ih =>
    obtain ⟨key, value⟩ := f
    by_cases same : key = name
    · simpa [occurrences, valuesOf, same] using ih (position + 1)
    · simpa [occurrences, valuesOf, same] using ih (position + 1)

@[simp] theorem valuesOf_append (name : String) (a b : List (String × Document)) :
    valuesOf name (a ++ b) = valuesOf name a ++ valuesOf name b := by
  simp [valuesOf]

@[simp] theorem valuesOf_nil (name : String) : valuesOf name [] = [] := rfl

@[simp] theorem valuesOf_cons (name key : String) (value : Document)
    (rest : List (String × Document)) : valuesOf name ((key, value) :: rest) =
      (if key = name then [value] else []) ++ valuesOf name rest := by
  by_cases same : key = name <;> simp [valuesOf, same]

@[simp] theorem valuesOf_field (name key : String) (value : Document) :
    valuesOf name (Encode.field key value) = if key = name then [value] else [] := by
  rw [Encode.field, valuesOf_cons, valuesOf_nil, List.append_nil]

@[simp] theorem valuesOf_optional {α : Type} (name key : String) (encode : α → Document)
    (value : Option α) : valuesOf name (Encode.optional key encode value) =
      if key = name then (value.map encode).toList else [] := by
  cases value with
  | none => simp [Encode.optional, valuesOf_nil]
  | some a => simp [Encode.optional, valuesOf_cons, valuesOf_nil]

@[simp] theorem valuesOf_flag (name key : String) (value : Bool) :
    valuesOf name (Encode.flag key value) =
      if key = name then (if value then [.bool true] else []) else [] := by
  cases value <;> simp [Encode.flag, valuesOf_cons, valuesOf_nil]

theorem valuesOf_eq_nil {name : String} {fields : List (String × Document)}
    (foreign : ∀ f ∈ fields, f.1 ≠ name) : valuesOf name fields = [] := by
  rw [valuesOf, List.map_eq_nil_iff, List.filter_eq_nil_iff]
  intro f member
  simpa using foreign f member

theorem name_of_mem_optional {α : Type} {name : String} {encode : α → Document}
    {value : Option α} : ∀ f ∈ Encode.optional name encode value, f.1 = name := by
  cases value with
  | none => exact List.forall_mem_nil _
  | some a => exact List.forall_mem_singleton.mpr rfl

theorem name_of_mem_flag {name : String} (value : Bool) :
    ∀ f ∈ Encode.flag name value, f.1 = name := by
  cases value with
  | false => exact List.forall_mem_nil _
  | true => exact List.forall_mem_singleton.mpr rfl

namespace Checked

variable {α β : Type}

theorem both_eq_ok_iff {x : Checked α} {y : Checked β} {a : α} {b : β} :
    both x y = .ok (a, b) ↔ x = .ok a ∧ y = .ok b := by
  cases x <;> cases y <;> simp [both]

theorem toExcept_eq_ok_iff {x : Checked α} {a : α} : x.toExcept = .ok a ↔ x = .ok a := by
  cases x <;> simp [toExcept]

end Checked

theorem Decode.items_map {α β : Type} {decode : Decoder α} {encode : β → Document} {f : β → α}
    {list : List β} (reads : ∀ b ∈ list, decode (encode b) = .ok (f b)) :
    Decode.items decode (list.map encode) = .ok (list.map f) := by
  induction list with
  | nil => rfl
  | cons b rest ih =>
    obtain ⟨first, others⟩ := List.forall_mem_cons.mp reads
    rw [List.map_cons, Decode.items, first, ih others]
    rfl

theorem Decode.list_eq_ok {α β : Type} {decode : Decoder α} {encode : β → Document} {f : β → α}
    {list : List β} (reads : ∀ b ∈ list, decode (encode b) = .ok (f b)) :
    Decode.list decode (Encode.list encode list) = .ok (list.map f) :=
  Decode.items_map reads

theorem Decode.entries_map {α β : Type} {decode : Decoder α} {encode : β → Document} {f : β → α}
    {entries : List (String × β)} (reads : ∀ b, decode (encode b) = .ok (f b)) :
    Decode.entries decode (entries.map fun (key, b) => (key, encode b)) =
      .ok (entries.map fun (key, b) => (key, f b)) := by
  induction entries with
  | nil => rfl
  | cons e rest ih =>
    rw [List.map_cons, Decode.entries, reads, ih]
    rfl

theorem Decode.map_eq_ok {α : Type} {decode : Decoder α} {encode : α → Document}
    (reads : ∀ a, decode (encode a) = .ok a) (m : SortedMap α) :
    Decode.map decode (Encode.map encode m) = .ok m := by
  have each : ∀ a, decode (encode a) = .ok (id a) := reads
  rw [Encode.map, Decode.map, Decode.entries_map each]
  have entries : (m.toList.map fun (key, a) => (key, id a)) = m.toList := List.map_id' _
  rw [entries, Except.map, SortedMap.ofList_toList]

theorem Decode.nullable_list_eq_ok {α β : Type} {decode : Decoder α} {encode : β → Document}
    {f : β → α} {list : List β} (reads : ∀ b ∈ list, decode (encode b) = .ok (f b)) :
    Decode.nullable (Decode.list decode) (Encode.list encode list) = .ok (some (list.map f)) := by
  change (Decode.list decode (Encode.list encode list)).map some = _
  rw [Decode.list_eq_ok reads]
  rfl

theorem Decode.nullable_texts (list : List String) :
    Decode.nullable (Decode.list Decode.text) (Encode.list .text list) = .ok (some list) := by
  have read : ∀ s ∈ list, Decode.text (.text s) = .ok (id s) := fun _ _ => rfl
  rw [Decode.nullable_list_eq_ok read, List.map_id]

namespace RecordDecoder

variable {α β : Type} {fields : List (String × Document)} {r : RecordDecoder α} {a : α}

/-- The fields that the decoder knows are read by name, with this result. -/
def Reads (r : RecordDecoder α) (fields : List (String × Document)) (a : α) : Prop :=
  r.named fields = .ok a

theorem reads_map_iff {f : α → β} {b : β} :
    (f <$> r).Reads fields b ↔ ∃ a, r.Reads fields a ∧ f a = b := by
  change (r.named fields).map f = .ok b ↔ ∃ a, r.named fields = .ok a ∧ f a = b
  cases r.named fields <;> simp [Except.map]

theorem reads_seq_iff {r : RecordDecoder (α → β)} {s : RecordDecoder α} {b : β} :
    (r <*> s).Reads fields b ↔ ∃ f a, r.Reads fields f ∧ s.Reads fields a ∧ f a = b := by
  change (Checked.both (r.named fields) (s.named fields)).map (fun both => both.1 both.2) = .ok b ↔
    ∃ f a, r.named fields = .ok f ∧ s.named fields = .ok a ∧ f a = b
  cases r.named fields <;> cases s.named fields <;> simp [Except.map, Checked.both]

theorem Reads.map (reads : r.Reads fields a) (f : α → β) : (f <$> r).Reads fields (f a) :=
  reads_map_iff.mpr ⟨a, reads, rfl⟩

theorem Reads.seq {r : RecordDecoder (α → β)} {s : RecordDecoder α} {f : α → β}
    (first : r.Reads fields f) (second : s.Reads fields a) : (r <*> s).Reads fields (f a) :=
  reads_seq_iff.mpr ⟨f, a, first, second, rfl⟩

section Field

variable {name : String} {decode : Decoder α} {absent : Except DecodeError α}

theorem reads_field_of_value {value : Document} (values : valuesOf name fields = [value]) :
    (field name decode absent).Reads fields a ↔ decode value = .ok a := by
  rw [← map_snd_occurrences name 0] at values
  simp only [Reads, field]
  split
  · next none => simp [none] at values
  · next position value' one =>
    obtain rfl : value' = value := by simpa [one] using values
    cases decode value' <;> simp [Checked.ofExcept]
  · next more => simp [more] at values

theorem reads_field_of_absent (values : valuesOf name fields = []) :
    (field name decode absent).Reads fields a ↔ absent = .ok a := by
  rw [← map_snd_occurrences name 0, List.map_eq_nil_iff] at values
  simp only [Reads, field, values]
  cases absent <;> simp [Checked.ofExcept]

theorem reads_required {value : Document} (values : valuesOf name fields = [value])
    (reads : decode value = .ok a) : (required name decode).Reads fields a :=
  (reads_field_of_value values).mpr reads

theorem not_reads_required (values : valuesOf name fields = []) :
    ¬(required name decode).Reads fields a := by
  rw [required, reads_field_of_absent values]
  simp

theorem reads_optional {encode : β → Document} {value : Option β} {f : β → α}
    (values : valuesOf name fields = (value.map encode).toList)
    (reads : ∀ b ∈ value, Decode.nullable decode (encode b) = .ok (some (f b))) :
    (optional name decode).Reads fields (value.map f) := by
  cases value with
  | none => exact (reads_field_of_absent values).mpr rfl
  | some b => exact (reads_field_of_value values).mpr (reads b rfl)

theorem reads_optional_self {encode : α → Document} {value : Option α}
    (values : valuesOf name fields = (value.map encode).toList)
    (reads : ∀ b ∈ value, Decode.nullable decode (encode b) = .ok (some b)) :
    (optional name decode).Reads fields value := by
  simpa using reads_optional (f := id) values reads

theorem reads_flag {b : Bool} (values : valuesOf name fields = if b then [.bool true] else []) :
    (flag name).Reads fields b := by
  cases b with
  | false => exact (reads_field_of_absent values).mpr rfl
  | true => exact (reads_field_of_value values).mpr rfl

end Field

section Written

variable {name : String}

theorem reads_text {s : String} (values : valuesOf name fields = [.text s]) :
    (required name Decode.text).Reads fields s :=
  reads_required values rfl

theorem reads_natural {n : Nat} (values : valuesOf name fields = [.natural n]) :
    (required name Decode.natural).Reads fields n :=
  reads_required values rfl

theorem reads_bool {b : Bool} (values : valuesOf name fields = [.bool b]) :
    (required name Decode.bool).Reads fields b :=
  reads_required values rfl

theorem reads_optional_text {held : Option String}
    (values : valuesOf name fields = (held.map Document.text).toList) :
    (optional name Decode.text).Reads fields held :=
  reads_optional_self values fun _ _ => rfl

theorem reads_optional_natural {held : Option Nat}
    (values : valuesOf name fields = (held.map Document.natural).toList) :
    (optional name Decode.natural).Reads fields held :=
  reads_optional_self values fun _ _ => rfl

theorem reads_optional_texts {held : Option (List String)}
    (values : valuesOf name fields = (held.map (Encode.list .text)).toList) :
    (optional name (Decode.list Decode.text)).Reads fields held :=
  reads_optional_self values fun list _ => Decode.nullable_texts list

theorem reads_optional_list {decode : Decoder α} {encode : β → Document} {f : β → α}
    {held : Option (List β)}
    (values : valuesOf name fields = (held.map (Encode.list encode)).toList)
    (reads : ∀ b, decode (encode b) = .ok (f b)) :
    (optional name (Decode.list decode)).Reads fields (held.map (List.map f)) :=
  reads_optional values fun _ _ => Decode.nullable_list_eq_ok fun b _ => reads b

end Written

theorem skipOthers_eq_ok (names : List String) (position : Nat)
    (whole : ∀ f ∈ fields, Whole f.2) : skipOthers names position fields = .ok () := by
  induction fields generalizing position with
  | nil => rfl
  | cons f rest ih =>
    obtain ⟨key, value⟩ := f
    obtain ⟨first, others⟩ := List.forall_mem_cons.mp whole
    simp only [skipOthers]
    split
    · exact ih _ others
    · split
      · next inner => cases first
      · rw [skip_of_content value value first]
        exact ih _ others

theorem others_eq_ok (names : List String) (position : Nat) (whole : ∀ f ∈ fields, Whole f.2) :
    others names position fields = .ok (fields.filter fun f => f.1 ∉ names) := by
  induction fields generalizing position with
  | nil => rfl
  | cons f rest ih =>
    obtain ⟨key, value⟩ := f
    obtain ⟨first, others⟩ := List.forall_mem_cons.mp whole
    have first : content value = .ok value := first
    by_cases known : key ∈ names
    · simp [RecordDecoder.others, known, ih _ others]
    · have stays : ((key, value) :: rest).filter (fun f => f.1 ∉ names) =
          (key, value) :: rest.filter fun f => f.1 ∉ names := by simp [known]
      rw [RecordDecoder.others, if_neg known, first, ih _ others, stays]
      rfl

theorem ofFields_eq_ok_iff (whole : ∀ f ∈ fields, Whole f.2) :
    r.ofFields fields = .ok a ↔ r.Reads fields a := by
  rw [ofFields, skipOthers_eq_ok r.names 0 whole, Reads]
  cases r.named fields <;> simp [Checked.both, Checked.toExcept, Except.map]

theorem byName_eq_ok_iff (whole : ∀ f ∈ fields, Whole f.2) :
    r.byName (.record fields) = .ok a ↔ r.Reads fields a :=
  ofFields_eq_ok_iff whole

theorem decode_record_eq_ok_iff (whole : ∀ f ∈ fields, Whole f.2) :
    r.decode (.record fields) = .ok a ↔ r.Reads fields a :=
  ofFields_eq_ok_iff whole

theorem withOthers_eq_ok {rest : List (String × Document) → Except DecodeError β} {b : β}
    (whole : ∀ f ∈ fields, Whole f.2) (reads : r.Reads fields a)
    (read : rest (fields.filter fun f => f.1 ∉ r.names) = .ok b) :
    r.withOthers rest (.record fields) = .ok (a, b) := by
  have both : Checked.both (r.named fields) (others r.names 0 fields) =
      .ok (a, fields.filter fun f => f.1 ∉ r.names) :=
    Checked.both_eq_ok_iff.mpr ⟨reads, others_eq_ok r.names 0 whole⟩
  simp only [withOthers, both, Checked.toExcept, bind, Except.bind, read]
  rfl

theorem reads_of_withOthers_eq_ok {rest : List (String × Document) → Except DecodeError β} {b : β}
    (read : r.withOthers rest (.record fields) = .ok (a, b)) : r.Reads fields a := by
  rw [withOthers, Except.bind_eq_ok_iff] at read
  obtain ⟨⟨a', others⟩, both, read⟩ := read
  obtain ⟨b', -, eq⟩ := Except.bind_eq_ok_iff.mp read
  obtain ⟨rfl, -⟩ := Prod.mk.inj (Except.ok.inj eq)
  exact (Checked.both_eq_ok_iff.mp (Checked.toExcept_eq_ok_iff.mp both)).1

end RecordDecoder

/-! A document is deeper than its parts. -/

theorem depth_lt_of_mem_list {items : List Document} {item : Document} (member : item ∈ items) :
    item.depth < (Document.list items).depth := by
  rw [depth]
  induction items with
  | nil => cases member
  | cons first rest ih =>
    rw [depthItems]
    rcases List.mem_cons.mp member with rfl | member
    · omega
    · have less := ih member
      omega

theorem depth_lt_of_mem_record {fields : List (String × Document)} {f : String × Document}
    (member : f ∈ fields) : f.2.depth < (Document.record fields).depth := by
  rw [depth]
  induction fields with
  | nil => cases member
  | cons first rest ih =>
    rw [depthFields]
    rcases List.mem_cons.mp member with rfl | member
    · omega
    · have less := ih member
      omega

theorem depthFields_append (a b : List (String × Document)) :
    depthFields (a ++ b) = max (depthFields a) (depthFields b) := by
  induction a with
  | nil => simp [depthFields]
  | cons f rest ih =>
    rw [List.cons_append, depthFields, depthFields, ih]
    omega

end Document
end SchemaTrace
