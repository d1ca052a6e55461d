/-!
Finite maps with string keys, kept in increasing key order, so that two maps with the same entries
are equal and every listing comes in key order.
-/
namespace SchemaTrace

def KeysIncrease {α : Type} (entries : List (String × α)) : Prop :=
  entries.Pairwise fun a b => a.1 < b.1

structure SortedMap (α : Type) where
  entries : List (String × α)
  increasing : KeysIncrease entries

namespace SortedMap

variable {α β : Type}

theorem ext {m n : SortedMap α} (h : m.entries = n.entries) : m = n := by
  cases m; cases n; cases h; rfl

instance [DecidableEq α] : DecidableEq (SortedMap α) := fun m n =>
  if h : m.entries = n.entries then .isTrue (ext h) else .isFalse (fun e => h (e ▸ rfl))

def empty : SortedMap α := ⟨[], .nil⟩

instance : Inhabited (SortedMap α) := ⟨empty⟩

def alterEntries (key : String) (f : Option α → α) : List (String × α) → List (String × α)
  | [] => [(key, f none)]
  | (k, v) :: rest =>
    if key < k then (key, f none) :: (k, v) :: rest
    else if key = k then (k, f (some v)) :: rest
    else (k, v) :: alterEntries key f rest

theorem mem_alterEntries {key : String} {f : Option α → α} {entries : List (String × α)}
    {e : String × α} (h : e ∈ alterEntries key f entries) : e.1 = key ∨ e ∈ entries := by
  induction entries with
  | nil => simp [alterEntries] at h; simp [h]
  | cons head rest ih =>
    simp only [alterEntries] at h
    split at h
    · rcases List.mem_cons.mp h with rfl | h
      · simp
      · exact .inr h
    · split at h
      · next eq =>
        rcases List.mem_cons.mp h with rfl | h
        · simp [eq]
        · exact .inr (List.mem_cons_of_mem _ h)
      · rcases List.mem_cons.mp h with rfl | h
        · simp
        · exact (ih h).imp id (List.mem_cons_of_mem _)

theorem lt_of_not_lt_of_ne {a b : String} (h : ¬a < b) (ne : a ≠ b) : b < a := by
  rcases Classical.em (b < a) with lt | lt
  · exact lt
  · exact absurd (String.le_antisymm (String.not_lt.mp lt) (String.not_lt.mp h)) ne

theorem alterEntries_increase (key : String) (f : Option α → α) {entries : List (String × α)}
    (h : KeysIncrease entries) : KeysIncrease (alterEntries key f entries) := by
  induction entries with
  | nil => simp [alterEntries, KeysIncrease]
  | cons head rest ih =>
    obtain ⟨first, _⟩ := List.pairwise_cons.mp h
    simp only [alterEntries]
    split
    · next lt =>
      refine List.Pairwise.cons (fun e member => ?_) h
      rcases List.mem_cons.mp member with rfl | member
      · exact lt
      · exact String.lt_trans lt (first e member)
    · next notLt =>
      split
      · exact List.Pairwise.cons (fun e member => first e member) (List.Pairwise.of_cons h)
      · next ne =>
        refine List.Pairwise.cons (fun e member => ?_) (ih (List.Pairwise.of_cons h))
        rcases mem_alterEntries member with eq | member
        · exact eq ▸ lt_of_not_lt_of_ne notLt ne
        · exact first e member

def alter (key : String) (f : Option α → α) (m : SortedMap α) : SortedMap α :=
  ⟨alterEntries key f m.entries, alterEntries_increase key f m.increasing⟩

def get? (m : SortedMap α) (key : String) : Option α := m.entries.lookup key

def contains (m : SortedMap α) (key : String) : Bool := (m.get? key).isSome

def insert (m : SortedMap α) (key : String) (value : α) : SortedMap α := m.alter key fun _ => value

/-- The last value given for a key stands. -/
def ofList (entries : List (String × α)) : SortedMap α :=
  entries.foldl (fun m (key, value) => m.insert key value) empty

def toList (m : SortedMap α) : List (String × α) := m.entries

def keys (m : SortedMap α) : List String := m.entries.map (·.1)

theorem mem_keys_iff {m : SortedMap α} {key : String} :
    key ∈ m.keys ↔ ∃ value, m.get? key = some value := by
  rw [← Option.isSome_iff_exists, ← Option.ne_none_iff_isSome, get?, Ne, List.lookup_eq_none_iff]
  simp [keys]

def values (m : SortedMap α) : List α := m.entries.map (·.2)

def size (m : SortedMap α) : Nat := m.entries.length

def isEmpty (m : SortedMap α) : Bool := m.entries.isEmpty

def erase (m : SortedMap α) (key : String) : SortedMap α :=
  ⟨m.entries.filter (·.1 ≠ key), m.increasing.filter _⟩

def append (m : SortedMap (List β)) (key : String) (items : List β) : SortedMap (List β) :=
  m.alter key fun old => old.getD [] ++ items

end SortedMap
end SchemaTrace
