import SchemaTrace.Proofs.Configuration.Validity

/-! Checkouts play no part in validity: a valid configuration stays valid wherever an entry is
pointed at. -/

namespace SchemaTrace

def ConfiguredEntry.unplaced (e : ConfiguredEntry) : ConfiguredEntry := { e with checkout := none }

namespace Configuration

open Relation (TransGen)

variable {c changed : Configuration} {id : String} {e : ConfiguredEntry}

theorem map_changeFirst {α : Type} (f : ConfiguredEntry → α)
    (change : ConfiguredEntry → ConfiguredEntry) (same : ∀ e, f (change e) = f e) (id : String)
    (entries : List ConfiguredEntry) : (changeFirst id change entries).map f = entries.map f := by
  induction entries with
  | nil => rfl
  | cons e rest ih =>
    rw [changeFirst]
    split
    · rw [List.map_cons, List.map_cons, same]
    · rw [List.map_cons, List.map_cons, ih]

/-- Two configurations have the same entries in the same order but for the checkouts. -/
def SameUnplaced (c changed : Configuration) : Prop :=
  c.entries.map (·.unplaced) = changed.entries.map (·.unplaced)

theorem SameUnplaced.exists_mem (same : c.SameUnplaced changed) (inside : e ∈ c.entries) :
    ∃ e' ∈ changed.entries, e'.unplaced = e.unplaced := by
  have listed := List.mem_map_of_mem (f := (·.unplaced)) inside
  rw [same] at listed
  exact List.mem_map.mp listed

theorem SameUnplaced.ids_eq (same : c.SameUnplaced changed) : c.ids = changed.ids := by
  have read (c : Configuration) : c.ids = (c.entries.map (·.unplaced)).map (·.id) := by
    rw [List.map_map]
    rfl
  rw [read c, read changed, same]

theorem SameUnplaced.merges (same : c.SameUnplaced changed) (id member : String)
    (merges : c.Merges id member) : changed.Merges id member := by
  rcases merges with ⟨e, inside, rfl, members, merge, listed⟩
  rcases same.exists_mem inside with ⟨e', inside', alike⟩
  have same_id : e'.id = e.id := congrArg (·.id) alike
  have same_merge : e'.merge = e.merge := congrArg (·.merge) alike
  exact ⟨e', inside', same_id, members, same_merge.trans merge, listed⟩

theorem SameUnplaced.valid (same : c.SameUnplaced changed) (valid : changed.Valid) : c.Valid where
  distinct := same.ids_eq ▸ valid.distinct
  oneSource e inside := by
    rcases same.exists_mem inside with ⟨e', inside', alike⟩
    have one : e'.unplaced.HasOneSource := valid.oneSource e' inside'
    rw [alike] at one
    exact one
  builtIn e inside name preset := by
    rcases same.exists_mem inside with ⟨e', inside', alike⟩
    have same_preset : e'.preset = e.preset := congrArg (·.preset) alike
    exact valid.builtIn e' inside' name (same_preset.trans preset)
  configured id member merges :=
    same.ids_eq ▸ valid.configured id member (same.merges id member merges)
  acyclic id cycle := valid.acyclic id (TransGen.mono same.merges _ _ cycle)

theorem Valid.exists_setCheckout (valid : c.Valid) (configured : id ∈ c.ids) (checkout : String) :
    ∃ changed, c.setCheckout id checkout = .ok changed ∧ changed.Valid := by
  refine ⟨_, if_pos configured, ?_⟩
  have same := map_changeFirst (·.unplaced) (fun e => { e with checkout := some checkout })
    (fun _ => rfl) id c.entries
  exact SameUnplaced.valid same valid

end Configuration
end SchemaTrace
