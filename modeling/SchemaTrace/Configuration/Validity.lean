import SchemaTrace.Configuration.Basic
import SchemaTrace.Measure
/-!
Which configurations are valid: ids are distinct, every entry has one source, merges name
configured entries, and no entry merges itself, directly or through others. The last is found by
following merges from every entry; the ids above an entry on the way bound the search.
-/
namespace SchemaTrace.Configuration

/-- The ids that do not stand on the way to an entry. -/
def remaining (c : Configuration) (above : List String) : List String :=
  c.ids.filter fun id => id ∉ above

theorem id_mem_of_find? {c : Configuration} {id : String} {e : ConfiguredEntry}
    (found : c.find? id = some e) : id ∈ c.ids := by
  have same : e.id = id := by simpa using List.find?_some found
  exact same ▸ List.mem_map_of_mem (List.mem_of_find?_eq_some found)

theorem remaining_lt {c : Configuration} {above : List String} {id : String}
    {e : ConfiguredEntry} (fresh : id ∉ above) (found : c.find? id = some e) :
    (c.remaining (above ++ [id])).length < (c.remaining above).length := by
  apply length_filter_lt (x := id)
  · intro a h
    simp_all
  · exact id_mem_of_find? found
  · simpa using fresh
  · simp

mutual

def checkFrom (c : Configuration) (above : List String) (id : String) :
    Except ConfigurationError Unit :=
  if _ : id ∈ above then .error (.mergesItself id above)
  else
    match _ : c.find? id with
    | none => .ok ()
    | some e => checkAll c (above ++ [id]) (e.merge.getD [])
termination_by ((c.remaining above).length, 0)
decreasing_by exact Prod.Lex.left _ _ (remaining_lt ‹_› ‹_›)

def checkAll (c : Configuration) (above : List String) :
    List String → Except ConfigurationError Unit
  | [] => .ok ()
  | id :: rest => do
    checkFrom c above id
    checkAll c above rest
termination_by ids => ((c.remaining above).length, ids.length + 1)

end

def checkDistinct (seen : List String) : List ConfiguredEntry → Except ConfigurationError Unit
  | [] => .ok ()
  | e :: rest =>
    if e.id ∈ seen then .error (.duplicateId e.id) else checkDistinct (e.id :: seen) rest

def checkMembers (c : Configuration) (id : String) : List String → Except ConfigurationError Unit
  | [] => .ok ()
  | member :: rest =>
    if member ∈ c.ids then checkMembers c id rest else .error (.unknownMember id member)

def checkSources (c : Configuration) : List ConfiguredEntry → Except ConfigurationError Unit
  | [] => .ok ()
  | e :: rest => do
    match ← e.source with
    | .convention _ => checkSources c rest
    | .merge members =>
      checkMembers c e.id members
      checkSources c rest

def validate (c : Configuration) : Except ConfigurationError Unit := do
  checkDistinct [] c.entries
  checkSources c c.entries
  checkAll c [] c.ids

end SchemaTrace.Configuration
