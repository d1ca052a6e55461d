import SchemaTrace.Proofs.Closure.Exact

/-! The closure of seeds that are given in several lists. A member is needed by all of them together
if and only if it is by one of them alone, and what stands in the way of the whole stands in the
way of a part. -/

namespace SchemaTrace

/-- `out` is the part of the schema that consists of the parts `outs` of it. -/
structure Schema.IsUnion (s : Schema) (outs : List Schema) (out : Schema) : Prop where
  restricted : out = s.restrictTo fun kind key => outs.any fun part => decide (key ∈ part.keys kind)
  members : ∀ kind key, key ∈ out.keys kind ↔ ∃ part ∈ outs, key ∈ part.keys kind
  domains : ∀ name, name ∈ out.domains.map (·.name) ↔
    ∃ part ∈ outs, name ∈ part.domains.map (·.name)

/-- The whole succeeds if and only if every part does, and then it is their union. -/
structure Schema.Unites (s : Schema) (parts : List (Except Error Schema))
    (whole : Except Error Schema) : Prop where
  succeeds : (∃ out, whole = .ok out) ↔ ∀ part ∈ parts, ∃ out, part = .ok out
  united : ∀ outs, parts = outs.map .ok → ∃ out, whole = .ok out ∧ s.IsUnion outs out

namespace Closure

variable {schema : Schema} {model : Model} {seeds : List Seed} {parts : List (List Seed)}

theorem reaches_union_iff (union : ∀ seed, seed ∈ seeds ↔ ∃ part ∈ parts, seed ∈ part)
    {kind : MemberKind} {key : String} :
    schema.Reaches seeds kind key ↔ ∃ part ∈ parts, schema.Reaches part kind key := by
  constructor
  · intro reached
    induction reached with
    | seed member =>
      obtain ⟨part, listed, inside⟩ := (union _).mp member
      exact ⟨part, listed, .seed inside⟩
    | refers _ refers ih =>
      obtain ⟨part, listed, reached⟩ := ih
      exact ⟨part, listed, .refers reached refers⟩
  · intro given
    rcases given with ⟨part, listed, reached⟩
    induction reached with
    | seed inside => exact .seed ((union _).mpr ⟨part, listed, inside⟩)
    | refers _ refers ih => exact .refers ih refers

theorem closes_union_iff (union : ∀ seed, seed ∈ seeds ↔ ∃ part ∈ parts, seed ∈ part) :
    schema.Closes seeds ↔ ∀ part ∈ parts, schema.Closes part := by
  constructor
  · intro closes part listed
    have whole {kind : MemberKind} {key : String} (reached : schema.Reaches part kind key) :
        schema.Reaches seeds kind key := (reaches_union_iff union).mpr ⟨part, listed, reached⟩
    have given {seed : Seed} (inside : seed ∈ part) : seed ∈ seeds :=
      (union seed).mpr ⟨part, listed, inside⟩
    exact ⟨fun seed inside => closes.dotted seed (given inside),
      fun seed inside => closes.declared seed (given inside),
      fun name reached => closes.reached name (whole reached),
      fun kind key reached => closes.known kind key (whole reached)⟩
  · intro all
    constructor
    · intro seed member
      obtain ⟨part, listed, inside⟩ := (union seed).mp member
      exact (all part listed).dotted seed inside
    · intro seed member
      obtain ⟨part, listed, inside⟩ := (union seed).mp member
      exact (all part listed).declared seed inside
    · intro name reached
      obtain ⟨part, listed, reached⟩ := (reaches_union_iff union).mp reached
      exact (all part listed).reached name reached
    · intro kind key reached
      obtain ⟨part, listed, reached⟩ := (reaches_union_iff union).mp reached
      exact (all part listed).known kind key reached

theorem isUnion_of_parts {needed : MemberKind → String → Bool} {outs : List Schema}
    (kept : ∀ kind, ∀ key ∈ schema.keys kind, needed kind key = true ↔
      ∃ part ∈ outs, key ∈ part.keys kind)
    (restricted : ∀ part ∈ outs, ∃ keep, part = schema.restrictTo keep) :
    schema.IsUnion outs (schema.restrictTo needed) where
  restricted := by
    apply Schema.restrictTo_congr
    intro kind key declared
    rw [Bool.eq_iff_iff, kept kind key declared]
    simp
  members kind key := by
    rw [Schema.keys_restrictTo, List.mem_filter]
    constructor
    · intro given
      rcases given with ⟨declared, need⟩
      exact (kept kind key declared).mp need
    · intro given
      rcases given with ⟨part, listed, inside⟩
      obtain ⟨keep, rfl⟩ := restricted part listed
      have declared : key ∈ schema.keys kind := by
        rw [Schema.keys_restrictTo] at inside
        exact List.mem_of_mem_filter inside
      exact ⟨declared, (kept kind key declared).mpr ⟨_, listed, inside⟩⟩
  domains name := by
    rw [Schema.mem_names_restrictTo_iff]
    constructor
    · intro given
      rcases given with ⟨d, inside, named, kind, m, member, need⟩
      -- A domain is kept for a member, and the part that has the member has the domain.
      have declared : d.key m.1 ∈ schema.keys kind :=
        Schema.mem_keys_iff.mpr ⟨m.2, Schema.mem_members_of_mem kind inside member⟩
      obtain ⟨part, listed, holds⟩ := (kept kind _ declared).mp need
      refine ⟨part, listed, ?_⟩
      obtain ⟨keep, rfl⟩ := restricted part listed
      rw [Schema.keys_restrictTo] at holds
      exact Schema.mem_names_restrictTo_iff.mpr
        ⟨d, inside, named, kind, m, member, List.of_mem_filter holds⟩
    · intro given
      rcases given with ⟨part, listed, inPart⟩
      obtain ⟨keep, rfl⟩ := restricted part listed
      obtain ⟨d, inside, named, kind, m, member, keeps⟩ :=
        Schema.mem_names_restrictTo_iff.mp inPart
      have declared : d.key m.1 ∈ schema.keys kind :=
        Schema.mem_keys_iff.mpr ⟨m.2, Schema.mem_members_of_mem kind inside member⟩
      refine ⟨d, inside, named, kind, m, member, (kept kind _ declared).mpr ⟨_, listed, ?_⟩⟩
      rw [Schema.keys_restrictTo]
      exact List.mem_filter.mpr ⟨declared, keeps⟩

/-- The closure of seeds in several lists is the union of the closures of these. -/
theorem unites_filter (accepted : Model.ofSchema schema = .ok model)
    (union : ∀ seed, seed ∈ seeds ↔ ∃ part ∈ parts, seed ∈ part) :
    schema.Unites (parts.map model.filter) (model.filter seeds) where
  succeeds := by
    rw [exists_filter_eq_ok_iff accepted, closes_union_iff union, List.forall_mem_map]
    simp only [exists_filter_eq_ok_iff accepted]
  united outs eq := by
    have run_of_part {part : List Seed} (listed : part ∈ parts) :
        ∃ out ∈ outs, model.filter part = .ok out := by
      have member : model.filter part ∈ parts.map model.filter := List.mem_map_of_mem listed
      rw [eq] at member
      obtain ⟨out, inside, same⟩ := List.mem_map.mp member
      exact ⟨out, inside, same.symm⟩
    have part_of_run {out : Schema} (listed : out ∈ outs) :
        ∃ part ∈ parts, model.filter part = .ok out := by
      have member : (.ok out : Except Error Schema) ∈ outs.map .ok := List.mem_map_of_mem listed
      rw [← eq] at member
      exact List.mem_map.mp member
    have closes : schema.Closes seeds := by
      apply (closes_union_iff union).mpr
      intro part listed
      obtain ⟨out, -, run⟩ := run_of_part listed
      exact ((filter_eq_ok_iff_closes accepted).mp run).1
    refine ⟨_, (filter_eq_ok_iff_closes accepted).mpr ⟨closes, rfl⟩, isUnion_of_parts ?_ ?_⟩
    · intro kind key _
      rw [Schema.needs_eq_true_iff, reaches_union_iff union]
      constructor
      · intro given
        rcases given with ⟨part, listed, reached⟩
        obtain ⟨out, inside, run⟩ := run_of_part listed
        exact ⟨out, inside, (mem_keys_iff_reaches accepted run).mpr reached⟩
      · intro given
        rcases given with ⟨out, inside, holds⟩
        obtain ⟨part, listed, run⟩ := part_of_run inside
        exact ⟨part, listed, (mem_keys_iff_reaches accepted run).mp holds⟩
    · intro out listed
      obtain ⟨part, -, run⟩ := part_of_run listed
      exact ⟨_, ((filter_eq_ok_iff_closes accepted).mp run).2⟩

end Closure
end SchemaTrace
