import SchemaTrace.Proofs.Closure.Exact

/-! A closure is a schema of its own. It has a model, and for seeds that are still in it a closure
within it is the closure within the whole schema. -/

namespace SchemaTrace

namespace Closure

variable {schema : Schema} {model : Model} {seeds more : List Seed}

theorem unambiguous_restrictTo (unambiguous : schema.Unambiguous)
    (keep : MemberKind → String → Bool) : (schema.restrictTo keep).Unambiguous where
  domains := unambiguous.domains.sublist (Schema.names_restrictTo schema keep)
  members kind := by
    rw [Schema.keys_restrictTo]
    exact (unambiguous.members kind).filter _

theorem refers_restrictTo_iff {keep : MemberKind → String → Bool} {kind : MemberKind}
    {key name : String} :
    (schema.restrictTo keep).Refers kind key name ↔
      schema.Refers kind key name ∧ keep kind key = true := by
  simp only [Schema.Refers, Schema.carries_restrictTo_iff]
  constructor
  · intro given
    rcases given with ⟨shape, target, ⟨carried, kept⟩, within, eq⟩
    exact ⟨⟨shape, target, carried, within, eq⟩, kept⟩
  · intro given
    rcases given with ⟨⟨shape, target, carried, within, eq⟩, kept⟩
    exact ⟨shape, target, ⟨carried, kept⟩, within, eq⟩

/-- Where all that the seeds need is kept, the kept part needs the same for them. -/
theorem reaches_restrictTo_iff {keep : MemberKind → String → Bool}
    (kept : ∀ kind key, schema.Reaches seeds kind key → keep kind key = true)
    {kind : MemberKind} {key : String} :
    (schema.restrictTo keep).Reaches seeds kind key ↔ schema.Reaches seeds kind key := by
  constructor
  · intro reached
    induction reached with
    | seed member => exact .seed member
    | refers _ refers ih => exact .refers ih (refers_restrictTo_iff.mp refers).1
  · intro reached
    induction reached with
    | seed member => exact .seed member
    | refers before refers ih =>
      exact .refers ih (refers_restrictTo_iff.mpr ⟨refers, kept _ _ before⟩)

/-- Seeds that are needed themselves need nothing new. -/
theorem reaches_of_reaches (inside : ∀ seed ∈ more, schema.Reaches seeds seed.kind seed.name)
    {kind : MemberKind} {key : String} (reached : schema.Reaches more kind key) :
    schema.Reaches seeds kind key := by
  induction reached with
  | seed member => exact inside _ member
  | refers _ refers ih => exact .refers ih refers

theorem closes_of_reaches (closes : schema.Closes seeds)
    (inside : ∀ seed ∈ more, schema.Reaches seeds seed.kind seed.name) : schema.Closes more := by
  have sound := sound_of_closes closes
  constructor
  · intro seed member
    exact Schema.dot_mem_of_mem_keys (sound.declared _ _ (inside seed member))
  · intro seed member
    exact sound.declared _ _ (inside seed member)
  · intro name reached
    exact sound.declared _ _ (reaches_of_reaches inside reached)
  · intro kind key reached
    exact closes.known kind key (reaches_of_reaches inside reached)

theorem closes_restrictTo {keep : MemberKind → String → Bool} (closes : schema.Closes seeds)
    (kept : ∀ kind key, schema.Reaches seeds kind key → keep kind key = true) :
    (schema.restrictTo keep).Closes seeds := by
  have declared (kind : MemberKind) (key : String) (reached : schema.Reaches seeds kind key) :
      key ∈ (schema.restrictTo keep).keys kind := by
    rw [Schema.keys_restrictTo]
    exact List.mem_filter.mpr
      ⟨(sound_of_closes closes).declared kind key reached, kept kind key reached⟩
  constructor
  · exact closes.dotted
  · exact fun seed member => declared _ _ (.seed member)
  · exact fun name reached => declared _ _ ((reaches_restrictTo_iff kept).mp reached)
  · intro kind key reached shape carried
    exact closes.known kind key ((reaches_restrictTo_iff kept).mp reached) shape
      (Schema.carries_restrictTo_iff.mp carried).1

theorem exists_ofSchema_of_filter (accepted : Model.ofSchema schema = .ok model) {out : Schema}
    (run : model.filter seeds = .ok out) : ∃ inner, Model.ofSchema out = .ok inner := by
  obtain ⟨-, rfl⟩ := (filter_eq_ok_iff_closes accepted).mp run
  apply Model.exists_ofSchema_iff.mpr
  exact unambiguous_restrictTo (Model.unambiguous_of_ofSchema accepted) _

theorem filter_of_filter (accepted : Model.ofSchema schema = .ok model) {out : Schema}
    (run : model.filter seeds = .ok out) {inner : Model}
    (acceptedOut : Model.ofSchema out = .ok inner)
    (inside : ∀ seed ∈ more, schema.Reaches seeds seed.kind seed.name) :
    inner.filter more = .ok (schema.restrictTo (schema.needs more)) ∧
      model.filter more = .ok (schema.restrictTo (schema.needs more)) := by
  obtain ⟨closes, rfl⟩ := (filter_eq_ok_iff_closes accepted).mp run
  have closesMore := closes_of_reaches closes inside
  have kept (kind : MemberKind) (key : String) (reached : schema.Reaches more kind key) :
      schema.needs seeds kind key = true :=
    Schema.needs_eq_true_iff.mpr (reaches_of_reaches inside reached)
  constructor
  · apply (filter_eq_ok_iff_closes acceptedOut).mpr
    refine ⟨closes_restrictTo closesMore kept, ?_⟩
    rw [Schema.restrictTo_restrictTo]
    apply Schema.restrictTo_congr
    intro kind key _
    rw [Bool.eq_iff_iff, Bool.and_eq_true]
    simp only [Schema.needs_eq_true_iff]
    rw [reaches_restrictTo_iff kept]
    constructor
    · exact fun reached => ⟨reaches_of_reaches inside reached, reached⟩
    · exact fun both => both.2
  · exact (filter_eq_ok_iff_closes accepted).mpr ⟨closesMore, rfl⟩

/-- A closure has a model of its own. There, seeds that are still in it have the closure they have
in the whole schema; its own seeds, and all its members together, have it as their closure. -/
theorem filter_self_contained (accepted : Model.ofSchema schema = .ok model) {out : Schema}
    (run : model.filter seeds = .ok out) :
    ∃ inner, Model.ofSchema out = .ok inner ∧
      (∀ more : List Seed, (∀ seed ∈ more, seed.name ∈ out.keys seed.kind) →
        ∃ part, inner.filter more = .ok part ∧ model.filter more = .ok part) ∧
      inner.filter seeds = .ok out ∧
      ∀ all : List Seed, (∀ seed, seed ∈ all ↔ seed.name ∈ out.keys seed.kind) →
        inner.filter all = .ok out := by
  obtain ⟨inner, acceptedOut⟩ := exists_ofSchema_of_filter accepted run
  have member {kind : MemberKind} {key : String} :
      key ∈ out.keys kind ↔ schema.Reaches seeds kind key := mem_keys_iff_reaches accepted run
  refine ⟨inner, acceptedOut, ?_, ?_, ?_⟩
  · intro more present
    exact ⟨_, filter_of_filter accepted run acceptedOut
      fun seed listed => member.mp (present seed listed)⟩
  · obtain ⟨within, whole⟩ := filter_of_filter accepted run acceptedOut
      fun (seed : Seed) (listed : seed ∈ seeds) => .seed listed
    rw [within, ← whole, run]
  · intro all listing
    have inside (seed : Seed) (listed : seed ∈ all) : schema.Reaches seeds seed.kind seed.name :=
      member.mp ((listing seed).mp listed)
    have back (seed : Seed) (listed : seed ∈ seeds) : schema.Reaches all seed.kind seed.name :=
      .seed ((listing seed).mpr (member.mpr (.seed listed)))
    obtain ⟨within, -⟩ := filter_of_filter accepted run acceptedOut inside
    obtain ⟨-, restricted⟩ := (filter_eq_ok_iff_closes accepted).mp run
    rw [within, restricted]
    congr 1
    apply Schema.restrictTo_congr
    intro kind key _
    rw [Bool.eq_iff_iff, Schema.needs_eq_true_iff, Schema.needs_eq_true_iff]
    exact ⟨reaches_of_reaches inside, reaches_of_reaches back⟩

theorem filter_self_contained_cyclicSchema : ∃ model inner,
    Model.ofSchema cyclicSchema = .ok model ∧
      model.filter [⟨.command, "A.go"⟩] = .ok cyclicPart ∧
      Model.ofSchema cyclicPart = .ok inner ∧
      inner.filter [⟨.command, "A.go"⟩] = .ok cyclicPart ∧
      inner.filter [⟨.command, "A.go"⟩, ⟨.type, "A.T"⟩, ⟨.type, "B.U"⟩] = .ok cyclicPart ∧
      ∃ part, inner.filter [⟨.type, "B.U"⟩] = .ok part ∧
        model.filter [⟨.type, "B.U"⟩] = .ok part := by
  obtain ⟨model, accepted, run⟩ := filter_cyclicSchema
  obtain ⟨inner, acceptedPart, agree, again, all⟩ := filter_self_contained accepted run
  have commands : cyclicPart.keys .command = ["A.go"] := rfl
  have events : cyclicPart.keys .event = [] := rfl
  have types : cyclicPart.keys .type = ["A.T", "B.U"] := rfl
  refine ⟨model, inner, accepted, run, acceptedPart, again, all _ ?_, agree _ ?_⟩
  · intro given
    rcases given with ⟨kind, name⟩
    cases kind with
    | command => simp [commands]
    | event => simp [events]
    | type => simp [types]
  · intro seed listed
    rw [List.mem_singleton.mp listed, types]
    decide

end Closure
end SchemaTrace
