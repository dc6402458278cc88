import MoveTx.Proofs.Builder.ReadOnly
import MoveTx.Proofs.Session.Receiving

/-!
# System objects are only read

No session takes the clock, the source of randomness or the deny list mutably, whatever its values ask
for and whatever the chain answers. Whoever else takes steps on the builder must not bring a reference
that takes one of them so.
-/

namespace MoveTx
open Step

/-- A live object is never taken mutably if it may only be read. -/
theorem LiveObject.toArg_respects (o : LiveObject) (isMutable : Bool) :
    ¬ (o.toArg isMutable).Trespasses := by
  unfold toArg
  intro trespasses
  split at trespasses
  · obtain ⟨wanted, readOnly⟩ := ObjectArg.trespasses_shared.mp trespasses
    rw [Bool.and_eq_true, Bool.not_eq_true'] at wanted
    exact Bool.false_ne_true (wanted.2.symm.trans readOnly)
  · cases trespasses

namespace Draft

variable {us : List Access} {d t : Draft}

theorem sharedUse_respects (r : SharedRef) (p : Parameter) :
    ¬ (ObjectArg.shared (sharedUse r p)).Trespasses := by
  intro trespasses
  obtain ⟨wanted, readOnly⟩ := ObjectArg.trespasses_shared.mp trespasses
  unfold sharedUse at wanted readOnly
  rw [Bool.and_eq_true, Bool.not_eq_true'] at wanted
  exact Bool.false_ne_true (wanted.2.symm.trans readOnly)

/-- Lowering a value admits nothing, an id, or a reference that respects what may only be read. -/
theorem lowerObject_respects {value : CallValue} {p : Parameter} {a : Argument}
    (run : lowerObject value p d = .ok a t) :
    t = d ∨ ∃ op : BuilderOp, op.Respects ∧ op.next d.builder = t.builder := by
  unfold lowerObject at run
  split at run
  · exact Or.inl (pure_ok_iff.mp run).2.symm
  · rw [noteUse_bind] at run
    obtain ⟨b, inside, rfl⟩ := onBuilder_ok_iff.mp run
    exact Or.inr ⟨.objectId _, trivial, BuilderOp.next_eq rfl inside⟩
  · rw [noteUse_bind] at run
    obtain ⟨b, inside, rfl⟩ := onBuilder_ok_iff.mp run
    exact Or.inr ⟨.objectId _, trivial, BuilderOp.next_eq rfl inside⟩
  · obtain ⟨b, inside, rfl⟩ := onBuilder_ok_iff.mp run
    exact Or.inr ⟨.object (.owned _), nofun, BuilderOp.next_eq rfl inside⟩
  · rw [noteUse_bind] at run
    obtain ⟨b, inside, rfl⟩ := onBuilder_ok_iff.mp run
    exact Or.inr ⟨.object (.shared _), sharedUse_respects _ p, BuilderOp.next_eq rfl inside⟩
  · exact (throw_ok_iff.mp run).elim

theorem Act.respectful (act : Act BuilderStep.Respects d us t) (respectful : d.builder.Respectful) :
    t.builder.Respectful := by
  cases act with
  | lower value p a t run =>
    rcases lowerObject_respects run with rfl | ⟨op, respects, next⟩
    · exact respectful
    · exact next ▸ BuilderOp.next_respectful respects respectful
  | build op plain answer b run =>
    have next : op.next d.builder = b := congrArg after run
    refine next ▸ BuilderOp.next_respectful ?_ respectful
    cases op with
    | object | resolve => exact plain.elim
    | _ => trivial
  | custom x own a b run =>
    obtain ⟨ops, respect, reached⟩ := own _ _ _ run
    change b.Respectful
    rw [reached]
    exact BuilderOp.foldl_respectful ops respect respectful

theorem Evolves.respectful (evolves : Evolves BuilderStep.Respects d us t)
    (respectful : d.builder.Respectful) : t.builder.Respectful := by
  induction evolves with
  | refl => exact respectful
  | tail _ act ih => exact act.respectful ih

/-- Answers of the chain respect what may only be read, whatever they say. -/
theorem supply_respectful {ids : List Address} {answers : List ObjectStatus}
    (run : d.supply ids answers = .ok t) (respectful : d.builder.Respectful) :
    t.builder.Respectful := by
  induction ids generalizing d answers with
  | nil =>
    obtain rfl := Except.ok.inj run
    exact respectful
  | cons id ids ih =>
    cases answers with
    | nil =>
      obtain rfl := Except.ok.inj run
      exact respectful
    | cons status rest =>
      obtain ⟨object, u, -, -, resolved, others⟩ := Session.supply_cons_ok run
      obtain ⟨b, inside, rfl⟩ := onBuilder_ok_iff.mp resolved
      have next : BuilderOp.next (.resolve (object.toArg (d.wantsMutable id))) d.builder = b :=
        BuilderOp.next_eq rfl inside
      exact ih others (next ▸ BuilderOp.next_respectful (object.toArg_respects _) respectful)

end Draft

namespace Session

variable {σ : Type}

/-! ### Sessions -/

/-- A session that takes no object mutably which may only be read, neither while it is built nor in the
data that it was finalized to. -/
structure Respectful (s : Session) : Prop where
  builder : s.draft.builder.Respectful
  data : ∀ data, s.finalized = some data →
    ∀ input ∈ data.kind.transaction.inputs, ¬ input.Trespasses

theorem respectful_start (config : ClientConfig) : (start config).Respectful :=
  ⟨Builder.respectful_empty, nofun⟩

theorem resolve_respectful {c : Channel σ} {d t : Draft} {s u : Online σ}
    (run : resolve c d s = .ok t u) (respectful : d.builder.Respectful) : t.builder.Respectful := by
  rcases resolve_ok run with ⟨-, rfl, -⟩ | ⟨answers, -, -, supplied⟩
  · exact respectful
  · exact Draft.supply_respectful supplied respectful

section

variable {c : Channel σ} {budget : Option UInt64} {coin : Option Address} {s t : Online σ}
  {data : TransactionData}

theorem Finalization.inputs_respect (f : Finalization c budget coin s t data)
    (respectful : s.session.draft.builder.Respectful) :
    ∀ input ∈ data.kind.transaction.inputs, ¬ input.Trespasses := by
  rw [f.kind]
  exact (resolve_respectful f.resolves respectful).snapshot f.snapshot

theorem Finalization.respectful (f : Finalization c budget coin s t data)
    (respectful : s.session.Respectful) : t.session.Respectful := by
  rw [f.session_eq]
  constructor
  · have next : BuilderOp.next .finalize f.draft.builder = f.closed := BuilderOp.next_eq rfl f.closes
    exact next ▸ BuilderOp.next_respectful trivial (resolve_respectful f.resolves respectful.builder)
  · intro other same
    obtain rfl := Option.some.inj same
    exact f.inputs_respect respectful.builder

end

theorem permits_respectful (c : Channel σ) : Permits c fun s t => s.Respectful → t.Respectful where
  refl := fun _ => id
  trans := fun first second => second ∘ first
  price := fun _ _ _ _ _ _ respectful => ⟨respectful.builder, respectful.data⟩
  function := fun _ _ respectful => ⟨respectful.builder, respectful.data⟩
  finalizes := fun f => f.respectful
  submits := fun _ _ respectful => ⟨respectful.builder, respectful.data⟩
  expires := fun _ _ _ _ respectful => ⟨respectful.builder, respectful.data⟩
  sender := fun _ _ respectful => ⟨respectful.builder, respectful.data⟩
  sponsor := fun _ _ respectful => ⟨respectful.builder, respectful.data⟩

theorem respectful_step (c : Channel σ) {op : SessionOp} (own : op.Takes BuilderStep.Respects) :
    Moves (fun s t => s.Respectful → t.Respectful) (op.step c) := by
  have permits := permits_respectful c
  have edits : ∀ (s : Session) (d : Draft) (us : List Access), s.submitted = false →
      s.finalized = none → Draft.Evolves BuilderStep.Respects s.draft us d →
      s.Respectful → Respectful { s with draft := d } :=
    fun s d us _ _ evolves respectful => ⟨evolves.respectful respectful.builder, respectful.data⟩
  by_cases builds : op.BuildsOn
  · cases op with
    | build op =>
      exact moves_map (moves_builds permits.toAlong edits (BuildOp.builds_step op own))
    | moveCall target values typeArguments =>
      exact moves_map (moves_moveCall permits.toLearns edits target values typeArguments)
    | _ => exact builds.elim
  · apply moves_step permits op _ fun builds' => absurd builds' builds
    rintro price rfl
    exact moves_map (moves_modify permits.toAlong fun s _ _ respectful =>
      ⟨respectful.builder, respectful.data⟩)

theorem Follows.respectful {s t : Session} (follows : Follows BuilderStep.Respects s t)
    (respectful : s.Respectful) : t.Respectful := by
  induction follows with
  | refl => exact respectful
  | step c op own t before ih => exact respectful_step c own t ih

/-- System objects are never taken mutably. Whatever was done with a session, its slots take neither the
clock nor the source of randomness nor the deny list so. The same goes for all that its draft may still
evolve to, with the answers that the chain may supply to that in part or in whole, and for the inputs of
the data that the session was or may be finalized to. -/
theorem follows_readOnly {config : ClientConfig} {s : Session}
    (follows : Follows BuilderStep.Respects (start config) s) :
    (∀ slot ∈ s.draft.builder.slots, ¬ slot.Trespasses) ∧
      (∀ us d, Draft.Evolves BuilderStep.Respects s.draft us d →
        ∀ ids answers t, d.supply ids answers = .ok t →
          ∀ slot ∈ t.builder.slots, ¬ slot.Trespasses) ∧
      (∀ data, s.finalized = some data →
        ∀ input ∈ data.kind.transaction.inputs, ¬ input.Trespasses) ∧
      ∀ {σ : Type} (c : Channel σ) budget coin (before after : Online σ) data, before.session = s →
        finalize c budget coin before = .ok data after →
          ∀ input ∈ data.kind.transaction.inputs, ¬ input.Trespasses := by
  have respectful := follows.respectful (respectful_start config)
  refine ⟨respectful.builder.slots, ?_, respectful.data, ?_⟩
  · intro us d evolves ids answers t supplied
    exact (Draft.supply_respectful supplied (evolves.respectful respectful.builder)).slots
  · rintro σ c budget coin before after data rfl run
    obtain ⟨f⟩ := finalize_ok run
    exact f.inputs_respect respectful.builder

/-- A session that is given the clock by a reference which takes it mutably. -/
def givesClock : Online Unit :=
  after (SessionOp.step everyObject (.build (.object (.shared ⟨.clock, 1, true⟩))) ⟨start {}, ()⟩)

/-- The clock is named by its id as well. -/
def namesClock : Online Unit :=
  after (SessionOp.step everyObject
    (.moveCall "0x5::inbox::accept" [.objectId .clock, .objectId (.ofNat 101)] []) givesClock)

theorem namesClock_readOnly :
    ∃ data t, finalize everyObject none none namesClock = .ok data t ∧
      data.kind.transaction.inputs = [.object (.shared ⟨.clock, 1, false⟩),
        .object (.receiving ⟨.ofNat 101, 7, .zero⟩)] ∧
      ∀ input ∈ data.kind.transaction.inputs, ¬ input.Trespasses := by
  have given : Follows BuilderStep.Respects (start {}) givesClock.session :=
    .step everyObject (.build (.object (.shared ⟨.clock, 1, true⟩))) trivial ⟨start {}, ()⟩ .refl
  have named : Follows BuilderStep.Respects (start {}) namesClock.session :=
    .step everyObject (.moveCall "0x5::inbox::accept" [.objectId .clock, .objectId (.ofNat 101)] [])
      trivial givesClock given
  have inputs : (value? (finalize everyObject none none namesClock)).map
      (·.kind.transaction.inputs) = some [.object (.shared ⟨.clock, 1, false⟩),
        .object (.receiving ⟨.ofNat 101, 7, .zero⟩)] := by decide +kernel
  obtain ⟨data, t, run, inputs⟩ := map_value?_eq_some inputs
  obtain ⟨-, -, -, finalized⟩ := follows_readOnly named
  exact ⟨data, t, run, inputs, finalized everyObject none none namesClock t data rfl run⟩

end Session

end MoveTx
