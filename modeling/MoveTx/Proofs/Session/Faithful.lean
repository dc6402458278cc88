import MoveTx.Proofs.Builder.Finish
import MoveTx.Proofs.Builder.Slot
import MoveTx.Proofs.Session.Price

/-!
# What finalizing makes of a draft

The data of a finalized session has the commands and the inputs of the draft, in their order. Objects that
lacked a reference have that of the object which the chain answered with, each at its own place in the
request. Everything else is on the terms of the session.
-/

namespace MoveTx
open Step

/-- The reference by which a live object is taken. -/
def LiveObject.supplied (o : LiveObject) (receiving isMutable : Bool) : ObjectArg :=
  match o.owner with
  | .shared initialVersion => .shared ⟨o.id, initialVersion, isMutable && !o.id.isAlwaysImmutable⟩
  | _ => if receiving then .receiving o.ref else .owned o.ref

theorem LiveObject.toArg_id (o : LiveObject) (isMutable : Bool) : (o.toArg isMutable).id = o.id := by
  unfold toArg
  split <;> rfl

theorem LiveObject.filled_toArg (o : LiveObject) (id : Address) (receiving isMutable : Bool) :
    (InputSlot.unresolved id receiving).filled (o.toArg isMutable) =
      .resolved (.object (o.supplied receiving isMutable)) := by
  unfold toArg supplied
  cases receiving <;> cases o.owner <;> rfl

theorem ObjectStatus.object_ok {status : ObjectStatus} {o : LiveObject} (found : status.object = .ok o) :
    status = .live o := by
  cases status with
  | live other => exact congrArg live (Except.ok.inj found)
  | missing | deleted | tooNew | noVersion => cases found

/-- The data as it is tried to find a budget, when nothing pays for it yet. -/
def TransactionData.unpaid (data : TransactionData) : TransactionData :=
  { data with gas := { data.gas with payment := [], budget := dryRunBudget } }

namespace Draft

/-- What a draft is after the references of some objects were supplied out of answers about them. -/
structure Supplied (d : Draft) (ids : List Address) (answers : List ObjectStatus) (t : Draft) :
    Prop where
  wellFormed : t.builder.WellFormed
  keeps : d.builder.Extends t.builder
  keys : t.builder.keys = d.builder.keys
  commands : t.builder.commands = d.builder.commands
  uses : t.uses = d.uses
  others : ∀ id ∉ ids, t.builder.slotOf? id = d.builder.slotOf? id
  asked : ∀ (k : Nat) (id : Address), ids[k]? = some id →
    ∃ (o : LiveObject) (slot : InputSlot), answers[k]? = some (.live o) ∧ o.id = id ∧
    d.builder.slotOf? id = some slot ∧
    t.builder.slotOf? id = some (slot.filled (o.toArg (d.wantsMutable id)))

theorem supplied_nothing {d : Draft} (h : d.builder.WellFormed) : d.Supplied [] [] d where
  wellFormed := h
  keeps := Builder.extends_refl _
  keys := rfl
  commands := rfl
  uses := rfl
  others := fun _ _ => rfl
  asked := fun _ _ place => nomatch place

/-- Each answer goes to the object at its place. -/
theorem supply_ok {d t : Draft} {ids : List Address} {answers : List ObjectStatus}
    (h : d.builder.WellFormed) (distinct : ids.Nodup) (count : answers.length = ids.length)
    (run : d.supply ids answers = .ok t) : d.Supplied ids answers t := by
  induction ids generalizing d answers with
  | nil =>
    obtain rfl := List.length_eq_zero_iff.mp count
    obtain rfl := Except.ok.inj run
    exact supplied_nothing h
  | cons id ids ih =>
    cases answers with
    | nil => cases count
    | cons status rest =>
      obtain ⟨absent, distinct⟩ := List.nodup_cons.mp distinct
      obtain ⟨o, u, found, same, resolved, others⟩ := Session.supply_cons_ok run
      obtain ⟨b, inside, rfl⟩ := onBuilder_ok_iff.mp resolved
      obtain ⟨keys, commands, slot, held, puts⟩ := Builder.resolve_puts h inside
      rw [LiveObject.toArg_id, same] at held puts
      obtain ⟨wellFormed, keeps⟩ := BuilderOp.run_keeps (.resolve _) h rfl inside
      have tail := ih wellFormed distinct (Nat.succ.inj count) others
      refine ⟨tail.wellFormed, keeps.trans tail.keeps, tail.keys.trans keys,
        tail.commands.trans commands, tail.uses, ?_, ?_⟩
      · intro other outside
        obtain ⟨differs, outside⟩ := not_or.mp (List.mem_cons.not.mp outside)
        exact (tail.others other outside).trans (puts.other differs)
      · intro k other place
        cases k with
        | zero =>
          obtain rfl := Option.some.inj place
          refine ⟨o, slot, congrArg some (ObjectStatus.object_ok found), same, held, ?_⟩
          exact (tail.others id absent).trans puts.here
        | succ k =>
          obtain ⟨o', slot', answer, same', held', filled⟩ := tail.asked k other place
          have differs : other ≠ id := by
            rintro rfl
            exact absent (List.mem_of_getElem? place)
          exact ⟨o', slot', answer, same', (puts.other differs).symm.trans held', filled⟩

/-- Slots that were resolved stay as they are when what is missing is supplied. -/
theorem Supplied.resolved_get {d t : Draft} {answers : List ObjectStatus} (h : d.builder.WellFormed)
    (supplied : d.Supplied d.builder.unresolvedIds answers t) {i : Nat} {arg : CallArg}
    (place : d.builder.slots[i]? = some (.resolved arg)) :
    t.builder.slots[i]? = some (.resolved arg) := by
  cases arg with
  | pure bytes =>
    obtain ⟨key, entry⟩ := Builder.slots_get.mp place
    exact Builder.slots_get.mpr ⟨key, supplied.keeps.pures i key bytes entry⟩
  | object arg =>
    obtain ⟨key, held⟩ := Builder.slotOf?_of_place h place rfl
    have known : arg.id ∉ d.builder.unresolvedIds := by
      rw [Builder.mem_unresolvedIds h]
      rintro ⟨receiving, lacks⟩
      cases held.symm.trans lacks
    apply Builder.slots_get_of_slotOf? supplied.wellFormed.keys_nodup
    · rw [supplied.keys]
      exact key
    · rw [supplied.others _ known]
      exact held

/-- A slot that was not resolved has the object that was answered where it was asked for. -/
theorem Supplied.unresolved_get {d t : Draft} {answers : List ObjectStatus} (h : d.builder.WellFormed)
    (supplied : d.Supplied d.builder.unresolvedIds answers t) {i : Nat} {id : Address} {receiving : Bool}
    (place : d.builder.slots[i]? = some (.unresolved id receiving)) :
    ∃ o, answers[d.builder.requestIndex i]? = some (.live o) ∧ o.id = id ∧
      t.builder.slots[i]? =
        some (.resolved (.object (o.supplied receiving (d.wantsMutable id)))) := by
  obtain ⟨key, before⟩ := Builder.slotOf?_of_place h place rfl
  obtain ⟨o, slot, answer, same, held, filled⟩ := supplied.asked _ id (Builder.unresolvedIds_get place)
  obtain rfl := Option.some.inj (held.symm.trans before)
  rw [LiveObject.filled_toArg] at filled
  refine ⟨o, answer, same, ?_⟩
  apply Builder.slots_get_of_slotOf? supplied.wellFormed.keys_nodup _ filled
  rw [supplied.keys]
  exact key

end Draft

namespace Session

variable {σ : Type} {c : Channel σ}

theorem resolve_supplied {d t : Draft} {s u : Online σ} (h : d.builder.WellFormed)
    (run : resolve c d s = .ok t u) :
    ∃ answers, (d.builder.unresolvedIds ≠ [] →
        ∃ chain, c.objects d.builder.unresolvedIds {} s.chain = .ok answers chain) ∧
      answers.length = d.builder.unresolvedIds.length ∧
      d.Supplied d.builder.unresolvedIds answers t := by
  rcases resolve_ok run with ⟨none, rfl, -⟩ | ⟨answers, asked, count, supplied⟩
  · refine ⟨[], fun some => absurd none some, ?_, ?_⟩
    · rw [none]
      rfl
    · rw [none]
      exact Draft.supplied_nothing h
  · obtain ⟨chain, answered, -⟩ := request_ok_iff.mp asked
    exact ⟨answers, fun _ => ⟨chain, answered⟩, count,
      Draft.supply_ok h (Builder.unresolvedIds_nodup h) count supplied⟩

section

variable {budget : Option UInt64} {coin : Option Address} {s t : Online σ} {data : TransactionData}

theorem Finalization.snapshot (f : Finalization c budget coin s t data) :
    f.draft.builder.snapshot = .ok f.transaction := by
  rcases Builder.finalize_cases f.draft.builder with ⟨e, failed⟩ | ⟨t', _, taken, _, closed⟩
  · cases failed.symm.trans f.closes
  · obtain ⟨rfl, -⟩ := EStateM.Result.ok.inj (closed.symm.trans f.closes)
    exact taken

theorem Finalization.kind (f : Finalization c budget coin s t data) :
    data.kind.transaction = f.transaction :=
  congrArg (fun d => d.kind.transaction) f.data_eq

theorem Finalization.slots (f : Finalization c budget coin s t data) :
    f.draft.builder.slots = data.kind.transaction.inputs.map .resolved := by
  rw [f.kind]
  exact (Builder.snapshot_ok f.snapshot).1

theorem Finalization.input (f : Finalization c budget coin s t data) {i : Nat} {arg : CallArg}
    (place : f.draft.builder.slots[i]? = some (.resolved arg)) :
    data.kind.transaction.inputs[i]? = some arg := by
  rw [f.slots, List.getElem?_map, Option.map_eq_some_iff] at place
  obtain ⟨arg', here, same⟩ := place
  rw [here, InputSlot.resolved.inj same]

theorem Finalization.inputs_length (f : Finalization c budget coin s t data)
    (keys : f.draft.builder.keys = s.session.draft.builder.keys) :
    data.kind.transaction.inputs.length = s.session.draft.builder.slots.length := by
  have lengths : ∀ b : Builder, b.slots.length = b.keys.length := by
    intro b
    rw [Builder.slots, Builder.keys, List.length_map, List.length_map]
  rw [lengths, ← keys, ← lengths, f.slots, List.length_map]

end

/-! ### The budget -/

/-- The transaction that is tried is the draft as it stands, without payment. -/
theorem probe_ok {s : Session} {d : Draft} {price : UInt64} {probe : TransactionData}
    {t : ProgrammableTransaction} (tried : s.probe d price = .ok probe)
    (taken : d.builder.snapshot = .ok t) : probe = s.data t [] price dryRunBudget := by
  unfold Session.probe at tried
  obtain ⟨kind, inspected, tried⟩ := except_bind_ok_iff.mp tried
  obtain ⟨-, -, tried⟩ := except_bind_ok_iff.mp tried
  obtain ⟨t', taken', inspected⟩ := except_bind_ok_iff.mp inspected
  obtain ⟨-, -, inspected⟩ := except_bind_ok_iff.mp inspected
  obtain rfl := Except.ok.inj (taken'.symm.trans taken)
  obtain rfl := Except.ok.inj inspected
  exact (Except.ok.inj tried).symm

/-- A budget is found by one request, and nothing else is done. -/
theorem estimate_asks {d : Draft} {price total : UInt64} {s t : Online σ}
    (run : estimate c d price s = .ok total t) :
    ∃ probe r, s.session.probe d price = .ok probe ∧
      request (c.dryRun (Base64.encode (encode probe))) s = .ok r t ∧
      r.effects.status = .success ∧ total = r.effects.gasUsed.total := by
  unfold estimate at run
  obtain ⟨_, _, now, run⟩ := bind_ok_iff.mp run
  obtain ⟨rfl, rfl⟩ := current_ok_iff.mp now
  obtain ⟨probe, _, made, run⟩ := bind_ok_iff.mp run
  obtain ⟨tried, rfl⟩ := ofExcept_ok_iff.mp made
  obtain ⟨r, _, asked, run⟩ := bind_ok_iff.mp run
  cases ended : r.effects.status with
  | failure error =>
    simp only [ended] at run
    exact (throw_ok_iff.mp run).elim
  | success =>
    simp only [ended] at run
    obtain ⟨same, rfl⟩ := pure_ok_iff.mp run
    exact ⟨probe, r, tried, asked, ended, same.symm⟩

theorem estimate_ok {d : Draft} {price total : UInt64} {s t : Online σ}
    (run : estimate c d price s = .ok total t) :
    ∃ probe r chain, s.session.probe d price = .ok probe ∧
      c.dryRun (Base64.encode (encode probe)) s.chain = .ok r chain ∧
      r.effects.status = .success ∧ total = r.effects.gasUsed.total := by
  obtain ⟨probe, r, tried, asked, success, same⟩ := estimate_asks run
  obtain ⟨chain, answered, -⟩ := request_ok_iff.mp asked
  exact ⟨probe, r, chain, tried, answered, success, same⟩

theorem budgetFor_ok {d : Draft} {price limit : UInt64} {given : Option UInt64} {s t : Online σ}
    (run : budgetFor c d price given s = .ok limit t) :
    (∀ budget, (given <|> s.session.config.defaultBudget) = some budget → limit = budget) ∧
      ((given <|> s.session.config.defaultBudget) = none → estimate c d price s = .ok limit t) := by
  unfold budgetFor at run
  obtain ⟨_, _, now, run⟩ := bind_ok_iff.mp run
  obtain ⟨rfl, rfl⟩ := current_ok_iff.mp now
  cases wanted : given <|> s.session.config.defaultBudget with
  | some budget =>
    rw [wanted] at run
    obtain ⟨rfl, -⟩ := pure_ok_iff.mp run
    exact ⟨fun other same => Option.some.inj same, nofun⟩
  | none =>
    rw [wanted] at run
    exact ⟨nofun, fun _ => run⟩

/-! ### Finalizing -/

/-- What the data of a finalized session has to do with the session it was made from. -/
structure Faithful (c : Channel σ) (given : Option UInt64) (s t : Online σ) (data : TransactionData) :
    Prop where
  commands : data.kind.transaction.commands = s.session.draft.builder.commands
  inputs_length : data.kind.transaction.inputs.length = s.session.draft.builder.slots.length
  resolved : ∀ (i : Nat) (arg : CallArg), s.session.draft.builder.slots[i]? = some (.resolved arg) →
    data.kind.transaction.inputs[i]? = some arg
  /-- The chain is asked for all objects that lack their reference, in the order of their slots, and
  each slot takes the live object at its own place in the answer. -/
  unresolved : ∃ answers,
    (s.session.draft.builder.unresolvedIds ≠ [] → ∃ chain,
      c.objects s.session.draft.builder.unresolvedIds {} s.chain = .ok answers chain) ∧
    answers.length = s.session.draft.builder.unresolvedIds.length ∧
    ∀ (i : Nat) (id : Address) (receiving : Bool),
      s.session.draft.builder.slots[i]? = some (.unresolved id receiving) →
        s.session.draft.builder.unresolvedIds[s.session.draft.builder.requestIndex i]? = some id ∧
        ∃ o : LiveObject, answers[s.session.draft.builder.requestIndex i]? = some (.live o) ∧
          o.id = id ∧ data.kind.transaction.inputs[i]? =
            some (.object (o.supplied receiving (s.session.draft.wantsMutable id)))
  sender : data.sender = s.session.sender
  expiration : data.expiration = s.session.expiration
  /-- A price that is known is kept. -/
  price : ∀ p, s.session.gasPrice = some p → data.gas.price = p
  priced : t.session.Priced data.gas.price
  /-- The budget is the one that is given, or else the one that is configured. -/
  budget : ∀ limit, (given <|> s.session.config.defaultBudget) = some limit → data.gas.budget = limit
  /-- Without either, the transaction is tried, and its total is the budget. -/
  estimate : (given <|> s.session.config.defaultBudget) = none →
    ∃ (asked answered : σ) (r : DryRun),
      c.dryRun (Base64.encode (encode data.unpaid)) asked = .ok r answered ∧
      r.effects.status = .success ∧ data.gas.budget = r.effects.gasUsed.total

/-- Whatever the chain answers, a session is finalized faithfully or not at all. -/
theorem finalize_faithful (c : Channel σ) {s t : Online σ} (reachable : s.session.Reachable)
    {budget : Option UInt64} {coin : Option Address} {data : TransactionData}
    (run : finalize c budget coin s = .ok data t) : Faithful c budget s t data := by
  obtain ⟨f⟩ := finalize_ok run
  have wellFormed := reachable.builder.wellFormed
  obtain ⟨answers, asked, count, supplied⟩ := resolve_supplied wellFormed f.resolves
  obtain ⟨known, learnt⟩ := f.priceLearnt
  have terms : s.session.Frame f.priced.session :=
    ((moves_resolve along_frame c _).ok f.resolves).trans
      ((moves_price (learns_frame c)).ok f.prices)
  have limits := budgetFor_ok f.limits
  rw [terms.config] at limits
  refine {
    commands := ?_, inputs_length := ?_, resolved := ?_, unresolved := ?_
    sender := congrArg TransactionData.sender f.data_eq
    expiration := congrArg TransactionData.expiration f.data_eq
    price := ?_, priced := ?_, budget := ?_, estimate := ?_ }
  · rw [f.kind, (Builder.snapshot_ok f.snapshot).2, supplied.commands]
  · exact f.inputs_length supplied.keys
  · intro i arg place
    exact f.input (supplied.resolved_get wellFormed place)
  · refine ⟨answers, asked, count, ?_⟩
    intro i id receiving place
    obtain ⟨o, answer, same, filled⟩ := supplied.unresolved_get wellFormed place
    exact ⟨Builder.unresolvedIds_get place, o, answer, same, f.input filled⟩
  · intro p before
    rcases learnt with same | ⟨unknown, -⟩
    · exact Option.some.inj (known.symm.trans (same.trans before))
    · cases unknown.symm.trans before
  · -- Finalizing is a step as well, so what is known of prices in reach holds after it.
    have step : after (SessionOp.step c (.finalize budget coin) s) = t :=
      congrArg after (map_of_ok run)
    have reached := Reachable.step c (.finalize budget coin) s reachable
    rw [step] at reached
    exact reached.priced known
  · intro limit wanted
    rw [← limits.1 limit wanted]
    exact congrArg (fun d => d.gas.budget) f.data_eq
  · intro unwanted
    obtain ⟨probe, r, chain, tried, answered, success, total⟩ := estimate_ok (limits.2 unwanted)
    -- The transaction that was tried is the final one but for payment and budget.
    have same : probe = data.unpaid := by
      rw [probe_ok tried f.snapshot, terms.data_eq]
      exact congrArg TransactionData.unpaid f.data_eq.symm
    rw [same] at answered
    refine ⟨_, chain, r, answered, success, ?_⟩
    rw [← total]
    exact congrArg (fun d => d.gas.budget) f.data_eq

/-! ### Objects that are read and received -/

/-- The clock is shared, and every other object is owned. -/
def liveObject (id : Address) : ObjectStatus :=
  .live ⟨id, 7, .zero, none, if id = .clock then .shared 1 else .account (.ofNat 0), none⟩

/-- A chain on which every object lives and every function reads the clock and receives an object. -/
def everyObject : Channel Unit where
  gasPrice := return 1000
  object id _ := throw (.notAvailable id .missing)
  objects ids _ := return ids.map liveObject
  function _ _ _ := return ⟨.everywhere, false, [],
    [.reference (.struct .suiFramework "clock" "Clock" []),
      .struct .suiFramework "transfer" "Receiving" [.typeParameter 0]], []⟩
  coins _ _ _ _ := return ⟨[⟨Coin.gasType, .ofNat 102, 1, .zero, 9000, none⟩], none, false⟩
  dryRun _ := return ⟨⟨.success, ⟨3000, 500, 0, 0⟩, .zero, [], [], []⟩⟩
  execute _ _ _ := throw (.execution .notSigned)

/-- A session with a call that reads the clock and receives another object. -/
def receivesObject : Online Unit :=
  after (SessionOp.step everyObject
    (.moveCall "0x5::inbox::accept" [.objectId .clock, .objectId (.ofNat 101)] []) ⟨start {}, ()⟩)

theorem receivesObject_faithful :
    ∃ data t, finalize everyObject none none receivesObject = .ok data t ∧
      data.kind.transaction.inputs = [.object (.shared ⟨.clock, 1, false⟩),
        .object (.receiving ⟨.ofNat 101, 7, .zero⟩)] ∧
      Faithful everyObject none receivesObject t data := by
  have reachable : receivesObject.session.Reachable := .step everyObject _ _ (.start {})
  have inputs : (value? (finalize everyObject none none receivesObject)).map
      (·.kind.transaction.inputs) = some [.object (.shared ⟨.clock, 1, false⟩),
        .object (.receiving ⟨.ofNat 101, 7, .zero⟩)] := by decide +kernel
  obtain ⟨data, t, run, inputs⟩ := map_value?_eq_some inputs
  exact ⟨data, t, run, inputs, finalize_faithful everyObject reachable run⟩

end Session

end MoveTx
