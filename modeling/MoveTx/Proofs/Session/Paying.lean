import MoveTx.Proofs.Draft.Wiring
import MoveTx.Proofs.Session.Payment

/-!
# Paying

A payment merges coins into the first of them, splits the amounts off it, and sends the part at each place
to the recipient at the same place. That two amounts or two recipients are the same, or were inputs before,
only means that they share an input.
-/

namespace MoveTx
open Step

namespace Draft

variable {d t : Draft} {a : Argument} {coins : List CallValue} {recipients : List Address}
  {amounts : List UInt64}

/-- The command that merges coins into the first of them, if there are others. -/
def merging : List Argument → List Command
  | first :: second :: rest => [.mergeCoins first (second :: rest)]
  | _ => []

/-- Commands that send the results of a command, from one of them on, each to a destination of its own. -/
def sendings (result : Argument) (index : Nat) : List Argument → List Command
  | [] => []
  | destination :: rest =>
    .transferObjects [result.nested index] destination :: sendings result (index + 1) rest

theorem mergeIntoFirst_grows (h : d.builder.WellFormed) (run : mergeIntoFirst coins d = .ok a t) :
    ∃ sources : List Argument, a = sources.head?.getD .gasCoin ∧
      d.builder.Grows (coins.filterMap CallValue.object?) (merging sources) t.builder ∧
      List.Forall₂ t.builder.Names coins sources := by
  obtain ⟨sources, u, lowered, run⟩ := bind_ok_iff.mp run
  obtain ⟨grows, names⟩ := lowerObjects_grows h lowered
  match sources with
  | [] =>
    obtain ⟨rfl, rfl⟩ := pure_ok_iff.mp run
    exact ⟨[], rfl, grows, names⟩
  | [only] =>
    obtain ⟨rfl, rfl⟩ := pure_ok_iff.mp run
    exact ⟨[_], rfl, grows, names⟩
  | first :: second :: rest =>
    obtain ⟨_, v, merged, run⟩ := bind_ok_iff.mp run
    obtain ⟨rfl, rfl⟩ := pure_ok_iff.mp run
    obtain ⟨grows', -⟩ := append_grows grows.wellFormed merged
    have all := grows.trans grows'
    rw [List.append_nil] at all
    exact ⟨_ :: second :: rest, rfl, all, names.imp fun _ _ names => names.mono grows'.ext⟩

theorem sendEach_grows (h : d.builder.WellFormed) {result : Argument} {index : Nat}
    (run : sendEach result index recipients d = .ok () t) :
    ∃ destinations : List Argument, d.builder.Grows [] (sendings result index destinations) t.builder ∧
      List.Forall₂ (fun (recipient : Address) handle => t.builder.Holds recipient.bytes handle)
        recipients destinations := by
  induction recipients generalizing d index with
  | nil =>
    obtain ⟨-, rfl⟩ := pure_ok_iff.mp run
    exact ⟨[], Builder.grows_refl h, .nil⟩
  | cons recipient rest ih =>
    obtain ⟨destination, u, admitted, run⟩ := bind_ok_iff.mp run
    obtain ⟨_, v, sent, run⟩ := bind_ok_iff.mp run
    obtain ⟨grows, holds⟩ := pureInput_grows h admitted
    obtain ⟨grows', -⟩ := append_grows grows.wellFormed sent
    obtain ⟨destinations, grows'', others⟩ := ih grows'.wellFormed run
    exact ⟨destination :: destinations, (grows.trans grows').trans grows'',
      .cons (holds.mono (grows'.trans grows'').ext) others⟩

/-- The k-th sending takes the k-th result from the first on. -/
theorem sendings_get {result : Argument} {index k : Nat} {destinations : List Argument} :
    (sendings result index destinations)[k]? =
      destinations[k]?.map fun destination =>
        .transferObjects [result.nested (index + k)] destination := by
  induction destinations generalizing index k with
  | nil => rfl
  | cons destination rest ih =>
    cases k with
    | zero => rfl
    | succ k =>
      rw [sendings, List.getElem?_cons_succ, ih, List.getElem?_cons_succ, Nat.add_assoc, Nat.add_comm 1 k]

theorem sendings_length {result : Argument} {index : Nat} {destinations : List Argument} :
    (sendings result index destinations).length = destinations.length := by
  induction destinations generalizing index with
  | nil => rfl
  | cons destination rest ih => rw [sendings, List.length_cons, ih, List.length_cons]

theorem sendings_nested {split : UInt16} {destinations : List Argument} {k : Nat} {destination : Argument}
    (room : (sendings (.result split) 0 destinations).length ≤ maxInputs)
    (there : destinations[k]? = some destination) :
    ∃ n : UInt16, n.toNat = k ∧
      (sendings (.result split) 0 destinations)[k]? =
        some (.transferObjects [.nestedResult split n] destination) := by
  have below : k < (sendings (.result split) 0 destinations).length := by
    rw [sendings_length]
    exact (List.getElem?_eq_some_iff.mp there).1
  refine ⟨UInt16.ofNat k, BuilderOp.toNat_ofNat_of_le room below, ?_⟩
  rw [sendings_get, there, Nat.zero_add]
  rfl

theorem paySui_grows (h : d.builder.WellFormed) (run : paySui recipients amounts coins d = .ok a t) :
    ∃ (split : UInt16) (sources parts destinations : List Argument), a = .result split ∧
      split.toNat = d.builder.commands.length + (merging sources).length ∧
      d.builder.Grows (coins.filterMap CallValue.object?)
        (merging sources ++ .splitCoins (sources.head?.getD .gasCoin) parts ::
          sendings (.result split) 0 destinations) t.builder ∧
      List.Forall₂ t.builder.Names coins sources ∧
      List.Forall₂ (fun (amount : UInt64) part => t.builder.Holds (littleEndian 8 amount.toNat) part)
        amounts parts ∧
      List.Forall₂ (fun (recipient : Address) handle => t.builder.Holds recipient.bytes handle)
        recipients destinations := by
  obtain ⟨coin, u, merged, run⟩ := bind_ok_iff.mp run
  obtain ⟨result, v, divided, run⟩ := bind_ok_iff.mp run
  obtain ⟨_, w, sent, run⟩ := bind_ok_iff.mp run
  obtain ⟨rfl, rfl⟩ := pure_ok_iff.mp run
  obtain ⟨sources, rfl, grows, named⟩ := mergeIntoFirst_grows h merged
  obtain ⟨split, source, parts, rfl, place, grows', names, holds⟩ := split_grows grows.wellFormed divided
  obtain ⟨destinations, grows'', delivered⟩ := sendEach_grows grows'.wellFormed sent
  -- The coin to split is given as a handle, which is taken as it is.
  obtain rfl : source = sources.head?.getD .gasCoin := by
    cases names with
    | handle => rfl
    | object names => cases names
  have all : d.builder.Grows (coins.filterMap CallValue.object? ++ [] ++ []) _ w.builder :=
    (grows.trans grows').trans grows''
  rw [List.append_nil, List.append_nil, List.append_assoc] at all
  refine ⟨split, sources, parts, destinations, rfl, ?_, all, ?_, ?_, delivered⟩
  · rw [place, grows.appended, List.length_append]
  · exact named.imp fun _ _ names => names.mono (grows'.trans grows'').ext
  · exact holds.imp fun _ _ holds => holds.mono grows''.ext

end Draft

/-- What a payment does to a builder. Its commands are those of the merge, the split and the transfers, and
the parts of the split go to the recipients one by one. Of what was there before, only slots of objects that
the coins name may be completed. -/
structure Builder.Pays (recipients : List Address) (amounts : List UInt64) (coins : List CallValue)
    (split : UInt16) (sources parts : List Argument) (transfers : List Command) (b c : Builder) : Prop where
  appended : c.commands = b.commands ++ Draft.merging sources ++
    .splitCoins (sources.head?.getD .gasCoin) parts :: transfers
  place : split.toNat = b.commands.length + (Draft.merging sources).length
  sources : List.Forall₂ c.Names coins sources
  parts : List.Forall₂ (fun (amount : UInt64) part => c.Holds (littleEndian 8 amount.toNat) part)
    amounts parts
  count : transfers.length = recipients.length
  transfers : ∀ (k : Nat) (recipient : Address), recipients[k]? = some recipient →
    ∃ (n : UInt16) (destination : Argument), n.toNat = k ∧
      transfers[k]? = some (.transferObjects [.nestedResult split n] destination) ∧
      c.Holds recipient.bytes destination
  kept : ∀ (i : Nat) (key : InputKey) (slot : InputSlot), b.inputs[i]? = some (key, slot) →
    ∃ slot', c.inputs[i]? = some (key, slot') ∧ slot.Completes slot' ∧
      (slot' ≠ slot → ∃ coin ∈ coins, ∃ id, coin.object? = some id ∧ key = .object id)

namespace Session

/-- A payment pays to each recipient the amount at its place. -/
theorem paySui_pays {s t : Session} (reachable : s.Reachable) {recipients : List Address}
    {amounts : List UInt64} {coins : List CallValue} {a : Argument}
    (run : paySui recipients amounts coins s = .ok a t) :
    ∃ split sources parts transfers, a = .result split ∧ amounts.length = recipients.length ∧
      t = { s with draft := t.draft } ∧
      s.draft.builder.Pays recipients amounts coins split sources parts transfers t.draft.builder := by
  unfold paySui at run
  split at run
  · exact (throw_ok_iff.mp run).elim
  rename_i given
  simp only [Bool.or_eq_true, bne_iff_ne, not_or, not_not] at given
  rcases edit_cases (Draft.paySui recipients amounts coins) s with ⟨e, failed⟩ | ⟨_, d, -, -, taken, done⟩
  · cases failed.symm.trans run
  obtain ⟨rfl, rfl⟩ := EStateM.Result.ok.inj (done.symm.trans run)
  have h := reachable.builder.wellFormed
  obtain ⟨split, sources, parts, destinations, rfl, place, grows, named, holds, delivered⟩ :=
    Draft.paySui_grows h taken
  have room : (Draft.sendings (.result split) 0 destinations).length ≤ maxInputs := by
    have bound := grows.wellFormed.commands_le
    rw [grows.appended] at bound
    simp only [List.length_append, List.length_cons] at bound
    exact Nat.le_trans (by omega) (by decide : maxCommands ≤ maxInputs)
  refine ⟨split, sources, parts, Draft.sendings (.result split) 0 destinations, rfl, given.2.symm, rfl, ?_,
    place, named, holds, ?_, ?_, ?_⟩
  · rw [grows.appended, List.append_assoc]
  · rw [Draft.sendings_length, delivered.length_eq]
  · intro k recipient given
    obtain ⟨destination, there, holds⟩ := forall₂_getElem? delivered given
    obtain ⟨n, same, sends⟩ := Draft.sendings_nested room there
    exact ⟨n, destination, same, sends, holds⟩
  · intro i key slot place
    obtain ⟨slot', place', completes, named⟩ := grows.input h place
    refine ⟨slot', place', completes, fun differs => ?_⟩
    obtain ⟨id, among, about⟩ := named differs
    obtain ⟨coin, inside, names⟩ := List.mem_filterMap.mp among
    exact ⟨coin, inside, id, names, about⟩

/-- A session that has the number seven as an input and knows the clock by its id. -/
def startsWithSeven : Session :=
  (after (SessionOp.step twoCoins (.build (.pure (.ofU64 7)))
    (after (SessionOp.step twoCoins (.build (.object (.objectId .clock))) ⟨start {}, ()⟩)))).session

/-- Seven goes to two recipients, one of whom is paid twice, out of a coin and an object that was there. -/
theorem startsWithSeven_pays :
    let recipients : List Address := [.random, .denyList, .random]
    let coins : List CallValue := [.object (coinOf 101 9000).ref, .objectId .clock]
    ∃ t sources parts transfers, paySui recipients [7, 7, 9] coins startsWithSeven = .ok (.result 1) t ∧
      startsWithSeven.draft.builder.Pays recipients [7, 7, 9] coins 1 sources parts transfers
        t.draft.builder := by
  intro recipients coins
  have reachable : startsWithSeven.Reachable := .step twoCoins _ _ (.step twoCoins _ _ (.start {}))
  have given : (value? (paySui recipients [7, 7, 9] coins startsWithSeven)).map id = some (.result 1) := by
    decide +kernel
  obtain ⟨_, t, run, rfl⟩ := map_value?_eq_some given
  obtain ⟨split, sources, parts, transfers, same, -, -, pays⟩ := paySui_pays reachable run
  obtain rfl := Argument.result.inj same
  exact ⟨t, sources, parts, transfers, run, pays⟩

end Session

end MoveTx
