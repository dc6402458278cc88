import MoveTx.Proofs.Session.Wiring

/-!
# Handles of results

Where a command has several results, each has a handle with the number of the result. A handle keeps sixteen
bits of the number, and nothing bounds how many results there are: amounts that are the same share one input.
So the handles are distinct as long as the numbers fit, and repeat from then on.
-/

namespace MoveTx
open Step

/-- The handles of so many results of a command, in order, with as much of their numbers as a handle keeps. -/
structure Argument.Numbers (m : UInt16) (count : Nat) (handles : List Argument) : Prop where
  length : handles.length = count
  handle : ∀ k < count, ∃ n : UInt16, handles[k]? = some (.nestedResult m n) ∧ n.toNat = k % UInt16.size
  distinct : handles.Nodup ↔ count ≤ UInt16.size

namespace Argument

variable {m : UInt16} {count : Nat}

theorem nested_get {k : Nat} (below : k < count) :
    ((List.range count).map (result m).nested)[k]? = some (.nestedResult m (UInt16.ofNat k)) := by
  rw [List.getElem?_map, List.getElem?_range below]
  rfl

theorem nested_nodup_iff : ((List.range count).map (result m).nested).Nodup ↔ count ≤ UInt16.size := by
  constructor
  · intro distinct
    by_contra crowded
    have inside : UInt16.size < count := Nat.lt_of_not_le crowded
    have first : 0 < count := Nat.lt_trans (by decide) inside
    -- The number of the result after the last that fits is cut to that of the first.
    have same : ((List.range count).map (result m).nested)[0]? =
        ((List.range count).map (result m).nested)[UInt16.size]? := by
      rw [nested_get first, nested_get inside]
      rfl
    cases (List.getElem?_inj (by simpa using first) distinct).mp same
  · intro fits
    apply List.Nodup.map_on _ List.nodup_range
    intro k inside k' inside' same
    have below : k < UInt16.size := Nat.lt_of_lt_of_le (List.mem_range.mp inside) fits
    have below' : k' < UInt16.size := Nat.lt_of_lt_of_le (List.mem_range.mp inside') fits
    have numbers := congrArg UInt16.toNat (Argument.nestedResult.inj same).2
    rw [UInt16.toNat_ofNat', UInt16.toNat_ofNat', Nat.mod_eq_of_lt below, Nat.mod_eq_of_lt below'] at numbers
    exact numbers

theorem numbers_nested : Numbers m count ((List.range count).map (result m).nested) where
  length := by rw [List.length_map, List.length_range]
  handle := fun k below => ⟨_, nested_get below, UInt16.toNat_ofNat'⟩
  distinct := nested_nodup_iff

/-- A call of a function that returns several values gives the handle of each. -/
theorem numbers_returned (several : 1 < count) : Numbers m count ((result m).returned count) := by
  unfold returned
  rw [if_pos several]
  exact numbers_nested

end Argument

namespace Draft

variable {d t : Draft} {coin : CallValue} {amounts : List UInt64} {handles : List Argument}

theorem splitCoin_numbers (h : d.builder.WellFormed) (run : splitCoin coin amounts d = .ok handles t) :
    ∃ (m : UInt16) (source : Argument) (parts : List Argument),
      t.builder.commands = d.builder.commands ++ [.splitCoins source parts] ∧
        m.toNat = d.builder.commands.length ∧ parts.length = amounts.length ∧
          Argument.Numbers m amounts.length handles := by
  obtain ⟨result, u, divided, run⟩ := bind_ok_iff.mp run
  obtain ⟨rfl, rfl⟩ := pure_ok_iff.mp run
  obtain ⟨m, source, parts, rfl, place, grows, -, holds⟩ := split_grows h divided
  exact ⟨m, source, parts, grows.appended, place, holds.length_eq.symm, Argument.numbers_nested⟩

end Draft

namespace Session

variable {σ : Type}

/-- Every handle that splitting a coin or calling a function gives is that of the result at its place, as far
as its number fits. The handles are distinct exactly when all numbers fit. -/
theorem results_numbered (c : Channel σ) {s : Online σ} (reachable : s.session.Reachable) :
    (∀ coin (amounts : List UInt64) handles t, splitCoin coin amounts s.session = .ok handles t →
      ∃ (m : UInt16) (source : Argument) (parts : List Argument),
        t.draft.builder.commands = s.session.draft.builder.commands ++ [.splitCoins source parts] ∧
          m.toNat = s.session.draft.builder.commands.length ∧ parts.length = amounts.length ∧
            Argument.Numbers m amounts.length handles) ∧
      ∀ target values typeArguments handles t,
        moveCall c target values typeArguments s = .ok handles t →
          ∃ (call : CallTarget) (f : MoveFunction) (u : Online σ) (arguments : List Argument) (m : UInt16),
            CallTarget.parse target = .ok call ∧
            function c call.package call.module.name call.function.name s = .ok f u ∧
              t.session.draft.builder.commands[m.toNat]? = some (.moveCall
                ⟨call.package, call.module, call.function, typeArguments, arguments⟩) ∧
                t.session.draft.builder.commands.length = m.toNat + 1 ∧
                  (f.returns.length ≤ 1 → handles = [.result m]) ∧
                    (1 < f.returns.length → Argument.Numbers m f.returns.length handles) := by
  have h := reachable.builder.wellFormed
  constructor
  · intro coin amounts handles t run
    rcases edit_cases (Draft.splitCoin coin amounts) s.session with ⟨e, failed⟩ | ⟨_, d, -, -, taken, done⟩
    · cases failed.symm.trans run
    · obtain ⟨rfl, rfl⟩ := EStateM.Result.ok.inj (done.symm.trans run)
      exact Draft.splitCoin_numbers h taken
  · intro target values typeArguments handles t run
    obtain ⟨call, f, u, d, parsed, found, -, taken, -, final⟩ := moveCall_ok run
    obtain ⟨vectors, arguments, m, rfl, place, calls⟩ := Draft.call_grows h taken
    have ends : t.session.draft.builder = d.builder := by rw [final]
    have count : m.toNat = (s.session.draft.builder.commands ++ vectors).length := by
      rw [place, List.length_append]
    refine ⟨call, f, u, arguments, m, parsed, found, ?_, ?_, ?_, Argument.numbers_returned⟩
    · rw [ends, calls.appended, count]
      exact List.getElem?_concat_length
    · rw [ends, calls.appended, count, List.length_append]
      rfl
    · intro single
      exact if_neg (Nat.not_lt_of_le single)

/-- Three parts of the gas coin, two of them equal, and two returned numbers have handles of their own. -/
theorem hasSplit_numbered :
    (∃ handles t, splitCoin (.argument .gasCoin) [7, 7, 9] hasSplit.session = .ok handles t ∧
      handles.length = 3 ∧ handles.Nodup) ∧
    ∃ handles t, moveCall guild "0x5::guild::hire" hiring [] hasSplit = .ok handles t ∧
      handles.length = 2 ∧ handles.Nodup := by
  have reachable : hasSplit.session.Reachable := .step guild _ _ (.start {})
  obtain ⟨splits, calls⟩ := results_numbered guild reachable
  constructor
  · have given : (value? (splitCoin (.argument .gasCoin) [7, 7, 9] hasSplit.session)).map List.length =
        some 3 := by decide +kernel
    obtain ⟨handles, t, run, count⟩ := map_value?_eq_some given
    obtain ⟨m, source, parts, -, -, -, numbers⟩ := splits _ _ _ _ run
    exact ⟨handles, t, run, count, numbers.distinct.mpr (by decide)⟩
  · have given : (value? (moveCall guild "0x5::guild::hire" hiring [] hasSplit)).map List.length =
        some 2 := by decide +kernel
    obtain ⟨handles, t, run, count⟩ := map_value?_eq_some given
    obtain ⟨call, f, u, arguments, m, -, -, -, -, single, several⟩ := calls _ _ _ _ _ run
    rcases Nat.lt_or_ge 1 f.returns.length with more | one
    · have numbers := several more
      have two : f.returns.length = 2 := numbers.length.symm.trans count
      exact ⟨handles, t, run, count, numbers.distinct.mpr (two ▸ by decide)⟩
    · rw [single one] at count
      cases count

/-! ### More results than numbers -/

theorem edit_of_ok {α : Type} {x : DraftStep α} {s : Session} {a : α} {d : Draft}
    (isOpen : ensureOpen s = .ok () s) (taken : x s.draft = .ok a d) :
    edit x s = .ok a { s with draft := d } := by
  unfold edit
  rw [bind_of_ok isOpen, get_bind, taken]
  rfl

/-- A draft that has the number one as its only input. -/
def oneInput : Draft :=
  after (Draft.pureInput (.ofU64 1) .empty)

/-- Ones are split off the gas coin in any number, since they are all the same input. -/
theorem splitCoin_ones (count : Nat) :
    ∃ t, splitCoin (.argument .gasCoin) (List.replicate (count + 1) 1) (start {}) =
      .ok ((List.range (count + 1)).map (Argument.result 0).nested) t := by
  have first : Draft.pureInput (.ofU64 1) .empty = .ok (.input 0) oneInput := rfl
  have again : Draft.pureInput (.ofU64 1) oneInput = .ok (.input 0) oneInput := rfl
  have others : (List.replicate count 1).mapM (fun amount => Draft.pureInput (.ofU64 amount)) oneInput =
      .ok (List.replicate count (.input 0)) oneInput := by
    induction count with
    | zero => rfl
    | succ count ih =>
      rw [List.replicate_succ, List.mapM_cons, bind_of_ok again, bind_of_ok ih]
      rfl
  have parts : (List.replicate (count + 1) 1).mapM (fun amount => Draft.pureInput (.ofU64 amount)) .empty =
      .ok (.input 0 :: List.replicate count (.input 0)) oneInput := by
    rw [List.replicate_succ, List.mapM_cons, bind_of_ok first, bind_of_ok others]
    rfl
  have divided : Draft.split (.argument .gasCoin) (List.replicate (count + 1) 1) .empty =
      .ok (.result 0) _ := bind_of_ok parts
  have taken : Draft.splitCoin (.argument .gasCoin) (List.replicate (count + 1) 1) .empty =
      .ok ((List.range (List.replicate (count + 1) (1 : UInt64)).length).map (Argument.result 0).nested) _ :=
    bind_of_ok divided
  rw [List.length_replicate] at taken
  have isOpen : ensureOpen (start {}) = .ok () (start {}) := rfl
  exact ⟨_, edit_of_ok isOpen taken⟩

/-- One coin more than there are numbers: its handle is that of the first. -/
theorem splitCoin_repeats :
    ∃ handles t, splitCoin (.argument .gasCoin) (List.replicate 65537 1) (start {}) = .ok handles t ∧
      handles.length = 65537 ∧ handles[0]? = some (.nestedResult 0 0) ∧
        handles[65536]? = some (.nestedResult 0 0) ∧ ¬ handles.Nodup := by
  obtain ⟨t, run⟩ := splitCoin_ones 65536
  have numbers := @Argument.numbers_nested 0 65537
  refine ⟨_, t, run, numbers.length, Argument.nested_get (by decide), Argument.nested_get (by decide), ?_⟩
  rw [numbers.distinct]
  decide

end Session

end MoveTx
