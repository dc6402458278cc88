import MoveTx.Proofs.Chain.Submissions

/-!
# Listing coins page by page

A page ends with a cursor for the next one, a text that names the place where it goes on. The pages from
a place on are the coins from there on, however many coins a page holds. So all coins of an owner are
listed in the order in which they were added, each as often.
-/

namespace MoveTx
open Step

namespace MemoryChain

variable {m : MemoryChain} {owner : Address}

/-! ### Coins that were added -/

/-- The coin that an event adds to those of an owner and a type. -/
def Event.coin? (owner : Address) (type : String) : Event → Option Coin
  | addCoin o c => if o = owner ∧ c.type = type then some c else none
  | _ => none

theorem coinsOf_addCoin (m : MemoryChain) (o owner : Address) (c : Coin) (type : String) :
    (m.addCoin o c).coinsOf owner type =
      m.coinsOf owner type ++ ((Event.addCoin o c).coin? owner type).toList := by
  have appended : (m.addCoin o c).coins = m.coins ++ [(o, c)] := rfl
  unfold coinsOf Event.coin?
  rw [appended, List.filter_append, List.map_append]
  by_cases counts : o = owner ∧ c.type = type <;> simp [counts]

/-- Nothing but adding a coin makes a difference to the coins. -/
theorem Event.next_coinsOf (e : Event) (m : MemoryChain) (owner : Address) (type : String) :
    (e.next m).coinsOf owner type = m.coinsOf owner type ++ (e.coin? owner type).toList := by
  have kept : ∀ t : MemoryChain, t.coins = m.coins →
      t.coinsOf owner type = m.coinsOf owner type ++ [] := by
    intro t same
    rw [coinsOf, same, List.append_nil]
    rfl
  cases e with
  | addCoin o c => exact coinsOf_addCoin m o owner c type
  | execute tx signatures options =>
    have executed := execute_cases m tx signatures options
    refine kept (after (MemoryChain.execute tx signatures options m)) ?_
    generalize MemoryChain.execute tx signatures options m = r at executed
    cases executed <;> rfl
  | dryRun tx =>
    refine kept (after (MemoryChain.dryRun tx m)) ?_
    rcases dryRun_cases m tx with ⟨e, -, ended⟩ | ⟨data, r, -, ended⟩ <;> rw [ended] <;> rfl
  | function package module name =>
    refine kept (after (lookUpFunction package module name m)) ?_
    rw [after_lookUpFunction]
  | coins owner type cursor limit =>
    refine kept (after (channel.coins owner type cursor limit m)) ?_
    rw [after_coins]
  | gasPrice | object | objects => exact kept m rfl
  | setObject | addFunction | setGasPrice | setCost | failWith | setPageSize => exact kept _ rfl

theorem run_coinsOf (events : List Event) (owner : Address) (type : String) :
    (run events).coinsOf owner type = events.filterMap (Event.coin? owner type) := by
  have along : ∀ m : MemoryChain, (events.foldl (fun m e => e.next m) m).coinsOf owner type =
      m.coinsOf owner type ++ events.filterMap (Event.coin? owner type) := by
    induction events with
    | nil => exact fun m => (List.append_nil _).symm
    | cons e rest ih =>
      intro m
      rw [List.foldl_cons, ih, e.next_coinsOf, List.append_assoc]
      cases added : e.coin? owner type <;> simp [added]
  exact along empty

/-! ### Cursors -/

/-- The text of a place names that place. -/
theorem cursorPlace?_toString {place : Nat} (small : place < UInt64.size) :
    cursorPlace? (toString place) = some place := by
  have text : (toString place).toList = Nat.toDigits 10 place := Nat.toList_repr
  have value := Nat.ofDigitChars_ten_toDigits (n := place)
  have digits : ∀ c ∈ Nat.toDigits 10 place, c.isDigit = true :=
    fun c inside => Nat.isDigit_of_mem_toDigits (by decide) (by decide) inside
  unfold cursorPlace?
  rw [text]
  cases spelled : Nat.toDigits 10 place with
  | nil => exact absurd spelled Nat.toDigits_ne_nil
  | cons c cs =>
    rw [spelled] at digits value
    have unsigned : c ≠ '+' := by
      rintro rfl
      exact absurd (digits _ List.mem_cons_self) (by decide)
    have all : (c :: cs).all Char.isDigit = true := List.all_eq_true.mpr digits
    simp only [Nat.ofDigitChars_eq_foldl, List.foldl_cons, Nat.mul_zero, Nat.zero_add,
      Char.reduceToNat] at value
    simp [unsigned, all, value, small]

/-! ### Pages -/

variable {type : Option String} {coins : List Coin} {start limit : Nat}

theorem page_inner (inner : start + limit < coins.length) :
    page coins start limit =
      ⟨(coins.drop start).take limit, some (toString (start + limit)), true⟩ := by
  have stop : min (start + limit) coins.length = start + limit := Nat.min_eq_left inner.le
  unfold page
  simp only [stop, inner, decide_true, if_true]

theorem page_last (last : coins.length ≤ start + limit) :
    page coins start limit = ⟨coins.drop start, none, false⟩ := by
  have stop : min (start + limit) coins.length = coins.length := Nat.min_eq_right last
  have whole : (coins.drop start).take limit = coins.drop start := by
    apply List.take_of_length_le
    rw [List.length_drop]
    omega
  unfold page
  simp only [stop, whole, Nat.lt_irrefl, decide_false, if_false]

/-- The place at which the page of a cursor starts. -/
def placeOf? : Option String → Option Nat
  | none => some 0
  | some cursor => cursorPlace? cursor

theorem listCoins_ok {cursor : Option String} (placed : placeOf? cursor = some start) :
    m.listCoins owner type cursor none =
      .ok (page (m.coinsOf owner (type.getD Coin.gasType)) start (max m.pageSize 1)) := by
  unfold listCoins
  cases cursor with
  | none =>
    obtain rfl := Option.some.inj placed
    rfl
  | some cursor =>
    have read : cursorPlace? cursor = some start := placed
    simp only [read]
    rfl

/-- The pages from a place on are the coins from there on. -/
theorem coinsFrom_ok (counted : (m.coinsOf owner (type.getD Coin.gasType)).length < UInt64.size)
    {pages start : Nat} {cursor : Option String} (placed : placeOf? cursor = some start)
    (inside : start ≤ (m.coinsOf owner (type.getD Coin.gasType)).length)
    (enough : (m.coinsOf owner (type.getD Coin.gasType)).length < start + pages) :
    channel.coinsFrom owner type pages cursor m =
      .ok ((m.coinsOf owner (type.getD Coin.gasType)).drop start) m := by
  have limited : 0 < max m.pageSize 1 := Nat.lt_of_lt_of_le Nat.one_pos (Nat.le_max_right _ _)
  have asked : ∀ {cursor start}, placeOf? cursor = some start →
      channel.coins owner type cursor none m =
        .ok (page (m.coinsOf owner (type.getD Coin.gasType)) start (max m.pageSize 1)) m := by
    intro cursor start placed
    change ofExcept (m.listCoins owner type cursor none) m = _
    rw [listCoins_ok placed]
    rfl
  generalize m.coinsOf owner (type.getD Coin.gasType) = coins at *
  generalize max m.pageSize 1 = limit at *
  induction pages generalizing cursor start with
  | zero => exact absurd enough (Nat.not_lt_of_le inside)
  | succ pages ih =>
    rw [Channel.coinsFrom, bind_of_ok (asked placed)]
    by_cases inner : start + limit < coins.length
    · have later : channel.coinsFrom owner type pages (some (toString (start + limit))) m =
          .ok (coins.drop (start + limit)) m :=
        ih (cursorPlace?_toString (inner.trans counted)) inner.le (by omega)
      rw [page_inner inner]
      simp only [Option.isSome_some, Bool.and_self, if_true]
      rw [bind_of_ok later, ← List.drop_drop]
      change EStateM.Result.ok _ m = _
      rw [List.take_append_drop]
    · rw [page_last (Nat.le_of_not_lt inner)]
      rfl

/-- All coins are listed, page by page. Whatever has happened to a chain, and whatever the size of its
pages, the list holds the coins that were added for the owner and of the type, in the order in which they
were added and each as often. A count of coins is a word, as are the places that cursors name. -/
theorem run_allCoins (events : List Event) (owner : Address) (type : Option String)
    (counted : (events.filterMap (Event.coin? owner (type.getD Coin.gasType))).length < UInt64.size) :
    channel.allCoins owner type (run events) =
      .ok (events.filterMap (Event.coin? owner (type.getD Coin.gasType))) (run events) := by
  rw [← run_coinsOf] at counted ⊢
  exact coinsFrom_ok counted rfl (Nat.zero_le _) (by rwa [Nat.zero_add])

/-- A coin of 100 that is added twice, and one of 7 after a coin of another type and a coin of another
owner. Pages hold one coin each, since none is not a size. -/
def sampleEvents : List Event :=
  let coin (type : String) (id : Nat) (balance : UInt64) : Coin :=
    ⟨type, .ofNat id, 1, ⟨.ofNat 0⟩, balance, none⟩
  [.addCoin (.ofNat 1) (coin Coin.gasType 5 100), .addCoin (.ofNat 1) (coin "0x2::usd::USD" 6 3),
    .setPageSize 0, .addCoin (.ofNat 2) (coin Coin.gasType 7 40),
    .addCoin (.ofNat 1) (coin Coin.gasType 5 100), .addCoin (.ofNat 1) (coin Coin.gasType 8 7)]

theorem sampleEvents_listed :
    ∃ listed, channel.allCoins (.ofNat 1) none (run sampleEvents) = .ok listed (run sampleEvents) ∧
      listed.map (·.balance) = [100, 100, 7] := by
  have counted : (sampleEvents.filterMap (Event.coin? (.ofNat 1) Coin.gasType)).length < UInt64.size := by
    decide +kernel
  exact ⟨_, run_allCoins sampleEvents (.ofNat 1) none counted, by decide +kernel⟩

end MemoryChain

end MoveTx
