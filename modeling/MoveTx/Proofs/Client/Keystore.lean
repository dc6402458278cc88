import Mathlib.Data.List.Induction
import MoveTx.Client.Config
import MoveTx.Proofs.ByteOrder
import MoveTx.Proofs.Signing.Envelope
import MoveTx.Proofs.Step
import MoveTx.Proofs.Text.Blank

/-!
# Keys that come back

A keystring is read as the key pair that was exported, from between any blanks, and a text that is read
is the keystring of its key with blanks around it. A keystore holds each key under the address it signs
for, the last of those put in for the address, and its keystrings load the same keystore again.
-/

namespace MoveTx
open Step

/-! ### Keystrings -/

namespace KeyPair

theorem ofSecret_ok_iff {scheme : SignatureScheme} {secret : Bytes32} {k : KeyPair} :
    ofSecret scheme secret = .ok k ↔ scheme = .single k.scheme ∧ secret = k.secret := by
  cases scheme with
  | multiSig => exact ⟨nofun, fun known => nomatch known.1⟩
  | single s =>
    constructor
    · intro made
      simp only [ofSecret] at made
      split at made
      · obtain rfl := Except.ok.inj made
        exact ⟨rfl, rfl⟩
      · cases made
    · rintro ⟨same, rfl⟩
      obtain rfl := SignatureScheme.single.inj same
      exact dif_pos k.valid

theorem ofBytes_ok_iff {scheme : SignatureScheme} {bs : Bytes} {k : KeyPair} :
    ofBytes scheme bs = .ok k ↔ scheme = .single k.scheme ∧ bs = k.secret.toBytes := by
  unfold ofBytes
  constructor
  · intro made
    split at made
    · cases made
    · rename_i secret whole
      obtain ⟨known, rfl⟩ := ofSecret_ok_iff.mp made
      exact ⟨known, FixedBytes.ofBytes?_eq_some_iff.mp whole⟩
  · rintro ⟨known, rfl⟩
    rw [FixedBytes.ofBytes?_toBytes]
    exact ofSecret_ok_iff.mpr ⟨known, rfl⟩

theorem ofKeystring_ok_iff_trim {s : String} {k : KeyPair} :
    ofKeystring s = .ok k ↔ Text.trim s = k.keystring := by
  unfold ofKeystring keystring
  constructor
  · intro read
    split at read
    · cases read
    · cases read
    rename_i flag bs decoded
    split at read
    · cases read
    split at read
    · cases read
    · rename_i scheme known
      obtain ⟨rfl, rfl⟩ := ofBytes_ok_iff.mp read
      obtain rfl := SignatureScheme.ofFlag?_eq_some_iff.mp known
      exact Base64.decode?_eq_some_iff.mp decoded
  · intro same
    have scheme : SignatureScheme.ofFlag? k.scheme.flag = some (.single k.scheme) :=
      SignatureScheme.ofFlag?_flag (.single k.scheme)
    have sized : ¬ k.secret.toBytes.length ≠ secretLength := not_not.mpr k.secret.length_eq
    rw [same, Base64.decode?_encode]
    simp only [if_neg sized, scheme]
    exact ofBytes_ok_iff.mpr ⟨rfl, rfl⟩

theorem isBlank_keystring (k : KeyPair) : ∀ c ∈ k.keystring.toList, Text.isBlank c = false := by
  have digits : k.keystring.toList = Base64.encodeChars (k.scheme.flag :: k.secret.toBytes) :=
    String.toList_ofList
  rw [digits]
  exact Base64.isBlank_encodeChars _

/-- The texts that are read as a key are its keystring with blanks around it. -/
theorem ofKeystring_ok_iff {s : String} {k : KeyPair} :
    ofKeystring s = .ok k ↔ Text.Pads s k.keystring := by
  rw [ofKeystring_ok_iff_trim]
  constructor
  · intro same
    rw [← same]
    exact Text.pads_trim s
  · exact fun pads => Text.trim_eq_of_pads pads k.isBlank_keystring

theorem ofKeystring_keystring (k : KeyPair) : ofKeystring k.keystring = .ok k :=
  ofKeystring_ok_iff.mpr (.refl _)

end KeyPair

/-! ### Keystores -/

theorem StoredKey.mk_pair (k : StoredKey) : (⟨k.pair.address, k.pair, rfl⟩ : StoredKey) = k := by
  obtain ⟨_, pair, rfl⟩ := k
  rfl

namespace Keystore

/-- A key is found under its own address. -/
theorem get?_address {s : Keystore} {address : Address} {pair : KeyPair}
    (found : s.get? address = some pair) : pair.address = address := by
  obtain ⟨stored, present, rfl⟩ := Option.map_eq_some_iff.mp found
  have named := List.find?_some present
  rw [← stored.address_eq, eq_of_beq named]

theorem contains_of_get? {s : Keystore} {address : Address} {pair : KeyPair}
    (found : s.get? address = some pair) : s.contains address = true := by
  obtain ⟨stored, present, rfl⟩ := Option.map_eq_some_iff.mp found
  have named := List.find?_some present
  have inside := List.mem_of_find?_eq_some present
  exact List.contains_iff_mem.mpr (List.mem_map.mpr ⟨stored, inside, eq_of_beq named⟩)

theorem find?_insertKey (k : StoredKey) (keys : List StoredKey) (a : Address) :
    (insertKey k keys).find? (fun l => l.address == a) =
      if k.address = a then some k else keys.find? fun l => l.address == a := by
  induction keys with
  | nil => by_cases here : k.address = a <;> simp [insertKey, here]
  | cons other rest ih =>
    rw [insertKey]
    split
    · rename_i same
      -- The key takes the place of the other, which was found under the same address.
      by_cases here : k.address = a
      · simp [here]
      · have there : other.address ≠ a := same ▸ here
        simp [here, there]
    rename_i differs
    split
    · by_cases here : k.address = a <;> simp [here]
    · rw [List.find?_cons, List.find?_cons, ih]
      by_cases there : other.address = a
      · have away : k.address ≠ a := there ▸ differs
        simp [there, away]
      · have skipped : (other.address == a) = false := beq_eq_false_iff_ne.mpr there
        rw [skipped]

/-- A key that is put in is found under its address, and nothing changes under the others. -/
theorem get?_insert (s : Keystore) (pair : KeyPair) (a : Address) :
    (s.insert pair).get? a = if pair.address = a then some pair else s.get? a := by
  unfold get? insert
  rw [find?_insertKey]
  by_cases here : pair.address = a <;> simp [here]

/-- Of the keys put in for an address, the last one stays. -/
theorem get?_foldl_insert (pairs : List KeyPair) (s : Keystore) (a : Address) :
    (pairs.foldl insert s).get? a = (pairs.reverse.find? fun p => p.address == a).or (s.get? a) := by
  induction pairs generalizing s with
  | nil => rfl
  | cons pair rest ih =>
    rw [List.foldl_cons, ih, get?_insert, List.reverse_cons, List.find?_append, Option.or_assoc]
    by_cases here : pair.address = a <;> simp [here]

/-! ### The order of keys -/

/-- The keys ascend by their addresses. -/
def Ascends (keys : List StoredKey) : Prop :=
  keys.Pairwise fun k l => k.address.before l.address = true

theorem mem_of_mem_insertKey {k l : StoredKey} {keys : List StoredKey} (inside : l ∈ insertKey k keys) :
    l = k ∨ l ∈ keys := by
  induction keys with
  | nil => exact Or.inl (List.mem_singleton.mp inside)
  | cons other rest ih =>
    rw [insertKey] at inside
    split at inside
    · rcases List.mem_cons.mp inside with new | old
      · exact Or.inl new
      · exact Or.inr (List.mem_cons_of_mem other old)
    split at inside
    · exact List.mem_cons.mp inside
    · rcases List.mem_cons.mp inside with rfl | later
      · exact Or.inr List.mem_cons_self
      · exact (ih later).imp_right (List.mem_cons_of_mem other)

theorem ascends_insertKey {keys : List StoredKey} (ascends : Ascends keys) (k : StoredKey) :
    Ascends (insertKey k keys) := by
  induction keys with
  | nil => exact List.pairwise_singleton _ _
  | cons other rest ih =>
    obtain ⟨first, others⟩ := List.pairwise_cons.mp ascends
    rw [insertKey]
    split
    · rename_i same
      exact List.pairwise_cons.mpr ⟨fun l later => same ▸ first l later, others⟩
    rename_i differs
    split
    · rename_i before
      refine List.pairwise_cons.mpr ⟨fun l inside => ?_, ascends⟩
      rcases List.mem_cons.mp inside with rfl | later
      · exact before
      · exact Address.before_trans before (first l later)
    · rename_i notBefore
      have behind : other.address.before k.address = true :=
        (Address.before_or.resolve_left differs).resolve_left notBefore
      refine List.pairwise_cons.mpr ⟨fun l inside => ?_, ih others⟩
      rcases mem_of_mem_insertKey inside with rfl | later
      · exact behind
      · exact first l later

theorem ascends_foldl_insert (pairs : List KeyPair) {s : Keystore} (ascends : Ascends s.keys) :
    Ascends (pairs.foldl insert s).keys := by
  induction pairs generalizing s with
  | nil => exact ascends
  | cons pair rest ih => exact ih (ascends_insertKey ascends _)

/-- A key behind all others is put at the end. -/
theorem insertKey_last {k : StoredKey} {keys : List StoredKey}
    (behind : ∀ l ∈ keys, l.address.before k.address = true) : insertKey k keys = keys ++ [k] := by
  induction keys with
  | nil => rfl
  | cons other rest ih =>
    obtain ⟨first, later⟩ := List.forall_mem_cons.mp behind
    have less := Address.before_iff.mp first
    have differs : k.address ≠ other.address := by
      intro same
      rw [same] at less
      exact List.lt_irrefl _ less
    have notBefore : ¬ k.address.before other.address = true :=
      fun before => List.lt_asymm less (Address.before_iff.mp before)
    rw [insertKey, if_neg differs, if_neg notBefore, ih later, List.cons_append]

/-- Keys that are put in by ascending addresses stay in that order. -/
theorem foldl_insert_pairs {keys : List StoredKey} (ascends : Ascends keys) :
    (keys.map (·.pair)).foldl insert empty = ⟨keys⟩ := by
  induction keys using List.reverseRecOn with
  | nil => rfl
  | append_singleton keys k ih =>
    obtain ⟨before, -, behind⟩ := List.pairwise_append.mp ascends
    have last : insertKey k keys = keys ++ [k] :=
      insertKey_last fun l inside => behind l inside k (List.mem_singleton_self k)
    rw [List.map_append, List.foldl_append, ih before, List.map_singleton, List.foldl_cons,
      List.foldl_nil, insert, StoredKey.mk_pair, last]

/-! ### Keystores that come back -/

theorem ofKeystrings_ok_iff {texts : List String} {s : Keystore} :
    ofKeystrings texts = .ok s ↔
      ∃ pairs : List KeyPair, texts.map KeyPair.ofKeystring = pairs.map Except.ok ∧
        pairs.foldl insert empty = s := by
  unfold ofKeystrings
  rw [except_bind_ok_iff]
  simp only [mapM_ok_iff, pure, Except.pure, Except.ok.injEq]

/-- The keystores a program can have: without keys, read from keystrings, or with one more key. -/
inductive Built : Keystore → Prop
  | empty : Built empty
  | read {texts : List String} {s : Keystore} (run : ofKeystrings texts = .ok s) : Built s
  | insert {s : Keystore} (built : Built s) (pair : KeyPair) : Built (s.insert pair)

theorem Built.ascends {s : Keystore} (built : s.Built) : Ascends s.keys := by
  induction built with
  | empty => exact List.Pairwise.nil
  | read run =>
    obtain ⟨pairs, -, rfl⟩ := ofKeystrings_ok_iff.mp run
    exact ascends_foldl_insert pairs List.Pairwise.nil
  | insert built pair ih => exact ascends_insertKey ih _

theorem ofKeystrings_keystrings {s : Keystore} (ascends : Ascends s.keys) :
    ofKeystrings s.keystrings = .ok s := by
  refine ofKeystrings_ok_iff.mpr ⟨s.keys.map (·.pair), ?_, foldl_insert_pairs ascends⟩
  simp only [keystrings, List.map_map, Function.comp_def, KeyPair.ofKeystring_keystring]

end Keystore

/-! ### Configurations -/

/-- A configuration from keystrings is that of their keys, with the first of them active. -/
theorem ClientConfig.ofKeystrings_ok_iff {url : String} {texts : List String} {config : ClientConfig} :
    ofKeystrings url texts = .ok config ↔
      ∃ (first : KeyPair) (rest : List KeyPair),
        texts.map KeyPair.ofKeystring = (first :: rest).map Except.ok ∧
          config = { url, activeAddress := first.address,
                     keystore := (first :: rest).foldl Keystore.insert .empty } := by
  cases texts with
  | nil => exact ⟨nofun, fun ⟨_, _, read, _⟩ => nomatch read⟩
  | cons text texts =>
    constructor
    · intro run
      obtain ⟨first, active, run⟩ := except_bind_ok_iff.mp run
      obtain ⟨keystore, loaded, made⟩ := except_bind_ok_iff.mp run
      obtain rfl := Except.ok.inj made
      obtain ⟨pairs, read, rfl⟩ := Keystore.ofKeystrings_ok_iff.mp (mapError_ok_iff.mp loaded)
      cases pairs with
      | nil => cases read
      | cons pair rest =>
        have same := (List.cons.inj read).1
        rw [mapError_ok_iff.mp active] at same
        obtain rfl := Except.ok.inj same
        exact ⟨first, rest, read, rfl⟩
    · rintro ⟨first, rest, read, rfl⟩
      have active := (List.cons.inj read).1
      have loaded := Keystore.ofKeystrings_ok_iff.mpr ⟨first :: rest, read, rfl⟩
      exact except_bind_ok_iff.mpr ⟨first, mapError_ok_iff.mpr active,
        except_bind_ok_iff.mpr ⟨_, mapError_ok_iff.mpr loaded, rfl⟩⟩

theorem ClientConfig.activeKey_ok {c : ClientConfig} {pair : KeyPair}
    (found : c.keystore.get? c.activeAddress = some pair) : c.activeKey = .ok pair := by
  unfold activeKey
  rw [found]

/-- The sender of a configuration from keystrings has a key in it. -/
theorem ClientConfig.exists_get?_active {url : String} {texts : List String} {config : ClientConfig}
    (run : ofKeystrings url texts = .ok config) :
    ∃ pair, config.keystore.get? config.activeAddress = some pair := by
  obtain ⟨first, rest, -, rfl⟩ := ofKeystrings_ok_iff.mp run
  have present : ((first :: rest).reverse.find? fun p => p.address == first.address).isSome = true :=
    List.find?_isSome.mpr ⟨first, List.mem_reverse.mpr List.mem_cons_self, beq_self_eq_true _⟩
  obtain ⟨pair, found⟩ := Option.isSome_iff_exists.mp present
  refine ⟨pair, ?_⟩
  rw [Keystore.get?_foldl_insert, found]
  rfl

namespace Keystore

/-- A key pair comes back from its keystring with its scheme and its secret, and a text that is read is
the keystring of its key with blanks around it. A keystore has each key under the address of that key,
the last one where several have the same, and its keystrings load it again with the same addresses and
keys. The sender of a configuration from keystrings has a key in it, which signs for the sender. -/
theorem keystrings_restore :
    (∀ k : KeyPair, ∃ again, KeyPair.ofKeystring k.keystring = .ok again ∧
      again.scheme = k.scheme ∧ again.secret = k.secret) ∧
      (∀ (s : String) (k : KeyPair), KeyPair.ofKeystring s = .ok k ↔
        Text.trim s = k.keystring ∧ Text.Pads s k.keystring) ∧
      (∀ s : Keystore, s.Built →
        (∀ a pair, s.get? a = some pair → pair.address = a) ∧
          (∀ pair a, (s.insert pair).get? a = if pair.address = a then some pair else s.get? a) ∧
          ofKeystrings s.keystrings = .ok s) ∧
      (∀ (texts : List String) (s : Keystore), ofKeystrings texts = .ok s →
        ∃ pairs : List KeyPair, texts.map KeyPair.ofKeystring = pairs.map Except.ok ∧
          ∀ a, s.get? a = pairs.reverse.find? fun p => p.address == a) ∧
      ∀ (url : String) (texts : List String) (config : ClientConfig),
        ClientConfig.ofKeystrings url texts = .ok config →
          config.keystore.contains config.activeAddress = true ∧
            ∃ pair, config.activeKey = .ok pair ∧
              config.keystore.get? config.activeAddress = some pair ∧
              pair.address = config.activeAddress := by
  refine ⟨fun k => ⟨k, k.ofKeystring_keystring, rfl, rfl⟩, fun s k => ?_, fun s built => ?_,
    fun texts s run => ?_, fun url texts config run => ?_⟩
  · rw [← KeyPair.ofKeystring_ok_iff_trim, ← KeyPair.ofKeystring_ok_iff, and_self_iff]
  · exact ⟨fun a pair => get?_address, s.get?_insert, ofKeystrings_keystrings built.ascends⟩
  · obtain ⟨pairs, read, rfl⟩ := ofKeystrings_ok_iff.mp run
    refine ⟨pairs, read, fun a => ?_⟩
    rw [get?_foldl_insert]
    exact Option.or_none
  · obtain ⟨pair, found⟩ := ClientConfig.exists_get?_active run
    exact ⟨contains_of_get? found, pair, ClientConfig.activeKey_ok found, found, get?_address found⟩

/-- The keys of the least secrets of two schemes. -/
def leastKeys : List KeyPair :=
  [⟨.secp256k1, .ofNat 1, by decide⟩, ⟨.ed25519, .ofNat 0, rfl⟩]

/-- The same keys may be put in twice, and the first keystring is that of the sender. -/
theorem leastKeys_restore :
    (∃ s : Keystore, ofKeystrings ((leastKeys ++ leastKeys).map KeyPair.keystring) = .ok s ∧
      ofKeystrings s.keystrings = .ok s) ∧
      ∃ config, ClientConfig.ofKeystrings "" (leastKeys.map KeyPair.keystring) = .ok config ∧
        config.keystore.contains config.activeAddress = true := by
  obtain ⟨-, -, kept, -, active⟩ := keystrings_restore
  have read (keys : List KeyPair) :
      (keys.map KeyPair.keystring).map KeyPair.ofKeystring = keys.map Except.ok := by
    simp only [List.map_map, Function.comp_def, KeyPair.ofKeystring_keystring]
  have loaded := ofKeystrings_ok_iff.mpr ⟨leastKeys ++ leastKeys, read _, rfl⟩
  obtain ⟨config, configured⟩ :
      ∃ config, ClientConfig.ofKeystrings "" (leastKeys.map KeyPair.keystring) = .ok config :=
    ⟨_, ClientConfig.ofKeystrings_ok_iff.mpr ⟨_, _, read leastKeys, rfl⟩⟩
  exact ⟨⟨_, loaded, (kept _ (.read loaded)).2.2⟩, config, configured, (active _ _ _ configured).1⟩

end Keystore

end MoveTx
