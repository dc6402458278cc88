import MoveTx.Proofs.Object
import MoveTx.Proofs.PureValue.Typing

/-!
# Pure values by their type

`PureValue.read` reads the bytes of a value by its type alone. It takes the bytes of any value of the type
off the front of its input, and no other bytes, and gives the `plain` value that stands for them.
Therefore the bytes of a value show where they end to whoever knows the type.
-/

namespace MoveTx
open Step

/-! ### Counts of any size -/

namespace Reader

/-- Reads the groups of an integer however many there are. Only the first may be zero at the end. -/
def anyGroups : (isFirst : Bool) → Bytes → EStateM.Result CodecError Bytes Nat
  | _, [] => .error .unterminatedVarInt []
  | isFirst, b :: rest =>
    if b.toNat < 128 then
      if isFirst = false ∧ b.toNat = 0 then .error .nonMinimalLength rest else .ok b.toNat rest
    else
      match anyGroups false rest with
      | .ok high rest => .ok (b.toNat % 128 + 128 * high) rest
      | .error e rest => .error e rest

/-- An integer in groups of seven bits, of any size. -/
def count : Reader Nat :=
  anyGroups true

theorem anyGroups_ok_iff {isFirst : Bool} {n : Nat} {bs rest : Bytes} :
    anyGroups isFirst bs = .ok n rest ↔
      (isFirst = false → n ≠ 0) ∧ bs = Codec.uleb n ++ rest := by
  induction bs generalizing isFirst n with
  | nil => simp [anyGroups, uleb_ne_nil]
  | cons b bs ih =>
    have byte := b.toNat_lt
    have value {k : Nat} (small : k < 256) : (UInt8.ofNat k).toNat = k :=
      UInt8.toNat_ofNat_of_lt' small
    rw [anyGroups]
    constructor
    · intro read
      split at read
      · rename_i last
        split at read
        · cases read
        · rename_i allowed
          obtain ⟨rfl, rfl⟩ := EStateM.Result.ok.inj read
          rw [uleb_small last, UInt8.ofNat_toNat]
          exact ⟨fun later zero => allowed ⟨later, zero⟩, rfl⟩
      · rename_i more
        split at read
        · rename_i high left later
          obtain ⟨rfl, rfl⟩ := EStateM.Result.ok.inj read
          obtain ⟨nonzero, rfl⟩ := ih.mp later
          have positive := nonzero rfl
          have low : (b.toNat % 128 + 128 * high) % 128 + 128 = b.toNat := by omega
          have quotient : (b.toNat % 128 + 128 * high) / 128 = high := by omega
          rw [uleb_large (n := b.toNat % 128 + 128 * high) (by omega), low, quotient, UInt8.ofNat_toNat]
          exact ⟨fun _ => by omega, rfl⟩
        · cases read
    · rintro ⟨allowed, written⟩
      by_cases small : n < 128
      · rw [uleb_small small] at written
        obtain ⟨rfl, rfl⟩ := List.cons.inj written
        rw [value (by omega), if_pos small, if_neg fun zero => allowed zero.1 zero.2]
      · rw [uleb_large small] at written
        obtain ⟨rfl, behind⟩ := List.cons.inj written
        have high : anyGroups false bs = .ok (n / 128) rest := ih.mpr ⟨fun _ => by omega, behind⟩
        have joined : (n % 128 + 128) % 128 + 128 * (n / 128) = n := by omega
        rw [value (by omega), if_neg (by omega), high]
        simp only [joined]

theorem count_ok_iff {n : Nat} {bs rest : Bytes} : count bs = .ok n rest ↔ bs = Codec.uleb n ++ rest := by
  unfold count
  rw [anyGroups_ok_iff]
  exact and_iff_right nofun

end Reader

/-! ### Reading by the type -/

namespace Scalar

/-- Reads a value of a primitive type. Nothing is ever written at the type of signers. -/
def read : PrimitiveType → Reader Scalar
  | .bool => bool <$> decode
  | .u8 => u8 <$> decode
  | .u16 => u16 <$> decode
  | .u32 => u32 <$> decode
  | .u64 => u64 <$> decode
  | .u128 => u128 <$> decode
  | .u256 => u256 <$> Reader.fixed 32
  | .address => address <$> decode
  | .signer => throw (.invalidValue "signer" "it has no bytes")

/-- Reads UTF-8 text after its count of bytes. -/
def readText (count : Reader Nat) : Reader Scalar := do
  let n ← count
  match textOfBytes? (← Reader.take n) with
  | some s => return .text s
  | none => throw .invalidUtf8

end Scalar

namespace PureValue

/-- Reads a value by its type, where `count` reads the counts of sequences and texts. Of structs, only
strings and optional values have a layout that their names tell. -/
def read (count : Reader Nat) : TypeTag → Reader PureValue
  | .primitive p => .scalar <$> Scalar.read p
  | .vector t => do
    let n ← count
    return .seq (← Reader.times (read count t) n)
  | .struct a m n ts =>
    match ts with
    | [] =>
      if TypeTag.struct a m n [] = StructTag.string.toTypeTag then .scalar <$> Scalar.readText count
      else throw (.invalidValue n.name "its fields are not known")
    | [t] =>
      if TypeTag.struct a m n [t] = (StructTag.option t).toTypeTag then
        ofOption <$> Reader.option (read count t)
      else throw (.invalidValue n.name "its fields are not known")
    | _ => throw (.invalidValue n.name "its fields are not known")

end PureValue

/-! ### Plain values -/

/-- What the type alone tells of a value: an integer without its sign, and bytes one by one. -/
def Scalar.plain : Scalar → PureValue
  | .i8 v => .scalar (.u8 v.toUInt8)
  | .i16 v => .scalar (.u16 v.toUInt16)
  | .i32 v => .scalar (.u32 v.toUInt32)
  | .i64 v => .scalar (.u64 v.toUInt64)
  | .i128 v => .scalar (.u128 v)
  | .digest v => .seq (v.bytes.map .ofU8)
  | .bytes v => .seq (v.map .ofU8)
  | s => .scalar s

namespace PureValue

mutual

def plain : PureValue → PureValue
  | .scalar s => s.plain
  | .seq items => .seq (plainList items)
  | .absent => .absent
  | .present v => .present (plain v)

def plainList : List PureValue → List PureValue
  | [] => []
  | v :: vs => plain v :: plainList vs

end

theorem plainList_eq (vs : List PureValue) : plainList vs = vs.map plain := by
  induction vs with
  | nil => rfl
  | cons v vs ih => rw [plainList, ih, List.map_cons]

theorem plain_seq (items : List PureValue) : plain (.seq items) = .seq (items.map plain) := by
  rw [plain, plainList_eq]

theorem plain_seq_eq_self_iff {items : List PureValue} :
    plain (.seq items) = .seq items ↔ ∀ item ∈ items, plain item = item := by
  have each := List.map_inj_left (l := items) (f := plain) (g := id)
  rw [List.map_id] at each
  rw [plain_seq, PureValue.seq.injEq]
  exact each

theorem toBytesList_eq (vs : List PureValue) : toBytesList vs = vs.flatMap toBytes := by
  induction vs with
  | nil => rfl
  | cons v vs ih => rw [toBytesList, ih, List.flatMap_cons]

theorem toBytes_seq (items : List PureValue) :
    toBytes (.seq items) = Codec.uleb items.length ++ items.flatMap toBytes := by
  rw [toBytes, toBytesList_eq]

/-- A sequence of bytes is written as they are. -/
theorem toBytes_ofU8s (bs : Bytes) : toBytes (.seq (bs.map .ofU8)) = Codec.bytes bs := by
  have each : bs.flatMap (fun b => toBytes (.ofU8 b)) = bs := List.flatMap_singleton' bs
  rw [toBytes_seq, List.length_map, List.flatMap_map, each]
  rfl

end PureValue

theorem Scalar.toBytes_plain (s : Scalar) : s.plain.toBytes = s.toBytes := by
  cases s with
  | digest v => exact PureValue.toBytes_ofU8s v.bytes
  | bytes v => exact PureValue.toBytes_ofU8s v
  | _ => rfl

namespace PureValue

mutual

theorem toBytes_plain : (v : PureValue) → v.plain.toBytes = v.toBytes
  | .scalar s => s.toBytes_plain
  | .seq items => by
    rw [plain, toBytes, toBytes, toBytesList_plain items, plainList_eq, List.length_map]
  | .absent => rfl
  | .present v => congrArg (1 :: ·) (toBytes_plain v)

theorem toBytesList_plain : (vs : List PureValue) → toBytesList (plainList vs) = toBytesList vs
  | [] => rfl
  | v :: vs => by rw [plainList, toBytesList, toBytesList, toBytes_plain v, toBytesList_plain vs]

end

/-- The plain value has the types of the value. -/
theorem HasType.plain {v : PureValue} {t : TypeTag} (typed : HasType v t) : HasType v.plain t := by
  induction typed with
  | scalar s =>
    have byBytes (bs : Bytes) : HasType (.seq (bs.map .ofU8)) (.vector .u8) :=
      .seq (List.forall_mem_map.mpr fun b _ => .scalar (.u8 b))
    cases s with
    | digest v => exact byBytes v.bytes
    | bytes v => exact byBytes v
    | i8 v => exact .scalar (.u8 v.toUInt8)
    | i16 v => exact .scalar (.u16 v.toUInt16)
    | i32 v => exact .scalar (.u32 v.toUInt32)
    | i64 v => exact .scalar (.u64 v.toUInt64)
    | i128 v => exact .scalar (.u128 v)
    | _ => exact .scalar _
  | seq each ih =>
    rw [plain_seq]
    exact .seq (List.forall_mem_map.mpr ih)
  | absent t => exact .absent t
  | present inside ih => exact .present ih

theorem HasType.plain_plain {v : PureValue} {t : TypeTag} (typed : HasType v t) :
    v.plain.plain = v.plain := by
  induction typed with
  | scalar s =>
    have byBytes (bs : Bytes) : (PureValue.seq (bs.map .ofU8)).plain = .seq (bs.map .ofU8) := by
      rw [plain_seq, List.map_map]
      rfl
    cases s with
    | digest v => exact byBytes v.bytes
    | bytes v => exact byBytes v
    | _ => rfl
  | seq each ih =>
    rw [plain_seq, plain_seq, List.map_map]
    exact congrArg PureValue.seq (List.map_congr_left ih)
  | absent t => rfl
  | present inside ih => exact congrArg PureValue.present ih

/-! ### Types by the form of the value -/

section

variable {v : PureValue} {t : TypeTag}

theorem hasType_scalar_iff {s : Scalar} : HasType (.scalar s) t ↔ s.typeTag = t := by
  constructor
  · intro typed
    cases typed
    rfl
  · rintro rfl
    exact .scalar s

theorem hasType_seq_iff {items : List PureValue} :
    HasType (.seq items) t ↔ ∃ u, t = .vector u ∧ ∀ item ∈ items, HasType item u := by
  constructor
  · intro typed
    cases typed with
    | seq each => exact ⟨_, rfl, each⟩
  · rintro ⟨u, rfl, each⟩
    exact .seq each

theorem hasType_absent_iff : HasType .absent t ↔ ∃ u, t = (StructTag.option u).toTypeTag := by
  constructor
  · intro typed
    cases typed with
    | absent u => exact ⟨u, rfl⟩
  · rintro ⟨u, rfl⟩
    exact .absent u

theorem hasType_present_iff :
    HasType (.present v) t ↔ ∃ u, t = (StructTag.option u).toTypeTag ∧ HasType v u := by
  constructor
  · intro typed
    cases typed with
    | present inside => exact ⟨_, rfl, inside⟩
  · rintro ⟨u, rfl, inside⟩
    exact .present inside

end

end PureValue

/-! ### Counts of a value -/

/-- The count in front of texts and bytes. -/
def Scalar.count? : Scalar → Option Nat
  | .text v => some (textBytes v).length
  | .digest v => some v.bytes.length
  | .bytes v => some v.length
  | _ => none

namespace PureValue

/-- Every count in the bytes of the value is one of those that `fits`. -/
inductive Counted (fits : Nat → Prop) : PureValue → Prop
  | scalar {s : Scalar} (here : ∀ n ∈ s.count?, fits n) : Counted fits (.scalar s)
  | seq {items : List PureValue} (here : fits items.length)
      (each : ∀ item ∈ items, Counted fits item) : Counted fits (.seq items)
  | absent : Counted fits .absent
  | present {v : PureValue} (inside : Counted fits v) : Counted fits (.present v)

variable {fits : Nat → Prop} {v : PureValue} {t : TypeTag}

theorem HasType.counted (all : ∀ n, fits n) (typed : HasType v t) : Counted fits v := by
  induction typed with
  | scalar s => exact .scalar fun n _ => all n
  | seq each ih => exact .seq (all _) ih
  | absent t => exact .absent
  | present inside ih => exact .present ih

theorem Counted.plain (counted : Counted fits v) : Counted fits v.plain := by
  induction counted with
  | @scalar s here =>
    have byBytes {bs : Bytes} (few : fits bs.length) : Counted fits (.seq (bs.map .ofU8)) :=
      .seq (by rwa [List.length_map]) (List.forall_mem_map.mpr fun b _ => .scalar nofun)
    cases s with
    | digest v => exact byBytes (here _ rfl)
    | bytes v => exact byBytes (here _ rfl)
    | text v => exact .scalar here
    | _ => exact .scalar nofun
  | seq here each ih =>
    rw [plain_seq]
    exact .seq (by rwa [List.length_map]) (List.forall_mem_map.mpr ih)
  | absent => exact .absent
  | present inside ih => exact .present ih

end PureValue

/-! ### Values that are read

What is read at a type is a plain value of the type, with counts that could be read.
-/

namespace PureValue

section

variable {fits : Nat → Prop} {v : PureValue} {t : TypeTag}

/-- The values that a reader of counts which `fits` finds at the type. -/
def ReadAt (fits : Nat → Prop) (t : TypeTag) (v : PureValue) : Prop :=
  HasType v t ∧ Counted fits v ∧ v.plain = v

theorem HasType.readAt_plain (typed : HasType v t) (counted : Counted fits v) :
    ReadAt fits t v.plain :=
  ⟨typed.plain, counted.plain, typed.plain_plain⟩

theorem readAt_primitive_iff {p : PrimitiveType} :
    ReadAt fits (.primitive p) v ↔
      ∃ s, v = .scalar s ∧ s.typeTag = .primitive p ∧ s.plain = .scalar s := by
  constructor
  · rintro ⟨typed, -, plain⟩
    cases v with
    | scalar s => exact ⟨s, rfl, hasType_scalar_iff.mp typed, plain⟩
    | seq items => exact nomatch hasType_seq_iff.mp typed
    | absent => exact nomatch hasType_absent_iff.mp typed
    | present w => exact nomatch hasType_present_iff.mp typed
  · rintro ⟨s, rfl, typed, plain⟩
    refine ⟨hasType_scalar_iff.mpr typed, .scalar ?_, plain⟩
    cases s with
    | text | digest | bytes => cases typed
    | _ => exact nofun

theorem readAt_vector_iff :
    ReadAt fits (.vector t) v ↔
      ∃ items, v = .seq items ∧ fits items.length ∧ ∀ item ∈ items, ReadAt fits t item := by
  constructor
  · rintro ⟨typed, counted, plain⟩
    cases v with
    | scalar s =>
      have typed := hasType_scalar_iff.mp typed
      cases s with
      | digest | bytes => cases plain
      | _ => cases typed
    | seq items =>
      obtain ⟨_, same, each⟩ := hasType_seq_iff.mp typed
      cases same
      cases counted with
      | seq few every =>
        have fixed := plain_seq_eq_self_iff.mp plain
        exact ⟨items, rfl, few, fun item inside =>
          ⟨each item inside, every item inside, fixed item inside⟩⟩
    | absent => exact nomatch hasType_absent_iff.mp typed
    | present w => exact nomatch hasType_present_iff.mp typed
  · rintro ⟨items, rfl, few, each⟩
    exact ⟨.seq fun item inside => (each item inside).1,
      .seq few fun item inside => (each item inside).2.1,
      plain_seq_eq_self_iff.mpr fun item inside => (each item inside).2.2⟩

theorem string_ne_option : StructTag.string.toTypeTag ≠ (StructTag.option t).toTypeTag := by
  intro same
  cases (TypeTag.struct.inj same).2.2.2

theorem readAt_string_iff :
    ReadAt fits StructTag.string.toTypeTag v ↔
      ∃ text, v = .scalar (.text text) ∧ fits (textBytes text).length := by
  constructor
  · rintro ⟨typed, counted, -⟩
    cases v with
    | scalar s =>
      have typed := hasType_scalar_iff.mp typed
      cases counted with
      | scalar here =>
        cases s with
        | text text => exact ⟨text, rfl, here _ rfl⟩
        | _ => cases typed
    | seq items => exact nomatch hasType_seq_iff.mp typed
    | absent =>
      obtain ⟨_, same⟩ := hasType_absent_iff.mp typed
      exact absurd same string_ne_option
    | present w =>
      obtain ⟨_, same, -⟩ := hasType_present_iff.mp typed
      exact absurd same string_ne_option
  · rintro ⟨text, rfl, few⟩
    exact ⟨.scalar (.text text), .scalar (by rintro _ ⟨⟩; exact few), rfl⟩

theorem readAt_option_iff :
    ReadAt fits (StructTag.option t).toTypeTag v ↔
      ∃ o, v = ofOption o ∧ ∀ w ∈ o, ReadAt fits t w := by
  constructor
  · rintro ⟨typed, counted, plain⟩
    cases v with
    | scalar s =>
      have typed := hasType_scalar_iff.mp typed
      cases s with
      | text => exact absurd typed string_ne_option
      | _ => cases typed
    | seq items => exact nomatch hasType_seq_iff.mp typed
    | absent => exact ⟨none, rfl, nofun⟩
    | present w =>
      obtain ⟨_, same, inside⟩ := hasType_present_iff.mp typed
      cases same
      cases counted with
      | present counted =>
        refine ⟨some w, rfl, ?_⟩
        rintro _ ⟨⟩
        exact ⟨inside, counted, PureValue.present.inj plain⟩
  · rintro ⟨o, rfl, inside⟩
    cases o with
    | none => exact ⟨.absent t, .absent, rfl⟩
    | some w =>
      obtain ⟨typed, counted, plain⟩ := inside w rfl
      exact ⟨.present typed, .present counted, congrArg PureValue.present plain⟩

/-- Only strings and optional values have values. -/
theorem HasType.eq_string_or_option {a : Address} {m n : Identifier} {ts : List TypeTag}
    (typed : HasType v (.struct a m n ts)) :
    TypeTag.struct a m n ts = StructTag.string.toTypeTag ∨
      ∃ t, TypeTag.struct a m n ts = (StructTag.option t).toTypeTag := by
  cases v with
  | scalar s =>
    have typed := hasType_scalar_iff.mp typed
    cases s with
    | text text => exact Or.inl typed.symm
    | _ => cases typed
  | seq items => exact nomatch hasType_seq_iff.mp typed
  | absent =>
    obtain ⟨t, same⟩ := hasType_absent_iff.mp typed
    exact Or.inr ⟨t, same⟩
  | present w =>
    obtain ⟨t, same, -⟩ := hasType_present_iff.mp typed
    exact Or.inr ⟨t, same⟩

end

end PureValue

/-! ### What is read -/

section

variable {fits : Nat → Prop} {count : Reader Nat} {bs rest : Bytes}

/-- At a primitive type stand the plain values of that type. -/
theorem Scalar.read_ok_iff {p : PrimitiveType} {s : Scalar} :
    Scalar.read p bs = .ok s rest ↔
      (s.typeTag = .primitive p ∧ s.plain = .scalar s) ∧ bs = s.toBytes ++ rest := by
  constructor
  · intro read
    cases p with
    | signer => exact (throw_ok_iff.mp read).elim
    | u256 =>
      obtain ⟨a, taken, rfl⟩ := map_ok_iff.mp read
      obtain rfl := Reader.fixed_ok_iff.mp taken
      exact ⟨⟨rfl, rfl⟩, rfl⟩
    | _ =>
      obtain ⟨a, -, rfl, rfl⟩ := decode_map_iff.mp read
      exact ⟨⟨rfl, rfl⟩, rfl⟩
  · rintro ⟨⟨typed, plain⟩, rfl⟩
    cases s with
    | u256 v =>
      cases typed
      exact map_of_ok (Reader.fixed_ok_iff.mpr rfl)
    | text | digest | bytes => cases typed
    | i8 | i16 | i32 | i64 | i128 => cases plain
    | _ =>
      cases typed
      exact decode_map_iff.mpr ⟨_, trivial, rfl, rfl⟩

variable (counts : ∀ bs n rest, count bs = .ok n rest ↔ fits n ∧ bs = Codec.uleb n ++ rest)
include counts

theorem Scalar.readText_ok_iff {s : Scalar} :
    Scalar.readText count bs = .ok s rest ↔
      ∃ text, s = .text text ∧ fits (textBytes text).length ∧ bs = s.toBytes ++ rest := by
  unfold readText
  constructor
  · intro run
    obtain ⟨n, behind, counted, body⟩ := bind_ok_iff.mp run
    obtain ⟨few, rfl⟩ := (counts _ _ _).mp counted
    obtain ⟨taken, left, took, told⟩ := bind_ok_iff.mp body
    obtain ⟨rfl, rfl⟩ := Reader.take_ok_iff.mp took
    cases utf8 : textOfBytes? taken with
    | none =>
      simp only [utf8] at told
      exact (throw_ok_iff.mp told).elim
    | some text =>
      simp only [utf8] at told
      obtain ⟨rfl, rfl⟩ := pure_ok_iff.mp told
      obtain rfl := textOfBytes_iff.mp utf8
      exact ⟨text, rfl, few, (List.append_assoc _ _ _).symm⟩
  · rintro ⟨text, rfl, few, rfl⟩
    refine bind_ok_iff.mpr ⟨_, _, (counts _ _ _).mpr ⟨few, List.append_assoc _ _ _⟩, ?_⟩
    refine bind_ok_iff.mpr ⟨_, _, Reader.take_ok_iff.mpr ⟨rfl, rfl⟩, ?_⟩
    simp only [textOfBytes_iff.mpr rfl]
    rfl

namespace PureValue

/-- The reader at a type takes the bytes of the values that are read there, and no others. -/
theorem read_ok_iff : (t : TypeTag) → ∀ (bs : Bytes) (v : PureValue) (rest : Bytes),
    read count t bs = .ok v rest ↔ ReadAt fits t v ∧ bs = v.toBytes ++ rest
  | .primitive p => by
    intro bs v rest
    rw [read, map_ok_iff, readAt_primitive_iff]
    constructor
    · rintro ⟨s, run, rfl⟩
      obtain ⟨shown, rfl⟩ := Scalar.read_ok_iff.mp run
      exact ⟨⟨s, rfl, shown⟩, rfl⟩
    · rintro ⟨⟨s, rfl, shown⟩, rfl⟩
      exact ⟨s, Scalar.read_ok_iff.mpr ⟨shown, rfl⟩, rfl⟩
  | .vector t => by
    intro bs v rest
    rw [read, bind_ok_iff, readAt_vector_iff]
    constructor
    · rintro ⟨n, behind, counted, run⟩
      obtain ⟨few, rfl⟩ := (counts _ _ _).mp counted
      obtain ⟨items, left, each, done⟩ := bind_ok_iff.mp run
      obtain ⟨rfl, rfl⟩ := pure_ok_iff.mp done
      obtain ⟨rfl, shown, rfl⟩ := (Reader.times_ok_iff (read_ok_iff t)).mp each
      exact ⟨⟨items, rfl, few, shown⟩, by rw [toBytes_seq, List.append_assoc]⟩
    · rintro ⟨⟨items, rfl, few, shown⟩, rfl⟩
      rw [toBytes_seq, List.append_assoc]
      refine ⟨_, _, (counts _ _ _).mpr ⟨few, rfl⟩, bind_ok_iff.mpr ⟨items, rest, ?_, rfl⟩⟩
      exact (Reader.times_ok_iff (read_ok_iff t)).mpr ⟨rfl, shown, rfl⟩
  | .struct a m n [] => by
    intro bs v rest
    rw [read]
    by_cases named : TypeTag.struct a m n [] = StructTag.string.toTypeTag
    · rw [if_pos named, named, map_ok_iff, readAt_string_iff]
      constructor
      · rintro ⟨s, run, rfl⟩
        obtain ⟨text, rfl, few, rfl⟩ := (Scalar.readText_ok_iff counts).mp run
        exact ⟨⟨text, rfl, few⟩, rfl⟩
      · rintro ⟨⟨text, rfl, few⟩, rfl⟩
        exact ⟨.text text, (Scalar.readText_ok_iff counts).mpr ⟨text, rfl, few, rfl⟩, rfl⟩
    · rw [if_neg named, throw_ok_iff, false_iff]
      rintro ⟨⟨typed, -⟩, -⟩
      rcases typed.eq_string_or_option with same | ⟨t, same⟩
      · exact named same
      · cases same
  | .struct a m n [t] => by
    intro bs v rest
    rw [read]
    by_cases named : TypeTag.struct a m n [t] = (StructTag.option t).toTypeTag
    · rw [if_pos named, named, map_ok_iff, readAt_option_iff]
      have written (o : Option PureValue) : (ofOption o).toBytes = Codec.optionWith toBytes o := by
        cases o <;> rfl
      constructor
      · rintro ⟨o, run, rfl⟩
        obtain ⟨shown, rfl⟩ := (Reader.option_ok_iff (read_ok_iff t)).mp run
        exact ⟨⟨o, rfl, shown⟩, by rw [written]⟩
      · rintro ⟨⟨o, rfl, shown⟩, rfl⟩
        exact ⟨o, (Reader.option_ok_iff (read_ok_iff t)).mpr ⟨shown, by rw [written]⟩, rfl⟩
    · rw [if_neg named, throw_ok_iff, false_iff]
      rintro ⟨⟨typed, -⟩, -⟩
      rcases typed.eq_string_or_option with same | ⟨u, same⟩
      · cases same
      · obtain ⟨-, -, -, parameters⟩ := TypeTag.struct.inj same
        obtain rfl : t = u := (List.cons.inj parameters).1
        exact named same
  | .struct a m n (_ :: _ :: _) => by
    intro bs v rest
    rw [read, throw_ok_iff, false_iff]
    · rintro ⟨⟨typed, -⟩, -⟩
      rcases typed.eq_string_or_option with same | ⟨u, same⟩
      · cases same
      · cases same
    · exact nofun
    · exact nofun

end PureValue

end

namespace PureValue

variable {fits : Nat → Prop} {count : Reader Nat} {v w : PureValue} {t : TypeTag}

/-- The bytes of a value of the type are read, whatever is behind them. -/
theorem HasType.read_ok
    (counts : ∀ bs n rest, count bs = .ok n rest ↔ fits n ∧ bs = Codec.uleb n ++ rest)
    (typed : HasType v t) (counted : Counted fits v) (rest : Bytes) :
    read count t (v.toBytes ++ rest) = .ok v.plain rest :=
  (read_ok_iff counts t _ _ _).mpr ⟨typed.readAt_plain counted, by rw [toBytes_plain]⟩

theorem count_exact (bs : Bytes) (n : Nat) (rest : Bytes) :
    Reader.count bs = .ok n rest ↔ True ∧ bs = Codec.uleb n ++ rest :=
  Reader.count_ok_iff.trans (and_iff_right trivial).symm

theorem HasType.append_inj {x y : Bytes} (left : HasType v t) (right : HasType w t)
    (same : v.toBytes ++ x = w.toBytes ++ y) : v.toBytes = w.toBytes ∧ x = y := by
  have first := left.read_ok count_exact (left.counted fun _ => trivial) x
  have second := right.read_ok count_exact (right.counted fun _ => trivial) y
  rw [same, second] at first
  obtain ⟨plain, rest⟩ := EStateM.Result.ok.inj first
  refine ⟨?_, rest.symm⟩
  rw [← toBytes_plain v, ← toBytes_plain w, plain]

/-- A value of a type shows that type or none. The reader at the type takes exactly its bytes off the front
of any others, also with counts as the chain limits them where the value has no longer ones, and what it
reads has the type and those bytes. So two values of one type with any bytes behind them are apart where
the bytes of the values are, and where the bytes behind them are. -/
theorem layout_exact :
    (∀ (v : PureValue) (t : TypeTag), HasType v t →
      (v.typeTag? = some t ∨ v.typeTag? = none) ∧ v.plain.toBytes = v.encoded.bytes ∧
        (∀ rest, read Reader.count t (v.encoded.bytes ++ rest) = .ok v.plain rest) ∧
        (Counted (· ≤ maxSequenceLength) v →
          ∀ rest, read Reader.length t (v.encoded.bytes ++ rest) = .ok v.plain rest)) ∧
      (∀ (t : TypeTag) (bs rest : Bytes) (w : PureValue), read Reader.count t bs = .ok w rest →
        HasType w t ∧ bs = w.encoded.bytes ++ rest) ∧
      ∀ (v w : PureValue) (t : TypeTag) (x y : Bytes), HasType v t → HasType w t →
        v.encoded.bytes ++ x = w.encoded.bytes ++ y → v.encoded.bytes = w.encoded.bytes ∧ x = y := by
  refine ⟨fun v t typed => ⟨?_, toBytes_plain v, ?_, ?_⟩, fun t bs rest w run => ?_,
    fun v w t x y left right => left.append_inj right⟩
  · cases shown : v.typeTag? with
    | none => exact Or.inr rfl
    | some u => exact Or.inl (by rw [typed.eq_of_typeTag? shown])
  · exact typed.read_ok count_exact (typed.counted fun _ => trivial)
  · exact typed.read_ok fun _ _ _ => Reader.length_ok_iff
  · obtain ⟨⟨typed, -⟩, written⟩ := (read_ok_iff count_exact t bs w rest).mp run
    exact ⟨typed, written⟩

/-- Optional bytes, of which the first is given with a sign. -/
def optionals : PureValue :=
  .seq [.present (.scalar (.i8 (-1))), .absent]

/-- The sign is lost. Two bytes are the same as a string of bytes and one by one. -/
theorem optionals_layout :
    HasType optionals (.vector (StructTag.option .u8).toTypeTag) ∧
      (∃ w, read Reader.length (.vector (StructTag.option .u8).toTypeTag)
          (optionals.encoded.bytes ++ [9]) = .ok w [9] ∧
        w = .seq [.present (.ofU8 255), .absent] ∧
        HasType w (.vector (StructTag.option .u8).toTypeTag) ∧ w.toBytes = optionals.encoded.bytes) ∧
      HasType (ofBytes [7, 8]) (.vector .u8) ∧
      HasType (.seq [.ofU8 7, .scalar (.i8 8)]) (.vector .u8) ∧
      (ofBytes [7, 8]).encoded.bytes = (PureValue.seq [.ofU8 7, .scalar (.i8 8)]).encoded.bytes := by
  have pair {p : PureValue → Prop} {a b : PureValue} (first : p a) (second : p b) :
      ∀ item ∈ [a, b], p item :=
    List.forall_mem_cons.mpr ⟨first, List.forall_mem_singleton.mpr second⟩
  have typed : HasType optionals (.vector (StructTag.option .u8).toTypeTag) :=
    .seq (pair (.present (.scalar (.i8 (-1)))) (.absent _))
  have counted : Counted (· ≤ maxSequenceLength) optionals :=
    .seq (by decide) (pair (.present (.scalar nofun)) .absent)
  have string : HasType (ofBytes [7, 8]) (.vector .u8) := .scalar (.bytes [7, 8])
  have bytes : HasType (.seq [.ofU8 7, .scalar (.i8 8)]) (.vector .u8) :=
    .seq (pair (.scalar (.u8 7)) (.scalar (.i8 8)))
  obtain ⟨values, sound, apart⟩ := layout_exact
  obtain ⟨-, plain, anyCounts, reads⟩ := values optionals _ typed
  have again := (sound _ _ _ _ (anyCounts [])).1
  exact ⟨typed, ⟨_, reads counted [9], rfl, again, plain⟩, string, bytes,
    (apart _ _ _ [9] [9] string bytes rfl).1⟩

end PureValue

end MoveTx
