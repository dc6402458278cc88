import MoveTx.Proofs.Codec.Reader

/-!
# Lawful codecs

A codec is lawful when its reader accepts exactly what its writer writes, in front of any other bytes.
Lists, options and pairs of lawful codecs are lawful. What a reader gives back is `readable`: its
sequences are short enough to have been read.
-/

namespace MoveTx
open Step

/-- The values that can be read back from their binary form. -/
class Readable (α : Type) where
  readable : α → Prop

export Readable (readable)

/-- The reader takes exactly the written form of a readable value off the front of its input. -/
class LawfulCodec (α : Type) [Codec α] [Readable α] : Prop where
  decode_iff : ∀ (bs : Bytes) (a : α) (rest : Bytes),
    (decode : Reader α) bs = .ok a rest ↔ readable a ∧ bs = encode a ++ rest

section

variable {α : Type} [Codec α] [Readable α] [LawfulCodec α]

theorem decode_ok_iff {bs rest : Bytes} {a : α} :
    (decode : Reader α) bs = .ok a rest ↔ readable a ∧ bs = encode a ++ rest :=
  LawfulCodec.decode_iff bs a rest

theorem decode_bind_iff {β : Type} {f : α → Reader β} {bs rest : Bytes} {b : β} :
    ((decode : Reader α) >>= f) bs = .ok b rest ↔
      ∃ a u, readable a ∧ bs = encode a ++ u ∧ f a u = .ok b rest := by
  simp only [bind_ok_iff, decode_ok_iff, and_assoc]

theorem decode_map_iff {β : Type} {f : α → β} {bs rest : Bytes} {b : β} :
    (f <$> (decode : Reader α)) bs = .ok b rest ↔
      ∃ a, readable a ∧ bs = encode a ++ rest ∧ f a = b := by
  simp only [map_ok_iff, decode_ok_iff, and_assoc]

/-- Two values in a row, put together by `f`. -/
theorem decode_two_iff {β γ : Type} [Codec β] [Readable β] [LawfulCodec β] {f : α → β → γ}
    {bs rest : Bytes} {c : γ} :
    ((decode : Reader α) >>= fun a => (decode : Reader β) >>= fun b => pure (f a b)) bs = .ok c rest ↔
      ∃ a b, (readable a ∧ readable b) ∧ bs = encode a ++ (encode b ++ rest) ∧ f a b = c := by
  simp only [decode_bind_iff, pure_ok_iff]
  constructor
  · rintro ⟨a, _, left, rfl, b, _, right, rfl, same, rfl⟩
    exact ⟨a, b, ⟨left, right⟩, rfl, same⟩
  · rintro ⟨a, b, ⟨left, right⟩, rfl, same⟩
    exact ⟨a, _, left, rfl, b, rest, right, rfl, same, rfl⟩

theorem encode_append_inj {a b : α} {u v : Bytes} (left : readable a) (right : readable b)
    (same : encode a ++ u = encode b ++ v) : a = b ∧ u = v :=
  Reader.append_inj LawfulCodec.decode_iff left right same

theorem decodeAll_ok_iff {bs : Bytes} {a : α} :
    Codec.decodeAll bs = .ok a ↔ readable a ∧ bs = encode a := by
  unfold Codec.decodeAll
  rw [Reader.result_ok_iff]
  simp only [seqLeft_ok_iff, decode_ok_iff, Reader.finish_ok_iff]
  constructor
  · rintro ⟨_, _, _, ⟨inside, rfl⟩, rfl, -⟩
    exact ⟨inside, List.append_nil _⟩
  · rintro ⟨inside, rfl⟩
    exact ⟨[], [], (), ⟨inside, (List.append_nil _).symm⟩, rfl, rfl⟩

end

/-- Three parts and what follows them, as readers come across them. -/
theorem append_three (a b c rest : Bytes) : (a ++ b ++ c) ++ rest = a ++ (b ++ (c ++ rest)) := by
  simp only [List.append_assoc]

/-- For types of which every value can be read. -/
theorem LawfulCodec.of_total {α : Type} [Codec α] [Readable α] (total : ∀ a : α, readable a)
    (reads : ∀ (bs : Bytes) (a : α) (rest : Bytes),
      (decode : Reader α) bs = .ok a rest ↔ bs = encode a ++ rest) : LawfulCodec α where
  decode_iff bs a rest := (reads bs a rest).trans (and_iff_right (total a)).symm

/-! ### Basic types -/

instance : Readable UInt8 where
  readable _ := True

instance : LawfulCodec UInt8 :=
  .of_total (fun _ => trivial) fun _ _ _ => Reader.byte_ok_iff

instance : Readable UInt16 where
  readable _ := True

instance : LawfulCodec UInt16 :=
  .of_total (fun _ => trivial) fun _ _ _ => Reader.word_ok_iff UInt16.toNat_lt
    (fun _ => UInt16.ofNat_toNat) (fun _ small => UInt16.toNat_ofNat_of_lt' small)

instance : Readable UInt32 where
  readable _ := True

instance : LawfulCodec UInt32 :=
  .of_total (fun _ => trivial) fun _ _ _ => Reader.word_ok_iff UInt32.toNat_lt
    (fun _ => UInt32.ofNat_toNat) (fun _ small => UInt32.toNat_ofNat_of_lt' small)

instance : Readable UInt64 where
  readable _ := True

instance : LawfulCodec UInt64 :=
  .of_total (fun _ => trivial) fun _ _ _ => Reader.word_ok_iff UInt64.toNat_lt
    (fun _ => UInt64.ofNat_toNat) (fun _ small => UInt64.toNat_ofNat_of_lt' small)

instance : Readable (BitVec 128) where
  readable _ := True

instance : LawfulCodec (BitVec 128) :=
  .of_total (fun _ => trivial) fun _ _ _ => Reader.word_ok_iff BitVec.isLt
    (fun n => BitVec.ofNat_toNat 128 n) (fun n small =>
      (BitVec.toNat_ofNat n 128).trans (Nat.mod_eq_of_lt small))

instance : Readable Bool where
  readable _ := True

instance : LawfulCodec Bool :=
  .of_total (fun _ => trivial) fun _ _ _ => Reader.bool_ok_iff

instance : Readable String where
  readable s := (textBytes s).length ≤ maxSequenceLength

instance : LawfulCodec String where
  decode_iff _ _ _ := Reader.string_ok_iff

/-! ### Lists and options -/

section

variable {α : Type} [Codec α] [Readable α]

instance : Readable (List α) where
  readable as := as.length ≤ maxSequenceLength ∧ ∀ a ∈ as, readable a

instance : Readable (Option α) where
  readable o := ∀ a ∈ o, readable a

variable [LawfulCodec α]

instance : LawfulCodec (List α) where
  decode_iff _ _ _ := Reader.list_ok_iff LawfulCodec.decode_iff

instance : LawfulCodec (Option α) where
  decode_iff _ _ _ := Reader.option_ok_iff LawfulCodec.decode_iff

end

end MoveTx
