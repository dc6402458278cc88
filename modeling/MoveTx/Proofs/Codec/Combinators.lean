import MoveTx.Proofs.Codec.Lawful

/-!
# Types put together from others

Lawfulness on a domain of values is kept by lists, options, boxes and pairs, whatever the codecs of their
parts are. So every type that is put together from integers, truth values and texts is read back from what
is written, and from nothing else.
-/

namespace MoveTx.Codec
open Step

/-- What is written for a value of the domain is read back in front of anything, and whatever is read took up
what is written for it. -/
structure Lawful (α : Type) [Codec α] (domain : α → Prop) : Prop where
  reads : ∀ a, domain a → ∀ rest, (decode : Reader α) (encode a ++ rest) = .ok a rest
  exact : ∀ {bs rest : Bytes} {a : α}, (decode : Reader α) bs = .ok a rest → bs = encode a ++ rest

theorem lawful_of_lawfulCodec {α : Type} [Codec α] [Readable α] [LawfulCodec α] :
    Lawful α readable where
  reads _ inside _ := decode_ok_iff.mpr ⟨inside, rfl⟩
  exact run := (decode_ok_iff.mp run).2

section

variable {α β : Type} [Codec α] [Codec β] {domain : α → Prop} {domain' : β → Prop}

theorem Lawful.decodeAll_encode (lawful : Lawful α domain) {a : α} (inside : domain a) :
    decodeAll (encode a) = .ok a := by
  have run := lawful.reads a inside []
  rw [List.append_nil] at run
  exact Reader.result_ok_iff.mpr ⟨[], seqLeft_ok_iff.mpr ⟨[], (), run, rfl⟩⟩

theorem Lawful.eq_encode (lawful : Lawful α domain) {bs : Bytes} {a : α} (run : decodeAll bs = .ok a) :
    bs = encode a := by
  obtain ⟨_, run⟩ := Reader.result_ok_iff.mp run
  obtain ⟨left, _, read, done⟩ := seqLeft_ok_iff.mp run
  obtain ⟨rfl, -⟩ := Reader.finish_ok_iff.mp done
  rw [lawful.exact read, List.append_nil]

/-! ### Lists -/

theorem Lawful.times_append (lawful : Lawful α domain) {as : List α} (inside : ∀ a ∈ as, domain a)
    (rest : Bytes) :
    Reader.times (decode : Reader α) as.length (as.flatMap encode ++ rest) = .ok as rest := by
  induction as with
  | nil => rfl
  | cons a as ih =>
    obtain ⟨first, others⟩ := List.forall_mem_cons.mp inside
    rw [List.flatMap_cons, List.append_assoc, List.length_cons, Reader.times,
      bind_of_ok (lawful.reads a first _), bind_of_ok (ih others)]
    rfl

theorem Lawful.eq_of_times (lawful : Lawful α domain) {n : Nat} {as : List α} {bs rest : Bytes}
    (run : Reader.times (decode : Reader α) n bs = .ok as rest) :
    as.length = n ∧ bs = as.flatMap encode ++ rest := by
  induction n generalizing as bs with
  | zero =>
    obtain ⟨rfl, rfl⟩ := pure_ok_iff.mp run
    exact ⟨rfl, rfl⟩
  | succ n ih =>
    obtain ⟨a, u, first, run⟩ := bind_ok_iff.mp run
    obtain ⟨others, v, later, run⟩ := bind_ok_iff.mp run
    obtain ⟨rfl, rfl⟩ := pure_ok_iff.mp run
    obtain ⟨rfl, rfl⟩ := ih later
    rw [lawful.exact first, List.flatMap_cons, List.append_assoc]
    exact ⟨rfl, rfl⟩

theorem Lawful.list (lawful : Lawful α domain) :
    Lawful (List α) fun as => as.length ≤ maxSequenceLength ∧ ∀ a ∈ as, domain a where
  reads as inside rest := by
    have count : Reader.length (encode as ++ rest) = .ok as.length (as.flatMap encode ++ rest) :=
      Reader.length_ok_iff.mpr ⟨inside.1, List.append_assoc _ _ _⟩
    exact (bind_of_ok count).trans (lawful.times_append inside.2 rest)
  exact whole := by
    obtain ⟨n, u, count, run⟩ := bind_ok_iff.mp whole
    obtain ⟨-, rfl⟩ := Reader.length_ok_iff.mp count
    obtain ⟨rfl, rfl⟩ := lawful.eq_of_times run
    exact (List.append_assoc _ _ _).symm

/-! ### Options, boxes and pairs -/

theorem Lawful.option (lawful : Lawful α domain) : Lawful (Option α) fun o => ∀ a ∈ o, domain a where
  reads o inside rest := by
    cases o with
    | none => rfl
    | some a => exact map_of_ok (lawful.reads a (inside a rfl) rest)
  exact whole := by
    obtain ⟨b, u, read, run⟩ := bind_ok_iff.mp whole
    obtain rfl := Reader.byte_ok_iff.mp read
    split at run
    · obtain ⟨rfl, rfl⟩ := pure_ok_iff.mp run
      rfl
    · obtain ⟨a, read, rfl⟩ := map_ok_iff.mp run
      rw [lawful.exact read]
      rfl
    · exact (throw_ok_iff.mp run).elim

theorem Lawful.boxed (lawful : Lawful α domain) : Lawful (Boxed α) fun b => domain b.value where
  reads b inside rest := map_of_ok (lawful.reads b.value inside rest)
  exact whole := by
    obtain ⟨a, read, rfl⟩ := map_ok_iff.mp whole
    exact lawful.exact read

theorem Lawful.pair (left : Lawful α domain) (right : Lawful β domain') :
    Lawful (α × β) fun p => domain p.1 ∧ domain' p.2 where
  reads p inside rest := by
    have first := left.reads p.1 inside.1 (encode p.2 ++ rest)
    rw [← List.append_assoc] at first
    exact (bind_of_ok first).trans (bind_of_ok (right.reads p.2 inside.2 rest))
  exact whole := by
    obtain ⟨a, u, first, run⟩ := bind_ok_iff.mp whole
    obtain ⟨b, v, second, run⟩ := bind_ok_iff.mp run
    obtain ⟨rfl, rfl⟩ := pure_ok_iff.mp run
    rw [left.exact first, right.exact second]
    exact (List.append_assoc _ _ _).symm

end

/-! ### Texts -/

theorem exists_textOfBytes_iff {bs : Bytes} :
    (∃ s, textOfBytes? bs = some s) ↔ bs.toByteArray.IsValidUTF8 := by
  unfold textOfBytes? String.fromUTF8?
  split <;> simp_all

/-- Of bytes behind their count exactly those are read that are the UTF-8 form of a text. -/
theorem string_cases {bs : Bytes} (short : bs.length ≤ maxSequenceLength) (rest : Bytes) :
    ((∃ s, (decode : Reader String) (bytes bs ++ rest) = .ok s rest) ↔ bs.toByteArray.IsValidUTF8) ∧
      ((decode : Reader String) (bytes bs ++ rest) = .error .invalidUtf8 rest ↔
        ¬ bs.toByteArray.IsValidUTF8) := by
  have taken : Reader.bytes (bytes bs ++ rest) = .ok bs rest := Reader.bytes_ok_iff.mpr ⟨short, rfl⟩
  have run : (decode : Reader String) (bytes bs ++ rest) = _ := bind_of_ok taken
  rw [run, ← exists_textOfBytes_iff]
  cases textOfBytes? bs with
  | none =>
    change ((∃ s, EStateM.Result.error _ _ = .ok s rest) ↔ _) ∧ (EStateM.Result.error _ _ = _ ↔ _)
    simp
  | some s =>
    change ((∃ s', EStateM.Result.ok s rest = .ok s' rest) ↔ _) ∧ (EStateM.Result.ok s rest = _ ↔ _)
    simp

/-! ### All nestings -/

/-- The types that are put together from the basic ones, with those of their values that can be read: no list
has more elements, and no text more bytes, than a sequence may have. -/
inductive Nesting : (α : Type) → [Codec α] → (α → Prop) → Prop
  | u8 : Nesting UInt8 fun _ => True
  | u16 : Nesting UInt16 fun _ => True
  | u32 : Nesting UInt32 fun _ => True
  | u64 : Nesting UInt64 fun _ => True
  | u128 : Nesting (BitVec 128) fun _ => True
  | bool : Nesting Bool fun _ => True
  | string : Nesting String fun s => (textBytes s).length ≤ maxSequenceLength
  | list {α : Type} [Codec α] {domain : α → Prop} (part : Nesting α domain) :
      Nesting (List α) fun as => as.length ≤ maxSequenceLength ∧ ∀ a ∈ as, domain a
  | option {α : Type} [Codec α] {domain : α → Prop} (part : Nesting α domain) :
      Nesting (Option α) fun o => ∀ a ∈ o, domain a
  | boxed {α : Type} [Codec α] {domain : α → Prop} (part : Nesting α domain) :
      Nesting (Boxed α) fun b => domain b.value
  | pair {α β : Type} [Codec α] [Codec β] {domain : α → Prop} {domain' : β → Prop}
      (left : Nesting α domain) (right : Nesting β domain') :
      Nesting (α × β) fun p => domain p.1 ∧ domain' p.2

theorem Nesting.lawful {α : Type} [Codec α] {domain : α → Prop} (nesting : Nesting α domain) :
    Lawful α domain := by
  induction nesting with
  | u8 | u16 | u32 | u64 | u128 | bool | string => exact lawful_of_lawfulCodec
  | list _ part => exact part.list
  | option _ part => exact part.option
  | boxed _ part => exact part.boxed
  | pair _ _ left right => exact left.pair right

/-- Integers, truth values and texts are lawful, and of the bytes of a text exactly valid UTF-8 is read.
Lists, options, boxes and pairs of what is lawful are lawful, so that each value of a nesting of them is read
back from its binary form, and that form is the only one it has. -/
theorem combinators_lawful :
    (Lawful UInt8 (fun _ => True) ∧ Lawful UInt16 (fun _ => True) ∧ Lawful UInt32 (fun _ => True) ∧
      Lawful UInt64 (fun _ => True) ∧ Lawful (BitVec 128) (fun _ => True) ∧ Lawful Bool fun _ => True) ∧
      Lawful String (fun s => (textBytes s).length ≤ maxSequenceLength) ∧
      (∀ bs rest, bs.length ≤ maxSequenceLength →
        ((∃ s, (decode : Reader String) (bytes bs ++ rest) = .ok s rest) ↔ bs.toByteArray.IsValidUTF8) ∧
        ((decode : Reader String) (bytes bs ++ rest) = .error .invalidUtf8 rest ↔
          ¬ bs.toByteArray.IsValidUTF8)) ∧
      (∀ (α : Type) [Codec α] (domain : α → Prop), Lawful α domain →
        Lawful (List α) (fun as => as.length ≤ maxSequenceLength ∧ ∀ a ∈ as, domain a) ∧
        Lawful (Option α) (fun o => ∀ a ∈ o, domain a) ∧ Lawful (Boxed α) fun b => domain b.value) ∧
      (∀ (α β : Type) [Codec α] [Codec β] (left : α → Prop) (right : β → Prop), Lawful α left →
        Lawful β right → Lawful (α × β) fun p => left p.1 ∧ right p.2) ∧
      ∀ (α : Type) [Codec α] (domain : α → Prop), Nesting α domain →
        (∀ a, domain a → decodeAll (encode a) = .ok a) ∧
        ∀ (bs : Bytes) (a : α), decodeAll bs = .ok a → bs = encode a := by
  refine ⟨⟨Nesting.u8.lawful, Nesting.u16.lawful, Nesting.u32.lawful, Nesting.u64.lawful,
    Nesting.u128.lawful, Nesting.bool.lawful⟩, Nesting.string.lawful, fun bs rest short => ?_, ?_, ?_, ?_⟩
  · exact string_cases short rest
  · exact fun α _ domain part => ⟨part.list, part.option, part.boxed⟩
  · exact fun α β _ _ left right first second => first.pair second
  · intro α _ domain nesting
    exact ⟨fun a inside => nesting.lawful.decodeAll_encode inside, fun bs a run => nesting.lawful.eq_encode run⟩

theorem nested_lawful :
    let nested : List (Option (UInt64 × String)) := [some (258, "λx"), none]
    (decodeAll (encode nested) = .ok nested ∧
      ∀ bs : Bytes, decodeAll bs = .ok nested → bs = encode nested) ∧
      (decode : Reader String) [1, 0xff] = .error .invalidUtf8 [] ∧
      Lawful (Boxed UInt32 × Bool) fun _ => True ∧ True := by
  intro nested
  obtain ⟨⟨-, -, word, -, -, bit⟩, -, texts, parts, pairs, nestings⟩ := combinators_lawful
  obtain ⟨back, only⟩ := nestings _ _ (.list (.option (.pair .u64 .string)))
  refine ⟨⟨back nested (by decide +kernel), fun bs run => only bs nested run⟩, ?_, ?_⟩
  · have refused := (texts [0xff] [] (by decide)).2.mpr (by decide +kernel)
    rwa [show bytes [0xff] ++ [] = [1, 0xff] by cbv] at refused
  · exact pairs _ _ _ _ (parts _ _ word).2.2 bit

end MoveTx.Codec
