import MoveTx.Proofs.TypeTag.Text

/-!
# Text and binary form of types agree

The parser and the binary reader count levels in their own ways, and accept the same types: those
nested no deeper than `TypeTag.maxDepth`. So do the parser and the reader of structs.
-/

namespace MoveTx
open Step

/-! ### Structs -/

namespace StructTag

/-- The deepest nesting of vectors and type parameters. -/
def depth (s : StructTag) : Nat :=
  s.toTypeTag.depth

def IsShort (s : StructTag) : Prop :=
  s.toTypeTag.IsShort

theorem toTypeTag_inj {s u : StructTag} (same : s.toTypeTag = u.toTypeTag) : s = u := by
  obtain ⟨address, module, name, parameters⟩ := s
  obtain ⟨rfl, rfl, rfl, rfl⟩ := TypeTag.struct.inj same
  rfl

theorem parse_ok_iff {text : String} {s : StructTag} :
    parse text = .ok s ↔ TypeTag.parse text = .ok s.toTypeTag := by
  unfold parse
  rw [except_bind_ok_iff]
  constructor
  · intro ⟨t, read, h⟩
    cases t with
    | primitive p => cases h
    | vector t => cases h
    | struct address module name parameters =>
      cases h
      exact read
  · intro read
    exact ⟨_, read, rfl⟩

theorem toBytes_toTypeTag (s : StructTag) (rest : Bytes) :
    s.toTypeTag.toBytes ++ rest = Codec.uleb 7 ++ (encode s ++ rest) := by
  rw [toTypeTag, TypeTag.toBytes_struct]
  change _ = Codec.uleb 7 ++ ((encode s.address ++ encode s.module ++ encode s.name ++
    Codec.listWith TypeTag.toBytes s.parameters) ++ rest)
  simp only [List.append_assoc]

end StructTag

instance : Readable StructTag where
  readable s := s.depth ≤ TypeTag.maxDepth ∧ s.IsShort

instance : LawfulCodec StructTag where
  decode_iff bs s rest := by
    have written : encode s ++ rest = encode s.address ++ (encode s.module ++ (encode s.name ++
        (Codec.listWith TypeTag.toBytes s.parameters ++ rest))) := by
      change (encode s.address ++ encode s.module ++ encode s.name ++
        Codec.listWith TypeTag.toBytes s.parameters) ++ rest = _
      simp only [List.append_assoc]
    have reads : TypeTag.structReader (TypeTag.readerWithin TypeTag.maxDepth) bs = .ok s rest ↔ _ :=
      TypeTag.structReader_ok_iff fun _ _ _ => TypeTag.readerWithin_ok_iff
    rw [written]
    refine reads.trans (and_congr_left fun _ => ?_)
    constructor
    · intro ⟨named, named', few, all⟩
      refine ⟨TypeTag.depthList_le_iff.mpr fun t inside => (all t inside).1, named, named', few, ?_⟩
      exact TypeTag.areShort_iff.mpr fun t inside => (all t inside).2
    · intro ⟨shallow, named, named', few, all⟩
      refine ⟨named, named', few, fun t inside => ⟨?_, TypeTag.areShort_iff.mp all t inside⟩⟩
      exact TypeTag.depthList_le_iff.mp shallow t inside

/-! ### Written forms tell types apart -/

namespace TypeTag

/-- The tag that the binary form of a type starts with. -/
def tag : TypeTag → Nat
  | .primitive p => p.tag
  | .vector _ => 6
  | .struct .. => 7

/-- What comes behind the tag. -/
def tagged : TypeTag → Bytes
  | .primitive _ => []
  | .vector t => t.toBytes
  | .struct a m n ts => encode a ++ (encode m ++ (encode n ++ Codec.listWith toBytes ts))

theorem toBytes_eq (t : TypeTag) (rest : Bytes) :
    t.toBytes ++ rest = Codec.uleb t.tag ++ (t.tagged ++ rest) := by
  cases t with
  | primitive p => rfl
  | vector t =>
    rw [toBytes, List.append_assoc]
    rfl
  | struct a m n ts =>
    rw [toBytes_struct, tagged]
    simp only [List.append_assoc]
    rfl

/-- The binary form of a type shows where it ends, also when it is too deep or too long to be read. -/
theorem toBytes_append_inj {levels : Nat} {t u : TypeTag} {v w : Bytes} (shallow : t.depth < levels)
    (same : t.toBytes ++ v = u.toBytes ++ w) : t = u ∧ v = w := by
  induction levels generalizing t u v w with
  | zero => exact absurd shallow (Nat.not_lt_zero _)
  | succ levels ih =>
    rw [toBytes_eq, toBytes_eq] at same
    obtain ⟨tags, rests⟩ := Reader.uleb_append_inj same
    cases t with
    | primitive p =>
      cases u with
      | primitive q =>
        obtain rfl : q = p := Option.some.inj ((ofTag_iff.mpr tags).symm.trans (ofTag_iff.mpr rfl))
        exact ⟨rfl, rests⟩
      | vector | struct => cases p <;> cases tags
    | vector t =>
      cases u with
      | primitive q => cases q <;> cases tags
      | vector u =>
        obtain ⟨rfl, behind⟩ := ih (Nat.lt_of_succ_lt_succ shallow) rests
        exact ⟨rfl, behind⟩
      | struct => cases tags
    | struct a m n ts =>
      cases u with
      | primitive q => cases q <;> cases tags
      | vector => cases tags
      | struct a' m' n' ts' =>
        simp only [tagged, List.append_assoc] at rests
        obtain ⟨rfl, named⟩ := MoveTx.encode_append_inj trivial trivial rests
        obtain ⟨rfl, named'⟩ := Identifier.encode_append_inj named
        obtain ⟨rfl, listed⟩ := Identifier.encode_append_inj named'
        have apart : ∀ t ∈ ts, ∀ u v w, t.toBytes ++ v = toBytes u ++ w → t = u ∧ v = w :=
          fun t inside _ _ _ => ih (depthList_le_iff.mp (Nat.le_of_lt_succ shallow) t inside)
        obtain ⟨rfl, behind⟩ := Reader.listWith_append_inj apart listed
        exact ⟨rfl, behind⟩

theorem toBytes_inj {t u : TypeTag} (same : t.toBytes = u.toBytes) : t = u := by
  have rests : t.toBytes ++ [] = u.toBytes ++ [] := congrArg (· ++ []) same
  exact (toBytes_append_inj (Nat.lt_succ_self _) rests).1

end TypeTag

theorem StructTag.encode_inj {s u : StructTag} (same : encode s = encode u) : s = u := by
  have tagged : s.toTypeTag.toBytes ++ [] = u.toTypeTag.toBytes ++ [] := by
    rw [toBytes_toTypeTag, toBytes_toTypeTag, same]
  rw [List.append_nil, List.append_nil] at tagged
  exact toTypeTag_inj (TypeTag.toBytes_inj tagged)

/-! ### Agreement -/

/-- The values with a text and a binary form are read back from both alike: those that are nested
shallowly enough from either form, and the others from neither. Only the binary form asks for short
names and lists. -/
structure FormsAgree {α : Type} [Codec α] (parse : String → Except TextError α) (text : α → String)
    (depth : α → Nat) (short : α → Prop) : Prop where
  parse_shallow : ∀ a, depth a ≤ TypeTag.maxDepth → parse (text a) = .ok a
  decode_shallow : ∀ a, depth a ≤ TypeTag.maxDepth → (Codec.decodeAll (encode a) = .ok a ↔ short a)
  parse_deep : ∀ a, TypeTag.maxDepth < depth a → ∃ e, parse (text a) = .error e
  decode_deep : ∀ a, TypeTag.maxDepth < depth a →
    ∃ e, (Codec.decodeAll (encode a) : Except CodecError α) = .error e
  accepted : ∀ a, (∃ bs : Bytes, Codec.decodeAll bs = .ok a) ↔ short a ∧ ∃ s, parse s = .ok a
  parse_again : ∀ s a, parse s = .ok a → parse (text a) = .ok a

/-- What has to be known of each form alone. -/
theorem FormsAgree.of_forms {α : Type} [Codec α] [Readable α] [LawfulCodec α]
    {parse : String → Except TextError α} {text : α → String} {depth : α → Nat} {short : α → Prop}
    (written : ∀ a, depth a ≤ TypeTag.maxDepth → parse (text a) = .ok a)
    (refused : ∀ a, TypeTag.maxDepth < depth a → ∃ e, parse (text a) = .error e)
    (parsed : ∀ s a, parse s = .ok a → depth a ≤ TypeTag.maxDepth)
    (readable_iff : ∀ a : α, readable a ↔ depth a ≤ TypeTag.maxDepth ∧ short a)
    (inj : ∀ a b : α, encode a = encode b → a = b) :
    FormsAgree parse text depth short where
  parse_shallow := written
  decode_shallow a shallow := by
    rw [decodeAll_ok_iff, and_iff_left rfl, readable_iff, and_iff_right shallow]
  parse_deep := refused
  decode_deep a deep := by
    cases read : (Codec.decodeAll (encode a) : Except CodecError α) with
    | error e => exact ⟨e, rfl⟩
    | ok b =>
      obtain ⟨inside, same⟩ := decodeAll_ok_iff.mp read
      obtain ⟨shallow, -⟩ := (readable_iff b).mp inside
      rw [inj a b same] at deep
      exact absurd shallow (Nat.not_le_of_lt deep)
  accepted a := by
    constructor
    · intro ⟨bs, read⟩
      obtain ⟨shallow, brief⟩ := (readable_iff a).mp (decodeAll_ok_iff.mp read).1
      exact ⟨brief, _, written a shallow⟩
    · intro ⟨brief, s, read⟩
      exact ⟨_, decodeAll_ok_iff.mpr ⟨(readable_iff a).mpr ⟨parsed s a read, brief⟩, rfl⟩⟩
  parse_again s a read := written a (parsed s a read)

theorem StructTag.parse_text_error {s : StructTag} (deep : TypeTag.maxDepth < s.depth) :
    ∃ e, parse s.text = .error e := by
  obtain ⟨e, failed⟩ := TypeTag.parse_text_error deep
  refine ⟨e, ?_⟩
  unfold parse text
  rw [failed]
  rfl

namespace TypeTag

/-- A type, or the type of a struct, is read back from its text and from its binary form when its depth
is at most `maxDepth`, and from neither when it is nested deeper. -/
theorem forms_agree :
    FormsAgree TypeTag.parse TypeTag.text TypeTag.depth TypeTag.IsShort ∧
      FormsAgree StructTag.parse StructTag.text StructTag.depth StructTag.IsShort := by
  constructor
  · exact .of_forms (fun _ => parse_text) (fun _ => parse_text_error) (fun _ _ => depth_le_of_parse)
      (fun _ => Iff.rfl) fun _ _ => toBytes_inj
  · refine .of_forms ?_ (fun _ => StructTag.parse_text_error) ?_ (fun _ => Iff.rfl)
      fun _ _ => StructTag.encode_inj
    · intro s shallow
      exact StructTag.parse_ok_iff.mpr (parse_text shallow)
    · intro text s read
      exact depth_le_of_parse (StructTag.parse_ok_iff.mp read)

/-- Vectors of coins may go down to 63 levels, with the parameter of the coin as the last. -/
def coinVectors : Nat → TypeTag
  | 0 => StructTag.gasCoin.toTypeTag
  | levels + 1 => .vector (coinVectors levels)

/-- The last level that is read, and the first that is not. -/
theorem coinVectors_agree :
    parse (coinVectors 63).text = .ok (coinVectors 63) ∧
      Codec.decodeAll (encode (coinVectors 63)) = .ok (coinVectors 63) ∧
      (∃ e, parse (coinVectors 64).text = .error e) ∧
      (∃ e, (Codec.decodeAll (encode (coinVectors 64)) : Except CodecError TypeTag) = .error e) ∧
      StructTag.parse StructTag.gasCoin.text = .ok StructTag.gasCoin ∧
      Codec.decodeAll (encode StructTag.gasCoin) = .ok StructTag.gasCoin := by
  have short : StructTag.gasCoin.IsShort := by
    simp only [StructTag.IsShort, StructTag.gasCoin, StructTag.coin, StructTag.sui,
      StructTag.toTypeTag, IsShort, AreShort, readable, length_textBytes]
    decide
  have shorts : ∀ levels, (coinVectors levels).IsShort := by
    intro levels
    induction levels with
    | zero => exact short
    | succ levels ih => exact ih
  obtain ⟨types, structs⟩ := forms_agree
  exact ⟨types.parse_shallow _ (by decide), (types.decode_shallow _ (by decide)).mpr (shorts 63),
    types.parse_deep _ (by decide), types.decode_deep _ (by decide),
    structs.parse_shallow _ (by decide), (structs.decode_shallow _ (by decide)).mpr short⟩

end TypeTag

end MoveTx
