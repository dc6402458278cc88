import MoveTx.Proofs.Module.Image

/-!
# The layout of images

An image whose tables lie within the bytes behind its directory is read, whatever those bytes are and however
many groups the index at its end takes up. Its tables are those that its headers give. Of the index the last
byte is read, which is its most significant group.
-/

namespace MoveTx
open Step

/-! ### The last group of a number -/

/-- The most significant group of the variable-length form of a number. -/
def leadingGroup (n : Nat) : Nat :=
  if n < 128 then n else leadingGroup (n / 128)
termination_by n
decreasing_by omega

theorem leadingGroup_lt (n : Nat) : leadingGroup n < 128 := by
  fun_induction leadingGroup n with
  | case1 n small => exact small
  | case2 n large ih => exact ih

theorem leadingGroup_eq_iff {n : Nat} : leadingGroup n = n ↔ n < 128 := by
  constructor
  · intro same
    rw [← same]
    exact leadingGroup_lt n
  · intro small
    rw [leadingGroup, if_pos small]

/-- The most significant group comes last. -/
theorem getLast?_uleb (n : Nat) :
    (Codec.uleb n).getLast? = some (UInt8.ofNat (leadingGroup n)) := by
  fun_induction leadingGroup n with
  | case1 n small => rw [Reader.uleb_small small, List.getLast?_singleton]
  | case2 n large ih =>
    rw [Reader.uleb_large large, List.getLast?_cons, ih]
    rfl

namespace ModuleImage

variable {version : Nat} {headers : List TableHeader} {content : Bytes}

/-! ### Images with an index of any size -/

/-- The image of a module whose own handle is at `index`. -/
def indexed (version : Nat) (flavor : UInt8) (headers : List TableHeader) (content : Bytes)
    (index : UInt16) : Bytes :=
  directory version flavor headers ++ (content ++ Codec.uleb index.toNat)

/-- A directory that can be written, all of whose tables lie within what stands behind it. -/
structure LaidOut (version : Nat) (headers : List TableHeader) (content : Bytes) : Prop where
  version : 1 ≤ version ∧ version ≤ 7
  count : headers.length < 2 ^ 64
  fit : ∀ h ∈ headers, h.Fits
  inside : ∀ h ∈ headers, h.offset + h.length ≤ content.length

/-- The body that the headers give for a kind, the last one listed. -/
def table? (headers : List TableHeader) (content : Bytes) (kind : TableKind) : Option Bytes :=
  (headers.reverse.find? fun h => h.kind == kind).map fun h =>
    (content.drop h.offset).take h.length

/-- The image as it is read. -/
def readIndexed (version : Nat) (flavor : UInt8) (headers : List TableHeader) (content : Bytes)
    (index : UInt16) : ModuleImage where
  bytes := indexed version flavor headers content index
  version := version
  selfIndex := UInt16.ofNat (leadingGroup index.toNat)
  tables := collect (headers.map (TableHeader.range (directory version flavor headers).length))

theorem LaidOut.parsed (laid : LaidOut version headers content) (flavor : UInt8) (index : UInt16) :
    Parsed (indexed version flavor headers content index) flavor headers
      (readIndexed version flavor headers content index) := by
  have some : 0 < (Codec.uleb index.toNat).length :=
    List.length_pos_iff.mpr (Reader.uleb_ne_nil index.toNat)
  have size : (indexed version flavor headers content index).length =
      (directory version flavor headers).length +
        (content.length + (Codec.uleb index.toNat).length) := by
    rw [indexed, List.length_append, List.length_append]
  have small := leadingGroup_lt index.toNat
  have byte : (UInt8.ofNat (leadingGroup index.toNat)).toNat = leadingGroup index.toNat := by
    rw [UInt8.toNat_ofNat']
    omega
  constructor
  · rfl
  · exact laid.version
  · exact laid.count
  · exact laid.fit
  · exact List.prefix_append _ _
  · intro h listed
    have inside := laid.inside h listed
    rw [size]
    change (directory version flavor headers).length + _ + _ ≤ _
    omega
  · rfl
  · refine ⟨UInt8.ofNat (leadingGroup index.toNat), ?_, ?_, ?_, ?_⟩
    · rw [indexed, List.getLast?_append, List.getLast?_append, getLast?_uleb]
      rfl
    · rw [UInt8.lt_iff_toNat_lt, byte]
      exact small
    · rw [size]
      change (directory version flavor headers).length < _
      omega
    · rw [byte]
      rfl

theorem LaidOut.body? (laid : LaidOut version headers content) (flavor : UInt8) (index : UInt16)
    (kind : TableKind) : (readIndexed version flavor headers content index).body? kind =
      table? headers content kind := by
  rw [(laid.parsed flavor index).body? kind]
  refine Option.map_congr fun h found => ?_
  have inside := laid.inside h (List.mem_reverse.mp (List.mem_of_find?_eq_some found))
  change ((directory version flavor headers ++ _).drop ((directory version flavor headers).length + _)).take
    _ = _
  rw [List.drop_length_add_append, List.drop_append_of_le_length (by omega),
    List.take_append_of_le_length (by rw [List.length_drop]; omega)]

theorem toNat_selfIndex (version : Nat) (flavor : UInt8) (headers : List TableHeader) (content : Bytes)
    (index : UInt16) : (readIndexed version flavor headers content index).selfIndex.toNat =
      leadingGroup index.toNat := by
  have small := leadingGroup_lt index.toNat
  change (UInt16.ofNat _).toNat = _
  rw [UInt16.toNat_ofNat']
  omega

end ModuleImage

end MoveTx
