import Mathlib.Data.List.Nodup
import MoveTx.Module.Image
import MoveTx.Proofs.Lookup
import MoveTx.Proofs.Module.Table

/-!
# Images of modules

An image is a directory, the bodies of the tables that it lists, and the index of the module's own
handle. What is written so is read back: every table is found under its kind, and the index leads to the
name and the address of the module. In every image that can be read, each table stands behind the
directory and within the image.
-/

namespace MoveTx
open Step

theorem TableKind.ofByte?_eq_some_iff {b : UInt8} {kind : TableKind} :
    ofByte? b = some kind ↔ b = kind.byte := by
  constructor
  · intro found
    have named := List.find?_some found
    exact (beq_iff_eq.mp named).symm
  · rintro rfl
    cases kind <;> rfl

theorem TableKind.mem_all (kind : TableKind) : kind ∈ all := by
  cases kind <;> decide

namespace TableHeader

/-- A header as it stands in the directory. -/
def written (h : TableHeader) : Bytes :=
  h.kind.byte :: (Codec.uleb h.offset ++ Codec.uleb h.length)

/-- Both numbers of the header fit into a word. -/
def Fits (h : TableHeader) : Prop :=
  h.offset < UInt32.size ∧ h.length < UInt32.size

/-- Where the body stands behind a directory of `base` bytes. -/
def range (base : Nat) (h : TableHeader) : TableKind × TableRange :=
  (h.kind, ⟨base + h.offset, base + h.offset + h.length⟩)

end TableHeader

namespace ModuleImage

/-! ### The directory -/

/-- The bytes in front of the bodies. The top byte of the version tells flavors apart. -/
def directory (version : Nat) (flavor : UInt8) (headers : List TableHeader) : Bytes :=
  magic ++ (littleEndian 4 (version + flavor.toNat * 0x1000000) ++
    (Codec.uleb headers.length ++ headers.flatMap TableHeader.written))

theorem readMagic_ok_iff {bs rest : Bytes} {u : Unit} :
    readMagic bs = .ok u rest ↔ bs = magic ++ rest := by
  unfold readMagic
  rw [get_bind]
  constructor
  · intro read
    split at read
    · split at read
      · rename_i found
        obtain rfl := set_ok_iff.mp read
        rw [← found, List.take_append_drop]
      · exact (throw_ok_iff.mp read).elim
    · rw [if_neg (by decide)] at read
      exact (throw_ok_iff.mp read).elim
  · rintro rfl
    rfl

theorem readVersion_ok_iff {version : Nat} {bs rest : Bytes} :
    readVersion bs = .ok version rest ↔ (0 < version ∧ version ≤ maxVersion) ∧
      ∃ flavor : UInt8, bs = littleEndian 4 (version + flavor.toNat * 0x1000000) ++ rest := by
  unfold readVersion maxVersion
  simp only [bind_ok_iff, ModuleReader.ofReader_ok_iff, Reader.littleEndian_ok_iff]
  constructor
  · rintro ⟨word, _, ⟨small, rfl⟩, h⟩
    split at h
    · exact (throw_ok_iff.mp h).elim
    · obtain ⟨rfl, rfl⟩ := pure_ok_iff.mp h
      have top : (UInt8.ofNat (word / 0x1000000)).toNat = word / 0x1000000 := by
        rw [UInt8.toNat_ofNat']
        omega
      refine ⟨by omega, UInt8.ofNat (word / 0x1000000), ?_⟩
      rw [top, Nat.mod_add_div']
  · rintro ⟨known, flavor, rfl⟩
    have top := flavor.toNat_lt
    have low : (version + flavor.toNat * 0x1000000) % 0x1000000 = version := by omega
    refine ⟨version + flavor.toNat * 0x1000000, rest, ⟨by omega, rfl⟩, ?_⟩
    rw [low, if_neg (by omega)]
    rfl

theorem readHeader_ok_iff {length : Nat} (bs : Bytes) (h : TableHeader) (rest : Bytes) :
    readHeader length bs = .ok h rest ↔ h.Fits ∧ bs = h.written ++ rest := by
  unfold readHeader TableHeader.Fits TableHeader.written
  simp only [bind_ok_iff, ModuleReader.ofReader_ok_iff, Reader.byte_ok_iff, List.cons_append,
    List.append_assoc]
  constructor
  · rintro ⟨b, u, rfl, read⟩
    cases known : TableKind.ofByte? b with
    | none =>
      simp only [known] at read
      exact (throw_ok_iff.mp read).elim
    | some kind =>
      simp only [known, bind_ok_iff, ModuleReader.ofReader_ok_iff, Reader.uleb_ok_iff] at read
      obtain ⟨offset, _, ⟨-, rfl⟩, size, _, ⟨-, rfl⟩, read⟩ := read
      obtain rfl := TableKind.ofByte?_eq_some_iff.mp known
      split at read
      · rename_i fits
        obtain ⟨rfl, rfl⟩ := pure_ok_iff.mp read
        exact ⟨fits, rfl⟩
      · exact (throw_ok_iff.mp read).elim
  · rintro ⟨fits, rfl⟩
    refine ⟨h.kind.byte, _, rfl, ?_⟩
    simp only [TableKind.ofByte?_eq_some_iff.mpr rfl, bind_ok_iff, ModuleReader.ofReader_ok_iff,
      Reader.uleb_ok_iff]
    unfold UInt32.size at fits
    refine ⟨h.offset, _, ⟨by omega, rfl⟩, h.length, rest, ⟨by omega, rfl⟩, ?_⟩
    rw [if_pos fits]
    rfl

theorem readDirectory_ok_iff {length version : Nat} {headers : List TableHeader} {bs rest : Bytes} :
    readDirectory length bs = .ok (version, headers) rest ↔
      (0 < version ∧ version ≤ maxVersion) ∧ headers.length < 2 ^ 64 ∧ (∀ h ∈ headers, h.Fits) ∧
        ∃ flavor, bs = directory version flavor headers ++ rest := by
  unfold readDirectory directory
  simp only [bind_ok_iff, readMagic_ok_iff, readVersion_ok_iff, ModuleReader.ofReader_ok_iff,
    Reader.uleb_ok_iff, Reader.times_ok_iff readHeader_ok_iff, pure_ok_iff, List.append_assoc]
  constructor
  · rintro ⟨_, _, rfl, _, _, ⟨known, flavor, rfl⟩, count, _, ⟨few, rfl⟩, _, _, ⟨rfl, fit, rfl⟩, same, rfl⟩
    obtain ⟨rfl, rfl⟩ := Prod.mk.inj same
    exact ⟨known, few, fit, flavor, rfl⟩
  · rintro ⟨known, few, fit, flavor, rfl⟩
    exact ⟨(), _, rfl, version, _, ⟨known, flavor, rfl⟩, headers.length, _, ⟨few, rfl⟩, headers, rest,
      ⟨rfl, fit, rfl⟩, rfl, rfl⟩

/-! ### Images that can be read -/

theorem place_ok_iff {base length : Nat} {h : TableHeader} {range : TableKind × TableRange} :
    place base length h = .ok range ↔ base + h.offset + h.length ≤ length ∧ range = h.range base := by
  unfold place TableHeader.range
  simp only
  split
  · simp only [reduceCtorEq, false_iff]
    rintro ⟨inside, -⟩
    omega
  · simp only [Except.ok.injEq, eq_comm]
    exact ⟨fun same => ⟨by omega, same⟩, fun h => h.2⟩

theorem selfIndexOf_ok_iff {base : Nat} {bytes : Bytes} {index : UInt16} :
    selfIndexOf base bytes = .ok index ↔ ∃ b, bytes.getLast? = some b ∧ b < 0x80 ∧
      base < bytes.length ∧ index = UInt16.ofNat b.toNat := by
  unfold selfIndexOf
  cases bytes.getLast? with
  | none => simp
  | some b =>
    simp only [Option.some.injEq, exists_eq_left']
    split
    · rename_i known
      simp [known, eq_comm]
    · rename_i unknown
      simp only [reduceCtorEq, false_iff]
      exact fun h => unknown ⟨h.1, h.2.1⟩

theorem places_ok_iff {base length : Nat} {headers : List TableHeader}
    {ranges : List (TableKind × TableRange)} :
    headers.mapM (place base length) = .ok ranges ↔
      (∀ h ∈ headers, base + h.offset + h.length ≤ length) ∧
        ranges = headers.map (TableHeader.range base) := by
  induction headers generalizing ranges with
  | nil =>
    change Except.ok [] = Except.ok ranges ↔ _
    simp [eq_comm]
  | cons h rest ih =>
    simp only [List.mapM_cons, except_bind_ok_iff, place_ok_iff, ih, List.forall_mem_cons, List.map_cons]
    constructor
    · rintro ⟨_, ⟨here, rfl⟩, _, ⟨others, rfl⟩, done⟩
      cases done
      exact ⟨⟨here, others⟩, rfl⟩
    · rintro ⟨⟨here, others⟩, rfl⟩
      exact ⟨_, ⟨here, rfl⟩, _, ⟨others, rfl⟩, rfl⟩

/-- How the parts of an image that was read stand in its bytes. -/
structure Parsed (bytes : Bytes) (flavor : UInt8) (headers : List TableHeader) (m : ModuleImage) :
    Prop where
  bytes_eq : m.bytes = bytes
  version : 0 < m.version ∧ m.version ≤ maxVersion
  count : headers.length < 2 ^ 64
  fit : ∀ h ∈ headers, h.Fits
  begins : directory m.version flavor headers <+: bytes
  inside : ∀ h ∈ headers,
    (directory m.version flavor headers).length + h.offset + h.length ≤ bytes.length
  tables : m.tables =
    collect (headers.map (TableHeader.range (directory m.version flavor headers).length))
  /-- The last byte, which is none of the directory, is the index of the module's own handle. -/
  self : ∃ b, bytes.getLast? = some b ∧ b < 0x80 ∧
    (directory m.version flavor headers).length < bytes.length ∧ m.selfIndex = UInt16.ofNat b.toNat

theorem parse_ok_iff {bytes : Bytes} {m : ModuleImage} :
    parse bytes = .ok m ↔ ∃ flavor headers, Parsed bytes flavor headers m := by
  -- What is left behind the directory tells how long it is.
  have base : ∀ {dir rest : Bytes}, bytes = dir ++ rest → bytes.length - rest.length = dir.length := by
    rintro dir rest rfl
    rw [List.length_append, Nat.add_sub_cancel]
  unfold parse
  constructor
  · intro parsed
    cases read : (readDirectory bytes.length).run bytes with
    | error e rest =>
      rw [read] at parsed
      cases parsed
    | ok listed rest =>
      obtain ⟨version, headers⟩ := listed
      simp only [read] at parsed
      obtain ⟨ranges, placed, parsed⟩ := except_bind_ok_iff.mp parsed
      obtain ⟨index, last, done⟩ := except_bind_ok_iff.mp parsed
      obtain rfl := Except.ok.inj done
      obtain ⟨known, few, fit, flavor, written⟩ := readDirectory_ok_iff.mp read
      rw [base written] at placed last
      obtain ⟨inside, rfl⟩ := places_ok_iff.mp placed
      exact ⟨flavor, headers, rfl, known, few, fit, ⟨rest, written.symm⟩, inside, rfl,
        selfIndexOf_ok_iff.mp last⟩
  · rintro ⟨flavor, headers, parsed⟩
    obtain ⟨rest, written⟩ := parsed.begins
    have read : (readDirectory bytes.length).run bytes = .ok (m.version, headers) rest :=
      readDirectory_ok_iff.mpr ⟨parsed.version, parsed.count, parsed.fit, flavor, written.symm⟩
    have placed := places_ok_iff.mpr ⟨parsed.inside, rfl⟩
    have last := selfIndexOf_ok_iff.mpr parsed.self
    simp only [read, base written.symm]
    refine except_bind_ok_iff.mpr ⟨_, placed, except_bind_ok_iff.mpr ⟨_, last, ?_⟩⟩
    rw [← parsed.tables, ← parsed.bytes_eq]
    rfl

/-! ### Tables that are found -/

/-- What is kept for a kind is a range of that kind. -/
theorem keyed_find? {ranges : List (TableKind × TableRange)} {kind : TableKind}
    {range : TableKind × TableRange}
    (found : ranges.reverse.find? (fun range => range.1 == kind) = some range) : range.1 = kind := by
  have named := List.find?_some found
  exact beq_iff_eq.mp named

/-- Of several ranges for a kind the last one listed is found. -/
theorem find?_collect (ranges : List (TableKind × TableRange)) (kind : TableKind) :
    (collect ranges).find? (fun range => range.1 == kind) =
      ranges.reverse.find? fun range => range.1 == kind := by
  have only : ∀ k, (ranges.reverse.find? fun range => range.1 == k).any
      (fun range => range.1 == kind) = true → k = kind := by
    intro k kept
    obtain ⟨range, found, same⟩ := (Option.any_eq_true _ _).mp kept
    exact (keyed_find? found).symm.trans (beq_iff_eq.mp same)
  unfold collect
  rw [List.find?_filterMap]
  cases found : ranges.reverse.find? (fun range => range.1 == kind) with
  | none =>
    refine Option.bind_eq_none_iff.mpr fun k first => ?_
    have kept := List.find?_some first
    rw [only k kept]
    exact found
  | some range =>
    have listed : (TableKind.all.find? fun k => (ranges.reverse.find? fun range => range.1 == k).any
        fun range => range.1 == kind).isSome := by
      rw [List.find?_isSome]
      refine ⟨kind, kind.mem_all, ?_⟩
      rw [found]
      exact beq_iff_eq.mpr (keyed_find? found)
    obtain ⟨k, first⟩ := Option.isSome_iff_exists.mp listed
    have kept := List.find?_some first
    rw [first, only k kept]
    exact found

/-- No kind has two tables. -/
theorem nodup_collect (ranges : List (TableKind × TableRange)) :
    ((collect ranges).map (·.1)).Nodup := by
  unfold collect
  rw [List.map_filterMap]
  refine List.Nodup.filterMap ?_ (by decide)
  intro k k' kind first second
  obtain ⟨range, kept, rfl⟩ := Option.map_eq_some_iff.mp first
  obtain ⟨range', kept', same⟩ := Option.map_eq_some_iff.mp second
  rw [← keyed_find? kept, ← keyed_find? kept', same]

theorem mem_collect {ranges : List (TableKind × TableRange)} {range : TableKind × TableRange}
    (inside : range ∈ collect ranges) : range ∈ ranges := by
  obtain ⟨kind, -, found⟩ := List.mem_filterMap.mp inside
  exact List.mem_reverse.mp (List.mem_of_find?_eq_some found)

/-- Every kind that is listed has its table. -/
theorem kinds_collect (ranges : List (TableKind × TableRange)) (kind : TableKind) :
    kind ∈ (collect ranges).map (·.1) ↔ kind ∈ ranges.map (·.1) := by
  have search : ∀ l : List (TableKind × TableRange),
      kind ∈ l.map (·.1) ↔ (l.find? fun range => range.1 == kind).isSome := by
    intro l
    simp [List.find?_isSome]
  rw [search, find?_collect, ← search, List.map_reverse, List.mem_reverse]

/-- Every table of an image that was read stands behind the directory and within the image. -/
theorem Parsed.ranges {bytes : Bytes} {flavor : UInt8} {headers : List TableHeader} {m : ModuleImage}
    (parsed : Parsed bytes flavor headers m) {kind : TableKind} {range : TableRange}
    (inside : (kind, range) ∈ m.tables) :
    (directory m.version flavor headers).length ≤ range.start ∧ range.start ≤ range.stop ∧
      range.stop ≤ bytes.length := by
  rw [parsed.tables] at inside
  obtain ⟨h, listed, same⟩ := List.mem_map.mp (mem_collect inside)
  obtain ⟨rfl, rfl⟩ := Prod.mk.inj same
  exact ⟨Nat.le_add_right _ _, Nat.le_add_right _ _, parsed.inside h listed⟩

/-- The body of a kind is what its last header tells. -/
theorem Parsed.body? {bytes : Bytes} {flavor : UInt8} {headers : List TableHeader} {m : ModuleImage}
    (parsed : Parsed bytes flavor headers m) (kind : TableKind) :
    m.body? kind = (headers.reverse.find? fun h => h.kind == kind).map fun h =>
      (bytes.drop ((directory m.version flavor headers).length + h.offset)).take h.length := by
  unfold ModuleImage.body?
  rw [parsed.tables, find?_collect, ← List.map_reverse, List.find?_map, parsed.bytes_eq, Option.map_map]
  change (headers.reverse.find? fun h => h.kind == kind).map _ = _
  refine Option.map_congr fun h _ => ?_
  change (bytes.drop _).take (_ + h.length - _) = _
  rw [Nat.add_sub_cancel_left]

/-- No body is cut short. -/
theorem Parsed.body_length {bytes : Bytes} {flavor : UInt8} {headers : List TableHeader}
    {m : ModuleImage} (parsed : Parsed bytes flavor headers m) {kind : TableKind} {range : TableRange}
    (inside : (kind, range) ∈ m.tables) :
    ∃ body, m.body? kind = some body ∧ body.length = range.stop - range.start := by
  have distinct : (m.tables.map (·.1)).Nodup := by
    rw [parsed.tables]
    exact nodup_collect _
  obtain ⟨-, forwards, within⟩ := parsed.ranges inside
  have found := (find?_key_iff distinct).mpr ⟨inside, rfl⟩
  unfold ModuleImage.body?
  rw [found]
  refine ⟨_, rfl, ?_⟩
  rw [List.length_take, List.length_drop, parsed.bytes_eq]
  omega

end ModuleImage

end MoveTx
