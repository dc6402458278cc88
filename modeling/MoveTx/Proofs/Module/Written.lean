import Mathlib.Data.List.Perm.Subperm
import MoveTx.Proofs.Module.Layout

/-!
# Images that are written

An image whose bodies stand one after the other, in the order of their headers, is read back: its
version, its own index, each body under its kind and nothing else. Where the bodies are pools, the index
leads to the name and to the address of the module.
-/

namespace MoveTx
open Step

namespace ModuleImage

variable {version : Nat} {flavor own : UInt8} {tables : List (TableKind × Bytes)}

/-- The headers of bodies that stand one after the other, the first of them at `offset`. -/
def headersFrom (offset : Nat) : List (TableKind × Bytes) → List TableHeader
  | [] => []
  | (kind, body) :: rest => ⟨kind, offset, body.length⟩ :: headersFrom (offset + body.length) rest

def bodies (tables : List (TableKind × Bytes)) : Bytes :=
  tables.flatMap (·.2)

/-- The image with these tables, of a module whose own handle is at the index `own`. -/
def written (version : Nat) (flavor : UInt8) (tables : List (TableKind × Bytes)) (own : UInt8) : Bytes :=
  directory version flavor (headersFrom 0 tables) ++ (bodies tables ++ [own])

/-- The parts of an image that can be written. -/
structure Writable (version : Nat) (tables : List (TableKind × Bytes)) (own : UInt8) : Prop where
  version : 1 ≤ version ∧ version ≤ 7
  distinct : (tables.map (·.1)).Nodup
  short : (bodies tables).length < 2 ^ 32
  own : own < 128

/-! ### Headers -/

theorem kinds_headersFrom (offset : Nat) (tables : List (TableKind × Bytes)) :
    (headersFrom offset tables).map (·.kind) = tables.map (·.1) := by
  induction tables generalizing offset with
  | nil => rfl
  | cons table rest ih => exact congrArg (List.cons table.1) (ih _)

theorem headersFrom_inside {offset : Nat} {h : TableHeader} (listed : h ∈ headersFrom offset tables) :
    h.offset + h.length ≤ offset + (bodies tables).length := by
  induction tables generalizing offset with
  | nil => cases listed
  | cons table rest ih =>
    have lengths : (bodies (table :: rest)).length = table.2.length + (bodies rest).length :=
      List.length_append
    rcases List.mem_cons.mp listed with rfl | later
    · change offset + table.2.length ≤ _
      omega
    · have inside := ih later
      omega

/-- A header leads to the body of its kind. -/
theorem body_headersFrom (tables : List (TableKind × Bytes)) (before rest : Bytes) (kind : TableKind) :
    ((headersFrom before.length tables).find? fun h => h.kind == kind).map
        (fun h => ((before ++ (bodies tables ++ rest)).drop h.offset).take h.length) =
      tables.lookup kind := by
  induction tables generalizing before with
  | nil => rfl
  | cons table others ih =>
    obtain ⟨k, body⟩ := table
    have bytes : before ++ (bodies ((k, body) :: others) ++ rest) =
        before ++ body ++ (bodies others ++ rest) := by
      change before ++ ((body ++ bodies others) ++ rest) = _
      simp only [List.append_assoc]
    rw [headersFrom, List.find?_cons, List.lookup_cons, bytes]
    by_cases same : k = kind
    · subst same
      simp only [beq_self_eq_true, Option.map_some]
      rw [List.append_assoc, List.drop_left, List.take_left]
    · have differs : (k == kind) = false := beq_eq_false_iff_ne.mpr same
      have differs' : (kind == k) = false := beq_eq_false_iff_ne.mpr (Ne.symm same)
      simp only [differs, differs']
      rw [← List.length_append]
      exact ih (before ++ body)

/-- Where no two headers are of one kind, it makes no difference which one is looked for. -/
theorem find?_reverse {headers : List TableHeader} (distinct : (headers.map (·.kind)).Nodup)
    (kind : TableKind) : (headers.reverse.find? fun h => h.kind == kind) =
      headers.find? fun h => h.kind == kind := by
  have distinct' : (headers.reverse.map (·.kind)).Nodup := by
    rw [List.map_reverse]
    exact List.nodup_reverse.mpr distinct
  ext h
  rw [find?_key_iff distinct, find?_key_iff distinct', List.mem_reverse]

/-! ### Reading what was written -/

/-- There are no more tables than kinds. -/
theorem Writable.few (writable : Writable version tables own) : tables.length ≤ TableKind.all.length := by
  rw [← List.length_map (·.1)]
  exact (List.subperm_of_subset writable.distinct fun kind _ => kind.mem_all).length_le

theorem Writable.laidOut (writable : Writable version tables own) :
    LaidOut version (headersFrom 0 tables) (bodies tables) := by
  have short := writable.short
  refine ⟨writable.version, ?_, ?_, ?_⟩
  · have few := writable.few
    have count : (headersFrom 0 tables).length = tables.length := by
      rw [← List.length_map (·.kind), kinds_headersFrom, List.length_map]
    rw [count]
    exact Nat.lt_of_le_of_lt few (by decide)
  · intro h listed
    have inside := headersFrom_inside listed
    unfold TableHeader.Fits UInt32.size
    omega
  · intro h listed
    have inside := headersFrom_inside listed
    omega

/-- The image as it is read. -/
def readBack (version : Nat) (flavor : UInt8) (tables : List (TableKind × Bytes)) (own : UInt8) :
    ModuleImage where
  bytes := written version flavor tables own
  version := version
  selfIndex := UInt16.ofNat own.toNat
  tables := collect ((headersFrom 0 tables).map
    (TableHeader.range (directory version flavor (headersFrom 0 tables)).length))

/-- An index of one byte is its own last group. -/
theorem Writable.readBack_eq (writable : Writable version tables own) (flavor : UInt8) :
    readBack version flavor tables own =
      readIndexed version flavor (headersFrom 0 tables) (bodies tables) (UInt16.ofNat own.toNat) := by
  have small : own.toNat < 128 := UInt8.lt_iff_toNat_lt.mp writable.own
  have same : (UInt16.ofNat own.toNat).toNat = own.toNat := by
    rw [UInt16.toNat_ofNat']
    omega
  unfold readBack readIndexed written indexed
  rw [same, leadingGroup_eq_iff.mpr small, Reader.uleb_small small, UInt8.ofNat_toNat]

theorem Writable.parsed (writable : Writable version tables own) (flavor : UInt8) :
    Parsed (written version flavor tables own) flavor (headersFrom 0 tables)
      (readBack version flavor tables own) := by
  have parsed := writable.laidOut.parsed flavor (UInt16.ofNat own.toNat)
  rw [← writable.readBack_eq flavor] at parsed
  have same : written version flavor tables own = _ := parsed.bytes_eq
  rw [same]
  exact parsed

theorem Writable.table? (writable : Writable version tables own) (kind : TableKind) :
    ModuleImage.table? (headersFrom 0 tables) (bodies tables) kind = tables.lookup kind := by
  have distinct : ((headersFrom 0 tables).map (·.kind)).Nodup := by
    rw [kinds_headersFrom]
    exact writable.distinct
  have found := body_headersFrom tables [] [] kind
  rw [List.append_nil] at found
  rw [ModuleImage.table?, find?_reverse distinct]
  exact found

theorem Writable.body? (writable : Writable version tables own) (flavor : UInt8) (kind : TableKind) :
    (readBack version flavor tables own).body? kind = tables.lookup kind := by
  rw [writable.readBack_eq flavor, writable.laidOut.body?, writable.table?]

/-- There is a table for each kind that was written, and no other. -/
theorem Writable.kinds (writable : Writable version tables own) (flavor : UInt8) :
    ((readBack version flavor tables own).tables.map (·.1)).Perm (tables.map (·.1)) := by
  refine (List.perm_ext_iff_of_nodup (nodup_collect _) writable.distinct).mpr fun kind => ?_
  change kind ∈ (collect _).map (·.1) ↔ _
  rw [kinds_collect, ← kinds_headersFrom 0 tables, List.map_map]
  rfl

/-! ### Pools -/

/-- What an index points to in a table that is the written form of a pool. -/
theorem entryAt_pool {α : Type} {entry : ModuleReader α} {write : α → Bytes} {domain : α → Prop}
    (reads : ModuleReader.ReadsEntry entry write domain) {m : ModuleImage} {kind : TableKind}
    {pool : List α} (found : m.body? kind = some (pool.flatMap write)) (all : ∀ a ∈ pool, domain a)
    (index : UInt16) :
    m.entryAt kind entry index = poolEntry kind pool index.toNat := by
  have read := (ModuleReader.readTable_ok_iff reads).mpr ⟨all, rfl⟩
  unfold entryAt poolEntry
  rw [found]
  simp only [read, bind, Except.bind]
  cases pool[index.toNat]? <;> rfl

theorem selfHandle_pool {m : ModuleImage} {handles : List ModuleHandle}
    (found : m.body? .moduleHandles = some (handles.flatMap ModuleHandle.written)) :
    m.selfHandle = poolEntry .moduleHandles handles m.selfIndex.toNat :=
  entryAt_pool ModuleReader.reads_moduleHandle found (fun _ _ => trivial) _

theorem name_pools {m : ModuleImage} {handles : List ModuleHandle} {identifiers : List String}
    (found : m.body? .moduleHandles = some (handles.flatMap ModuleHandle.written))
    (named : m.body? .identifiers = some (identifiers.flatMap encode))
    (short : ∀ s ∈ identifiers, readable s) :
    m.name = (poolEntry .moduleHandles handles m.selfIndex.toNat >>= fun handle =>
      poolEntry .identifiers identifiers handle.name.toNat) := by
  unfold name
  rw [selfHandle_pool found]
  exact congrArg _ (funext fun handle => entryAt_pool ModuleReader.reads_string named short _)

theorem address_pools {m : ModuleImage} {handles : List ModuleHandle} {addresses : List Address}
    (found : m.body? .moduleHandles = some (handles.flatMap ModuleHandle.written))
    (placed : m.body? .addressIdentifiers = some (addresses.flatMap encode)) :
    m.address = (poolEntry .moduleHandles handles m.selfIndex.toNat >>= fun handle =>
      poolEntry .addressIdentifiers addresses handle.address.toNat) := by
  unfold address
  rw [selfHandle_pool found]
  exact congrArg _ (funext fun handle =>
    entryAt_pool ModuleReader.reads_address placed (fun _ _ => trivial) _)

/-- Images are read back as they were written, and never beyond their bytes. An image of distinct tables
gives its version and its own index, each body under its kind and no other table. Where its bodies are
pools, the module has the name and the address that its own handle points to, unless an index is past
the end of its pool. Whatever else can be read, its tables stand behind the directory and within the
image, and no body is cut short. -/
theorem parse_written :
    (∀ version flavor tables own, Writable version tables own →
      ∃ m, parse (written version flavor tables own) = .ok m ∧
        m.version = version ∧ m.selfIndex.toNat = own.toNat ∧
        (∀ kind, m.body? kind = tables.lookup kind) ∧
        (m.tables.map (·.1)).Perm (tables.map (·.1)) ∧
        ∀ handles : List ModuleHandle,
          tables.lookup .moduleHandles = some (handles.flatMap ModuleHandle.written) →
          (∀ identifiers : List String, (∀ s ∈ identifiers, readable s) →
            tables.lookup .identifiers = some (identifiers.flatMap encode) →
            m.name = (poolEntry .moduleHandles handles own.toNat >>= fun handle =>
              poolEntry .identifiers identifiers handle.name.toNat)) ∧
          ∀ addresses : List Address,
            tables.lookup .addressIdentifiers = some (addresses.flatMap encode) →
            m.address = (poolEntry .moduleHandles handles own.toNat >>= fun handle =>
              poolEntry .addressIdentifiers addresses handle.address.toNat)) ∧
      ∀ bytes m, parse bytes = .ok m →
        m.bytes = bytes ∧ ∃ flavor headers, directory m.version flavor headers <+: bytes ∧
          ∀ kind range, (kind, range) ∈ m.tables →
            (directory m.version flavor headers).length ≤ range.start ∧ range.start ≤ range.stop ∧
            range.stop ≤ bytes.length ∧
            ∃ body, m.body? kind = some body ∧ body.length = range.stop - range.start := by
  constructor
  · intro version flavor tables own writable
    have index : (UInt16.ofNat own.toNat).toNat = own.toNat := by
      have small := own.toNat_lt
      rw [UInt16.toNat_ofNat']
      omega
    have body := writable.body? flavor
    refine ⟨readBack version flavor tables own,
      parse_ok_iff.mpr ⟨flavor, headersFrom 0 tables, writable.parsed flavor⟩, rfl, index, body,
      writable.kinds flavor, ?_⟩
    intro handles found
    have found := (body .moduleHandles).trans found
    rw [← index]
    constructor
    · intro identifiers short named
      exact name_pools found ((body .identifiers).trans named) short
    · intro addresses placed
      exact address_pools found ((body .addressIdentifiers).trans placed)
  · intro bytes m parsed
    obtain ⟨flavor, headers, parsed⟩ := parse_ok_iff.mp parsed
    refine ⟨parsed.bytes_eq, flavor, headers, parsed.begins, ?_⟩
    intro kind range inside
    obtain ⟨behind, forwards, within⟩ := parsed.ranges inside
    exact ⟨behind, forwards, within, parsed.body_length inside⟩

/-- Two modules at different addresses, by their handles. -/
def sampleHandles : List ModuleHandle :=
  [⟨0, 0⟩, ⟨1, 1⟩]

def sampleTables : List (TableKind × Bytes) :=
  [(.identifiers, ["other", "coin"].flatMap encode),
    (.moduleHandles, sampleHandles.flatMap ModuleHandle.written),
    (.addressIdentifiers, [Address.moveStdlib, .suiFramework].flatMap encode)]

theorem sampleTables_read :
    ∃ m, parse (written 6 5 sampleTables 1) = .ok m ∧ m.name = .ok "coin" ∧
      m.address = .ok .suiFramework ∧
      ∀ kind range, (kind, range) ∈ m.tables → range.stop ≤ (written 6 5 sampleTables 1).length := by
  obtain ⟨reads, bounded⟩ := parse_written
  have writable : Writable 6 sampleTables 1 :=
    ⟨by decide, by decide, by decide +kernel, by decide⟩
  obtain ⟨m, parsed, -, -, -, -, pools⟩ := reads 6 5 sampleTables 1 writable
  obtain ⟨names, addresses⟩ := pools sampleHandles rfl
  have short : ∀ s ∈ ["other", "coin"], (textBytes s).length ≤ maxSequenceLength := by
    decide +kernel
  obtain ⟨-, flavor, headers, -, inside⟩ := bounded _ m parsed
  refine ⟨m, parsed, names ["other", "coin"] short rfl, addresses [.moveStdlib, .suiFramework] rfl, ?_⟩
  intro kind range listed
  obtain ⟨-, -, within, -⟩ := inside kind range listed
  exact within

end ModuleImage

end MoveTx
