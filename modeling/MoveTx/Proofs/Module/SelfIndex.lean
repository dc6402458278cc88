import MoveTx.Proofs.Module.Written

/-!
# The index of a module's own handle

An index below 128 at the end of an image is read as it was written. Any other one is read as a smaller
index, which leads to the name and the address of another handle.
-/

namespace MoveTx.ModuleImage

variable {version : Nat} {headers : List TableHeader} {content : Bytes}

theorem LaidOut.name (laid : LaidOut version headers content) (flavor : UInt8) (index : UInt16)
    {handles : List ModuleHandle} {identifiers : List String}
    (found : table? headers content .moduleHandles = some (handles.flatMap ModuleHandle.written))
    (named : table? headers content .identifiers = some (identifiers.flatMap encode))
    (short : ∀ s ∈ identifiers, readable s) :
    (readIndexed version flavor headers content index).name =
      (poolEntry .moduleHandles handles (leadingGroup index.toNat) >>= fun handle =>
        poolEntry .identifiers identifiers handle.name.toNat) := by
  rw [← toNat_selfIndex version flavor headers content index]
  exact name_pools ((laid.body? flavor index _).trans found) ((laid.body? flavor index _).trans named) short

theorem LaidOut.address (laid : LaidOut version headers content) (flavor : UInt8) (index : UInt16)
    {handles : List ModuleHandle} {addresses : List Address}
    (found : table? headers content .moduleHandles = some (handles.flatMap ModuleHandle.written))
    (placed : table? headers content .addressIdentifiers = some (addresses.flatMap encode)) :
    (readIndexed version flavor headers content index).address =
      (poolEntry .moduleHandles handles (leadingGroup index.toNat) >>= fun handle =>
        poolEntry .addressIdentifiers addresses handle.address.toNat) := by
  rw [← toNat_selfIndex version flavor headers content index]
  exact address_pools ((laid.body? flavor index _).trans found) ((laid.body? flavor index _).trans placed)

/-- Every image ends in an index that is read as its most significant group. It is the index that was
written exactly if that is below 128, and the name and the address are those of the handle that it points
to. All else is read as it was written, whatever the index. -/
theorem parse_indexed (laid : LaidOut version headers content) (flavor : UInt8) (index : UInt16) :
    ∃ m, parse (indexed version flavor headers content index) = .ok m ∧ m.version = version ∧
      (∀ kind, m.body? kind = table? headers content kind) ∧
      m.selfIndex.toNat = leadingGroup index.toNat ∧ (m.selfIndex = index ↔ index.toNat < 128) ∧
      ∀ handles : List ModuleHandle,
        table? headers content .moduleHandles = some (handles.flatMap ModuleHandle.written) →
        (∀ identifiers : List String, (∀ s ∈ identifiers, readable s) →
          table? headers content .identifiers = some (identifiers.flatMap encode) →
          m.name = (poolEntry .moduleHandles handles (leadingGroup index.toNat) >>= fun handle =>
            poolEntry .identifiers identifiers handle.name.toNat)) ∧
        ∀ addresses : List Address,
          table? headers content .addressIdentifiers = some (addresses.flatMap encode) →
          m.address = (poolEntry .moduleHandles handles (leadingGroup index.toNat) >>= fun handle =>
            poolEntry .addressIdentifiers addresses handle.address.toNat) := by
  have own := toNat_selfIndex version flavor headers content index
  refine ⟨readIndexed version flavor headers content index,
    parse_ok_iff.mpr ⟨flavor, headers, laid.parsed flavor index⟩, rfl, laid.body? flavor index, own,
    ?_, ?_⟩
  · rw [← UInt16.toNat_inj, own]
    exact leadingGroup_eq_iff
  · intro handles found
    constructor
    · intro identifiers short named
      exact laid.name flavor index found named short
    · intro addresses placed
      exact laid.address flavor index found placed

/-- 128 handles of one module and, behind them, one of another. -/
def crowdedHandles : List ModuleHandle :=
  List.replicate 128 ⟨0, 0⟩ ++ [⟨1, 1⟩]

def crowdedTables : List (TableKind × Bytes) :=
  [(.identifiers, ["other", "coin"].flatMap encode),
    (.moduleHandles, crowdedHandles.flatMap ModuleHandle.written),
    (.addressIdentifiers, [Address.moveStdlib, .suiFramework].flatMap encode)]

/-- The image of the module that has one of the handles. -/
def crowded (index : UInt16) : Bytes :=
  indexed 6 5 (headersFrom 0 crowdedTables) (bodies crowdedTables) index

theorem crowdedTables_writable : Writable 6 crowdedTables 0 :=
  ⟨by decide, by decide, by decide +kernel, by decide⟩

theorem short_names : ∀ s ∈ ["other", "coin"], readable s := by
  change ∀ s ∈ ["other", "coin"], (textBytes s).length ≤ maxSequenceLength
  decide +kernel

theorem crowded_indexed :
    LaidOut 6 (headersFrom 0 crowdedTables) (bodies crowdedTables) ∧
      ∃ m, parse (crowded 127) = .ok m ∧ m.selfIndex = 127 ∧ m.name = .ok "other" := by
  have laid := crowdedTables_writable.laidOut
  have table := crowdedTables_writable.table?
  obtain ⟨m, parsed, -, -, -, own, pools⟩ := parse_indexed laid 5 127
  obtain ⟨names, -⟩ := pools crowdedHandles (table .moduleHandles)
  have name := names ["other", "coin"] short_names (table .identifiers)
  rw [leadingGroup_eq_iff.mpr (by decide)] at name
  exact ⟨laid, m, parsed, own.mpr (by decide), name⟩

/-- The last handle has an index of two groups, and an image that ends in it is read as that of another
module. -/
theorem crowded_misread :
    LaidOut 6 (headersFrom 0 crowdedTables) (bodies crowdedTables) ∧
      crowdedHandles[128]? = some ⟨1, 1⟩ ∧
      ∃ m, parse (crowded 128) = .ok m ∧ m.selfIndex = 1 ∧ m.name = .ok "other" ∧
        m.address = .ok .moveStdlib := by
  have laid := crowdedTables_writable.laidOut
  have table := crowdedTables_writable.table?
  have leading : leadingGroup (128 : UInt16).toNat = 1 := by
    change leadingGroup 128 = 1
    simp [leadingGroup]
  have placed : ModuleImage.table? (headersFrom 0 crowdedTables) (bodies crowdedTables)
      .addressIdentifiers = some ([Address.moveStdlib, .suiFramework].flatMap encode) :=
    table .addressIdentifiers
  have name := laid.name 5 128 (table .moduleHandles) (table .identifiers) short_names
  have address := laid.address 5 128 (table .moduleHandles) placed
  rw [leading] at name address
  refine ⟨laid, rfl, readIndexed 6 5 _ _ 128, parse_ok_iff.mpr ⟨5, _, laid.parsed 5 128⟩, ?_, name,
    address⟩
  exact congrArg UInt16.ofNat leading

end MoveTx.ModuleImage
