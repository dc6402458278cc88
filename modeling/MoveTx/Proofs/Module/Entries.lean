import MoveTx.Module.Image
import MoveTx.Proofs.Module.Table

/-!
# Tables as lists of entries

Each table of an image whose entries can be read is a list of them in a row. It is read as that list
whatever the entries are, and whatever is read comes back to the same bytes when it is written. So a
body with a last entry cut short, an index with spare groups, or anything else that no list of entries
comes to is refused.
-/

namespace MoveTx
open Step

/-! ### Written entries -/

/-- A type parameter as it stands in a struct handle. -/
def TypeParameter.written (p : TypeParameter) : Bytes :=
  [p.constraints.bits, if p.isPhantom then 1 else 0]

/-- A struct handle as it stands in its table. -/
def StructHandle.written (h : StructHandle) : Bytes :=
  Codec.uleb h.module.toNat ++ Codec.uleb h.name.toNat ++ [h.abilities.bits] ++
    Codec.listWith TypeParameter.written h.parameters

/-- No count beyond this one is read. -/
def StructHandle.IsShort (h : StructHandle) : Prop :=
  h.parameters.length ≤ maxSequenceLength

/-- A field handle as it stands in its table. -/
def FieldHandle.written (h : FieldHandle) : Bytes :=
  Codec.uleb h.owner.toNat ++ Codec.uleb h.field.toNat

namespace ModuleReader

theorem typeParameter_ok_iff (bs : Bytes) (p : TypeParameter) (rest : Bytes) :
    typeParameter bs = .ok p rest ↔ True ∧ bs = p.written ++ rest := by
  unfold typeParameter TypeParameter.written
  simp only [bind_ok_iff, Reader.byte_ok_iff, Reader.bool_ok_iff, pure_ok_iff, true_and]
  constructor
  · rintro ⟨constraints, _, rfl, isPhantom, _, rfl, rfl, rfl⟩
    rfl
  · rintro rfl
    exact ⟨p.constraints.bits, _, rfl, p.isPhantom, rest, rfl, rfl, rfl⟩

theorem reads_structHandle : ReadsEntry structHandle StructHandle.written StructHandle.IsShort where
  ok_iff bs h rest := by
    unfold structHandle StructHandle.written StructHandle.IsShort
    simp only [bind_ok_iff, index_ok_iff, ofReader_ok_iff, Reader.byte_ok_iff,
      Reader.list_ok_iff typeParameter_ok_iff, pure_ok_iff, implies_true, and_true, List.append_assoc,
      List.singleton_append]
    constructor
    · rintro ⟨module, _, rfl, name, _, rfl, abilities, _, rfl, parameters, _, ⟨short, rfl⟩, rfl, rfl⟩
      exact ⟨short, rfl⟩
    · rintro ⟨short, rfl⟩
      exact ⟨h.module, _, rfl, h.name, _, rfl, h.abilities.bits, _, rfl, h.parameters, rest,
        ⟨short, rfl⟩, rfl, rfl⟩
  nonempty _ := by
    unfold StructHandle.written
    simp [Reader.uleb_ne_nil]

theorem reads_fieldHandle : ReadsEntry fieldHandle FieldHandle.written fun _ => True where
  ok_iff bs h rest := by
    unfold fieldHandle FieldHandle.written
    simp only [bind_ok_iff, index_ok_iff, pure_ok_iff]
    rw [true_and, List.append_assoc]
    constructor
    · rintro ⟨owner, _, rfl, field, _, rfl, rfl, rfl⟩
      rfl
    · rintro rfl
      exact ⟨h.owner, _, rfl, h.field, rest, rfl, rfl, rfl⟩
  nonempty _ := List.append_ne_nil_of_left_ne_nil (Reader.uleb_ne_nil _) _

end ModuleReader

/-! ### Tables -/

namespace ModuleImage

/-- Whatever the body of the table of a kind is, it is read as a list of entries exactly if it is what
they come to in a row. -/
def ReadsExactly {α : Type} (kind : TableKind) (table : ModuleImage → Except ModuleError (List α))
    (write : α → Bytes) (domain : α → Prop) : Prop :=
  ∀ (m : ModuleImage) (body : Bytes), m.body? kind = some body →
    ∀ as, table m = .ok as ↔ (∀ a ∈ as, domain a) ∧ as.flatMap write = body

theorem readsExactly_entries {α : Type} {entry : ModuleReader α} {write : α → Bytes}
    {domain : α → Prop} (reads : ModuleReader.ReadsEntry entry write domain) (kind : TableKind) :
    ReadsExactly kind (fun m => m.entries kind entry) write domain := by
  intro m body found as
  unfold entries
  simp only [found, ModuleReader.readTable_ok_iff reads, eq_comm]

/-- Every table is read back as the entries that were written, and read in no other way. -/
theorem tables_exact :
    ReadsExactly .identifiers identifiers (encode : String → Bytes) readable ∧
      ReadsExactly .addressIdentifiers addresses (encode : Address → Bytes) (fun _ => True) ∧
      ReadsExactly .moduleHandles moduleHandles ModuleHandle.written (fun _ => True) ∧
      ReadsExactly .friendDeclarations friends ModuleHandle.written (fun _ => True) ∧
      ReadsExactly .structHandles structHandles StructHandle.written StructHandle.IsShort ∧
      ReadsExactly .fieldHandles fieldHandles FieldHandle.written (fun _ => True) :=
  ⟨readsExactly_entries ModuleReader.reads_string _, readsExactly_entries ModuleReader.reads_address _,
    readsExactly_entries ModuleReader.reads_moduleHandle _,
    readsExactly_entries ModuleReader.reads_moduleHandle _,
    readsExactly_entries ModuleReader.reads_structHandle _,
    readsExactly_entries ModuleReader.reads_fieldHandle _⟩

/-- A key that can be stored and has one phantom parameter. -/
def sampleStruct : StructHandle :=
  ⟨0, 2, ⟨0x0c⟩, [⟨⟨0⟩, true⟩]⟩

/-- An image with a table of struct handles and no other. -/
def structImage (body : Bytes) : ModuleImage :=
  ⟨body, maxVersion, 0, [(.structHandles, ⟨0, body.length⟩)]⟩

theorem sampleStructs_exact :
    (structImage [0, 2, 0x0c, 1, 0, 1, 0, 2, 0x0c, 1, 0, 1]).structHandles =
      .ok [sampleStruct, sampleStruct] := by
  obtain ⟨-, -, -, -, structs, -⟩ := tables_exact
  have short : ∀ h ∈ [sampleStruct, sampleStruct], h.IsShort := by
    simp [sampleStruct, StructHandle.IsShort, maxSequenceLength]
  exact (structs _ _ rfl _).mpr ⟨short, by decide +kernel⟩

end ModuleImage

end MoveTx
