import Mathlib.Data.String.Basic
import MoveTx.Proofs.Package.Listing
import MoveTx.Proofs.Package.Manifest

/-!
# Loading packages

The same package is loaded, or loading fails in the same way, in whatever order the disk lists its
folders. It is the package with the modules of all module files, in the order of the names of the files, and
with the dependencies of its manifest.
-/

namespace MoveTx
open Step

namespace CompiledPackage

variable {d d' : Disk} {entries entries' : List (String × FileTree)} {p : CompiledPackage}

/-! ### Listings in another order -/

theorem readManifest_relisted (relisted : d.Relisted d') (dir : String) :
    readManifest d dir = readManifest d' dir := by
  have found := relisted.find? (joinPath dir manifestFile)
  simp only [readManifest]
  generalize d.find? (joinPath dir manifestFile) = there,
    d'.find? (joinPath dir manifestFile) = there' at found ⊢
  cases found with
  | none => rfl
  | some same => cases same <;> rfl

/-- What follows from a folder's entries follows from them in another order, or there is no folder. -/
theorem folderAt_relisted {α : Type} {next next' : List (String × FileTree) → Except PackageError α}
    (relisted : d.Relisted d') (path : String)
    (same : ∀ entries entries', FileTree.Relisted (.folder entries) (.folder entries') →
      next entries = next' entries') :
    folderAt d path >>= next = folderAt d' path >>= next' := by
  have found := relisted.find? path
  unfold folderAt
  generalize d.find? path = there, d'.find? path = there' at found ⊢
  cases found with
  | none => rfl
  | some relisted =>
    cases relisted with
    | file content => rfl
    | folder distinct names inner => exact same _ _ (.folder distinct names inner)

theorem readModule_relisted (relisted : FileTree.Relisted (.folder entries) (.folder entries'))
    (dir : String) : readModule dir entries = readModule dir entries' := by
  funext file
  have found := relisted.entry file
  unfold readModule
  generalize FileTree.entry? entries file = there, FileTree.entry? entries' file = there'
    at found ⊢
  cases found with
  | none => rfl
  | some same => cases same <;> rfl

/-- The names of the module files, ascending. -/
def moduleFiles (entries : List (String × FileTree)) : List String :=
  sortNames ((entries.map (·.1)).filter isModuleFile)

theorem moduleFiles_relisted (relisted : FileTree.Relisted (.folder entries) (.folder entries')) :
    moduleFiles entries = moduleFiles entries' := by
  cases relisted with
  | folder distinct names inner => exact sortNames_eq_of_perm (names.filter _)

/-- What follows from the entries of a folder of modules. -/
def ofModules (dir : String) (m : BuildManifest) (ownAddress : Address) (dependencies : List Address)
    (entries : List (String × FileTree)) : Except PackageError CompiledPackage := do
  if (moduleFiles entries).isEmpty then throw (.outputMissing dir)
  let modules ← (moduleFiles entries).mapM (readModule dir entries)
  return {
    name := m.name
    ownAddress
    modules := modules.map (·.1)
    moduleNames := modules.map (·.2)
    dependencies
    digest := PackageDigest.compute (modules.map (·.1)) dependencies }

theorem ofBuildFolder_eq (d : Disk) (dir : String) :
    ofBuildFolder d dir =
      (readManifest d dir >>= fun m => m.ownAddress >>= fun ownAddress => m.dependencies >>=
        fun dependencies => folderAt d (joinPath dir moduleFolder) >>=
        ofModules (joinPath dir moduleFolder) m ownAddress dependencies) :=
  rfl

theorem ofBuildFolder_relisted (relisted : d.Relisted d') (dir : String) :
    ofBuildFolder d dir = ofBuildFolder d' dir := by
  rw [ofBuildFolder_eq, ofBuildFolder_eq, readManifest_relisted relisted]
  refine bind_congr fun m => bind_congr fun ownAddress => bind_congr fun dependencies => ?_
  refine folderAt_relisted relisted _ fun entries entries' same => ?_
  unfold ofModules
  rw [moduleFiles_relisted same, readModule_relisted same]

/-- The names of the folders of packages. -/
def packageFolders (entries : List (String × FileTree)) : List String :=
  (entries.filter fun e => e.2.isFolder && e.1 ≠ locksFolder).map (·.1)

theorem mem_packageFolders {name : String} :
    name ∈ packageFolders entries ↔
      name ≠ locksFolder ∧ ∃ t, (name, t) ∈ entries ∧ t.isFolder = true := by
  simp only [packageFolders, List.mem_map, List.mem_filter, Bool.and_eq_true, decide_eq_true_iff]
  constructor
  · rintro ⟨⟨_, t⟩, ⟨listed, folder, other⟩, rfl⟩
    exact ⟨other, t, listed, folder⟩
  · rintro ⟨other, t, listed, folder⟩
    exact ⟨(name, t), ⟨listed, folder, other⟩, rfl⟩

theorem packageFolders_nodup (distinct : (entries.map (·.1)).Nodup) :
    (packageFolders entries).Nodup :=
  distinct.sublist (List.filter_sublist.map _)

theorem packageFolders_subset (relisted : FileTree.Relisted (.folder entries) (.folder entries')) :
    packageFolders entries ⊆ packageFolders entries' := by
  intro name inside
  obtain ⟨other, t, listed, folder⟩ := mem_packageFolders.mp inside
  obtain ⟨t', listed', same⟩ := relisted.listed listed
  exact mem_packageFolders.mpr ⟨other, t', listed', same.isFolder ▸ folder⟩

theorem packageFolders_relisted (relisted : FileTree.Relisted (.folder entries) (.folder entries')) :
    (packageFolders entries).Perm (packageFolders entries') := by
  refine (List.perm_ext_iff_of_nodup (packageFolders_nodup relisted.distinct)
    (packageFolders_nodup relisted.symm.distinct)).mpr fun name => ?_
  exact ⟨(packageFolders_subset relisted ·), (packageFolders_subset relisted.symm ·)⟩

/-- What follows from the names of the folders of packages. -/
def ofPackages (d : Disk) (build : String) : List String → Except PackageError CompiledPackage
  | [] => .error (.outputMissing build)
  | [name] => ofBuildFolder d (joinPath build name)
  | names => .error (.severalPackages (sortNames names))

theorem ofProject_eq (d : Disk) (project : String) :
    ofProject d project = (folderAt d (joinPath project buildFolder) >>= fun entries =>
      ofPackages d (joinPath project buildFolder) (packageFolders entries)) :=
  rfl

theorem ofPackages_perm {names names' : List String} (perm : names.Perm names')
    (same : ∀ dir, ofBuildFolder d dir = ofBuildFolder d' dir) (build : String) :
    ofPackages d build names = ofPackages d' build names' := by
  rcases names with _ | ⟨name, _ | ⟨next, rest⟩⟩
  · obtain rfl := perm.nil_eq
    rfl
  · obtain rfl := List.singleton_perm.mp perm
    exact same _
  · rcases names' with _ | ⟨name', _ | ⟨next', rest'⟩⟩
    · cases perm.length_eq
    · cases perm.length_eq
    · change Except.error (PackageError.severalPackages _) = Except.error (.severalPackages _)
      rw [sortNames_eq_of_perm perm]

theorem ofProject_relisted (relisted : d.Relisted d') (project : String) :
    ofProject d project = ofProject d' project := by
  rw [ofProject_eq, ofProject_eq]
  refine folderAt_relisted relisted _ fun entries entries' same => ?_
  exact ofPackages_perm (packageFolders_relisted same) (ofBuildFolder_relisted relisted) _

/-! ### What is loaded -/

/-- A file with what was read from it as a module. -/
structure ModuleFile where
  file : String
  content : Bytes
  name : String

/-- The module files among the entries of a folder, in the order of their names. -/
structure Holds (entries : List (String × FileTree)) (found : List ModuleFile) : Prop where
  ascending : (found.map (·.file)).Pairwise fun a b => textBytes a < textBytes b
  files : ∀ file, file ∈ found.map (·.file) ↔
    file ∈ entries.map (·.1) ∧ ∃ stem, stem ≠ "" ∧ file = stem ++ ".mv"
  read : ∀ r ∈ found, (r.file, .file r.content) ∈ entries ∧
    ModuleImage.parse r.content >>= ModuleImage.name = .ok r.name

/-- The package that the build folder at a path describes. -/
structure LoadedFrom (p : CompiledPackage) (d : Disk) (dir : String) : Prop where
  manifest : ∃ m, readManifest d dir = .ok m ∧ p.name = m.name ∧ m.ownAddress = .ok p.ownAddress ∧
    m.DependsOn p.dependencies
  modules : ∃ entries found, d.find? (joinPath dir moduleFolder) = some (.folder entries) ∧
    Holds entries found ∧ found ≠ [] ∧ p.modules = found.map (·.content) ∧
    p.moduleNames = found.map (·.name)
  digest : p.digest = PackageDigest.compute p.modules p.dependencies

theorem readModule_ok_iff {dir file : String} {read : Bytes × String}
    (distinct : (entries.map (·.1)).Nodup) :
    readModule dir entries file = .ok read ↔ (file, .file read.1) ∈ entries ∧
      ModuleImage.parse read.1 >>= ModuleImage.name = .ok read.2 := by
  obtain ⟨bytes, name⟩ := read
  rw [← FileTree.entry?_eq_some_iff distinct]
  unfold readModule
  constructor
  · intro done
    split at done
    · rename_i content present
      split at done
      · rename_i name' named
        obtain ⟨rfl, rfl⟩ := Prod.mk.inj (Except.ok.inj done)
        exact ⟨present, named⟩
      · cases done
    · cases done
  · rintro ⟨present, named⟩
    rw [present]
    simp only [named]

theorem mem_moduleFiles {file : String} :
    file ∈ moduleFiles entries ↔
      file ∈ entries.map (·.1) ∧ ∃ stem, stem ≠ "" ∧ file = stem ++ ".mv" := by
  rw [moduleFiles, (sortNames_perm _).mem_iff, List.mem_filter, isModuleFile_iff]

theorem moduleFiles_ascending (distinct : (entries.map (·.1)).Nodup) :
    (moduleFiles entries).Pairwise fun a b => textBytes a < textBytes b :=
  sortNames_ascending (distinct.filter _)

theorem Holds.moduleFiles {found : List ModuleFile} (holds : Holds entries found)
    (distinct : (entries.map (·.1)).Nodup) :
    CompiledPackage.moduleFiles entries = found.map (·.file) :=
  ascending_ext (moduleFiles_ascending distinct) holds.ascending
    fun file => mem_moduleFiles.trans (holds.files file).symm

/-- The modules that are read from a folder are the ones that it holds. -/
theorem readModules_ok_iff {dir : String} {reads : List (Bytes × String)}
    (distinct : (entries.map (·.1)).Nodup) :
    (moduleFiles entries).mapM (readModule dir entries) = .ok reads ↔
      ∃ found, Holds entries found ∧ reads = found.map fun r => (r.content, r.name) := by
  constructor
  · intro read
    obtain ⟨pairs, files, rfl, each⟩ := mapM_ok_pairs read
    refine ⟨pairs.map fun pair => ⟨pair.1, pair.2.1, pair.2.2⟩, ?_, ?_⟩
    · have named : (pairs.map fun pair => (⟨pair.1, pair.2.1, pair.2.2⟩ : ModuleFile)).map (·.file) =
          moduleFiles entries := by
        rw [files, List.map_map]
        rfl
      refine ⟨named ▸ moduleFiles_ascending distinct, fun file => ?_, fun r inside => ?_⟩
      · rw [named, mem_moduleFiles]
      · obtain ⟨pair, paired, rfl⟩ := List.mem_map.mp inside
        exact (readModule_ok_iff distinct).mp (each pair paired)
    · rw [List.map_map]
      rfl
  · rintro ⟨found, holds, rfl⟩
    rw [holds.moduleFiles distinct, mapM_ok_iff, List.map_map, List.map_map]
    exact List.map_congr_left fun r inside => (readModule_ok_iff distinct).mpr (holds.read r inside)

theorem folderAt_ok_iff {path : String} :
    folderAt d path = .ok entries ↔ d.find? path = some (.folder entries) := by
  unfold folderAt
  constructor
  · intro there
    split at there
    · rename_i present
      exact Except.ok.inj there ▸ present
    · cases there
  · intro present
    rw [present]

theorem distinct_of_find? {path : String} (relisted : d.Relisted d')
    (present : d.find? path = some (.folder entries)) : (entries.map (·.1)).Nodup := by
  have there := relisted.find? path
  rw [present] at there
  generalize d'.find? path = there' at there
  cases there with
  | some same => exact same.distinct

theorem ofModules_ok_iff {dir : String} {m : BuildManifest} {ownAddress : Address}
    {dependencies : List Address} (distinct : (entries.map (·.1)).Nodup) :
    ofModules dir m ownAddress dependencies entries = .ok p ↔ ∃ found, Holds entries found ∧
      found ≠ [] ∧ p = {
        name := m.name
        ownAddress
        modules := found.map (·.content)
        moduleNames := found.map (·.name)
        dependencies
        digest := PackageDigest.compute (found.map (·.content)) dependencies } := by
  have nonempty {found : List ModuleFile} (holds : Holds entries found) :
      (moduleFiles entries).isEmpty = true ↔ found = [] := by
    rw [holds.moduleFiles distinct, List.isEmpty_iff, List.map_eq_nil_iff]
  unfold ofModules
  split
  · rename_i empty
    refine iff_of_false nofun ?_
    rintro ⟨found, holds, filled, -⟩
    exact filled ((nonempty holds).mp empty)
  · rename_i notEmpty
    refine except_bind_ok_iff.trans ⟨?_, ?_⟩
    · rintro ⟨reads, read, same⟩
      obtain ⟨found, holds, rfl⟩ := (readModules_ok_iff distinct).mp read
      obtain rfl := Except.ok.inj same
      refine ⟨found, holds, fun none => notEmpty ((nonempty holds).mpr none), ?_⟩
      simp only [List.map_map]
      rfl
    · rintro ⟨found, holds, -, rfl⟩
      refine ⟨_, (readModules_ok_iff distinct).mpr ⟨found, holds, rfl⟩, ?_⟩
      simp only [List.map_map]
      rfl

theorem ofBuildFolder_ok_iff {dir : String} (relisted : d.Relisted d') :
    ofBuildFolder d dir = .ok p ↔ p.LoadedFrom d dir := by
  rw [ofBuildFolder_eq]
  simp only [except_bind_ok_iff, BuildManifest.dependencies_ok_iff, folderAt_ok_iff]
  constructor
  · rintro ⟨m, manifest, ownAddress, own, dependencies, depends, entries, present, done⟩
    obtain ⟨found, holds, filled, rfl⟩ :=
      (ofModules_ok_iff (distinct_of_find? relisted present)).mp done
    exact ⟨⟨m, manifest, rfl, own, depends⟩, ⟨entries, found, present, holds, filled, rfl, rfl⟩, rfl⟩
  · rintro ⟨⟨m, manifest, name, own, depends⟩,
      ⟨entries, found, present, holds, filled, modules, names⟩, digest⟩
    refine ⟨m, manifest, p.ownAddress, own, p.dependencies, depends, entries, present,
      (ofModules_ok_iff (distinct_of_find? relisted present)).mpr ⟨found, holds, filled, ?_⟩⟩
    rw [← name, ← names, ← modules, ← digest]

theorem ofPackages_ok_iff {build : String} {names : List String} :
    ofPackages d build names = .ok p ↔
      ∃ name, names = [name] ∧ ofBuildFolder d (joinPath build name) = .ok p := by
  unfold ofPackages
  split
  · exact iff_of_false nofun nofun
  · rename_i name
    constructor
    · exact fun done => ⟨name, rfl, done⟩
    · rintro ⟨_, same, done⟩
      obtain rfl := List.singleton_inj.mp same
      exact done
  · rename_i several
    exact iff_of_false nofun fun ⟨name, same, _⟩ => several name same

theorem ofProject_ok_iff {project : String} (relisted : d.Relisted d') :
    ofProject d project = .ok p ↔ ∃ entries name,
      d.find? (joinPath project buildFolder) = some (.folder entries) ∧
      packageFolders entries = [name] ∧
      p.LoadedFrom d (joinPath (joinPath project buildFolder) name) := by
  rw [ofProject_eq, except_bind_ok_iff]
  simp only [folderAt_ok_iff, ofPackages_ok_iff, ofBuildFolder_ok_iff relisted, exists_and_left]

/-- The order in which folders are listed makes no difference to what is loaded, and what is loaded is
what the build folder describes. -/
theorem load_relisted {d d' : Disk} (relisted : d.Relisted d') :
    (∀ dir, ofBuildFolder d dir = ofBuildFolder d' dir) ∧
      (∀ project, ofProject d project = ofProject d' project) ∧
      (∀ dir p, ofBuildFolder d dir = .ok p ↔ p.LoadedFrom d dir) ∧
      ∀ project p, ofProject d project = .ok p ↔ ∃ entries name,
        d.find? (joinPath project buildFolder) = some (.folder entries) ∧
        packageFolders entries = [name] ∧
        p.LoadedFrom d (joinPath (joinPath project buildFolder) name) :=
  ⟨ofBuildFolder_relisted relisted, ofProject_relisted relisted,
    fun _ _ => ofBuildFolder_ok_iff relisted, fun _ _ => ofProject_ok_iff relisted⟩

/-- A module of the name `name`. -/
def sampleModule (name : UInt8) : FileTree :=
  .file ([0xa1, 0x1c, 0xeb, 0x0b, 6, 0, 0, 0, 3, 7, 0, 2, 1, 2, 2, 8, 4, 32] ++ [1, name] ++ [0, 0] ++
    List.replicate 32 0 ++ [0])

def sampleManifest : String :=
  "compiled_package_info:\n  package_name: Demo\n  address_alias_instantiation:\n" ++
    "    demo: 0x0\n    std: 0x1\n"

/-- A project with two modules, whose folders are listed as `order` puts them. -/
def sampleDisk (order : List (String × FileTree) → List (String × FileTree)) : Disk where
  mount := "/work"
  tree := .folder (order [("build", .folder (order [
    ("locks", .folder []),
    ("Demo", .folder (order [
      ("BuildInfo.yaml", .file (textBytes sampleManifest)),
      ("bytecode_modules", .folder (order [("a.mv", sampleModule 97), ("b.mv", sampleModule 98)]))]))]))])

theorem sampleDisk_relisted {order : List (String × FileTree) → List (String × FileTree)}
    (perm : ∀ entries, List.Perm entries (order entries)) :
    (sampleDisk id).Relisted (sampleDisk order) := by
  refine ⟨rfl, FileTree.relisted_of_perm (by simp) (perm _) (.cons ⟨rfl, ?build⟩ .nil)⟩
  refine FileTree.relisted_of_perm (by simp) (perm _) (.cons ⟨rfl, ?locks⟩ (.cons ⟨rfl, ?package⟩ .nil))
  case locks => exact .folder .nil (.refl _) nofun
  refine FileTree.relisted_of_perm (by simp) (perm _) (.cons ⟨rfl, .file _⟩ (.cons ⟨rfl, ?modules⟩ .nil))
  exact FileTree.relisted_of_perm (by simp) (perm _) (.cons ⟨rfl, .file _⟩ (.cons ⟨rfl, .file _⟩ .nil))

theorem sampleDisk_loaded :
    (sampleDisk id).Relisted (sampleDisk List.reverse) ∧
      ∃ p, ofProject (sampleDisk List.reverse) "/work" = .ok p ∧
        (p.moduleNames, p.dependencies) = (["a", "b"], [.ofNat 1]) ∧
        ∃ dir, p.LoadedFrom (sampleDisk id) dir := by
  have relisted : (sampleDisk id).Relisted (sampleDisk List.reverse) :=
    sampleDisk_relisted fun entries => (List.reverse_perm entries).symm
  have evaluated : (ofProject (sampleDisk id) "/work").toOption.map
      (fun p => (p.moduleNames, p.dependencies)) = some (["a", "b"], [.ofNat 1]) := by
    simp only [ofProject, ofBuildFolder, folderAt, readManifest, Disk.find?,
      String.splitToList_of_valid]
    decide +kernel
  obtain ⟨-, same, -, fromProject⟩ := load_relisted relisted
  obtain ⟨p, loaded, read⟩ := Option.map_eq_some_iff.mp evaluated
  have done : ofProject (sampleDisk id) "/work" = .ok p := by
    revert loaded
    cases ofProject (sampleDisk id) "/work" with
    | error e => exact nofun
    | ok q => exact fun loaded => congrArg Except.ok (Option.some.inj loaded)
  obtain ⟨_, _, -, -, described⟩ := (fromProject _ _).mp done
  exact ⟨relisted, p, same "/work" ▸ done, read, _, described⟩

end CompiledPackage

end MoveTx
