import MoveTx.Module.Image
import MoveTx.Package.Build
import MoveTx.Package.Manifest
import MoveTx.Text.Base64

/-!
# Compiled packages

A build leaves a folder for the package with a manifest and a folder of modules. Modules are taken in
ascending order of their file names, whatever the order in which the disk lists them.
-/

namespace MoveTx

structure CompiledPackage where
  name : String
  ownAddress : Address
  /-- The bytes of the modules, in the order of their file names. -/
  modules : List Bytes
  moduleNames : List String
  /-- The packages it depends on, ascending. -/
  dependencies : List Address
  digest : PackageDigest

namespace CompiledPackage

def buildFolder : String := "build"

/-- A folder beside those of packages. -/
def locksFolder : String := "locks"

def manifestFile : String := "BuildInfo.yaml"

def moduleFolder : String := "bytecode_modules"

/-- Whether a file holds a module, by its name. -/
def isModuleFile (name : String) : Bool :=
  name.endsWith ".mv" && 3 < name.length

/-- Puts a name before the first that is greater. -/
def insertName (name : String) : List String → List String
  | [] => [name]
  | other :: rest => if name < other then name :: other :: rest else other :: insertName name rest

def sortNames (names : List String) : List String :=
  names.foldr insertName []

/-- The entries of the folder at a path, which must be there. -/
def folderAt (disk : Disk) (path : String) : Except PackageError (List (String × FileTree)) :=
  match disk.find? path with
  | some (.folder entries) => .ok entries
  | _ => .error (.outputMissing path)

/-- The manifest in a folder. -/
def readManifest (disk : Disk) (dir : String) : Except PackageError BuildManifest :=
  let path := joinPath dir manifestFile
  match disk.find? path with
  | none => .error (.outputMissing path)
  | some (.folder _) => .error .unreadable
  | some (.file content) =>
    match textOfBytes? content with
    | none => .error .unreadable
    | some text => BuildManifest.parse text

/-- The bytes and the name of a module that stands in the folder at a path. -/
def readModule (dir : String) (entries : List (String × FileTree)) (file : String) :
    Except PackageError (Bytes × String) :=
  match FileTree.entry? entries file with
  | some (.file content) =>
    match ModuleImage.parse content >>= ModuleImage.name with
    | .ok name => .ok (content, name)
    | .error e => .error (.invalidModule (joinPath dir file) e)
  | _ => .error .unreadable

/-- Loads the package whose build folder is at a path. -/
def ofBuildFolder (disk : Disk) (dir : String) : Except PackageError CompiledPackage := do
  let manifest ← readManifest disk dir
  let ownAddress ← manifest.ownAddress
  let dependencies ← manifest.dependencies
  let moduleDir := joinPath dir moduleFolder
  let entries ← folderAt disk moduleDir
  let files := sortNames ((entries.map (·.1)).filter isModuleFile)
  if files.isEmpty then throw (.outputMissing moduleDir)
  let modules ← files.mapM (readModule moduleDir entries)
  return {
    name := manifest.name
    ownAddress
    modules := modules.map (·.1)
    moduleNames := modules.map (·.2)
    dependencies
    digest := PackageDigest.compute (modules.map (·.1)) dependencies }

/-- Loads the one package that was built in a project. -/
def ofProject (disk : Disk) (project : String) : Except PackageError CompiledPackage := do
  let build := joinPath project buildFolder
  let entries ← folderAt disk build
  let packages := (entries.filter fun e => e.2.isFolder && e.1 ≠ locksFolder).map (·.1)
  match packages with
  | [] => throw (.outputMissing build)
  | [name] => ofBuildFolder disk (joinPath build name)
  | names => throw (.severalPackages (sortNames names))

/-- Loads a project after the build tool has run on it. -/
def ofRun (run : BuildRun) (disk : Disk) (project : String) : Except PackageError CompiledPackage := do
  run.check
  ofProject disk project

def verifyDigest (p : CompiledPackage) (expected : PackageDigest) : Except PackageError Unit :=
  if p.digest = expected then .ok () else .error (.digestMismatch expected p.digest)

/-- The modules in base 64. -/
def modulesBase64 (p : CompiledPackage) : List String :=
  p.modules.map Base64.encode

end CompiledPackage

end MoveTx
