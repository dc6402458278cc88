import MoveTx.Package.Error
import MoveTx.Text.Lowercase
import MoveTx.Yaml.Document

/-!
# Build manifests

A build leaves a manifest with the name of the package and the addresses of all named packages. The
lowercase name is the package's own alias, and every other alias names a dependency.
-/

namespace MoveTx

structure BuildManifest where
  name : String
  /-- Hex addresses by alias, in ascending order of the aliases. -/
  aliases : List (String × String)
  /-- The digest of the sources, in hex. -/
  sourceDigestText : Option String

namespace BuildManifest

/-- Gives an alias an address, in place of the one it had. -/
def insertAlias (name value : String) : List (String × String) → List (String × String)
  | [] => [(name, value)]
  | (k, v) :: rest =>
    if name = k then (k, value) :: rest
    else if name < k then (name, value) :: (k, v) :: rest
    else (k, v) :: insertAlias name value rest

/-- The last address given to each alias. -/
def sortAliases (pairs : List (String × String)) : List (String × String) :=
  pairs.foldl (fun sorted pair => insertAlias pair.1 pair.2 sorted) []

/-- Reads the record of a package. -/
def ofRecord? (d : Yaml.Document) (node : Yaml.Node) : Option BuildManifest := do
  match ← d.fields? ["package_name", "address_alias_instantiation", "source_digest"] node with
  | [some name, some aliases, digest] =>
    let digest ← match digest with
      | some digest => d.optionalText? digest
      | none => some none
    return ⟨← d.text? name, sortAliases (← d.textPairs? aliases), digest⟩
  | _ => none

def parse? (s : String) : Option BuildManifest := do
  let d ← Yaml.Document.ofText? s
  match ← d.fields? ["compiled_package_info"] d.root with
  | [some info] => ofRecord? d info
  | _ => none

def parse (s : String) : Except PackageError BuildManifest :=
  match parse? s with
  | some m => .ok m
  | none => .error (.manifestCorrupt .malformed)

/-- The alias of the package itself. -/
def ownAlias (m : BuildManifest) : String :=
  Text.lowercase m.name

def parseAddress (name hex : String) : Except PackageError Address :=
  match Address.parse hex with
  | .ok a => .ok a
  | .error e => .error (.manifestCorrupt (.badAddress name e))

/-- The package's own address, which is zero before it is published. -/
def ownAddress (m : BuildManifest) : Except PackageError Address :=
  match m.aliases.find? fun pair => pair.1 == m.ownAlias with
  | some (name, hex) => parseAddress name hex
  | none => .error (.manifestCorrupt (.noAddress m.ownAlias))

/-- The distinct addresses of all other aliases, ascending. -/
def dependencies (m : BuildManifest) : Except PackageError (List Address) := do
  let others := m.aliases.filter fun pair => pair.1 ≠ m.ownAlias
  let addresses ← others.mapM fun pair => parseAddress pair.1 pair.2
  return addresses.foldl (fun set a => Address.insert a set) []

/-- The digest of the sources, if the build recorded one. -/
def sourceDigest (m : BuildManifest) : Except PackageError (Option Bytes) :=
  match m.sourceDigestText with
  | none => .ok none
  | some hex =>
    match Hex.decode? hex with
    | some bs => .ok (some bs)
    | none => .error (.manifestCorrupt .badSourceDigest)

end BuildManifest

end MoveTx
