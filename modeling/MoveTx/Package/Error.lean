import MoveTx.Module.Table
import MoveTx.Package.Digest

/-!
# Why a package cannot be loaded

`PackageError` is what can go wrong between building a package and having its modules;
`PackageError.code` names it for programs and `PackageError.message` says it in words.
-/

namespace MoveTx

/-- What is wrong with a build manifest. -/
inductive ManifestFault
  /-- The text is no manifest. -/
  | malformed
  /-- The package's own alias has no address. -/
  | noAddress (name : String)
  | badAddress (name : String) (error : TextError)
  | badSourceDigest

inductive PackageError
  /-- The build tool failed, with what it printed. -/
  | buildFailed (output : String)
  | outputMissing (path : String)
  /-- The build left several packages. -/
  | severalPackages (names : List String)
  | manifestCorrupt (fault : ManifestFault)
  | digestMismatch (expected computed : PackageDigest)
  | invalidModule (path : String) (error : ModuleError)
  /-- A file could not be read, or a program not started. -/
  | unreadable

def ManifestFault.message : ManifestFault → String
  | malformed => "<yaml>"
  | noAddress name => "no address for package alias " ++ Text.quoted name
  | badAddress name error => "address for " ++ Text.quoted name ++ ": " ++ error.message
  | badSourceDigest => "source digest: <hex>"

/-- The name of the fault, for programs that tell faults apart. -/
def PackageError.code : PackageError → String
  | buildFailed _ => "Publish.BuildFailed"
  | outputMissing _ => "Publish.BuildOutputMissing"
  | severalPackages _ => "Publish.MultipleBuildSubdirs"
  | manifestCorrupt _ => "Publish.ManifestCorrupt"
  | digestMismatch _ _ => "Publish.DigestMismatch"
  | invalidModule _ _ => "Publish.InvalidModule"
  | unreadable => "Publish.Io"

def PackageError.message : PackageError → String
  | buildFailed output => "package build failed: " ++ output
  | outputMissing path => "build output missing: " ++ path
  | severalPackages names =>
    "expected one package under build/, found [" ++
      String.intercalate ", " (names.map Text.quoted) ++ "]"
  | manifestCorrupt fault => "corrupt build manifest: " ++ fault.message
  | digestMismatch expected computed =>
    "package digest mismatch: expected " ++ expected.text ++ ", computed " ++ computed.text
  | invalidModule path error => "invalid module " ++ path ++ ": " ++ error.message
  | unreadable => "I/O error: <io>"

end MoveTx
