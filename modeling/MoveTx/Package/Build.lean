import MoveTx.Package.Error
import MoveTx.Package.FileTree
import MoveTx.Text.Blank

/-!
# Running the build tool

`BuildOptions.arguments` is the command line that builds a project, and `BuildRun.check` what follows
from how the program ended.
-/

namespace MoveTx

structure BuildOptions where
  program : String := "sui"
  withUnpublishedDependencies : Bool := false
  skipFetchingDependencies : Bool := false
  /-- Arguments that stand before the project. -/
  extra : List String := []

def BuildOptions.arguments (o : BuildOptions) (project : String) : List String :=
  ["move", "build"] ++
    (if o.withUnpublishedDependencies then ["--with-unpublished-dependencies"] else []) ++
    (if o.skipFetchingDependencies then ["--skip-fetch-latest-git-deps"] else []) ++
    o.extra ++ ["-p", project]

/-- How a run of the build tool ended. -/
inductive BuildRun
  /-- The program could not be started. -/
  | notStarted
  | exited (code : Nat) (output errors : String)

/-- A run is good when the program says so. Its complaint is what it printed as errors, or else all it
printed. -/
def BuildRun.check : BuildRun → Except PackageError Unit
  | notStarted => .error .unreadable
  | exited 0 _ _ => .ok ()
  | exited (_ + 1) output errors =>
    .error (.buildFailed (if (Text.trim errors).isEmpty then output else errors))

end MoveTx
