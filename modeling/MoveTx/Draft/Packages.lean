import MoveTx.Draft.Calls
import MoveTx.Package.Compiled

/-!
# Publishing and upgrading packages

An upgrade is authorized by its cap, which gives a ticket; the upgrade takes the ticket and gives a
receipt; and the receipt is committed to the cap.
-/

namespace MoveTx

/-- How an upgrade is authorized and committed. -/
structure UpgradeProtocol where
  /-- The ticket, from the cap and the digest of the new package. -/
  authorize : Argument → PackageDigest → BuilderStep Argument
  /-- The end of the upgrade, from the cap and the receipt. -/
  commit : Argument → Argument → BuilderStep Argument

namespace UpgradeProtocol

/-- The policy for upgrades that keep to what was published before. -/
def compatiblePolicy : UInt8 := 0

def packageModule : Identifier := ⟨"package", by decide⟩

/-- Upgrades through `0x2::package`. -/
def framework : UpgradeProtocol where
  authorize cap digest := do
    let policy ← Builder.pure (.ofU8 compatiblePolicy)
    let digest ← Builder.pure (.ofBytes digest.bytes)
    Builder.moveCall .suiFramework packageModule ⟨"authorize_upgrade", by decide⟩ []
      [cap, policy, digest]
  commit cap receipt :=
    Builder.moveCall .suiFramework packageModule ⟨"commit_upgrade", by decide⟩ [] [cap, receipt]

end UpgradeProtocol

namespace Draft

/-- Publishes a package. The result is the cap for its upgrades. -/
def publish (p : CompiledPackage) : DraftStep Argument :=
  append (.publish p.modules p.dependencies)

/-- Upgrades the package `id` to `p`. -/
def upgrade (protocol : UpgradeProtocol) (p : CompiledPackage) (id : Address) (cap : CallValue) :
    DraftStep Argument := do
  let cap ← lowerObject cap none
  let ticket ← onBuilder (protocol.authorize cap p.digest)
  let receipt ← append (.upgrade p.modules p.dependencies id ticket)
  onBuilder (protocol.commit cap receipt)

end Draft

end MoveTx
