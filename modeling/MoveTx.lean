import MoveTx.Address
import MoveTx.Builder.Basic
import MoveTx.Builder.Error
import MoveTx.Bytes
import MoveTx.CallTarget
import MoveTx.CallValue
import MoveTx.Chain.Channel
import MoveTx.Chain.Coin
import MoveTx.Chain.Error
import MoveTx.Chain.Execution
import MoveTx.Chain.Faults
import MoveTx.Chain.Memory
import MoveTx.Chain.MoveFunction
import MoveTx.Chain.Object
import MoveTx.Client.Config
import MoveTx.Client.Error
import MoveTx.Client.Gas
import MoveTx.Client.Keystore
import MoveTx.Codec.Basic
import MoveTx.Codec.Error
import MoveTx.Codec.Reader
import MoveTx.Curve.Ecdsa
import MoveTx.Curve.Ed25519
import MoveTx.Curve.Modular
import MoveTx.Curve.Weierstrass
import MoveTx.Digest
import MoveTx.Draft.Basic
import MoveTx.Draft.Calls
import MoveTx.Draft.Coins
import MoveTx.Draft.Lowering
import MoveTx.Draft.Packages
import MoveTx.Draft.Parameter
import MoveTx.Hash.Blake2b
import MoveTx.Hash.Hmac
import MoveTx.Hash.Sha256
import MoveTx.Hash.Sha512
import MoveTx.Identifier
import MoveTx.Json.Basic
import MoveTx.Json.Form
import MoveTx.Json.Parser
import MoveTx.Module.Image
import MoveTx.Module.Table
import MoveTx.Object
import MoveTx.Package.Build
import MoveTx.Package.Compiled
import MoveTx.Package.Digest
import MoveTx.Package.Error
import MoveTx.Package.FileTree
import MoveTx.Package.Manifest
import MoveTx.PureValue
import MoveTx.Session.Basic
import MoveTx.Session.Finalize
import MoveTx.Session.Online
import MoveTx.Session.Submission
import MoveTx.Signing.Envelope
import MoveTx.Signing.Error
import MoveTx.Signing.Key
import MoveTx.Signing.MultiSig
import MoveTx.Signing.Scheme
import MoveTx.Text.Base58
import MoveTx.Text.Base64
import MoveTx.Text.Blank
import MoveTx.Text.Casing
import MoveTx.Text.Hex
import MoveTx.Text.Lowercase
import MoveTx.Text.Printable
import MoveTx.Text.Quoted
import MoveTx.Text.Utf8
import MoveTx.TextError
import MoveTx.Transaction.Basic
import MoveTx.Transaction.Binary
import MoveTx.Transaction.Intent
import MoveTx.Transaction.Validation
import MoveTx.TypeTag.Basic
import MoveTx.TypeTag.Binary
import MoveTx.TypeTag.Parser
import MoveTx.Yaml.Cursor
import MoveTx.Yaml.Document
import MoveTx.Yaml.Event.Basic
import MoveTx.Yaml.Event.Grammar
import MoveTx.Yaml.Node
import MoveTx.Yaml.Scalar.Block
import MoveTx.Yaml.Scalar.Folding
import MoveTx.Yaml.Scalar.Plain
import MoveTx.Yaml.Scalar.Quoted
import MoveTx.Yaml.Tag
import MoveTx.Yaml.Token.Basic
import MoveTx.Yaml.Token.Lexer
import MoveTx.Proofs.Step
import MoveTx.Proofs.Bytes
import MoveTx.Proofs.Codec.VarInt
import MoveTx.Proofs.Codec.Reader
import MoveTx.Proofs.Codec.Lawful
import MoveTx.Proofs.Codec.Combinators
import MoveTx.Proofs.Object
import MoveTx.Proofs.Text.Hex
import MoveTx.Proofs.Address
import MoveTx.Proofs.TypeTag.Binary
import MoveTx.Proofs.TypeTag.Parser
import MoveTx.Proofs.TypeTag.Grammar
import MoveTx.Proofs.TypeTag.Recognition
import MoveTx.Proofs.TypeTag.Text
import MoveTx.Proofs.TypeTag.Agreement
import MoveTx.Proofs.Transaction.Binary
import MoveTx.Proofs.Transaction.Validation
import MoveTx.Proofs.Transaction.Occurrence
import MoveTx.Proofs.Module.Table
import MoveTx.Proofs.Module.Image
import MoveTx.Proofs.Module.Layout
import MoveTx.Proofs.Module.Written
import MoveTx.Proofs.Module.SelfIndex
import MoveTx.Proofs.Builder.Operation
import MoveTx.Proofs.Builder.Run
import MoveTx.Proofs.Builder.Finish
import MoveTx.Proofs.Builder.Slot
import MoveTx.Proofs.Builder.Gain
import MoveTx.Proofs.Builder.ReadOnly
import MoveTx.Proofs.Builder.Failure
import MoveTx.Proofs.Builder.Scope
import MoveTx.Proofs.Builder.ReadBack
import MoveTx.Proofs.Builder.Sharing
import MoveTx.Proofs.Builder.Touch
import MoveTx.Proofs.Builder.Joining
import MoveTx.Proofs.ByteOrder
import MoveTx.Proofs.Client.Gas
import MoveTx.Proofs.Client.Selection
import MoveTx.Proofs.Draft.Access
import MoveTx.Proofs.Draft.Evolution
import MoveTx.Proofs.Draft.Records
import MoveTx.Proofs.Text.Base64
import MoveTx.Proofs.Chain.Submissions
import MoveTx.Proofs.Signing.Envelope
import MoveTx.Proofs.Signing.Acceptance
import MoveTx.Proofs.Signing.MultiSigKey
import MoveTx.Proofs.Signing.Assembly
import MoveTx.Proofs.Signing.MultiSigEnvelope
import MoveTx.Proofs.Signing.Authority
import MoveTx.Proofs.Session.Finalize
import MoveTx.Proofs.Session.Operation
import MoveTx.Proofs.Session.Payment
import MoveTx.Proofs.Session.Price
import MoveTx.Proofs.Session.Faithful
import MoveTx.Proofs.Session.Trial
import MoveTx.Proofs.Session.Mutability
import MoveTx.Proofs.Session.Receiving
import MoveTx.Proofs.Session.SystemObjects
import MoveTx.Proofs.Session.Call
import MoveTx.Proofs.Session.Atomic
import MoveTx.Proofs.Session.Logged
import MoveTx.Proofs.Session.Submission
import MoveTx.Proofs.Session.Unsigned
import MoveTx.Proofs.Session.Signers
import MoveTx.Proofs.Session.Verified
import MoveTx.Proofs.Draft.Lowering
import MoveTx.Proofs.PureValue.Typing
import MoveTx.Proofs.Draft.Sequence
import MoveTx.Proofs.Draft.Wiring
import MoveTx.Proofs.Session.Paying
import MoveTx.Proofs.Session.Wiring
import MoveTx.Proofs.Session.Results
import MoveTx.Proofs.Package.Listing
import MoveTx.Proofs.Package.Loading
import MoveTx.Proofs.Sorting
import MoveTx.Proofs.Package.Digest
import MoveTx.Proofs.Module.Entries
import MoveTx.Proofs.Chain.Coins
import MoveTx.Proofs.Client.Keystore
import MoveTx.Proofs.PureValue.Layout
import MoveTx.Proofs.Chain.Json
