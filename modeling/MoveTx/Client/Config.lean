import MoveTx.Client.Keystore
import MoveTx.Json.Form
import MoveTx.Package.FileTree

/-!
# Client configuration

A configuration says where the chain is, who sends, and with which keys. It is made of keystrings, of
which the first is the sender's, or read from a JSON file.
-/

namespace MoveTx

structure ClientConfig where
  url : String := "http://127.0.0.1:9000"
  /-- The sender of new transactions. -/
  activeAddress : Address := .ofNat 0
  keystore : Keystore := .empty
  /-- Whether coins may be asked of a faucet. -/
  useFaucet : Bool := false
  /-- The budget where none is given. Without it, the budget is found by trying the transaction. -/
  defaultBudget : Option UInt64 := none
  /-- Whether several coins may pay when no single one covers the budget. -/
  mergeGas : Bool := false

/-- Why a configuration file cannot be used. -/
inductive ConfigError
  | unreadable (path : String)
  | malformed (path : String)
  /-- The file names an active address without a key. -/
  | noActiveKey (address : Address) (path : String)
  | client (error : ClientError)

namespace ConfigError

/-- The name of the fault, for programs that tell faults apart. -/
def code : ConfigError → String
  | client error => error.code
  | _ => "Config"

def message : ConfigError → String
  | unreadable path => "reading client config " ++ path
  | malformed path => "parsing client config " ++ path
  | noActiveKey address path => "active address " ++ address.text ++ " has no key in " ++ path
  | client error => error.message

end ConfigError

/-- What a configuration file says. -/
structure ConfigFile where
  url : String
  keystrings : List String
  activeAddress : Option Address
  useFaucet : Bool
  defaultBudget : Option UInt64
  mergeGas : Bool

instance : JsonForm ConfigFile where
  toJson f := .ofFields [("rpc_url", toJson f.url), ("keystrings", toJson f.keystrings),
    ("active_address", toJson f.activeAddress), ("use_faucet", toJson f.useFaucet),
    ("default_gas_budget", toJson f.defaultBudget), ("merge_gas", toJson f.mergeGas)]
  ofJson? levels j := do
    let f ← j.fields? ["rpc_url", "keystrings", "active_address", "use_faucet", "default_gas_budget",
      "merge_gas"] levels
    return {
      url := ← f.required "rpc_url"
      keystrings := ← f.required "keystrings"
      activeAddress := ← f.withDefault "active_address" none
      useFaucet := ← f.withDefault "use_faucet" false
      defaultBudget := ← f.withDefault "default_gas_budget" none
      mergeGas := ← f.withDefault "merge_gas" false }

namespace ClientConfig

/-- The configuration for keys, the first of which is the sender's. -/
def ofKeystrings (url : String) : List String → Except ClientError ClientConfig
  | [] => .error .noKeys
  | first :: rest => do
    let active ← (KeyPair.ofKeystring first).mapError .signing
    let keystore ← (Keystore.ofKeystrings (first :: rest)).mapError .signing
    return { url, activeAddress := active.address, keystore }

/-- The configuration that a file describes, where `path` is the file's. -/
def ofFile (path : String) (f : ConfigFile) : Except ConfigError ClientConfig := do
  let config ← (ofKeystrings f.url f.keystrings).mapError .client
  let config := { config with
    useFaucet := f.useFaucet, defaultBudget := f.defaultBudget, mergeGas := f.mergeGas }
  match f.activeAddress with
  | none => return config
  | some active =>
    if config.keystore.contains active then return { config with activeAddress := active }
    else throw (.noActiveKey active path)

/-- Reads the configuration at a path. -/
def load (disk : Disk) (path : String) : Except ConfigError ClientConfig :=
  match disk.find? path with
  | some (.file content) =>
    match textOfBytes? content with
    | none => .error (.unreadable path)
    | some text =>
      match Json.decodeText? text with
      | none => .error (.malformed path)
      | some f => ofFile path f
  | _ => .error (.unreadable path)

/-- The key of the sender. -/
def activeKey (c : ClientConfig) : Except ClientError KeyPair :=
  match c.keystore.get? c.activeAddress with
  | some pair => .ok pair
  | none => .error (.unknownSigner c.activeAddress)

end ClientConfig

end MoveTx
