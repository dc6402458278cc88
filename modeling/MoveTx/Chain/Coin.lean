import MoveTx.Chain.Object

/-!
# Coins on the chain

A coin is an object with a balance. Coins are listed in pages.
-/

namespace MoveTx

structure Coin where
  type : String
  id : Address
  version : UInt64
  digest : Digest
  balance : UInt64
  previousTransaction : Option Digest
  deriving DecidableEq

def Coin.ref (c : Coin) : ObjectRef :=
  ⟨c.id, c.version, c.digest⟩

structure CoinPage where
  coins : List Coin
  /-- Where the next page begins. -/
  nextCursor : Option String
  hasNext : Bool
  deriving DecidableEq

def CoinPage.empty : CoinPage := ⟨[], none, false⟩

/-- The type of the coins that pay for transactions. -/
def Coin.gasType : String := "0x2::sui::SUI"

instance : JsonForm Coin where
  toJson c := .ofFields ([("coinType", toJson c.type), ("coinObjectId", toJson c.id),
    ("version", toJson c.version), ("digest", toJson c.digest), ("balance", toJson c.balance)] ++
      Json.optionalField "previousTransaction" c.previousTransaction)
  ofJson? levels j := do
    let f ← j.fields? ["coinType", "coinObjectId", "version", "digest", "balance",
      "previousTransaction"] levels
    return {
      type := ← f.required "coinType"
      id := ← f.required "coinObjectId"
      version := ← f.required "version"
      digest := ← f.required "digest"
      balance := ← f.required "balance"
      previousTransaction := ← f.withDefault "previousTransaction" none }

instance : JsonForm CoinPage where
  toJson p := .ofFields [("data", toJson p.coins), ("nextCursor", toJson p.nextCursor),
    ("hasNextPage", toJson p.hasNext)]
  ofJson? levels j := do
    let f ← j.fields? ["data", "nextCursor", "hasNextPage"] levels
    return ⟨← f.required "data", ← f.optional "nextCursor", ← f.required "hasNextPage"⟩

end MoveTx
