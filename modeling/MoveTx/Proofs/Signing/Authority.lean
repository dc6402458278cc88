import MoveTx.Proofs.Signing.MultiSigKey

/-!
# Whose address it is

An address is the hash of the flag and the bytes of a key, or of a threshold and members written one after
the other with no count and no lengths. Different authorities hash different bytes all the same: each
member begins with a flag, which fixes where the member ends.
-/

namespace MoveTx

/-- Who an address can belong to. -/
inductive Authority
  | single (key : PublicKey)
  | multi (key : MultiSigKey)
  deriving DecidableEq

theorem PublicKey.flagged_inj {k l : PublicKey} (same : k.flagged = l.flagged) : k = l := by
  obtain ⟨flags, bytes⟩ := List.cons.inj same
  have schemes : k.scheme = l.scheme :=
    SignatureScheme.single.inj (SignatureScheme.flag_inj (s := .single _) (t := .single _) flags)
  cases k
  cases l
  subst schemes bytes
  rfl

namespace MultiSigKey

/-- A member is hashed as it is written in the binary form of the key. -/
theorem memberBytes_eq (m : Member) : memberBytes m = m.key.flagged ++ [m.weight] := by
  have small : m.key.scheme.flag.toNat < 128 := by
    cases m.key.scheme <;> decide
  rw [memberBytes, Reader.uleb_small small, UInt8.ofNat_toNat]
  rfl

/-- Members in a row are told apart without their count. -/
theorem flatMap_memberBytes_inj {ms ns : List Member}
    (same : ms.flatMap memberBytes = ns.flatMap memberBytes) : ms = ns := by
  have nonempty : ∀ m, memberBytes m ≠ [] := by
    intro m
    rw [memberBytes_eq]
    exact List.cons_ne_nil _ _
  exact Reader.flatMap_inj memberReader_reads nonempty (fun _ _ => trivial) (fun _ _ => trivial) same

theorem addressBytes_eq (k : MultiSigKey) :
    k.addressBytes = SignatureScheme.multiSig.flag :: (encode k.threshold ++
      k.members.flatMap memberBytes) := by
  have members : (k.members.flatMap fun m => m.key.flagged ++ [m.weight]) =
      k.members.flatMap memberBytes := by
    congr 1
    funext m
    exact (memberBytes_eq m).symm
  rw [addressBytes, members, List.cons_append]

theorem addressBytes_inj {k l : MultiSigKey} (same : k.addressBytes = l.addressBytes) : k = l := by
  rw [addressBytes_eq, addressBytes_eq] at same
  obtain ⟨thresholds, members⟩ := encode_append_inj trivial trivial (List.cons.inj same).2
  have all := flatMap_memberBytes_inj members
  cases k
  cases l
  subst thresholds all
  rfl

end MultiSigKey

namespace Authority

/-- What the address is the hash of. -/
def preimage : Authority → Bytes
  | single k => k.flagged
  | multi k => k.addressBytes

def address : Authority → Address
  | single k => k.address
  | multi k => k.address

theorem address_eq (a : Authority) : a.address = ⟨Blake2b.hash a.preimage⟩ := by
  cases a <;> rfl

theorem preimage_single_ne_multi (k : PublicKey) (l : MultiSigKey) : k.flagged ≠ l.addressBytes := by
  rw [MultiSigKey.addressBytes_eq]
  intro same
  have schemes : SignatureScheme.single k.scheme = .multiSig :=
    SignatureScheme.flag_inj (List.cons.inj same).1
  cases schemes

theorem preimage_inj {a b : Authority} (same : a.preimage = b.preimage) : a = b := by
  cases a with
  | single k =>
    cases b with
    | single l => rw [PublicKey.flagged_inj same]
    | multi l => exact absurd same (preimage_single_ne_multi k l)
  | multi k =>
    cases b with
    | single l => exact absurd same.symm (preimage_single_ne_multi l k)
    | multi l => rw [MultiSigKey.addressBytes_inj same]

/-- Different authorities have their addresses from different bytes, so that they share an address only
where the hash collides. -/
theorem preimage_separates {a b : Authority} (different : a ≠ b) :
    (∀ c : Authority, c.address = ⟨Blake2b.hash c.preimage⟩) ∧ a.preimage ≠ b.preimage ∧
      (a.address = b.address ↔ Blake2b.hash a.preimage = Blake2b.hash b.preimage) := by
  refine ⟨address_eq, fun same => different (preimage_inj same), ?_⟩
  rw [address_eq, address_eq, Address.mk.injEq]

/-- The members of `trio` in the opposite order. -/
def reversedTrio : MultiSigKey :=
  ⟨MultiSigKey.trioMembers.reverse, 4, rfl⟩

theorem reversedTrio_separate :
    multi MultiSigKey.trio ≠ multi reversedTrio ∧
      MultiSigKey.trio.addressBytes ≠ reversedTrio.addressBytes := by
  have different : multi MultiSigKey.trio ≠ multi reversedTrio := by decide
  exact ⟨different, (preimage_separates different).2.1⟩

end Authority

end MoveTx
