import Mathlib.Data.List.Forall2
import MoveTx.Proofs.Client.Keystore
import MoveTx.Proofs.Session.Submission
import MoveTx.Proofs.Signing.Envelope
import MoveTx.Proofs.Transaction.Binary

/-!
# Signers

A session is signed by its sender, and by its sponsor when that is somebody else. These are the sender and
the owner of the gas in the data, as long as neither is changed once the session is finalized.
-/

namespace MoveTx
open Step

namespace Session

/-- The text of a signature by the key of an address. -/
def IsBy (text : String) (address : Address) : Prop :=
  ∃ e, Envelope.ofBase64 text = .ok e ∧ e.key.address = address

/-- The texts are signatures by the addresses, in this order. -/
def AreBy : List String → List Address → Prop :=
  List.Forall₂ IsBy

/-- The addresses that sign for a sender and the owner of the gas. -/
def signers (sender owner : Address) : List Address :=
  if owner = sender then [sender] else [sender, owner]

/-- A signature is that of a key in the keystore. -/
theorem signatureOf_ok {s : Session} {signer : Address} {data : TransactionData} {text : String}
    (run : s.signatureOf signer data = .ok text) :
    ∃ pair e, s.config.keystore.get? signer = some pair ∧ pair.signTransaction data = .ok e ∧
      text = e.base64 := by
  unfold signatureOf at run
  cases found : s.config.keystore.get? signer with
  | none =>
    rw [found] at run
    cases run
  | some pair =>
    cases signed : pair.signTransaction data with
    | error fault =>
      simp only [found, signed] at run
      cases run
    | ok e =>
      simp only [found, signed] at run
      obtain rfl := Except.ok.inj run
      exact ⟨pair, e, rfl, signed, rfl⟩

theorem signatureOf_isBy {s : Session} {signer : Address} {data : TransactionData} {text : String}
    (run : s.signatureOf signer data = .ok text) : IsBy text signer := by
  obtain ⟨pair, e, found, signed, rfl⟩ := signatureOf_ok run
  refine ⟨e, e.ofBase64_base64, ?_⟩
  rw [KeyPair.signTransaction_key signed]
  exact Keystore.get?_address found

theorem sponsorSignatures_ok {s : Session} {data : TransactionData} {texts : List String}
    (run : s.sponsorSignatures data = .ok texts) :
    List.Forall₂ (fun text signer => s.signatureOf signer data = .ok text) texts
      (if s.gasOwner = s.sender then [] else [s.gasOwner]) := by
  unfold sponsorSignatures at run
  unfold gasOwner
  cases sponsored : s.sponsor with
  | none =>
    rw [sponsored] at run
    obtain rfl := Except.ok.inj run
    rw [Option.getD_none, if_pos rfl]
    exact .nil
  | some sponsor =>
    simp only [sponsored] at run
    rw [Option.getD_some]
    split at run
    · rename_i same
      obtain rfl := Except.ok.inj run
      rw [if_pos same]
      exact .nil
    · rename_i other
      obtain ⟨signature, signed, run⟩ := except_bind_ok_iff.mp run
      obtain rfl := Except.ok.inj run
      rw [if_neg other]
      exact .cons signed .nil

/-- A session that is signed from the keystore is signed for its sender, and then for who else pays. -/
theorem signedWith_signatureOf {s : Session} {data : TransactionData} {t : SignedTransaction}
    (run : s.signedWith data (s.signatureOf s.sender data) = .ok t) :
    List.Forall₂ (fun text signer => s.signatureOf signer data = .ok text) t.signatures
      (signers s.sender s.gasOwner) := by
  unfold signedWith at run
  obtain ⟨signature, first, run⟩ := except_bind_ok_iff.mp run
  obtain ⟨rest, others, run⟩ := except_bind_ok_iff.mp run
  obtain rfl := Except.ok.inj run
  have sponsored := sponsorSignatures_ok others
  unfold signers
  split at sponsored
  · rename_i same
    rw [if_pos same]
    exact .cons first sponsored
  · rename_i other
    rw [if_neg other]
    exact .cons first sponsored

theorem signedWith_areBy {s : Session} {data : TransactionData} {t : SignedTransaction}
    (run : s.signedWith data (s.signatureOf s.sender data) = .ok t) :
    AreBy t.signatures (signers s.sender s.gasOwner) :=
  (signedWith_signatureOf run).imp fun _ _ => signatureOf_isBy

/-! ### Sessions whose parties stay -/

/-- The data of the session, if there is any, names the parties of the session. -/
def Accords (s : Session) : Prop :=
  ∀ data, s.finalized = some data → data.sender = s.sender ∧ data.gas.owner = s.gasOwner

/-- A session that calls lead to, none of which sets a party once the session is finalized. -/
inductive Steady : Session → Prop
  | start (config : ClientConfig) : Steady (start config)
  | step {σ : Type} (c : Channel σ) (call : Call) (s : Online σ) (before : Steady s.session)
      (free : call.SetsParty → s.session.finalized = none) : Steady (after (call.step c s)).session

variable {σ : Type} {c : Channel σ}

theorem Finalization.accords {budget : Option UInt64} {coin : Option Address} {s t : Online σ}
    {data : TransactionData} (f : Finalization c budget coin s t data) : t.session.Accords := by
  have limited := f.learns (learns_frame c)
  have sender : data.sender = s.session.sender := congrArg TransactionData.sender f.data_eq
  have owner : data.gas.owner = s.session.gasOwner := congrArg (fun d => d.gas.owner) f.data_eq
  rw [f.session_eq]
  intro known done
  obtain rfl := Option.some.inj done
  exact ⟨sender.trans limited.sender.symm, owner.trans limited.gasOwner.symm⟩

theorem concludes_accords (c : Channel σ) : Concludes c fun s t => s.Accords → t.Accords where
  refl := fun _ => id
  trans := fun first next accords => next (first accords)
  price := fun _ _ _ _ _ _ accords => accords
  function := fun _ _ accords => accords
  finalizes := fun f _ => f.accords
  submits := fun _ _ accords => accords

theorem accords_call (c : Channel σ) {call : Call} (keeps : ¬ call.SetsParty) :
    Moves (fun s t => s.Accords → t.Accords) (call.step c) := by
  have concludes := concludes_accords c
  have along := concludes.toAlong
  refine moves_call concludes.toFinalizes call ?_ ?_ fun _ => concludes.submits
  · rintro op rfl sets
    cases op with
    | withSender | withSponsor => exact absurd trivial keeps
    | setGasPrice price => exact moves_map (moves_modify along fun _ _ _ accords => accords)
    | setExpiration expiration => exact moves_map (moves_modify along fun _ _ _ accords => accords)
    | _ => exact sets.elim
  · intro s d unsent undone _ data done
    cases undone.symm.trans done

theorem finalized_setsParty (c : Channel σ) {call : Call} (sets : call.SetsParty) (s : Online σ) :
    (after (call.step c s)).session.finalized = s.session.finalized := by
  cases call with
  | customUpgrade => exact sets.elim
  | op o =>
    cases o with
    | withSender | withSponsor => rfl
    | _ => exact sets.elim

theorem Steady.accords {s : Session} (steady : s.Steady) : s.Accords := by
  induction steady with
  | start config =>
    intro data done
    cases done
  | step c call s before free ih =>
    by_cases sets : call.SetsParty
    · intro data done
      rw [finalized_setsParty c sets, free sets] at done
      cases done
    · exact accords_call c sets s ih

/-! ### Who signed -/

theorem finalizes_parties (c : Channel σ) :
    Finalizes c fun s t => t.sender = s.sender ∧ t.gasOwner = s.gasOwner where
  refl := fun _ => ⟨rfl, rfl⟩
  trans := fun first next => ⟨next.1.trans first.1, next.2.trans first.2⟩
  price := fun _ _ _ _ _ _ => ⟨rfl, rfl⟩
  function := fun _ _ => ⟨rfl, rfl⟩
  finalizes := by
    intro budget coin s t data f
    have limited := f.learns (learns_frame c)
    rw [f.session_eq]
    exact ⟨limited.sender, limited.gasOwner⟩

/-- Signatures are by the parties of the session. If none was set after the session was finalized, these
are the sender and the owner of the gas in the data that is signed. -/
theorem sign_signers (c : Channel σ) {s t : Online σ} {signed : SignedTransaction}
    (run : sign c s = .ok signed t) :
    AreBy signed.signatures (signers s.session.sender s.session.gasOwner) ∧
      ∃ data, t.session.finalized = some data ∧ signed.transaction = Base64.encode (encode data) ∧
        (s.session.Steady → AreBy signed.signatures (signers data.sender data.gas.owner)) := by
  obtain ⟨data, finalized, made⟩ := sign_ok run
  obtain ⟨sender, owner⟩ := (moves_sign (finalizes_parties c)).ok run
  have areBy := signedWith_areBy made
  have done := finalizedData_ok finalized
  refine ⟨sender ▸ owner ▸ areBy, data, done, signedWith_ok made, fun steady => ?_⟩
  have accords : t.session.Accords := (moves_sign (concludes_accords c).toFinalizes).ok run steady.accords
  obtain ⟨sender', owner'⟩ := accords data done
  rw [sender', owner']
  exact areBy

/-! ### A sender that is set too late -/

def soleKey : KeyPair :=
  ⟨.ed25519, .ofNat 1, rfl⟩

/-- A configuration with one key, which sends. -/
def keyed : ClientConfig :=
  { activeAddress := soleKey.address, keystore := .insert .empty soleKey, defaultBudget := some 4000 }

theorem keyed_get? : keyed.keystore.get? soleKey.address = some soleKey := by
  simp [Keystore.get?, keyed, Keystore.insert, Keystore.insertKey, Keystore.empty]

/-- The owner of the key signs whatever its sessions are finalized to. -/
theorem soleKey_signs {s t : Online σ} {data : TransactionData}
    (finalized : finalizedData c s = .ok data t) (config : t.session.config = keyed)
    (sender : t.session.sender = soleKey.address) (alone : t.session.sponsor = none) :
    ∃ e : Envelope, e.key = soleKey.publicKey ∧
      sign c s = .ok ⟨Base64.encode (encode data), [e.base64]⟩ t := by
  have found : t.session.config.keystore.get? t.session.sender = some soleKey := by
    rw [config, sender]
    exact keyed_get?
  obtain ⟨e, signed⟩ : ∃ e, soleKey.signTransaction data = .ok e := ⟨⟨_, soleKey.publicKey⟩, rfl⟩
  have signature : t.session.signatureOf t.session.sender data = .ok e.base64 := by
    unfold signatureOf
    simp only [found, signed]
    rfl
  have others : t.session.sponsorSignatures data = .ok [] := by
    unfold sponsorSignatures
    rw [alone]
    rfl
  have made : t.session.signedWith data (t.session.signatureOf t.session.sender data) =
      .ok ⟨Base64.encode (encode data), [e.base64]⟩ := by
    unfold signedWith
    rw [signature, others]
    rfl
  refine ⟨e, KeyPair.signTransaction_key signed, ?_⟩
  unfold sign
  rw [bind_of_ok finalized, current_bind]
  exact ofExcept_ok_iff.mpr ⟨made, rfl⟩

/-- Sends a coin. -/
def sends : SessionOp :=
  .build (.transferObjects [.object (coinOf 101 9000).ref] .clock)

/-- A session of the owner of the key, before it is finalized. -/
def ownSession : Online Unit :=
  after (sends.step twoCoins ⟨start keyed, ()⟩)

theorem ownSession_signers :
    ∃ signed t data, sign twoCoins ownSession = .ok signed t ∧ t.session.finalized = some data ∧
      AreBy signed.signatures (signers data.sender data.gas.owner) := by
  have steady : ownSession.session.Steady := .step twoCoins (.op sends) _ (.start keyed) False.elim
  have finalized : finalizedData twoCoins ownSession = .ok _ _ := rfl
  obtain ⟨e, -, run⟩ := soleKey_signs finalized rfl rfl rfl
  obtain ⟨-, data, done, -, areBy⟩ := sign_signers twoCoins run
  exact ⟨_, _, data, run, done, areBy steady⟩

/-- A session that is finalized for another sender, and sent by the owner of the key from then on. -/
def lateSender : Online Unit :=
  Call.run twoCoins ([.withSender (.ofNat 1), sends, .finalize none none,
    .withSender soleKey.address].map .op) ⟨start keyed, ()⟩

def lateData : TransactionData where
  kind := .programmable ⟨[.object (.owned (coinOf 101 9000).ref), .pure (encode Address.clock)],
    [.transferObjects [.input 0] (.input 1)]⟩
  sender := .ofNat 1
  gas := ⟨[(coinOf 102 5000).ref], .ofNat 1, 1000, 4000⟩
  expiration := .never

theorem lateSender_finalized : finalizedData twoCoins lateSender = .ok lateData lateSender :=
  rfl

theorem lateData_readable : Codec.decodeAll (encode lateData) = .ok lateData := by
  apply decodeAll_ok_iff.mpr
  refine ⟨?_, rfl⟩
  simp [readable, lateData, TransactionKind.transaction, maxSequenceLength]
  decide

theorem soleKey_address : soleKey.address ≠ .ofNat 1 := by
  decide +kernel

/-- Who was the sender when the session was finalized has not signed, though the data names it. -/
theorem lateSender_signers :
    ∃ signed, lateSender.session.Reachable ∧ sign twoCoins lateSender = .ok signed lateSender ∧
      signed.transaction = Base64.encode (encode lateData) ∧
      Codec.decodeAll (encode lateData) = .ok lateData ∧
      ¬ AreBy signed.signatures (signers lateData.sender lateData.gas.owner) := by
  have reachable : lateSender.session.Reachable := Reachable.run twoCoins _ (.start keyed)
  obtain ⟨e, key, run⟩ := soleKey_signs lateSender_finalized rfl rfl rfl
  refine ⟨_, reachable, run, rfl, lateData_readable, fun areBy => ?_⟩
  -- The one signature would have to be by the sender that the data names.
  have names : signers lateData.sender lateData.gas.owner = [.ofNat 1] := rfl
  rw [names] at areBy
  obtain ⟨read, same, address⟩ : IsBy e.base64 (.ofNat 1) := by
    cases areBy with
    | cons first rest => exact first
  obtain rfl := Except.ok.inj (e.ofBase64_base64.symm.trans same)
  rw [key] at address
  exact soleKey_address address

end Session

end MoveTx
