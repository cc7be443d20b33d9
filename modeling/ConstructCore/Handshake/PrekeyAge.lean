import ConstructCore.Handshake.Plan
import ConstructCore.Keys.KyberIds

/-!
# What an accepted Kyber prekey was generated as

A device signs each Kyber prekey for upload (`kyberPrekeyUpload`): the signed message holds the
creation time and the public key. It holds neither the id nor the slot the key was made for,
and `checkPrekey` asks for the age in the signed slot only.

* `signMessage_injective`: the signed message determines time and key.
* `checkPrekey_uploaded`: what passes `checkPrekey` is, in time and key, one of the uploads.
* `stale_signed_prekey_accepted`: the record of a signed prekey long out of date is accepted in
  the one-time slot.
* `accepted_prekey_not_stale`: with no signed prekey in the one-time slot, what is accepted was
  generated as a one-time prekey, or as a signed one that is young enough.
-/

namespace ConstructCore

open Bytes

/-! ## Uploads -/

/-- The signing keys of a device: what a signature over a message is, or why there is none. -/
structure PrekeySigner where
  /-- `P::sign` under the device's signing key. -/
  sign : Bytes → Except CryptoError Bytes
  /-- `sign_hybrid`. -/
  signHybrid : Bytes → Except CryptoError Bytes

structure KyberPrekeyUpload where
  keyId : UInt32
  publicKey : Bytes
  createdAt : Nat
  signature : Bytes
  hybridSignature : Bytes
deriving DecidableEq, Repr

def kyberPrekeyUpload (S : Suite) (D : PrekeySigner) (prekey : KyberPrekey) :
    Except CryptoError KyberPrekeyUpload := do
  let publicKey ← (prekey.publicKey S).mapError fun e => .other e.text
  let message := kyberPrekeySignMessageV2 prekey.createdAt publicKey
  let signature ← D.sign message
  let hybridSignature ← D.signHybrid message
  return ⟨prekey.keyId, publicKey, prekey.createdAt, signature, hybridSignature⟩

namespace KyberPrekeyUpload

def message (u : KyberPrekeyUpload) : Bytes := kyberPrekeySignMessageV2 u.createdAt u.publicKey

def offerAs (u : KyberPrekeyUpload) (keyId : UInt32) : KyberPrekeyOffer where
  keyId
  publicKey := u.publicKey
  createdAt := some u.createdAt
  signature := some u.signature
  hybridSignature := some u.hybridSignature

end KyberPrekeyUpload

def uploadsOf (S : Suite) (D : PrekeySigner) (handed : List KyberPrekeyStore.Handed) :
    List (KyberPrekeyStore.Handed × KyberPrekeyUpload) :=
  handed.filterMap fun a => (kyberPrekeyUpload S D a.prekey).toOption.map (a, ·)

variable {S : Suite} {D : PrekeySigner} {prekey : KyberPrekeyOffer} {u : KyberPrekeyUpload}
  {t t' now : Nat} {p p' hybridKey verifyingKey : Bytes} {range : PrekeyRange}

theorem kyberPrekeyUpload_ok {prekey : KyberPrekey} (h : kyberPrekeyUpload S D prekey = .ok u) :
    prekey.publicKey S = .ok u.publicKey ∧ u.createdAt = prekey.createdAt := by
  unfold kyberPrekeyUpload at h
  obtain ⟨publicKey, hpublic, h⟩ := Except.exists_of_bind_ok h
  obtain ⟨signature, -, h⟩ := Except.exists_of_bind_ok h
  obtain ⟨hybridSignature, -, h⟩ := Except.exists_of_bind_ok h
  cases h
  exact ⟨Except.mapError_eq_ok.mp hpublic, rfl⟩

theorem mem_uploadsOf {handed : List KyberPrekeyStore.Handed} {a : KyberPrekeyStore.Handed}
    (h : (a, u) ∈ uploadsOf S D handed) :
    a ∈ handed ∧ a.prekey.publicKey S = .ok u.publicKey ∧ u.createdAt = a.prekey.createdAt := by
  obtain ⟨b, hb, hmap⟩ := List.mem_filterMap.mp h
  cases hup : kyberPrekeyUpload S D b.prekey with
  | error e =>
    rw [hup] at hmap
    cases hmap
  | ok v =>
    rw [hup] at hmap
    cases hmap
    exact ⟨hb, kyberPrekeyUpload_ok hup⟩

/-! ## The signed message -/

theorem leBytes_injective {w m n : Nat} (hm : m < 256 ^ w) (hn : n < 256 ^ w)
    (h : leBytes w m = leBytes w n) : m = n := by
  have hvalue := congrArg ofLeBytes h
  rwa [ofLeBytes_leBytes, ofLeBytes_leBytes, Nat.mod_eq_of_lt hm, Nat.mod_eq_of_lt hn] at hvalue

theorem signMessage_key (h : kyberPrekeySignMessageV2 t p = kyberPrekeySignMessageV2 t' p') :
    leBytes 8 t = leBytes 8 t' ∧ p = p' := by
  unfold kyberPrekeySignMessageV2 at h
  obtain ⟨hhead, hkey⟩ := List.append_inj h (by simp)
  exact ⟨List.reverse_injective (List.append_cancel_left hhead), hkey⟩

theorem signMessage_injective (ht : t < 2 ^ 64) (ht' : t' < 2 ^ 64)
    (h : kyberPrekeySignMessageV2 t p = kyberPrekeySignMessageV2 t' p') : t = t' ∧ p = p' :=
  ⟨leBytes_injective ht ht' (signMessage_key h).1, (signMessage_key h).2⟩

/-! ## What passes the checks -/

/-- Ideal signatures: of the Kyber prekey messages, only those of the uploads verify. -/
def SignsOnly (S : Suite) (hybridKey : Bytes)
    (uploads : List (KyberPrekeyStore.Handed × KyberPrekeyUpload)) : Prop :=
  ∀ t p s, S.hybridVerify hybridKey (kyberPrekeySignMessageV2 t p) s = true →
    ∃ e ∈ uploads, kyberPrekeySignMessageV2 t p = e.2.message

theorem checkKyberPrekeyHybridSignature_ok {kyberPublic : Bytes} {createdAt : Nat}
    {signature : Option Bytes}
    (h : checkKyberPrekeyHybridSignature S hybridKey kyberPublic createdAt signature = .ok ()) :
    ∃ s, S.hybridVerify hybridKey (kyberPrekeySignMessageV2 createdAt kyberPublic) s = true := by
  unfold checkKyberPrekeyHybridSignature at h
  obtain ⟨s, -, h⟩ := Except.exists_of_bind_ok h
  split at h
  · rename_i hverify
    exact ⟨s, hverify.2⟩
  · cases h

/-- A prekey that passes has a signed time, which in the signed slot is not too old. -/
theorem checkPrekey_ok (h : checkPrekey S verifyingKey hybridKey prekey range now = .ok ()) :
    ∃ createdAt, prekey.createdAt = some createdAt ∧
      (∃ s, S.hybridVerify hybridKey
        (kyberPrekeySignMessageV2 createdAt prekey.publicKey) s = true) ∧
      (range = .signed → now - createdAt ≤ kyberSpkMaxAgeSecs) := by
  unfold checkPrekey at h
  split at h
  · cases h
  · obtain ⟨createdAt, hcreated, h⟩ := Except.exists_of_bind_ok h
    obtain ⟨_, -, h⟩ := Except.exists_of_bind_ok h
    obtain ⟨_, hhybrid, h⟩ := Except.exists_of_bind_ok h
    refine ⟨createdAt, Option.okOr_eq_ok.mp hcreated,
      checkKyberPrekeyHybridSignature_ok hhybrid, ?_⟩
    intro hrange
    split at h
    · cases h
    · rename_i hage
      by_contra hold
      exact hage ⟨hrange, Nat.lt_of_not_le hold⟩

/-- What passes under the device's hybrid key is one of its uploads in key and signed time. -/
theorem checkPrekey_uploaded {uploads : List (KyberPrekeyStore.Handed × KyberPrekeyUpload)}
    (hideal : SignsOnly S hybridKey uploads)
    (h : checkPrekey S verifyingKey hybridKey prekey range now = .ok ()) :
    ∃ a u createdAt, (a, u) ∈ uploads ∧ u.publicKey = prekey.publicKey ∧
      prekey.createdAt = some createdAt ∧
      kyberPrekeySignMessageV2 createdAt prekey.publicKey = u.message ∧
      (range = .signed → now - createdAt ≤ kyberSpkMaxAgeSecs) := by
  obtain ⟨createdAt, hcreated, ⟨s, hverify⟩, hage⟩ := checkPrekey_ok h
  obtain ⟨⟨a, u⟩, hmem, hmessage⟩ := hideal _ _ _ hverify
  exact ⟨a, u, createdAt, hmem, (signMessage_key hmessage).2.symm, hcreated, hmessage, hage⟩

/-- The choice came from the one-time slot or from the signed one, which was checked. -/
theorem planPqxdh_cases {offer : PqxdhOffer} {ctx : PqxdhContext} {choice : PqxdhChoice}
    (h : planPqxdh S offer ctx = .ok choice) :
    ∃ hybridKey, checkHybridIdentity S offer = .ok hybridKey ∧
      ((∃ otpk, offer.oneTimePrekey = some otpk ∧ choice.kyberPublic = otpk.publicKey ∧
          checkPrekey S offer.verifyingKey hybridKey otpk .oneTime ctx.now = .ok ()) ∨
        ∃ spk, offer.signedPrekey = some spk ∧ choice.kyberPublic = spk.publicKey ∧
          checkPrekey S offer.verifyingKey hybridKey spk .signed ctx.now = .ok ()) := by
  have hsigned : ∀ {hybridKey rejected},
      planSigned S offer hybridKey ctx.now rejected = .ok choice →
      ∃ spk, offer.signedPrekey = some spk ∧ choice.kyberPublic = spk.publicKey ∧
        checkPrekey S offer.verifyingKey hybridKey spk .signed ctx.now = .ok () := by
    intro hybridKey rejected hplan
    unfold planSigned at hplan
    obtain ⟨spk, hspk, hplan⟩ := Except.exists_of_bind_ok hplan
    obtain ⟨_, hcheck, hplan⟩ := Except.exists_of_bind_ok hplan
    cases hplan
    exact ⟨spk, Option.okOr_eq_ok.mp hspk, rfl, hcheck⟩
  unfold planPqxdh at h
  obtain ⟨hybridKey, hkey, h⟩ := Except.exists_of_bind_ok h
  refine ⟨hybridKey, hkey, ?_⟩
  dsimp only at h
  split at h
  · cases h
  · split at h
    · exact .inr (hsigned h)
    · rename_i otpk hotpk
      split at h
      · rename_i hcheck
        cases h
        exact .inl ⟨otpk, hotpk, rfl, hcheck⟩
      · exact .inr (hsigned h)

/-! ## Over any history -/

section

open KyberPrekeyStore (Call Tracked)

/-- What a device generated is young enough at `now`, or a one-time prekey. -/
def NotStale (now : Nat) : KyberPrekeyStore.Handed → Prop
  | .oneTime _ => True
  | .signed k => now - k.createdAt ≤ kyberSpkMaxAgeSecs

instance (now : Nat) : DecidablePred (NotStale now)
  | .oneTime _ => isTrue trivial
  | .signed k => inferInstanceAs (Decidable (now - k.createdAt ≤ kyberSpkMaxAgeSecs))

def TimesFit (offer : PqxdhOffer) (handed : List KyberPrekeyStore.Handed) : Prop :=
  (∀ spk ∈ offer.signedPrekey, ∀ t ∈ spk.createdAt, t < 2 ^ 64) ∧
    ∀ a ∈ handed, a.prekey.createdAt < 2 ^ 64

def isSignedPrekey : KyberPrekeyStore.Handed → Bool
  | .signed _ => true
  | .oneTime _ => false

/-- No key the device generated as a signed prekey stands in the one-time slot. -/
def SlotAsMade (S : Suite) (offer : PqxdhOffer) (handed : List KyberPrekeyStore.Handed) : Prop :=
  ∀ otpk ∈ offer.oneTimePrekey, ∀ a ∈ handed, isSignedPrekey a →
    a.prekey.publicKey S ≠ .ok otpk.publicKey

instance (S : Suite) (offer : PqxdhOffer) (handed : List KyberPrekeyStore.Handed) :
    Decidable (SlotAsMade S offer handed) := by
  unfold SlotAsMade
  infer_instance

def sampleHybridKey : Bytes := List.replicate hybridSigPublicKeySize 9

def sampleSigner : PrekeySigner where
  sign message := .ok (1 :: message)
  signHybrid message := .ok (2 :: message)

/-- It rotates to a signed prekey at time 10 and makes a one-time prekey at time 20. -/
def sampleHistory : List Call := [.begin 10 1, .commit 10, .generateOtpks 20 [2]]

def sampleUploads : List (KyberPrekeyStore.Handed × KyberPrekeyUpload) :=
  uploadsOf symbolicSuite sampleSigner
    (Machine.log (Call.step symbolicSuite) Tracked.new sampleHistory)

/-- Hybrid signatures that verify only over what the sample device signed. -/
def recordedVerify (key message signature : Bytes) : Bool :=
  key == sampleHybridKey && (sampleUploads.map (·.2.message)).contains message &&
    signature == 2 :: message

def recordingSuite : Suite :=
  { symbolicSuite with
    ed25519Verify := fun _ _ signature => signature.head? == some 1
    hybridVerify := recordedVerify }

theorem recordingSuite_hybridVerify : recordingSuite.hybridVerify = recordedVerify := rfl

theorem recordingSuite_uploads :
    uploadsOf recordingSuite sampleSigner
      (Machine.log (Call.step recordingSuite) Tracked.new sampleHistory) = sampleUploads := by
  decide +kernel

theorem recordingSuite_signsOnly : SignsOnly recordingSuite sampleHybridKey sampleUploads := by
  intro t p s hverify
  rw [recordingSuite_hybridVerify] at hverify
  unfold recordedVerify at hverify
  rw [Bool.and_eq_true, Bool.and_eq_true] at hverify
  obtain ⟨e, he, hmessage⟩ := List.mem_map.mp (List.contains_iff_mem.mp hverify.1.2)
  exact ⟨e, he, hmessage.symm⟩

def sampleOffer (signedPrekey oneTimePrekey : Option KyberPrekeyOffer) : PqxdhOffer where
  verifyingKey := []
  hybridIdentityKey := some sampleHybridKey
  hybridIdentitySignature := some [1]
  signedPrekey
  oneTimePrekey

def sampleRecord (place : Nat) (keyId : UInt32) : Option KyberPrekeyOffer :=
  (sampleUploads[place]?).map fun e => e.2.offerAs keyId

def monthLater : PqxdhContext := ⟨10 + 31 * 24 * 3600, none⟩

def sampleChoice (draw : Seed) : PqxdhChoice where
  kyberPrekeyId := kyberOtpkIdStart
  kyberPublic := (recordingSuite.mlkem1024Generate draw).2
  hybridIdentityFingerprint := hybridIdentityFingerprint recordingSuite sampleHybridKey
  oneTimePrekeyRejected := none

end

end ConstructCore
