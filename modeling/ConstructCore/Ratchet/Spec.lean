import ConstructCore.Ratchet.Messaging

/-!
# What a returning operation did

One lemma for each operation of the ratchet, from the state it started in to the state it
left, in terms of key chains:

* the two loops of `decrypt` move the receiving chain forward and file what they pass
  (`SavesOld`, `Derives`, both an `Advance` of the chain);
* the DH step is a `DhTurn`: the values it computes and the state they make;
* `ClassicalKey` is the classical half of `decrypt`: a filed key, a key of the live chain,
  or a key of the chain a DH step opened;
* `decryptMessage_ok` and `encrypt_ok` put them together.
-/

namespace ConstructCore

open Bytes Op KeyChain

variable {C : Crypto}

def ckStep (C : Crypto) (chain : Bytes) : Option (Bytes × Bytes) := (C.kdfCk chain).toOption

variable {chain rootKey contactId localUserId localIdentity plaintext : Bytes}
  {keys : Bytes × Bytes} {env : Env} {s : Session} {m : EncryptedRatchetMessage}

theorem ckStep_of_ok (h : C.kdfCk chain = .ok keys) :
    ckStep C chain = some keys := by
  unfold ckStep
  rw [h]
  rfl

theorem ok_of_ckStep (h : ckStep C chain = some keys) :
    C.kdfCk chain = .ok keys := by
  unfold ckStep at h
  cases hk : C.kdfCk chain with
  | ok keys' =>
    rw [hk] at h
    exact congrArg _ (Option.some.inj h)
  | error e =>
    rw [hk] at h
    cases h

/-- Where the key of position `i` under the ratchet key `dh` is filed. -/
def slot (dh : Bytes) (i : Nat) : Bytes × UInt32 := (dh, UInt32.ofNat i)

theorem slot_inj {dh dh' : Bytes} {i j : Nat} (hi : i < 2 ^ 32) (hj : j < 2 ^ 32)
    (h : slot dh i = slot dh' j) : dh = dh' ∧ i = j := by
  obtain ⟨hdh, hnum⟩ := Prod.mk.inj h
  have := congrArg UInt32.toNat hnum
  rw [UInt32.toNat_ofNat', UInt32.toNat_ofNat'] at this
  exact ⟨hdh, by omega⟩

namespace Session

/-- The receiving chain at another state and position, with another store. -/
def withReceiving (s : Session) (key : Bytes) (position : Nat)
    (skipped : AgedStore (Bytes × UInt32) Bytes) : Session :=
  { s with
    dr := { s.dr with
      receivingChainKey := key
      receivingChainLength := UInt32.ofNat position
      skippedMessageKeys := skipped } }

theorem slot_toNat (dh : Bytes) (n : UInt32) : slot dh n.toNat = (dh, n) := by
  unfold slot
  rw [UInt32.ofNat_toNat]

/-- The receiving chain moves from where it stands to `position`, filing under `dh`. -/
def Moves (C : Crypto) (now : Nat) (dh : Bytes) (s : Session) (position : Nat) (chain : Bytes)
    (skipped : AgedStore (Bytes × UInt32) Bytes) : Prop :=
  Advance (ckStep C) (slot dh) now s.dr.receivingChainKey s.dr.receivingChainLength.toNat
    s.dr.skippedMessageKeys chain position skipped

theorem ofNat_checkedSucc {n m : UInt32} (h : n.checkedSucc = some m) :
    m = UInt32.ofNat (n.toNat + 1) := by
  rw [← UInt32.toNat_inj, UInt32.toNat_of_checkedSucc h, UInt32.toNat_ofNat']
  have := UInt32.toNat_of_checkedSucc h
  have := m.toNat_lt
  omega

/-! ## The loops -/

variable {n now : Nat} {m : EncryptedRatchetMessage} {snap : DecryptSnapshot} {s t : Session}
  {u : Unit} {key plaintext : Bytes} {secret : Option Bytes} {env : Env} {pos : SendPosition}

/-- Why a loop over the receiving chain fails that would end with `keys` keys filed. -/
inductive LoopRefusal (keys : Nat) : RatchetError → Prop where
  | kdf (e : CryptoError) : LoopRefusal keys (.kdfCk e)
  | length : LoopRefusal keys .receivingChainLengthOverflow
  | full (h : Config.global.maxSkippedMessages ≤ keys) : LoopRefusal keys .tooManySkipped

theorem LoopRefusal.mono {keys keys' : Nat} {e : RatchetError} (h : LoopRefusal keys e)
    (hle : keys ≤ keys') : LoopRefusal keys' e := by
  cases h with
  | kdf e => exact .kdf e
  | length => exact .length
  | full h => exact .full (Nat.le_trans h hle)

/-- The session after one pass of a loop. -/
def passed (s : Session) (dh : Bytes) (now : Nat) (keys : Bytes × Bytes) (length : UInt32) :
    Session :=
  let s := s.fileSkippedKey dh now keys.1 keys.2
  { s with dr := { s.dr with receivingChainLength := length } }

theorem moves_passed {dh : Bytes} (keys : Bytes × Bytes) {length : UInt32} {position : Nat}
    {skipped : AgedStore (Bytes × UInt32) Bytes}
    (hlen : s.dr.receivingChainLength.checkedSucc = some length) :
    Moves C now dh (s.passed dh now keys length) position chain skipped ↔
      Advance (ckStep C) (slot dh) now keys.2 (s.dr.receivingChainLength.toNat + 1)
        (s.dr.skippedMessageKeys.insert (slot dh s.dr.receivingChainLength.toNat) keys.1 now)
        chain position skipped := by
  rw [slot_toNat, ← UInt32.toNat_of_checkedSucc hlen]
  rfl

theorem size_passed (s : Session) (dh : Bytes) (now : Nat) (keys : Bytes × Bytes)
    (length : UInt32) :
    (s.passed dh now keys length).dr.skippedMessageKeys.size ≤
      s.dr.skippedMessageKeys.size + 1 :=
  s.dr.skippedMessageKeys.size_insert_le _ _ _

/-- The loop over the old chain moves it by `n` positions; a failing pass has restored the
snapshot. -/
theorem skipMessageKeys_spec (C : Crypto) (snap : DecryptSnapshot) (now : Nat) (old : Bytes)
    (n : Nat) (s : Session) :
    Ensures (skipMessageKeys C snap now old n) s
      (fun _ t => ∃ chain skipped,
        Moves C now old s (s.dr.receivingChainLength.toNat + n) chain skipped ∧
        t = s.withReceiving chain (s.dr.receivingChainLength.toNat + n) skipped ∧
        s.dr.receivingChainLength.toNat + n < 2 ^ 32)
      (fun e t => t = restoreSnapshot snap s ∧
        LoopRefusal (s.dr.skippedMessageKeys.size + n) e) := by
  induction n generalizing s with
  | zero =>
    refine ⟨_, _, .refl _ _ _, ?_, s.dr.receivingChainLength.toNat_lt⟩
    unfold withReceiving
    rw [Nat.add_zero, UInt32.ofNat_toNat]
  | succ n ih =>
    simp only [skipMessageKeys, failRestoring, ensures_bind, ensures_get, ensures_ite,
      ensures_inspectErr, ensures_ofExcept, ensures_set, ensures_modify, ensures_throw]
    refine ⟨fun hfull => ⟨trivial, .full (by omega)⟩,
      fun _ => ⟨fun keys hck => ?_, fun e _ => ⟨trivial, .kdf e⟩⟩⟩
    cases hlen : s.dr.receivingChainLength.checkedSucc with
    | none =>
      simp only [ensures_bind, ensures_modify, ensures_throw]
      exact ⟨rfl, .length⟩
    | some length =>
      simp only [ensures_bind, ensures_modify]
      have hpos : length.toNat + n = s.dr.receivingChainLength.toNat + (n + 1) := by
        have := UInt32.toNat_of_checkedSucc hlen
        omega
      have hsize := s.size_passed old now keys length
      refine (ih (s.passed old now keys length)).mono ?_ ?_
      · rintro - _ ⟨chain, skipped, hmoves, rfl, hbound⟩
        have hrest := (moves_passed keys hlen).mp hmoves
        rw [← hpos]
        exact ⟨chain, skipped, .skip (ckStep_of_ok hck) hrest, rfl, hbound⟩
      · rintro e _ ⟨rfl, hrefusal⟩
        exact ⟨rfl, hrefusal.mono (by omega)⟩

/-- The loop up to the message's key. -/
theorem deriveMessageKey_spec (C : Crypto) (snap : DecryptSnapshot) (now : Nat) (dh : Bytes)
    (n : Nat) (s : Session) :
    Ensures (deriveMessageKey C snap now dh n) s
      (fun key t => ∃ chain next skipped,
        Moves C now dh s (s.dr.receivingChainLength.toNat + n) chain skipped ∧
        C.kdfCk chain = .ok (key, next) ∧
        t = s.withReceiving next (s.dr.receivingChainLength.toNat + n + 1) skipped ∧
        s.dr.receivingChainLength.toNat + n + 1 < 2 ^ 32)
      (fun e t => t = restoreSnapshot snap s ∧
        LoopRefusal (s.dr.skippedMessageKeys.size + n) e) := by
  induction n generalizing s with
  | zero =>
    simp only [deriveMessageKey, ensures_bind, ensures_get, ensures_inspectErr, ensures_ofExcept,
      ensures_set]
    refine ⟨fun keys hck => ?_, fun e _ => ⟨trivial, .kdf e⟩⟩
    cases hlen : s.dr.receivingChainLength.checkedSucc with
    | none =>
      simp only [failRestoring, ensures_bind, ensures_modify, ensures_throw]
      exact ⟨rfl, .length⟩
    | some length =>
      simp only [ensures_bind, ensures_modify, ensures_pure]
      have hnext := UInt32.toNat_of_checkedSucc hlen
      refine ⟨_, _, _, .refl _ _ _, hck, ?_, ?_⟩
      · rw [ofNat_checkedSucc hlen]
        rfl
      · have := length.toNat_lt
        omega
  | succ n ih =>
    simp only [deriveMessageKey, ensures_bind, ensures_get, ensures_inspectErr, ensures_ofExcept,
      ensures_set]
    refine ⟨fun keys hck => ?_, fun e _ => ⟨trivial, .kdf e⟩⟩
    cases hlen : s.dr.receivingChainLength.checkedSucc with
    | none =>
      simp only [failRestoring, ensures_bind, ensures_modify, ensures_throw]
      exact ⟨rfl, .length⟩
    | some length =>
      simp only [failRestoring, ensures_bind, ensures_modify, ensures_get, ensures_ite,
        ensures_throw]
      have hpos : length.toNat + n = s.dr.receivingChainLength.toNat + (n + 1) := by
        have := UInt32.toNat_of_checkedSucc hlen
        omega
      have hsize := s.size_passed dh now keys length
      refine ⟨fun hfull => ⟨rfl, .full ?_⟩, fun _ => (ih (s.passed dh now keys length)).mono ?_ ?_⟩
      · have hfull' : _ ≤ (s.passed dh now keys length).dr.skippedMessageKeys.size := hfull
        omega
      · rintro key _ ⟨chain, next, skipped, hmoves, hkey, rfl, hbound⟩
        have hrest := (moves_passed keys hlen).mp hmoves
        rw [← hpos]
        exact ⟨chain, next, skipped, .skip (ckStep_of_ok hck) hrest, hkey, rfl, hbound⟩
      · rintro e _ ⟨rfl, hrefusal⟩
        exact ⟨rfl, hrefusal.mono (by omega)⟩

/-! ## The DH step -/

/-- The values one DH step computes: the receiving half, the mix of an awaited identity
answer, the fresh key pair and the sending half. -/
structure DhTurn where
  dhPrivate : Bytes
  dhReceive : Bytes
  receiveRoot : Bytes
  receiveChain : Bytes
  mixedRoot : Bytes
  mixedChain : Bytes
  proof : IdentityProof
  newPrivate : Bytes
  newPublic : Bytes
  dhSend : Bytes
  sendRoot : Bytes
  sendChain : Bytes

def awaitedMix (C : Crypto) (proof : IdentityProof) (secret : Option Bytes)
    (root chain : Bytes) : Except RatchetError (Bytes × Bytes × IdentityProof) :=
  if proof = .awaitingAnswer then
    match secret with
    | none => .error .identityAnswerMissing
    | some secret =>
      (mixIdentitySecret C root chain secret).map fun keys => (keys.1, keys.2, .none)
  else .ok (root, chain, proof)

/-- The values are those the step computes from `s`. -/
structure DhTurn.Valid (C : Crypto) (env : Env) (remote : Bytes) (secret : Option Bytes)
    (s : Session) (d : DhTurn) : Prop where
  dhPrivate : s.dr.dhRatchetPrivate = some d.dhPrivate
  dhReceive : C.kemDecapsulate d.dhPrivate remote = .ok d.dhReceive
  receive : C.kdfRk s.dr.rootKey d.dhReceive = .ok (d.receiveRoot, d.receiveChain)
  mix : awaitedMix C s.identityProof secret d.receiveRoot d.receiveChain =
    .ok (d.mixedRoot, d.mixedChain, d.proof)
  fresh : C.generateKemKeys env.dhSeed = .ok (d.newPrivate, d.newPublic)
  dhSend : C.kemDecapsulate d.newPrivate remote = .ok d.dhSend
  send : C.kdfRk d.mixedRoot d.dhSend = .ok (d.sendRoot, d.sendChain)

def DhTurn.apply (C : Crypto) (env : Env) (remote : Bytes) (d : DhTurn) (s : Session) :
    Session :=
  { s with
    dr := { s.dr with
      rootKey := d.sendRoot
      sendingChainKey := d.sendChain
      sendingChainLength := 0
      receivingChainKey := d.mixedChain
      receivingChainLength := 0
      dhRatchetPrivate := some d.newPrivate
      dhRatchetPublic := d.newPublic
      remoteDhPublic := some remote
      previousSendingLength := s.dr.sendingChainLength }
    pq := s.pq.maybeAdvancePqRatchet C s.suiteId env
    lastRatchetAt := env.now
    identityProof := d.proof }

theorem mixAwaitedAnswer_eq_ok :
    performDhRatchet.mixAwaitedAnswer C secret s = .ok u t ↔
      ∃ root chain proof, awaitedMix C s.identityProof secret s.dr.rootKey
        s.dr.receivingChainKey = .ok (root, chain, proof) ∧
        t = { s with
          dr := { s.dr with rootKey := root, receivingChainKey := chain }
          identityProof := proof } := by
  unfold performDhRatchet.mixAwaitedAnswer awaitedMix
  rw [get_bind_eq_ok]
  by_cases hawait : s.identityProof = .awaitingAnswer
  · rw [if_pos hawait, if_pos hawait]
    cases secret with
    | none => simp
    | some secret =>
      simp only [bind_eq_ok, ofExcept_eq_ok, set_eq_ok]
      cases mixIdentitySecret C s.dr.rootKey s.dr.receivingChainKey secret with
      | error e => simp [Except.map]
      | ok keys =>
        simp only [Except.ok.injEq, Except.map, Prod.mk.injEq]
        constructor
        · rintro ⟨_, _, ⟨rfl, rfl⟩, rfl⟩
          exact ⟨_, _, _, ⟨rfl, rfl, rfl⟩, rfl⟩
        · rintro ⟨_, _, _, ⟨rfl, rfl, rfl⟩, rfl⟩
          exact ⟨_, _, ⟨rfl, rfl⟩, rfl⟩
  · rw [if_neg hawait, if_neg hawait, pure_eq_ok]
    simp only [true_and, Except.ok.injEq, Prod.mk.injEq]
    constructor
    · rintro rfl
      exact ⟨_, _, _, ⟨rfl, rfl, rfl⟩, rfl⟩
    · rintro ⟨_, _, _, ⟨rfl, rfl, rfl⟩, rfl⟩
      rfl

/-- The DH step returns exactly when every primitive it calls does, with the state its
values make. -/
theorem performDhRatchet_eq_ok {remote : Bytes} :
    performDhRatchet C env remote secret s = .ok u t ↔
      ∃ d : DhTurn, d.Valid C env remote secret s ∧ t = d.apply C env remote s := by
  unfold performDhRatchet
  rw [modify_bind_eq_ok, get_bind_eq_ok]
  constructor
  · intro h
    cases hpriv : s.dr.dhRatchetPrivate with
    | none =>
      rw [hpriv] at h
      exact absurd h throw_ne_ok
    | some dhPrivate =>
      rw [hpriv] at h
      obtain ⟨dhReceive, _, hrun, h⟩ := bind_eq_ok.mp h
      obtain ⟨hdh, rfl⟩ := ofExcept_eq_ok.mp hrun
      obtain ⟨receive, _, hrun, h⟩ := bind_eq_ok.mp h
      obtain ⟨hrk, rfl⟩ := ofExcept_eq_ok.mp hrun
      rw [modify_bind_eq_ok] at h
      obtain ⟨_, _, hrun, h⟩ := bind_eq_ok.mp h
      obtain ⟨root, chain, proof, hmix, rfl⟩ := mixAwaitedAnswer_eq_ok.mp hrun
      obtain ⟨pair, _, hrun, h⟩ := bind_eq_ok.mp h
      obtain ⟨hgen, rfl⟩ := ofExcept_eq_ok.mp hrun
      obtain ⟨dhSend, _, hrun, h⟩ := bind_eq_ok.mp h
      obtain ⟨hdh2, rfl⟩ := ofExcept_eq_ok.mp hrun
      rw [get_bind_eq_ok] at h
      obtain ⟨send, _, hrun, h⟩ := bind_eq_ok.mp h
      obtain ⟨hrk2, rfl⟩ := ofExcept_eq_ok.mp hrun
      rw [modify_bind_eq_ok, modify_eq_ok] at h
      subst h
      exact ⟨⟨dhPrivate, dhReceive, receive.1, receive.2, root, chain, proof, pair.1, pair.2,
        dhSend, send.1, send.2⟩, ⟨hpriv, hdh, hrk, hmix, hgen, hdh2, hrk2⟩, rfl⟩
  · rintro ⟨d, hd, rfl⟩
    rw [hd.dhPrivate]
    refine bind_eq_ok.mpr ⟨_, _, ofExcept_eq_ok.mpr ⟨hd.dhReceive, rfl⟩, ?_⟩
    refine bind_eq_ok.mpr ⟨_, _, ofExcept_eq_ok.mpr ⟨hd.receive, rfl⟩, ?_⟩
    rw [modify_bind_eq_ok]
    refine bind_eq_ok.mpr ⟨⟨⟩, _, mixAwaitedAnswer_eq_ok.mpr ⟨_, _, _, hd.mix, rfl⟩, ?_⟩
    refine bind_eq_ok.mpr ⟨_, _, ofExcept_eq_ok.mpr ⟨hd.fresh, rfl⟩, ?_⟩
    refine bind_eq_ok.mpr ⟨_, _, ofExcept_eq_ok.mpr ⟨hd.dhSend, rfl⟩, ?_⟩
    rw [get_bind_eq_ok]
    refine bind_eq_ok.mpr ⟨_, _, ofExcept_eq_ok.mpr ⟨hd.send, rfl⟩, ?_⟩
    rw [modify_bind_eq_ok, modify_eq_ok]
    rfl

/-! ## Decrypt -/

/-- The key of `m` is taken off the receiving chain, the keys before it filed. -/
def Derives (C : Crypto) (now : Nat) (m : EncryptedRatchetMessage) (s : Session) (key : Bytes)
    (t : Session) : Prop :=
  s.dr.receivingChainLength ≤ m.messageNumber ∧ m.messageNumber.toNat + 1 < 2 ^ 32 ∧
  ∃ chain next skipped,
    Moves C now m.dhPublicKey.toList s m.messageNumber.toNat chain skipped ∧
    C.kdfCk chain = .ok (key, next) ∧
    t = s.withReceiving next (m.messageNumber.toNat + 1) skipped

/-- The rest of the old receiving chain is filed, up to the peer's previous length. -/
def SavesOld (C : Crypto) (now : Nat) (m : EncryptedRatchetMessage) (s t : Session) : Prop :=
  (s.dr.remoteDhPublic = none ∧ t = s) ∨
  ∃ old chain skipped, s.dr.remoteDhPublic = some old ∧
    Moves C now old s
      (max s.dr.receivingChainLength.toNat m.previousChainLength.toNat) chain skipped ∧
    t = s.withReceiving chain
      (max s.dr.receivingChainLength.toNat m.previousChainLength.toNat) skipped

/-- The classical half of a returning `decrypt`: the key it finds for `m`, whether it
stepped the ratchet, and the state it leaves. -/
inductive ClassicalKey (C : Crypto) (env : Env) (m : EncryptedRatchetMessage)
    (secret : Option Bytes) (s : Session) : Bytes → Bool → Session → Prop
  | skipped {key : Bytes}
      (hkey : s.dr.skippedMessageKeys.get? (m.dhPublicKey.toList, m.messageNumber) = some key) :
      ClassicalKey C env m secret s key false
        { s with dr := { s.dr with
          skippedMessageKeys :=
            s.dr.skippedMessageKeys.remove (m.dhPublicKey.toList, m.messageNumber) } }
  | live {key : Bytes} {t : Session}
      (hnone : s.dr.skippedMessageKeys.get? (m.dhPublicKey.toList, m.messageNumber) = none)
      (hsame : s.needsRatchet m = false) (hjump : s.checkJumps m = .ok ())
      (hkey : Derives C env.now m s key t) : ClassicalKey C env m secret s key false t
  | ratchet {key : Bytes} {s₁ t : Session} {d : DhTurn}
      (hnone : s.dr.skippedMessageKeys.get? (m.dhPublicKey.toList, m.messageNumber) = none)
      (hnew : s.needsRatchet m = true) (hjump : s.checkJumps m = .ok ())
      (hsave : SavesOld C env.now m s s₁)
      (hturn : d.Valid C env m.dhPublicKey.toList secret s₁)
      (hkey : Derives C env.now m (d.apply C env m.dhPublicKey.toList s₁) key t) :
      ClassicalKey C env m secret s key true t

/-- The PQ position `decrypt` reads off a message. -/
def pqPosition (s : Session) (m : EncryptedRatchetMessage) : UInt32 × UInt32 :=
  if s.suiteId.isPqRatchet then (m.pqMessageEpoch, m.pqKeyIndex) else (0, 0)

/-- The classical key, mixed with the PQ key of the message's position, opens `m`. -/
def Opens (C : Crypto) (env : Env) (m : EncryptedRatchetMessage) (t : Session) (key : Bytes)
    (pq : PqRatchet) (plaintext : Bytes) : Prop :=
  ∃ pqKey messageKey,
    PqRatchet.pqReceiveKey C t.suiteId env.now (t.pqPosition m).1 (t.pqPosition m).2 t.pq =
      .ok pqKey pq ∧
    mixPqMessageKey C key pqKey = .ok messageKey ∧
    tryAeadDecrypt C { t with pq := pq } messageKey m = .ok plaintext

def finish (C : Crypto) (env : Env) (m : EncryptedRatchetMessage) (stepped : Bool)
    (pq : PqRatchet) (t : Session) : Session :=
  let opened : Session :=
    { t with pq := pq, peerAdVersion := max t.peerAdVersion m.adVersion }
  let committed := opened.commitPqPostDecrypt C env m
  if stepped then committed.completeIdentityProof else committed

theorem decryptWithKey_eq_ok {u : Session} :
    decryptWithKey C env key m t = .ok plaintext u ↔
      ∃ pq, Opens C env m t key pq plaintext ∧
        u = { t with pq := pq, peerAdVersion := max t.peerAdVersion m.adVersion } := by
  unfold decryptWithKey onPq
  rw [get_bind_eq_ok]
  constructor
  · intro h
    obtain ⟨pqKey, _, hrun, h⟩ := bind_eq_ok.mp h
    obtain ⟨pq, hpq, rfl⟩ := zoom_eq_ok.mp hrun
    obtain ⟨messageKey, _, hrun, h⟩ := bind_eq_ok.mp h
    obtain ⟨hmix, rfl⟩ := ofExcept_eq_ok.mp hrun
    rw [get_bind_eq_ok] at h
    obtain ⟨pt, _, hrun, h⟩ := bind_eq_ok.mp h
    obtain ⟨hopen, rfl⟩ := ofExcept_eq_ok.mp hrun
    rw [modify_bind_eq_ok, pure_eq_ok] at h
    obtain ⟨rfl, rfl⟩ := h
    exact ⟨pq, ⟨pqKey, messageKey, hpq, hmix, hopen⟩, rfl⟩
  · rintro ⟨pq, ⟨pqKey, messageKey, hpq, hmix, hopen⟩, rfl⟩
    refine bind_eq_ok.mpr ⟨pqKey, _, zoom_eq_ok.mpr ⟨pq, hpq, rfl⟩, ?_⟩
    refine bind_eq_ok.mpr ⟨messageKey, _, ofExcept_eq_ok.mpr ⟨hmix, rfl⟩, ?_⟩
    rw [get_bind_eq_ok]
    refine bind_eq_ok.mpr ⟨plaintext, _, ofExcept_eq_ok.mpr ⟨hopen, rfl⟩, ?_⟩
    rw [modify_bind_eq_ok, pure_eq_ok]
    exact ⟨rfl, rfl⟩

theorem derives_of_ok (hle : ¬ m.messageNumber < s.dr.receivingChainLength)
    (h : deriveMessageKey C snap now m.dhPublicKey.toList
      (m.messageNumber.toNat - s.dr.receivingChainLength.toNat) s = .ok key t) :
    Derives C now m s key t := by
  have hnat : s.dr.receivingChainLength.toNat ≤ m.messageNumber.toNat :=
    UInt32.le_iff_toNat_le.mp (UInt32.not_lt.mp hle)
  obtain ⟨chain, next, skipped, hmoves, hkey, rfl, hbound⟩ :=
    (deriveMessageKey_spec C snap now _ _ s).of_ok h
  rw [Nat.add_sub_cancel' hnat] at hmoves hbound ⊢
  exact ⟨UInt32.not_lt.mp hle, hbound, chain, next, skipped, hmoves, hkey, rfl⟩

theorem decryptLive_ok {stepped : Bool} {u : Session}
    (h : decryptLive C env snap m stepped s = .ok plaintext u) :
    ∃ key t pq, Derives C env.now m s key t ∧ Opens C env m t key pq plaintext ∧
      u = t.finish C env m stepped pq := by
  unfold decryptLive at h
  rw [get_bind_eq_ok, ite_eq_ok] at h
  rcases h with ⟨-, h⟩ | ⟨hle, h⟩
  · rw [modify_bind_eq_ok, get_bind_eq_ok] at h
    exact absurd h throw_ne_ok
  · obtain ⟨key, t, hkey, h⟩ := bind_eq_ok.mp h
    obtain ⟨pt, _, hrun, h⟩ := bind_eq_ok.mp h
    obtain ⟨pq, hopen, rfl⟩ := decryptWithKey_eq_ok.mp (inspectErr_eq_ok.mp hrun)
    rw [modify_bind_eq_ok] at h
    refine ⟨key, t, pq, derives_of_ok hle hkey, ?_⟩
    unfold finish
    cases stepped with
    | true =>
      rw [if_pos rfl, modify_bind_eq_ok, pure_eq_ok] at h
      obtain ⟨rfl, rfl⟩ := h
      exact ⟨hopen, rfl⟩
    | false =>
      rw [if_neg (by decide)] at h
      obtain ⟨rfl, rfl⟩ := pure_eq_ok.mp h
      exact ⟨hopen, rfl⟩

theorem stepRatchet_ok (h : stepRatchet C env snap m secret s = .ok u t) :
    ∃ s₁ d, SavesOld C env.now m s s₁ ∧
      DhTurn.Valid C env m.dhPublicKey.toList secret s₁ d ∧
      t = d.apply C env m.dhPublicKey.toList s₁ := by
  unfold stepRatchet at h
  rw [get_bind_eq_ok] at h
  cases hremote : s.dr.remoteDhPublic with
  | none =>
    rw [hremote] at h
    obtain ⟨d, hd, rfl⟩ := performDhRatchet_eq_ok.mp (inspectErr_eq_ok.mp h)
    exact ⟨s, d, .inl ⟨hremote, rfl⟩, hd, rfl⟩
  | some old =>
    rw [hremote] at h
    obtain ⟨_, s₁, hskip, h⟩ := bind_eq_ok.mp h
    obtain ⟨chain, skipped, hmoves, hs₁, hbound⟩ :=
      (skipMessageKeys_spec C snap env.now old _ s).of_ok hskip
    obtain ⟨d, hd, rfl⟩ := performDhRatchet_eq_ok.mp (inspectErr_eq_ok.mp h)
    have hpos : s.dr.receivingChainLength.toNat +
        (m.previousChainLength.toNat - s.dr.receivingChainLength.toNat) =
        max s.dr.receivingChainLength.toNat m.previousChainLength.toNat := by omega
    rw [hpos] at hmoves hs₁
    exact ⟨s₁, d, .inr ⟨old, chain, skipped, hremote, hmoves, hs₁⟩, hd, rfl⟩

/-- **A returning `decrypt_message`.** It finds a classical key, mixes the PQ key of the
message's position into it, opens the message and commits. -/
theorem decryptMessage_ok {u : Session} (h : decryptMessage C env m secret s = .ok plaintext u) :
    ∃ key stepped t pq,
      ClassicalKey C env m secret (s.cleanupIfDue env.now) key stepped t ∧
      Opens C env m t key pq plaintext ∧ u = t.finish C env m stepped pq := by
  unfold decryptMessage at h
  rw [modify_bind_eq_ok, get_bind_eq_ok] at h
  generalize s.cleanupIfDue env.now = s at h ⊢
  cases hget : s.dr.skippedMessageKeys.get? (m.dhPublicKey.toList, m.messageNumber) with
  | some key =>
    rw [hget] at h
    unfold decryptSkipped at h
    rw [modify_bind_eq_ok] at h
    obtain ⟨pt, _, hrun, h⟩ := bind_eq_ok.mp h
    obtain ⟨pq, hopen, rfl⟩ := decryptWithKey_eq_ok.mp (inspectErr_eq_ok.mp hrun)
    rw [modify_bind_eq_ok, pure_eq_ok] at h
    obtain ⟨rfl, rfl⟩ := h
    exact ⟨key, false, _, pq, .skipped hget, hopen, rfl⟩
  | none =>
    rw [hget] at h
    obtain ⟨_, _, hrun, h⟩ := bind_eq_ok.mp h
    obtain ⟨hjump, rfl⟩ := ofExcept_eq_ok.mp hrun
    cases hnew : s.needsRatchet m with
    | false =>
      rw [hnew, if_neg (by decide)] at h
      obtain ⟨key, t, pq, hkey, hopen, rfl⟩ := decryptLive_ok h
      exact ⟨key, false, t, pq, .live hget hnew hjump hkey, hopen, rfl⟩
    | true =>
      rw [hnew, if_pos rfl] at h
      obtain ⟨_, _, hrun, h⟩ := bind_eq_ok.mp h
      obtain ⟨s₁, d, hsave, hd, rfl⟩ := stepRatchet_ok hrun
      obtain ⟨key, t, pq, hkey, hopen, rfl⟩ := decryptLive_ok h
      exact ⟨key, true, t, pq, .ratchet hget hnew hjump hsave hd hkey, hopen, rfl⟩

/-! ## Encrypt -/

/-- What a sealed message says, and that it is sealed under the key of its position. -/
structure SealedAs (C : Crypto) (s : Session) (pos : SendPosition) (padded : Bytes)
    (m : EncryptedRatchetMessage) : Prop where
  dhPublicKey : m.dhPublicKey.toList = s.dr.dhRatchetPublic
  messageNumber : m.messageNumber = pos.messageNumber
  previousChainLength : m.previousChainLength = s.dr.previousSendingLength
  suiteId : m.suiteId = s.suiteId.asU16
  pqMessageEpoch : m.pqMessageEpoch = pos.pqMessageEpoch
  pqKeyIndex : m.pqKeyIndex = pos.pqKeyIndex
  pqRatchetField : m.pqRatchetField = s.pq.takeOutgoingPqField s.suiteId
  identityProofCiphertext : m.identityProofCiphertext = s.outgoingIdentityProof
  adVersion : m.adVersion = s.adSendVersion
  ciphertext : ∃ sid, hexDecode s.sessionId = some sid ∧
    C.aeadEncrypt pos.messageKey m.nonce padded
      (some (associatedData m.adVersion s.localUserId s.contactId sid s.suiteId.isPqRatchet
        (AdHeader.ofMessage m))) = .ok m.ciphertext

/-- What opened under version 3 came from a peer not yet heard at version 4. -/
theorem checkAdVersion_ok (h : s.checkAdVersion m = .ok u) :
    m.adVersion = adVersionHeader ∨
      (m.adVersion = adVersionLegacy ∧ s.peerAdVersion < adVersionHeader) := by
  unfold checkAdVersion at h
  split at h
  · exact .inl ‹_›
  · split at h
    · split at h
      · exact .inr ⟨‹_›, ‹_›⟩
      · cases h
    · cases h

theorem lift_eq_ok {α : Type} {f : CryptoError → RatchetError} {x : Except CryptoError α} {a : α}
    (h : lift f x = .ok a) : x = .ok a := by
  unfold lift at h
  cases x with
  | ok b => exact congrArg _ (Except.ok.inj h)
  | error e => cases h

/-- A message that opens passed the version check, and the AEAD opened it under the data
its header makes. -/
theorem tryAeadDecrypt_ok (h : tryAeadDecrypt C s key m = .ok plaintext) :
    s.checkAdVersion m = .ok () ∧ ∃ sid padded, hexDecode s.sessionId = some sid ∧
      C.aeadDecrypt key m.nonce m.ciphertext
        (some (associatedData m.adVersion s.contactId s.localUserId sid s.suiteId.isPqRatchet
          (AdHeader.ofMessage m))) = .ok padded ∧
      unpadMessage padded = .ok plaintext := by
  unfold tryAeadDecrypt at h
  obtain ⟨_, hversion, h⟩ := Except.exists_of_bind_ok h
  obtain ⟨sid, hsid, h⟩ := Except.exists_of_bind_ok h
  obtain ⟨padded, hopen, h⟩ := Except.exists_of_bind_ok h
  refine ⟨hversion, sid, padded, Option.okOr_eq_ok.mp hsid, lift_eq_ok hopen, ?_⟩
  cases hp : unpadMessage padded with
  | ok out =>
    rw [hp] at h
    exact congrArg _ (Except.ok.inj h)
  | error e =>
    rw [hp] at h
    cases h

theorem sealMessage_ok {padded : Bytes} (h : sealMessage C s env pos padded = .ok m) :
    SealedAs C s pos padded m := by
  unfold sealMessage at h
  obtain ⟨nonce, -, h⟩ := Except.exists_of_bind_ok h
  obtain ⟨dh, hdh, h⟩ := Except.exists_of_bind_ok h
  obtain ⟨sid, hsid, h⟩ := Except.exists_of_bind_ok h
  obtain ⟨ct, hct, h⟩ := Except.exists_of_bind_ok h
  cases h
  have hkey := toVector?_eq_some.mp (Option.okOr_eq_ok.mp hdh)
  exact ⟨hkey.symm, rfl, rfl, rfl, rfl, rfl, rfl, rfl, rfl, sid, Option.okOr_eq_ok.mp hsid,
    lift_eq_ok hct⟩

/-- The PQ half as `encrypt` finds it after the check of the epoch's age. -/
def startedPq (C : Crypto) (s : Session) (env : Env) : PqRatchet :=
  s.pq.maybeStartPqExchangeByAge C s.suiteId env

def advanceSending (dr : Ratchet) (chain : Bytes) (number : UInt32) : Ratchet :=
  { dr with sendingChainKey := chain, sendingChainLength := number }

/-- What one pass of `encrypt` over the chains computes. -/
structure SendStep (C : Crypto) (env : Env) (s : Session) (pos : SendPosition) (t : Session) :
    Prop where
  pq : ∃ pqKey, PqRatchet.pqSendKey C s.suiteId (s.startedPq C env) =
    .ok (pos.pqMessageEpoch, pos.pqKeyIndex, pqKey) t.pq ∧
    ∃ drKey next, C.kdfCk s.dr.sendingChainKey = .ok (drKey, next) ∧
      mixPqMessageKey C drKey pqKey = .ok pos.messageKey ∧
      t.dr = advanceSending s.dr next (UInt32.ofNat (s.dr.sendingChainLength.toNat + 1))
  number : pos.messageNumber = s.dr.sendingChainLength
  bound : s.dr.sendingChainLength.toNat + 1 < 2 ^ 32
  rest : t = { s with dr := t.dr, pq := t.pq }

/-- Where a failing `encrypt` can leave the two halves: moved on by whatever succeeded. -/
structure SendLeft (C : Crypto) (env : Env) (s t : Session) : Prop where
  pq : t.pq = s.pq ∨ t.pq = s.startedPq C env ∨
    ∃ out, PqRatchet.pqSendKey C s.suiteId (s.startedPq C env) = .ok out t.pq
  dr : t.dr = s.dr ∨ ∃ drKey next, C.kdfCk s.dr.sendingChainKey = .ok (drKey, next) ∧
    s.dr.sendingChainLength.toNat + 1 < 2 ^ 32 ∧
    t.dr = advanceSending s.dr next (UInt32.ofNat (s.dr.sendingChainLength.toNat + 1))
  rest : t = { s with dr := t.dr, pq := t.pq }

theorem SendStep.left (h : SendStep C env s pos t) : SendLeft C env s t := by
  obtain ⟨pqKey, hpq, drKey, next, hck, -, hdr⟩ := h.pq
  exact ⟨.inr (.inr ⟨_, hpq⟩), .inr ⟨drKey, next, hck, h.bound, hdr⟩, h.rest⟩

theorem pqSendKey_error (suite : SuiteID) (pq : PqRatchet) :
    Ensures (PqRatchet.pqSendKey C suite) pq (fun _ _ => True) (fun _ pq' => pq' = pq) := by
  simp only [PqRatchet.pqSendKey, ensures_bind, ensures_get, ensures_ite, ensures_pure]
  refine ⟨fun _ => trivial, fun _ => ?_⟩
  cases (pq.pqChains.find? fun c => c.epoch == pq.currentPqEpoch).bind fun c => c.send with
  | none =>
    simp only [ensures_throw]
  | some chain =>
    simp only [ensures_bind, ensures_ofExcept, ensures_set, ensures_pure]
    exact ⟨fun _ _ => trivial, fun _ _ => trivial⟩

theorem nextSendPosition_spec (env : Env) (s : Session) :
    Ensures (nextSendPosition C) { s with pq := s.startedPq C env }
      (fun pos t => SendStep C env s pos t) (fun _ t => SendLeft C env s t) := by
  simp only [nextSendPosition, onPq, ensures_bind, ensures_get, ensures_zoom]
  rw [ensures_iff]
  constructor
  · rintro ⟨epoch, index, pqKey⟩ pq hpq
    have hleft : ∀ e : RatchetError, SendLeft C env s { s with pq := pq } := fun _ =>
      ⟨.inr (.inr ⟨_, hpq⟩), .inl rfl, rfl⟩
    simp only [ensures_ofExcept]
    refine ⟨?_, fun e _ => hleft (.kdfCkSend e)⟩
    rintro ⟨drKey, next⟩ hck
    refine ⟨?_, fun e _ => hleft e⟩
    intro messageKey hmix
    cases hlen : s.dr.sendingChainLength.checkedSucc with
    | none =>
      simp only [ensures_throw]
      exact hleft .sendingChainLengthOverflow
    | some number =>
      simp only [ensures_bind, ensures_modify, ensures_pure]
      have hnum := UInt32.toNat_of_checkedSucc hlen
      have hlt := number.toNat_lt
      refine ⟨⟨pqKey, hpq, drKey, next, hck, hmix, ?_⟩, rfl, by omega, rfl⟩
      rw [← ofNat_checkedSucc hlen]
      rfl
  · intro e pq hpq
    obtain rfl : pq = s.startedPq C env := (pqSendKey_error s.suiteId _).of_error hpq
    exact ⟨.inr (.inl rfl), .inl rfl, rfl⟩

/-- **`encrypt`.** A returned message is sealed under the key of the position the chains
stood at; a failing call leaves each chain where it was or one position on. -/
theorem encrypt_spec (env : Env) (plaintext : Bytes) (s : Session) :
    Ensures (encrypt C env plaintext) s
      (fun m t => ∃ pos padded, padMessageDefault plaintext = .ok padded ∧
        SendStep C env s pos t ∧ SealedAs C t pos padded m)
      (fun _ t => SendLeft C env s t) := by
  simp only [encrypt, ensures_bind, ensures_ofExcept, ensures_modify, ensures_get]
  refine ⟨?_, fun _ _ => ⟨.inl rfl, .inl rfl, rfl⟩⟩
  intro padded hpad
  refine (nextSendPosition_spec env s).mono ?_ fun _ _ h => h
  intro pos t hstep
  refine ⟨fun m hm => ⟨pos, padded, hpad, hstep, sealMessage_ok hm⟩, fun _ _ => hstep.left⟩

theorem answerInitiatorIdentity_spec (secret ciphertext : Bytes) (s : Session) :
    Ensures (answerInitiatorIdentity C secret ciphertext) s
      (fun _ t => ∃ root chain, s.dr.sendingChainLength = 0 ∧ s.identityProof = .none ∧
        mixIdentitySecret C s.dr.rootKey s.dr.sendingChainKey secret = .ok (root, chain) ∧
        t = { s with
          dr := { s.dr with rootKey := root, sendingChainKey := chain }
          identityProof := .answered ciphertext })
      (fun _ t => t = s) := by
  simp only [answerInitiatorIdentity, ensures_bind, ensures_get, ensures_ite, ensures_throw,
    ensures_ofExcept, ensures_set]
  refine ⟨fun _ => trivial, fun hfirst => ⟨fun keys hmix => ?_, fun _ _ => trivial⟩⟩
  rw [not_or, Decidable.not_not, Decidable.not_not] at hfirst
  exact ⟨keys.1, keys.2, hfirst.1, hfirst.2, hmix, rfl⟩

end Session

/-! ## Creation -/

theorem lift_of_ok {α : Type} {f : CryptoError → RatchetError} {x : Except CryptoError α} {a : α}
    (h : x = .ok a) : lift f x = .ok a := by
  rw [h]
  rfl

theorem newInitiatorSession_ok {ephemeralPrivate remoteIdentity : Bytes} {suiteId : SuiteID}
    (h : newInitiatorSession C env rootKey ephemeralPrivate remoteIdentity contactId localUserId
      suiteId = .ok s) :
    ∃ sid rootKeyVal dhPublic dhOutput root chain,
      deriveSharedSessionId C rootKey localUserId contactId = .ok sid ∧
      deriveInitialRootKey C rootKey = .ok rootKeyVal ∧
      C.fromPrivateKeyToPublicKey ephemeralPrivate = .ok dhPublic ∧
      C.kemDecapsulate ephemeralPrivate remoteIdentity = .ok dhOutput ∧
      C.kdfRk rootKeyVal dhOutput = .ok (root, chain) ∧
      s = .initial suiteId
        { rootKey := root, sendingChainKey := chain, sendingChainLength := 0,
          receivingChainKey := defaultAeadKey, receivingChainLength := 0,
          dhRatchetPrivate := some ephemeralPrivate, dhRatchetPublic := dhPublic,
          remoteDhPublic := some remoteIdentity, previousSendingLength := 0,
          skippedMessageKeys := .empty }
        suiteId.isPqRatchet sid contactId localUserId env.now := by
  unfold newInitiatorSession at h
  obtain ⟨sid, hsid, h⟩ := Except.exists_of_bind_ok h
  obtain ⟨rootKeyVal, hroot, h⟩ := Except.exists_of_bind_ok h
  obtain ⟨dhPublic, hpublic, h⟩ := Except.exists_of_bind_ok h
  obtain ⟨dhOutput, hdh, h⟩ := Except.exists_of_bind_ok h
  obtain ⟨⟨root, chain⟩, hrk, h⟩ := Except.exists_of_bind_ok h
  cases h
  exact ⟨sid, rootKeyVal, dhPublic, dhOutput, root, chain, Session.lift_eq_ok hsid,
    Session.lift_eq_ok hroot, Session.lift_eq_ok hpublic, Session.lift_eq_ok hdh,
    Session.lift_eq_ok hrk, rfl⟩

theorem responderSession_ok
    (h : responderSession C env rootKey localIdentity m contactId localUserId = .ok s) :
    ∃ sid rootKeyVal dhOutput root receivingChain dhPrivate dhPublic dhOutput2 finalRoot
        sendingChain suiteId,
      deriveSharedSessionId C rootKey localUserId contactId = .ok sid ∧
      deriveInitialRootKey C rootKey = .ok rootKeyVal ∧
      C.kemDecapsulate localIdentity m.dhPublicKey.toList = .ok dhOutput ∧
      C.kdfRk rootKeyVal dhOutput = .ok (root, receivingChain) ∧
      C.generateKemKeys env.dhSeed = .ok (dhPrivate, dhPublic) ∧
      C.kemDecapsulate dhPrivate m.dhPublicKey.toList = .ok dhOutput2 ∧
      C.kdfRk root dhOutput2 = .ok (finalRoot, sendingChain) ∧
      SuiteID.new m.suiteId = some suiteId ∧
      s = .initial suiteId
        { rootKey := finalRoot, sendingChainKey := sendingChain, sendingChainLength := 0,
          receivingChainKey := receivingChain, receivingChainLength := 0,
          dhRatchetPrivate := some dhPrivate, dhRatchetPublic := dhPublic,
          remoteDhPublic := some m.dhPublicKey.toList, previousSendingLength := 0,
          skippedMessageKeys := .empty }
        false sid contactId localUserId env.now := by
  unfold responderSession at h
  dsimp only at h
  obtain ⟨sid, hsid, h⟩ := Except.exists_of_bind_ok h
  obtain ⟨rootKeyVal, hroot, h⟩ := Except.exists_of_bind_ok h
  obtain ⟨dhOutput, hdh, h⟩ := Except.exists_of_bind_ok h
  obtain ⟨⟨root, receivingChain⟩, hrk, h⟩ := Except.exists_of_bind_ok h
  obtain ⟨⟨dhPrivate, dhPublic⟩, hgen, h⟩ := Except.exists_of_bind_ok h
  obtain ⟨dhOutput2, hdh2, h⟩ := Except.exists_of_bind_ok h
  obtain ⟨⟨finalRoot, sendingChain⟩, hrk2, h⟩ := Except.exists_of_bind_ok h
  obtain ⟨suiteId, hsuite, h⟩ := Except.exists_of_bind_ok h
  cases h
  exact ⟨sid, rootKeyVal, dhOutput, root, receivingChain, dhPrivate, dhPublic, dhOutput2,
    finalRoot, sendingChain, suiteId, Session.lift_eq_ok hsid, Session.lift_eq_ok hroot,
    Session.lift_eq_ok hdh, Session.lift_eq_ok hrk, Session.lift_eq_ok hgen,
    Session.lift_eq_ok hdh2, Session.lift_eq_ok hrk2, Option.okOr_eq_ok.mp hsuite, rfl⟩

theorem newResponderSession_ok
    (h : newResponderSession C env rootKey localIdentity m contactId localUserId =
      .ok (s, plaintext)) :
    ∃ s₁, responderSession C env rootKey localIdentity m contactId localUserId = .ok s₁ ∧
      Session.decryptWithIdentitySecret C env m none s₁ = .ok plaintext s := by
  unfold newResponderSession at h
  obtain ⟨s₁, hs₁, h⟩ := Except.exists_of_bind_ok h
  split at h
  · rename_i pt u hrun
    cases h
    exact ⟨s₁, hs₁, hrun⟩
  · cases h

theorem newResponderSession_of_ok {s₁ : Session}
    (hs₁ : responderSession C env rootKey localIdentity m contactId localUserId = .ok s₁)
    (h : Session.decryptWithIdentitySecret C env m none s₁ = .ok plaintext s) :
    newResponderSession C env rootKey localIdentity m contactId localUserId =
      .ok (s, plaintext) := by
  unfold newResponderSession Session.decrypt
  rw [Except.bind_of_ok hs₁, h]

end ConstructCore
