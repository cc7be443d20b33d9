import ConstructCore.Crypto.Instances
import ConstructCore.Ratchet.Spec

/-!
# A failed decrypt changes nothing

`decrypt` moves about twenty fields through two key-derivation loops, a DH step, the PQ
receive chain and the start of a PQ exchange, and puts a snapshot back on each path that
fails after a change. Two facts make that a rollback:

* between the snapshot and a failure, no operation touches a field the snapshot does not
  hold (`SameUntracked`), the diagnostic `last_ratchet_at` apart;
* every failing exit after the first change restores the snapshot.

So the state after a failure is the state before it, up to the eviction `decrypt` starts
with and `last_ratchet_at`.
-/

namespace ConstructCore

open Bytes Op

/-! ## Fields outside the snapshot -/

/-- The two sessions agree on every field `DecryptSnapshot` does not hold, apart from
`last_ratchet_at`. -/
structure SameUntracked (s t : Session) : Prop where
  suiteId : t.suiteId = s.suiteId
  isPqInitiator : t.pq.isPqInitiator = s.pq.isPqInitiator
  pqEpochSince : t.pq.pqEpochSince = s.pq.pqEpochSince
  prekeyHeader : t.prekeyHeader = s.prekeyHeader
  pqHandshake : t.pqHandshake = s.pqHandshake
  sessionId : t.sessionId = s.sessionId
  contactId : t.contactId = s.contactId
  localUserId : t.localUserId = s.localUserId
  peerAdVersion : t.peerAdVersion = s.peerAdVersion
  pqApplied : t.pqApplied = s.pqApplied

/-- `t` is `s` up to `last_ratchet_at`. -/
def RolledBack (s t : Session) : Prop := t = { s with lastRatchetAt := t.lastRatchetAt }

namespace SameUntracked

variable {s t u : Session}

theorem refl (s : Session) : SameUntracked s s :=
  ⟨rfl, rfl, rfl, rfl, rfl, rfl, rfl, rfl, rfl, rfl⟩

theorem trans (h : SameUntracked s t) (h' : SameUntracked t u) : SameUntracked s u where
  suiteId := h'.suiteId.trans h.suiteId
  isPqInitiator := h'.isPqInitiator.trans h.isPqInitiator
  pqEpochSince := h'.pqEpochSince.trans h.pqEpochSince
  prekeyHeader := h'.prekeyHeader.trans h.prekeyHeader
  pqHandshake := h'.pqHandshake.trans h.pqHandshake
  sessionId := h'.sessionId.trans h.sessionId
  contactId := h'.contactId.trans h.contactId
  localUserId := h'.localUserId.trans h.localUserId
  peerAdVersion := h'.peerAdVersion.trans h.peerAdVersion
  pqApplied := h'.pqApplied.trans h.pqApplied

theorem withDr (h : SameUntracked s t) (dr : Ratchet) : SameUntracked s { t with dr := dr } :=
  ⟨h.suiteId, h.isPqInitiator, h.pqEpochSince, h.prekeyHeader, h.pqHandshake, h.sessionId,
    h.contactId, h.localUserId, h.peerAdVersion, h.pqApplied⟩

/-- So is a change of the PQ half that keeps the role and the age of the epoch. -/
theorem withPq (h : SameUntracked s t) {pq : PqRatchet}
    (hi : pq.isPqInitiator = t.pq.isPqInitiator) (hs : pq.pqEpochSince = t.pq.pqEpochSince) :
    SameUntracked s { t with pq := pq } :=
  ⟨h.suiteId, hi.trans h.isPqInitiator, hs.trans h.pqEpochSince, h.prekeyHeader,
    h.pqHandshake, h.sessionId, h.contactId, h.localUserId, h.peerAdVersion, h.pqApplied⟩

theorem restore (h : SameUntracked s t) :
    RolledBack s (Session.restoreSnapshot s.snapshot t) := by
  obtain ⟨h1, h2, h3, h4, h5, h6, h7, h8, h9, h10⟩ := h
  cases s with
  | mk suiteId dr pq =>
    cases t with
    | mk suiteId' dr' pq' =>
      cases pq
      cases pq'
      simp only at h1 h2 h3 h4 h5 h6 h7 h8 h9 h10
      subst h1 h2 h3 h4 h5 h6 h7 h8 h9 h10
      rfl

end SameUntracked

/-! ## The PQ half -/

namespace PqRatchet

variable {C : Crypto}

def SameRole (pq pq' : PqRatchet) : Prop :=
  pq'.isPqInitiator = pq.isPqInitiator ∧ pq'.pqEpochSince = pq.pqEpochSince

theorem OtherExchange.sameRole {pq pq' : PqRatchet} (h : OtherExchange pq pq') :
    SameRole pq pq' := by
  obtain ⟨_, _, _, rfl⟩ := h
  exact ⟨rfl, rfl⟩

theorem setRecvChain_sameRole (pq : PqRatchet) (epoch : UInt32) (chain : PqChain) :
    SameRole pq (pq.setRecvChain epoch chain) := by
  unfold setRecvChain
  split
  · exact ⟨rfl, rfl⟩
  · exact ⟨rfl, rfl⟩

/-- Whatever its outcome, `pq_receive_key` keeps the role and the age of the epoch. -/
theorem pqReceiveKey_sameRole (suite : SuiteID) (now : Nat) (epoch index : UInt32)
    (pq : PqRatchet) :
    Ensures (pqReceiveKey C suite now epoch index) pq (fun _ pq' => SameRole pq pq')
      (fun _ pq' => SameRole pq pq') := by
  refine pqReceiveKey_rule ⟨rfl, rfl⟩ ⟨rfl, rfl⟩ fun chain n _ => ensures_iff.mpr ⟨?_, ?_⟩
  · exact fun _ t _ => setRecvChain_sameRole pq epoch t.1
  · exact fun _ t _ => setRecvChain_sameRole pq epoch t.1

end PqRatchet

/-! ## The steps of decrypt -/

namespace Session

variable {C : Crypto} {s₀ : Session}

variable {s : Session}

/-- Up to the AEAD, `decrypt_with_key` moves the PQ half alone; what follows cannot fail. -/
theorem decryptWithKey_error (env : Env) (key : Bytes) (m : EncryptedRatchetMessage)
    (h : SameUntracked s₀ s) :
    Ensures (decryptWithKey C env key m) s (fun _ _ => True)
      (fun _ t => SameUntracked s₀ t) := by
  simp only [decryptWithKey, onPq, ensures_bind, ensures_get, ensures_zoom, ensures_ofExcept,
    ensures_modify, ensures_pure]
  refine (PqRatchet.pqReceiveKey_sameRole _ _ _ _ s.pq).mono ?_ ?_
  · intro pqKey pq' hrole
    have hpq : SameUntracked s₀ { s with pq := pq' } := h.withPq hrole.1 hrole.2
    exact ⟨fun _ _ => ⟨fun _ _ => trivial, fun _ _ => hpq⟩, fun _ _ => hpq⟩
  · intro e pq' hrole
    exact h.withPq hrole.1 hrole.2

theorem skipMessageKeys_rollback (now : Nat) (old : Bytes) (n : Nat) (h : SameUntracked s₀ s) :
    Ensures (skipMessageKeys C s₀.snapshot now old n) s (fun _ t => SameUntracked s₀ t)
      (fun _ t => RolledBack s₀ t) := by
  refine (skipMessageKeys_spec C s₀.snapshot now old n s).mono ?_ ?_
  · rintro - _ ⟨chain, skipped, -, rfl, -⟩
    exact h.withDr _
  · rintro e _ ⟨rfl, -⟩
    exact h.restore

theorem deriveMessageKey_rollback (now : Nat) (remote : Bytes) (n : Nat) (h : SameUntracked s₀ s) :
    Ensures (deriveMessageKey C s₀.snapshot now remote n) s (fun _ t => SameUntracked s₀ t)
      (fun _ t => RolledBack s₀ t) := by
  refine (deriveMessageKey_spec C s₀.snapshot now remote n s).mono ?_ ?_
  · rintro key _ ⟨chain, next, skipped, -, -, rfl, -⟩
    exact h.withDr _
  · rintro e _ ⟨rfl, -⟩
    exact h.restore

/-- Mixing the awaited answer touches the keys and the identity proof, both held by the
snapshot. -/
theorem mixAwaitedAnswer_sameUntracked (secret : Option Bytes) (h : SameUntracked s₀ s) :
    Ensures (performDhRatchet.mixAwaitedAnswer C secret) s (fun _ t => SameUntracked s₀ t)
      (fun _ t => SameUntracked s₀ t) := by
  simp only [performDhRatchet.mixAwaitedAnswer, ensures_bind, ensures_get, ensures_ite,
    ensures_pure]
  refine ⟨fun _ => ?_, fun _ => h⟩
  cases secret with
  | none =>
    simp only [ensures_throw]
    exact h
  | some secret =>
    simp only [ensures_bind, ensures_ofExcept, ensures_set]
    exact ⟨fun _ _ => h.trans ⟨rfl, rfl, rfl, rfl, rfl, rfl, rfl, rfl, rfl, rfl⟩,
      fun _ _ => h⟩

theorem performDhRatchet_sameUntracked (env : Env) (remote : Bytes) (secret : Option Bytes)
    (h : SameUntracked s₀ s) :
    Ensures (performDhRatchet C env remote secret) s (fun _ t => SameUntracked s₀ t)
      (fun _ t => SameUntracked s₀ t) := by
  simp only [performDhRatchet, ensures_bind, ensures_modify, ensures_get]
  have hdr : ∀ dr, SameUntracked s₀ { s with dr := dr } := h.withDr
  cases s.dr.dhRatchetPrivate with
  | none =>
    simp only [ensures_throw]
    exact hdr _
  | some dhPrivate =>
    simp only [ensures_bind, ensures_ofExcept, ensures_modify, ensures_get]
    refine ⟨fun _ _ => ⟨fun keys _ => ?_, fun _ _ => hdr _⟩, fun _ _ => hdr _⟩
    refine (mixAwaitedAnswer_sameUntracked secret (hdr _)).mono ?_ fun _ _ he => he
    intro _ t ht
    refine ⟨fun pair _ => ⟨fun _ _ => ⟨fun keys' _ => ?_, fun _ _ => ht⟩, fun _ _ => ht⟩,
      fun _ _ => ht⟩
    have hnew : SameUntracked s₀ { t with
        dr := { t.dr with
          rootKey := keys'.1
          sendingChainKey := keys'.2
          sendingChainLength := 0
          dhRatchetPrivate := some pair.1
          dhRatchetPublic := pair.2
          remoteDhPublic := some remote }
        lastRatchetAt := env.now } :=
      ht.trans ⟨rfl, rfl, rfl, rfl, rfl, rfl, rfl, rfl, rfl, rfl⟩
    have hrole := (PqRatchet.maybeAdvance_otherExchange (C := C) t.suiteId t.pq env).sameRole
    exact hnew.withPq hrole.1 hrole.2

theorem stepRatchet_rollback (env : Env) (m : EncryptedRatchetMessage) (secret : Option Bytes)
    (h : SameUntracked s₀ s) :
    Ensures (stepRatchet C env s₀.snapshot m secret) s (fun _ t => SameUntracked s₀ t)
      (fun _ t => RolledBack s₀ t) := by
  have hstep : ∀ t, SameUntracked s₀ t →
      Ensures (inspectErr (performDhRatchet C env m.dhPublicKey.toList secret)
        (restoreSnapshot s₀.snapshot)) t (fun _ t => SameUntracked s₀ t)
        (fun _ t => RolledBack s₀ t) := by
    intro t ht
    rw [ensures_inspectErr]
    exact (performDhRatchet_sameUntracked env _ secret ht).mono (fun _ _ h => h)
      fun _ _ h => h.restore
  simp only [stepRatchet, ensures_bind, ensures_get]
  cases s.dr.remoteDhPublic with
  | none =>
    exact hstep s h
  | some old =>
    simp only [ensures_bind]
    exact (skipMessageKeys_rollback env.now old _ h).mono (fun _ t ht => hstep t ht)
      fun _ _ h => h

theorem decryptLive_rollback (env : Env) (m : EncryptedRatchetMessage) (stepped : Bool)
    (h : SameUntracked s₀ s) :
    Ensures (decryptLive C env s₀.snapshot m stepped) s (fun _ _ => True)
      (fun _ t => RolledBack s₀ t) := by
  simp only [decryptLive, ensures_bind, ensures_get, ensures_ite, ensures_modify,
    ensures_throw, ensures_inspectErr, ensures_pure]
  refine ⟨fun _ => h.restore, fun _ => ?_⟩
  refine (deriveMessageKey_rollback env.now _ _ h).mono ?_ fun _ _ h => h
  intro key t ht
  refine (decryptWithKey_error env key m ht).mono ?_ fun _ _ h => h.restore
  intro _ _ _
  exact ⟨fun _ => trivial, fun _ => trivial⟩

/-- A failing decrypt leaves the session as its eviction found it, up to
`last_ratchet_at`. -/
theorem decryptMessage_rollback (env : Env) (m : EncryptedRatchetMessage)
    (secret : Option Bytes) (s : Session) :
    Ensures (decryptMessage C env m secret) s (fun _ _ => True)
      (fun _ t => RolledBack (s.cleanupIfDue env.now) t) := by
  simp only [decryptMessage, ensures_bind, ensures_modify, ensures_get]
  generalize s.cleanupIfDue env.now = s₀
  have h : SameUntracked s₀ s₀ := .refl s₀
  cases s₀.dr.skippedMessageKeys.get? (m.dhPublicKey.toList, m.messageNumber) with
  | some key =>
    simp only [decryptSkipped, ensures_bind, ensures_modify, ensures_inspectErr,
      ensures_pure]
    exact (decryptWithKey_error env key m (h.withDr _)).mono (fun _ _ h => h)
      fun _ _ h => h.restore
  | none =>
    simp only [ensures_bind, ensures_ofExcept, ensures_ite]
    refine ⟨fun _ _ => ⟨fun _ => ?_, fun _ => decryptLive_rollback env m _ h⟩,
      fun _ _ => rfl⟩
    exact (stepRatchet_rollback env m secret h).mono
      (fun _ t ht => decryptLive_rollback env m _ ht) fun _ _ h => h

theorem cleanupIfDue_evicts (s : Session) (now : Nat) :
    s.cleanupIfDue now = { s with
        dr := { s.dr with
          skippedMessageKeys := (s.cleanupIfDue now).dr.skippedMessageKeys }
        pq := { s.pq with pqSkippedKeys := (s.cleanupIfDue now).pq.pqSkippedKeys } } ∧
      AgedStore.EvictedByAge now Config.global.maxSkippedMessageAgeSeconds
        s.dr.skippedMessageKeys (s.cleanupIfDue now).dr.skippedMessageKeys ∧
      AgedStore.EvictedByAge now Config.global.maxSkippedMessageAgeSeconds
        s.pq.pqSkippedKeys (s.cleanupIfDue now).pq.pqSkippedKeys := by
  unfold cleanupIfDue
  split
  · exact ⟨rfl, AgedStore.evictedByAge_evict _ _ _, AgedStore.evictedByAge_evict _ _ _⟩
  · exact ⟨rfl, .refl _ _ _, .refl _ _ _⟩

theorem decrypt_error_rolledBack {env : Env} {m : EncryptedRatchetMessage} {secret : Option Bytes}
    {t : Session} {e : RatchetError} (h : decryptWithIdentitySecret C env m secret s = .error e t) :
    RolledBack (s.cleanupIfDue env.now) t := by
  have hens : Ensures (decryptWithIdentitySecret C env m secret) s (fun _ _ => True)
      (fun _ t => RolledBack (s.cleanupIfDue env.now) t) := by
    simp only [decryptWithIdentitySecret, ensures_bind, ensures_modify, ensures_pure]
    exact decryptMessage_rollback env m secret s
  exact hens.of_error h

/-- **Rollback.** When `decrypt_with_identity_secret` fails, every field of the session is
as it was, except that skipped keys past their maximum age may be gone, and the diagnostic
`last_ratchet_at`. -/
theorem decrypt_error_keeps_session (C : Crypto) (env : Env) (m : EncryptedRatchetMessage)
    (secret : Option Bytes) (s s' : Session) (e : RatchetError)
    (h : decryptWithIdentitySecret C env m secret s = .error e s') :
    s' = { s with
        dr := { s.dr with skippedMessageKeys := s'.dr.skippedMessageKeys }
        pq := { s.pq with pqSkippedKeys := s'.pq.pqSkippedKeys }
        lastRatchetAt := s'.lastRatchetAt } ∧
      AgedStore.EvictedByAge env.now Config.global.maxSkippedMessageAgeSeconds
        s.dr.skippedMessageKeys s'.dr.skippedMessageKeys ∧
      AgedStore.EvictedByAge env.now Config.global.maxSkippedMessageAgeSeconds
        s.pq.pqSkippedKeys s'.pq.pqSkippedKeys := by
  have hroll := decrypt_error_rolledBack h
  obtain ⟨hfields, hdr, hpq⟩ := cleanupIfDue_evicts s env.now
  unfold RolledBack at hroll
  generalize s'.lastRatchetAt = ratchetAt at hroll
  subst hroll
  exact ⟨congrArg (fun t : Session => { t with lastRatchetAt := ratchetAt }) hfields, hdr, hpq⟩

def sampleSession : Session := .initial .pqRatchet
  { rootKey := leBytes 32 11
    sendingChainKey := leBytes 32 12
    sendingChainLength := 3
    receivingChainKey := defaultAeadKey
    receivingChainLength := 0
    dhRatchetPrivate := some (leBytes 32 6)
    dhRatchetPublic := leBytes 32 6
    remoteDhPublic := some (leBytes 32 5)
    previousSendingLength := 0
    skippedMessageKeys := .empty }
  true (hexEncode (List.replicate 16 7)) (ofText "bob") (ofText "alice") 1000

/-- A message on a new ratchet key, three positions in, that nobody sealed. -/
def strayMessage : EncryptedRatchetMessage where
  dhPublicKey := Vector.replicate 32 9
  messageNumber := 3
  ciphertext := [1, 2, 3]
  nonce := []
  previousChainLength := 2
  suiteId := 4
  pqMessageEpoch := 0
  pqKeyIndex := 0
  pqRatchetField := none
  identityProofCiphertext := none
  adVersion := adVersionLegacy

/-- The stray message steps the ratchet, files five keys and fails on the AEAD. -/
theorem decrypt_stray_keeps_session :
    ∃ e s', decryptWithIdentitySecret sizedCrypto ⟨2000, 21, 22, 23, 24⟩ strayMessage none
        sampleSession = .error e s' ∧
      s' = { sampleSession with
        dr := { sampleSession.dr with skippedMessageKeys := s'.dr.skippedMessageKeys }
        pq := { sampleSession.pq with pqSkippedKeys := s'.pq.pqSkippedKeys }
        lastRatchetAt := s'.lastRatchetAt } := by
  obtain ⟨e, s', h⟩ := exists_error_of_failed
    (r := decryptWithIdentitySecret sizedCrypto ⟨2000, 21, 22, 23, 24⟩ strayMessage none
      sampleSession) (by decide +kernel)
  exact ⟨e, s', h, (decrypt_error_keeps_session _ _ _ _ _ _ _ h).1⟩

end Session

end ConstructCore
