import ConstructCore.Ratchet.Progress
import ConstructCore.Ratchet.SendPositions

/-!
# The last PQ epoch

An exchange proposes the epoch after the current one by `saturating_add`, so that at
`u32::MAX` it proposes the current epoch again. Completing it replaces the epoch's chains by
new ones at index 0, and the positions of the epoch are used a second time.

The run is made of rounds. In each, the epoch has reached its maximum age: a message starts
an exchange and the peer's reply, on a new ratchet key, completes it. Every round moves the
session one epoch on (`AtRound`), until the last one stays.
-/

namespace ConstructCore

open Bytes Op KeyChain

namespace Session

variable {s t : Session}

/-! ## Rounds -/

/-- The session's ratchet key of round `k`. -/
def ownKey (k : Nat) : Bytes := leBytes 32 k

/-- The peer's ratchet key of round `k`. -/
def peerKey (k : Nat) : Bytes := leBytes 32 (2 ^ 33 + k)

/-- What the operations of round `k` find: one maximum epoch age a round. -/
def roundEnv (k : Nat) : Env := ⟨k * Config.global.pqRatchetMaxAgeSeconds, k, k, k, k⟩

variable {k : Nat}

theorem ownKey_injOn {j : Nat} (hj : j < 256 ^ 32) (hk : k < 256 ^ 32) (h : ownKey j = ownKey k) :
    j = k := by
  have := congrArg ofLeBytes h
  unfold ownKey at this
  rw [ofLeBytes_leBytes, ofLeBytes_leBytes] at this
  omega

theorem peerKey_succ_ne (k : Nat) : peerKey k ≠ peerKey (k + 1) := by
  intro h
  have := congrArg ofLeBytes h
  unfold peerKey at this
  rw [ofLeBytes_leBytes, ofLeBytes_leBytes] at this
  omega

/-- What holds throughout round `k + 1`, from its start to the peer's reply. -/
structure InRound (k : Nat) (s : Session) : Prop where
  saveable : Saveable s
  initiator : s.pq.isPqInitiator = true
  epoch : s.pq.currentPqEpoch.toNat = min k (2 ^ 32 - 1)
  ownPublic : s.dr.dhRatchetPublic = ownKey k
  ownPrivate : s.dr.dhRatchetPrivate = some (ownKey k)
  remote : s.dr.remoteDhPublic = some (peerKey k)
  noSkipped : ∀ a, s.dr.skippedMessageKeys.get? a = none
  room : s.dr.skippedMessageKeys.size < Config.global.maxSkippedMessages
  proof : s.identityProof ≠ .awaitingAnswer

/-- After `k` rounds: no exchange in flight, nothing sent on either chain. -/
structure AtRound (k : Nat) (s : Session) : Prop extends InRound k s where
  idle : s.pq.pendingPqExchange = none
  sends : s.pq.currentPqEpoch = 0 ∨ ∃ key, s.pq.sendChain? = some ⟨0, key⟩
  since : s.pq.pqEpochSince = k * Config.global.pqRatchetMaxAgeSeconds
  unsent : s.dr.sendingChainLength = 0

/-- The exchange round `k + 1` starts. -/
def roundExchange (k : Nat) (pq : PqRatchet) : PendingPqExchange where
  epoch := pq.currentPqEpoch.satAdd 1
  keypair :=
    { publicKey := (sizedCrypto.mlkem768Keygen (k + 1)).1
      secretKey := (sizedCrypto.mlkem768Keygen (k + 1)).2 }

/-- In round `k + 1`, after the message that started the exchange. -/
structure Proposed (k : Nat) (s : Session) : Prop extends InRound k s where
  pending : s.pq.pendingPqExchange = some (roundExchange k s.pq)
  pendingSince : s.pq.pqPendingSince = (roundEnv (k + 1)).now

/-! ## The message that starts the exchange -/

theorem AtRound.startedPq (h : AtRound k s) :
    s.startedPq sizedCrypto (roundEnv (k + 1)) = { s.pq with
      pendingPqExchange := some (roundExchange k s.pq)
      pqPendingSince := (roundEnv (k + 1)).now
      pqTurnsSinceMix := 0 } := by
  have hidle : s.pq.abandonUnansweredPqExchange (roundEnv (k + 1)).now = s.pq := by
    unfold PqRatchet.abandonUnansweredPqExchange
    rw [h.idle]
    simp
  have hold : s.pq.pqEpochIsOld (roundEnv (k + 1)).now = true := by
    unfold PqRatchet.pqEpochIsOld
    rw [h.since, decide_eq_true_iff]
    show _ ≤ (k + 1) * Config.global.pqRatchetMaxAgeSeconds - _
    rw [Nat.add_mul]
    omega
  unfold Session.startedPq PqRatchet.maybeStartPqExchangeByAge
  rw [h.saveable.suiteId, h.initiator, hidle]
  dsimp only
  rw [hold]
  show PqRatchet.startPqExchange _ _ _ = _
  unfold PqRatchet.startPqExchange
  rw [h.idle]
  rfl

theorem pqSendKey_sized {pq : PqRatchet}
    (h : pq.currentPqEpoch = 0 ∨ ∃ key, pq.sendChain? = some ⟨0, key⟩) :
    ∃ pqKey chains, PqRatchet.pqSendKey sizedCrypto .pqRatchet pq =
      .ok (pq.currentPqEpoch, 0, pqKey) { pq with pqChains := chains } := by
  by_cases hzero : pq.currentPqEpoch = 0
  · refine ⟨none, pq.pqChains, ?_⟩
    rw [PqRatchet.pqSendKey_of_no_epoch _ hzero]
    show EStateM.Result.ok (0, 0, none) pq = .ok (pq.currentPqEpoch, 0, none) pq
    rw [hzero]
  · obtain ⟨key, hchain⟩ := h.resolve_left hzero
    exact ⟨_, _, PqRatchet.pqSendKey_of_chain rfl hzero hchain rfl⟩

theorem sealMessage_sized {env : Env} {pos : SendPosition} {padded : Bytes}
    (hkey : s.dr.dhRatchetPublic.length = 32) (hid : ∃ raw, s.sessionId = hexEncode raw) :
    ∃ m, sealMessage sizedCrypto s env pos padded = .ok m := by
  obtain ⟨raw, hid⟩ := hid
  have hdh : toVector? 32 s.dr.dhRatchetPublic = some ⟨s.dr.dhRatchetPublic.toArray, by simpa⟩ := by
    rw [toVector?_eq_some]
    simp
  unfold sealMessage
  rw [hdh, hid, hexDecode_hexEncode]
  exact ⟨_, rfl⟩

/-- The first message of round `k + 1` takes index 0 of the current epoch. -/
theorem AtRound.encrypt (h : AtRound k s) :
    ∃ m t, Session.encrypt sizedCrypto (roundEnv (k + 1)) [] s = .ok m t ∧
      m.pqMessageEpoch = s.pq.currentPqEpoch ∧ m.pqKeyIndex = 0 ∧ Proposed k t := by
  have hstarted := h.startedPq
  obtain ⟨pqKey, chains, hsend⟩ := @pqSendKey_sized (s.startedPq sizedCrypto (roundEnv (k + 1)))
    (by rw [hstarted]; exact h.sends)
  obtain ⟨messageKey, hmix⟩ : ∃ messageKey, mixPqMessageKey sizedCrypto
      (addBytes 32 s.dr.sendingChainKey (List.replicate 32 3)) pqKey = .ok messageKey := by
    cases pqKey with
    | none => exact ⟨_, rfl⟩
    | some key => exact ⟨_, rfl⟩
  -- the state both chains leave
  let t : Session := { s with
    dr := advanceSending s.dr (addBytes 32 s.dr.sendingChainKey (List.replicate 32 5))
      (UInt32.ofNat (s.dr.sendingChainLength.toNat + 1))
    pq := { s.startedPq sizedCrypto (roundEnv (k + 1)) with pqChains := chains } }
  have hstep : SendStep sizedCrypto (roundEnv (k + 1)) s
      ⟨s.dr.sendingChainLength, (s.startedPq sizedCrypto (roundEnv (k + 1))).currentPqEpoch, 0,
        messageKey⟩ t := by
    refine ⟨⟨pqKey, ?_, _, _, rfl, hmix, rfl⟩, rfl, ?_, rfl⟩
    · rw [h.saveable.suiteId]
      exact hsend
    · rw [h.unsent]
      decide
  obtain ⟨raw, hid, -⟩ := h.saveable.sessionId
  obtain ⟨padded, hpad⟩ : ∃ padded, padMessageDefault [] = .ok padded := ⟨_, rfl⟩
  obtain ⟨m, hseal⟩ := @sealMessage_sized t (roundEnv (k + 1)) _ padded
    (by show s.dr.dhRatchetPublic.length = 32; rw [h.ownPublic]; exact length_leBytes _ _)
    ⟨raw, hid⟩
  have hsealed := sealMessage_ok hseal
  refine ⟨m, t, encrypt_of_sealed hpad hstep hseal, ?_, hsealed.pqKeyIndex, ?_⟩
  · rw [hsealed.pqMessageEpoch, hstarted]
  · refine ⟨⟨h.saveable.sendLeft sizedCrypto_sized hstep.left, ?_, ?_, h.ownPublic, h.ownPrivate,
      h.remote, h.noSkipped, h.room, h.proof⟩, ?_, ?_⟩
    · show (s.startedPq sizedCrypto (roundEnv (k + 1))).isPqInitiator = true
      rw [hstarted]
      exact h.initiator
    · show (s.startedPq sizedCrypto (roundEnv (k + 1))).currentPqEpoch.toNat = _
      rw [hstarted]
      exact h.epoch
    · show (s.startedPq sizedCrypto (roundEnv (k + 1))).pendingPqExchange =
        some (roundExchange k { s.startedPq sizedCrypto (roundEnv (k + 1)) with pqChains := chains })
      rw [hstarted]
      rfl
    · show (s.startedPq sizedCrypto (roundEnv (k + 1))).pqPendingSince = _
      rw [hstarted]

/-! ## The reply that completes it -/

theorem InRound.cleanup (h : InRound k s) (now : Nat) : InRound k (s.cleanupIfDue now) := by
  have hsave := h.saveable.cleanupIfDue now
  revert hsave
  unfold cleanupIfDue
  split
  · intro hsave
    refine ⟨hsave, h.initiator, h.epoch, h.ownPublic, h.ownPrivate, h.remote, ?_, ?_, h.proof⟩
    · intro a
      show (s.dr.skippedMessageKeys.evict now _).get? a = none
      rw [AgedStore.get?_evict, h.noSkipped a]
      simp
    · exact Nat.lt_of_le_of_lt (AgedStore.size_evict_le _ _ _) h.room
  · exact fun _ => h

theorem Proposed.cleanup (h : Proposed k s) (now : Nat) :
    Proposed k (s.cleanupIfDue now) := by
  have hround := h.toInRound.cleanup now
  revert hround
  unfold cleanupIfDue
  split
  · exact fun hround => ⟨hround, h.pending, h.pendingSince⟩
  · exact fun hround => ⟨hround, h.pending, h.pendingSince⟩

theorem Proposed.steppedPq (h : Proposed k s) :
    ∃ turns, s.steppedPq sizedCrypto (roundEnv (k + 1)) true = { s.pq with pqTurnsSinceMix := turns } := by
  have hkept : s.pq.abandonUnansweredPqExchange (roundEnv (k + 1)).now = s.pq := by
    unfold PqRatchet.abandonUnansweredPqExchange
    rw [h.pendingSince, Nat.sub_self]
    simp
  unfold Session.steppedPq PqRatchet.maybeAdvancePqRatchet
  rw [if_pos rfl, h.saveable.suiteId, h.initiator, hkept]
  refine ⟨s.pq.pqTurnsSinceMix.satAdd 1, ?_⟩
  dsimp only
  rw [if_neg (by decide)]
  split
  · rfl
  · unfold PqRatchet.startPqExchange
    rw [h.pending]
    rfl

/-- The peer's reply to the exchange of round `k + 1`, as a header. -/
def reply (k : Nat) (pq : PqRatchet) (ciphertext : Bytes) : EncryptedRatchetMessage where
  dhPublicKey := ⟨(peerKey (k + 1)).toArray, by simp [peerKey]⟩
  messageNumber := 0
  ciphertext := ciphertext
  nonce := leBytes 12 0
  previousChainLength := 0
  suiteId := 4
  pqMessageEpoch := 0
  pqKeyIndex := 0
  pqRatchetField := some (.ciphertext (roundExchange k pq).epoch
    (PqRatchet.pqEkHash sizedCrypto (roundExchange k pq).keypair.publicKey)
    (leBytes mlkem768CtSize 0))
  identityProofCiphertext := none
  adVersion := adVersionHeader

/-- The exchange of round `k + 1` is completed. -/
structure Completed (k : Nat) (pq pq' : PqRatchet) : Prop where
  initiator : pq'.isPqInitiator = true
  idle : pq'.pendingPqExchange = none
  epoch : pq'.currentPqEpoch = pq.currentPqEpoch.satAdd 1
  sends : ∃ key, pq'.sendChain? = some ⟨0, key⟩
  since : pq'.pqEpochSince = (roundEnv (k + 1)).now

/-- The reply completes the exchange, at the first index of the epoch it was started for. -/
theorem Proposed.commit (h : Proposed k s) (turns : UInt32) (ciphertext : Bytes) :
    Completed k s.pq (PqRatchet.commitPqPostDecrypt sizedCrypto .pqRatchet
      { s.pq with pqTurnsSinceMix := turns } (roundEnv (k + 1)) (reply k s.pq ciphertext)) := by
  have hnone : s.pq.pendingPqCiphertext = none := by
    cases hp : s.pq.pendingPqCiphertext with
    | none => rfl
    | some p =>
      have hrole := (h.saveable.pq.ciphertext p hp).1
      rw [h.initiator] at hrole
      cases hrole
  let pq : PqRatchet := { s.pq with pqTurnsSinceMix := turns }
  obtain ⟨secret, hsecret⟩ : ∃ secret, sizedCrypto.mlkem768Decapsulate
      (roundExchange k s.pq).keypair.secretKey (leBytes mlkem768CtSize 0) = .ok secret := by
    unfold Crypto.mlkem768Decapsulate
    rw [if_neg (by simp [sizedCrypto_sized.secretKey, roundExchange, Crypto.mlkem768Keygen]),
      if_neg (by simp)]
    exact ⟨_, rfl⟩
  obtain ⟨chains, hchains⟩ : ∃ chains, PqRatchet.pqEpochChains sizedCrypto secret
      (roundExchange k s.pq).epoch pq.isPqInitiator = .ok chains := by
    show ∃ chains, PqRatchet.pqEpochChains _ _ _ s.pq.isPqInitiator = .ok chains
    rw [h.initiator]
    exact ⟨_, rfl⟩
  have hcommit : PqRatchet.commitPqPostDecrypt sizedCrypto .pqRatchet pq (roundEnv (k + 1))
      (reply k s.pq ciphertext) = pq.ingestCiphertext sizedCrypto (roundEnv (k + 1)).now
        (roundExchange k s.pq).epoch
        (PqRatchet.pqEkHash sizedCrypto (roundExchange k s.pq).keypair.publicKey)
        (leBytes mlkem768CtSize 0) := by
    unfold PqRatchet.commitPqPostDecrypt PqRatchet.promotePending
    rw [show pq.pendingPqCiphertext = none from hnone]
    rfl
  have hpending : pq.pendingPqExchange = some (roundExchange k s.pq) := h.pending
  rw [hcommit, PqRatchet.ingestCiphertext_of_pending hpending hsecret hchains]
  obtain ⟨hepoch, -, key, hkey⟩ := PqRatchet.pqEpochChains_ok sizedCrypto_sized hchains
  refine ⟨h.initiator, rfl, rfl, ⟨key, ?_⟩, rfl⟩
  have hsend := PqRatchet.sendChain?_insert h.saveable.pq
    (by rw [hepoch]; exact UInt32.le_satAdd_one _) hkey
  rw [hepoch] at hsend
  exact hsend

def replyTurn (k : Nat) (s : Session) : DhTurn :=
  let receive := addBytes 32 s.dr.rootKey (addBytes 32 (ownKey k) (peerKey (k + 1)))
  let root := addBytes 32 receive (List.replicate 32 1)
  let send := addBytes 32 root (addBytes 32 (ownKey (k + 1)) (peerKey (k + 1)))
  { dhPrivate := ownKey k
    dhReceive := addBytes 32 (ownKey k) (peerKey (k + 1))
    receiveRoot := root
    receiveChain := addBytes 32 receive (List.replicate 32 2)
    mixedRoot := root
    mixedChain := addBytes 32 receive (List.replicate 32 2)
    proof := s.identityProof
    newPrivate := ownKey (k + 1)
    newPublic := ownKey (k + 1)
    dhSend := addBytes 32 (ownKey (k + 1)) (peerKey (k + 1))
    sendRoot := addBytes 32 send (List.replicate 32 1)
    sendChain := addBytes 32 send (List.replicate 32 2) }

theorem InRound.replyTurn_valid (h : InRound k s) :
    (replyTurn k s).Valid sizedCrypto (roundEnv (k + 1)) (peerKey (k + 1)) none s where
  dhPrivate := h.ownPrivate
  dhReceive := rfl
  receive := rfl
  mix := if_neg h.proof
  fresh := rfl
  dhSend := rfl
  send := rfl

def replied (k : Nat) (s : Session) : Session :=
  ((replyTurn k s).apply sizedCrypto (roundEnv (k + 1)) (peerKey (k + 1)) s).withReceiving
    (addBytes 32 (replyTurn k s).mixedChain (List.replicate 32 5)) 1 s.dr.skippedMessageKeys

def replyKey (k : Nat) (s : Session) : Bytes :=
  addBytes 32 (replyTurn k s).mixedChain (List.replicate 32 3)

theorem reply_dhPublicKey (k : Nat) (pq : PqRatchet) (ciphertext : Bytes) :
    (reply k pq ciphertext).dhPublicKey.toList = peerKey (k + 1) := by
  simp [reply]

theorem InRound.reply_key (h : InRound k s) (ciphertext : Bytes) :
    ClassicalKey sizedCrypto (roundEnv (k + 1)) (reply k s.pq ciphertext) none s (replyKey k s) true
      (replied k s) := by
  have hdh := reply_dhPublicKey k s.pq ciphertext
  have hnew : s.needsRatchet (reply k s.pq ciphertext) = true := by
    unfold needsRatchet
    rw [h.remote, hdh]
    simpa using peerKey_succ_ne k
  -- nothing of the old chain is left to save, and the reply is the first of the new one
  refine @ClassicalKey.ratchet _ _ _ _ _ _ s _ (replyTurn k s) (h.noSkipped _) hnew ?_ ?_ ?_ ?_
  · unfold checkJumps
    rw [hnew]
    rfl
  · refine .inr ⟨peerKey k, s.dr.receivingChainKey, s.dr.skippedMessageKeys, h.remote, ?_, ?_⟩
    · rw [show (reply k s.pq ciphertext).previousChainLength.toNat = 0 from rfl, Nat.max_zero]
      exact .refl _ _ _
    · rw [show (reply k s.pq ciphertext).previousChainLength.toNat = 0 from rfl, Nat.max_zero]
      unfold withReceiving
      rw [UInt32.ofNat_toNat]
  · rw [hdh]
    exact h.replyTurn_valid
  · refine ⟨UInt32.le_refl _, by show 0 + 1 < 2 ^ 32; decide, (replyTurn k s).mixedChain, _, s.dr.skippedMessageKeys,
      .refl _ _ _, rfl, ?_⟩
    rw [hdh]
    rfl

theorem completeIdentityProof_awaiting (h : s.identityProof ≠ .awaitingAnswer) :
    s.completeIdentityProof.identityProof ≠ .awaitingAnswer := by
  unfold completeIdentityProof
  split
  · exact fun hp => nomatch hp
  · exact h

theorem Proposed.decrypt (h : Proposed k s) :
    ∃ m plaintext t, decryptWithIdentitySecret sizedCrypto (roundEnv (k + 1)) m none s =
      .ok plaintext t ∧ AtRound (k + 1) t := by
  generalize hs' : s.cleanupIfDue (roundEnv (k + 1)).now = s'
  have h' : Proposed k s' := hs' ▸ h.cleanup _
  obtain ⟨turns, hstepped⟩ := h'.steppedPq
  obtain ⟨raw, hid, -⟩ := h'.saveable.sessionId
  obtain ⟨padded, hpad⟩ : ∃ padded, padMessageDefault [] = .ok padded := ⟨_, rfl⟩
  let ad := associatedData adVersionHeader s'.contactId s'.localUserId raw
    s'.suiteId.isPqRatchet (AdHeader.ofMessage (reply k s'.pq []))
  let m := reply k s'.pq (aeadFrame (replyKey k s') (leBytes 12 0) (some ad) ++ padded)
  have hkey : ClassicalKey sizedCrypto (roundEnv (k + 1)) m none s' (replyKey k s') true
      (replied k s') := h'.reply_key _
  have hopen : Opens sizedCrypto (roundEnv (k + 1)) m (replied k s') (replyKey k s')
      (replied k s').pq [] := by
    refine ⟨none, replyKey k s', ?_, rfl, ?_⟩
    · rw [show (replied k s').pqPosition m = (0, 0) from ite_self _]
      exact PqRatchet.pqReceiveKey_of_no_epoch _ _ _
    · refine tryAeadDecrypt_of_aead rfl ?_
        (frameDecrypt_frameEncrypt (replyKey k s') (leBytes 12 0) padded (some ad)) ?_
      · show hexDecode s'.sessionId = some raw
        rw [hid, hexDecode_hexEncode]
      · exact unpadMessage_padMessage hpad
  have hpq : Completed k s'.pq ((replied k s').pq.commitPqPostDecrypt sizedCrypto s'.suiteId
      (roundEnv (k + 1)) m) := by
    rw [show (replied k s').pq = s'.steppedPq sizedCrypto (roundEnv (k + 1)) true from rfl,
      hstepped, h'.saveable.suiteId]
    exact h'.commit turns _
  have hproof : ((replied k s').finish sizedCrypto (roundEnv (k + 1)) m true
      (replied k s').pq).identityProof ≠ .awaitingAnswer := by
    unfold finish
    rw [if_pos rfl]
    exact completeIdentityProof_awaiting h'.proof
  have hsave := h'.saveable.accept sizedCrypto_sized (acceptFrame hkey hopen)
  have hdue : ClassicalKey sizedCrypto (roundEnv (k + 1)) m none
      (s.cleanupIfDue (roundEnv (k + 1)).now) (replyKey k s') true (replied k s') := by
    rw [hs']
    exact hkey
  refine ⟨m, [], _, decryptWithIdentitySecret_of_opens hdue h'.room hopen, ?_⟩
  obtain ⟨proof, authentication, hfinish⟩ :=
    finish_frame (C := sizedCrypto) (roundEnv (k + 1)) m true (replied k s').pq (replied k s')
  rw [hfinish] at hproof hsave ⊢
  refine ⟨⟨hsave, hpq.initiator, ?_, rfl, rfl, rfl, h'.noSkipped, h'.room, hproof⟩, hpq.idle,
    .inr hpq.sends, hpq.since, rfl⟩
  show ((replied k s').pq.commitPqPostDecrypt sizedCrypto s'.suiteId (roundEnv (k + 1))
    m).currentPqEpoch.toNat = _
  rw [hpq.epoch, UInt32.toNat_satAdd, h'.epoch, UInt32.toNat_one]
  omega

/-! ## The run -/

/-- One round: a message sent at index 0 of the current epoch, and the reply. -/
theorem AtRound.round (h : AtRound k s) :
    ∃ m m' plaintext events,
      Machine.log (Session.step sizedCrypto) s events =
        [.sent m, .drew (ownKey (k + 1)), .accepted m' plaintext] ∧
      m.pqMessageEpoch = s.pq.currentPqEpoch ∧ m.pqKeyIndex = 0 ∧
      AtRound (k + 1) (Machine.run (Session.step sizedCrypto) s events) := by
  obtain ⟨m, t, hsend, hepoch, hindex, hproposed⟩ := h.encrypt
  obtain ⟨m', plaintext, u, hread, hdone⟩ := hproposed.decrypt
  refine ⟨m, m', plaintext, [.encrypt (roundEnv (k + 1)) [], .decrypt (roundEnv (k + 1)) m' none],
    ?_, hepoch, hindex, ?_⟩
  · unfold Machine.log Machine.log Machine.log
    rw [step_encrypt hsend, step_decrypt hread]
    rfl
  · unfold Machine.run Machine.run Machine.run
    rw [step_encrypt hsend, step_decrypt hread]
    exact hdone

def roundStart : Session :=
  match newInitiatorSession sizedCrypto (roundEnv 0) (leBytes 32 1) (ownKey 0) (peerKey 0)
    (ofText "bob") (ofText "alice") .pqRatchet with
  | .ok s => s
  | .error _ => sampleSession

theorem roundStart_created : Created sizedCrypto roundStart :=
  ⟨[], @Begins.initiator sizedCrypto (roundEnv 0) (leBytes 32 1) (ownKey 0) (peerKey 0)
    (ofText "bob") (ofText "alice") .pqRatchet _ rfl⟩

theorem atRound_start : AtRound 0 roundStart where
  saveable := saveable_created sizedCrypto_sized roundStart_created rfl
  initiator := rfl
  epoch := rfl
  ownPublic := rfl
  ownPrivate := rfl
  remote := rfl
  noSkipped a := AgedStore.get?_empty a
  room := by decide
  proof := by decide
  idle := rfl
  sends := .inl rfl
  since := rfl
  unsent := rfl

/-- Any number of rounds can be run; every ratchet key drawn in them is another one. -/
theorem rounds (k : Nat) : ∃ events,
    AtRound k (Machine.run (Session.step sizedCrypto) roundStart events) ∧
      draws (Machine.log (Session.step sizedCrypto) roundStart events) =
        (List.range' 1 k).map ownKey := by
  induction k with
  | zero => exact ⟨[], atRound_start, rfl⟩
  | succ k ih =>
    obtain ⟨events, hround, hdraws⟩ := ih
    obtain ⟨_, _, _, more, hlog, -, -, hnext⟩ := hround.round
    refine ⟨events ++ more, ?_, ?_⟩
    · rw [Machine.run_append]
      exact hnext
    · rw [Machine.log_append, hlog, draws_append, hdraws, List.range'_concat, List.map_append]
      show _ ++ [ownKey (k + 1)] = _ ++ [ownKey (1 + 1 * k)]
      rw [Nat.one_mul, Nat.add_comm]

theorem ownKeys_nodup (hk : k + 3 < 256 ^ 32) :
    (ownKey 0 :: ((List.range' 1 k).map ownKey ++ [ownKey (k + 1)] ++ [ownKey (k + 2)])).Nodup := by
  have hkeys : ownKey 0 :: ((List.range' 1 k).map ownKey ++ [ownKey (k + 1)] ++ [ownKey (k + 2)]) =
      (List.range (k + 3)).map ownKey := by
    rw [List.range_succ, List.range_succ, List.map_append, List.map_append, List.range_eq_range',
      List.range'_succ]
    rfl
  rw [hkeys]
  refine List.Nodup.map_on ?_ List.nodup_range
  intro i hi j hj heq
  rw [List.mem_range] at hi hj
  exact ownKey_injOn (by omega) (by omega) heq

theorem sendPosition_repeats (hlast : 2 ^ 32 - 1 ≤ k) (hk : k + 1 < 2 ^ 33) :
    ∃ events log,
      log = Machine.log (Session.step sizedCrypto) roundStart events ∧
      (roundStart.dr.dhRatchetPublic :: draws log).Nodup ∧
      ∃ pre m₁ m₂, sents log = pre ++ [m₁, m₂] ∧ 0 < m₁.pqMessageEpoch ∧
        m₁.pqMessageEpoch = m₂.pqMessageEpoch ∧ m₁.pqKeyIndex = m₂.pqKeyIndex := by
  obtain ⟨events, hround, hdraws⟩ := rounds k
  obtain ⟨m₁, _, _, more, hlog, hepoch₁, hindex₁, hnext⟩ := hround.round
  obtain ⟨m₂, _, _, last, hlog₂, hepoch₂, hindex₂, -⟩ := hnext.round
  have htop := hround.epoch
  have htop₂ := hnext.epoch
  rw [← hepoch₁] at htop
  rw [← hepoch₂] at htop₂
  rw [← Machine.run_append] at hlog₂
  refine ⟨(events ++ more) ++ last, _, rfl, ?_, ?_⟩
  · rw [Machine.log_append, Machine.log_append, hlog, hlog₂, draws_append, draws_append, hdraws]
    exact ownKeys_nodup (by omega)
  · refine ⟨sents (Machine.log (Session.step sizedCrypto) roundStart events), m₁, m₂, ?_, ?_, ?_, ?_⟩
    · rw [Machine.log_append, Machine.log_append, hlog, hlog₂, sents_append, sents_append,
        List.append_assoc]
      rfl
    · rw [UInt32.lt_iff_toNat_lt, htop]
      show 0 < _
      omega
    · rw [← UInt32.toNat_inj, htop, htop₂]
      omega
    · rw [hindex₁, hindex₂]

/-- At the last epoch a position is used twice: the epoch's first index goes to one message
before the exchange that is completed there and to another after it. -/
theorem sendPosition_repeats_at_last_epoch : ∃ s₀ events log,
    Created sizedCrypto s₀ ∧ log = Machine.log (Session.step sizedCrypto) s₀ events ∧
      (s₀.dr.dhRatchetPublic :: draws log).Nodup ∧
      ¬ ((sents log).Pairwise fun m m' => 0 < m.pqMessageEpoch → 0 < m'.pqMessageEpoch →
        ¬ (m.pqMessageEpoch = m'.pqMessageEpoch ∧ m.pqKeyIndex = m'.pqKeyIndex)) := by
  obtain ⟨events, log, hlog, hfresh, pre, m₁, m₂, hsents, hpos, hepoch, hindex⟩ :=
    sendPosition_repeats (Nat.le_refl _) (by omega)
  refine ⟨roundStart, events, log, roundStart_created, hlog, hfresh, ?_⟩
  intro hpairwise
  rw [hsents, List.pairwise_append] at hpairwise
  have hpair := (List.pairwise_cons.mp hpairwise.2.1).1 m₂ (List.mem_singleton.mpr rfl)
  exact hpair hpos (hepoch ▸ hpos) ⟨hepoch, hindex⟩

end Session

end ConstructCore
