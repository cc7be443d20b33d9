import ConstructCore.Lib.RecvChain
import ConstructCore.Ratchet.PqSend
import ConstructCore.Ratchet.Run

/-!
# When operations return

The specifications of `Ratchet.Spec` say what a returning operation did. Here is the other
direction: a message for which there is a classical key that opens it is decrypted, as long
as the store of skipped keys stays below its bound (`decryptMessage_of_opens`), and a
message is sent as long as every primitive on the way returns (`encrypt_of_sealed`).
-/

namespace ConstructCore

open Bytes Op KeyChain

namespace Session

variable {C : Crypto} {s t : Session}

/-! ## The loops -/

theorem skipMessageKeys_of_moves {snap : DecryptSnapshot} {now : Nat} {old chain : Bytes} {n : Nat}
    {skipped : AgedStore (Bytes × UInt32) Bytes}
    (h : Moves C now old s (s.dr.receivingChainLength.toNat + n) chain skipped)
    (hbound : s.dr.receivingChainLength.toNat + n < 2 ^ 32)
    (hroom : skipped.size < Config.global.maxSkippedMessages) :
    skipMessageKeys C snap now old n s =
      .ok () (s.withReceiving chain (s.dr.receivingChainLength.toNat + n) skipped) := by
  induction n generalizing s with
  | zero =>
    obtain ⟨rfl, rfl⟩ := h.eq_of_le (Nat.le_refl _)
    refine pure_eq_ok.mpr ⟨rfl, ?_⟩
    unfold withReceiving
    rw [Nat.add_zero, UInt32.ofNat_toNat]
  | succ n ih =>
    obtain ⟨key, next, hstep, hrest⟩ := h.uncons (by omega)
    have hsize : ¬ Config.global.maxSkippedMessages ≤ s.dr.skippedMessageKeys.size :=
      Nat.not_le.mpr (Nat.lt_of_le_of_lt h.size_le hroom)
    obtain ⟨length, hlength⟩ : ∃ length, s.dr.receivingChainLength.checkedSucc = some length :=
      ⟨_, UInt32.checkedSucc_eq_some (by omega)⟩
    have hnext := UInt32.toNat_of_checkedSucc hlength
    have hmoves := (moves_passed (key, next) hlength).mpr hrest
    rw [skipMessageKeys, get_bind_eq_ok, if_neg hsize]
    refine bind_eq_ok.mpr ⟨_, s, inspectErr_eq_ok.mpr
      (ofExcept_eq_ok.mpr ⟨ok_of_ckStep hstep, rfl⟩), ?_⟩
    rw [set_bind_eq_ok, hlength]
    dsimp only
    rw [modify_bind_eq_ok]
    rw [show s.dr.receivingChainLength.toNat + (n + 1) = length.toNat + n by omega] at hmoves ⊢
    exact ih hmoves (by show length.toNat + n < _; omega)

theorem deriveMessageKey_of_moves {snap : DecryptSnapshot} {now : Nat} {dh chain key next : Bytes}
    {n : Nat} {skipped : AgedStore (Bytes × UInt32) Bytes}
    (h : Moves C now dh s (s.dr.receivingChainLength.toNat + n) chain skipped)
    (hkey : C.kdfCk chain = .ok (key, next))
    (hbound : s.dr.receivingChainLength.toNat + n + 1 < 2 ^ 32)
    (hroom : skipped.size < Config.global.maxSkippedMessages) :
    deriveMessageKey C snap now dh n s =
      .ok key (s.withReceiving next (s.dr.receivingChainLength.toNat + n + 1) skipped) := by
  induction n generalizing s with
  | zero =>
    obtain ⟨rfl, rfl⟩ := h.eq_of_le (Nat.le_refl _)
    obtain ⟨length, hlength⟩ : ∃ length, s.dr.receivingChainLength.checkedSucc = some length :=
      ⟨_, UInt32.checkedSucc_eq_some (by omega)⟩
    rw [deriveMessageKey, get_bind_eq_ok]
    refine bind_eq_ok.mpr ⟨_, s, inspectErr_eq_ok.mpr (ofExcept_eq_ok.mpr ⟨hkey, rfl⟩), ?_⟩
    rw [set_bind_eq_ok, hlength]
    dsimp only
    rw [modify_bind_eq_ok, pure_eq_ok]
    refine ⟨rfl, ?_⟩
    unfold withReceiving
    rw [ofNat_checkedSucc hlength, Nat.add_zero]
  | succ n ih =>
    obtain ⟨passed, following, hstep, hrest⟩ := h.uncons (by omega)
    obtain ⟨length, hlength⟩ : ∃ length, s.dr.receivingChainLength.checkedSucc = some length :=
      ⟨_, UInt32.checkedSucc_eq_some (by omega)⟩
    have hnext := UInt32.toNat_of_checkedSucc hlength
    have hmoves := (moves_passed (passed, following) hlength).mpr hrest
    have hsize := Nat.not_le.mpr (Nat.lt_of_le_of_lt hmoves.size_le hroom)
    rw [deriveMessageKey, get_bind_eq_ok]
    refine bind_eq_ok.mpr ⟨_, s, inspectErr_eq_ok.mpr
      (ofExcept_eq_ok.mpr ⟨ok_of_ckStep hstep, rfl⟩), ?_⟩
    rw [set_bind_eq_ok, hlength]
    dsimp only
    rw [modify_bind_eq_ok, get_bind_eq_ok]
    refine ite_eq_ok.mpr (.inr ⟨hsize, ?_⟩)
    rw [show s.dr.receivingChainLength.toNat + (n + 1) = length.toNat + n by omega] at hmoves ⊢
    exact ih hmoves (by show length.toNat + n + 1 < _; omega)

/-! ## Decrypt -/

theorem tryAeadDecrypt_of_aead {key sid padded plaintext : Bytes} {m : EncryptedRatchetMessage}
    (hversion : s.checkAdVersion m = .ok ()) (hsid : hexDecode s.sessionId = some sid)
    (hopen : C.aeadDecrypt key m.nonce m.ciphertext
      (some (associatedData m.adVersion s.contactId s.localUserId sid s.suiteId.isPqRatchet
        (AdHeader.ofMessage m))) = .ok padded)
    (hunpad : unpadMessage padded = .ok plaintext) :
    tryAeadDecrypt C s key m = .ok plaintext := by
  unfold tryAeadDecrypt
  rw [hversion, hsid]
  show (lift RatchetError.decryption (C.aeadDecrypt key m.nonce m.ciphertext _)).bind _ = _
  rw [hopen]
  show (unpadMessage padded).mapError _ = _
  rw [hunpad]
  rfl

theorem decryptLive_of_opens {env : Env} {snap : DecryptSnapshot} {m : EncryptedRatchetMessage}
    {stepped : Bool} {key plaintext : Bytes} {pq : PqRatchet} (hkey : Derives C env.now m s key t)
    (hroom : t.dr.skippedMessageKeys.size < Config.global.maxSkippedMessages)
    (hopen : Opens C env m t key pq plaintext) :
    decryptLive C env snap m stepped s = .ok plaintext (t.finish C env m stepped pq) := by
  obtain ⟨hle, hbound, chain, next, skipped, hmoves, hck, rfl⟩ := hkey
  have hnat := UInt32.le_iff_toNat_le.mp hle
  have hpos : s.dr.receivingChainLength.toNat +
      (m.messageNumber.toNat - s.dr.receivingChainLength.toNat) = m.messageNumber.toNat := by omega
  have hderive := @deriveMessageKey_of_moves C s snap env.now m.dhPublicKey.toList chain key next
    (m.messageNumber.toNat - s.dr.receivingChainLength.toNat) skipped
    (by rw [hpos]; exact hmoves) hck (by rw [hpos]; exact hbound) hroom
  rw [hpos] at hderive
  unfold decryptLive
  rw [get_bind_eq_ok, if_neg (UInt32.not_lt.mpr hle)]
  refine bind_eq_ok.mpr ⟨key, _, hderive, ?_⟩
  refine bind_eq_ok.mpr ⟨plaintext, _,
    inspectErr_eq_ok.mpr (decryptWithKey_eq_ok.mpr ⟨pq, hopen, rfl⟩), ?_⟩
  rw [modify_bind_eq_ok]
  cases stepped with
  | true =>
    rw [if_pos rfl, modify_bind_eq_ok]
    exact pure_eq_ok.mpr ⟨rfl, rfl⟩
  | false =>
    rw [if_neg (by decide)]
    exact pure_eq_ok.mpr ⟨rfl, rfl⟩

theorem stepRatchet_of_turn {env : Env} {snap : DecryptSnapshot} {m : EncryptedRatchetMessage}
    {secret : Option Bytes} {s₁ : Session} {d : DhTurn} (hsave : SavesOld C env.now m s s₁)
    (hroom : s₁.dr.skippedMessageKeys.size < Config.global.maxSkippedMessages)
    (hturn : d.Valid C env m.dhPublicKey.toList secret s₁) :
    stepRatchet C env snap m secret s = .ok () (d.apply C env m.dhPublicKey.toList s₁) := by
  have hstep := inspectErr_eq_ok (h := restoreSnapshot snap).mpr
    (performDhRatchet_eq_ok (u := ()).mpr ⟨d, hturn, rfl⟩)
  unfold stepRatchet
  rw [get_bind_eq_ok]
  rcases hsave with ⟨hremote, rfl⟩ | ⟨old, chain, skipped, hremote, hmoves, rfl⟩
  · rw [hremote]
    exact hstep
  · have hpos : max s.dr.receivingChainLength.toNat m.previousChainLength.toNat =
        s.dr.receivingChainLength.toNat +
          (m.previousChainLength.toNat - s.dr.receivingChainLength.toNat) := by omega
    have hlt : max s.dr.receivingChainLength.toNat m.previousChainLength.toNat < 2 ^ 32 :=
      Nat.max_lt.mpr ⟨s.dr.receivingChainLength.toNat_lt, m.previousChainLength.toNat_lt⟩
    rw [hpos] at hmoves hlt hstep ⊢
    rw [hremote]
    exact bind_eq_ok.mpr ⟨(), _, skipMessageKeys_of_moves hmoves hlt hroom, hstep⟩

/-- **A message with a key that opens it is decrypted**, as long as the skipped keys left in
the store stay below their bound. -/
theorem decryptMessage_of_opens {env : Env} {m : EncryptedRatchetMessage} {secret : Option Bytes}
    {key plaintext : Bytes} {stepped : Bool} {pq : PqRatchet}
    (hkey : ClassicalKey C env m secret (s.cleanupIfDue env.now) key stepped t)
    (hroom : t.dr.skippedMessageKeys.size < Config.global.maxSkippedMessages)
    (hopen : Opens C env m t key pq plaintext) :
    decryptMessage C env m secret s = .ok plaintext (t.finish C env m stepped pq) := by
  unfold decryptMessage
  rw [modify_bind_eq_ok, get_bind_eq_ok]
  generalize s.cleanupIfDue env.now = s at hkey
  cases hkey with
  | skipped hget =>
    rw [hget]
    dsimp only
    unfold decryptSkipped
    rw [modify_bind_eq_ok]
    refine bind_eq_ok.mpr ⟨plaintext, _,
      inspectErr_eq_ok.mpr (decryptWithKey_eq_ok.mpr ⟨pq, hopen, rfl⟩), ?_⟩
    rw [modify_bind_eq_ok]
    exact pure_eq_ok.mpr ⟨rfl, rfl⟩
  | live hnone hsame hjump hderives =>
    rw [hnone]
    refine bind_eq_ok.mpr ⟨(), _, ofExcept_eq_ok.mpr ⟨hjump, rfl⟩, ?_⟩
    rw [hsame, if_neg (by decide)]
    exact decryptLive_of_opens hderives hroom hopen
  | @ratchet s₁ _ d hnone hnew hjump hsave hturn hderives =>
    rw [hnone]
    refine bind_eq_ok.mpr ⟨(), _, ofExcept_eq_ok.mpr ⟨hjump, rfl⟩, ?_⟩
    rw [hnew, if_pos rfl]
    have hroom₁ : s₁.dr.skippedMessageKeys.size < Config.global.maxSkippedMessages := by
      obtain ⟨-, -, _, _, skipped, hmoves, -, rfl⟩ := hderives
      exact Nat.lt_of_le_of_lt hmoves.size_le hroom
    exact bind_eq_ok.mpr ⟨(), _, stepRatchet_of_turn hsave hroom₁ hturn,
      decryptLive_of_opens hderives hroom hopen⟩

theorem decryptWithIdentitySecret_of_opens {env : Env} {m : EncryptedRatchetMessage}
    {secret : Option Bytes} {key plaintext : Bytes} {stepped : Bool} {pq : PqRatchet}
    (hkey : ClassicalKey C env m secret (s.cleanupIfDue env.now) key stepped t)
    (hroom : t.dr.skippedMessageKeys.size < Config.global.maxSkippedMessages)
    (hopen : Opens C env m t key pq plaintext) :
    decryptWithIdentitySecret C env m secret s =
      .ok plaintext { t.finish C env m stepped pq with prekeyHeader := none } := by
  unfold decryptWithIdentitySecret
  refine bind_eq_ok.mpr ⟨plaintext, _, decryptMessage_of_opens hkey hroom hopen, ?_⟩
  rw [modify_bind_eq_ok]
  exact pure_eq_ok.mpr ⟨rfl, rfl⟩

/-! ## Encrypt -/

theorem nextSendPosition_of_step {env : Env} {pos : SendPosition} (h : SendStep C env s pos t) :
    nextSendPosition C { s with pq := s.startedPq C env } = .ok pos t := by
  obtain ⟨pqKey, hpq, drKey, next, hck, hmix, hdr⟩ := h.pq
  obtain ⟨length, hlength⟩ : ∃ length, s.dr.sendingChainLength.checkedSucc = some length :=
    ⟨_, UInt32.checkedSucc_eq_some h.bound⟩
  unfold nextSendPosition onPq
  rw [get_bind_eq_ok]
  refine bind_eq_ok.mpr ⟨_, _, zoom_eq_ok.mpr ⟨t.pq, hpq, rfl⟩, ?_⟩
  refine bind_eq_ok.mpr ⟨_, _, ofExcept_eq_ok.mpr ⟨hck, rfl⟩, ?_⟩
  refine bind_eq_ok.mpr ⟨_, _, ofExcept_eq_ok.mpr ⟨hmix, rfl⟩, ?_⟩
  dsimp only
  rw [hlength]
  dsimp only
  rw [modify_bind_eq_ok, pure_eq_ok]
  constructor
  · rw [← h.number]
  · rw [h.rest, hdr, ← ofNat_checkedSucc hlength]
    rfl

/-- A message that can be sealed at the position the chains stand at is sent. -/
theorem encrypt_of_sealed {env : Env} {plaintext padded : Bytes} {pos : SendPosition}
    {m : EncryptedRatchetMessage} (hpad : padMessageDefault plaintext = .ok padded)
    (hstep : SendStep C env s pos t) (hseal : sealMessage C t env pos padded = .ok m) :
    encrypt C env plaintext s = .ok m t := by
  unfold encrypt
  refine bind_eq_ok.mpr ⟨padded, s, ofExcept_eq_ok.mpr ⟨hpad, rfl⟩, ?_⟩
  rw [modify_bind_eq_ok]
  refine bind_eq_ok.mpr ⟨pos, t, nextSendPosition_of_step hstep, ?_⟩
  rw [get_bind_eq_ok]
  exact ofExcept_eq_ok.mpr ⟨hseal, rfl⟩

end Session

/-! ## The PQ half -/

namespace PqRatchet

variable {C : Crypto} {pq : PqRatchet}

theorem pqSendKey_of_no_epoch (suite : SuiteID) (h : pq.currentPqEpoch = 0) :
    pqSendKey C suite pq = .ok (0, 0, none) pq := by
  unfold pqSendKey
  rw [get_bind_eq_ok, h]
  simp

theorem pqSendKey_of_chain {suite : SuiteID} {chain next : PqChain} {key : Bytes}
    (hsuite : suite.isPqRatchet = true) (hepoch : pq.currentPqEpoch ≠ 0)
    (hchain : pq.sendChain? = some chain) (hstep : pqChainStep C chain = .ok (key, next)) :
    pqSendKey C suite pq = .ok (pq.currentPqEpoch, chain.index, some key)
      { pq with
        pqChains := modifyEpoch pq.currentPqEpoch (fun c => { c with send := some next })
          pq.pqChains } := by
  have hguard : ¬ (!suite.isPqRatchet || pq.currentPqEpoch == 0) = true := by
    simp [hsuite, hepoch]
  unfold pqSendKey
  rw [get_bind_eq_ok, if_neg hguard,
    show ((pq.pqChains.find? fun c => c.epoch == pq.currentPqEpoch).bind fun c => c.send) =
      some chain from hchain]
  dsimp only
  refine bind_eq_ok.mpr ⟨_, pq, ofExcept_eq_ok.mpr ⟨hstep, rfl⟩, ?_⟩
  rw [set_bind_eq_ok]
  exact pure_eq_ok.mpr ⟨rfl, rfl⟩

theorem pqReceiveKey_of_no_epoch (suite : SuiteID) (now : Nat) (pq : PqRatchet) :
    pqReceiveKey C suite now 0 0 pq = .ok none pq := by
  unfold pqReceiveKey
  rw [get_bind_eq_ok]
  simp

/-- The receiver of the key at `(epoch, index)`: it has kept the key, or its receive chain of
the epoch yields it, within the bounds on jumps and on keys kept. -/
def PqShared (C : Crypto) (pq : PqRatchet) (epoch index : UInt32) (key : Bytes) : Prop :=
  pq.pqSkippedKeys.get? (epoch, index) = some key ∨
    (pq.pqSkippedKeys.get? (epoch, index) = none ∧ ∃ chain, pq.recvChain? epoch = some chain ∧
      chain.index ≤ index ∧ index.toNat + 1 < 2 ^ 32 ∧
      ¬ chain.index.satAdd Config.global.maxMessageJump < index ∧
      pq.pqSkippedKeys.size + (index.toNat - chain.index.toNat) ≤ Config.global.maxSkippedMessages ∧
      keyAt (pqKeyStep C) chain.key (index.toNat - chain.index.toNat) = some key)

theorem pqChainStep_of_step {chain : PqChain} {key next : Bytes}
    (h : pqKeyStep C chain.key = some (key, next)) (hbound : chain.index.toNat + 1 < 2 ^ 32) :
    ∃ index, index.toNat = chain.index.toNat + 1 ∧
      pqChainStep C chain = .ok (key, { index := index, key := next }) := by
  have hindex := UInt32.checkedSucc_eq_some hbound
  unfold pqKeyStep at h
  unfold pqChainStep
  split at h
  · rename_i out hout
    cases h
    rw [hout]
    dsimp only
    rw [hindex]
    exact ⟨_, UInt32.toNat_of_checkedSucc hindex, rfl⟩
  · cases h

theorem advancePqChain_of_keyAt {now : Nat} {epoch : UInt32} {chain : PqChain} {key : Bytes}
    {skipped : PqSkipped} {n : Nat} (h : keyAt (pqKeyStep C) chain.key n = some key)
    (hbound : chain.index.toNat + n + 1 < 2 ^ 32)
    (hroom : skipped.size + n ≤ Config.global.maxSkippedMessages) :
    ∃ t, advancePqChain C now epoch n (chain, skipped) = .ok key t := by
  induction n generalizing chain skipped with
  | zero =>
    obtain ⟨k, next, hk, hstep⟩ := exists_step_of_keyAt h
    obtain rfl : chain.key = k := Option.some.inj hk
    obtain ⟨index, -, hstep⟩ := pqChainStep_of_step hstep hbound
    refine ⟨({ index := index, key := next }, skipped), ?_⟩
    unfold advancePqChain
    rw [get_bind_eq_ok]
    refine bind_eq_ok.mpr ⟨_, _, ofExcept_eq_ok.mpr ⟨hstep, rfl⟩, ?_⟩
    rw [set_bind_eq_ok]
    exact pure_eq_ok.mpr ⟨rfl, rfl⟩
  | succ n ih =>
    have hsome : (stateAt (pqKeyStep C) chain.key (n + 1)).isSome := by
      obtain ⟨k, next, hk, -⟩ := exists_step_of_keyAt h
      rw [hk]
      rfl
    have hfirst := stateAt_of_le (Nat.succ_le_succ (Nat.zero_le n)) hsome
    obtain ⟨k₁, hk₁⟩ := Option.isSome_iff_exists.mp hfirst
    obtain ⟨k, passed, hk, hstep⟩ := exists_step_of_stateAt_succ hk₁
    obtain rfl : chain.key = k := Option.some.inj hk
    obtain ⟨index, hindex, hstep⟩ := pqChainStep_of_step hstep (by omega)
    have hsize := skipped.size_insert_le (epoch, chain.index) passed now
    have hrest : keyAt (pqKeyStep C) k₁ n = some key := by
      rw [← keyAt_of_stateAt hk₁, Nat.add_comm]
      exact h
    obtain ⟨t, ht⟩ := @ih { index := index, key := k₁ }
      (skipped.insert (epoch, chain.index) passed now) hrest
      (by show index.toNat + n + 1 < _; omega) (by omega)
    refine ⟨t, ?_⟩
    unfold advancePqChain
    rw [get_bind_eq_ok]
    refine bind_eq_ok.mpr ⟨_, _, ofExcept_eq_ok.mpr ⟨hstep, rfl⟩, ?_⟩
    rw [set_bind_eq_ok, if_neg (by omega), set_bind_eq_ok]
    exact ht

theorem pqReceiveKey_of_shared {suite : SuiteID} {now : Nat} {epoch index : UInt32} {key : Bytes}
    (hsuite : suite.isPqRatchet = true) (hepoch : epoch ≠ 0) (h : PqShared C pq epoch index key) :
    ∃ pq', pqReceiveKey C suite now epoch index pq = .ok (some key) pq' := by
  have hguard : ¬ (!suite.isPqRatchet || epoch == 0) = true := by simp [hsuite, hepoch]
  rcases h with hkept | ⟨hnone, chain, hchain, hle, hbound, hjump, hroom, hkey⟩
  · refine ⟨{ pq with pqSkippedKeys := pq.pqSkippedKeys.remove (epoch, index) }, ?_⟩
    unfold pqReceiveKey
    rw [get_bind_eq_ok, if_neg hguard, hkept]
    dsimp only
    rw [set_bind_eq_ok]
    exact pure_eq_ok.mpr ⟨rfl, rfl⟩
  · have hnat := UInt32.le_iff_toNat_le.mp hle
    obtain ⟨t, ht⟩ := @advancePqChain_of_keyAt C now epoch chain key pq.pqSkippedKeys _ hkey
      (by omega) hroom
    refine ⟨{ pq.setRecvChain epoch t.1 with pqSkippedKeys := t.2 }, ?_⟩
    unfold pqReceiveKey
    rw [get_bind_eq_ok, if_neg hguard, hnone, hchain]
    dsimp only
    rw [if_neg (UInt32.not_lt.mpr hle), if_neg hjump]
    refine bind_eq_ok.mpr ⟨key, _, zoom_eq_ok.mpr ⟨t, ht, rfl⟩, ?_⟩
    exact pure_eq_ok.mpr ⟨rfl, rfl⟩

theorem ingestCiphertext_of_pending {now : Nat} {ex : PendingPqExchange} {ct secret : Bytes}
    {chains : PqEpochChains} (hp : pq.pendingPqExchange = some ex)
    (hsecret : C.mlkem768Decapsulate ex.keypair.secretKey ct = .ok secret)
    (hchains : pqEpochChains C secret ex.epoch pq.isPqInitiator = .ok chains) :
    pq.ingestCiphertext C now ex.epoch (pqEkHash C ex.keypair.publicKey) ct =
      { pq with
        pendingPqExchange := none
        currentPqEpoch := ex.epoch
        pqChains := insertPqEpochChains pq.pqChains chains
        pqPendingSince := 0
        pqEpochSince := now } := by
  unfold ingestCiphertext
  rw [hp]
  dsimp only
  rw [if_neg (by simp), hsecret]
  dsimp only
  rw [hchains]

end PqRatchet

end ConstructCore
