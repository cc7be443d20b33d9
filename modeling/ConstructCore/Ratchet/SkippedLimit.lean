import ConstructCore.Ratchet.Acceptance
import ConstructCore.Ratchet.Progress

/-!
# Expired skipped keys and the limit on skipped keys

`decrypt` refuses a message when the keys it would have to keep for it exceed
`max_skipped_messages`. What it counts is every stored key; keys past their age go away only in
the eviction it starts with, and that runs only when the receiving chain stands at a multiple
of 100. Between two such positions expired keys count as much as young ones.

* `expired_keys_block`: a readable message refused with no young key in the store.
* `Spares`: what a limit refusal says about the number of keys. One lemma a function, from the
  two loops up to `decryptMessage_spares`.
* `expired_keys_do_not_block`: where the eviction is due, or nothing stored has expired.
-/

namespace ConstructCore

open Bytes Op KeyChain

def RatchetError.isLimit : RatchetError → Bool
  | .tooManySkipped | .tooManySkippedPq => true
  | _ => false

/-- A limit refusal needs as many keys as the limit: `keys` classical ones, `pqKeys` PQ ones. -/
def Spares (keys pqKeys : Nat) (e : RatchetError) : Prop :=
  (e = .tooManySkipped → Config.global.maxSkippedMessages ≤ keys) ∧
    (e = .tooManySkippedPq → Config.global.maxSkippedMessages ≤ pqKeys)

variable {keys pqKeys : Nat} {e : RatchetError} {C : Crypto}

theorem Spares.of_other (h : e.isLimit = false) :
    Spares keys pqKeys e := by
  constructor
  · rintro rfl
    cases h
  · rintro rfl
    cases h

theorem Spares.mono {keys' pqKeys' : Nat} (h : Spares keys pqKeys e) (hkeys : keys ≤ keys')
    (hpq : pqKeys ≤ pqKeys') :
    Spares keys' pqKeys' e :=
  ⟨fun he => (h.1 he).trans hkeys, fun he => (h.2 he).trans hpq⟩

/-! ## The PQ half -/

namespace PqRatchet

variable {C : Crypto}

def SameReceiving (pq pq' : PqRatchet) : Prop :=
  pq'.pqSkippedKeys = pq.pqSkippedKeys ∧ pq'.pqChains = pq.pqChains ∧
    pq'.pendingPqCiphertext = pq.pendingPqCiphertext

theorem OtherExchange.sameReceiving {pq pq' : PqRatchet} (h : OtherExchange pq pq') :
    SameReceiving pq pq' := by
  obtain ⟨_, _, _, rfl⟩ := h
  exact ⟨rfl, rfl, rfl⟩

def pqSkips (pq : PqRatchet) (suite : SuiteID) (epoch index : UInt32) : Nat :=
  if !suite.isPqRatchet || epoch == 0 then 0
  else if (pq.pqSkippedKeys.get? (epoch, index)).isSome then 0
  else match pq.recvChain? epoch with
    | none => 0
    | some chain => index.toNat - chain.index.toNat

theorem pqSkips_of_same {pq pq' : PqRatchet} (h : SameReceiving pq pq') (suite : SuiteID)
    (epoch index : UInt32) : pq'.pqSkips suite epoch index = pq.pqSkips suite epoch index := by
  unfold pqSkips recvChain?
  rw [h.1, h.2.1, h.2.2]

theorem pqChainStep_error {chain : PqChain} {e : RatchetError}
    (h : pqChainStep C chain = .error e) : e.isLimit = false := by
  unfold pqChainStep at h
  split at h
  · cases h
    rfl
  · split at h
    · cases h
      rfl
    · cases h

theorem advancePqChain_spares (now : Nat) (epoch : UInt32) (n keys : Nat) (chain : PqChain)
    (skipped : PqSkipped) :
    Ensures (advancePqChain C now epoch n) (chain, skipped) (fun _ _ => True)
      (fun e _ => Spares keys (skipped.size + n) e) := by
  induction n generalizing chain skipped with
  | zero =>
    simp only [advancePqChain, ensures_bind, ensures_get, ensures_ofExcept, ensures_set,
      ensures_pure]
    exact ⟨fun _ _ => trivial, fun e he => .of_other (pqChainStep_error he)⟩
  | succ n ih =>
    simp only [advancePqChain, ensures_bind, ensures_get, ensures_ofExcept, ensures_set,
      ensures_ite, ensures_throw]
    refine ⟨fun step _ => ⟨fun hfull => ?_, fun _ => ?_⟩,
      fun e he => .of_other (pqChainStep_error he)⟩
    · exact ⟨fun he => RatchetError.noConfusion he, fun _ => by omega⟩
    · -- one key more in the store, one fewer to pass
      have hsize := skipped.size_insert_le (epoch, chain.index) step.1 now
      exact (ih step.2 _).mono (fun _ _ h => h) fun e _ h =>
        h.mono (Nat.le_refl _) (by omega)

theorem pqReceiveKey_spares (suite : SuiteID) (now keys : Nat) (epoch index : UInt32)
    (pq : PqRatchet) :
    Ensures (pqReceiveKey C suite now epoch index) pq (fun _ _ => True)
      (fun e _ => Spares keys (pq.pqSkippedKeys.size + pq.pqSkips suite epoch index) e) := by
  unfold pqReceiveKey pqSkips
  simp only [ensures_bind, ensures_get, ensures_ite, ensures_throw, ensures_pure]
  refine ⟨fun _ => ⟨fun _ => .of_other rfl, fun _ => trivial⟩, fun hsuite => ?_⟩
  rw [if_neg hsuite]
  cases pq.pqSkippedKeys.get? (epoch, index) with
  | some key =>
    simp only [ensures_bind, ensures_set, ensures_pure]
  | none =>
    rw [if_neg (by decide)]
    cases pq.recvChain? epoch with
    | none =>
      simp only [ensures_throw]
      exact .of_other rfl
    | some chain =>
      simp only [ensures_ite, ensures_throw, ensures_bind, ensures_zoom, ensures_pure]
      exact ⟨fun _ => .of_other rfl, fun _ => ⟨fun _ => .of_other rfl,
        fun _ => advancePqChain_spares now epoch _ keys chain _⟩⟩

end PqRatchet

theorem mixPqMessageKey_error {key : Bytes} {pqKey : Option Bytes}
    (h : mixPqMessageKey C key pqKey = .error e) : e.isLimit = false := by
  unfold mixPqMessageKey at h
  cases pqKey with
  | none => cases h
  | some pqKey =>
    dsimp only at h
    split at h
    · cases h
      rfl
    · cases h

theorem lift_error {α : Type} {f : CryptoError → RatchetError} {x : Except CryptoError α}
    (h : lift f x = .error e) : ∃ e', e = f e' := by
  unfold lift at h
  cases x with
  | ok a => cases h
  | error e' => exact ⟨e', (Except.error.inj h).symm⟩

theorem mixIdentitySecret_error {root chain secret : Bytes}
    (h : mixIdentitySecret C root chain secret = .error e) : e.isLimit = false := by
  unfold mixIdentitySecret at h
  cases hroot : lift .identityRootMix
      (C.hkdfDeriveKey secret root (ofText "Construct-KEM-identity-root-v1") 32) with
  | error e' =>
    rw [hroot] at h
    cases h
    obtain ⟨e', rfl⟩ := lift_error hroot
    rfl
  | ok root' =>
    rw [hroot] at h
    cases hchain : lift .identityChainMix
        (C.hkdfDeriveKey secret chain (ofText "Construct-KEM-identity-chain-v1") 32) with
    | error e' =>
      rw [Except.bind_of_ok rfl, hchain] at h
      cases h
      obtain ⟨e', rfl⟩ := lift_error hchain
      rfl
    | ok chain' =>
      rw [Except.bind_of_ok rfl, hchain] at h
      cases h

/-! ## The steps of decrypt -/

namespace Session

variable {C : Crypto} {s t : Session}

variable {m : EncryptedRatchetMessage} {e : RatchetError}

theorem tryAeadDecrypt_error {key : Bytes} (h : tryAeadDecrypt C s key m = .error e) :
    e.isLimit = false := by
  unfold tryAeadDecrypt at h
  rcases Except.bind_eq_error h with hversion | ⟨_, -, h⟩
  · unfold checkAdVersion at hversion
    split at hversion
    · cases hversion
    · split at hversion
      · split at hversion
        · cases hversion
        · cases hversion
          rfl
      · cases hversion
        rfl
  rcases Except.bind_eq_error h with hsid | ⟨_, -, h⟩
  · cases hdecode : hexDecode s.sessionId with
    | some sid =>
      rw [hdecode] at hsid
      cases hsid
    | none =>
      rw [hdecode] at hsid
      cases hsid
      rfl
  dsimp only at h
  rcases Except.bind_eq_error h with hopen | ⟨padded, -, h⟩
  · obtain ⟨e', rfl⟩ := lift_error hopen
    rfl
  · cases hunpad : unpadMessage padded with
    | ok plaintext =>
      rw [hunpad] at h
      cases h
    | error e' =>
      rw [hunpad] at h
      cases h
      rfl

def SamePqReceiving (s t : Session) : Prop :=
  t.suiteId = s.suiteId ∧ PqRatchet.SameReceiving s.pq t.pq

/-- The PQ keys a message makes `decrypt` pass. -/
def pqSkips (s : Session) (m : EncryptedRatchetMessage) : Nat :=
  s.pq.pqSkips s.suiteId (s.pqPosition m).1 (s.pqPosition m).2

theorem SamePqReceiving.room (h : SamePqReceiving s t) (m : EncryptedRatchetMessage) :
    t.pq.pqSkippedKeys.size + t.pqSkips m = s.pq.pqSkippedKeys.size + s.pqSkips m := by
  unfold pqSkips pqPosition
  rw [h.1, PqRatchet.pqSkips_of_same h.2, h.2.1]

theorem decryptWithKey_spares (env : Env) (key : Bytes) (m : EncryptedRatchetMessage) (keys : Nat) :
    Ensures (decryptWithKey C env key m) s (fun _ _ => True)
      (fun e _ => Spares keys (s.pq.pqSkippedKeys.size + s.pqSkips m) e) := by
  simp only [decryptWithKey, onPq, ensures_bind, ensures_get, ensures_zoom, ensures_ofExcept,
    ensures_modify, ensures_pure]
  refine (PqRatchet.pqReceiveKey_spares _ _ keys _ _ s.pq).mono ?_ fun _ _ h => h
  intro pqKey pq _
  exact ⟨fun _ _ => ⟨fun _ _ => trivial, fun e he => .of_other (tryAeadDecrypt_error he)⟩,
    fun e he => .of_other (mixPqMessageKey_error he)⟩

theorem LoopRefusal.spares {n pqKeys : Nat} {e : RatchetError} (h : LoopRefusal n e) :
    Spares n pqKeys e := by
  cases h with
  | kdf => exact .of_other rfl
  | length => exact .of_other rfl
  | full h => exact ⟨fun _ => h, fun he => RatchetError.noConfusion he⟩

theorem skipMessageKeys_spares (snap : DecryptSnapshot) (now : Nat) (old : Bytes) (n pqKeys : Nat) :
    Ensures (skipMessageKeys C snap now old n) s
      (fun _ t => t.dr.skippedMessageKeys.size ≤ s.dr.skippedMessageKeys.size + n ∧
        SamePqReceiving s t)
      (fun e _ => Spares (s.dr.skippedMessageKeys.size + n) pqKeys e) := by
  refine (skipMessageKeys_spec C snap now old n s).mono ?_ fun e t h => h.2.spares
  rintro - _ ⟨chain, skipped, hmoves, rfl, -⟩
  have hsize := hmoves.size_le_add
  exact ⟨by dsimp only [withReceiving]; omega, rfl, rfl, rfl, rfl⟩

theorem deriveMessageKey_spares (snap : DecryptSnapshot) (now : Nat) (remote : Bytes)
    (n pqKeys : Nat) :
    Ensures (deriveMessageKey C snap now remote n) s (fun _ t => SamePqReceiving s t)
      (fun e _ => Spares (s.dr.skippedMessageKeys.size + n) pqKeys e) := by
  refine (deriveMessageKey_spec C snap now remote n s).mono ?_ fun e t h => h.2.spares
  rintro key _ ⟨chain, next, skipped, -, -, rfl, -⟩
  exact ⟨rfl, rfl, rfl, rfl⟩

theorem mixAwaitedAnswer_errors (secret : Option Bytes) :
    Ensures (performDhRatchet.mixAwaitedAnswer C secret) s (fun _ _ => True)
      (fun e _ => e.isLimit = false) := by
  simp only [performDhRatchet.mixAwaitedAnswer, ensures_bind, ensures_get, ensures_ite,
    ensures_pure]
  refine ⟨fun _ => ?_, fun _ => trivial⟩
  cases secret with
  | none => rfl
  | some secret =>
    simp only [ensures_bind, ensures_ofExcept, ensures_set]
    exact ⟨fun _ _ => trivial, fun e he => mixIdentitySecret_error he⟩

theorem performDhRatchet_errors (env : Env) (remote : Bytes) (secret : Option Bytes) :
    Ensures (performDhRatchet C env remote secret) s (fun _ _ => True)
      (fun e _ => e.isLimit = false) := by
  simp only [performDhRatchet, ensures_bind, ensures_modify, ensures_get]
  cases s.dr.dhRatchetPrivate with
  | none => rfl
  | some dhPrivate =>
    simp only [ensures_bind, ensures_ofExcept, ensures_modify, ensures_get]
    refine ⟨fun _ _ => ⟨fun keys _ => ?_, fun _ _ => rfl⟩, fun _ _ => rfl⟩
    refine (mixAwaitedAnswer_errors secret).mono ?_ fun _ _ he => he
    intro _ t _
    exact ⟨fun pair _ => ⟨fun _ _ => ⟨fun _ _ => trivial, fun _ _ => rfl⟩, fun _ _ => rfl⟩,
      fun _ _ => rfl⟩

/-- The keys of the old receiving chain that a DH step files: none before the first chain. -/
def oldChainSkips (s : Session) (m : EncryptedRatchetMessage) : Nat :=
  if s.dr.remoteDhPublic.isSome then
    m.previousChainLength.toNat - s.dr.receivingChainLength.toNat
  else 0

/-- The step of a message with a new ratchet key: the chain starts again, and the store has
grown by what the old chain was short of. -/
theorem stepRatchet_spares (env : Env) (snap : DecryptSnapshot) (m : EncryptedRatchetMessage)
    (secret : Option Bytes) (pqKeys : Nat) :
    Ensures (stepRatchet C env snap m secret) s
      (fun _ t => t.dr.receivingChainLength = 0 ∧
        t.dr.skippedMessageKeys.size ≤ s.dr.skippedMessageKeys.size + s.oldChainSkips m ∧
        SamePqReceiving s t)
      (fun e _ => Spares (s.dr.skippedMessageKeys.size + s.oldChainSkips m) pqKeys e) := by
  generalize hshort : s.oldChainSkips m = short
  unfold oldChainSkips at hshort
  have hturn : ∀ t : Session, t.dr.skippedMessageKeys.size ≤ s.dr.skippedMessageKeys.size + short →
      SamePqReceiving s t →
      Ensures (inspectErr (performDhRatchet C env m.dhPublicKey.toList secret)
        (restoreSnapshot snap)) t
        (fun _ u => u.dr.receivingChainLength = 0 ∧
          u.dr.skippedMessageKeys.size ≤ s.dr.skippedMessageKeys.size + short ∧
          SamePqReceiving s u)
        (fun e _ => Spares (s.dr.skippedMessageKeys.size + short) pqKeys e) := by
    intro t hsize hsame
    rw [ensures_inspectErr, ensures_iff]
    refine ⟨?_, fun e _ he => .of_other ((performDhRatchet_errors env _ secret).of_error he)⟩
    intro _ u hok
    obtain ⟨d, -, rfl⟩ := performDhRatchet_eq_ok.mp hok
    have hpq := (PqRatchet.maybeAdvance_otherExchange (C := C) t.suiteId t.pq env).sameReceiving
    exact ⟨rfl, hsize, hsame.1, hpq.1.trans hsame.2.1, hpq.2.1.trans hsame.2.2.1,
      hpq.2.2.trans hsame.2.2.2⟩
  simp only [stepRatchet, ensures_bind, ensures_get]
  cases hremote : s.dr.remoteDhPublic with
  | none => exact hturn s (Nat.le_add_right _ _) ⟨rfl, rfl, rfl, rfl⟩
  | some old =>
    simp only [hremote, Option.isSome_some, if_true] at hshort
    subst hshort
    simp only [ensures_bind]
    exact (skipMessageKeys_spares snap env.now old _ pqKeys).mono
      (fun _ t h => hturn t h.1 h.2) fun _ _ h => h

theorem decryptLive_spares (env : Env) (snap : DecryptSnapshot) (m : EncryptedRatchetMessage)
    (stepped : Bool) :
    Ensures (decryptLive C env snap m stepped) s (fun _ _ => True)
      (fun e _ => Spares (s.dr.skippedMessageKeys.size +
          (m.messageNumber.toNat - s.dr.receivingChainLength.toNat))
        (s.pq.pqSkippedKeys.size + s.pqSkips m) e) := by
  simp only [decryptLive, ensures_bind, ensures_get, ensures_ite, ensures_modify,
    ensures_throw, ensures_inspectErr, ensures_pure]
  refine ⟨fun _ => .of_other rfl, fun _ => ?_⟩
  refine (deriveMessageKey_spares snap env.now _ _ _).mono ?_ fun _ _ h => h
  intro key t hsame
  refine (decryptWithKey_spares env key m (s.dr.skippedMessageKeys.size +
    (m.messageNumber.toNat - s.dr.receivingChainLength.toNat))).mono ?_ ?_
  · intro _ _ _
    exact ⟨fun _ => trivial, fun _ => trivial⟩
  · intro e _ h
    rw [hsame.room m] at h
    exact h

/-- The classical keys a message makes `decrypt` pass. -/
def classicalSkips (s : Session) (m : EncryptedRatchetMessage) : Nat :=
  if (s.dr.skippedMessageKeys.get? (m.dhPublicKey.toList, m.messageNumber)).isSome then 0
  else if s.needsRatchet m then s.oldChainSkips m + m.messageNumber.toNat
  else m.messageNumber.toNat - s.dr.receivingChainLength.toNat

theorem checkJumps_error (h : s.checkJumps m = .error e) : e.isLimit = false := by
  unfold checkJumps at h
  dsimp only at h
  split at h
  · split at h
    · cases h
      rfl
    · split at h
      · cases h
        rfl
      · cases h
  · split at h
    · cases h
      rfl
    · cases h

/-- **A limit refusal needs that many keys**: those stored after the eviction `decrypt` starts
with, and those the message makes it pass. -/
theorem decryptMessage_spares (env : Env) (m : EncryptedRatchetMessage) (secret : Option Bytes) :
    let t := s.cleanupIfDue env.now
    Ensures (decryptMessage C env m secret) s (fun _ _ => True)
      (fun e _ => Spares (t.dr.skippedMessageKeys.size + t.classicalSkips m)
        (t.pq.pqSkippedKeys.size + t.pqSkips m) e) := by
  simp only [decryptMessage, ensures_bind, ensures_modify, ensures_get]
  generalize s.cleanupIfDue env.now = t
  unfold classicalSkips
  cases hget : t.dr.skippedMessageKeys.get? (m.dhPublicKey.toList, m.messageNumber) with
  | some key =>
    simp only [decryptSkipped, ensures_bind, ensures_modify, ensures_inspectErr, ensures_pure]
    exact (decryptWithKey_spares env key m _).mono (fun _ _ _ => trivial) fun _ _ h => h
  | none =>
    simp only [Option.isSome_none, Bool.false_eq_true, if_false, ensures_bind, ensures_ofExcept]
    refine ⟨fun _ _ => ?_, fun e he => .of_other (checkJumps_error he)⟩
    cases t.needsRatchet m with
    | false =>
      simp only [Bool.false_eq_true, if_false]
      exact decryptLive_spares env _ m false
    | true =>
      simp only [if_true, ensures_bind]
      refine (stepRatchet_spares env _ m secret (t.pq.pqSkippedKeys.size + t.pqSkips m)).mono
        ?_ ?_
      · rintro _ u ⟨hlen, hsize, hsame⟩
        refine (decryptLive_spares env _ m true).mono (fun _ _ h => h) ?_
        intro e _ h
        rw [hsame.room m, hlen] at h
        exact h.mono (by show _ + (_ - 0) ≤ _; omega) (Nat.le_refl _)
      · intro e _ h
        exact h.mono (by omega) (Nat.le_refl _)

/-! ## The theorem -/

def youngKeys (s : Session) (now : Nat) : Nat :=
  (s.dr.skippedMessageKeys.evict now Config.global.maxSkippedMessageAgeSeconds).size

def youngPqKeys (s : Session) (now : Nat) : Nat :=
  (s.pq.pqSkippedKeys.evict now Config.global.maxSkippedMessageAgeSeconds).size

def Swept (s : Session) (now : Nat) : Prop :=
  s.dr.receivingChainLength % 100 = 0 ∨
    (s.dr.skippedMessageKeys.size = s.youngKeys now ∧ s.pq.pqSkippedKeys.size = s.youngPqKeys now)

theorem Swept.sizes {now : Nat} (h : s.Swept now) :
    (s.cleanupIfDue now).dr.skippedMessageKeys.size = s.youngKeys now ∧
      (s.cleanupIfDue now).pq.pqSkippedKeys.size = s.youngPqKeys now := by
  unfold cleanupIfDue
  split
  · exact ⟨rfl, rfl⟩
  · rename_i hskip
    rcases h with hdue | hnone
    · -- due, and skipped since both stores are empty
      have hempty : s.dr.skippedMessageKeys.size = 0 ∧ s.pq.pqSkippedKeys.size = 0 := by
        by_contra hne
        exact hskip ⟨hdue, hne⟩
      have hyoung := s.dr.skippedMessageKeys.size_evict_le now
        Config.global.maxSkippedMessageAgeSeconds
      have hyoungPq := s.pq.pqSkippedKeys.size_evict_le now
        Config.global.maxSkippedMessageAgeSeconds
      unfold youngKeys youngPqKeys
      omega
    · exact hnone

/-- `x` is refused for too many skipped keys. -/
def Refused {α : Type} (x : Op RatchetError Session α) (s : Session) : Prop :=
  Ensures x s (fun _ _ => False) (fun e _ => e = .tooManySkipped)

/-- The loop up to the message's key, where the store fills up on the way. -/
theorem deriveMessageKey_refused (hck : ∀ chain, ∃ keys, C.kdfCk chain = .ok keys)
    (snap : DecryptSnapshot) (now : Nat) (dh : Bytes) {n : Nat} (hpos : 0 < n)
    (hbound : s.dr.receivingChainLength.toNat + n < 2 ^ 32)
    (hnew : ∀ i, s.dr.receivingChainLength.toNat ≤ i →
      i < s.dr.receivingChainLength.toNat + n → s.dr.skippedMessageKeys.get? (slot dh i) = none)
    (hfull : Config.global.maxSkippedMessages ≤ s.dr.skippedMessageKeys.size + n) :
    Refused (deriveMessageKey C snap now dh n) s := by
  induction n generalizing s with
  | zero => omega
  | succ n ih =>
    obtain ⟨keys, hkeys⟩ := hck s.dr.receivingChainKey
    obtain ⟨length, hlength⟩ : ∃ length, s.dr.receivingChainLength.checkedSucc = some length :=
      ⟨_, UInt32.checkedSucc_eq_some (by omega)⟩
    have hnext := UInt32.toNat_of_checkedSucc hlength
    have hfirst := hnew _ (Nat.le_refl _) (by omega)
    rw [slot_toNat] at hfirst
    have hsize := AgedStore.size_insert_of_new hfirst keys.1 now
    simp only [Refused, deriveMessageKey, failRestoring, ensures_bind, ensures_get,
      ensures_inspectErr, ensures_ofExcept, ensures_set, hkeys, hlength, ensures_modify,
      ensures_ite, ensures_throw]
    refine ⟨?_, fun _ he => by cases he⟩
    intro keys' heq
    obtain rfl := Except.ok.inj heq
    refine ⟨fun _ => trivial, fun hroom => ?_⟩
    have hroom' : ¬ Config.global.maxSkippedMessages ≤ (s.dr.skippedMessageKeys.insert
      (dh, s.dr.receivingChainLength) keys.1 now).size := hroom
    refine ih (by omega) (by show length.toNat + n < _; omega) ?_ (by
      show _ ≤ (s.dr.skippedMessageKeys.insert (dh, s.dr.receivingChainLength) keys.1 now).size + n
      omega)
    intro i hi hi'
    have hi : length.toNat ≤ i := hi
    have hi' : i < length.toNat + n := hi'
    show (s.dr.skippedMessageKeys.insert (dh, s.dr.receivingChainLength) keys.1 now).get?
      (slot dh i) = none
    rw [AgedStore.get?_insert, if_neg, hnew i (by omega) (by omega)]
    rw [← slot_toNat]
    intro heq
    have := (slot_inj (by omega) (by omega) heq).2
    omega

def lateMessage (number : UInt32) : EncryptedRatchetMessage :=
  { replayMessage with messageNumber := number }

/-- A responder before its first message, which is the peer's message 998. -/
def lateStart : Session :=
  match responderSession symbolicCrypto ⟨10, 21, 22, 23, 24⟩ (leBytes 32 3) (leBytes 32 6)
    (lateMessage 998) (ofText "alice") (ofText "bob") with
  | .ok s => s
  | .error _ => sampleSession

def lateKey (n : Nat) : Bytes := 1 :: (List.replicate n 2 ++ lateStart.dr.receivingChainKey)

def lateBox (number : UInt32) : Box where
  key := lateKey number.toNat
  nonce := leBytes 12 0
  ad := associatedData adVersionHeader lateStart.contactId lateStart.localUserId
    ((hexDecode lateStart.sessionId).getD []) lateStart.suiteId.isPqRatchet
    (AdHeader.ofMessage (lateMessage number))
  ciphertext := [1, 2, 3]
  plaintext := (padMessageDefault [104, 105]).toOption.getD []

def lateCrypto : Crypto := opensOnly symbolicCrypto [lateBox 998, lateBox 1001]

theorem stateAt_late (base : Bytes) (n : Nat) :
    stateAt (ckStep lateCrypto) base n = some (List.replicate n 2 ++ base) := by
  induction n with
  | zero => rfl
  | succ n ih => exact stateAt_succ_of_step ih rfl

def lateEnv : Env := ⟨10 + 8 * 24 * 3600, 51, 52, 53, 54⟩

/-- The AEAD step reads the identity of a session only, of the classical half nothing. -/
theorem tryAeadDecrypt_withReceiving (s : Session) (chain : Bytes) (position : Nat)
    (skipped : AgedStore (Bytes × UInt32) Bytes) (key : Bytes) (m : EncryptedRatchetMessage) :
    tryAeadDecrypt C { s.withReceiving chain position skipped with pq := s.pq } key m =
      tryAeadDecrypt C s key m := rfl

/-- The responder after message 998: the chain at 999, with the keys before it in the store. -/
def lateHeld (skipped : AgedStore (Bytes × UInt32) Bytes) : Session :=
  { lateStart.withReceiving (List.replicate 999 2 ++ lateStart.dr.receivingChainKey) 999 skipped with
    peerAdVersion := adVersionHeader }

theorem lateStart_first : ∃ skipped,
    newResponderSession lateCrypto ⟨10, 21, 22, 23, 24⟩ (leBytes 32 3) (leBytes 32 6)
      (lateMessage 998) (ofText "alice") (ofText "bob") = .ok (lateHeld skipped, [104, 105]) ∧
    Moves lateCrypto 10 (lateMessage 998).dhPublicKey.toList lateStart 998
      (List.replicate 998 2 ++ lateStart.dr.receivingChainKey) skipped := by
  obtain ⟨skipped, hmove⟩ := Advance.exists_of_stateAt
    (slot (lateMessage 998).dhPublicKey.toList) 10 0 998 lateStart.dr.skippedMessageKeys
    (stateAt_late lateStart.dr.receivingChainKey 998)
  have hmoves : Moves lateCrypto 10 (lateMessage 998).dhPublicKey.toList lateStart 998
      (List.replicate 998 2 ++ lateStart.dr.receivingChainKey) skipped := hmove
  have hkey : ClassicalKey lateCrypto ⟨10, 21, 22, 23, 24⟩ (lateMessage 998) none lateStart
      (lateKey 998) false (lateStart.withReceiving
        (List.replicate 999 2 ++ lateStart.dr.receivingChainKey) 999 skipped) :=
    .live rfl rfl rfl ⟨by decide, by decide, _, _, skipped, hmoves, rfl, rfl⟩
  have hroom : skipped.size < Config.global.maxSkippedMessages := by
    have hsize : skipped.size ≤ 0 + (998 - 0) := hmove.size_le_add
    show skipped.size < 1000
    omega
  have haead : tryAeadDecrypt lateCrypto lateStart (lateKey 998) (lateMessage 998) =
      .ok [104, 105] := by
    decide +kernel
  have hopen : Opens lateCrypto ⟨10, 21, 22, 23, 24⟩ (lateMessage 998) (lateStart.withReceiving
      (List.replicate 999 2 ++ lateStart.dr.receivingChainKey) 999 skipped) (lateKey 998)
      lateStart.pq [104, 105] := by
    refine ⟨none, lateKey 998, PqRatchet.pqReceiveKey_of_no_epoch _ _ _, rfl, ?_⟩
    exact (tryAeadDecrypt_withReceiving lateStart _ _ _ _ _).trans haead
  have hdecrypt := decryptWithIdentitySecret_of_opens (s := lateStart) hkey hroom hopen
  exact ⟨skipped, newResponderSession_of_ok rfl hdecrypt, hmoves⟩

/-- The store has one key for each position before 998, all filed at time 10. -/
theorem late_store {skipped : AgedStore (Bytes × UInt32) Bytes}
    (h : Moves lateCrypto 10 (lateMessage 998).dhPublicKey.toList lateStart 998
      (List.replicate 998 2 ++ lateStart.dr.receivingChainKey) skipped) :
    skipped.size = 998 ∧ (∀ a ts, skipped.time? a = some ts → ts = 10) ∧
      ∀ i, 998 ≤ i → i < 2 ^ 32 →
        skipped.get? (slot (lateMessage 998).dhPublicKey.toList i) = none := by
  have hempty : lateStart.dr.skippedMessageKeys = .empty := rfl
  refine ⟨?_, ?_, ?_⟩
  · have hsize := h.size_eq
      (fun i j hi hj heq => (slot_inj (by omega) (by omega) heq).2) fun i _ _ => by
        rw [hempty, AgedStore.get?_empty]
    exact hsize
  · intro a ts hts
    rcases h.time?_cases hts with hold | hnow
    · rw [hempty, AgedStore.time?_empty] at hold
      cases hold
    · exact hnow
  · intro i hi hlt
    rw [h.get?_other, hempty, AgedStore.get?_empty]
    intro j _ hj heq
    have := (slot_inj hlt (by omega) heq).2
    omega

end Session

end ConstructCore
