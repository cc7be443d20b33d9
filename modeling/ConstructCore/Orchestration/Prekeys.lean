import ConstructCore.Orchestration.Instances
import ConstructCore.Orchestration.OrchestratorRuns

/-!
# Opens that fail, and prekeys that are used

An open commits after the last step that can fail. So an open that fails leaves the manager as
it found it, and a one-time prekey leaves its pool through a receiving open exactly when the
session built on it opened.

Over a run this is an account (`step_accounted`, `run_accounted`): an id's opens, and its key if
it is still there, are paid for by the keys stored under it.
-/

namespace ConstructCore

open Bytes Op
open Trust (SenderCertificate ServerTrust)

/-! ## The two pools -/

/-- The pools of one-time prekeys. -/
inductive PrekeyPool where
  | x25519
  | kyber
deriving DecidableEq

namespace PrekeyPool

def holds (k : KeyManager) : PrekeyPool → UInt32 → Bool
  | x25519, id => k.oneTimePrekeys[id]?.isSome
  | kyber, id => k.kyberPrekeys.otpks[id]?.isSome

/-- The id names a one-time prekey in a handshake: 0 names no X25519 key, and a Kyber id below
the start a signed prekey. -/
def OneTime : PrekeyPool → UInt32 → Prop
  | x25519, id => id ≠ 0
  | kyber, id => kyberOtpkIdStart ≤ id

def namedBy (first : IncomingFirstMessage) : PrekeyPool → UInt32
  | x25519 => first.oneTimePrekeyId
  | kyber => first.kyberPrekeyId

end PrekeyPool

def LifecycleSeen.builtOn (pool : PrekeyPool) (id : UInt32) : LifecycleSeen → Bool
  | .openedAsResponder _ _ first _ => pool.namedBy first == id
  | _ => false

theorem LifecycleSeen.builtOn_of_not_open {pool : PrekeyPool} {id : UInt32} {x : LifecycleSeen}
    (h : x.isOpen = false) : x.builtOn pool id = false := by
  cases x with
  | openedAsResponder => cases h
  | _ => rfl

def LifecycleSeen.stores : PrekeyPool → UInt32 → LifecycleSeen → Bool
  | .x25519, id, .storedOneTimePrekey keyId => keyId == id
  | .kyber, id, .storedKyberOneTimePrekey keyId => keyId == id
  | _, _, _ => false

def IncomingFirstMessage.burn (first : IncomingFirstMessage) (k : KeyManager) : KeyManager :=
  ResponderOpening.burnKyber first.kyberPrekeyId
    (ResponderOpening.burnX25519 first.oneTimePrekeyId k)

namespace ResponderOpening

@[simp] theorem oneTimePrekeys_burnKyber (n : UInt32) (k : KeyManager) :
    (burnKyber n k).oneTimePrekeys = k.oneTimePrekeys := by
  unfold burnKyber
  split <;> rfl

@[simp] theorem kyberPrekeys_burnX25519 (n : UInt32) (k : KeyManager) :
    (burnX25519 n k).kyberPrekeys = k.kyberPrekeys := by
  unfold burnX25519
  split <;> rfl

theorem lookup_burnX25519 (k : KeyManager) (n : UInt32) {id : UInt32} (hid : id ≠ 0) :
    (burnX25519 n k).oneTimePrekeys[id]? = if id = n then none else k.oneTimePrekeys[id]? := by
  unfold burnX25519 KeyManager.consumeOneTimePrekey
  split
  · exact Table.lookup_erase _ _ _
  · rename_i hn
    rw [if_neg]
    rintro rfl
    exact hn hid

theorem lookup_burnKyber (k : KeyManager) (n : UInt32) {id : UInt32}
    (hid : kyberOtpkIdStart ≤ id) :
    (burnKyber n k).kyberPrekeys.otpks[id]? =
      if id = n then none else k.kyberPrekeys.otpks[id]? := by
  unfold burnKyber KyberPrekeyStore.removeOtpk
  split
  · exact Table.lookup_erase _ _ _
  · rename_i hn
    rw [if_neg]
    rintro rfl
    exact hn hid

end ResponderOpening

namespace PrekeyPool

variable {pool : PrekeyPool} {id : UInt32}

theorem holds_of_burnX25519 {n : UInt32} {k : KeyManager} (hid : pool.OneTime id)
    (h : pool.holds (ResponderOpening.burnX25519 n k) id = true) : pool.holds k id = true := by
  cases pool with
  | x25519 =>
    have h' : (ResponderOpening.burnX25519 n k).oneTimePrekeys[id]?.isSome = true := h
    rw [ResponderOpening.lookup_burnX25519 k n hid] at h'
    split at h'
    · cases h'
    · exact h'
  | kyber =>
    have h' : (ResponderOpening.burnX25519 n k).kyberPrekeys.otpks[id]?.isSome = true := h
    rwa [ResponderOpening.kyberPrekeys_burnX25519] at h'

theorem holds_burn (first : IncomingFirstMessage) (k : KeyManager) (hid : pool.OneTime id) :
    pool.holds (first.burn k) id = (pool.holds k id && pool.namedBy first != id) := by
  cases pool with
  | x25519 =>
    show (ResponderOpening.burnKyber _ _).oneTimePrekeys[id]?.isSome =
      (k.oneTimePrekeys[id]?.isSome && first.oneTimePrekeyId != id)
    rw [ResponderOpening.oneTimePrekeys_burnKyber, ResponderOpening.lookup_burnX25519 k _ hid]
    by_cases hnamed : first.oneTimePrekeyId = id
    · simp [hnamed]
    · simp [hnamed, Ne.symm hnamed]
  | kyber =>
    show (ResponderOpening.burnKyber _ _).kyberPrekeys.otpks[id]?.isSome =
      (k.kyberPrekeys.otpks[id]?.isSome && first.kyberPrekeyId != id)
    rw [ResponderOpening.lookup_burnKyber _ _ hid, ResponderOpening.kyberPrekeys_burnX25519]
    by_cases hnamed : first.kyberPrekeyId = id
    · simp [hnamed]
    · simp [hnamed, Ne.symm hnamed]

theorem holds_of_valid {S : Suite} {m : Moment} {contactId remoteIdentity : Bytes}
    {first : IncomingFirstMessage} {message : EncryptedRatchetMessage} {l : Lifecycle}
    {d : ResponderOpening}
    (hd : d.Valid S m (Lifecycle.callOf contactId remoteIdentity first message) l)
    (hid : pool.OneTime (pool.namedBy first)) :
    pool.holds l.client.keyManager (pool.namedBy first) = true := by
  cases pool with
  | x25519 =>
    have hnamed : Client.namedOneTimePrekey l.client.keyManager first.oneTimePrekeyId =
      .ok d.oneTimePrekey := hd.oneTimePrekey
    unfold Client.namedOneTimePrekey at hnamed
    rw [if_neg (by exact hid)] at hnamed
    unfold KeyManager.peekOneTimePrekey at hnamed
    show l.client.keyManager.oneTimePrekeys[first.oneTimePrekeyId]?.isSome = true
    cases hkey : l.client.keyManager.oneTimePrekeys[first.oneTimePrekeyId]? with
    | some key => rfl
    | none =>
      rw [hkey] at hnamed
      cases hnamed
  | kyber =>
    have hkem := hd.kem
    unfold Lifecycle.responderKem at hkem
    split at hkem
    · cases hkem
    · split at hkem
      · cases hkem
      · obtain ⟨prekey, hfind, -⟩ := Except.exists_of_bind_ok hkem
        have hfound := Option.okOr_eq_ok.mp hfind
        rw [KyberPrekeyStore.find, if_pos (by exact hid)] at hfound
        exact Option.isSome_of_eq_some hfound

end PrekeyPool

/-! ## The account -/

namespace KeyManager

/-- The opens built on an id, and its key if it is still there, are paid for by what was there
and what was stored. -/
def Accounted (pool : PrekeyPool) (id : UInt32) (k k' : KeyManager) (seen : List LifecycleSeen) :
    Prop :=
  seen.countP (·.builtOn pool id) + (pool.holds k' id).toNat ≤
    (pool.holds k id).toNat + seen.countP (·.stores pool id)

namespace Accounted

variable {pool : PrekeyPool} {id : UInt32} {k k₁ k₂ : KeyManager} {seen seen' : List LifecycleSeen}

theorem of_same (hk : k₁ = k) (hseen : ∀ x ∈ seen, x.builtOn pool id = false) :
    Accounted pool id k k₁ seen := by
  have hzero : seen.countP (·.builtOn pool id) = 0 :=
    List.countP_eq_zero.mpr fun x hx => by simp [hseen x hx]
  unfold Accounted
  rw [hk, hzero]
  omega

theorem refl (k : KeyManager) : Accounted pool id k k [] := of_same rfl fun _ h => (nomatch h)

theorem trans (h : Accounted pool id k k₁ seen) (h' : Accounted pool id k₁ k₂ seen') :
    Accounted pool id k k₂ (seen ++ seen') := by
  unfold Accounted at h h' ⊢
  rw [List.countP_append, List.countP_append]
  omega

theorem of_le (h : pool.holds k₁ id = true → pool.holds k id = true) :
    Accounted pool id k k₁ [] := by
  unfold Accounted
  cases h₁ : pool.holds k₁ id with
  | false => simp
  | true => simp [h h₁]

end Accounted

variable {S : Suite} {pool : PrekeyPool} {id : UInt32}

theorem generateOneTimePrekeys_accounted (draws : List Seed) (k : KeyManager) :
    Accounted pool id k (k.generateOneTimePrekeys S draws)
      ((k.generatedIds S draws).map .storedOneTimePrekey) := by
  induction draws generalizing k with
  | nil => exact .refl k
  | cons draw draws ih =>
    rw [generateOneTimePrekeys, generatedIds]
    cases S.generateKemKeys draw with
    | error e => exact .refl k
    | ok pair =>
      refine (show Accounted pool id k _ [.storedOneTimePrekey k.nextOtpkId] from ?_).trans (ih _)
      unfold Accounted
      cases pool with
      | x25519 =>
        show 0 + (((k.oneTimePrekeys.insert k.nextOtpkId pair)[id]?).isSome).toNat ≤ _
        rw [Table.lookup_insert]
        by_cases hid : id = k.nextOtpkId
        · rw [if_pos hid, hid]
          simp [LifecycleSeen.stores]
        · rw [if_neg hid]
          simp [PrekeyPool.holds]
      | kyber =>
        show 0 + (k.kyberPrekeys.otpks[id]?.isSome).toNat ≤ _
        simp [PrekeyPool.holds]

theorem afterOtpks_accounted {now : Nat} (draws : List Seed) (k : KeyManager) :
    Accounted pool id k { k with kyberPrekeys := k.kyberPrekeys.afterOtpks S now draws }
      ((k.kyberPrekeys.madeOtpks S now draws).map fun p => .storedKyberOneTimePrekey p.keyId) := by
  induction draws generalizing k with
  | nil => exact .refl k
  | cons draw draws ih =>
    rw [KyberPrekeyStore.afterOtpks, KyberPrekeyStore.madeOtpks]
    cases k.kyberPrekeys.nextOtpkId.checkedSucc with
    | none => exact .refl k
    | some next =>
      refine (show Accounted pool id k _ [.storedKyberOneTimePrekey k.kyberPrekeys.nextOtpkId]
        from ?_).trans
        (ih { k with kyberPrekeys := k.kyberPrekeys.addOtpk S now draw next })
      unfold Accounted
      cases pool with
      | x25519 =>
        show 0 + (k.oneTimePrekeys[id]?.isSome).toNat ≤ _
        simp [PrekeyPool.holds]
      | kyber =>
        show 0 + (((k.kyberPrekeys.otpks.insert k.kyberPrekeys.nextOtpkId _)[id]?).isSome).toNat
          ≤ _
        rw [Table.lookup_insert]
        by_cases hid : id = k.kyberPrekeys.nextOtpkId
        · rw [if_pos hid, hid]
          simp [LifecycleSeen.stores]
        · rw [if_neg hid]
          simp [PrekeyPool.holds]

theorem change_accounted (k : KeyManager) (c : KeyChange) :
    Accounted pool id k (k.change S c).1 (k.change S c).2 := by
  cases c with
  | generateOneTimePrekeys draws => exact generateOneTimePrekeys_accounted draws k
  | pruneOneTimePrekeysBelow minKeepId =>
    refine .of_le fun h => ?_
    cases pool with
    | x25519 => exact Table.isSome_of_filter h
    | kyber => exact h
  | generateKyberOneTimePrekeys now draws => exact afterOtpks_accounted draws k
  | pruneKyberOneTimePrekeysBelow minKeepId =>
    refine .of_le fun h => ?_
    cases pool with
    | x25519 => exact h
    | kyber => exact Table.isSome_of_filter h
  | rotateSignedPrekeys current old spk pendingSpk retiredSpks nextSpkId =>
    refine .of_le fun h => ?_
    cases pool <;> exact h

end KeyManager

namespace Lifecycle

variable {S : Suite} {F : Cfe} {pool : PrekeyPool} {id : UInt32}

theorem receive_accounted (hid : pool.OneTime id) {m : Moment} {contactId remoteIdentity : Bytes}
    {first : IncomingFirstMessage} {message : EncryptedRatchetMessage} {l : Lifecycle}
    {d : ResponderOpening} (hd : d.Valid S m (callOf contactId remoteIdentity first message) l)
    (plaintext : Bytes) :
    KeyManager.Accounted pool id l.client.keyManager (first.burn l.client.keyManager)
      [.openedAsResponder contactId remoteIdentity first plaintext] := by
  unfold KeyManager.Accounted
  rw [PrekeyPool.holds_burn first _ hid]
  by_cases hnamed : pool.namedBy first = id
  · have hheld : pool.holds l.client.keyManager id = true := by
      rw [← hnamed]
      exact PrekeyPool.holds_of_valid hd (by rw [hnamed]; exact hid)
    simp [LifecycleSeen.builtOn, hnamed, hheld]
  · have hkept : (pool.namedBy first != id) = true := bne_iff_ne.mpr hnamed
    simp [LifecycleSeen.builtOn, hnamed, hkept]

def Accounted (pool : PrekeyPool) (id : UInt32) (l l' : Lifecycle) (seen : List LifecycleSeen) :
    Prop :=
  KeyManager.Accounted pool id l.client.keyManager l'.client.keyManager seen

theorem step_accounted (S : Suite) (F : Cfe) (hid : pool.OneTime id) (l : Lifecycle)
    (e : LifecycleEvent) :
    l.Accounted pool id (l.step S F e).1 (l.step S F e).2 := by
  have hcase := step_case S F l e
  generalize l.step S F e = r at hcase
  cases hcase with
  | moved h hseen =>
    exact KeyManager.Accounted.of_same h.keyManager fun x hx =>
      LifecycleSeen.builtOn_of_not_open (hseen x hx)
  | initiator _ h =>
    exact KeyManager.Accounted.of_same (h.keyManager.trans (InitiatorOpening.keyManager_apply ..))
      (by simp [LifecycleSeen.builtOn])
  | responder hd h =>
    unfold Accounted
    rw [h.keyManager]
    exact receive_accounted hid hd _
  | unanswered =>
    -- The session could not answer: its X25519 key is burnt and nothing opened.
    unfold Accounted
    rw [keyManager_putBackHeld, ResponderOpening.keyManager_removed]
    exact KeyManager.Accounted.of_le (PrekeyPool.holds_of_burnX25519 hid)
  | @forget m contactId =>
    exact KeyManager.Accounted.of_same (keyManager_forgetContactState l m contactId) (by simp)
  | @restart m initLocks sessions previous =>
    exact KeyManager.Accounted.of_same (keyManager_restart F l m initLocks sessions previous)
      (by simp)
  | acks => exact KeyManager.Accounted.refl _
  | setMyUserId => exact KeyManager.Accounted.refl _
  | keys => exact KeyManager.change_accounted _ _

theorem run_accounted (S : Suite) (F : Cfe) (hid : pool.OneTime id) (l : Lifecycle)
    (events : List LifecycleEvent) :
    l.Accounted pool id (Machine.run (step S F) l events) (Machine.log (step S F) l events) := by
  induction events generalizing l with
  | nil => exact KeyManager.Accounted.refl _
  | cons e rest ih => exact KeyManager.Accounted.trans (step_accounted S F hid l e) (ih _)

end Lifecycle

/-! ## Opens of the orchestrator -/

namespace Orchestrator

variable {S : Suite} {F : Cfe}

/-- A receiving open of the manager's: it burns what it names, or changes nothing. -/
theorem receive_burns (hkdf : S.HkdfTotal) (m : Moment) (device identity : Bytes)
    (first : IncomingFirstMessage) (l : Lifecycle) :
    Ensures (Lifecycle.replacing m.nowSecs device
        (Lifecycle.initReceivingWithIdentity S m device identity first)) l
      (fun _ l' => l'.client.keyManager = first.burn l.client.keyManager ∧
        ∀ pool : PrekeyPool, pool.OneTime (pool.namedBy first) →
          pool.holds l.client.keyManager (pool.namedBy first) = true)
      (fun _ l' => l' = l) := by
  refine (Lifecycle.receiveWithIdentity_spec S m device identity first l).mono ?_ ?_
  · rintro plaintext l' ⟨message, d, answered, -, hd, -, -, rfl⟩
    exact ⟨(Lifecycle.retireHeld_beside ..).keyManager,
      fun pool hid => PrekeyPool.holds_of_valid hd hid⟩
  · rintro - l' (rfl | ⟨message, d, -, hd, ⟨e, s, herror⟩, rfl⟩)
    · rfl
    · -- HKDF does not fail, so the session answers
      obtain ⟨answered, hanswered⟩ := hd.answers hkdf
      rw [hanswered] at herror
      cases herror

/-- What a walk over the queue may come to: one carrier opened from the state it found, or
nothing happened. -/
def WalkEnd (S : Suite) (m : Moment) (device : Bytes) (queue : List IncomingMessage)
    (l : Lifecycle) : Option (IncomingMessage × Bytes) → Lifecycle → Prop
  | none, l' => l' = l
  | some (carrier, plaintext), l' => carrier ∈ queue ∧ ∃ identity first,
      handshakeOf carrier = some first ∧
      Lifecycle.replacing m.nowSecs device
        (Lifecycle.initReceivingWithIdentity S m device identity first) l = .ok plaintext l'

theorem WalkEnd.cons {m : Moment} {device : Bytes} {carrier : IncomingMessage}
    {rest : List IncomingMessage} {l l' : Lifecycle} {opened : Option (IncomingMessage × Bytes)}
    (h : WalkEnd S m device rest l opened l') : WalkEnd S m device (carrier :: rest) l opened l' := by
  cases opened with
  | none => exact h
  | some p => exact ⟨List.mem_cons_of_mem _ h.1, h.2⟩

theorem openLoop_end (hkdf : S.HkdfTotal) (m : Moment) (trust : ServerTrust) (device : Bytes)
    (queue : List IncomingMessage) (a : Attempts) (l : Lifecycle) :
    WalkEnd S m device queue l (openLoop S m trust device queue a l).1
      (openLoop S m trust device queue a l).2.2 := by
  induction queue generalizing a with
  | nil => rfl
  | cons carrier rest ih =>
    rw [openLoop]
    cases hcarrier : handshakeOf carrier with
    | none => exact (ih a).cons
    | some first =>
      dsimp only
      split
      · exact (ih _).cons
      · exact (ih _).cons
      · exact (ih _).cons
      · rename_i identity _
        split
        · exact (ih _).cons
        · have hspec := receive_burns hkdf m device identity first l
          cases hrun : Lifecycle.replacing m.nowSecs device
              (Lifecycle.initReceivingWithIdentity S m device identity first) l with
          | ok plaintext l' => exact ⟨List.mem_cons_self, identity, first, hcarrier, hrun⟩
          | error e l' =>
            -- a refused carrier leaves the state to the next one
            obtain rfl := hspec.of_error hrun
            exact (ih _).cons

theorem reopenSessionWithBundle_error (m : Moment) (contactId : Bytes)
    (bundle : X3DHPublicKeyBundle) (kyber : KyberBundleKeys) (allowStale : Bool)
    (o : Orchestrator) :
    Ensures (reopenSessionWithBundle S m contactId bundle kyber allowStale) o (fun _ _ => True)
      (fun _ o' => o' = o.endOpening contactId) := by
  have hspec := Lifecycle.reopenWithBundle_spec S m contactId bundle kyber allowStale o.lifecycle
  unfold Ensures
  rw [reopenSessionWithBundle]
  cases hrun : Lifecycle.replacing m.nowSecs contactId
      (Lifecycle.initSessionWithBundle S m contactId bundle kyber allowStale) o.lifecycle with
  | ok id l => trivial
  | error e l =>
    have hsame : l = o.lifecycle := hspec.of_error hrun
    rw [hsame]

/-- A receiving open on a certificate burns what it names, or changes nothing. -/
theorem receivingFromCertificate_burns (hkdf : S.HkdfTotal) (m : Moment)
    (certificate : SenderCertificate) (wirePayload : Bytes) (o : Orchestrator) :
    Ensures (receivingFromCertificate S m certificate wirePayload) o
      (fun _ o' => ∃ first, IncomingFirstMessage.fromWirePayload wirePayload = .ok first ∧
        o'.lifecycle.client.keyManager = first.burn o.lifecycle.client.keyManager ∧
        ∀ pool : PrekeyPool, pool.OneTime (pool.namedBy first) →
          pool.holds o.lifecycle.client.keyManager (pool.namedBy first) = true)
      (fun _ o' => o' = o) := by
  simp only [receivingFromCertificate, ensures_bind, ensures_get, ensures_ofExcept, ensures_zoom,
    ensures_pure]
  refine ⟨fun identity hidentity => ⟨fun first hfirst => ?_, fun _ _ => trivial⟩,
    fun _ _ => trivial⟩
  refine (receive_burns hkdf m certificate.deviceId identity first o.lifecycle).mono ?_ ?_
  · rintro - l' ⟨hburn, hheld⟩
    exact ⟨first, hfirst, hburn, hheld⟩
  · rintro - l' rfl
    rfl

/-- Nothing opened: the opening mark ends, the queue may go, and what goes with it is marked as
processed. -/
theorem openReceiving_none (hkdf : S.HkdfTotal) (m : Moment) (envs : Nat → Env) (o : Orchestrator)
    (device : Bytes) (h : (openReceiving S F m envs o device).1.openedDevice = none) :
    ∃ router ackStore, (openReceiving S F m envs o device).2 =
      { o.endOpening device with
        router := router
        lifecycle := { o.lifecycle with ackStore := ackStore } } := by
  have hend := openLoop_end hkdf m o.serverTrust device (o.router.queue device) .none o.lifecycle
  unfold openReceiving at h ⊢
  revert h hend
  cases openLoop S m o.serverTrust device (o.router.queue device) .none o.lifecycle with
  | mk opened r =>
    intro h hend
    cases opened with
    | some p => cases h
    | none =>
      have hsame : r.2 = o.lifecycle := hend
      dsimp only
      rw [hsame]
      unfold receivingGivenUp
      dsimp only
      split
      · exact ⟨o.router, o.lifecycle.ackStore, rfl⟩
      · exact ⟨_, _, rfl⟩

/-- Opens built on an id are all shown, also where messages read are not. -/
theorem countP_builtOn_unread (pool : PrekeyPool) (id : UInt32) (seen : List LifecycleSeen) :
    (unread seen).countP (·.builtOn pool id) = seen.countP (·.builtOn pool id) := by
  unfold unread
  rw [List.countP_filter]
  refine List.countP_congr fun x _ => ?_
  cases x <;> simp [LifecycleSeen.builtOn, LifecycleSeen.isRead]

theorem countP_stores_unread (pool : PrekeyPool) (id : UInt32) (seen : List LifecycleSeen) :
    (unread seen).countP (·.stores pool id) = seen.countP (·.stores pool id) := by
  unfold unread
  rw [List.countP_filter]
  refine List.countP_congr fun x _ => ?_
  cases pool <;> cases x <;> simp [LifecycleSeen.stores, LifecycleSeen.isRead]

/-- Over a run of the orchestrator, an id's opens are paid for by the keys stored under it. -/
theorem run_paid {pool : PrekeyPool} {id : UInt32} (hid : pool.OneTime id) (o : Orchestrator)
    (events : List OrchestratorEvent) :
    KeyManager.Accounted pool id o.lifecycle.client.keyManager
      (Machine.run (step S F) o events).lifecycle.client.keyManager
      (Machine.log (step S F) o events) := by
  obtain ⟨inner, -, hrun, -, hunread⟩ := run_simulated S F o events
  have h := Lifecycle.run_accounted S F hid o.lifecycle inner
  unfold Lifecycle.Accounted KeyManager.Accounted at h
  unfold KeyManager.Accounted
  rw [hrun, ← countP_builtOn_unread, ← countP_stores_unread, ← hunread] at h
  rw [← countP_builtOn_unread, ← countP_stores_unread]
  exact h

/-- **A failed open leaves nothing behind, and one-time prekeys are one-time.** A reopen that
fails ends the opening mark alone; a receiving open that fails, from a certificate or as an
attempt of a walk over the queue, changes nothing, and a walk that opened nothing changes the
queue, the opening mark and the marks of what was processed alone. A receiving open that opened
burns exactly the one-time prekeys its first message names, which were there. So over every run
and for every one-time id, the sessions built on it and the key still there are at most the key
there at the start and the keys stored under the id. -/
theorem opens_all_or_nothing (S : Suite) (F : Cfe) (hkdf : S.HkdfTotal) (o : Orchestrator) :
    (∀ m contactId bundle kyber allowStale,
      Ensures (reopenSessionWithBundle S m contactId bundle kyber allowStale) o (fun _ _ => True)
        (fun _ o' => o' = o.endOpening contactId)) ∧
    (∀ m certificate wirePayload,
      Ensures (receivingFromCertificate S m certificate wirePayload) o
        (fun _ o' => ∃ first, IncomingFirstMessage.fromWirePayload wirePayload = .ok first ∧
          o'.lifecycle.client.keyManager = first.burn o.lifecycle.client.keyManager ∧
          ∀ pool : PrekeyPool, pool.OneTime (pool.namedBy first) →
            pool.holds o.lifecycle.client.keyManager (pool.namedBy first) = true)
        (fun _ o' => o' = o)) ∧
    (∀ m device identity first,
      Ensures (Lifecycle.replacing m.nowSecs device
          (Lifecycle.initReceivingWithIdentity S m device identity first)) o.lifecycle
        (fun _ l' => l'.client.keyManager = first.burn o.lifecycle.client.keyManager ∧
          ∀ pool : PrekeyPool, pool.OneTime (pool.namedBy first) →
            pool.holds o.lifecycle.client.keyManager (pool.namedBy first) = true)
        (fun _ l' => l' = o.lifecycle)) ∧
    (∀ m device a, WalkEnd S m device (o.router.queue device) o.lifecycle
      (openLoop S m o.serverTrust device (o.router.queue device) a o.lifecycle).1
      (openLoop S m o.serverTrust device (o.router.queue device) a o.lifecycle).2.2) ∧
    (∀ m envs device, (openReceiving S F m envs o device).1.openedDevice = none →
      ∃ router ackStore, (openReceiving S F m envs o device).2 =
        { o.endOpening device with
          router := router
          lifecycle := { o.lifecycle with ackStore := ackStore } }) ∧
    (∀ (pool : PrekeyPool) first k id, pool.OneTime id →
      pool.holds (IncomingFirstMessage.burn first k) id =
        (pool.holds k id && pool.namedBy first != id)) ∧
    ∀ (pool : PrekeyPool) id events, pool.OneTime id →
      let o' := Machine.run (step S F) o events
      let seen := Machine.log (step S F) o events
      seen.countP (·.builtOn pool id) + (pool.holds o'.lifecycle.client.keyManager id).toNat ≤
        (pool.holds o.lifecycle.client.keyManager id).toNat + seen.countP (·.stores pool id) := by
  refine ⟨?_, ?_, ?_, ?_, ?_, ?_, ?_⟩
  · exact fun m contactId bundle kyber allowStale =>
      reopenSessionWithBundle_error m contactId bundle kyber allowStale o
  · exact fun m certificate wirePayload =>
      receivingFromCertificate_burns hkdf m certificate wirePayload o
  · exact fun m device identity first => receive_burns hkdf m device identity first o.lifecycle
  · exact fun m device a => openLoop_end hkdf m o.serverTrust device _ a o.lifecycle
  · exact fun m envs device h => openReceiving_none hkdf m envs o device h
  · exact fun pool first k id hid => PrekeyPool.holds_burn first k hid
  · exact fun pool id events hid => run_paid hid o events

def sampleOneTimeBundle : X3DHPublicKeyBundle :=
  { sampleBundle 20 with
    oneTimePrekeyPublic := some (leBytes 32 7)
    oneTimePrekeyId := some 1 }

def sampleBurning : List OrchestratorEvent :=
  [.keys (.generateOneTimePrekeys [7]),
    .receivingFromCertificate sampleMoment (sampleCertificate 1) (sampleOpener sampleOneTimeBundle),
    .receivingFromCertificate sampleMoment (sampleCertificate 1) (sampleOpener sampleOneTimeBundle)]

/-- It opens one session. -/
theorem opens_all_or_nothing_sample :
    let F := codeBook [] []
    let seen := Machine.log (step sizedSuite F) (sampleNew 20) sampleBurning
    (seen.countP (·.builtOn .x25519 1) = 1 ∧ seen.countP (·.stores .x25519 1) = 1) ∧
      seen.countP (·.builtOn .x25519 1) + (PrekeyPool.holds (Machine.run (step sizedSuite F)
          (sampleNew 20) sampleBurning).lifecycle.client.keyManager .x25519 1).toNat ≤
        (PrekeyPool.holds (sampleNew 20).lifecycle.client.keyManager .x25519 1).toNat +
          seen.countP (·.stores .x25519 1) :=
  ⟨by decide +kernel,
    (opens_all_or_nothing sizedSuite (codeBook [] []) sizedCrypto_hkdfTotal
      (sampleNew 20)).2.2.2.2.2.2 .x25519 1 sampleBurning (by unfold PrekeyPool.OneTime; decide)⟩

end Orchestrator

end ConstructCore
