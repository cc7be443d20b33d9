import ConstructCore.Orchestration.OpenSpec

/-!
# Runs of the session manager

The manager as a machine. Its events are the calls that change it, each with the clock and the
draws it finds; a failing call leaves the state it reached. The log shows the sessions that
opened, the messages written and read, and the one-time prekeys stored.

`decryptRatchetMessage_eq` and `decryptOnPrevious_eq` write `decrypt_ratchet_message` without
its state monad. The other lemmas say what each move of a state changes and what it leaves:
every move goes through `setCurrent`, `setPrevious` and the envelope book. `step_case` says what
one event can do.
-/

namespace ConstructCore

open Bytes Op

/-! ## Events -/

/-- A change of the long-term keys. -/
inductive KeyChange where
  | generateOneTimePrekeys (draws : List Seed)
  | pruneOneTimePrekeysBelow (minKeepId : UInt32)
  | generateKyberOneTimePrekeys (now : Nat) (draws : List Seed)
  | pruneKyberOneTimePrekeysBelow (minKeepId : UInt32)
  /-- A rotation of the signed prekeys, to whatever it makes of them. -/
  | rotateSignedPrekeys (current : Option PrekeyStore) (old : Table UInt32 PrekeyStore)
      (spk pendingSpk : Option KyberPrekey) (retiredSpks : List RetiredSpk) (nextSpkId : UInt32)

/-- What can happen to the manager. -/
inductive LifecycleEvent where
  | initSession (m : Moment) (contactId : Bytes) (bundle : X3DHPublicKeyBundle)
      (kyber : KyberBundleKeys) (allowStale : Bool)
  | reopen (m : Moment) (contactId : Bytes) (bundle : X3DHPublicKeyBundle)
      (kyber : KyberBundleKeys) (allowStale : Bool)
  | receive (m : Moment) (contactId remoteIdentity : Bytes) (first : IncomingFirstMessage)
  | encrypt (m : Moment) (contactId plaintext : Bytes)
  | decrypt (m : Moment) (contactId : Bytes) (message : EncryptedRatchetMessage)
  | retire (m : Moment) (contactId : Bytes)
  | forget (m : Moment) (contactId : Bytes)
  /-- The device's record, exported and imported. -/
  | reload (m : Moment) (contactId : Bytes)
  /-- A record of the platform's. -/
  | importSession (m : Moment) (contactId data : Bytes)
  /-- A new process with the same keys: it imports the state exported now, and the platform gives
  it back the sessions it has stored. -/
  | restart (m : Moment) (initLocks : List Bytes) (sessions : Table Bytes Session)
      (previous : Table Bytes (List PreviousState))
  | acks (ackStore : AckStore)
  | setMyUserId (userId : Bytes)
  | keys (change : KeyChange)

/-- The kinds of events. -/
inductive EventKind where
  /-- What the protocol does: opens, sends, decrypts, retirements and changes of the keys. -/
  | protocol
  | forget
  | reload
  | importSession
  | restart
  | setMyUserId
deriving DecidableEq

def LifecycleEvent.kind : LifecycleEvent → EventKind
  | .forget .. => .forget
  | .reload .. => .reload
  | .importSession .. => .importSession
  | .restart .. => .restart
  | .setMyUserId .. => .setMyUserId
  | _ => .protocol

/-- What the log of a run shows. -/
inductive LifecycleSeen where
  | openedAsInitiator (contactId : Bytes) (bundle : X3DHPublicKeyBundle) (kyber : KyberBundleKeys)
  | openedAsResponder (contactId remoteIdentity : Bytes) (first : IncomingFirstMessage)
      (plaintext : Bytes)
  | sent (contactId : Bytes) (message : EncryptedRatchetMessage)
  | decrypted (contactId : Bytes) (message : EncryptedRatchetMessage) (plaintext : Bytes)
  | storedOneTimePrekey (keyId : UInt32)
  | storedKyberOneTimePrekey (keyId : UInt32)
deriving DecidableEq

def LifecycleSeen.isOpen : LifecycleSeen → Bool
  | .openedAsInitiator .. | .openedAsResponder .. => true
  | _ => false

/-- The state a call left, with what the log shows of a call that returned. -/
def logged {ε σ α ο : Type} (f : α → List ο) : EStateM.Result ε σ α → σ × List ο
  | .ok a s => (s, f a)
  | .error _ s => (s, [])

theorem logged_rule {ε σ α ο : Type} {f : α → List ο} {x : Op ε σ α} {s : σ}
    {Q : α → σ → Prop} {E : ε → σ → Prop} {P : σ × List ο → Prop} (h : Ensures x s Q E)
    (hQ : ∀ a t, Q a t → P (t, f a)) (hE : ∀ e t, E e t → P (t, [])) : P (logged f (x s)) := by
  cases hx : x s with
  | ok a t => exact hQ a t (h.of_ok hx)
  | error e t => exact hE e t (h.of_error hx)

namespace KeyManager

/-- The ids `generate_one_time_prekeys` stores keys under. -/
def generatedIds (S : Suite) : List Seed → KeyManager → List UInt32
  | [], _ => []
  | draw :: draws, k =>
    match S.generateKemKeys draw with
    | .error _ => []
    | .ok pair => k.nextOtpkId :: generatedIds S draws
        { k with
          oneTimePrekeys := k.oneTimePrekeys.insert k.nextOtpkId pair
          nextOtpkId := k.nextOtpkId + 1 }

/-- A change of the keys; what the log shows of it. A Kyber batch that runs out of ids keeps the
keys it made. -/
def change (S : Suite) (k : KeyManager) : KeyChange → KeyManager × List LifecycleSeen
  | .generateOneTimePrekeys draws =>
    (k.generateOneTimePrekeys S draws, (k.generatedIds S draws).map .storedOneTimePrekey)
  | .pruneOneTimePrekeysBelow minKeepId => (k.pruneOneTimePrekeysBelow minKeepId, [])
  | .generateKyberOneTimePrekeys now draws =>
    ({ k with kyberPrekeys := k.kyberPrekeys.afterOtpks S now draws },
      (k.kyberPrekeys.madeOtpks S now draws).map fun p => .storedKyberOneTimePrekey p.keyId)
  | .pruneKyberOneTimePrekeysBelow minKeepId =>
    ({ k with kyberPrekeys := k.kyberPrekeys.pruneOtpksBelow minKeepId }, [])
  | .rotateSignedPrekeys current old spk pendingSpk retiredSpks nextSpkId =>
    ({ k with
      currentSignedPrekey := current
      oldPrekeys := old
      kyberPrekeys := { k.kyberPrekeys with spk, pendingSpk, retiredSpks, nextSpkId } }, [])

end KeyManager

/-- An operation on the current session runs on it and puts it back, if there is one. -/
theorem Client.onSession_spec {α : Type} (contactId : Bytes) (x : Op RatchetError Session α)
    (c : Client) :
    Ensures (onSession contactId x) c
      (fun a c' => ∃ s s', c.sessions[contactId]? = some s ∧ x s = .ok a s' ∧
        c' = c.putBackSession contactId s')
      (fun _ c' => c' = c ∨ ∃ s s' e, c.sessions[contactId]? = some s ∧ x s = .error e s' ∧
        c' = c.putBackSession contactId s') := by
  unfold Ensures
  rw [onSession]
  cases c.ensureLocalUserIdSet with
  | error e => exact .inl rfl
  | ok u =>
    cases hs : c.sessions[contactId]? with
    | none => exact .inl rfl
    | some s =>
      dsimp only
      cases hrun : x s with
      | ok a s' => exact ⟨s, s', rfl, hrun, rfl⟩
      | error e s' => exact .inr ⟨s, s', e, rfl, hrun, rfl⟩

theorem LifecycleError.isConsumed_localUserIdNotSet :
    LifecycleError.localUserIdNotSet.isConsumed = false := by
  decide +kernel

namespace Lifecycle

def reload (F : Cfe) (m : Moment) (l : Lifecycle) (contactId : Bytes) : Lifecycle :=
  match l.exportSessionBytesFor F contactId with
  | .error _ => l
  | .ok bytes =>
    match importSessionBytes F m contactId bytes l with
    | .ok () l => l
    | .error _ l => l

def newProcess (l : Lifecycle) (sessions : Table Bytes Session)
    (previous : Table Bytes (List PreviousState)) : Lifecycle :=
  { new (.new l.client.keyManager) l.myUserId with
    client := { Client.new l.client.keyManager with
      sessions := sessions, localUserId := l.myUserId }
    previous := previous }

def restart (F : Cfe) (m : Moment) (l : Lifecycle) (initLocks : List Bytes)
    (sessions : Table Bytes Session) (previous : Table Bytes (List PreviousState)) : Lifecycle :=
  match l.exportOrchestratorStateCfe F initLocks with
  | .error _ => l
  | .ok bytes =>
    match importOrchestratorStateCfe F m bytes (l.newProcess sessions previous) with
    | .ok _ l => l
    | .error _ _ => l

def step (S : Suite) (F : Cfe) (l : Lifecycle) : LifecycleEvent → Lifecycle × List LifecycleSeen
  | .initSession m contactId bundle kyber allowStale =>
    logged (fun _ => [.openedAsInitiator contactId bundle kyber])
      (initSessionWithBundle S m contactId bundle kyber allowStale l)
  | .reopen m contactId bundle kyber allowStale =>
    logged (fun _ => [.openedAsInitiator contactId bundle kyber])
      (reopenWithBundle S m contactId bundle kyber allowStale l)
  | .receive m contactId remoteIdentity first =>
    logged (fun plaintext => [.openedAsResponder contactId remoteIdentity first plaintext])
      (receiveWithIdentity S m contactId remoteIdentity first l)
  | .encrypt m contactId plaintext =>
    logged (fun message => [.sent contactId message])
      (onClient (Client.encryptMessage S m.env contactId plaintext) l)
  | .decrypt m contactId message =>
    logged (fun plaintext => [.decrypted contactId message plaintext])
      (decryptRatchetMessage S m contactId message l)
  | .retire m contactId => ((l.retireCurrent m.nowSecs contactId).2, [])
  | .forget m contactId => (l.forgetContactState m contactId, [])
  | .reload m contactId => (l.reload F m contactId, [])
  | .importSession m contactId data =>
    logged (fun _ => []) (importSessionBytes F m contactId data l)
  | .restart m initLocks sessions previous => (l.restart F m initLocks sessions previous, [])
  | .acks ackStore => ({ l with ackStore := ackStore }, [])
  | .setMyUserId userId => (l.setMyUserId userId, [])
  | .keys change =>
    let (k, seen) := l.client.keyManager.change S change
    (l.mapKeys fun _ => k, seen)

/-! ## Named moves -/

def setCurrent (l : Lifecycle) (contactId : Bytes) (s : Session) : Lifecycle :=
  l.mapClient (·.putBackSession contactId s)

def setPrevious (l : Lifecycle) (contactId : Bytes) (states : List PreviousState) : Lifecycle :=
  { l with previous := l.previous.insert contactId states }

theorem retire_eq (l : Lifecycle) (now : Nat) (contactId : Bytes) (session : Session) :
    l.retire now contactId session =
      (l.setPrevious contactId ({ session, retiredAt := now, heldBack := false } ::
        l.previousStates contactId)).prunePrevious now contactId := rfl

/-! ## `decrypt_ratchet_message` without its monad -/

theorem decryptOnPrevious_eq (S : Suite) (m : Moment) (contactId : Bytes)
    (msg : EncryptedRatchetMessage) (secret : Option Bytes) (e : LifecycleError) (l : Lifecycle) :
    decryptOnPrevious S m contactId msg secret e l =
      let pruned := l.prunePrevious m.nowSecs contactId
      match pruned.previous[contactId]? with
      | none => .error e pruned
      | some states =>
        match tryPrevious S m.env msg secret states with
        | .consumed states e => .error (.ratchet e) (pruned.setPrevious contactId states)
        | .unread states => .error e (pruned.setPrevious contactId states)
        | .decrypted before state after plaintext =>
          if state.heldBack then
            .ok plaintext (pruned.setPrevious contactId (before ++ state :: after))
          else
            .ok plaintext (((pruned.setPrevious contactId (before ++ after)).installCurrent
              m.nowSecs contactId state.session).closeFirstFlights contactId) := by
  unfold decryptOnPrevious
  show (match (l.prunePrevious m.nowSecs contactId).previous[contactId]? with
    | none => throw e
    | some states => _ : Op LifecycleError Lifecycle Bytes) (l.prunePrevious m.nowSecs contactId) = _
  dsimp only
  cases (l.prunePrevious m.nowSecs contactId).previous[contactId]? with
  | none => rfl
  | some states =>
    dsimp only
    cases tryPrevious S m.env msg secret states with
    | consumed states e => rfl
    | unread states => rfl
    | decrypted before state after plaintext =>
      dsimp only
      cases state.heldBack <;> rfl

theorem decryptRatchetMessage_eq (S : Suite) (m : Moment) (contactId : Bytes)
    (msg : EncryptedRatchetMessage) (l : Lifecycle) :
    decryptRatchetMessage S m contactId msg l =
      match l.identityAnswerSecret S msg with
      | .error e => .error e l
      | .ok secret =>
        match l.current contactId with
        | none => decryptOnPrevious S m contactId msg secret (.noActiveSession contactId) l
        | some s =>
          if l.client.localUserId = [] then
            decryptOnPrevious S m contactId msg secret .localUserIdNotSet l
          else
            match Session.decryptWithIdentitySecret S.toCrypto m.env msg secret s with
            | .ok plaintext s' =>
              .ok plaintext ((l.setCurrent contactId s').closeFirstFlights contactId)
            | .error e s' =>
              if (LifecycleError.ratchet e).isConsumed then
                .error (.ratchet e) (l.setCurrent contactId s')
              else
                decryptOnPrevious S m contactId msg secret (.ratchet e)
                  (l.setCurrent contactId s') := by
  unfold decryptRatchetMessage
  cases hsecret : l.identityAnswerSecret S msg with
  | error e =>
    show (Op.ofExcept id (l.identityAnswerSecret S msg) >>= _ : Op LifecycleError Lifecycle Bytes)
      l = _
    rw [hsecret]
    rfl
  | ok secret =>
    show (Op.ofExcept id (l.identityAnswerSecret S msg) >>= _ : Op LifecycleError Lifecycle Bytes)
      l = _
    rw [hsecret]
    show (match l.current contactId with
      | none => _
      | some _ => _ : Op LifecycleError Lifecycle Bytes) l = _
    cases hs : l.current contactId with
    | none => rfl
    | some s =>
      have hs' : l.client.sessions[contactId]? = some s := hs
      dsimp only
      unfold Client.decryptMessageWithIdentitySecret Client.onSession Client.ensureLocalUserIdSet
      by_cases huser : l.client.localUserId = []
      · simp only [huser, if_true, LifecycleError.isConsumed_localUserIdNotSet]
        rfl
      · simp only [huser, if_false, hs']
        cases Session.decryptWithIdentitySecret S.toCrypto m.env msg secret s with
        | ok plaintext s' => rfl
        | error e s' =>
          dsimp only
          cases (LifecycleError.ratchet e).isConsumed <;> rfl

/-! ## What moving sessions leaves alone -/

/-- The two managers differ in sessions, previous states and the envelope book alone. -/
structure SameBeside (l l' : Lifecycle) : Prop where
  keyManager : l'.client.keyManager = l.client.keyManager
  localUserId : l'.client.localUserId = l.client.localUserId
  hybridIdentityPins : l'.hybridIdentityPins = l.hybridIdentityPins
  kemIdentityPins : l'.kemIdentityPins = l.kemIdentityPins
  spkEpochs : l'.spkEpochs = l.spkEpochs
  ackStore : l'.ackStore = l.ackStore
  myUserId : l'.myUserId = l.myUserId

namespace SameBeside

theorem refl (l : Lifecycle) : SameBeside l l := ⟨rfl, rfl, rfl, rfl, rfl, rfl, rfl⟩

theorem trans {l₁ l₂ l₃ : Lifecycle} (h : SameBeside l₁ l₂) (h' : SameBeside l₂ l₃) :
    SameBeside l₁ l₃ where
  keyManager := h'.keyManager.trans h.keyManager
  localUserId := h'.localUserId.trans h.localUserId
  hybridIdentityPins := h'.hybridIdentityPins.trans h.hybridIdentityPins
  kemIdentityPins := h'.kemIdentityPins.trans h.kemIdentityPins
  spkEpochs := h'.spkEpochs.trans h.spkEpochs
  ackStore := h'.ackStore.trans h.ackStore
  myUserId := h'.myUserId.trans h.myUserId

end SameBeside

theorem setCurrent_beside (l : Lifecycle) (contactId : Bytes) (s : Session) :
    SameBeside l (l.setCurrent contactId s) := ⟨rfl, rfl, rfl, rfl, rfl, rfl, rfl⟩

theorem setPrevious_beside (l : Lifecycle) (contactId : Bytes) (states : List PreviousState) :
    SameBeside l (l.setPrevious contactId states) := ⟨rfl, rfl, rfl, rfl, rfl, rfl, rfl⟩

theorem prunePrevious_beside (l : Lifecycle) (now : Nat) (contactId : Bytes) :
    SameBeside l (l.prunePrevious now contactId) := by
  unfold prunePrevious
  split
  · exact .refl l
  · exact ⟨rfl, rfl, rfl, rfl, rfl, rfl, rfl⟩

theorem retire_beside (l : Lifecycle) (now : Nat) (contactId : Bytes) (session : Session) :
    SameBeside l (l.retire now contactId session) := by
  rw [retire_eq]
  exact (setPrevious_beside l contactId _).trans (prunePrevious_beside _ now contactId)

theorem retireHeld_beside (l : Lifecycle) (now : Nat) (contactId : Bytes) (held : Option Session) :
    SameBeside l (l.retireHeld now contactId held) := by
  cases held with
  | none => exact .refl l
  | some session => exact retire_beside l now contactId session

theorem installCurrent_beside (l : Lifecycle) (now : Nat) (contactId : Bytes) (session : Session) :
    SameBeside l (l.installCurrent now contactId session) := by
  unfold installCurrent
  cases l.current contactId with
  | none => exact ⟨rfl, rfl, rfl, rfl, rfl, rfl, rfl⟩
  | some replaced =>
    have h := retire_beside { l with client := l.client.dropSession contactId } now contactId
      replaced
    exact ⟨h.1, h.2, h.3, h.4, h.5, h.6, h.7⟩

theorem closeFirstFlights_beside (l : Lifecycle) (contactId : Bytes) :
    SameBeside l (l.closeFirstFlights contactId) := by
  unfold closeFirstFlights
  split
  · exact .refl l
  · split
    · exact .refl l
    · exact ⟨rfl, rfl, rfl, rfl, rfl, rfl, rfl⟩

theorem retireCurrent_beside (l : Lifecycle) (now : Nat) (contactId : Bytes) :
    SameBeside l (l.retireCurrent now contactId).2 := by
  unfold retireCurrent
  cases l.current contactId with
  | none => exact .refl l
  | some session =>
    have h := retire_beside { l with client := l.client.dropSession contactId } now contactId
      session
    exact ⟨h.1, h.2, h.3, h.4, h.5, h.6, h.7⟩

theorem encryptMessage_spec (S : Suite) (env : Env) (contactId plaintext : Bytes) (l : Lifecycle) :
    Ensures (onClient (Client.encryptMessage S env contactId plaintext)) l
      (fun message l' => ∃ s s', l.current contactId = some s ∧
        Session.encrypt S.toCrypto env plaintext s = .ok message s' ∧
        l' = l.setCurrent contactId s')
      (fun _ l' => l' = l ∨ ∃ s s' e, l.current contactId = some s ∧
        Session.encrypt S.toCrypto env plaintext s = .error e s' ∧
        l' = l.setCurrent contactId s') := by
  simp only [onClient, ensures_zoom]
  refine (Client.onSession_spec contactId (Session.encrypt S.toCrypto env plaintext)
    l.client).mono ?_ ?_
  · rintro message c' ⟨s, s', hs, hrun, rfl⟩
    exact ⟨s, s', hs, hrun, rfl⟩
  · rintro - c' (rfl | ⟨s, s', e, hs, hrun, rfl⟩)
    · exact .inl rfl
    · exact .inr ⟨s, s', e, hs, hrun, rfl⟩

theorem decryptOnPrevious_beside (S : Suite) (m : Moment) (contactId : Bytes)
    (msg : EncryptedRatchetMessage) (secret : Option Bytes) (e : LifecycleError) (l : Lifecycle) :
    Ensures (decryptOnPrevious S m contactId msg secret e) l (fun _ l' => SameBeside l l')
      (fun _ l' => SameBeside l l') := by
  have hprune := prunePrevious_beside l m.nowSecs contactId
  unfold Ensures
  rw [decryptOnPrevious_eq]
  dsimp only
  cases (l.prunePrevious m.nowSecs contactId).previous[contactId]? with
  | none => exact hprune
  | some states =>
    dsimp only
    cases tryPrevious S m.env msg secret states with
    | consumed states e => exact hprune.trans (setPrevious_beside _ contactId states)
    | unread states => exact hprune.trans (setPrevious_beside _ contactId states)
    | decrypted before state after plaintext =>
      dsimp only
      cases state.heldBack with
      | true => exact hprune.trans (setPrevious_beside _ contactId _)
      | false =>
        exact ((hprune.trans (setPrevious_beside _ contactId _)).trans
          (installCurrent_beside _ m.nowSecs contactId state.session)).trans
          (closeFirstFlights_beside _ contactId)

theorem decryptRatchetMessage_beside (S : Suite) (m : Moment) (contactId : Bytes)
    (msg : EncryptedRatchetMessage) (l : Lifecycle) :
    Ensures (decryptRatchetMessage S m contactId msg) l (fun _ l' => SameBeside l l')
      (fun _ l' => SameBeside l l') := by
  unfold Ensures
  rw [decryptRatchetMessage_eq]
  cases l.identityAnswerSecret S msg with
  | error e => exact .refl l
  | ok secret =>
    dsimp only
    cases l.current contactId with
    | none => exact decryptOnPrevious_beside S m contactId msg secret _ l
    | some s =>
      dsimp only
      by_cases huser : l.client.localUserId = []
      · rw [if_pos huser]
        exact decryptOnPrevious_beside S m contactId msg secret _ l
      · rw [if_neg huser]
        cases Session.decryptWithIdentitySecret S.toCrypto m.env msg secret s with
        | ok plaintext s' =>
          exact (setCurrent_beside l contactId s').trans (closeFirstFlights_beside _ contactId)
        | error e s' =>
          dsimp only
          by_cases hconsumed : (LifecycleError.ratchet e).isConsumed = true
          · rw [if_pos hconsumed]
            exact setCurrent_beside l contactId s'
          · rw [if_neg hconsumed]
            refine (decryptOnPrevious_beside S m contactId msg secret _
              (l.setCurrent contactId s')).mono ?_ ?_
            · exact fun _ _ h => (setCurrent_beside l contactId s').trans h
            · exact fun _ _ h => (setCurrent_beside l contactId s').trans h

theorem importSessionBytes_spec (F : Cfe) (m : Moment) (contactId data : Bytes) (l : Lifecycle) :
    Ensures (importSessionBytes F m contactId data) l
      (fun _ l' => ∃ top previous retired states session,
        decodeRecord F data = .ok (top, previous, retired) ∧
        verifyIdentity top contactId l.client.localUserId = .ok () ∧
        l.importPrevious m.env.now contactId previous = .ok states ∧
        l.importTop m.env.now top = .ok session ∧
        l' = l.installRecord m.nowSecs contactId session states retired)
      (fun _ l' => l' = l) := by
  simp only [importSessionBytes, ensures_bind, ensures_get, ensures_ofExcept, ensures_set]
  refine ⟨fun r hr => ⟨fun u hu => ⟨fun states hstates => ⟨fun session hsession => ?_,
    fun _ _ => trivial⟩, fun _ _ => trivial⟩, fun _ _ => trivial⟩, fun _ _ => trivial⟩
  exact ⟨r.1, r.2.1, r.2.2, states, session, hr, hu, hstates, hsession, rfl⟩

theorem installRecord_beside (l : Lifecycle) (now : Nat) (contactId : Bytes) (top : Session)
    (states : List PreviousState) (retired : Option CfeRetiredMarkV1) :
    SameBeside l (l.installRecord now contactId top states retired) := by
  unfold installRecord
  dsimp only
  have hclient : ∀ previous, SameBeside l
      { l with
        client := if retired.isSome then l.client.dropSession contactId
          else l.client.putBackSession contactId top
        previous := previous } := by
    intro previous
    split
    · exact ⟨rfl, rfl, rfl, rfl, rfl, rfl, rfl⟩
    · exact ⟨rfl, rfl, rfl, rfl, rfl, rfl, rfl⟩
  split
  · exact hclient _
  · exact (hclient _).trans (prunePrevious_beside _ now contactId)

theorem importSessionBytes_beside (F : Cfe) (m : Moment) (contactId data : Bytes) (l : Lifecycle) :
    Ensures (importSessionBytes F m contactId data) l (fun _ l' => SameBeside l l')
      (fun _ l' => SameBeside l l') := by
  refine (importSessionBytes_spec F m contactId data l).mono ?_ ?_
  · rintro - l' ⟨_, _, _, _, _, -, -, -, -, rfl⟩
    exact installRecord_beside ..
  · rintro - l' rfl
    exact .refl l'

/-- An import of the orchestrator's state installs what it reads, or changes nothing. -/
theorem importOrchestratorStateCfe_spec (F : Cfe) (m : Moment) (data : Bytes) (l : Lifecycle) :
    Ensures (importOrchestratorStateCfe F m data) l
      (fun initLocks l' => ∃ state, F.decodeState data = .ok state ∧ state.ver = 1 ∧
        initLocks = state.initLocks ∧ l' = l.installState m.nowSecs state)
      (fun _ l' => l' = l) := by
  simp only [importOrchestratorStateCfe, ensures_bind, ensures_ofExcept, ensures_ite,
    ensures_throw, ensures_modify, ensures_pure]
  refine ⟨fun state hstate => ⟨fun _ => trivial, fun hver => ?_⟩, fun _ _ => trivial⟩
  exact ⟨state, hstate, not_not.mp hver, rfl, rfl⟩

theorem keyManager_forgetContactState (l : Lifecycle) (m : Moment) (contactId : Bytes) :
    (l.forgetContactState m contactId).client.keyManager = l.client.keyManager := by
  unfold forgetContactState Client.removeSession
  dsimp only
  split <;> rfl

theorem keyManager_restart (F : Cfe) (l : Lifecycle) (m : Moment) (initLocks : List Bytes)
    (sessions : Table Bytes Session) (previous : Table Bytes (List PreviousState)) :
    (l.restart F m initLocks sessions previous).client.keyManager = l.client.keyManager := by
  unfold restart
  cases l.exportOrchestratorStateCfe F initLocks with
  | error e => rfl
  | ok bytes =>
    have hspec := importOrchestratorStateCfe_spec F m bytes (l.newProcess sessions previous)
    dsimp only
    cases hrun : importOrchestratorStateCfe F m bytes (l.newProcess sessions previous) with
    | error e l' => rfl
    | ok locks l' =>
      obtain ⟨state, -, -, -, rfl⟩ := hspec.of_ok hrun
      rfl

theorem reload_beside (F : Cfe) (m : Moment) (l : Lifecycle) (contactId : Bytes) :
    SameBeside l (l.reload F m contactId) := by
  unfold reload
  cases l.exportSessionBytesFor F contactId with
  | error e => exact .refl l
  | ok bytes =>
    have himport := importSessionBytes_beside F m contactId bytes l
    dsimp only
    cases hrun : importSessionBytes F m contactId bytes l with
    | ok u l' => exact himport.of_ok hrun
    | error e l' => exact himport.of_error hrun

/-! ## One event -/

/-- What one event can do beside moving sessions, and what the log shows of it. -/
inductive StepCase (S : Suite) (F : Cfe) (l : Lifecycle) :
    LifecycleEvent → Lifecycle × List LifecycleSeen → Prop
  | moved {e : LifecycleEvent} {l' : Lifecycle} {seen : List LifecycleSeen} (h : SameBeside l l')
      (hseen : ∀ x ∈ seen, x.isOpen = false) : StepCase S F l e (l', seen)
  | initiator {e : LifecycleEvent} {l' : Lifecycle} {m : Moment} {contactId : Bytes}
      {bundle : X3DHPublicKeyBundle} {kyber : KyberBundleKeys} {d : InitiatorOpening}
      (hd : d.Valid S m contactId bundle kyber l)
      (h : SameBeside (d.apply S m contactId bundle l) l') :
      StepCase S F l e (l', [.openedAsInitiator contactId bundle kyber])
  | responder {e : LifecycleEvent} {l' : Lifecycle} {m : Moment}
      {contactId remoteIdentity plaintext : Bytes} {first : IncomingFirstMessage}
      {message : EncryptedRatchetMessage} {d : ResponderOpening} {answered : Session}
      (hd : d.Valid S m (callOf contactId remoteIdentity first message) l)
      (h : SameBeside (d.apply S m (callOf contactId remoteIdentity first message) answered l) l') :
      StepCase S F l e (l', [.openedAsResponder contactId remoteIdentity first plaintext])
  /-- The new session could not answer. -/
  | unanswered {e : LifecycleEvent} {m : Moment} {r : ResponderCall} {d : ResponderOpening}
      {held : Option Session} :
      StepCase S F l e ((d.removed m r l).putBackHeld r.contactId held, [])
  | forget {m : Moment} {contactId : Bytes} :
      StepCase S F l (.forget m contactId) (l.forgetContactState m contactId, [])
  | restart {m : Moment} {initLocks : List Bytes} {sessions : Table Bytes Session}
      {previous : Table Bytes (List PreviousState)} :
      StepCase S F l (.restart m initLocks sessions previous)
        (l.restart F m initLocks sessions previous, [])
  | acks {ackStore : AckStore} : StepCase S F l (.acks ackStore) ({ l with ackStore := ackStore }, [])
  | setMyUserId {userId : Bytes} : StepCase S F l (.setMyUserId userId) (l.setMyUserId userId, [])
  | keys {change : KeyChange} :
      StepCase S F l (.keys change) (l.mapKeys fun _ => (l.client.keyManager.change S change).1,
        (l.client.keyManager.change S change).2)

theorem step_case (S : Suite) (F : Cfe) (l : Lifecycle) (e : LifecycleEvent) :
    StepCase S F l e (l.step S F e) := by
  cases e with
  | initSession m contactId bundle kyber allowStale =>
    refine logged_rule (initSessionWithBundle_spec S m contactId bundle kyber allowStale l) ?_ ?_
    · rintro - l' ⟨-, d, hd, rfl⟩
      exact .initiator hd (.refl _)
    · rintro - l' rfl
      exact .moved (.refl l') (by simp)
  | reopen m contactId bundle kyber allowStale =>
    refine logged_rule (reopenWithBundle_spec S m contactId bundle kyber allowStale l) ?_ ?_
    · rintro - l' ⟨d, hd, rfl⟩
      exact .initiator hd (retireHeld_beside ..)
    · rintro - l' rfl
      exact .moved (.refl l') (by simp)
  | receive m contactId remoteIdentity first =>
    refine logged_rule (receiveWithIdentity_spec S m contactId remoteIdentity first l) ?_ ?_
    · rintro plaintext l' ⟨message, d, answered, -, hd, -, -, rfl⟩
      exact .responder hd (retireHeld_beside ..)
    · rintro - l' (rfl | ⟨message, d, -, -, -, rfl⟩)
      · exact .moved (.refl l') (by simp)
      · exact .unanswered
  | encrypt m contactId plaintext =>
    refine logged_rule (encryptMessage_spec S m.env contactId plaintext l) ?_ ?_
    · rintro message l' ⟨s, s', -, -, rfl⟩
      exact .moved (setCurrent_beside ..) (by simp [LifecycleSeen.isOpen])
    · rintro - l' (rfl | ⟨s, s', e, -, -, rfl⟩)
      · exact .moved (.refl l') (by simp)
      · exact .moved (setCurrent_beside ..) (by simp)
  | decrypt m contactId message =>
    refine logged_rule (decryptRatchetMessage_beside S m contactId message l) ?_ ?_
    · exact fun _ _ h => .moved h (by simp [LifecycleSeen.isOpen])
    · exact fun _ _ h => .moved h (by simp)
  | retire m contactId => exact .moved (retireCurrent_beside l m.nowSecs contactId) (by simp)
  | forget m contactId => exact .forget
  | reload m contactId => exact .moved (reload_beside F m l contactId) (by simp)
  | importSession m contactId data =>
    refine logged_rule (importSessionBytes_beside F m contactId data l) ?_ ?_
    · exact fun _ _ h => .moved h (by simp)
    · exact fun _ _ h => .moved h (by simp)
  | restart m initLocks sessions previous => exact .restart
  | acks ackStore => exact .acks
  | setMyUserId userId => exact .setMyUserId
  | keys change => exact .keys

end Lifecycle

end ConstructCore
