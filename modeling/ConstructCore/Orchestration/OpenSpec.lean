import ConstructCore.Orchestration.Opening
import ConstructCore.Ratchet.SendPositions

/-!
# What an open does

One specification for each open. The values an open computes are a record (`InitiatorOpening`,
`ResponderOpening`); `Valid` says that they are the ones the code computes from the state it
finds, and `apply` is the state it leaves. Whatever an open changes of a device's sessions goes
through `openWith`.

An open that fails leaves the state it found, with one exception: a responder whose new session
cannot answer the initiator's identity has filed the session and burnt its X25519 one-time
prekey by then. The answer takes one HKDF expansion on a session that has not sent, so with an
HKDF that never fails the exception does not arise (`ResponderOpening.Valid.answers`).
-/

namespace ConstructCore

open Bytes Op

/-! ## A session that has not sent -/

namespace Session

variable {C : Crypto}

/-- A message keeps an identity proof that no answer is awaited for, until it completes one. -/
theorem ClassicalKey.identityProof {env : Env} {m : EncryptedRatchetMessage}
    {secret : Option Bytes} {s t : Session} {key : Bytes} {stepped : Bool}
    (h : ClassicalKey C env m secret s key stepped t) (hs : s.identityProof = .none) :
    t.identityProof = .none := by
  cases h with
  | skipped _ => exact hs
  | live _ _ _ hkey =>
    obtain ⟨dr, rfl⟩ := hkey.frame
    exact hs
  | ratchet _ _ _ hsave hturn hkey =>
    obtain ⟨dr, rfl⟩ := hkey.frame
    obtain ⟨dr', rfl⟩ := hsave.frame
    have hmix := hturn.mix
    unfold awaitedMix at hmix
    rw [if_neg (by rw [show _ = IdentityProof.none from hs]; exact fun h => nomatch h)] at hmix
    exact (Prod.mk.inj (Prod.mk.inj (Except.ok.inj hmix)).2).2.symm.trans hs

/-- A responder's session opens before anything was sent or answered on it. -/
theorem responder_identityProof {env : Env} {rootKey localIdentity contactId localUserId : Bytes}
    {m : EncryptedRatchetMessage} {s : Session} {plaintext : Bytes}
    (h : newResponderSession C env rootKey localIdentity m contactId localUserId =
      .ok (s, plaintext)) : s.identityProof = .none := by
  obtain ⟨s₁, hs₁, hrun⟩ := newResponderSession_ok h
  obtain ⟨_, _, _, _, _, _, _, _, _, _, _, -, -, -, -, -, -, -, -, rfl⟩ := responderSession_ok hs₁
  obtain ⟨key, stepped, t, pq, hkey, hopen, rfl⟩ := decryptWithIdentitySecret_ok hrun
  have hproof : t.identityProof = .none := by
    refine hkey.identityProof ?_
    unfold cleanupIfDue
    split <;> rfl
  show (t.finish C env m stepped pq).identityProof = .none
  unfold finish commitPqPostDecrypt completeIdentityProof
  cases stepped with
  | false => exact hproof
  | true => simp [hproof]

/-- With an HKDF that never fails, a session that has neither sent nor answered can answer. -/
theorem answers_of_hkdfTotal (hC : C.HkdfTotal) {s : Session} (hsent : s.dr.sendingChainLength = 0)
    (hproof : s.identityProof = .none) (secret ciphertext : Bytes) :
    ∃ answered, answerInitiatorIdentity C secret ciphertext s = .ok () answered := by
  obtain ⟨root, hroot⟩ := hC secret s.dr.rootKey (ofText "Construct-KEM-identity-root-v1") 32
    (by decide)
  obtain ⟨chain, hchain⟩ := hC secret s.dr.sendingChainKey
    (ofText "Construct-KEM-identity-chain-v1") 32 (by decide)
  have hmix : mixIdentitySecret C s.dr.rootKey s.dr.sendingChainKey secret = .ok (root, chain) := by
    unfold mixIdentitySecret
    rw [Except.bind_of_ok (lift_of_ok hroot), Except.bind_of_ok (lift_of_ok hchain)]
    rfl
  unfold answerInitiatorIdentity
  simp only [get_bind_eq_ok]
  rw [if_neg (by simp [hsent, hproof])]
  simp only [bind_eq_ok, ofExcept_eq_ok, hmix]
  exact ⟨_, _, _, ⟨rfl, rfl⟩, rfl⟩

end Session

/-! ## The session and its pair -/

namespace Lifecycle

/-- A session just made in a device's place, with its envelope pair and first-flight key. -/
def openWith (l : Lifecycle) (contactId : Bytes) (session : Session) (keys : EnvelopePair)
    (filed : FiledFirstFlightKey) : Lifecycle :=
  l.mapClient fun c => { c with
    sessions := c.sessions.insert contactId session
    envelopes := (c.envelopes.register contactId session.sessionId keys).setFirstFlight
      session.sessionId filed }

def mapKeys (l : Lifecycle) (f : KeyManager → KeyManager) : Lifecycle :=
  l.mapClient fun c => { c with keyManager := f c.keyManager }

theorem takeAside_of_none {l : Lifecycle} {contactId : Bytes} (h : l.current contactId = none) :
    l.takeAside contactId = l := by
  unfold takeAside mapClient Client.dropSession
  dsimp only
  rw [Table.erase_of_none (show l.client.sessions[contactId]? = none from h)]

@[simp] theorem takeAside_takeAside (l : Lifecycle) (contactId : Bytes) :
    (l.takeAside contactId).takeAside contactId = l.takeAside contactId := by
  unfold takeAside mapClient Client.dropSession
  simp

@[simp] theorem openWith_takeAside (l : Lifecycle) (contactId : Bytes) (session : Session)
    (keys : EnvelopePair) (filed : FiledFirstFlightKey) :
    (l.takeAside contactId).openWith contactId session keys filed =
      l.openWith contactId session keys filed := by
  unfold takeAside openWith mapClient Client.dropSession
  simp

@[simp] theorem putBackHeld_takeAside (l : Lifecycle) (contactId : Bytes) :
    (l.takeAside contactId).putBackHeld contactId (l.current contactId) = l := by
  cases h : l.current contactId with
  | none => exact takeAside_of_none h
  | some held =>
    unfold putBackHeld takeAside mapClient Client.dropSession Client.putBackSession
    simp only [Table.insert_erase_self]
    rw [Table.insert_of_some (show l.client.sessions[contactId]? = some held from h)]

end Lifecycle

/-! ## As initiator -/

/-- What `init_session_with_bundle` computes. -/
structure InitiatorOpening where
  choice : PqxdhChoice
  ciphertext : Bytes
  secret : Bytes
  kemIdentity : Bytes
  localIdentity : Bytes
  made : MadeSession

namespace InitiatorOpening

def pq (d : InitiatorOpening) : PqxdhInput where
  sharedSecret := d.secret
  kyberPublic := d.choice.kyberPublic
  kemCiphertext := d.ciphertext
  initiatorKemIdentity := d.kemIdentity

def header (d : InitiatorOpening) (bundle : X3DHPublicKeyBundle) : PrekeyHeader where
  oneTimePrekeyId := bundle.oneTimePrekeyId.getD 0
  kyberPrekeyId := d.choice.kyberPrekeyId
  kemCiphertext := d.ciphertext
  kemIdentity := d.kemIdentity

def session (d : InitiatorOpening) (bundle : X3DHPublicKeyBundle) : Session :=
  ((d.made.session.markPqxdhV2 .authenticated).expectIdentityAnswer).setPrekeyHeader
    (d.header bundle)

/-- The values are those the code computes from `l`. -/
structure Valid (S : Suite) (m : Moment) (contactId : Bytes) (bundle : X3DHPublicKeyBundle)
    (kyber : KyberBundleKeys) (l : Lifecycle) (d : InitiatorOpening) : Prop where
  epoch : l.spkEpochRegression contactId bundle.spkRotationEpoch = none
  plan : planPqxdh S (pqxdhOffer bundle kyber)
    { now := m.nowSecs, pinnedHybridIdentity := l.pinnedHybridIdentity contactId } = .ok d.choice
  encapsulation : S.mlkem1024Encapsulate d.choice.kyberPublic m.env.encapSeed =
    .ok (d.ciphertext, d.secret)
  kemIdentity : l.client.keyManager.kemIdentityPublic S = .ok d.kemIdentity
  userId : l.client.localUserId ≠ []
  localIdentity : l.client.keyManager.identitySecretKey = .ok d.localIdentity
  made : initAsInitiator S m.env d.localIdentity bundle bundle.identityPublic contactId
    l.client.localUserId (some d.pq) = .ok d.made

def apply (S : Suite) (m : Moment) (contactId : Bytes) (bundle : X3DHPublicKeyBundle)
    (d : InitiatorOpening) (l : Lifecycle) : Lifecycle :=
  (((l.openWith contactId (d.session bundle) d.made.envelopeKeys
    (Lifecycle.firstFlightOf S m.nowSecs d.ciphertext d.secret)).mapClient
      (·.dropPendingOtpkId contactId)).pinHybridIdentity contactId
        d.choice.hybridIdentityFingerprint).noteSpkEpoch contactId bundle.spkRotationEpoch

@[simp] theorem keyManager_apply (S : Suite) (m : Moment) (contactId : Bytes)
    (bundle : X3DHPublicKeyBundle) (d : InitiatorOpening) (l : Lifecycle) :
    (d.apply S m contactId bundle l).client.keyManager = l.client.keyManager := by
  unfold apply Lifecycle.noteSpkEpoch
  split <;> rfl

@[simp] theorem apply_takeAside (S : Suite) (m : Moment) (contactId : Bytes)
    (bundle : X3DHPublicKeyBundle) (d : InitiatorOpening) (l : Lifecycle) :
    d.apply S m contactId bundle (l.takeAside contactId) = d.apply S m contactId bundle l := by
  unfold apply
  rw [Lifecycle.openWith_takeAside]

end InitiatorOpening

/-- `init_session_with_pq` files a session made from what it finds, or changes nothing. -/
theorem Client.initSessionWithPq_spec (S : Suite) (env : Env) (contactId : Bytes)
    (bundle : X3DHPublicKeyBundle) (remoteIdentity : Bytes) (oneTimePrekeyId : UInt32)
    (allowStale : Bool) (pq : Option PqxdhInput) (c : Client) :
    Ensures (initSessionWithPq S env contactId bundle remoteIdentity oneTimePrekeyId allowStale pq)
      c
      (fun _ c' => c.localUserId ≠ [] ∧ c.sessions[contactId]? = none ∧
        ∃ localIdentity made, c.keyManager.identitySecretKey = .ok localIdentity ∧
          initAsInitiator S env localIdentity bundle remoteIdentity contactId c.localUserId pq =
            .ok made ∧
          c'.dropPendingOtpkId contactId =
            (c.fileSession contactId made).dropPendingOtpkId contactId)
      (fun _ c' => c' = c) := by
  simp only [initSessionWithPq, ensures_bind, ensures_get, ensures_ite, ensures_throw,
    ensures_ofExcept, ensures_set, ensures_pure]
  refine ⟨fun _ => trivial, fun huser => ⟨fun _ => trivial, fun hfree => ⟨?_, fun _ _ => trivial⟩⟩⟩
  rintro ⟨⟩ -
  refine ⟨fun localIdentity hid => ⟨fun made hmade => ?_, fun _ _ => trivial⟩, fun _ _ => trivial⟩
  refine ⟨huser, by simpa using hfree, localIdentity, made, hid, hmade, ?_⟩
  unfold dropPendingOtpkId
  by_cases hotpk : oneTimePrekeyId ≠ 0
  · rw [if_pos hotpk]
    simp [fileSession]
  · rw [if_neg hotpk]
    rfl

namespace Lifecycle

/-- What `init_session_with_bundle` commits, once the client holds the session. -/
theorem commitInitiator_eq (S : Suite) (m : Moment) (contactId : Bytes)
    (bundle : X3DHPublicKeyBundle) (d : InitiatorOpening) (l : Lifecycle) (c : Client)
    (hc : c.dropPendingOtpkId contactId =
      (l.client.fileSession contactId d.made).dropPendingOtpkId contactId) :
    ({ l with client := c } : Lifecycle).commitInitiator contactId
        d.choice.hybridIdentityFingerprint (d.header bundle)
        (firstFlightOf S m.nowSecs d.ciphertext d.secret) bundle.spkRotationEpoch =
      d.apply S m contactId bundle l := by
  unfold commitInitiator InitiatorOpening.apply
  simp only [mapClient, hc, pinHybridIdentity, openWith]
  simp [Client.onCurrent, Client.fileFirstFlight, Client.fileSession, Client.dropPendingOtpkId,
    InitiatorOpening.session]
  rfl

theorem initSessionWithBundle_spec (S : Suite) (m : Moment) (contactId : Bytes)
    (bundle : X3DHPublicKeyBundle) (kyber : KyberBundleKeys) (allowStale : Bool) (l : Lifecycle) :
    Ensures (initSessionWithBundle S m contactId bundle kyber allowStale) l
      (fun _ l' => l.current contactId = none ∧ ∃ d : InitiatorOpening,
        d.Valid S m contactId bundle kyber l ∧ l' = d.apply S m contactId bundle l)
      (fun _ l' => l' = l) := by
  simp only [initSessionWithBundle, ensures_bind, ensures_get]
  cases hepoch : l.spkEpochRegression contactId bundle.spkRotationEpoch with
  | some regressed => simp only [ensures_throw]
  | none =>
    simp only [ensures_bind, ensures_ofExcept, onClient, ensures_zoom, ensures_modify,
      ensures_pure]
    refine ⟨fun choice hplan => ⟨fun enc henc => ⟨fun kemIdentity hkem => ?_,
      fun _ _ => trivial⟩, fun _ _ => trivial⟩, fun _ _ => trivial⟩
    refine (Client.initSessionWithPq_spec S m.env contactId bundle bundle.identityPublic _
      allowStale _ l.client).mono ?_ ?_
    · rintro - c' ⟨huser, hfree, localIdentity, made, hid, hmade, hc⟩
      let d : InitiatorOpening := ⟨choice, enc.1, enc.2, kemIdentity, localIdentity, made⟩
      exact ⟨hfree, d, ⟨hepoch, hplan, henc, hkem, huser, hid, hmade⟩,
        commitInitiator_eq S m contactId bundle d l c' hc⟩
    · rintro e c' rfl
      rfl

end Lifecycle

/-! ## As responder -/

namespace Client

theorem tryPrekeys_ok {α : Type} {attempt : Bytes → Except HandshakeError α}
    {last : HandshakeError} {prekeys : List Bytes} {a : α}
    (h : tryPrekeys attempt last prekeys = .ok a) : ∃ prekey ∈ prekeys, attempt prekey = .ok a := by
  induction prekeys generalizing last with
  | nil => cases h
  | cons prekey rest ih =>
    rw [tryPrekeys] at h
    cases hp : attempt prekey with
    | ok b =>
      rw [hp] at h
      exact ⟨prekey, List.mem_cons_self, by rw [hp, ← h]⟩
    | error e =>
      rw [hp] at h
      obtain ⟨q, hq, hok⟩ := ih h
      exact ⟨q, List.mem_cons_of_mem _ hq, hok⟩

/-- What `init_receiving_session_with_ephemeral` leaves when the handshake closes. -/
def receivedWith (c : Client) (contactId : Bytes) (made : MadeSession) (oneTimePrekeyId : UInt32) :
    Client :=
  (c.fileSession contactId made).burnOneTimePrekey oneTimePrekeyId

@[simp] theorem receivedWith_dropSession (c : Client) (contactId : Bytes) (made : MadeSession)
    (oneTimePrekeyId : UInt32) :
    (c.dropSession contactId).receivedWith contactId made oneTimePrekeyId =
      c.receivedWith contactId made oneTimePrekeyId := by
  unfold receivedWith dropSession fileSession
  simp

/-- `init_receiving_session_with_ephemeral` files a session made with one of the signed prekeys
and burns the one-time prekey, or removes at most the session it found. -/
theorem initReceivingSessionWithEphemeral_spec (S : Suite) (env : Env)
    (contactId remoteIdentity remoteEphemeral : Bytes) (message : EncryptedRatchetMessage)
    (oneTimePrekeyId : UInt32) (pq : Option PqxdhInput) (c : Client) :
    Ensures (initReceivingSessionWithEphemeral S env contactId remoteIdentity remoteEphemeral
        message oneTimePrekeyId pq) c
      (fun r c' => c.localUserId ≠ [] ∧ ∃ oneTimePrekey localIdentity prekey made,
        namedOneTimePrekey c.keyManager oneTimePrekeyId = .ok oneTimePrekey ∧
        c.keyManager.identitySecretKey = .ok localIdentity ∧
        prekey ∈ c.keyManager.allPrekeyPrivateKeys ∧
        initAsResponder S env localIdentity prekey remoteIdentity remoteEphemeral message
          contactId c.localUserId oneTimePrekey pq = .ok (made, r.2) ∧
        r.1 = made.session.sessionId ∧ c' = c.receivedWith contactId made oneTimePrekeyId)
      (fun _ c' => c' = c ∨ c' = c.dropSession contactId) := by
  simp only [initReceivingSessionWithEphemeral, ensures_bind, ensures_get, ensures_ite,
    ensures_throw, ensures_set, ensures_ofExcept]
  refine ⟨fun _ => .inl trivial, fun huser => ⟨fun otpk hotpk => ⟨fun identity hid => ?_,
    fun _ _ => .inr trivial⟩, fun _ _ => .inr trivial⟩⟩
  cases hkeys : (c.dropSession contactId).keyManager.allPrekeyPrivateKeys with
  | nil => exact .inr rfl
  | cons prekey rest =>
    have hmem : ∀ q ∈ prekey :: rest, q ∈ c.keyManager.allPrekeyPrivateKeys := by
      rw [← hkeys]
      exact fun _ hq => hq
    dsimp only
    cases hfirst : initAsResponder S env identity prekey remoteIdentity remoteEphemeral message
        contactId (c.dropSession contactId).localUserId otpk pq with
    | ok r =>
      exact ⟨huser, otpk, identity, prekey, r.1, hotpk, hid, hmem _ List.mem_cons_self,
        hfirst, rfl, receivedWith_dropSession ..⟩
    | error e =>
      simp only [ensures_bind, ensures_ofExcept]
      refine ⟨fun r hr => ?_, fun _ _ => .inr trivial⟩
      obtain ⟨q, hq, hok⟩ := tryPrekeys_ok hr
      exact ⟨huser, otpk, identity, q, r.1, hotpk, hid, hmem q (List.mem_cons_of_mem _ hq),
        hok, rfl, receivedWith_dropSession ..⟩

end Client

/-- What `complete_responder_init` computes, up to the answer. -/
structure ResponderOpening where
  kyberPublic : Bytes
  shared : Bytes
  kemIdentity : Bytes
  /-- Ciphertext and secret. -/
  answer : Bytes × Bytes
  oneTimePrekey : Option Bytes
  localIdentity : Bytes
  prekey : Bytes
  made : MadeSession
  plaintext : Bytes

/-- What `complete_responder_init` is called with. -/
structure ResponderCall where
  contactId : Bytes
  remoteIdentity : Bytes
  remoteEphemeral : Bytes
  message : EncryptedRatchetMessage
  oneTimePrekeyId : UInt32
  kem : ResponderKem

namespace ResponderOpening

def pq (d : ResponderOpening) (r : ResponderCall) : PqxdhInput where
  sharedSecret := d.shared
  kyberPublic := d.kyberPublic
  kemCiphertext := r.kem.kemCiphertext
  initiatorKemIdentity := d.kemIdentity

/-- The values are those the code computes from `l`. -/
structure Valid (S : Suite) (m : Moment) (r : ResponderCall) (l : Lifecycle)
    (d : ResponderOpening) : Prop where
  kem : l.responderKem S r.message.suiteId r.kem = .ok (d.kyberPublic, d.shared)
  identity : l.admitKemIdentity S m.env r.contactId r.kem.kemIdentity =
    .ok (d.kemIdentity, d.answer)
  userId : l.client.localUserId ≠ []
  oneTimePrekey : Client.namedOneTimePrekey l.client.keyManager r.oneTimePrekeyId =
    .ok d.oneTimePrekey
  localIdentity : l.client.keyManager.identitySecretKey = .ok d.localIdentity
  prekey : d.prekey ∈ l.client.keyManager.allPrekeyPrivateKeys
  made : initAsResponder S m.env d.localIdentity d.prekey r.remoteIdentity r.remoteEphemeral
    r.message r.contactId l.client.localUserId d.oneTimePrekey (some (d.pq r)) =
      .ok (d.made, d.plaintext)

def burnX25519 (oneTimePrekeyId : UInt32) (k : KeyManager) : KeyManager :=
  if oneTimePrekeyId ≠ 0 then k.consumeOneTimePrekey oneTimePrekeyId else k

def burnKyber (kyberPrekeyId : UInt32) (k : KeyManager) : KeyManager :=
  if kyberOtpkIdStart ≤ kyberPrekeyId then
    { k with kyberPrekeys := k.kyberPrekeys.removeOtpk kyberPrekeyId }
  else k

/-- The session as it stands after the open: a signed Kyber prekey has an id too. -/
def session (r : ResponderCall) (answered : Session) : Session :=
  if r.kem.kyberPrekeyId ≠ 0 then answered.markPqxdhV2 .received else answered

def apply (S : Suite) (m : Moment) (r : ResponderCall) (d : ResponderOpening) (answered : Session)
    (l : Lifecycle) : Lifecycle :=
  ((l.openWith r.contactId (session r answered) d.made.envelopeKeys
    (Lifecycle.firstFlightOf S m.nowSecs r.kem.kemCiphertext d.shared)).mapKeys fun k =>
      burnKyber r.kem.kyberPrekeyId (burnX25519 r.oneTimePrekeyId k)).pinKemIdentity r.contactId
        (kemIdentityFingerprint S d.kemIdentity)

/-- The state after a session that could not answer: it is gone again, its pair filed and
retired, and its X25519 one-time prekey burnt. -/
def removed (m : Moment) (r : ResponderCall) (d : ResponderOpening) (l : Lifecycle) : Lifecycle :=
  ((l.takeAside r.contactId).onBook fun b =>
    (b.register r.contactId d.made.session.sessionId d.made.envelopeKeys).retireSession
      d.made.session.sessionId m.env.now).mapKeys (burnX25519 r.oneTimePrekeyId)

@[simp] theorem apply_takeAside (S : Suite) (m : Moment) (r : ResponderCall)
    (d : ResponderOpening) (answered : Session) (l : Lifecycle) :
    d.apply S m r answered (l.takeAside r.contactId) = d.apply S m r answered l := by
  unfold apply
  rw [Lifecycle.openWith_takeAside]

@[simp] theorem keyManager_removed (m : Moment) (r : ResponderCall) (d : ResponderOpening)
    (l : Lifecycle) :
    (d.removed m r l).client.keyManager = burnX25519 r.oneTimePrekeyId l.client.keyManager := rfl

@[simp] theorem removed_takeAside (m : Moment) (r : ResponderCall) (d : ResponderOpening)
    (l : Lifecycle) : d.removed m r (l.takeAside r.contactId) = d.removed m r l := by
  unfold removed
  rw [Lifecycle.takeAside_takeAside]

def answers (S : Suite) (d : ResponderOpening) : EStateM.Result RatchetError Session Unit :=
  Session.answerInitiatorIdentity S.toCrypto d.answer.2 d.answer.1 d.made.session

theorem Valid.answers {S : Suite} {m : Moment} {r : ResponderCall} {l : Lifecycle}
    {d : ResponderOpening} (hd : d.Valid S m r l) (hkdf : S.HkdfTotal) :
    ∃ answered, d.answers S = .ok () answered := by
  obtain ⟨rootKey, -, hnew, -⟩ := initAsResponder_ok hd.made
  exact Session.answers_of_hkdfTotal hkdf (Session.created_sending ⟨_, .responder hnew⟩)
    (Session.responder_identityProof hnew) _ _

end ResponderOpening

namespace Lifecycle

theorem receivedWith_eq (c : Client) (contactId : Bytes) (made : MadeSession)
    (oneTimePrekeyId : UInt32) :
    c.receivedWith contactId made oneTimePrekeyId =
      { c.fileSession contactId made with
        keyManager := ResponderOpening.burnX25519 oneTimePrekeyId c.keyManager } := by
  unfold Client.receivedWith Client.burnOneTimePrekey ResponderOpening.burnX25519
  split <;> rfl

/-- The answer is made on the session just filed, and kept or taken back with it. -/
theorem answerOnCurrent_spec (S : Suite) (m : Moment) (r : ResponderCall) (d : ResponderOpening)
    (l : Lifecycle) :
    Ensures (answerOnCurrent S m.env r.contactId d.answer)
      { l with client := l.client.receivedWith r.contactId d.made r.oneTimePrekeyId }
      (fun _ l' => ∃ answered, d.answers S = .ok () answered ∧
        l' = { l with client := (l.client.receivedWith r.contactId d.made
          r.oneTimePrekeyId).putBackSession r.contactId answered })
      (fun _ l' => (∃ e s, d.answers S = .error e s) ∧ l' = d.removed m r l) := by
  have hcurrent : (Lifecycle.mk (l.client.receivedWith r.contactId d.made r.oneTimePrekeyId)
      l.ackStore l.previous l.hybridIdentityPins l.kemIdentityPins l.spkEpochs
      l.myUserId).current r.contactId = some d.made.session := by
    unfold current
    rw [receivedWith_eq]
    exact Table.lookup_insert_self _ _ _
  unfold answerOnCurrent Ensures
  dsimp only
  rw [hcurrent]
  dsimp only
  have hspec := Session.answerInitiatorIdentity_spec (C := S.toCrypto) d.answer.2 d.answer.1
    d.made.session
  unfold ResponderOpening.answers
  cases hrun : Session.answerInitiatorIdentity S.toCrypto d.answer.2 d.answer.1
      d.made.session with
  | ok u answered => exact ⟨answered, rfl, rfl⟩
  | error e s =>
    obtain rfl := hspec.of_error hrun
    refine ⟨⟨e, _, rfl⟩, ?_⟩
    simp only [mapClient, receivedWith_eq, Client.removeSession, Client.putBackSession,
      Client.fileSession, ResponderOpening.removed, takeAside, onBook, mapKeys,
      Client.dropSession, Table.lookup_insert_self, Table.erase_insert_self]

theorem commitResponder_eq (S : Suite) (m : Moment) (r : ResponderCall) (d : ResponderOpening)
    (answered : Session) (hid : answered.sessionId = d.made.session.sessionId) (l : Lifecycle) :
    ({ l with client := (l.client.receivedWith r.contactId d.made
        r.oneTimePrekeyId).putBackSession r.contactId answered } : Lifecycle).commitResponder
        r.contactId (kemIdentityFingerprint S d.kemIdentity) r.kem.kyberPrekeyId
        (firstFlightOf S m.nowSecs r.kem.kemCiphertext d.shared) =
      d.apply S m r answered l := by
  have hlabel : (ResponderOpening.session r answered).sessionId = answered.sessionId := by
    unfold ResponderOpening.session
    split <;> rfl
  unfold commitResponder afterResponderInit ResponderOpening.apply ResponderOpening.burnKyber
  unfold openWith
  rw [hlabel]
  simp only [pinKemIdentity, mapClient, mapKeys, receivedWith_eq, Client.putBackSession,
    Client.fileSession, Table.insert_insert_self]
  by_cases hkyber : kyberOtpkIdStart ≤ r.kem.kyberPrekeyId <;>
    by_cases hzero : r.kem.kyberPrekeyId ≠ 0 <;>
    simp [ResponderOpening.session, hkyber, hzero, Client.onCurrent, Client.fileFirstFlight, hid,
      Session.markPqxdhV2]

/-- `complete_responder_init` on the values of a call. -/
def completeCall (S : Suite) (m : Moment) (r : ResponderCall) : Op ReceivingError Lifecycle Bytes :=
  completeResponderInit S m r.contactId r.remoteIdentity r.remoteEphemeral r.message
    r.oneTimePrekeyId r.kem

/-- `complete_responder_init` opens, or removes at most the session it found, or made a session
that could not answer. -/
theorem completeResponderInit_spec (S : Suite) (m : Moment) (r : ResponderCall) (l : Lifecycle) :
    Ensures (completeCall S m r) l
      (fun plaintext l' => ∃ (d : ResponderOpening) (answered : Session), d.Valid S m r l ∧
        d.answers S = .ok () answered ∧ plaintext = d.plaintext ∧ l' = d.apply S m r answered l)
      (fun _ l' => l' = l ∨ l' = l.takeAside r.contactId ∨
        ∃ d : ResponderOpening, d.Valid S m r l ∧ (∃ e s, d.answers S = .error e s) ∧
          l' = d.removed m r l) := by
  simp only [completeCall, completeResponderInit, ensures_bind, ensures_get, ensures_ofExcept]
  refine ⟨fun kem hkem => ⟨fun identity hid => ?_, fun _ _ => .inl trivial⟩,
    fun _ _ => .inl trivial⟩
  simp only [onClient, ensures_zoom]
  refine (Client.initReceivingSessionWithEphemeral_spec S m.env r.contactId r.remoteIdentity
    r.remoteEphemeral r.message r.oneTimePrekeyId _ l.client).mono ?_ ?_
  · rintro ⟨sid, plaintext⟩ c' ⟨huser, otpk, localIdentity, prekey, made, hotpk, hlocal, hprekey,
      hmade, -, rfl⟩
    let d : ResponderOpening := ⟨kem.1, kem.2, identity.1, identity.2, otpk, localIdentity, prekey,
      made, plaintext⟩
    have hd : d.Valid S m r l := ⟨hkem, hid, huser, hotpk, hlocal, hprekey, hmade⟩
    refine (answerOnCurrent_spec S m r d l).mono ?_ ?_
    · rintro - l' ⟨answered, hanswer, rfl⟩
      have hsame : answered.sessionId = d.made.session.sessionId := by
        obtain ⟨_, _, -, -, -, rfl⟩ :=
          (Session.answerInitiatorIdentity_spec (C := S.toCrypto) _ _ _).of_ok hanswer
        rfl
      simp only [ensures_modify, ensures_pure]
      exact ⟨d, answered, hd, hanswer, rfl, commitResponder_eq S m r d answered hsame l⟩
    · rintro e l' ⟨herror, rfl⟩
      exact .inr (.inr ⟨d, hd, herror, rfl⟩)
  · rintro e c' (rfl | rfl)
    · exact .inl rfl
    · exact .inr (.inl rfl)

/-- The call `init_receiving_with_identity` makes, of a first message that is well formed. -/
def callOf (contactId remoteIdentity : Bytes) (first : IncomingFirstMessage)
    (message : EncryptedRatchetMessage) : ResponderCall where
  contactId := contactId
  remoteIdentity := remoteIdentity
  remoteEphemeral := first.ephemeralPublicKey
  message := message
  oneTimePrekeyId := first.oneTimePrekeyId
  kem :=
    { pqxdhV2 := first.pqxdhV2
      kyberPrekeyId := first.kyberPrekeyId
      kemCiphertext := first.kemCiphertext
      kemIdentity := first.kemIdentity }

theorem initReceivingWithIdentity_eq (S : Suite) (m : Moment) (contactId remoteIdentity : Bytes)
    (first : IncomingFirstMessage) :
    initReceivingWithIdentity S m contactId remoteIdentity first =
      (Op.ofExcept id (ratchetMessageOf first) >>= fun message =>
        completeCall S m (callOf contactId remoteIdentity first message)) := rfl

/-! ## While the session held is aside -/

@[simp] theorem keyManager_putBackHeld (l : Lifecycle) (contactId : Bytes)
    (held : Option Session) :
    (l.putBackHeld contactId held).client.keyManager = l.client.keyManager := by
  cases held <;> rfl

/-- Nothing happened beside the session taken aside: it is put back as it was. -/
theorem replacing_spec {ε α : Type} {now : Nat} {contactId : Bytes} {x : Op ε Lifecycle α}
    {l : Lifecycle} {Q : α → Lifecycle → Prop} {E : Lifecycle → Prop}
    (h : Ensures x (l.takeAside contactId)
      (fun a l' => Q a (l'.retireHeld now contactId (l.current contactId)))
      (fun _ l' => l' = l.takeAside contactId ∨ E (l'.putBackHeld contactId
        (l.current contactId)))) :
    Ensures (replacing now contactId x) l Q (fun _ l' => l' = l ∨ E l') := by
  unfold replacing
  unfold Ensures at h ⊢
  dsimp only
  cases hrun : x (l.takeAside contactId) with
  | ok a l' => simpa only [hrun] using h
  | error e l' =>
    rw [hrun] at h
    rcases h with rfl | h
    · exact .inl (putBackHeld_takeAside l contactId)
    · exact .inr h

/-- `reopen_session_with_bundle`, without the session machine. -/
def reopenWithBundle (S : Suite) (m : Moment) (contactId : Bytes) (bundle : X3DHPublicKeyBundle)
    (kyber : KyberBundleKeys) (allowStale : Bool) : Op OpenRefusal Lifecycle Bytes :=
  replacing m.nowSecs contactId (initSessionWithBundle S m contactId bundle kyber allowStale)

/-- A reopen opens beside the session held and retires it, or changes nothing. -/
theorem reopenWithBundle_spec (S : Suite) (m : Moment) (contactId : Bytes)
    (bundle : X3DHPublicKeyBundle) (kyber : KyberBundleKeys) (allowStale : Bool) (l : Lifecycle) :
    Ensures (reopenWithBundle S m contactId bundle kyber allowStale) l
      (fun _ l' => ∃ d : InitiatorOpening, d.Valid S m contactId bundle kyber l ∧
        l' = (d.apply S m contactId bundle l).retireHeld m.nowSecs contactId
          (l.current contactId))
      (fun _ l' => l' = l) := by
  have hopen : Ensures (reopenWithBundle S m contactId bundle kyber allowStale) l
      (fun _ l' => ∃ d : InitiatorOpening, d.Valid S m contactId bundle kyber l ∧
        l' = (d.apply S m contactId bundle l).retireHeld m.nowSecs contactId
          (l.current contactId))
      (fun _ l' => l' = l ∨ False) := by
    refine replacing_spec ((initSessionWithBundle_spec S m contactId bundle kyber allowStale
      (l.takeAside contactId)).mono ?_ fun _ _ h => .inl h)
    rintro - l' ⟨-, d, hd, rfl⟩
    refine ⟨d, ⟨hd.epoch, hd.plan, hd.encapsulation, hd.kemIdentity, hd.userId, hd.localIdentity,
      hd.made⟩, ?_⟩
    rw [InitiatorOpening.apply_takeAside]
  exact hopen.mono (fun _ _ h => h) fun _ _ h => h.resolve_right id

def receiveWithIdentity (S : Suite) (m : Moment) (contactId remoteIdentity : Bytes)
    (first : IncomingFirstMessage) : Op ReceivingError Lifecycle Bytes :=
  replacing m.nowSecs contactId (initReceivingWithIdentity S m contactId remoteIdentity first)

/-- A receiving open opens beside the session held and retires it, or changes nothing, or made a
session that could not answer and put the held one back. -/
theorem receiveWithIdentity_spec (S : Suite) (m : Moment) (contactId remoteIdentity : Bytes)
    (first : IncomingFirstMessage) (l : Lifecycle) :
    Ensures (receiveWithIdentity S m contactId remoteIdentity first) l
      (fun plaintext l' => ∃ (message : EncryptedRatchetMessage) (d : ResponderOpening)
        (answered : Session), ratchetMessageOf first = .ok message ∧
        d.Valid S m (callOf contactId remoteIdentity first message) l ∧
        d.answers S = .ok () answered ∧ plaintext = d.plaintext ∧
        l' = (d.apply S m (callOf contactId remoteIdentity first message) answered l).retireHeld
          m.nowSecs contactId (l.current contactId))
      (fun _ l' => l' = l ∨ ∃ (message : EncryptedRatchetMessage) (d : ResponderOpening),
        ratchetMessageOf first = .ok message ∧
        d.Valid S m (callOf contactId remoteIdentity first message) l ∧
        (∃ e s, d.answers S = .error e s) ∧
        l' = (d.removed m (callOf contactId remoteIdentity first message) l).putBackHeld contactId
          (l.current contactId)) := by
  refine replacing_spec ?_
  rw [initReceivingWithIdentity_eq]
  simp only [ensures_bind, ensures_ofExcept]
  refine ⟨fun message hmessage => ?_, fun _ _ => .inl trivial⟩
  refine (completeResponderInit_spec S m (callOf contactId remoteIdentity first message)
    (l.takeAside contactId)).mono ?_ ?_
  · rintro plaintext l' ⟨d, answered, hd, hanswer, rfl, rfl⟩
    refine ⟨message, d, answered, hmessage, ⟨hd.kem, hd.identity, hd.userId, hd.oneTimePrekey,
      hd.localIdentity, hd.prekey, hd.made⟩, hanswer, rfl, ?_⟩
    exact congrArg (fun l' : Lifecycle => l'.retireHeld m.nowSecs contactId (l.current contactId))
      (ResponderOpening.apply_takeAside S m
      (callOf contactId remoteIdentity first message) d answered l)
  · rintro - l' (rfl | rfl | ⟨d, hd, herror, rfl⟩)
    · exact .inl rfl
    · exact .inl (takeAside_takeAside l contactId)
    · refine .inr ⟨message, d, hmessage, ⟨hd.kem, hd.identity, hd.userId, hd.oneTimePrekey,
        hd.localIdentity, hd.prekey, hd.made⟩, herror, ?_⟩
      exact congrArg (fun l' : Lifecycle => l'.putBackHeld contactId (l.current contactId))
        (ResponderOpening.removed_takeAside m (callOf contactId remoteIdentity first message) d l)

end Lifecycle

end ConstructCore
