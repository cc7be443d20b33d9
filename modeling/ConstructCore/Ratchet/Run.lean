import ConstructCore.Lib.Machine
import ConstructCore.Ratchet.Rollback
import ConstructCore.Ratchet.Storage

/-!
# Runs of one session

A session is made by one of the two constructors (`Created`) and then meets events in any
order: messages to send, messages to read, the identity answer, saving and loading. A
failing operation leaves the state it reached, and the run goes on from there. `step` is
the machine of one session; its log shows the keys drawn, the messages returned by
`encrypt` and the messages `decrypt` accepted.
-/

namespace ConstructCore

open Bytes Op

/-- What can happen to a session. -/
inductive Event where
  | encrypt (env : Env) (plaintext : Bytes)
  | decrypt (env : Env) (message : EncryptedRatchetMessage) (identitySecret : Option Bytes)
  | answerIdentity (secret ciphertext : Bytes)
  | markPqxdhV2 (authentication : PqAuthentication)
  | setPrekeyHeader (header : PrekeyHeader)
  | expectIdentityAnswer
  /-- Through the storage record. -/
  | reload (now : Nat)
  /-- Through the storage record and the CFE record. -/
  | saveLoad (now : Nat)

/-- What the log of a run shows. -/
inductive Seen where
  /-- The public half of a key pair drawn for a DH step. -/
  | drew (publicKey : Bytes)
  | sent (message : EncryptedRatchetMessage)
  | accepted (message : EncryptedRatchetMessage) (plaintext : Bytes)
deriving DecidableEq

/-- The two ways a session comes to be, with what its creation accepted. -/
inductive Begins (C : Crypto) : Session → List Seen → Prop
  | initiator {env : Env} {rootKey ephemeralPrivate remoteIdentity contactId localUserId : Bytes}
      {suiteId : SuiteID} {s : Session}
      (h : newInitiatorSession C env rootKey ephemeralPrivate remoteIdentity contactId
        localUserId suiteId = .ok s) : Begins C s []
  | responder {env : Env} {rootKey localIdentity contactId localUserId : Bytes}
      {firstMessage : EncryptedRatchetMessage} {s : Session} {plaintext : Bytes}
      (h : newResponderSession C env rootKey localIdentity firstMessage contactId localUserId =
        .ok (s, plaintext)) : Begins C s [.accepted firstMessage plaintext]

def Created (C : Crypto) (s : Session) : Prop := ∃ first, Begins C s first

def drawn (C : Crypto) (env : Env) : List Seen :=
  match C.generateKemKeys env.dhSeed with
  | .ok pair => [.drew pair.2]
  | .error _ => []

def loadedOr (s : Session) : Except StorageError Session → Session
  | .ok t => t
  | .error _ => s

def Session.step (C : Crypto) (s : Session) : Event → Session × List Seen
  | .encrypt env plaintext =>
    match encrypt C env plaintext s with
    | .ok m t => (t, [.sent m])
    | .error _ t => (t, [])
  | .decrypt env m secret =>
    match decryptWithIdentitySecret C env m secret s with
    | .ok plaintext t => (t, drawn C env ++ [.accepted m plaintext])
    | .error _ t => (t, drawn C env)
  | .answerIdentity secret ciphertext =>
    match answerInitiatorIdentity C secret ciphertext s with
    | .ok _ t => (t, [])
    | .error _ t => (t, [])
  | .markPqxdhV2 authentication => (s.markPqxdhV2 authentication, [])
  | .setPrekeyHeader header => (s.setPrekeyHeader header, [])
  | .expectIdentityAnswer => (s.expectIdentityAnswer, [])
  | .reload now => (loadedOr s (fromSerializable now s.toSerializable), [])
  | .saveLoad now => (loadedOr s (s.saveLoad now), [])

variable {C : Crypto} {s t : Session} {env : Env} {plaintext : Bytes} {m : EncryptedRatchetMessage}
  {secret : Option Bytes}

theorem Session.step_encrypt (h : Session.encrypt C env plaintext s = .ok m t) :
    s.step C (.encrypt env plaintext) = (t, [.sent m]) := by
  show (match Session.encrypt C env plaintext s with
    | .ok m t => (t, [Seen.sent m]) | .error _ t => (t, [])) = _
  rw [h]

theorem Session.step_decrypt (h : decryptWithIdentitySecret C env m secret s = .ok plaintext t) :
    s.step C (.decrypt env m secret) = (t, drawn C env ++ [.accepted m plaintext]) := by
  show (match decryptWithIdentitySecret C env m secret s with
    | .ok plaintext t => (t, drawn C env ++ [Seen.accepted m plaintext])
    | .error _ t => (t, drawn C env)) = _
  rw [h]

/-- The log shows a message as accepted only if `decrypt` returned its plaintext. -/
theorem Session.ok_of_accepted {m' : EncryptedRatchetMessage}
    (h : Seen.accepted m' plaintext ∈ (s.step C (.decrypt env m secret)).2) :
    ∃ t, decryptWithIdentitySecret C env m secret s = .ok plaintext t := by
  have hdrawn : ∀ x p, Seen.accepted x p ∉ drawn C env := by
    intro x p hmem
    unfold drawn at hmem
    split at hmem
    · cases List.mem_singleton.mp hmem
    · cases hmem
  rw [Session.step] at h
  split at h
  · rename_i pt t hrun
    rcases List.mem_append.mp h with hold | hnew
    · exact absurd hold (hdrawn _ _)
    · cases List.mem_singleton.mp hnew
      exact ⟨t, hrun⟩
  · exact absurd h (hdrawn _ _)

/-! ## What one event can do -/

namespace Session

variable {C : Crypto} {s t u : Session}

/-- The fields no message changes, and the version only a message raises. -/
structure SameIdentity (s t : Session) : Prop where
  suiteId : t.suiteId = s.suiteId
  sessionId : t.sessionId = s.sessionId
  contactId : t.contactId = s.contactId
  localUserId : t.localUserId = s.localUserId

theorem SameIdentity.refl (s : Session) : SameIdentity s s := ⟨rfl, rfl, rfl, rfl⟩

theorem SameIdentity.trans (h : SameIdentity s t) (h' : SameIdentity t u) : SameIdentity s u :=
  ⟨h'.suiteId.trans h.suiteId, h'.sessionId.trans h.sessionId, h'.contactId.trans h.contactId,
    h'.localUserId.trans h.localUserId⟩

/-- The PQ half a message's key is looked up in: a DH step may have started an exchange. -/
def steppedPq (C : Crypto) (env : Env) (stepped : Bool) (s : Session) : PqRatchet :=
  if stepped then s.pq.maybeAdvancePqRatchet C s.suiteId env else s.pq

variable {now : Nat} {m : EncryptedRatchetMessage} {key plaintext : Bytes} {env : Env}
  {secret : Option Bytes} {stepped : Bool}

theorem Derives.frame (h : Derives C now m s key t) : ∃ dr, t = { s with dr := dr } := by
  obtain ⟨-, -, _, _, _, -, -, rfl⟩ := h
  exact ⟨_, rfl⟩

theorem SavesOld.frame (h : SavesOld C now m s t) :
    ∃ dr, t = { s with dr := dr } := by
  rcases h with ⟨-, rfl⟩ | ⟨_, _, _, -, -, rfl⟩
  · exact ⟨_, rfl⟩
  · exact ⟨_, rfl⟩

/-- Finding a classical key moves the classical half, the identity proof and, on a DH step,
the start of an exchange. -/
theorem ClassicalKey.frame (h : ClassicalKey C env m secret s key stepped t) :
    ∃ dr proof lastAt, t = { s with
      dr := dr, pq := s.steppedPq C env stepped, identityProof := proof,
      lastRatchetAt := lastAt } := by
  cases h with
  | skipped _ => exact ⟨_, _, _, rfl⟩
  | live _ _ _ hkey =>
    obtain ⟨dr, rfl⟩ := hkey.frame
    exact ⟨dr, _, _, rfl⟩
  | ratchet _ _ _ hsave _ hkey =>
    obtain ⟨dr, rfl⟩ := hkey.frame
    obtain ⟨dr', rfl⟩ := hsave.frame
    exact ⟨dr, _, _, rfl⟩

theorem completeIdentityProof_frame (s : Session) :
    ∃ proof authentication, s.completeIdentityProof =
      { s with identityProof := proof, pqAuthentication := authentication } := by
  unfold completeIdentityProof
  split
  · exact ⟨_, _, rfl⟩
  · exact ⟨_, _, rfl⟩

/-- What an accepted message does outside the classical half. -/
structure AcceptFrame (C : Crypto) (env : Env) (m : EncryptedRatchetMessage) (stepped : Bool)
    (s u : Session) : Prop where
  same : SameIdentity s u
  peerAdVersion : u.peerAdVersion = max s.peerAdVersion m.adVersion
  pq : ∃ pqKey pq, PqRatchet.pqReceiveKey C s.suiteId env.now (s.pqPosition m).1
      (s.pqPosition m).2 (s.steppedPq C env stepped) = .ok pqKey pq ∧
    u.pq = pq.commitPqPostDecrypt C s.suiteId env m

theorem finish_frame (env : Env) (m : EncryptedRatchetMessage) (stepped : Bool)
    (pq : PqRatchet) (t : Session) :
    ∃ proof authentication, t.finish C env m stepped pq = { t with
      pq := pq.commitPqPostDecrypt C t.suiteId env m
      peerAdVersion := max t.peerAdVersion m.adVersion
      identityProof := proof
      pqAuthentication := authentication } := by
  unfold finish
  cases stepped with
  | true =>
    obtain ⟨proof, authentication, h⟩ := completeIdentityProof_frame
      (commitPqPostDecrypt C { t with
        pq := pq, peerAdVersion := max t.peerAdVersion m.adVersion } env m)
    exact ⟨proof, authentication, h⟩
  | false => exact ⟨_, _, rfl⟩

theorem acceptFrame {pq : PqRatchet} (hkey : ClassicalKey C env m secret s key stepped t)
    (hopen : Opens C env m t key pq plaintext) :
    AcceptFrame C env m stepped s { t.finish C env m stepped pq with prekeyHeader := none } := by
  obtain ⟨dr, proof, lastAt, rfl⟩ := hkey.frame
  obtain ⟨pqKey, messageKey, hpq, -, -⟩ := hopen
  obtain ⟨proof', authentication, hfinish⟩ := finish_frame (C := C) env m stepped pq
    { s with
      dr := dr, pq := s.steppedPq C env stepped, identityProof := proof, lastRatchetAt := lastAt }
  rw [hfinish]
  exact ⟨⟨rfl, rfl, rfl, rfl⟩, rfl, pqKey, pq, hpq, rfl⟩

theorem decryptWithIdentitySecret_ok
    (h : decryptWithIdentitySecret C env m secret s = .ok plaintext u) :
    ∃ key stepped t pq,
      ClassicalKey C env m secret (s.cleanupIfDue env.now) key stepped t ∧
      Opens C env m t key pq plaintext ∧
      u = { t.finish C env m stepped pq with prekeyHeader := none } := by
  unfold decryptWithIdentitySecret at h
  obtain ⟨pt, v, hrun, h⟩ := bind_eq_ok.mp h
  rw [modify_bind_eq_ok, pure_eq_ok] at h
  obtain ⟨rfl, rfl⟩ := h
  obtain ⟨key, stepped, t, pq, hkey, hopen, rfl⟩ := decryptMessage_ok hrun
  exact ⟨key, stepped, t, pq, hkey, hopen, rfl⟩

theorem cleanupIfDue_same (s : Session) (now : Nat) : SameIdentity s (s.cleanupIfDue now) := by
  unfold cleanupIfDue
  split
  · exact ⟨rfl, rfl, rfl, rfl⟩
  · exact .refl s

theorem cleanupIfDue_peerAdVersion (s : Session) (now : Nat) :
    (s.cleanupIfDue now).peerAdVersion = s.peerAdVersion := by
  unfold cleanupIfDue
  split
  · rfl
  · rfl

/-- What one event can do, and what the log shows of it. -/
inductive StepCase (C : Crypto) (s : Session) : Event → Session × List Seen → Prop
  | sent {env : Env} {plaintext padded : Bytes} {pos : SendPosition}
      {m : EncryptedRatchetMessage} {t : Session}
      (hpad : padMessageDefault plaintext = .ok padded) (hstep : SendStep C env s pos t)
      (hseal : SealedAs C t pos padded m) : StepCase C s (.encrypt env plaintext) (t, [.sent m])
  | unsent {env : Env} {plaintext : Bytes} {t : Session} (hleft : SendLeft C env s t) :
      StepCase C s (.encrypt env plaintext) (t, [])
  | accepted {env : Env} {m : EncryptedRatchetMessage} {secret : Option Bytes}
      {key plaintext : Bytes} {stepped : Bool} {t : Session} {pq : PqRatchet}
      (hkey : ClassicalKey C env m secret (s.cleanupIfDue env.now) key stepped t)
      (hopen : Opens C env m t key pq plaintext) :
      StepCase C s (.decrypt env m secret)
        ({ t.finish C env m stepped pq with prekeyHeader := none },
          drawn C env ++ [.accepted m plaintext])
  | refused {env : Env} {m : EncryptedRatchetMessage} {secret : Option Bytes} {t : Session}
      (hroll : RolledBack (s.cleanupIfDue env.now) t) :
      StepCase C s (.decrypt env m secret) (t, drawn C env)
  | answered {secret ciphertext root chain : Bytes} (hfirst : s.dr.sendingChainLength = 0)
      (hproof : s.identityProof = .none)
      (hmix : mixIdentitySecret C s.dr.rootKey s.dr.sendingChainKey secret = .ok (root, chain)) :
      StepCase C s (.answerIdentity secret ciphertext)
        ({ s with
          dr := { s.dr with rootKey := root, sendingChainKey := chain }
          identityProof := .answered ciphertext }, [])
  | unanswered {secret ciphertext : Bytes} :
      StepCase C s (.answerIdentity secret ciphertext) (s, [])
  | marked {authentication : PqAuthentication} :
      StepCase C s (.markPqxdhV2 authentication) (s.markPqxdhV2 authentication, [])
  | headed {header : PrekeyHeader} :
      StepCase C s (.setPrekeyHeader header) (s.setPrekeyHeader header, [])
  | expecting : StepCase C s .expectIdentityAnswer (s.expectIdentityAnswer, [])
  | loaded {event : Event} {now : Nat} {t : Session}
      (hevent : event = .reload now ∨ event = .saveLoad now) (hload : LoadFrame now s t) :
      StepCase C s event (t, [])
  | notLoaded {now : Nat} : StepCase C s (.saveLoad now) (s, [])

theorem step_case (C : Crypto) (s : Session) (event : Event) :
    StepCase C s event (s.step C event) := by
  cases event with
  | encrypt env plaintext =>
    have hspec := encrypt_spec (C := C) env plaintext s
    show StepCase C s _ (match Session.encrypt C env plaintext s with
      | .ok m t => (t, [.sent m]) | .error _ t => (t, []))
    cases hrun : Session.encrypt C env plaintext s with
    | ok m t =>
      obtain ⟨pos, padded, hpad, hstep, hseal⟩ := hspec.of_ok hrun
      exact .sent hpad hstep hseal
    | error e t => exact .unsent (hspec.of_error hrun)
  | decrypt env m secret =>
    show StepCase C s _ (match decryptWithIdentitySecret C env m secret s with
      | .ok plaintext t => (t, drawn C env ++ [.accepted m plaintext])
      | .error _ t => (t, drawn C env))
    cases hrun : decryptWithIdentitySecret C env m secret s with
    | ok plaintext t =>
      obtain ⟨key, stepped, t', pq, hkey, hopen, rfl⟩ := decryptWithIdentitySecret_ok hrun
      exact .accepted hkey hopen
    | error e t => exact .refused (decrypt_error_rolledBack hrun)
  | answerIdentity secret ciphertext =>
    have hspec := answerInitiatorIdentity_spec (C := C) secret ciphertext s
    show StepCase C s _ (match answerInitiatorIdentity C secret ciphertext s with
      | .ok _ t => (t, []) | .error _ t => (t, []))
    cases hrun : answerInitiatorIdentity C secret ciphertext s with
    | ok u t =>
      obtain ⟨root, chain, hfirst, hproof, hmix, rfl⟩ := hspec.of_ok hrun
      exact .answered hfirst hproof hmix
    | error e t =>
      obtain rfl := hspec.of_error hrun
      exact .unanswered
  | markPqxdhV2 _ => exact .marked
  | setPrekeyHeader _ => exact .headed
  | expectIdentityAnswer => exact .expecting
  | reload now =>
    show StepCase C s _ (loadedOr s (fromSerializable now s.toSerializable), [])
    rw [fromSerializable_eq]
    exact .loaded (.inl rfl) (loadFrame_of_fromSerializable (fromSerializable_eq now s))
  | saveLoad now =>
    show StepCase C s _ (loadedOr s (s.saveLoad now), [])
    cases hload : s.saveLoad now with
    | ok t => exact .loaded (.inr rfl) (loadFrame_of_saveLoad hload)
    | error e => exact .notLoaded

end Session

end ConstructCore
