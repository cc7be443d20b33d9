import ConstructCore.Orchestration.Instances
import ConstructCore.Ratchet.Acceptance

/-!
# The initiator proves its KEM identity

A responder that answers the initiator's KEM identity key mixes the encapsulated secret into its
root key and its first sending chain, and carries the ciphertext on what it sends. The proof is
the first message it reads on a chain it has to step to: that chain is opened from the mixed root
key. The initiator, awaiting the answer, mixes the decapsulated secret into the chain and the root
of its first receiving step.

* `proof_step`: what one event can do to the proof, the label and the root key. It keeps all
  three, or it is a decrypt that returns after a DH step, an answer, or a call of the opening.
* `Unproven`: the responder before the proof. `unproven_step` is the step, `unproven_run` the run.
* `Awaiting`: the initiator before its first step, and `awaiting_run`.
* `initiator_proves_identity`: both sides together.
-/

namespace ConstructCore

open Bytes Op KeyChain

namespace Session

variable {C : Crypto} {s t : Session}

/-! ## What one event can do -/

/-- The proof state, the label and the root key are as they were. -/
structure SameProof (s t : Session) : Prop where
  identityProof : t.identityProof = s.identityProof
  pqAuthentication : t.pqAuthentication = s.pqAuthentication
  rootKey : t.dr.rootKey = s.dr.rootKey

variable {u : Session} {now : Nat} {m : EncryptedRatchetMessage}
  {key plaintext mixedRoot ciphertext : Bytes} {env : Env} {secret : Option Bytes}
  {events : List Event} {event : Event} {S : Suite} {l : Lifecycle}

theorem SameProof.trans (h : SameProof s t) (h' : SameProof t u) :
    SameProof s u :=
  ⟨h'.identityProof.trans h.identityProof, h'.pqAuthentication.trans h.pqAuthentication,
    h'.rootKey.trans h.rootKey⟩

/-- What `completeIdentityProof` makes of the proof state. -/
def completedProof : IdentityProof → IdentityProof
  | .answered _ => .none
  | proof => proof

def completedLabel (label : PqAuthentication) : IdentityProof → PqAuthentication
  | .answered _ => .receivedProven
  | _ => label

theorem completeIdentityProof_eq (s : Session) :
    s.completeIdentityProof.identityProof = completedProof s.identityProof ∧
      s.completeIdentityProof.pqAuthentication =
        completedLabel s.pqAuthentication s.identityProof ∧
      s.completeIdentityProof.dr = s.dr := by
  unfold completeIdentityProof
  cases hproof : s.identityProof with
  | none | awaitingAnswer => exact ⟨hproof, rfl, rfl⟩
  | answered ciphertext => exact ⟨rfl, rfl, rfl⟩

/-- A decrypt that returns after a DH step: the values of the step, and the key it took off the
chain the step opened. -/
structure Turned (C : Crypto) (s : Session) (env : Env) (m : EncryptedRatchetMessage)
    (secret : Option Bytes) (d : DhTurn) (key : Bytes) (t : Session) : Prop where
  returned : ∃ plaintext, decryptWithIdentitySecret C env m secret s = .ok plaintext t
  took : ∃ u, ClassicalKey C env m secret (s.cleanupIfDue env.now) key true u
  receive : C.kdfRk s.dr.rootKey d.dhReceive = .ok (d.receiveRoot, d.receiveChain)
  mix : awaitedMix C s.identityProof secret d.receiveRoot d.receiveChain =
    .ok (d.mixedRoot, d.mixedChain, d.proof)
  key : keyAt (ckStep C) d.mixedChain m.messageNumber.toNat = some key
  identityProof : t.identityProof = completedProof d.proof
  pqAuthentication : t.pqAuthentication = completedLabel s.pqAuthentication d.proof

theorem cleanupIfDue_sameProof (s : Session) (now : Nat) : SameProof s (s.cleanupIfDue now) := by
  unfold cleanupIfDue
  split
  · exact ⟨rfl, rfl, rfl⟩
  · exact ⟨rfl, rfl, rfl⟩

theorem SavesOld.sameProof (h : SavesOld C now m s t) :
    SameProof s t := by
  rcases h with ⟨-, rfl⟩ | ⟨old, chain, skipped, -, -, rfl⟩
  · exact ⟨rfl, rfl, rfl⟩
  · exact ⟨rfl, rfl, rfl⟩

theorem Derives.sameProof (h : Derives C now m s key t) : SameProof s t := by
  obtain ⟨-, -, _, _, _, -, -, rfl⟩ := h
  exact ⟨rfl, rfl, rfl⟩

theorem ClassicalKey.sameProof (h : ClassicalKey C env m secret s key false t) : SameProof s t := by
  cases h with
  | skipped _ => exact ⟨rfl, rfl, rfl⟩
  | live _ _ _ hkey => exact hkey.sameProof

theorem finish_sameProof (env : Env) (m : EncryptedRatchetMessage) (pq : PqRatchet) (t : Session) :
    SameProof t { t.finish C env m false pq with prekeyHeader := none } := ⟨rfl, rfl, rfl⟩

theorem SendLeft.sameProof (h : SendLeft C env s t) : SameProof s t := by
  have hroot : t.dr.rootKey = s.dr.rootKey := by
    rcases h.dr with hdr | ⟨_, _, _, _, hdr⟩
    · rw [hdr]
    · rw [hdr]
      rfl
  refine ⟨?_, ?_, hroot⟩
  · rw [h.rest]
  · rw [h.rest]

theorem Derives.keyAt_zero (h : Derives C now m s key t) (hzero : s.dr.receivingChainLength = 0) :
    KeyChain.keyAt (ckStep C) s.dr.receivingChainKey m.messageNumber.toNat = some key := by
  obtain ⟨-, -, chain, next, skipped, hmove, hck, -⟩ := h
  have hstate := hmove.stateAt
  rw [hzero] at hstate
  exact keyAt_of_step hstate (ckStep_of_ok hck)

theorem ClassicalKey.turned {pq : PqRatchet}
    (hkey : ClassicalKey C env m secret (s.cleanupIfDue env.now) key true t)
    (hrun : decryptWithIdentitySecret C env m secret s =
      .ok plaintext { t.finish C env m true pq with prekeyHeader := none }) :
    ∃ d, Turned C s env m secret d key { t.finish C env m true pq with prekeyHeader := none } := by
  have htook := hkey
  cases hkey with
  | @ratchet s₁ _ d _ _ _ hsave hturn hderives =>
    have hsame := (cleanupIfDue_sameProof s env.now).trans hsave.sameProof
    have hafter := hderives.sameProof
    have hreceive := hturn.receive
    have hmix := hturn.mix
    rw [hsame.rootKey] at hreceive
    rw [hsame.identityProof] at hmix
    have hproof : t.identityProof = d.proof := hafter.identityProof
    have hlabel : t.pqAuthentication = s.pqAuthentication :=
      hafter.pqAuthentication.trans hsame.pqAuthentication
    refine ⟨d, ⟨plaintext, hrun⟩, ⟨t, htook⟩, hreceive, hmix, hderives.keyAt_zero rfl, ?_, ?_⟩
    · rw [← hproof]
      exact (completeIdentityProof_eq _).1
    · rw [← hproof, ← hlabel]
      exact (completeIdentityProof_eq _).2.1

/-- **What one event can do** to the proof, the label and the root key. -/
inductive ProofStep (C : Crypto) (s : Session) : Event → Session → Prop
  | kept {event : Event} {t : Session} (h : SameProof s t) : ProofStep C s event t
  | turned {env : Env} {m : EncryptedRatchetMessage} {secret : Option Bytes} {d : DhTurn}
      {key : Bytes} {t : Session} (h : Turned C s env m secret d key t) :
      ProofStep C s (.decrypt env m secret) t
  | answered {secret ciphertext root chain : Bytes} (hproof : s.identityProof = .none)
      (hmix : mixIdentitySecret C s.dr.rootKey s.dr.sendingChainKey secret = .ok (root, chain)) :
      ProofStep C s (.answerIdentity secret ciphertext)
        { s with
          dr := { s.dr with rootKey := root, sendingChainKey := chain }
          identityProof := .answered ciphertext }
  | marked {authentication : PqAuthentication} :
      ProofStep C s (.markPqxdhV2 authentication) (s.markPqxdhV2 authentication)
  | expecting : ProofStep C s .expectIdentityAnswer s.expectIdentityAnswer

theorem proof_step (event : Event) : ProofStep C s event (s.step C event).1 := by
  have hcase := step_case C s event
  generalize hr : s.step C event = r at hcase ⊢
  cases hcase with
  | sent _ hstep _ => exact .kept hstep.left.sameProof
  | unsent hleft => exact .kept hleft.sameProof
  | @accepted env m secret key plaintext stepped t pq hkey hopen =>
    cases stepped with
    | false =>
      exact .kept (((cleanupIfDue_sameProof s env.now).trans hkey.sameProof).trans
        (finish_sameProof env m pq t))
    | true =>
      have hmem : Seen.accepted m plaintext ∈ (s.step C (.decrypt env m secret)).2 := by
        rw [hr]
        exact List.mem_append_right _ (List.mem_singleton.mpr rfl)
      obtain ⟨u, hrun⟩ := ok_of_accepted hmem
      obtain rfl := congrArg Prod.fst ((step_decrypt hrun).symm.trans hr)
      obtain ⟨d, hturned⟩ := hkey.turned hrun
      exact .turned hturned
  | @refused env _ _ t hroll =>
    have hsame := cleanupIfDue_sameProof s env.now
    unfold RolledBack at hroll
    refine .kept ?_
    rw [hroll]
    exact ⟨hsame.identityProof, hsame.pqAuthentication, hsame.rootKey⟩
  | answered _ hproof hmix => exact .answered hproof hmix
  | unanswered | notLoaded | headed => exact .kept ⟨rfl, rfl, rfl⟩
  | marked => exact .marked
  | expecting => exact .expecting
  | loaded _ hload =>
    obtain ⟨pq, sid, -, -, rfl⟩ := hload
    exact .kept ⟨rfl, rfl, rfl⟩

/-! ## The responder -/

/-- What is called on a responder's session. `mark_pqxdh_v2` labels it right after the answer
(`after_responder_init`), so never with the proven label and never once the initiator has proved
itself; `expect_identity_answer` is the initiator's. -/
def Responding (s : Session) : Event → Prop
  | .markPqxdhV2 authentication =>
    authentication ≠ .receivedProven ∧ s.pqAuthentication ≠ .receivedProven
  | .expectIdentityAnswer => False
  | _ => True

/-- A responder before the proof: it carries the ciphertext, and the root key is the one the
secret was mixed into. -/
structure Unproven (ciphertext mixedRoot : Bytes) (s : Session) : Prop where
  identityProof : s.identityProof = .answered ciphertext
  rootKey : s.dr.rootKey = mixedRoot

/-- The proof: the event is a decrypt that returns after a DH step, with a key off the chain
opened from the mixed root key. -/
def Proves (C : Crypto) (mixedRoot : Bytes) (s : Session) (event : Event) : Prop :=
  ∃ env m secret d key, event = .decrypt env m secret ∧
    Turned C s env m secret d key (s.step C event).1 ∧ OpenedFrom C mixedRoot d.mixedChain ∧
    keyAt (ckStep C) d.mixedChain m.messageNumber.toNat = some key

def ProvenIn (C : Crypto) (mixedRoot : Bytes) (s : Session) (events : List Event) : Prop :=
  ∃ before event after, events = before ++ event :: after ∧
    Proves C mixedRoot (Machine.run (Session.step C) s before) event

theorem ProvenIn.concat (h : ProvenIn C mixedRoot s events) (event : Event) :
    ProvenIn C mixedRoot s (events ++ [event]) := by
  obtain ⟨before, proof, after, rfl, hproves⟩ := h
  exact ⟨before, proof, after ++ [event], by simp, hproves⟩

/-- One event before the proof leaves the responder carrying the ciphertext, with a label that is
no closer to the proven one, or is the proof. -/
theorem unproven_step (h : Unproven ciphertext mixedRoot s) (hcond : Responding s event) :
    (Unproven ciphertext mixedRoot (s.step C event).1 ∧
        ((s.step C event).1.pqAuthentication = .receivedProven →
          s.pqAuthentication = .receivedProven)) ∨
      (Proves C mixedRoot s event ∧
        (s.step C event).1.pqAuthentication = .receivedProven) := by
  have hstep := proof_step (C := C) (s := s) event
  generalize ht : (s.step C event).1 = t at hstep ⊢
  cases hstep with
  | kept hsame =>
    refine .inl ⟨⟨hsame.identityProof.trans h.identityProof, hsame.rootKey.trans h.rootKey⟩, ?_⟩
    intro hlabel
    rw [← hsame.pqAuthentication, hlabel]
  | @turned env m secret d key t hturned =>
    -- not awaiting: the step mixes nothing, and leaves the proof state to be completed
    have hmix := hturned.mix
    rw [h.identityProof] at hmix
    unfold awaitedMix at hmix
    rw [if_neg (by simp)] at hmix
    obtain ⟨-, hrest⟩ := Prod.mk.inj (Except.ok.inj hmix)
    obtain ⟨hchain, hproof⟩ := Prod.mk.inj hrest
    have hreceive := hturned.receive
    rw [h.rootKey] at hreceive
    refine .inr ⟨⟨env, m, secret, d, key, rfl, ht ▸ hturned, ?_, hturned.key⟩, ?_⟩
    · exact ⟨_, _, _, hreceive, .inl hchain.symm⟩
    · rw [hturned.pqAuthentication, ← hproof]
      rfl
  | answered hproof _ =>
    rw [h.identityProof] at hproof
    cases hproof
  | marked =>
    -- the label is one the callers pass, which is not the proven one
    refine .inl ⟨⟨h.identityProof, h.rootKey⟩, ?_⟩
    intro hlabel
    exact absurd hlabel hcond.1
  | expecting => exact hcond.elim

theorem proven_step (h : s.pqAuthentication = .receivedProven) (hcond : Responding s event) :
    (s.step C event).1.pqAuthentication = .receivedProven := by
  have hstep := proof_step (C := C) (s := s) event
  generalize (s.step C event).1 = t at hstep ⊢
  cases hstep with
  | kept hsame => rw [hsame.pqAuthentication, h]
  | @turned _ _ _ d _ _ hturned =>
    rw [hturned.pqAuthentication, h]
    cases d.proof <;> rfl
  | answered _ _ => exact h
  | marked => exact absurd h hcond.2
  | expecting => exact hcond.elim

/-- Over a run: the responder is as it was left, or the run contains the proof and the label is
the proven one. -/
theorem unproven_run (h : Unproven ciphertext mixedRoot s)
    (hevents : Machine.Along (Session.step C) Responding s events) :
    Unproven ciphertext mixedRoot (Machine.run (Session.step C) s events) ∨
      ((Machine.run (Session.step C) s events).pqAuthentication = .receivedProven ∧
        ProvenIn C mixedRoot s events) := by
  refine @Machine.history_rule _ _ _ (Session.step C) Responding s
    (fun events => Unproven ciphertext mixedRoot (Machine.run (Session.step C) s events) ∨
      ((Machine.run (Session.step C) s events).pqAuthentication = .receivedProven ∧
        ProvenIn C mixedRoot s events)) ?_ (.inl h) events hevents
  intro before event _ hcond hbefore
  rw [Machine.run_concat]
  rcases hbefore with hun | ⟨hlabel, hproven⟩
  · rcases unproven_step (C := C) hun hcond with ⟨hstill, -⟩ | ⟨hproves, hlabel⟩
    · exact .inl hstill
    · exact .inr ⟨hlabel, before, event, [], rfl, hproves⟩
  · exact .inr ⟨proven_step hlabel hcond, hproven.concat event⟩

theorem Unproven.sent (h : Unproven ciphertext mixedRoot s)
    (hsend : encrypt C env plaintext s = .ok m u) :
    m.identityProofCiphertext = some ciphertext := by
  obtain ⟨pos, padded, -, hstep, hseal⟩ := (encrypt_spec (C := C) env plaintext s).of_ok hsend
  rw [hseal.identityProofCiphertext]
  unfold outgoingIdentityProof
  rw [hstep.left.sameProof.identityProof, h.identityProof]

/-! ## The initiator -/

/-- The secret was mixed into the root and the chain of the step: by `mix_identity_secret`, from
what the step derived before. -/
def MixedIn (C : Crypto) (secret : Bytes) (d : DhTurn) : Prop :=
  mixIdentitySecret C d.receiveRoot d.receiveChain secret = .ok (d.mixedRoot, d.mixedChain)

/-- An initiator that awaits the answer commits a DH step only with the secret it was handed, and
mixes it in. -/
theorem Turned.mixed {d : DhTurn} (h : Turned C s env m secret d key t)
    (hawait : s.identityProof = .awaitingAnswer) :
    ∃ value, secret = some value ∧ MixedIn C value d ∧ t.identityProof = .none := by
  have hmix := h.mix
  rw [hawait] at hmix
  unfold awaitedMix at hmix
  rw [if_pos rfl] at hmix
  cases secret with
  | none => cases hmix
  | some value =>
    dsimp only at hmix
    cases hkeys : mixIdentitySecret C d.receiveRoot d.receiveChain value with
    | error e =>
      rw [hkeys] at hmix
      cases hmix
    | ok keys =>
      rw [hkeys] at hmix
      obtain ⟨hroot, hrest⟩ := Prod.mk.inj (Except.ok.inj hmix)
      obtain ⟨hchain, hproof⟩ := Prod.mk.inj hrest
      refine ⟨value, rfl, ?_, ?_⟩
      · unfold MixedIn
        rw [hkeys, ← hroot, ← hchain]
      · rw [h.identityProof, ← hproof]
        rfl

/-- An initiator that awaits the answer: it has made no DH step. -/
structure Awaiting (s₀ s : Session) : Prop where
  identityProof : s.identityProof = .awaitingAnswer
  rootKey : s.dr.rootKey = s₀.dr.rootKey

/-- A run contains the answer: a decrypt that returns after a DH step, the first since `s`, with
the secret that the device `l` decapsulates from its message mixed in. -/
def AnsweredIn (S : Suite) (l : Lifecycle) (s : Session) (events : List Event) : Prop :=
  ∃ before env m secret after d key, events = before ++ .decrypt env m (some secret) :: after ∧
    Awaiting s (Machine.run (Session.step S.toCrypto) s before) ∧
    Turned S.toCrypto (Machine.run (Session.step S.toCrypto) s before) env m (some secret) d key
      (Machine.run (Session.step S.toCrypto) s (before ++ [.decrypt env m (some secret)])) ∧
    MixedIn S.toCrypto secret d ∧
    ∃ ciphertext, m.identityProofCiphertext = some ciphertext ∧
      l.client.keyManager.kemIdentityDecapsulate S ciphertext = .ok secret

/-- `decrypt` is handed what `identity_answer_secret` of the device returns for the message. -/
def HandsAnswer (S : Suite) (l : Lifecycle) : Event → Prop
  | .decrypt _ m secret => l.identityAnswerSecret S m = .ok secret
  | _ => True

theorem identityAnswerSecret_some {secret : Bytes}
    (h : l.identityAnswerSecret S m = .ok (some secret)) :
    ∃ ciphertext, m.identityProofCiphertext = some ciphertext ∧
      l.client.keyManager.kemIdentityDecapsulate S ciphertext = .ok secret := by
  unfold Lifecycle.identityAnswerSecret at h
  split at h
  · cases h
  · rename_i ciphertext hct
    split at h
    · rename_i value hvalue
      cases h
      exact ⟨ciphertext, hct, hvalue⟩
    · cases h

/-- Over a run: the initiator awaits the answer still, or the run contains it. -/
theorem awaiting_run (h : s.identityProof = .awaitingAnswer)
    (hhands : ∀ event ∈ events, HandsAnswer S l event) :
    Awaiting s (Machine.run (Session.step S.toCrypto) s events) ∨ AnsweredIn S l s events := by
  refine @Machine.history_rule _ _ _ (Session.step S.toCrypto)
    (fun _ event => HandsAnswer S l event) s
    (fun events => Awaiting s (Machine.run (Session.step S.toCrypto) s events) ∨
      AnsweredIn S l s events) ?_ (.inl ⟨h, rfl⟩) events
    (Machine.along_of_mem hhands s)
  intro before event _ hevent hbefore
  rcases hbefore with hawait | ⟨before', env, m, secret, after, d, key, rfl, hrest⟩
  · rw [Machine.run_concat]
    have hstep := proof_step (C := S.toCrypto)
      (s := Machine.run (Session.step S.toCrypto) s before) event
    have hconcat := @Machine.run_concat _ _ _ (Session.step S.toCrypto) s before event
    generalize ((Machine.run (Session.step S.toCrypto) s before).step S.toCrypto event).1 = t
      at hstep hconcat ⊢
    cases hstep with
    | kept hsame =>
      exact .inl ⟨hsame.identityProof.trans hawait.identityProof,
        hsame.rootKey.trans hawait.rootKey⟩
    | @turned env m secret d key t hturned =>
      obtain ⟨value, rfl, hmixed, -⟩ := hturned.mixed hawait.identityProof
      rw [← hconcat] at hturned
      exact .inr ⟨before, env, m, value, [], d, key, rfl, hawait, hturned, hmixed,
        identityAnswerSecret_some hevent⟩
    | answered hproof _ =>
      rw [hawait.identityProof] at hproof
      cases hproof
    | marked => exact .inl ⟨hawait.identityProof, hawait.rootKey⟩
    | expecting => exact .inl ⟨rfl, hawait.rootKey⟩
  · exact .inr ⟨before', env, m, secret, after ++ [event], d, key, by simp, hrest⟩

/-! ## The theorem -/

/-- **The initiator proves its KEM identity.** A responder that answered with a secret: until its
run contains the proof, every message it sends carries the ciphertext; and an event makes the
label the proven one only if it is the proof, a decrypt that returned with a key off a chain
opened from the root key the secret was mixed into. An initiator that awaits the answer: at every
point of its run it awaits it still and has made no DH step, or the first DH step it made has
mixed in the secret decapsulated from the message that triggered it. The runs go through refused
decrypts, saves and loads. -/
theorem initiator_proves_identity (S : Suite) (l : Lifecycle) :
    (∀ (s₀ s₁ : Session) (secret ciphertext : Bytes),
      answerInitiatorIdentity S.toCrypto secret ciphertext s₀ = .ok () s₁ →
      ∃ mixedRoot, S.hkdfDeriveKey secret s₀.dr.rootKey
          (ofText "Construct-KEM-identity-root-v1") 32 = .ok mixedRoot ∧
        ∀ events : List Event,
          Machine.Along (Session.step S.toCrypto) Responding s₁ events →
          let t := Machine.run (Session.step S.toCrypto) s₁ events
          (¬ ProvenIn S.toCrypto mixedRoot s₁ events →
            ∀ env plaintext m u, encrypt S.toCrypto env plaintext t = .ok m u →
              m.identityProofCiphertext = some ciphertext) ∧
          ∀ event, Responding t event → t.pqAuthentication ≠ .receivedProven →
            (t.step S.toCrypto event).1.pqAuthentication = .receivedProven →
            Proves S.toCrypto mixedRoot t event) ∧
    ∀ s₀ : Session, s₀.identityProof = .awaitingAnswer →
      ∀ events : List Event, (∀ event ∈ events, HandsAnswer S l event) →
        Awaiting s₀ (Machine.run (Session.step S.toCrypto) s₀ events) ∨
          AnsweredIn S l s₀ events := by
  constructor
  · intro s₀ s₁ secret ciphertext hanswer
    obtain ⟨root, chain, -, -, hmix, rfl⟩ :=
      (answerInitiatorIdentity_spec (C := S.toCrypto) secret ciphertext s₀).of_ok hanswer
    refine ⟨root, (mixIdentitySecret_ok hmix).1, ?_⟩
    intro events hevents t
    have hstart : Unproven ciphertext root { s₀ with
        dr := { s₀.dr with rootKey := root, sendingChainKey := chain }
        identityProof := .answered ciphertext } := ⟨rfl, rfl⟩
    have hrun := unproven_run (C := S.toCrypto) hstart hevents
    constructor
    · intro hnot env plaintext m u hsend
      rcases hrun with hun | ⟨-, hproven⟩
      · exact hun.sent hsend
      · exact absurd hproven hnot
    · intro event hcond hbefore hafter
      rcases hrun with hun | ⟨hlabel, -⟩
      · rcases unproven_step (C := S.toCrypto) hun hcond with ⟨-, hback⟩ | ⟨hproves, -⟩
        · exact absurd (hback hafter) hbefore
        · exact hproves
      · exact absurd hlabel hbefore
  · intro s₀ hawait events hhands
    exact awaiting_run hawait hhands

/-! An exchange: the first flight, the answer, the reply that carries it, and the proof. -/

def sampleEnv (n : Nat) : Env := ⟨10 + n, 10 * n, 10 * n + 1, 10 * n + 2, 10 * n + 3⟩

def sentIn (seen : List Seen) : EncryptedRatchetMessage :=
  (seen.findSome? fun
    | .sent m => some m
    | _ => none).getD replayMessage

def sampleInitiator : Session :=
  match newInitiatorSession sizedSuite.toCrypto (sampleEnv 0) (leBytes 32 3) (leBytes 32 6)
      (leBytes 32 5) (ofText "bob") (ofText "alice") .classic with
  | .ok s => (s.markPqxdhV2 .authenticated).expectIdentityAnswer
  | .error _ => sampleSession

def sampleFirst : EncryptedRatchetMessage :=
  sentIn (Machine.log (Session.step sizedSuite.toCrypto) sampleInitiator
    [.encrypt (sampleEnv 1) [1]])

def sampleResponder : Session :=
  match newResponderSession sizedSuite.toCrypto (sampleEnv 2) (leBytes 32 3) (leBytes 32 5)
      sampleFirst (ofText "alice") (ofText "bob") with
  | .ok (s, _) => s
  | .error _ => sampleSession

/-- The ciphertext and the secret encapsulated to the initiator's KEM identity key. -/
def sampleAnswer : Bytes × Bytes :=
  match (sampleKeys 1).kemIdentityPublic sizedSuite with
  | .ok pk => ((sizedSuite.mlkem1024Encapsulate pk 77).toOption).getD ([], [])
  | .error _ => ([], [])

def sampleAnswered : Session :=
  match answerInitiatorIdentity sizedSuite.toCrypto sampleAnswer.2 sampleAnswer.1
      sampleResponder with
  | .ok _ s => s
  | .error _ s => s

def sampleReplying : List Event := [.markPqxdhV2 .received, .encrypt (sampleEnv 3) [2]]

def sampleReply : EncryptedRatchetMessage :=
  sentIn (Machine.log (Session.step sizedSuite.toCrypto) sampleAnswered sampleReplying)

def sampleReading : List Event :=
  [.encrypt (sampleEnv 1) [1], .decrypt (sampleEnv 4) sampleReply (some sampleAnswer.2)]

def sampleProof : EncryptedRatchetMessage :=
  sentIn (Machine.log (Session.step sizedSuite.toCrypto)
    (Machine.run (Session.step sizedSuite.toCrypto) sampleInitiator sampleReading)
    [.encrypt (sampleEnv 5) [3]])

theorem sampleAnswered_eq : answerInitiatorIdentity sizedSuite.toCrypto sampleAnswer.2
    sampleAnswer.1 sampleResponder = .ok () sampleAnswered := by
  obtain ⟨_, s, hrun⟩ := exists_ok_of_not_failed (show failed (answerInitiatorIdentity
    sizedSuite.toCrypto sampleAnswer.2 sampleAnswer.1 sampleResponder) = false by decide +kernel)
  unfold sampleAnswered
  rw [hrun]

/-- The responder, labelled after its answer, sends the ciphertext and is then given the proof;
the initiator mixes the secret in when it reads the reply. -/
theorem initiator_proves_identity_exchange :
    (∃ mixedRoot,
      (∃ m u, encrypt sizedSuite.toCrypto (sampleEnv 3) [2]
          (Machine.run (Session.step sizedSuite.toCrypto) sampleAnswered
            [.markPqxdhV2 .received]) = .ok m u ∧
        m.identityProofCiphertext = some sampleAnswer.1) ∧
      Proves sizedSuite.toCrypto mixedRoot
        (Machine.run (Session.step sizedSuite.toCrypto) sampleAnswered sampleReplying)
        (.decrypt (sampleEnv 6) sampleProof none)) ∧
    AnsweredIn sizedSuite (sampleNew 1).lifecycle sampleInitiator sampleReading := by
  obtain ⟨hresponder, hinitiator⟩ :=
    initiator_proves_identity sizedSuite (sampleNew 1).lifecycle
  constructor
  · obtain ⟨root, -, hrun⟩ := hresponder _ _ _ _ sampleAnswered_eq
    refine ⟨root, ?_, ?_⟩
    · obtain ⟨m, u, hsend⟩ := exists_ok_of_not_failed (show failed (encrypt sizedSuite.toCrypto
        (sampleEnv 3) [2] (Machine.run (Session.step sizedSuite.toCrypto) sampleAnswered
          [.markPqxdhV2 .received])) = false by decide +kernel)
      have hmarked : Machine.Along (Session.step sizedSuite.toCrypto) Responding sampleAnswered
          [.markPqxdhV2 .received] :=
        ⟨⟨by decide, by decide +kernel⟩, trivial⟩
      refine ⟨m, u, hsend, (hrun _ hmarked).1 ?_ _ _ m u hsend⟩
      -- a label is no decrypt
      rintro ⟨before, event, after, hsplit, env, message, secret, _, _, rfl, -⟩
      have hmem : Event.decrypt env message secret ∈ [Event.markPqxdhV2 .received] := by
        rw [hsplit]
        exact List.mem_append_right _ (List.mem_cons_self ..)
      cases List.mem_singleton.mp hmem
    · have hreplying : Machine.Along (Session.step sizedSuite.toCrypto) Responding sampleAnswered
          sampleReplying := ⟨⟨by decide, by decide +kernel⟩, trivial, trivial⟩
      exact (hrun _ hreplying).2 _ trivial (by decide +kernel) (by decide +kernel)
  · have hhands : ∀ event ∈ sampleReading,
        HandsAnswer sizedSuite (sampleNew 1).lifecycle event := by
      intro event hevent
      rcases List.mem_cons.mp hevent with rfl | hevent
      · trivial
      · obtain rfl := List.mem_singleton.mp hevent
        show (sampleNew 1).lifecycle.identityAnswerSecret sizedSuite sampleReply = _
        decide +kernel
    rcases hinitiator sampleInitiator (by decide +kernel) sampleReading hhands with hawait | h
    · exact absurd hawait.identityProof (by decide +kernel)
    · exact h

end Session

end ConstructCore
