import ConstructCore.Ratchet.Acceptance
import ConstructCore.Ratchet.Conversation
import ConstructCore.Ratchet.PqSend

/-!
# How two sessions hang together

For each direction there is a `Ledger`: the chains the writer opened, under their ratchet
keys, how far each was written and how far the reader has come. `Sends` ties the writer's
state to it and `Gets` the reader's. Between the two sides one is always ahead: it has made
the last DH step, and the step the other makes on its next message leads to the same root
key and the same chain (`Ahead`). `Paired` is all of it, and writing and reading keep it.
-/

namespace ConstructCore

open Bytes Op KeyChain

variable {C : Crypto}

/-! ## The invariant -/

def Letter.chain (x : Letter) : Bytes := x.message.dhPublicKey.toList

def Letter.number (x : Letter) : Nat := x.message.messageNumber.toNat

/-- One direction of a conversation. -/
structure Ledger where
  /-- Where the chain of a ratchet key starts. -/
  base : Bytes → Bytes
  /-- How many of its positions the writer has used. -/
  sent : Bytes → Nat
  /-- How many of its positions the reader has passed. -/
  reached : Bytes → Nat
  /-- The chains the reader has opened. -/
  opened : List Bytes
  /-- The chain it is on. -/
  current : Bytes
  letters : List Letter
  read : List Letter

def Ledger.Done (l : Ledger) (d : Bytes) (n : Nat) : Prop :=
  ∃ x ∈ l.read, x.chain = d ∧ x.number = n

/-- A letter of the writer, on a chain the reader has opened or on the writer's latest. -/
structure Letter.Written (C : Crypto) (s : Session) (l : Ledger) (x : Letter) : Prop where
  chain : x.chain ∈ l.opened ∨ x.chain = s.dr.dhRatchetPublic
  position : x.number < l.sent x.chain
  bound : x.number + 1 < 2 ^ 32
  previous : x.chain ∉ l.opened →
    x.message.previousChainLength = s.dr.previousSendingLength
  suite : x.message.suiteId = s.suiteId.asU16
  version : x.message.adVersion = adVersionLegacy
  pq : (x.message.pqMessageEpoch = 0 ∧ x.message.pqKeyIndex = 0 ∧ x.pqKey = none) ∨
    (s.suiteId.isPqRatchet = true ∧ x.message.pqMessageEpoch ≠ 0 ∧ ∃ key, x.pqKey = some key)
  sealed : ∃ sid drKey messageKey padded, hexDecode s.sessionId = some sid ∧
    keyAt (ckStep C) (l.base x.chain) x.number = some drKey ∧
    mixPqMessageKey C drKey x.pqKey = .ok messageKey ∧
    padMessageDefault x.plaintext = .ok padded ∧
    C.aeadEncrypt messageKey x.message.nonce padded
      (some (associatedData x.message.adVersion s.localUserId s.contactId sid
        s.suiteId.isPqRatchet (AdHeader.ofMessage x.message))) = .ok x.message.ciphertext

/-- The writer stands where the ledger says, and wrote its letters. -/
structure Sends (C : Crypto) (s : Session) (l : Ledger) : Prop where
  state : stateAt (ckStep C) (l.base s.dr.dhRatchetPublic) s.dr.sendingChainLength.toNat =
    some s.dr.sendingChainKey
  sent : l.sent s.dr.dhRatchetPublic = s.dr.sendingChainLength.toNat
  letters : ∀ x ∈ l.letters, x.Written C s l
  distinct : l.letters.Pairwise fun x y => ¬ (x.chain = y.chain ∧ x.number = y.number)

/-- The reader `r` stands where the ledger says; the chains it left are passed to their end.
The writer `s` is on the reader's chain or on one the reader has not opened. -/
structure Gets (C : Crypto) (s r : Session) (l : Ledger) (lost : Bytes × UInt32 → Prop) :
    Prop where
  remote : r.dr.remoteDhPublic = some l.current
  settled : Settled (ckStep C) slot l.base l.reached l.opened l.current r.dr.receivingChainKey
    r.dr.skippedMessageKeys l.Done lost
  count : l.reached l.current = r.dr.receivingChainLength.toNat
  bound : ∀ d ∈ l.opened, l.reached d < 2 ^ 32
  closed : ∀ d ∈ l.opened, d ≠ l.current → l.sent d ≤ l.reached d
  within : l.reached l.current ≤ l.sent l.current
  chain : s.dr.dhRatchetPublic = l.current ∨
    (s.dr.dhRatchetPublic ∉ l.opened ∧ s.dr.previousSendingLength.toNat = l.sent l.current)
  read : ∀ x ∈ l.read, x ∈ l.letters
  ancestry : C.FreeKdf → Ancestry C r.dr.rootKey (l.opened.map l.base)

/-- One party with what the argument keeps about it. -/
structure Side where
  session : Session
  /-- The identity secret it reads with. -/
  secret : Option Bytes
  /-- It still owes the answer to the other's identity. -/
  due : Bool
  /-- The direction it writes in. -/
  ledger : Ledger
  /-- The skipped keys it is allowed to have dropped. -/
  lost : Bytes × UInt32 → Prop

/-- One party's own half: its key pair and the direction it writes in. -/
structure Half (C : Crypto) (used : List Bytes) (x y : Side) : Prop where
  key : ∃ priv, x.session.dr.dhRatchetPrivate = some priv ∧
    C.KeyPair priv x.session.dr.dhRatchetPublic
  sends : Sends C x.session x.ledger
  gets : Gets C x.session y.session x.ledger y.lost
  names : ∀ d ∈ x.ledger.opened, d ∈ used
  named : x.session.dr.dhRatchetPublic ∈ used
  idle : x.due = true → x.ledger.letters = []
  version : x.session.peerAdVersion = adVersionLegacy

/-- `x` made the last DH step, from `y`'s ratchet key. The step `y` makes on `x`'s key leads
to `x`'s root key and to the chain `x` writes on, once an answer due is mixed in. -/
structure Ahead (C : Crypto) (x y : Side) : Prop where
  remote : x.session.dr.remoteDhPublic = some y.session.dr.dhRatchetPublic
  unseen : x.session.dr.dhRatchetPublic ∉ x.ledger.opened
  proof : x.session.identityProof ≠ .awaitingAnswer
  owes : y.due = false
  derived : ∃ priv z root chain, y.session.dr.dhRatchetPrivate = some priv ∧
    C.kemDecapsulate priv x.session.dr.dhRatchetPublic = .ok z ∧
    C.kdfRk y.session.dr.rootKey z = .ok (root, chain) ∧
    if x.due = true then
      root = x.session.dr.rootKey ∧ chain = x.ledger.base x.session.dr.dhRatchetPublic ∧
        chain = x.session.dr.sendingChainKey ∧ x.session.dr.sendingChainLength = 0 ∧
        x.session.identityProof = .none ∧ y.session.identityProof = .awaitingAnswer
    else
      ∃ proof, Session.awaitedMix C y.session.identityProof y.secret root chain =
        .ok (x.session.dr.rootKey, x.ledger.base x.session.dr.dhRatchetPublic, proof) ∧
        proof ≠ .awaitingAnswer

/-- The two sessions are two ends of one. -/
structure Matched (s r : Session) : Prop where
  sid : ∃ sid, hexDecode s.sessionId = some sid ∧ hexDecode r.sessionId = some sid
  toUser : s.contactId = r.localUserId
  fromUser : s.localUserId = r.contactId
  suite : s.suiteId = r.suiteId

variable {s r : Session} {used : List Bytes} {x y : Side}

theorem Matched.symm (h : Matched s r) : Matched r s := by
  obtain ⟨sid, hs, hr⟩ := h.sid
  exact ⟨⟨sid, hr, hs⟩, h.fromUser.symm, h.toUser.symm, h.suite.symm⟩

theorem Matched.of_same {s' : Session} (h : Matched s r) (hs : Session.SameIdentity s s') :
    Matched s' r := by
  obtain ⟨sid, hsid, hr⟩ := h.sid
  refine ⟨⟨sid, ?_, hr⟩, hs.contactId.trans h.toUser, hs.localUserId.trans h.fromUser,
    hs.suiteId.trans h.suite⟩
  rw [hs.sessionId]
  exact hsid

theorem Matched.to_same {r' : Session} (h : Matched s r) (hr : Session.SameIdentity r r') :
    Matched s r' :=
  (h.symm.of_same hr).symm

structure Paired (C : Crypto) (used : List Bytes) (x y : Side) : Prop where
  left : Half C used x y
  right : Half C used y x
  matched : Matched x.session y.session
  lead : Ahead C x y ∨ Ahead C y x

theorem Paired.swap (h : Paired C used x y) :
    Paired C used y x :=
  ⟨h.right, h.left, h.matched.symm, h.lead.symm⟩

/-! ## Writing -/

/-- The ledger after its writer came to position `n` of the chain `pub`. -/
def Ledger.wrote (l : Ledger) (pub : Bytes) (n : Nat) (new : List Letter) : Ledger :=
  { l with sent := Function.update l.sent pub n, letters := l.letters ++ new }

def Side.wrote (x : Side) (s : Session) (new : List Letter) : Side :=
  { x with
    session := s
    ledger := x.ledger.wrote x.session.dr.dhRatchetPublic s.dr.sendingChainLength.toNat new }

namespace Session

variable {s t : Session}

def withSending (s : Session) (key : Bytes) (length : UInt32) (pq : PqRatchet) : Session :=
  { s with dr := advanceSending s.dr key length, pq := pq }

def Sent (C : Crypto) (s : Session) (key : Bytes) (length : UInt32) : Prop :=
  (key = s.dr.sendingChainKey ∧ length = s.dr.sendingChainLength) ∨
    ∃ drKey, C.kdfCk s.dr.sendingChainKey = .ok (drKey, key) ∧
      length.toNat = s.dr.sendingChainLength.toNat + 1

variable {key : Bytes} {length : UInt32} {env : Env}

theorem Sent.le (h : Sent C s key length) :
    s.dr.sendingChainLength.toNat ≤ length.toNat := by
  rcases h with ⟨-, rfl⟩ | ⟨_, -, hlen⟩
  · exact Nat.le_refl _
  · omega

theorem Sent.state {base : Bytes} (h : Sent C s key length)
    (hs : stateAt (ckStep C) base s.dr.sendingChainLength.toNat = some s.dr.sendingChainKey) :
    stateAt (ckStep C) base length.toNat = some key := by
  rcases h with ⟨rfl, rfl⟩ | ⟨_, hck, hlen⟩
  · exact hs
  · rw [hlen]
    exact stateAt_succ_of_step hs (ckStep_of_ok hck)

theorem SendLeft.withSending (h : SendLeft C env s t) :
    ∃ key length pq, t = s.withSending key length pq ∧ Sent C s key length := by
  have hrest := h.rest
  rcases h.dr with hdr | ⟨drKey, next, hck, hbound, hdr⟩
  · rw [hdr] at hrest
    exact ⟨_, _, t.pq, hrest, .inl ⟨rfl, rfl⟩⟩
  · rw [hdr] at hrest
    refine ⟨_, _, t.pq, hrest, .inr ⟨drKey, hck, ?_⟩⟩
    rw [UInt32.toNat_ofNat', Nat.mod_eq_of_lt hbound]

theorem SendStep.withSending {pos : SendPosition} (h : SendStep C env s pos t) :
    ∃ pqKey pq drKey key length, t = s.withSending key length pq ∧
      PqRatchet.pqSendKey C s.suiteId (s.startedPq C env) =
        .ok (pos.pqMessageEpoch, pos.pqKeyIndex, pqKey) pq ∧
      C.kdfCk s.dr.sendingChainKey = .ok (drKey, key) ∧
      mixPqMessageKey C drKey pqKey = .ok pos.messageKey ∧
      length.toNat = s.dr.sendingChainLength.toNat + 1 := by
  have hrest := h.rest
  obtain ⟨pqKey, hpq, drKey, next, hck, hmix, hdr⟩ := h.pq
  rw [hdr] at hrest
  refine ⟨pqKey, t.pq, drKey, next, _, hrest, hpq, hck, hmix, ?_⟩
  rw [UInt32.toNat_ofNat', Nat.mod_eq_of_lt h.bound]

theorem nextPqKey_of_ok {epoch index : UInt32} {key : Option Bytes} {pq : PqRatchet}
    (h : PqRatchet.pqSendKey C s.suiteId (s.startedPq C env) = .ok (epoch, index, key) pq) :
    s.nextPqKey C env = key := by
  unfold nextPqKey
  rw [h]

theorem adSendVersion_legacy (h : s.peerAdVersion = adVersionLegacy) :
    s.adSendVersion = adVersionLegacy := by
  unfold adSendVersion
  rw [h]
  decide

end Session

section Writing

variable {s r : Session} {l : Ledger} {key : Bytes} {length : UInt32} {pq : PqRatchet}
  {new : List Letter} {lost : Bytes × UInt32 → Prop}

theorem Ledger.sent_wrote_of_ne {d pub : Bytes} (n : Nat) (h : d ≠ pub) :
    (l.wrote pub n new).sent d = l.sent d :=
  Function.update_of_ne h _ _

theorem Ledger.sent_wrote_self (pub : Bytes) (n : Nat) : (l.wrote pub n new).sent pub = n :=
  Function.update_self _ _ _

theorem Letter.Written.wrote {x : Letter} (h : x.Written C s l)
    (hsent : l.sent s.dr.dhRatchetPublic = s.dr.sendingChainLength.toNat)
    (hmoved : Session.Sent C s key length) :
    x.Written C (s.withSending key length pq)
      (l.wrote s.dr.dhRatchetPublic length.toNat new) := by
  refine { h with position := ?_ }
  have hpos := h.position
  by_cases hchain : x.chain = s.dr.dhRatchetPublic
  · rw [hchain, hsent] at hpos
    rw [hchain, Ledger.sent_wrote_self]
    exact Nat.lt_of_lt_of_le hpos hmoved.le
  · rw [Ledger.sent_wrote_of_ne _ hchain]
    exact hpos

variable {env : Env} {plaintext : Bytes} {t : Session}

/-- The letter a write makes is one the writer wrote, at the position the chain stood at. -/
theorem Sends.written_new {padded : Bytes} {pos : Session.SendPosition}
    {m : EncryptedRatchetMessage} (h : Sends C s l) (new : List Letter)
    (hversion : s.peerAdVersion = adVersionLegacy) (hpad : padMessageDefault plaintext = .ok padded)
    (hstep : Session.SendStep C env s pos t) (hseal : Session.SealedAs C t pos padded m) :
    Letter.Written C t (l.wrote s.dr.dhRatchetPublic t.dr.sendingChainLength.toNat new)
        ⟨m, plaintext, s.nextPqKey C env⟩ ∧
      Letter.chain ⟨m, plaintext, s.nextPqKey C env⟩ = s.dr.dhRatchetPublic ∧
      Letter.number ⟨m, plaintext, s.nextPqKey C env⟩ = s.dr.sendingChainLength.toNat := by
  obtain ⟨pqKey, pq, drKey, key, length, rfl, hpq, hck, hmix, hlen⟩ := hstep.withSending
  have hchain : m.dhPublicKey.toList = s.dr.dhRatchetPublic := hseal.dhPublicKey
  have hnumber : m.messageNumber.toNat = s.dr.sendingChainLength.toNat := by
    rw [hseal.messageNumber, hstep.number]
  rw [Session.nextPqKey_of_ok hpq]
  refine ⟨?_, hchain, hnumber⟩
  refine { chain := .inr hchain, position := ?_, bound := ?_, previous := fun _ =>
    hseal.previousChainLength, suite := hseal.suiteId, version := ?_, pq := ?_, sealed := ?_ }
  · show m.messageNumber.toNat < (l.wrote _ length.toNat new).sent m.dhPublicKey.toList
    rw [hchain, hnumber, Ledger.sent_wrote_self, hlen]
    exact Nat.lt_succ_self _
  · show m.messageNumber.toNat + 1 < 2 ^ 32
    rw [hnumber]
    exact hstep.bound
  · exact hseal.adVersion.trans (Session.adSendVersion_legacy hversion)
  · show (m.pqMessageEpoch = 0 ∧ m.pqKeyIndex = 0 ∧ pqKey = none) ∨
      (s.suiteId.isPqRatchet = true ∧ m.pqMessageEpoch ≠ 0 ∧ ∃ key, pqKey = some key)
    rw [hseal.pqMessageEpoch, hseal.pqKeyIndex]
    rcases PqRatchet.pqSendKey_ok hpq with ⟨hepoch, hindex, hkey, -⟩ |
      ⟨hsuite, hpos, -, _, _, k, -, -, -, hkey, -⟩
    · exact .inl ⟨hepoch, hindex, hkey⟩
    · exact .inr ⟨hsuite, UInt32.pos_iff_ne_zero.mp hpos, k, hkey⟩
  · obtain ⟨sid, hsid, hct⟩ := hseal.ciphertext
    refine ⟨sid, drKey, pos.messageKey, padded, hsid, ?_, hmix, hpad, hct⟩
    show keyAt (ckStep C) (l.base m.dhPublicKey.toList) m.messageNumber.toNat = some drKey
    rw [hchain, hnumber]
    exact keyAt_of_step h.state (ckStep_of_ok hck)

/-- **Writing keeps the writer's side of the ledger.** -/
theorem Sends.wrote (h : Sends C s l) (hversion : s.peerAdVersion = adVersionLegacy)
    (hcase : Session.WriteCase C env plaintext s (t, new)) :
    Sends C t (l.wrote s.dr.dhRatchetPublic t.dr.sendingChainLength.toNat new) ∧
      ∃ key length pq, t = s.withSending key length pq ∧ Session.Sent C s key length := by
  cases hcase with
  | unsent hleft =>
    obtain ⟨key, length, pq, rfl, hmoved⟩ := hleft.withSending
    refine ⟨⟨hmoved.state h.state, Ledger.sent_wrote_self _ _, ?_, ?_⟩, key, length, pq, rfl, hmoved⟩
    · intro x hx
      rw [Ledger.wrote, List.append_nil] at hx
      exact (h.letters x hx).wrote h.sent hmoved
    · show (l.letters ++ []).Pairwise _
      rw [List.append_nil]
      exact h.distinct
  | sent hpad hstep hseal =>
    obtain ⟨hnew, hchain, hnumber⟩ := h.written_new _ hversion hpad hstep hseal
    obtain ⟨key, length, pq, rfl, hmoved⟩ := hstep.left.withSending
    refine ⟨⟨hmoved.state h.state, Ledger.sent_wrote_self _ _, ?_, ?_⟩, key, length, pq, rfl, hmoved⟩
    · intro x hx
      rcases List.mem_append.mp hx with hold | hx
      · exact (h.letters x hold).wrote h.sent hmoved
      · rw [List.mem_singleton.mp hx]
        exact hnew
    · refine List.pairwise_append.mpr ⟨h.distinct, List.pairwise_singleton _ _, ?_⟩
      intro x hx y hy
      rw [List.mem_singleton.mp hy, hchain, hnumber]
      rintro ⟨hsame, hposition⟩
      have hpos := (h.letters x hx).position
      rw [hsame, h.sent] at hpos
      omega

theorem Gets.wrote (h : Gets C s r l lost)
    (hsent : l.sent s.dr.dhRatchetPublic = s.dr.sendingChainLength.toNat)
    (hmoved : Session.Sent C s key length) :
    Gets C (s.withSending key length pq) r (l.wrote s.dr.dhRatchetPublic length.toNat new) lost := by
  have hle : ∀ d, l.sent d ≤ (l.wrote s.dr.dhRatchetPublic length.toNat new).sent d := by
    intro d
    by_cases hd : d = s.dr.dhRatchetPublic
    · rw [hd, Ledger.sent_wrote_self, hsent]
      exact hmoved.le
    · rw [Ledger.sent_wrote_of_ne _ hd]
  -- the writer's chain is the reader's current one or none it has opened
  have hne : ∀ d ∈ l.opened, d ≠ l.current → d ≠ s.dr.dhRatchetPublic := by
    intro d hd hcur heq
    rcases h.chain with hsame | ⟨hnew, -⟩
    · exact hcur (heq.trans hsame)
    · exact hnew (heq ▸ hd)
  refine { h with closed := ?_, within := Nat.le_trans h.within (hle _), chain := ?_, read := ?_ }
  · intro d hd hcur
    rw [Ledger.sent_wrote_of_ne _ (hne d hd hcur)]
    exact h.closed d hd hcur
  · refine h.chain.imp_right fun ⟨hnew, hprev⟩ => ⟨hnew, ?_⟩
    have hcur : l.current ≠ s.dr.dhRatchetPublic := fun heq => hnew (heq ▸ h.settled.current)
    exact hprev.trans (Ledger.sent_wrote_of_ne _ hcur).symm
  · intro x hx
    exact List.mem_append_left _ (h.read x hx)

end Writing

/-- **Writing keeps the pairing.** -/
theorem Paired.wrote (h : Paired C used x y) (hdue : x.due = false) {env : Env} {plaintext : Bytes}
    {t : Session} {new : List Letter} (hcase : Session.WriteCase C env plaintext x.session (t, new)) :
    Paired C used (x.wrote t new) y := by
  obtain ⟨hsends, key, length, pq, rfl, hmoved⟩ := h.left.sends.wrote h.left.version hcase
  refine ⟨?_, ?_, h.matched.of_same ⟨rfl, rfl, rfl, rfl⟩, ?_⟩
  · exact { h.left with
      sends := hsends
      gets := h.left.gets.wrote h.left.sends.sent hmoved
      idle := fun hd => absurd (hdue.symm.trans hd) (by decide) }
  · have hgets := h.right.gets
    exact { h.right with gets := { hgets with } }
  · rcases h.lead with hx | hy
    · refine .inl { hx with derived := ?_ }
      obtain ⟨priv, z, root, chain, hpriv, hz, hrk, hrest⟩ := hx.derived
      refine ⟨priv, z, root, chain, hpriv, hz, hrk, ?_⟩
      rw [if_neg (by rw [hdue]; decide)] at hrest
      rw [if_neg (by rw [show (x.wrote _ new).due = x.due from rfl, hdue]; decide)]
      exact hrest
    · exact .inr { hy with }

end ConstructCore
