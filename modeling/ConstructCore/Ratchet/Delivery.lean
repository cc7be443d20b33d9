import Mathlib.Data.List.Pairwise
import ConstructCore.Ratchet.PairOpening

/-!
# Every message delivered is read

Two paired sessions: a letter not read yet has its key filed, on the reader's chain, or on
the chain the next DH step opens (`Paired.classicalKey`), so its first delivery returns the
plaintext given to `encrypt`. `Talk.hangs_run` carries the pairing over any conversation,
from the initiator alone to both sides, and `Talk.delivered` is the theorem.
-/

namespace ConstructCore

open Bytes Op KeyChain

variable {C : Crypto}

/-! ## What a delivery may meet -/

def Session.keysPassed (s : Session) (m : EncryptedRatchetMessage) : Nat :=
  match s.dr.skippedMessageKeys.get? (m.dhPublicKey.toList, m.messageNumber) with
  | some _ => 0
  | none =>
    if s.needsRatchet m then
      (m.previousChainLength.toNat - s.dr.receivingChainLength.toNat) + m.messageNumber.toNat
    else m.messageNumber.toNat - s.dr.receivingChainLength.toNat

/-- The conditions under which a delivery is to succeed: no jump too far, room for the keys it
files, and for a message of a PQ epoch the same PQ key on both sides. -/
structure Deliverable (C : Crypto) (s : Session) (letter : Letter) : Prop where
  jumps : s.dr.skippedMessageKeys.get?
      (letter.message.dhPublicKey.toList, letter.message.messageNumber) = none →
    s.checkJumps letter.message = .ok ()
  room : s.dr.skippedMessageKeys.size + s.keysPassed letter.message <
    Config.global.maxSkippedMessages
  pq : ∀ key, letter.pqKey = some key →
    PqRatchet.PqShared C s.pq letter.message.pqMessageEpoch letter.message.pqKeyIndex key

theorem PqRatchet.PqShared.maybeAdvance {pq : PqRatchet} {epoch index : UInt32} {key : Bytes}
    (h : PqRatchet.PqShared C pq epoch index key) (suite : SuiteID) (env : Env) :
    PqRatchet.PqShared C (pq.maybeAdvancePqRatchet C suite env) epoch index key := by
  obtain ⟨_, _, _, heq⟩ := PqRatchet.maybeAdvance_otherExchange (C := C) suite pq env
  rw [heq]
  exact h

/-! ## The classical key of an unread letter -/

theorem Crypto.Reliable.stateAt (hC : C.Reliable) (base : Bytes) (n : Nat) :
    ∃ k, KeyChain.stateAt (ckStep C) base n = some k := by
  induction n with
  | zero => exact ⟨base, rfl⟩
  | succ n ih =>
    obtain ⟨k, hk⟩ := ih
    obtain ⟨key, next, hck⟩ := hC.ck k
    exact ⟨next, stateAt_succ_of_step hk (ckStep_of_ok hck)⟩

/-- The key at a position the receiving chain has not passed can be derived. -/
theorem Session.derives_of_reliable (hC : C.Reliable) {s : Session} (now : Nat)
    {m : EncryptedRatchetMessage} {base : Bytes}
    (hstate : stateAt (ckStep C) base s.dr.receivingChainLength.toNat =
      some s.dr.receivingChainKey)
    (hle : s.dr.receivingChainLength.toNat ≤ m.messageNumber.toNat)
    (hbound : m.messageNumber.toNat + 1 < 2 ^ 32) :
    ∃ key t, Session.Derives C now m s key t ∧
      keyAt (ckStep C) base m.messageNumber.toNat = some key ∧
      t.dr.skippedMessageKeys.size ≤ s.dr.skippedMessageKeys.size +
        (m.messageNumber.toNat - s.dr.receivingChainLength.toNat) := by
  obtain ⟨chain, hchain⟩ := hC.stateAt s.dr.receivingChainKey
    (m.messageNumber.toNat - s.dr.receivingChainLength.toNat)
  obtain ⟨skipped, hmove⟩ := Advance.exists_of_stateAt (slot m.dhPublicKey.toList) now
    s.dr.receivingChainLength.toNat _ s.dr.skippedMessageKeys hchain
  rw [Nat.add_sub_cancel' hle] at hmove
  obtain ⟨key, next, hck⟩ := hC.ck chain
  refine ⟨key, _, ⟨UInt32.le_iff_toNat_le.mpr hle, hbound, chain, next, skipped, hmove, hck, rfl⟩, ?_,
    hmove.size_le_add⟩
  rw [← Nat.add_sub_cancel' hle, keyAt_of_stateAt hstate]
  exact keyAt_of_step hchain (ckStep_of_ok hck)

section Progress

variable {used : List Bytes} {x y : Side} {letter : Letter}

theorem Paired.not_done (h : Paired C used x y) (hletter : letter ∈ x.ledger.letters)
    (hunread : letter ∉ x.ledger.read) : ¬ x.ledger.Done letter.chain letter.number := by
  rintro ⟨x', hx', hchain, hnumber⟩
  have hmem := h.left.gets.read x' hx'
  by_cases heq : x' = letter
  · exact hunread (heq ▸ hx')
  · have : Std.Symm fun x y : Letter => ¬ (x.chain = y.chain ∧ x.number = y.number) :=
      ⟨fun _ _ hne hsame => hne ⟨hsame.1.symm, hsame.2.symm⟩⟩
    exact h.left.sends.distinct.forall hmem hletter heq ⟨hchain, hnumber⟩

theorem Paired.not_filed (h : Paired C used x y) (hbound : letter.number + 1 < 2 ^ 32)
    (hahead : ∀ d ∈ x.ledger.opened, d = letter.chain → x.ledger.reached d ≤ letter.number) :
    y.session.dr.skippedMessageKeys.get?
      (letter.message.dhPublicKey.toList, letter.message.messageNumber) = none := by
  cases hget : y.session.dr.skippedMessageKeys.get?
      (letter.message.dhPublicKey.toList, letter.message.messageNumber) with
  | none => rfl
  | some key =>
    obtain ⟨d, hd, n, hn, hslot, -⟩ := h.left.gets.settled.stored _ _ hget
    have hlt := h.left.gets.bound d hd
    rw [← Session.slot_toNat] at hslot
    obtain ⟨hchain, hnumber⟩ := slot_inj (by exact Nat.lt_of_succ_lt hbound) (by omega) hslot
    have := hahead d hd hchain.symm
    unfold Letter.number at this
    omega

theorem Gets.savesOld (hC : C.Reliable) {s r : Session} {l : Ledger}
    {lost : Bytes × UInt32 → Prop} (h : Gets C s r l lost) (now : Nat)
    (m : EncryptedRatchetMessage) :
    ∃ chain skipped, Session.SavesOld C now m r (r.withReceiving chain
        (max r.dr.receivingChainLength.toNat m.previousChainLength.toNat) skipped) ∧
      skipped.size ≤ r.dr.skippedMessageKeys.size +
        (m.previousChainLength.toNat - r.dr.receivingChainLength.toNat) := by
  obtain ⟨chain, hchain⟩ := hC.stateAt r.dr.receivingChainKey
    (m.previousChainLength.toNat - r.dr.receivingChainLength.toNat)
  obtain ⟨skipped, hmove⟩ := Advance.exists_of_stateAt (slot l.current) now
    r.dr.receivingChainLength.toNat _ r.dr.skippedMessageKeys hchain
  have hmax : r.dr.receivingChainLength.toNat +
      (m.previousChainLength.toNat - r.dr.receivingChainLength.toNat) =
      max r.dr.receivingChainLength.toNat m.previousChainLength.toNat := by omega
  rw [hmax] at hmove
  have hsize := hmove.size_le_add
  exact ⟨chain, skipped, .inr ⟨l.current, chain, skipped, h.remote, hmove, rfl⟩, by omega⟩

theorem Ahead.exists_turn (hC : C.Reliable) (h : Ahead C x y) (hdue : x.due = false)
    (hkey : ∃ priv, x.session.dr.dhRatchetPrivate = some priv ∧
      C.KeyPair priv x.session.dr.dhRatchetPublic) (env : Env) {s : Session}
    (hpriv : s.dr.dhRatchetPrivate = y.session.dr.dhRatchetPrivate)
    (hroot : s.dr.rootKey = y.session.dr.rootKey)
    (hproof : s.identityProof = y.session.identityProof) :
    ∃ d : Session.DhTurn, d.Valid C env x.session.dr.dhRatchetPublic y.secret s ∧
      d.mixedChain = x.ledger.base x.session.dr.dhRatchetPublic := by
  obtain ⟨priv, z, root, chain, hpriv', hz, hrk, hmix⟩ := h.derived
  rw [if_neg (by rw [hdue]; decide)] at hmix
  obtain ⟨proof, hmix, -⟩ := hmix
  obtain ⟨priv', -, hpair⟩ := hkey
  obtain ⟨newPrivate, newPublic, hfresh⟩ := hC.keys env.dhSeed
  obtain ⟨z', hz', -⟩ := hC.dh (.inl ⟨_, hfresh⟩) hpair
  obtain ⟨sendRoot, sendChain, hsend⟩ := hC.rk x.session.dr.rootKey z'
  refine ⟨⟨priv, z, root, chain, x.session.dr.rootKey,
    x.ledger.base x.session.dr.dhRatchetPublic, proof, newPrivate, newPublic, z', sendRoot,
    sendChain⟩, ⟨hpriv.trans hpriv', hz, ?_, ?_, hfresh, hz', hsend⟩, rfl⟩
  · rw [hroot]
    exact hrk
  · rw [hproof]
    exact hmix

/-- **The classical key of an unread letter is there to be found.** -/
theorem Paired.classicalKey (hC : C.Reliable) (h : Paired C used x y)
    (hletter : letter ∈ x.ledger.letters) (hunread : letter ∉ x.ledger.read)
    (hkept : ¬ y.lost (letter.message.dhPublicKey.toList, letter.message.messageNumber))
    (hdeliver : Deliverable C y.session letter) (env : Env) :
    ∃ key stepped t,
      Session.ClassicalKey C env letter.message y.secret y.session key stepped t ∧
      keyAt (ckStep C) (x.ledger.base letter.chain) letter.number = some key ∧
      t.dr.skippedMessageKeys.size < Config.global.maxSkippedMessages := by
  have hgets := h.left.gets
  have hwritten := h.left.sends.letters letter hletter
  by_cases hopened : letter.chain ∈ x.ledger.opened
  · by_cases hpassed : letter.number < x.ledger.reached letter.chain
    · -- a position passed: its key is filed
      have hslot : slot letter.chain letter.number =
          (letter.message.dhPublicKey.toList, letter.message.messageNumber) :=
        Session.slot_toNat _ _
      rcases hgets.settled.passed _ hopened _ hpassed with hdone | hlost | ⟨key, hkey, hget⟩
      · exact absurd hdone (h.not_done hletter hunread)
      · exact absurd (hslot ▸ hlost) hkept
      · rw [hslot] at hget
        refine ⟨key, false, _, .skipped hget, hkey, ?_⟩
        have hroom := hdeliver.room
        exact Nat.lt_of_le_of_lt (AgedStore.size_remove_le _ _) (by omega)
    · -- ahead on the chain the reader is on
      have hcur : letter.chain = x.ledger.current := by
        by_contra hne
        have := hgets.closed _ hopened hne
        have := hwritten.position
        omega
      have hnone := h.not_filed hwritten.bound fun d _ hd => hd ▸ Nat.not_lt.mp hpassed
      have hsame : y.session.needsRatchet letter.message = false := by
        unfold Session.needsRatchet
        rw [hgets.remote, ← hcur]
        exact bne_self_eq_false _
      have hstate := hgets.settled.state
      rw [hgets.count] at hstate
      rw [hcur, hgets.count] at hpassed
      obtain ⟨key, t, hderives, hkey, hsize⟩ := Session.derives_of_reliable hC env.now
        hstate (Nat.not_lt.mp hpassed) hwritten.bound
      refine ⟨key, false, t, .live hnone hsame (hdeliver.jumps hnone) hderives, hcur ▸ hkey, ?_⟩
      have hroom := hdeliver.room
      unfold Session.keysPassed at hroom
      rw [hnone, hsame] at hroom
      exact Nat.lt_of_le_of_lt hsize hroom
  · -- on the writer's latest chain, which the reader has not opened
    have hlatest := hwritten.chain.resolve_left hopened
    have hne : letter.chain ≠ x.ledger.current := fun heq => hopened (heq ▸ hgets.settled.current)
    have hahead : Ahead C x y := by
      rcases h.lead with hx | hy
      · exact hx
      · have := Option.some.inj (hgets.remote.symm.trans hy.remote)
        exact absurd (hlatest.trans this.symm) hne
    have hdue : x.due = false := by
      cases hx : x.due with
      | false => rfl
      | true =>
        rw [h.left.idle hx] at hletter
        cases hletter
    have hnone := h.not_filed hwritten.bound fun d hd heq => absurd (heq ▸ hd) hopened
    have hnew : y.session.needsRatchet letter.message = true := by
      unfold Session.needsRatchet
      rw [hgets.remote]
      exact bne_iff_ne.mpr fun heq => hne (Option.some.inj heq).symm
    obtain ⟨chain, skipped, hsave, hsize⟩ := hgets.savesOld hC env.now letter.message
    obtain ⟨d, hd, hchain⟩ := hahead.exists_turn hC hdue h.left.key env
      (s := y.session.withReceiving chain _ skipped) rfl rfl rfl
    rw [← hlatest] at hd hchain
    obtain ⟨key, t, hderives, hkey, hsize'⟩ := @Session.derives_of_reliable C hC
      (d.apply C env letter.message.dhPublicKey.toList (y.session.withReceiving chain _ skipped))
      env.now letter.message d.mixedChain rfl (Nat.zero_le _) hwritten.bound
    refine ⟨key, true, t, .ratchet hnone hnew (hdeliver.jumps hnone) hsave hd hderives,
      hchain ▸ hkey, ?_⟩
    have hroom := hdeliver.room
    unfold Session.keysPassed at hroom
    rw [hnone, hnew] at hroom
    refine Nat.lt_of_le_of_lt hsize' (Nat.lt_of_le_of_lt ?_ hroom)
    show skipped.size + (letter.message.messageNumber.toNat - 0) ≤ _ + (_ + _)
    omega

theorem Letter.Written.pqReceiveKey {s : Session} {l : Ledger} (hwritten : letter.Written C s l)
    {r : Session} (now : Nat) {pq : PqRatchet} (hsuite : s.suiteId = r.suiteId)
    (hpq : ∀ key, letter.pqKey = some key →
      PqRatchet.PqShared C pq letter.message.pqMessageEpoch letter.message.pqKeyIndex key) :
    ∃ pq', PqRatchet.pqReceiveKey C r.suiteId now (r.pqPosition letter.message).1
      (r.pqPosition letter.message).2 pq = .ok letter.pqKey pq' := by
  unfold Session.pqPosition
  rcases hwritten.pq with ⟨hepoch, hindex, hnone⟩ | ⟨hpqSuite, hepoch, key, hkey⟩
  · refine ⟨pq, ?_⟩
    rw [hepoch, hindex, hnone, ite_self]
    exact PqRatchet.pqReceiveKey_of_no_epoch _ _ _
  · rw [hsuite] at hpqSuite
    rw [if_pos hpqSuite, hkey]
    exact PqRatchet.pqReceiveKey_of_shared hpqSuite hepoch (hpq key hkey)

/-- **The first delivery of a letter returns its plaintext.** -/
theorem Paired.delivers (hC : C.Reliable) (h : Paired C used x y)
    (hletter : letter ∈ x.ledger.letters) (hunread : letter ∉ x.ledger.read) (env : Env)
    (hkept : ¬ y.lost (letter.message.dhPublicKey.toList, letter.message.messageNumber))
    (hkeeps : ∀ a, y.session.dr.skippedMessageKeys.get? a ≠ none →
      (y.session.cleanupIfDue env.now).dr.skippedMessageKeys.get? a = none → y.lost a)
    (hdeliver : Deliverable C (y.session.cleanupIfDue env.now) letter) :
    ∃ t, Session.decryptWithIdentitySecret C env letter.message y.secret y.session =
      .ok letter.plaintext t := by
  have hclean := h.cleaned env.now hkeeps
  have hwritten := h.left.sends.letters letter hletter
  obtain ⟨key, stepped, t, hkey, hkeyAt, hroom⟩ :=
    hclean.classicalKey hC hletter hunread hkept hdeliver env
  obtain ⟨sid, drKey, messageKey, padded, hsid, hdrKey, hmix, hpad, hseal⟩ := hwritten.sealed
  obtain rfl : key = drKey := Option.some.inj (hkeyAt.symm.trans hdrKey)
  have hopen : ∃ pq, Session.Opens C env letter.message t key pq letter.plaintext := by
    have hversion : (y.session.cleanupIfDue env.now).peerAdVersion = adVersionLegacy :=
      hclean.right.version
    have hmatched : Matched x.session (y.session.cleanupIfDue env.now) := hclean.matched
    generalize y.session.cleanupIfDue env.now = s at hkey hversion hmatched hdeliver
    obtain ⟨dr, proof, lastAt, rfl⟩ := Session.ClassicalKey.frame hkey
    have hshared : ∀ key, letter.pqKey = some key → PqRatchet.PqShared C (s.steppedPq C env stepped)
        letter.message.pqMessageEpoch letter.message.pqKeyIndex key := by
      intro pqKey hpqKey
      unfold Session.steppedPq
      cases stepped with
      | true => exact (hdeliver.pq pqKey hpqKey).maybeAdvance _ _
      | false => exact hdeliver.pq pqKey hpqKey
    obtain ⟨pq, hpq⟩ := hwritten.pqReceiveKey env.now hmatched.suite hshared
    refine ⟨pq, letter.pqKey, messageKey, hpq, hmix, ?_⟩
    obtain ⟨sid', hsid', hrsid⟩ := hmatched.sid
    obtain rfl : sid' = sid := Option.some.inj (hsid'.symm.trans hsid)
    refine @Session.tryAeadDecrypt_of_aead C _ messageKey sid' padded letter.plaintext
      letter.message ?_ hrsid ?_ ?_
    · unfold Session.checkAdVersion
      rw [hwritten.version]
      show (if adVersionLegacy = adVersionHeader then _ else if adVersionLegacy = adVersionLegacy
        then if s.peerAdVersion < adVersionHeader then _ else _ else _) = _
      rw [hversion]
      rfl
    · have hopens := hC.opens hseal
      rw [hmatched.toUser, hmatched.fromUser, hmatched.suite] at hopens
      exact hopens
    · exact unpadMessage_padMessage hpad
  obtain ⟨pq, hopen⟩ := hopen
  exact ⟨_, Session.decryptWithIdentitySecret_of_opens hkey hroom hopen⟩

end Progress

/-! ## Conversations -/

namespace Talk

/-- A delivery to `reader` evicts the key in slot `a`. -/
def Evicts (t : Talk) (reader : Party) (a : Bytes × UInt32) (event : TalkEvent) : Prop :=
  ∃ env i s, event = .deliver reader env i ∧ t.session reader = some s ∧
    s.dr.skippedMessageKeys.get? a ≠ none ∧
    (s.cleanupIfDue env.now).dr.skippedMessageKeys.get? a = none

instance (t : Talk) (reader : Party) (a : Bytes × UInt32) (event : TalkEvent) :
    Decidable (t.Evicts reader a event) :=
  match event, hs : t.session reader with
  | .write .., _ => isFalse fun ⟨_, _, _, heq, _⟩ => nomatch heq
  | .answer, _ => isFalse fun ⟨_, _, _, heq, _⟩ => nomatch heq
  | .deliver _ _ _, none => isFalse fun ⟨_, _, _, _, hsome, _⟩ => nomatch hs.symm.trans hsome
  | .deliver reads env i, some s =>
    decidable_of_iff (reads = reader ∧ s.dr.skippedMessageKeys.get? a ≠ none ∧
        (s.cleanupIfDue env.now).dr.skippedMessageKeys.get? a = none)
      ⟨fun ⟨hreads, hhad, hgone⟩ => ⟨env, i, s, hreads ▸ rfl, hs, hhad, hgone⟩,
        fun ⟨_, _, _, heq, hsome, hhad, hgone⟩ => by
          cases heq
          cases hs.symm.trans hsome
          exact ⟨rfl, hhad, hgone⟩⟩

/-- A letter is delivered to a reader that has left its chain and dropped its key. -/
def StaleDelivery (t : Talk) (event : TalkEvent) : Prop :=
  ∃ reader env i s w letter, event = .deliver reader env i ∧ t.session reader = some s ∧
    t.session reader.other = some w ∧ (t.lettersFor reader)[i]? = some letter ∧
    Stale w letter (s.cleanupIfDue env.now)

/-- The two sessions of a conversation hang together: the initiator is alone, or the two are
paired. `readI` and `readR` are the letters either side has read. -/
inductive Hangs (C : Crypto) (setup : Setup) (used : List Bytes) (lostI lostR : Bytes × UInt32 → Prop)
    (t : Talk) (readI readR : List Letter) : Prop
  | alone {l : Ledger} (hnone : t.responder = none) (hletters : l.letters = t.fromInitiator)
      (hempty : t.fromResponder = []) (hreadI : readI = []) (hreadR : readR = [])
      (h : Alone C setup t.initiator l) (hidentity : setup.identityPublic ∈ used)
      (hpub : t.initiator.dr.dhRatchetPublic ∈ used)
  | both {b : Session} {li lr : Ledger} (hsome : t.responder = some b)
      (hli : li.letters = t.fromInitiator) (hlr : lr.letters = t.fromResponder)
      (hreadR : li.read = readR) (hreadI : lr.read = readI)
      (hanswer : t.toAnswer = none ∨ t.toAnswer = setup.answer)
      (h : Paired C used (initiatorSide setup t.initiator li lostI)
        (responderSide b t.toAnswer.isSome lr lostR))

/-- What the argument needs of one event. -/
structure Allowed (C : Crypto) (lostI lostR : Bytes × UInt32 → Prop) (t : Talk) (event : TalkEvent) :
    Prop where
  keepsI : ∀ a, t.Evicts .initiator a event → lostI a
  keepsR : ∀ a, t.Evicts .responder a event → lostR a
  harm : (C.FreeKdf ∧ C.Authentic) ∨ ¬ t.StaleDelivery event

section Run

variable {setup : Setup} {used : List Bytes} {lostI lostR : Bytes × UInt32 → Prop} {t : Talk}
  {readI readR : List Letter}

section Kept

variable (h : Hangs C setup used lostI lostR t readI readR)

include h

theorem Hangs.silent :
    Hangs C setup (used ++ draws []) lostI lostR t (readI ++ reads .initiator [])
      (readR ++ reads .responder []) := by
  rw [show draws [] = [] from rfl, show reads .initiator [] = [] from rfl,
    show reads .responder [] = [] from rfl, List.append_nil, List.append_nil, List.append_nil]
  exact h

theorem Hangs.writeInitiator {env : Env} {plaintext : Bytes} {s : Session} {new : List Letter}
    (hcase : Session.WriteCase C env plaintext t.initiator (s, new)) :
    Hangs C setup used lostI lostR
      { t with initiator := s, fromInitiator := t.fromInitiator ++ new } readI readR := by
  cases h with
  | @alone l hnone hletters hempty hreadI hreadR halone hidentity hpub =>
    have hwrote := halone.wrote hcase
    obtain ⟨-, key, length, pq, rfl, -⟩ := halone.sends.wrote halone.version hcase
    exact .alone hnone (congrArg (· ++ new) hletters) hempty hreadI hreadR hwrote hidentity hpub
  | @both b li lr hsome hli hlr hreadR hreadI hanswer hpaired =>
    have hwrote := hpaired.wrote rfl hcase
    exact @Hangs.both _ _ _ _ _ _ _ _ b (li.wrote _ _ new) lr hsome (congrArg (· ++ new) hli) hlr
      hreadR hreadI hanswer hwrote

theorem Hangs.writeResponder {env : Env} {plaintext : Bytes} {b s : Session}
    {new : List Letter} (hb : t.responder = some b)
    (hnone : t.toAnswer = none) (hcase : Session.WriteCase C env plaintext b (s, new)) :
    Hangs C setup used lostI lostR
      { t with responder := some s, fromResponder := t.fromResponder ++ new } readI readR := by
  cases h with
  | alone hnone' =>
    rw [hb] at hnone'
    cases hnone'
  | @both b' li lr hsome hli hlr hreadR hreadI hanswer hpaired =>
    obtain rfl : b = b' := Option.some.inj (hb.symm.trans hsome)
    rw [hnone] at hpaired
    have hwrote := (hpaired.swap.wrote rfl hcase).swap
    refine @Hangs.both _ _ _ _ _ _ _ _ s li
      (lr.wrote b.dr.dhRatchetPublic s.dr.sendingChainLength.toNat new) rfl hli
      (congrArg (· ++ new) hlr) hreadR hreadI hanswer ?_
    show Paired C used _ (responderSide s t.toAnswer.isSome _ lostR)
    rw [hnone]
    exact hwrote

theorem Hangs.write (writer : Party) (env : Env) (plaintext : Bytes) :
    Hangs C setup used lostI lostR (t.step C setup (.write writer env plaintext)).1 readI readR ∧
      (t.step C setup (.write writer env plaintext)).2 = [] := by
  cases writer with
  | initiator => exact ⟨h.writeInitiator (Session.write_case env plaintext t.initiator), rfl⟩
  | responder =>
    unfold step
    dsimp only
    split
    · rename_i s hs hnone
      exact ⟨h.writeResponder hs hnone (Session.write_case env plaintext s), rfl⟩
    · exact ⟨h, rfl⟩

theorem Hangs.answer {b : Session} {secret ciphertext root chain : Bytes} (hb : t.responder = some b)
    (hdue : t.toAnswer = some (secret, ciphertext))
    (hmix : mixIdentitySecret C b.dr.rootKey b.dr.sendingChainKey secret = .ok (root, chain)) :
    Hangs C setup used lostI lostR
      { t with
        responder := some { b with
          dr := { b.dr with rootKey := root, sendingChainKey := chain }
          identityProof := .answered ciphertext }
        toAnswer := none } readI readR := by
  cases h with
  | alone hnone =>
    rw [hb] at hnone
    cases hnone
  | @both b' li lr hsome hli hlr hreadR hreadI hanswer hpaired =>
    obtain rfl : b = b' := Option.some.inj (hb.symm.trans hsome)
    have hsecret : answerSecret setup = some secret := by
      rcases hanswer with hnone | hanswer
      · rw [hdue] at hnone
        cases hnone
      · unfold answerSecret
        rw [← hanswer, hdue]
        rfl
    rw [hdue] at hpaired
    exact @Hangs.both _ _ _ _ _ _ _ _ _ li (lr.opens b.dr.dhRatchetPublic chain) rfl hli hlr hreadR
      hreadI (.inl rfl) (hpaired.answered hsecret hmix)

theorem Hangs.mono {used' : List Bytes} (hsub : ∀ k ∈ used, k ∈ used') : Hangs C setup used' lostI lostR t readI readR := by
  cases h with
  | alone hnone hletters hempty hreadI hreadR halone hidentity hpub =>
    exact .alone hnone hletters hempty hreadI hreadR halone (hsub _ hidentity) (hsub _ hpub)
  | both hsome hli hlr hreadR hreadI hanswer hpaired =>
    exact .both hsome hli hlr hreadR hreadI hanswer (hpaired.mono hsub)

variable (hC : C.Reliable)

include hC

theorem Hangs.toInitiator {env : Env} {i : Nat} {letter : Letter}
    (hletter : t.fromResponder[i]? = some letter)
    (hallowed : Allowed C lostI lostR t (.deliver .initiator env i))
    (hfresh : ∀ k ∈ drawnKey C env, k ∉ used) :
    Hangs C setup (used ++ drawnKey C env) lostI lostR (t.toInitiator C setup env letter).1
      (readI ++ (t.toInitiator C setup env letter).2) readR := by
  have hmem := List.mem_of_getElem? hletter
  cases h with
  | alone _ _ hempty =>
    rw [hempty] at hmem
    cases hmem
  | @both b li lr hsome hli hlr hreadR hreadI hanswer hpaired =>
    have hcase := Session.read_case (C := C) env (answerSecret setup) letter t.initiator
    obtain ⟨lr', li', hpaired', hletters, hread, hletters', hread'⟩ :=
      hpaired.swap.read hC (by show letter ∈ lr.letters; rw [hlr]; exact hmem) hcase
        (fun a ha ha' => hallowed.keepsI a ⟨env, i, t.initiator, rfl, rfl, ha, ha'⟩)
        (hallowed.harm.imp_right fun hnot hstale =>
          hnot ⟨.initiator, env, i, _, b, letter, rfl, rfl, hsome, hletter, hstale⟩) hfresh
    refine @Hangs.both _ _ _ _ _ _ _ _ b li' lr' hsome (hletters'.trans hli) (hletters.trans hlr)
      (hread'.trans hreadR) ?_ hanswer hpaired'.swap
    rw [hread]
    exact congrArg (· ++ _) hreadI

theorem Hangs.toResponder {env : Env} {i : Nat} {letter : Letter} {b : Session}
    (hb : t.responder = some b) (hletter : t.fromInitiator[i]? = some letter)
    (hallowed : Allowed C lostI lostR t (.deliver .responder env i))
    (hfresh : ∀ k ∈ drawnKey C env, k ∉ used) :
    Hangs C setup (used ++ drawnKey C env) lostI lostR
      { t with responder := some (b.read C env none letter).1 } readI
      (readR ++ (b.read C env none letter).2) := by
  have hmem := List.mem_of_getElem? hletter
  cases h with
  | alone hnone =>
    rw [hb] at hnone
    cases hnone
  | @both b' li lr hsome hli hlr hreadR hreadI hanswer hpaired =>
    obtain rfl : b = b' := Option.some.inj (hb.symm.trans hsome)
    have hcase := Session.read_case (C := C) env none letter b
    obtain ⟨li', lr', hpaired', hletters, hread, hletters', hread'⟩ :=
      hpaired.read hC (by show letter ∈ li.letters; rw [hli]; exact hmem) hcase
        (fun a ha ha' => hallowed.keepsR a ⟨env, i, b, rfl, hb, ha, ha'⟩)
        (hallowed.harm.imp_right fun hnot hstale =>
          hnot ⟨.responder, env, i, b, _, letter, rfl, hb, rfl, hletter, hstale⟩) hfresh
    refine @Hangs.both _ _ _ _ _ _ _ _ _ li' lr' rfl (hletters.trans hli) (hletters'.trans hlr)
      ?_ (hread'.trans hreadI) hanswer hpaired'
    rw [hread]
    exact congrArg (· ++ _) hreadR

end Kept

section Opened

variable (hC : C.Reliable)
  (hidentity : C.fromPrivateKeyToPublicKey setup.identityPrivate = .ok setup.identityPublic)

include hC hidentity

/-- The session the responder's constructor decrypts its first message with, paired. -/
theorem Hangs.responderSession {l : Ledger} (h : Alone C setup t.initiator l) {letter : Letter} (hletter : letter ∈ l.letters)
    {env : Env} {s₁ : Session} (hfresh : ∀ k ∈ drawnKey C env, k ∉ used)
    (hused : setup.identityPublic ∈ used) (hpub : t.initiator.dr.dhRatchetPublic ∈ used)
    (hs₁ : ConstructCore.responderSession C env setup.rootKey setup.identityPrivate letter.message
      setup.initiatorId setup.responderId = .ok s₁) :
    s₁.needsRatchet letter.message = false ∧ s₁.dr.skippedMessageKeys = .empty ∧
      ∃ lr, lr.letters = [] ∧ lr.read = [] ∧ Paired C (used ++ drawnKey C env)
        (initiatorSide setup t.initiator (l.openedBy t.initiator.dr.dhRatchetPublic) lostI)
        (responderSide s₁ setup.answer.isSome lr lostR) := by
  obtain ⟨dhPrivate, dhPublic, dhOutput, sendingChain, ho⟩ :=
    h.opened_of_ok hC hidentity hletter hs₁
  have hdrawn := drawnKey_of_ok ho.fresh
  have hnew : dhPublic ∉ used := hfresh _ (by rw [hdrawn]; exact List.mem_singleton.mpr rfl)
  refine ⟨?_, ?_, _, rfl, rfl, h.paired ho hC (fun heq => hnew (heq ▸ hused)) ?_⟩
  · unfold Session.needsRatchet
    rw [ho.session, h.chain hletter]
    exact bne_self_eq_false _
  · rw [ho.session]
    rfl
  · intro d hd
    rw [hdrawn]
    simp only [List.mem_cons, List.not_mem_nil, or_false] at hd
    rcases hd with rfl | rfl | rfl
    · exact List.mem_append_left _ hused
    · exact List.mem_append_left _ hpub
    · exact List.mem_append_right _ (List.mem_singleton.mpr rfl)

variable (h : Hangs C setup used lostI lostR t readI readR)

include h

/-- **The letter that reaches the responder first makes its session.** -/
theorem Hangs.opens {env : Env} {letter : Letter}
    (hnone : t.responder = none) (hletter : letter ∈ t.fromInitiator) {b : Session} {plaintext : Bytes}
    (hopen : newResponderSession C env setup.rootKey setup.identityPrivate letter.message
      setup.initiatorId setup.responderId = .ok (b, plaintext))
    (hfresh : ∀ k ∈ drawnKey C env, k ∉ used) :
    Hangs C setup (used ++ drawnKey C env) lostI lostR
      { t with responder := some b, toAnswer := setup.answer } readI (readR ++ [letter]) := by
  cases h with
  | both hsome =>
    rw [hnone] at hsome
    cases hsome
  | @alone l _ hletters hempty hreadI hreadR halone hused hpub =>
    rw [← hletters] at hletter
    obtain ⟨s₁, hs₁, hrun⟩ := newResponderSession_ok hopen
    obtain ⟨hsame, hstore, lr, hlr, hlrRead, hpaired⟩ := @Hangs.responderSession C setup used lostI
      lostR t hC hidentity l halone letter hletter env s₁ hfresh hused hpub hs₁
    obtain ⟨key, stepped, u, pq, hkey, hopens, rfl⟩ := Session.decryptWithIdentitySecret_ok hrun
    have hclean := hpaired.cleaned env.now fun a ha => by
      refine absurd ?_ ha
      show s₁.dr.skippedMessageKeys.get? a = none
      rw [hstore]
      exact AgedStore.get?_empty a
    -- the first letter is on the chain the session starts on, so no DH step is made
    have hstill : stepped = false := by
      cases hkey with
      | skipped _ => rfl
      | live _ _ _ _ => rfl
      | ratchet _ hnew _ _ _ _ =>
        obtain ⟨_, _, heq, -⟩ := s₁.cleanupIfDue_frame env.now
        rw [heq] at hnew
        exact absurd (hsame.symm.trans hnew) (by decide)
    subst hstill
    obtain ⟨n, hread⟩ := hclean.still hletter pq hkey
    refine @Hangs.both _ _ _ _ _ _ _ _ _ ((l.openedBy t.initiator.dr.dhRatchetPublic).took n letter)
      lr rfl hletters (hlr.trans hempty.symm) ?_ (hlrRead.trans hreadI.symm) (.inr rfl) hread
    show l.read ++ [letter] = readR ++ [letter]
    rw [halone.read, hreadR]

/-- **One event keeps the conversation together.** -/
theorem Hangs.step (event : TalkEvent) (hallowed : Allowed C lostI lostR t event)
    (hfresh : ∀ k ∈ draws (t.step C setup event).2, k ∉ used) :
    Hangs C setup (used ++ draws (t.step C setup event).2) lostI lostR (t.step C setup event).1
      (readI ++ reads .initiator (t.step C setup event).2)
      (readR ++ reads .responder (t.step C setup event).2) := by
  cases event with
  | write writer env plaintext =>
    obtain ⟨hwrite, hlog⟩ := h.write writer env plaintext
    rw [hlog]
    exact hwrite.silent
  | deliver reader env i =>
    cases hletter : (t.lettersFor reader)[i]? with
    | none =>
      rw [step_lost hletter]
      exact h.silent
    | some letter =>
      cases reader with
      | initiator =>
        rw [step_toInitiator hletter] at hfresh ⊢
        simp only [draws_append, draws_drew, draws_read, reads_append, reads_drew, reads_read,
          List.append_nil, List.nil_append, reduceCtorEq, if_true, if_false] at hfresh ⊢
        exact h.toInitiator hC hletter hallowed hfresh
      | responder =>
        rw [step_toResponder hletter] at hfresh ⊢
        simp only [draws_append, draws_drew, draws_read, reads_append, reads_drew, reads_read,
          List.append_nil, List.nil_append, reduceCtorEq, if_true, if_false] at hfresh ⊢
        cases hb : t.responder with
        | some b =>
          rw [toResponder_some hb]
          exact h.toResponder hC hb hletter hallowed hfresh
        | none =>
          rcases @toResponder_none C setup t env letter hb with
            ⟨b, plaintext, hopen, heq⟩ | heq
          · rw [heq]
            exact h.opens hC hidentity hb (List.mem_of_getElem? hletter) hopen hfresh
          · rw [heq, List.append_nil]
            exact h.mono fun k hk => List.mem_append_left _ hk
  | answer =>
    unfold Talk.step
    dsimp only
    split
    · rename_i b secret ciphertext hb hdue
      have hspec := Session.answerInitiatorIdentity_spec (C := C) secret ciphertext b
      cases hrun : Session.answerInitiatorIdentity C secret ciphertext b with
      | ok u b' =>
        obtain ⟨root, chain, -, -, hmix, rfl⟩ := hspec.of_ok hrun
        exact (h.answer hb hdue hmix).silent
      | error e b' => exact h.silent
    · exact h.silent

end Opened

/-- The ratchet keys of a conversation: the identity key, the first ratchet key, and every key
drawn on the way. -/
def keys (setup : Setup) (pub : Bytes) (log : List TalkSeen) : List Bytes :=
  setup.identityPublic :: pub :: draws log

theorem keys_append (setup : Setup) (pub : Bytes) (log log' : List TalkSeen) :
    keys setup pub (log ++ log') = keys setup pub log ++ draws log' := by
  unfold keys
  rw [draws_append]
  rfl

/-- **A conversation hangs together**, over any run with fresh keys. -/
theorem hangs_run (hC : C.Reliable)
    (hidentity : C.fromPrivateKeyToPublicKey setup.identityPrivate = .ok setup.identityPublic)
    {env₀ : Env} {t₀ : Talk} (h₀ : Talk.start C setup env₀ = .ok t₀) {events : List TalkEvent}
    (hallowed : Machine.Along (Talk.step C setup) (Allowed C lostI lostR) t₀ events)
    (hfresh : (keys setup t₀.initiator.dr.dhRatchetPublic
      (Machine.log (Talk.step C setup) t₀ events)).Nodup) :
    Hangs C setup
      (keys setup t₀.initiator.dr.dhRatchetPublic (Machine.log (Talk.step C setup) t₀ events))
      lostI lostR (Machine.run (Talk.step C setup) t₀ events)
      (reads .initiator (Machine.log (Talk.step C setup) t₀ events))
      (reads .responder (Machine.log (Talk.step C setup) t₀ events)) := by
  refine @Machine.log_rule _ _ _ (Talk.step C setup) (Allowed C lostI lostR)
    (fun t log => (keys setup t₀.initiator.dr.dhRatchetPublic log).Nodup →
      Hangs C setup (keys setup t₀.initiator.dr.dhRatchetPublic log) lostI lostR t
        (reads .initiator log) (reads .responder log)) ?_ t₀ events hallowed ?_ hfresh
  · intro t log event hallowed ih hnodup
    rw [keys_append] at hnodup ⊢
    rw [reads_append, reads_append]
    obtain ⟨hold, -, hdisjoint⟩ := List.nodup_append.mp hnodup
    exact (ih hold).step hC hidentity event hallowed fun k hk hused => hdisjoint k hused k hk rfl
  · intro _
    obtain ⟨hnone, -, hfrom, hfrom', l, hl, halone⟩ := alone_start h₀
    exact .alone hnone (hl.trans hfrom.symm) hfrom' rfl rfl halone (by simp [keys]) (by simp [keys])

end Run

/-! ## The theorem -/

def readerSession (C : Crypto) (setup : Setup) (t : Talk) (reader : Party) (env : Env)
    (letter : Letter) : Option Session :=
  match t.session reader with
  | some s => some (s.cleanupIfDue env.now)
  | none =>
    (responderSession C env setup.rootKey setup.identityPrivate letter.message setup.initiatorId
      setup.responderId).toOption.map fun s => s.cleanupIfDue env.now

/-- What a delivery returns: `decrypt`, or for the first letter to the responder
`new_responder_session`. -/
def returned (C : Crypto) (setup : Setup) (t : Talk) (reader : Party) (env : Env)
    (letter : Letter) : Option Bytes :=
  match t.session reader with
  | some s =>
    match Session.decryptWithIdentitySecret C env letter.message
        (if reader = .initiator then answerSecret setup else none) s with
    | .ok plaintext _ => some plaintext
    | .error _ _ => none
  | none =>
    match newResponderSession C env setup.rootKey setup.identityPrivate letter.message
        setup.initiatorId setup.responderId with
    | .ok out => some out.2
    | .error _ => none

section Theorem

variable {setup : Setup} {t₀ : Talk} {events : List TalkEvent} {reader : Party}
  {lostI lostR : Bytes × UInt32 → Prop}

/-- Every event of a run in which the reader keeps the keys outside `lost` is allowed. -/
theorem allowed_along (hI : reader = .responder → ∀ a, lostI a)
    (hR : reader = .initiator → ∀ a, lostR a)
    (hkept : Machine.Along (Talk.step C setup) (fun t event => ∀ a, t.Evicts reader a event →
      if reader = .initiator then lostI a else lostR a) t₀ events)
    (hstale : (C.FreeKdf ∧ C.Authentic) ∨
      Machine.Along (Talk.step C setup) (fun t event => ¬ t.StaleDelivery event) t₀ events) :
    Machine.Along (Talk.step C setup) (Allowed C lostI lostR) t₀ events := by
  have hboth : Machine.Along (Talk.step C setup) (fun t event =>
      (∀ a, t.Evicts reader a event → if reader = .initiator then lostI a else lostR a) ∧
        ((C.FreeKdf ∧ C.Authentic) ∨ ¬ t.StaleDelivery event)) t₀ events := by
    rcases hstale with hideal | hnone
    · exact hkept.imp fun _ _ h => ⟨h, .inl hideal⟩
    · exact (hkept.and hnone).imp fun _ _ h => ⟨h.1, .inr h.2⟩
  refine hboth.imp fun t event h => ?_
  cases reader with
  | initiator => exact ⟨h.1, fun a _ => hR rfl a, h.2⟩
  | responder => exact ⟨fun a _ => hI rfl a, h.1, h.2⟩

variable (hC : C.Reliable) {used : List Bytes} {t : Talk} {readI readR : List Letter}
  (h : Hangs C setup used lostI lostR t readI readR) {env : Env} {letter : Letter}

include hC h

theorem Hangs.returned_initiator
    (hletter : letter ∈ t.fromResponder) (hunread : letter ∉ readI)
    (hkept : ¬ lostI (letter.message.dhPublicKey.toList, letter.message.messageNumber))
    (hkeeps : ∀ a, t.initiator.dr.skippedMessageKeys.get? a ≠ none →
      (t.initiator.cleanupIfDue env.now).dr.skippedMessageKeys.get? a = none → lostI a)
    (hdeliver : Deliverable C (t.initiator.cleanupIfDue env.now) letter) :
    t.returned C setup .initiator env letter = some letter.plaintext := by
  cases h with
  | alone _ _ hempty =>
    rw [hempty] at hletter
    cases hletter
  | @both b li lr hsome hli hlr hreadR hreadI hanswer hpaired =>
    obtain ⟨s, hrun⟩ := hpaired.swap.delivers hC (by show letter ∈ lr.letters; rw [hlr]; exact hletter)
      (by show letter ∉ lr.read; rw [hreadI]; exact hunread) env hkept hkeeps hdeliver
    show (match Session.decryptWithIdentitySecret C env letter.message (answerSecret setup)
      t.initiator with | .ok plaintext _ => some plaintext | .error _ _ => none) = _
    rw [show Session.decryptWithIdentitySecret C env letter.message (answerSecret setup) t.initiator =
      .ok letter.plaintext s from hrun]

theorem Hangs.returned_responder
    (hidentity : C.fromPrivateKeyToPublicKey setup.identityPrivate = .ok setup.identityPublic)
    (hletter : letter ∈ t.fromInitiator) (hunread : letter ∉ readR)
    (hkept : ¬ lostR (letter.message.dhPublicKey.toList, letter.message.messageNumber))
    (hfresh : ∀ k ∈ drawnKey C env, k ∉ used)
    (hkeeps : ∀ b, t.responder = some b → ∀ a, b.dr.skippedMessageKeys.get? a ≠ none →
      (b.cleanupIfDue env.now).dr.skippedMessageKeys.get? a = none → lostR a)
    (hdeliver : ∀ s, t.readerSession C setup .responder env letter = some s →
      Deliverable C s letter) :
    t.returned C setup .responder env letter = some letter.plaintext := by
  cases h with
  | @both b li lr hsome hli hlr hreadR hreadI hanswer hpaired =>
    have hreader : t.readerSession C setup .responder env letter =
        some (b.cleanupIfDue env.now) := by
      unfold readerSession
      rw [show t.session .responder = some b from hsome]
    obtain ⟨s, hrun⟩ := hpaired.delivers hC (by show letter ∈ li.letters; rw [hli]; exact hletter)
      (by show letter ∉ li.read; rw [hreadR]; exact hunread) env hkept (hkeeps b hsome)
      (hdeliver _ hreader)
    unfold returned
    rw [show t.session .responder = some b from hsome]
    show (match Session.decryptWithIdentitySecret C env letter.message none b with
      | .ok plaintext _ => some plaintext | .error _ _ => none) = _
    rw [show Session.decryptWithIdentitySecret C env letter.message none b =
      .ok letter.plaintext s from hrun]
  | @alone l hnone hletters hempty hreadI hreadR halone hused hpub =>
    rw [← hletters] at hletter
    obtain ⟨s₁, hs₁⟩ := halone.responderSession hC hidentity hletter env
    obtain ⟨-, hstore, lr, -, -, hpaired⟩ := @Hangs.responderSession C setup used lostI lostR t hC
      hidentity l halone letter hletter env s₁ hfresh hused hpub hs₁
    have hreader : t.readerSession C setup .responder env letter =
        some (s₁.cleanupIfDue env.now) := by
      unfold readerSession
      rw [show t.session .responder = none from hnone, hs₁]
      rfl
    obtain ⟨s, hrun⟩ := hpaired.delivers hC hletter
      (by show letter ∉ l.read; rw [halone.read]; exact List.not_mem_nil) env hkept
      (fun a ha => absurd (by
        show s₁.dr.skippedMessageKeys.get? a = none
        rw [hstore]
        exact AgedStore.get?_empty a) ha) (hdeliver _ hreader)
    unfold returned
    rw [show t.session .responder = none from hnone]
    dsimp only
    rw [newResponderSession_of_ok hs₁ hrun]

end Theorem

/-- **Delivery.** Over any conversation, the first delivery of any letter returns the plaintext
given to `encrypt`, if it makes no jump too far, leaves room for the keys it files, and the
reader has not evicted the letter's key. -/
theorem delivered (C : Crypto) (hC : C.Reliable) (setup : Setup)
    (hidentity : C.fromPrivateKeyToPublicKey setup.identityPrivate = .ok setup.identityPublic)
    (env₀ : Env) (t₀ : Talk) (h₀ : Talk.start C setup env₀ = .ok t₀) (events : List TalkEvent)
    (hstale : (C.FreeKdf ∧ C.Authentic) ∨
      Machine.Along (Talk.step C setup) (fun t event => ¬ t.StaleDelivery event) t₀ events)
    (reader : Party) (env : Env) (i : Nat) (letter : Letter)
    (hfresh : (keys setup t₀.initiator.dr.dhRatchetPublic
      (Machine.log (Talk.step C setup) t₀ (events ++ [.deliver reader env i]))).Nodup)
    (hletter : ((Machine.run (Talk.step C setup) t₀ events).lettersFor reader)[i]? = some letter)
    (hunread : letter ∉ reads reader (Machine.log (Talk.step C setup) t₀ events))
    (hkept : Machine.Along (Talk.step C setup) (fun t event => ¬ t.Evicts reader
      (letter.message.dhPublicKey.toList, letter.message.messageNumber) event) t₀
      (events ++ [.deliver reader env i]))
    (hdeliver : ∀ s, (Machine.run (Talk.step C setup) t₀ events).readerSession C setup reader env
      letter = some s → Deliverable C s letter) :
    (Machine.run (Talk.step C setup) t₀ events).returned C setup reader env letter =
      some letter.plaintext := by
  obtain ⟨hbefore, hnow, -⟩ := Machine.along_append.mp hkept
  rw [Machine.log_concat, keys_append] at hfresh
  obtain ⟨hold, -, hdisjoint⟩ := List.nodup_append.mp hfresh
  -- the one key that has to stay is the letter's
  have hlost : Machine.Along (Talk.step C setup) (fun t event => ∀ a, t.Evicts reader a event →
      a ≠ (letter.message.dhPublicKey.toList, letter.message.messageNumber)) t₀ events := by
    refine hbefore.imp ?_
    intro t event hnot a hevicts heq
    exact hnot (heq ▸ hevicts)
  cases reader with
  | initiator =>
    have hallowed : Machine.Along (Talk.step C setup) (Allowed C (fun a =>
        a ≠ (letter.message.dhPublicKey.toList, letter.message.messageNumber)) fun _ => True)
        t₀ events :=
      @allowed_along C setup t₀ events .initiator _ _ (fun h => nomatch h) (fun _ _ => trivial)
        hlost hstale
    have hrun := hangs_run hC hidentity h₀ hallowed hold
    refine hrun.returned_initiator hC (List.mem_of_getElem? hletter) hunread (fun hne => hne rfl) ?_
      (hdeliver _ rfl)
    intro a ha ha' heq
    exact hnow ⟨env, i, _, rfl, rfl, heq ▸ ha, heq ▸ ha'⟩
  | responder =>
    have hallowed : Machine.Along (Talk.step C setup) (Allowed C (fun _ => True) fun a =>
        a ≠ (letter.message.dhPublicKey.toList, letter.message.messageNumber)) t₀ events :=
      @allowed_along C setup t₀ events .responder _ _ (fun _ _ => trivial) (fun h => nomatch h)
        hlost hstale
    have hrun := hangs_run hC hidentity h₀ hallowed hold
    refine hrun.returned_responder hC hidentity (List.mem_of_getElem? hletter) hunread
      (fun hne => hne rfl) ?_ ?_ hdeliver
    · intro k hk hused
      refine hdisjoint k hused k ?_ rfl
      rw [step_toResponder hletter]
      simpa only [draws_append, draws_drew, draws_read, List.append_nil] using hk
    · intro b hb a ha ha' heq
      exact hnow ⟨env, i, b, rfl, hb, heq ▸ ha, heq ▸ ha'⟩

/-- Two parties of suite 1 whose responder answers the initiator's identity. -/
def sampleSetup : Setup where
  suiteId := .classic
  rootKey := leBytes 32 3
  ephemeralPrivate := leBytes 32 6
  identityPrivate := leBytes 32 5
  identityPublic := leBytes 32 5
  initiatorId := ofText "alice"
  responderId := ofText "bob"
  answer := some (leBytes 32 9, [7, 7])

def sampleTalk : Talk :=
  (Talk.start symbolicCrypto sampleSetup ⟨10, 21, 22, 23, 24⟩).toOption.get (by decide +kernel)

/-- The second letter opens the responder's session; it answers and writes; the initiator reads. -/
def sampleEvents : List TalkEvent :=
  [.write .initiator ⟨11, 31, 32, 33, 34⟩ [104, 105],
    .write .initiator ⟨12, 41, 42, 43, 44⟩ [104, 111],
    .deliver .responder ⟨13, 51, 52, 53, 54⟩ 1, .answer,
    .write .responder ⟨14, 61, 62, 63, 64⟩ [121, 111],
    .deliver .initiator ⟨15, 71, 72, 73, 74⟩ 0]

def sampleLetter : Letter :=
  ((Machine.run (Talk.step symbolicCrypto sampleSetup) sampleTalk
    sampleEvents).fromInitiator[0]?).get (by decide +kernel)

/-- The first letter arrives last, and is read. -/
theorem delivered_late :
    sampleLetter.plaintext = [104, 105] ∧
      (Machine.run (Talk.step symbolicCrypto sampleSetup) sampleTalk sampleEvents).returned
        symbolicCrypto sampleSetup .responder ⟨16, 81, 82, 83, 84⟩ sampleLetter =
          some sampleLetter.plaintext := by
  refine ⟨by decide +kernel, ?_⟩
  refine delivered symbolicCrypto symbolicCrypto_reliable sampleSetup rfl ⟨10, 21, 22, 23, 24⟩
    sampleTalk rfl sampleEvents (.inl ⟨symbolicCrypto_freeKdf, symbolicCrypto_authentic⟩) .responder
    ⟨16, 81, 82, 83, 84⟩ 0 sampleLetter (by decide +kernel) (by decide +kernel) (by decide +kernel)
    (by decide +kernel) ?_
  have hkey : ∀ s ∈ (Machine.run (Talk.step symbolicCrypto sampleSetup) sampleTalk
      sampleEvents).readerSession symbolicCrypto sampleSetup .responder ⟨16, 81, 82, 83, 84⟩
      sampleLetter, s.dr.skippedMessageKeys.get? (sampleLetter.message.dhPublicKey.toList,
        sampleLetter.message.messageNumber) ≠ none ∧
      s.dr.skippedMessageKeys.size + s.keysPassed sampleLetter.message <
        Config.global.maxSkippedMessages := by
    decide +kernel
  have hclassic : sampleLetter.pqKey = none := by decide +kernel
  intro s hs
  exact ⟨fun hnone => absurd hnone (hkey s hs).1, (hkey s hs).2,
    fun key hpq => nomatch hclassic.symm.trans hpq⟩

end Talk

end ConstructCore
