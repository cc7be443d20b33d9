import ConstructCore.Ratchet.PairReading

/-!
# How two sessions become paired

Before the responder exists the initiator writes on its first chain alone (`Alone`). The
responder's session, made from any letter of that chain, is paired with it
(`Alone.responder`): the DH of the responder's identity key and the initiator's ephemeral key
is the one the initiator's session started from. The identity answer, given before the
responder writes, keeps the pairing (`Paired.answered`).
-/

namespace ConstructCore

open Bytes Op KeyChain

variable {C : Crypto}

/-! ## The initiator alone -/

/-- The initiator's session while there is no responder, with the ledger of its letters. -/
structure Alone (C : Crypto) (setup : Setup) (s : Session) (l : Ledger) : Prop where
  sends : Sends C s l
  opened : l.opened = []
  read : l.read = []
  version : s.peerAdVersion = adVersionLegacy
  suite : s.suiteId = setup.suiteId
  contact : s.contactId = setup.responderId
  user : s.localUserId = setup.initiatorId
  sid : deriveSharedSessionId C setup.rootKey setup.initiatorId setup.responderId = .ok s.sessionId
  root : ∃ root dh, deriveInitialRootKey C setup.rootKey = .ok root ∧
    C.kemDecapsulate setup.ephemeralPrivate setup.identityPublic = .ok dh ∧
    C.kdfRk root dh = .ok (s.dr.rootKey, l.base s.dr.dhRatchetPublic)
  pub : C.fromPrivateKeyToPublicKey setup.ephemeralPrivate = .ok s.dr.dhRatchetPublic
  priv : s.dr.dhRatchetPrivate = some setup.ephemeralPrivate
  remote : s.dr.remoteDhPublic = some setup.identityPublic
  receiving : s.dr.receivingChainKey = defaultAeadKey ∧ s.dr.receivingChainLength = 0
  previous : s.dr.previousSendingLength = 0
  skipped : s.dr.skippedMessageKeys = .empty
  proof : s.identityProof = if setup.answer.isSome then .awaitingAnswer else .none

theorem Alone.wrote {setup : Setup} {s t : Session} {l : Ledger} (h : Alone C setup s l) {env : Env}
    {plaintext : Bytes} {new : List Letter}
    (hcase : Session.WriteCase C env plaintext s (t, new)) :
    Alone C setup t (l.wrote s.dr.dhRatchetPublic t.dr.sendingChainLength.toNat new) := by
  obtain ⟨hsends, key, length, pq, rfl, -⟩ := h.sends.wrote h.version hcase
  exact { h with sends := hsends }

/-- The ledger of an initiator that has written nothing on its one chain. -/
def Ledger.first (base : Bytes) : Ledger where
  base := fun _ => base
  sent := fun _ => 0
  reached := fun _ => 0
  opened := []
  current := []
  letters := []
  read := []

theorem alone_start {setup : Setup} {env : Env} {t : Talk} (h : Talk.start C setup env = .ok t) :
    t.responder = none ∧ t.toAnswer = none ∧ t.fromInitiator = [] ∧ t.fromResponder = [] ∧
      ∃ l, l.letters = [] ∧ Alone C setup t.initiator l := by
  unfold Talk.start at h
  obtain ⟨s, hs, h⟩ := Except.exists_of_bind_ok h
  cases h
  obtain ⟨sid, root, pub, dh, root', chain, hsid, hroot, hpub, hdh, hrk, rfl⟩ :=
    newInitiatorSession_ok hs
  refine ⟨rfl, rfl, rfl, rfl, Ledger.first chain, rfl, ?_⟩
  -- waiting for an answer or not, the ratchet is the one the constructor made
  have hwaits : ∀ s : Session, s.identityProof = .none →
      (if setup.answer.isSome then s.expectIdentityAnswer else s) =
        { s with identityProof := if setup.answer.isSome then .awaitingAnswer else .none } := by
    intro s hs
    cases setup.answer.isSome with
    | true => rfl
    | false =>
      show s = { s with identityProof := .none }
      rw [← hs]
  show Alone C setup (if setup.answer.isSome then _ else _) _
  rw [hwaits _ rfl]
  exact {
    sends := ⟨rfl, rfl, fun _ hx => (nomatch hx), .nil⟩
    opened := rfl
    read := rfl
    version := rfl
    suite := rfl
    contact := rfl
    user := rfl
    sid := hsid
    root := ⟨root, dh, hroot, hdh, hrk⟩
    pub := hpub
    priv := rfl
    remote := rfl
    receiving := ⟨rfl, rfl⟩
    previous := rfl
    skipped := rfl
    proof := rfl }

/-! ## The responder's session -/

theorem deriveSharedSessionId_comm (rootKey a b : Bytes) :
    deriveSharedSessionId C rootKey a b = deriveSharedSessionId C rootKey b a := by
  unfold deriveSharedSessionId
  by_cases hab : a ≤ b
  · by_cases hba : b ≤ a
    · rw [List.le_antisymm hab hba]
    · rw [if_pos hab, if_neg hba]
  · rw [if_neg hab, if_pos ((List.le_total a b).resolve_left hab)]

theorem hexDecode_sessionId {rootKey a b sid : Bytes}
    (h : deriveSharedSessionId C rootKey a b = .ok sid) : ∃ bytes, hexDecode sid = some bytes := by
  unfold deriveSharedSessionId at h
  dsimp only at h
  split at h
  · cases h
    exact ⟨_, hexDecode_hexEncode _⟩
  · cases h

/-- The ledger of the initiator's letters as the responder starts to read them. -/
def Ledger.openedBy (l : Ledger) (pub : Bytes) : Ledger :=
  { l with reached := fun _ => 0, opened := [pub], current := pub }

/-- The ledger of a responder that has written nothing; the initiator waits on the chain of
the responder's identity key, on which nothing is ever written. -/
def Ledger.answering (identity base : Bytes) : Ledger where
  base := fun d => if d = identity then defaultAeadKey else base
  sent := fun _ => 0
  reached := fun _ => 0
  opened := [identity]
  current := identity
  letters := []
  read := []

section Opening

variable {setup : Setup} {s s₁ : Session} {l : Ledger} {letter : Letter} {env : Env}

/-- What the responder's constructor computes from a letter of the initiator. -/
structure Opened (C : Crypto) (setup : Setup) (s : Session) (l : Ledger) (env : Env)
    (s₁ : Session) (dhPrivate dhPublic dhOutput sendingChain : Bytes) : Prop where
  fresh : C.generateKemKeys env.dhSeed = .ok (dhPrivate, dhPublic)
  dh : C.kemDecapsulate dhPrivate s.dr.dhRatchetPublic = .ok dhOutput
  rk : C.kdfRk s.dr.rootKey dhOutput = .ok (s₁.dr.rootKey, sendingChain)
  session : s₁ = .initial s.suiteId
    { rootKey := s₁.dr.rootKey, sendingChainKey := sendingChain, sendingChainLength := 0,
      receivingChainKey := l.base s.dr.dhRatchetPublic, receivingChainLength := 0,
      dhRatchetPrivate := some dhPrivate, dhRatchetPublic := dhPublic,
      remoteDhPublic := some s.dr.dhRatchetPublic, previousSendingLength := 0,
      skippedMessageKeys := .empty }
    false s.sessionId setup.initiatorId setup.responderId env.now

theorem Alone.chain (h : Alone C setup s l) (hletter : letter ∈ l.letters) :
    letter.message.dhPublicKey.toList = s.dr.dhRatchetPublic := by
  rcases (h.sends.letters letter hletter).chain with hopen | heq
  · rw [h.opened] at hopen
    cases hopen
  · exact heq

section Computed

variable (hC : C.Reliable) (h : Alone C setup s l)
  (hidentity : C.fromPrivateKeyToPublicKey setup.identityPrivate = .ok setup.identityPublic)

include hC h hidentity

/-- The responder's DH with the first ratchet key is the initiator's with the identity key. -/
theorem Alone.dh :
    ∃ root dh, deriveInitialRootKey C setup.rootKey = .ok root ∧
      C.kemDecapsulate setup.identityPrivate s.dr.dhRatchetPublic = .ok dh ∧
      C.kdfRk root dh = .ok (s.dr.rootKey, l.base s.dr.dhRatchetPublic) := by
  obtain ⟨root, dh, hroot, hdh, hrk⟩ := h.root
  obtain ⟨z, hz, hz'⟩ := hC.dh (.inr h.pub) (.inr hidentity)
  obtain rfl : dh = z := Except.ok.inj (hdh.symm.trans hz)
  exact ⟨root, dh, hroot, hz', hrk⟩

theorem Alone.responderSession (hletter : letter ∈ l.letters) (env : Env) :
    ∃ s₁, ConstructCore.responderSession C env setup.rootKey setup.identityPrivate letter.message
      setup.initiatorId setup.responderId = .ok s₁ := by
  obtain ⟨root, dh, hroot, hdh, hrk⟩ := h.dh hC hidentity
  obtain ⟨dhPrivate, dhPublic, hgen⟩ := hC.keys env.dhSeed
  obtain ⟨dh2, hdh2, -⟩ := hC.dh (.inl ⟨_, hgen⟩) (.inr h.pub)
  obtain ⟨finalRoot, sendingChain, hrk2⟩ := hC.rk s.dr.rootKey dh2
  have hsid := h.sid
  rw [deriveSharedSessionId_comm] at hsid
  unfold ConstructCore.responderSession
  dsimp only
  rw [h.chain hletter, (h.sends.letters letter hletter).suite, SuiteID.new_asU16,
    Except.bind_of_ok (lift_of_ok hsid), Except.bind_of_ok (lift_of_ok hroot),
    Except.bind_of_ok (lift_of_ok hdh), Except.bind_of_ok (lift_of_ok hrk),
    Except.bind_of_ok (lift_of_ok hgen)]
  dsimp only
  rw [Except.bind_of_ok (lift_of_ok hdh2), Except.bind_of_ok (lift_of_ok hrk2)]
  exact ⟨_, rfl⟩

theorem Alone.opened_of_ok (hletter : letter ∈ l.letters)
    (hs₁ : ConstructCore.responderSession C env setup.rootKey setup.identityPrivate letter.message
      setup.initiatorId setup.responderId = .ok s₁) :
    ∃ dhPrivate dhPublic dhOutput sendingChain,
      Opened C setup s l env s₁ dhPrivate dhPublic dhOutput sendingChain := by
  obtain ⟨root, dh, hroot, hdh, hrk⟩ := h.dh hC hidentity
  obtain ⟨sid, root', dh', rootB, receivingChain, dhPrivate, dhPublic, dhOutput2, finalRoot,
    sendingChain, suiteId, hsid, hroot', hdh', hrk', hgen, hdh2, hrk2, hsuite, rfl⟩ :=
    responderSession_ok hs₁
  obtain rfl : root' = root := Except.ok.inj (hroot'.symm.trans hroot)
  rw [h.chain hletter] at hdh' hdh2 ⊢
  obtain rfl : dh' = dh := Except.ok.inj (hdh'.symm.trans hdh)
  obtain ⟨rfl, rfl⟩ := Prod.mk.inj (Except.ok.inj (hrk'.symm.trans hrk))
  rw [(h.sends.letters letter hletter).suite, SuiteID.new_asU16] at hsuite
  obtain rfl : s.suiteId = suiteId := Option.some.inj hsuite
  have hsid' := h.sid
  rw [deriveSharedSessionId_comm, hsid] at hsid'
  obtain rfl : sid = s.sessionId := Except.ok.inj hsid'
  exact ⟨dhPrivate, dhPublic, dhOutput2, sendingChain, hgen, hdh2, hrk2, rfl⟩

end Computed

def initiatorSide (setup : Setup) (s : Session) (l : Ledger) (lost : Bytes × UInt32 → Prop) : Side where
  session := s
  secret := Talk.answerSecret setup
  due := false
  ledger := l
  lost := lost

def responderSide (s : Session) (due : Bool) (l : Ledger) (lost : Bytes × UInt32 → Prop) : Side where
  session := s
  secret := none
  due := due
  ledger := l
  lost := lost

variable {dhPrivate dhPublic dhOutput sendingChain : Bytes} {used : List Bytes}
  {lost lost' : Bytes × UInt32 → Prop}

section Halves

variable (h : Alone C setup s l)
  (ho : Opened C setup s l env s₁ dhPrivate dhPublic dhOutput sendingChain)

include h ho

theorem Alone.half {due : Bool} {l' : Ledger} (hused : s.dr.dhRatchetPublic ∈ used) :
    Half C used (initiatorSide setup s (l.openedBy s.dr.dhRatchetPublic) lost)
      (responderSide s₁ due l' lost') := by
  have hsession := ho.session
  obtain ⟨root, dh, hroot, -, hrk⟩ := h.root
  have hsends := h.sends
  refine ⟨⟨_, h.priv, .inr h.pub⟩, ?_, ?_, ?_, hused, fun hdue => (nomatch hdue), h.version⟩
  · refine { hsends with letters := fun x hx => ?_ }
    have hchain := h.chain hx
    exact { hsends.letters x hx with
      chain := .inr hchain
      previous := fun hnot => absurd (List.mem_singleton.mpr hchain) hnot }
  · refine ⟨?_, ?_, ?_, fun _ _ => Nat.two_pow_pos 32, ?_, Nat.zero_le _, .inl rfl, ?_, ?_⟩
    · show s₁.dr.remoteDhPublic = _
      rw [hsession]
      rfl
    · show Settled _ _ _ _ _ _ s₁.dr.receivingChainKey s₁.dr.skippedMessageKeys _ _
      rw [hsession]
      exact .start rfl fun a => AgedStore.get?_empty a
    · show 0 = s₁.dr.receivingChainLength.toNat
      rw [hsession]
      rfl
    · intro d hd hne
      exact absurd (List.mem_singleton.mp hd) hne
    · intro x hx
      have hx : x ∈ l.read := hx
      rw [h.read] at hx
      cases hx
    · intro hfree
      have hopened : OpenedFrom C root (l.base s.dr.dhRatchetPublic) := ⟨_, _, _, hrk, .inl rfl⟩
      exact ((Ancestry.start hfree hroot).step (.inl ⟨_, _, hrk⟩) [_] fun b hb =>
        .inr ((List.mem_singleton.mp hb).symm ▸ hopened)).mix (.inl ⟨_, _, ho.rk⟩)
  · intro d hd
    rw [List.mem_singleton.mp hd]
    exact hused

theorem Opened.half {due : Bool} {l' : Ledger} (hne : dhPublic ≠ setup.identityPublic)
    (hidentity : setup.identityPublic ∈ used) (hused : dhPublic ∈ used) :
    Half C used (responderSide s₁ due (.answering setup.identityPublic sendingChain) lost')
      (initiatorSide setup s l' lost) := by
  have hsession := ho.session
  obtain ⟨root, dh, hroot, -, hrk⟩ := h.root
  have hpub : s₁.dr.dhRatchetPublic = dhPublic := by
    rw [hsession]
    rfl
  have hbase : (Ledger.answering setup.identityPublic sendingChain).base dhPublic = sendingChain :=
    if_neg hne
  have hidentityBase : (Ledger.answering setup.identityPublic sendingChain).base
      setup.identityPublic = defaultAeadKey := if_pos rfl
  refine ⟨⟨dhPrivate, ?_, .inl ⟨_, hpub ▸ ho.fresh⟩⟩, ?_, ?_, ?_, ?_, fun _ => rfl, ?_⟩
  · show s₁.dr.dhRatchetPrivate = _
    rw [hsession]
    rfl
  · refine ⟨?_, ?_, fun _ hx => (nomatch hx), .nil⟩
    · show stateAt _ ((Ledger.answering _ _).base s₁.dr.dhRatchetPublic)
        s₁.dr.sendingChainLength.toNat = some s₁.dr.sendingChainKey
      rw [hpub, hbase, hsession]
      rfl
    · show 0 = s₁.dr.sendingChainLength.toNat
      rw [hsession]
      rfl
  · refine ⟨h.remote, ?_, ?_, fun _ _ => Nat.two_pow_pos 32, ?_, Nat.zero_le _, ?_,
      fun _ hx => (nomatch hx), ?_⟩
    · show Settled _ _ _ _ _ _ s.dr.receivingChainKey s.dr.skippedMessageKeys _ _
      rw [h.receiving.1, h.skipped, ← hidentityBase]
      exact .start rfl fun a => AgedStore.get?_empty a
    · show 0 = s.dr.receivingChainLength.toNat
      rw [h.receiving.2]
      rfl
    · intro d hd hnot
      exact absurd (List.mem_singleton.mp hd) hnot
    · refine .inr ⟨?_, ?_⟩
      · show s₁.dr.dhRatchetPublic ∉ [setup.identityPublic]
        rw [hpub]
        exact fun hmem => hne (List.mem_singleton.mp hmem)
      · show s₁.dr.previousSendingLength.toNat = 0
        rw [hsession]
        rfl
    · intro hfree
      show Ancestry C s.dr.rootKey [(Ledger.answering _ sendingChain).base setup.identityPublic]
      rw [hidentityBase]
      exact (Ancestry.start hfree hroot).step (.inl ⟨_, _, hrk⟩) [_] fun b hb =>
        .inl (List.mem_singleton.mp hb)
  · intro d hd
    rw [List.mem_singleton.mp hd]
    exact hidentity
  · show s₁.dr.dhRatchetPublic ∈ used
    rw [hpub]
    exact hused
  · show s₁.peerAdVersion = _
    rw [hsession]
    rfl

/-- **The responder's session is paired with the initiator's.** -/
theorem Alone.paired (hC : C.Reliable) (hne : dhPublic ≠ setup.identityPublic)
    (hused : ∀ d ∈ [setup.identityPublic, s.dr.dhRatchetPublic, dhPublic], d ∈ used) :
    Paired C used (initiatorSide setup s (l.openedBy s.dr.dhRatchetPublic) lost)
      (responderSide s₁ setup.answer.isSome (.answering setup.identityPublic sendingChain) lost') := by
  have hsession := ho.session
  have hpub : s₁.dr.dhRatchetPublic = dhPublic := by
    rw [hsession]
    rfl
  have hbase : (Ledger.answering setup.identityPublic sendingChain).base dhPublic = sendingChain :=
    if_neg hne
  obtain ⟨z, hz, hz'⟩ := hC.dh (.inr h.pub) (.inl ⟨_, ho.fresh⟩)
  obtain rfl : z = dhOutput := Except.ok.inj (hz'.symm.trans ho.dh)
  refine ⟨h.half ho (hused _ (by simp)), ho.half h hne (hused _ (by simp)) (hused _ (by simp)), ?_, .inr ?_⟩
  · obtain ⟨bytes, hbytes⟩ := hexDecode_sessionId h.sid
    show Matched s s₁
    rw [hsession]
    exact ⟨⟨bytes, hbytes, hbytes⟩, h.contact, h.user, rfl⟩
  · refine ⟨?_, ?_, ?_, rfl, _, _, _, _, h.priv, ?_, ho.rk, ?_⟩
    · show s₁.dr.remoteDhPublic = _
      rw [hsession]
      rfl
    · show s₁.dr.dhRatchetPublic ∉ [setup.identityPublic]
      rw [hpub]
      exact fun hmem => hne (List.mem_singleton.mp hmem)
    · show s₁.identityProof ≠ _
      rw [hsession]
      exact fun heq => nomatch heq
    · show C.kemDecapsulate setup.ephemeralPrivate s₁.dr.dhRatchetPublic = _
      rw [hpub]
      exact hz
    · have hproof := h.proof
      show if setup.answer.isSome = true then _ else _
      split
      · rename_i hanswer
        rw [if_pos hanswer] at hproof
        refine ⟨rfl, ?_, ?_, ?_, ?_, hproof⟩
        · show sendingChain = (Ledger.answering _ _).base s₁.dr.dhRatchetPublic
          rw [hpub, hbase]
        · show sendingChain = s₁.dr.sendingChainKey
          rw [hsession]
          rfl
        · show s₁.dr.sendingChainLength = 0
          rw [hsession]
          rfl
        · show s₁.identityProof = .none
          rw [hsession]
          rfl
      · rename_i hanswer
        rw [if_neg hanswer] at hproof
        refine ⟨.none, ?_, fun heq => nomatch heq⟩
        show Session.awaitedMix C s.identityProof _ _ _ =
          .ok (s₁.dr.rootKey, (Ledger.answering _ _).base s₁.dr.dhRatchetPublic, _)
        rw [hproof, hpub, hbase]
        rfl

end Halves

/-- **The identity answer keeps the pairing.** The initiator mixes the same secret into the
step it has yet to make. -/
theorem Paired.answered {b : Session} {li lr : Ledger} {secret ciphertext root chain : Bytes}
    (h : Paired C used (initiatorSide setup s li lost) (responderSide b true lr lost'))
    (hsecret : Talk.answerSecret setup = some secret)
    (hmix : mixIdentitySecret C b.dr.rootKey b.dr.sendingChainKey secret = .ok (root, chain)) :
    Paired C used (initiatorSide setup s li lost)
      (responderSide { b with
        dr := { b.dr with rootKey := root, sendingChainKey := chain }
        identityProof := .answered ciphertext } false (lr.opens b.dr.dhRatchetPublic chain) lost') := by
  have hahead : Ahead C (responderSide b true lr lost') (initiatorSide setup s li lost) := by
    rcases h.lead with hx | hy
    · exact absurd hx.owes fun heq => (nomatch heq)
    · exact hy
  obtain ⟨priv, z, root', chain', hpriv, hz, hrk, hdue⟩ := hahead.derived
  obtain ⟨hroot', -, hchain', hzero, -, hawait⟩ := hdue
  have hidle : lr.letters = [] := h.right.idle rfl
  have hunseen : b.dr.dhRatchetPublic ∉ lr.opened := hahead.unseen
  have hne : ∀ d ∈ lr.opened, d ≠ b.dr.dhRatchetPublic := fun d hd heq => hunseen (heq ▸ hd)
  have hbase : ∀ d ∈ lr.opened, (lr.opens b.dr.dhRatchetPublic chain).base d = lr.base d :=
    fun d hd => Function.update_of_ne (hne d hd) _ _
  have hsent : ∀ d ∈ lr.opened, (lr.opens b.dr.dhRatchetPublic chain).sent d = lr.sent d :=
    fun d hd => Function.update_of_ne (hne d hd) _ _
  refine ⟨?_, ?_, h.matched.to_same ⟨rfl, rfl, rfl, rfl⟩, .inr ?_⟩
  · have hgets := h.left.gets
    refine { h.left with gets := { hgets with ancestry := fun hfree => ?_ } }
    exact (hgets.ancestry hfree).mix (.inr ⟨_, (mixIdentitySecret_ok hmix).1⟩)
  · have hgets := h.right.gets
    refine { h.right with sends := ?_, gets := ?_, idle := fun hd => (nomatch hd) }
    · refine ⟨?_, ?_, ?_, ?_⟩
      · show stateAt _ ((lr.opens b.dr.dhRatchetPublic chain).base b.dr.dhRatchetPublic)
          b.dr.sendingChainLength.toNat = some chain
        rw [Ledger.base_opens_self, show b.dr.sendingChainLength = 0 from hzero]
        rfl
      · show (lr.opens b.dr.dhRatchetPublic chain).sent b.dr.dhRatchetPublic =
          b.dr.sendingChainLength.toNat
        rw [Ledger.sent_opens_self, show b.dr.sendingChainLength = 0 from hzero]
        rfl
      · intro x hx
        have hx : x ∈ lr.letters := hx
        rw [hidle] at hx
        cases hx
      · show lr.letters.Pairwise _
        rw [hidle]
        exact .nil
    · refine { hgets with settled := ?_, closed := ?_, within := ?_, chain := ?_, ancestry := ?_ }
      · exact hgets.settled.mono hbase (fun _ _ => rfl) (fun _ _ hd => hd)
      · intro d hd hcur
        exact Nat.le_trans (Nat.le_of_eq (hsent d hd)) (hgets.closed d hd hcur)
      · exact Nat.le_trans hgets.within (Nat.le_of_eq (hsent _ hgets.settled.current).symm)
      · refine hgets.chain.imp_right fun hrest => ⟨hrest.1, hrest.2.trans ?_⟩
        exact (hsent _ hgets.settled.current).symm
      · intro hfree
        show Ancestry C _ (lr.opened.map (lr.opens b.dr.dhRatchetPublic chain).base)
        rw [List.map_congr_left hbase]
        exact hgets.ancestry hfree
  · refine ⟨hahead.remote, hunseen, fun heq => (nomatch heq), rfl, priv, z, root', chain', hpriv, hz, hrk, ?_⟩
    rw [if_neg fun heq => (nomatch heq)]
    refine ⟨.none, ?_, fun heq => nomatch heq⟩
    show Session.awaitedMix C s.identityProof (Talk.answerSecret setup) root' chain' =
      .ok (root, (lr.opens b.dr.dhRatchetPublic chain).base b.dr.dhRatchetPublic, .none)
    rw [show s.identityProof = .awaitingAnswer from hawait, hsecret, Ledger.base_opens_self,
      show root' = b.dr.rootKey from hroot', show chain' = b.dr.sendingChainKey from hchain']
    show (mixIdentitySecret C b.dr.rootKey b.dr.sendingChainKey secret).map _ = _
    rw [hmix]
    rfl

end Opening

end ConstructCore
