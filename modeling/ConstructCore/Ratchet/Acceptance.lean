import ConstructCore.Lib.RecvChain
import ConstructCore.Ratchet.HeaderBinding

/-!
# A message is accepted at most once

Every acceptance takes one classical key: out of the store, off the live chain, or off the
chain a DH step has just opened. With key derivation free of collisions a key names its
chain and its position, and a chain names the root key it was opened from; root keys never
come back, since each is made from the one before. So no classical key is taken twice
(`receives_run`), through replays, failures, save and load. Two acceptances of one emitted
message would need the same one.
-/

namespace ConstructCore

open Bytes Op KeyChain

variable {C : Crypto}

/-! ## Where root keys and chains come from -/

/-- One derivation of the root key: a DH output, or the secret of an identity answer. -/
def RootStep (C : Crypto) (root root' : Bytes) : Prop :=
  (∃ dh chain, C.kdfRk root dh = .ok (root', chain)) ∨
    ∃ secret, C.hkdfDeriveKey secret root (ofText "Construct-KEM-identity-root-v1") 32 = .ok root'

/-- A receiving chain opened from the root key, with an identity secret mixed in or not. -/
def OpenedFrom (C : Crypto) (root base : Bytes) : Prop :=
  ∃ dh root' chain, C.kdfRk root dh = .ok (root', chain) ∧
    (base = chain ∨ ∃ secret,
      C.hkdfDeriveKey secret chain (ofText "Construct-KEM-identity-chain-v1") 32 = .ok base)

variable {r r' root base chain chain' : Bytes}

section Free

variable (hC : C.FreeKdf)

include hC

theorem ckStep_injective : InjectiveStep (ckStep C) where
  key h h' := hC.ckKey (ok_of_ckStep h) (ok_of_ckStep h')
  next h h' := hC.ckNext (ok_of_ckStep h) (ok_of_ckStep h')

theorem RootStep.unique {x : Bytes} (h : RootStep C r x) (h' : RootStep C r' x) :
    r = r' := by
  obtain ⟨source, -, hrk, hhkdf, -⟩ := hC.disjoint
  rcases h with ⟨dh, chain, h⟩ | ⟨secret, h⟩
  · rcases h' with ⟨dh', chain', h'⟩ | ⟨secret', h'⟩
    · exact (hC.rkRoot h h').1
    · exact absurd ((hrk _ _ _ _ h).1.symm.trans (hhkdf _ _ _ _ _ h')) (by decide)
  · rcases h' with ⟨dh', chain', h'⟩ | ⟨secret', h'⟩
    · exact absurd ((hrk _ _ _ _ h').1.symm.trans (hhkdf _ _ _ _ _ h)) (by decide)
    · exact (hC.hkdf h h').2.1

theorem not_rootStep_initial {rootKey : Bytes} (h : deriveInitialRootKey C rootKey = .ok root)
    (r : Bytes) : ¬ RootStep C r root := by
  obtain ⟨source, -, hrk, hhkdf, -⟩ := hC.disjoint
  rintro (⟨dh, chain, h'⟩ | ⟨secret, h'⟩)
  · exact absurd ((hrk _ _ _ _ h').1.symm.trans (hhkdf _ _ _ _ _ h)) (by decide)
  · exact absurd (hC.hkdf h h').2.2 (by decide +kernel)

theorem OpenedFrom.unique (h : OpenedFrom C r base) (h' : OpenedFrom C r' base) :
    r = r' := by
  obtain ⟨source, -, hrk, hhkdf, -⟩ := hC.disjoint
  obtain ⟨dh, x, chain, hroot, hbase⟩ := h
  obtain ⟨dh', x', chain', hroot', hbase'⟩ := h'
  have hsame : chain = chain' := by
    rcases hbase with rfl | ⟨secret, hmix⟩
    · rcases hbase' with heq | ⟨secret', hmix'⟩
      · exact heq
      · exact absurd ((hrk _ _ _ _ hroot).2.symm.trans (hhkdf _ _ _ _ _ hmix')) (by decide)
    · rcases hbase' with rfl | ⟨secret', hmix'⟩
      · exact absurd ((hrk _ _ _ _ hroot').2.symm.trans (hhkdf _ _ _ _ _ hmix)) (by decide)
      · exact (hC.hkdf hmix hmix').2.1
  subst hsame
  exact (hC.rkChain hroot hroot').1

theorem origin_of_source
    (h : ∀ source : Bytes → Crypto.Source,
      (∀ r d x c, C.kdfRk r d = .ok (x, c) → source x = .root ∧ source c = .chain) →
      (∀ salt ikm info len out, C.hkdfDeriveKey salt ikm info len = .ok out →
        source out = .hkdf) →
      source defaultAeadKey = .other → source base ≠ .nextChain) :
    Origin (ckStep C) base := by
  obtain ⟨source, hck, hrk, hhkdf, hdefault⟩ := hC.disjoint
  intro a m hstep
  exact h source hrk hhkdf hdefault (hck _ _ _ (ok_of_ckStep hstep)).2

theorem origin_default : Origin (ckStep C) defaultAeadKey :=
  origin_of_source hC fun source _ _ hdefault => by
    rw [hdefault]
    decide

theorem OpenedFrom.origin (h : OpenedFrom C r base) :
    Origin (ckStep C) base := by
  obtain ⟨dh, x, chain, hroot, hbase⟩ := h
  refine origin_of_source hC fun source hrk hhkdf _ => ?_
  rcases hbase with rfl | ⟨secret, hmix⟩
  · rw [(hrk _ _ _ _ hroot).2]
    decide
  · rw [hhkdf _ _ _ _ _ hmix]
    decide

theorem OpenedFrom.ne_default (h : OpenedFrom C r base) :
    base ≠ defaultAeadKey := by
  obtain ⟨source, -, hrk, hhkdf, hdefault⟩ := hC.disjoint
  obtain ⟨dh, x, chain, hroot, hbase⟩ := h
  rintro rfl
  rcases hbase with rfl | ⟨secret, hmix⟩
  · exact absurd (hdefault.symm.trans (hrk _ _ _ _ hroot).2) (by decide)
  · exact absurd (hdefault.symm.trans (hhkdf _ _ _ _ _ hmix)) (by decide)

theorem mixPqMessageKey_inj {key key' next next' out : Bytes} {pqKey pqKey' : Option Bytes}
    (hck : C.kdfCk chain = .ok (key, next)) (hck' : C.kdfCk chain' = .ok (key', next'))
    (h : mixPqMessageKey C key pqKey = .ok out) (h' : mixPqMessageKey C key' pqKey' = .ok out) :
    key = key' := by
  obtain ⟨source, hsource, -, hhkdf, -⟩ := hC.disjoint
  have hmixed : ∀ {key pq}, mixPqMessageKey C key (some pq) = .ok out →
      C.hkdfDeriveKey pq key (ofText "construct-pqr-msg-v2") 32 = .ok out := by
    intro key pq hmix
    unfold mixPqMessageKey at hmix
    dsimp only at hmix
    split at hmix
    · cases hmix
    · rename_i mixed hmixed
      cases hmix
      exact hmixed
  cases pqKey with
  | none =>
    obtain rfl : key = out := Except.ok.inj h
    cases pqKey' with
    | none => exact (Except.ok.inj h').symm
    | some pq' =>
      exact absurd ((hsource _ _ _ hck).1.symm.trans (hhkdf _ _ _ _ _ (hmixed h'))) (by decide)
  | some pq =>
    cases pqKey' with
    | none =>
      obtain rfl : key' = out := Except.ok.inj h'
      exact absurd ((hsource _ _ _ hck').1.symm.trans (hhkdf _ _ _ _ _ (hmixed h))) (by decide)
    | some pq' => exact (hC.hkdf (hmixed h) (hmixed h')).2.1

end Free

theorem mixIdentitySecret_ok {secret root' : Bytes}
    (h : mixIdentitySecret C root chain secret = .ok (root', chain')) :
    C.hkdfDeriveKey secret root (ofText "Construct-KEM-identity-root-v1") 32 = .ok root' ∧
      C.hkdfDeriveKey secret chain (ofText "Construct-KEM-identity-chain-v1") 32 = .ok chain' := by
  unfold mixIdentitySecret at h
  obtain ⟨r, hr, h⟩ := Except.exists_of_bind_ok h
  obtain ⟨c, hc, h⟩ := Except.exists_of_bind_ok h
  cases h
  exact ⟨Session.lift_eq_ok hr, Session.lift_eq_ok hc⟩

theorem Session.DhTurn.Valid.derivation {env : Env} {remote : Bytes} {secret : Option Bytes}
    {s : Session} {d : Session.DhTurn} (h : d.Valid C env remote secret s) :
    RootStep C s.dr.rootKey d.receiveRoot ∧
      (d.mixedRoot = d.receiveRoot ∨ RootStep C d.receiveRoot d.mixedRoot) ∧
      RootStep C d.mixedRoot d.sendRoot ∧ OpenedFrom C s.dr.rootKey d.mixedChain := by
  refine ⟨.inl ⟨_, _, h.receive⟩, ?_⟩
  have hmix := h.mix
  unfold awaitedMix at hmix
  split at hmix
  · cases secret with
    | none => cases hmix
    | some secret =>
      dsimp only at hmix
      cases hkeys : mixIdentitySecret C d.receiveRoot d.receiveChain secret with
      | error e =>
        rw [hkeys] at hmix
        cases hmix
      | ok keys =>
        rw [hkeys] at hmix
        obtain ⟨hroot, hrest⟩ := Prod.mk.inj (Except.ok.inj hmix)
        obtain ⟨hchain, -⟩ := Prod.mk.inj hrest
        obtain ⟨hr, hc⟩ := mixIdentitySecret_ok hkeys
        rw [hroot] at hr
        rw [hchain] at hc
        exact ⟨.inr (.inr ⟨_, hr⟩), .inl ⟨_, _, h.send⟩, _, _, _, h.receive, .inr ⟨_, hc⟩⟩
  · obtain ⟨hroot, hrest⟩ := Prod.mk.inj (Except.ok.inj hmix)
    obtain ⟨hchain, -⟩ := Prod.mk.inj hrest
    exact ⟨.inl hroot.symm, .inl ⟨_, _, h.send⟩, _, _, _, h.receive, .inl hchain.symm⟩

/-- The root key comes from one that no derivation makes, and every chain was opened from a
root key on the way, or is the empty key an initiator starts with. -/
def Ancestry (C : Crypto) (root : Bytes) (bases : List Bytes) : Prop :=
  ∃ origin depth, (∀ r, ¬ RootStep C r origin) ∧ Lineage (RootStep C) origin depth root ∧
    ∀ b ∈ bases, b = defaultAeadKey ∨
      ∃ r n, n < depth ∧ Lineage (RootStep C) origin n r ∧ OpenedFrom C r b

namespace Ancestry

variable {root root' b : Bytes} {bases : List Bytes}

theorem start {rootKey : Bytes} (hC : C.FreeKdf) (h : deriveInitialRootKey C rootKey = .ok root) :
    Ancestry C root [] :=
  ⟨root, 0, not_rootStep_initial hC h, .origin, fun _ hb => (nomatch hb)⟩

/-- A chain opened from the current root key is none of those opened before. -/
theorem fresh (hC : C.FreeKdf) (h : Ancestry C root bases) (hopened : OpenedFrom C root b) :
    b ∉ bases := by
  obtain ⟨origin, depth, horigin, hline, hbases⟩ := h
  intro hb
  rcases hbases b hb with hdefault | ⟨r, n, hn, hr, hfrom⟩
  · exact hopened.ne_default hC hdefault
  · -- the same root key at two distances
    obtain rfl := hfrom.unique hC hopened
    have := Lineage.unique (R := RootStep C) (fun h h' => h.unique hC h') horigin hr hline
    omega

/-- The root key is replaced, and the chains opened from it join the others. -/
theorem step (h : Ancestry C root bases) (hroot : RootStep C root root') (new : List Bytes)
    (hnew : ∀ b ∈ new, b = defaultAeadKey ∨ OpenedFrom C root b) :
    Ancestry C root' (bases ++ new) := by
  obtain ⟨origin, depth, horigin, hline, hbases⟩ := h
  refine ⟨origin, depth + 1, horigin, hline.step hroot, ?_⟩
  intro b hb
  rcases List.mem_append.mp hb with hold | hb
  · rcases hbases b hold with hdefault | ⟨r, n, hn, hrest⟩
    · exact .inl hdefault
    · exact .inr ⟨r, n, Nat.lt_succ_of_lt hn, hrest⟩
  · exact (hnew b hb).imp_right fun h => ⟨root, depth, Nat.lt_succ_self _, hline, h⟩

theorem mix (h : Ancestry C root bases) (hroot : RootStep C root root') : Ancestry C root' bases := by
  have := h.step hroot [] fun _ hb => (nomatch hb)
  rwa [List.append_nil] at this

theorem turn {s : Session} (h : Ancestry C s.dr.rootKey bases) {env : Env} {remote : Bytes}
    {secret : Option Bytes} {d : Session.DhTurn} (hd : d.Valid C env remote secret s) :
    Ancestry C d.sendRoot (bases ++ [d.mixedChain]) := by
  obtain ⟨hreceive, hmixed, hsend, hopened⟩ := hd.derivation
  have hstep := h.step hreceive [d.mixedChain] fun b hb =>
    .inr ((List.mem_singleton.mp hb).symm ▸ hopened)
  rcases hmixed with heq | hmix
  · rw [heq] at hsend
    exact hstep.mix hsend
  · exact (hstep.mix hmix).mix hsend

end Ancestry

/-! ## The receiver of a session -/

/-- The receiving half of a session as a receiver that has taken the classical keys `used`. -/
def Receives (C : Crypto) (dr : Ratchet) (used : List Bytes) : Prop :=
  ∃ chains base name, dr.remoteDhPublic = some name ∧
    Receipt (ckStep C) slot (2 ^ 32) chains base name dr.receivingChainKey
      dr.receivingChainLength.toNat dr.skippedMessageKeys used ∧
    Ancestry C dr.rootKey (chains.map Prod.fst)

namespace Receives

variable {dr dr' : Ratchet} {used : List Bytes}

theorem of_same (h : Receives C dr used) (hroot : dr'.rootKey = dr.rootKey)
    (hremote : dr'.remoteDhPublic = dr.remoteDhPublic)
    (hkey : dr'.receivingChainKey = dr.receivingChainKey)
    (hlen : dr'.receivingChainLength = dr.receivingChainLength)
    (hstore : ∀ a m, dr'.skippedMessageKeys.get? a = some m →
      dr.skippedMessageKeys.get? a = some m) : Receives C dr' used := by
  obtain ⟨chains, base, name, hname, hreceipt, hancestry⟩ := h
  refine ⟨chains, base, name, hremote.trans hname, ?_, ?_⟩
  · rw [hkey, hlen]
    exact hreceipt.shrink hstore
  · rw [hroot]
    exact hancestry

variable {chain key : Bytes} {s t : Session} {now : Nat} {m : EncryptedRatchetMessage} {env : Env}
  {secret : Option Bytes}

theorem mixRoot (h : Receives C dr used) {root : Bytes} (hroot : RootStep C dr.rootKey root) :
    Receives C { dr with rootKey := root, sendingChainKey := chain } used := by
  obtain ⟨chains, base, name, hname, hreceipt, hancestry⟩ := h
  exact ⟨chains, base, name, hname, hreceipt, hancestry.mix hroot⟩

theorem slot_injOn (dh : Bytes) (i j : Nat) (hi : i < 2 ^ 32) (hj : j < 2 ^ 32)
    (h : slot dh i = slot dh j) : i = j :=
  (slot_inj hi hj h).2

variable (hC : C.FreeKdf) (h : Receives C s.dr used)

include hC h

theorem moves {name : Bytes} {position : Nat} {skipped : AgedStore (Bytes × UInt32) Bytes}
    (hname : s.dr.remoteDhPublic = some name)
    (hmove : Session.Moves C now name s position chain skipped) (hbound : position < 2 ^ 32) :
    Receives C (s.withReceiving chain position skipped).dr used := by
  obtain ⟨chains, base, name', hname', hreceipt, hancestry⟩ := h
  obtain rfl : name' = name := Option.some.inj (hname'.symm.trans hname)
  refine ⟨chains, base, name', hname, ?_, hancestry⟩
  show Receipt _ _ _ _ _ _ chain (UInt32.ofNat position).toNat skipped used
  rw [UInt32.toNat_ofNat', Nat.mod_eq_of_lt hbound]
  exact hreceipt.advance (ckStep_injective hC) hmove (Nat.le_of_lt hbound) (slot_injOn name')

theorem derives (hname : s.dr.remoteDhPublic = some m.dhPublicKey.toList)
    (hkey : Session.Derives C now m s key t) : Receives C t.dr (used ++ [key]) := by
  obtain ⟨-, hbound, chain, next, skipped, hmove, hck, rfl⟩ := hkey
  obtain ⟨chains, base, name, hname', hreceipt, hancestry⟩ := h.moves hC hname hmove (by omega)
  refine ⟨chains, base, name, hname', ?_, hancestry⟩
  have hpos : (s.withReceiving chain m.messageNumber.toNat skipped).dr.receivingChainLength.toNat =
      m.messageNumber.toNat := by
    show (UInt32.ofNat m.messageNumber.toNat).toNat = _
    rw [UInt32.ofNat_toNat]
  rw [hpos] at hreceipt
  show Receipt _ _ _ _ _ _ next (UInt32.ofNat (m.messageNumber.toNat + 1)).toNat skipped _
  rw [UInt32.toNat_ofNat', Nat.mod_eq_of_lt hbound]
  exact hreceipt.yield (ckStep_injective hC) (ckStep_of_ok hck)

theorem turn {remote : Bytes} {d : Session.DhTurn} (hd : d.Valid C env remote secret s) :
    Receives C (d.apply C env remote s).dr used := by
  obtain ⟨chains, base, name, hname, hreceipt, hancestry⟩ := h
  have hopened := hd.derivation.2.2.2
  refine ⟨chains ++ [(d.mixedChain, remote)], d.mixedChain, remote, rfl, ?_, ?_⟩
  · exact hreceipt.openChain remote (hopened.origin hC) (hancestry.fresh hC hopened)
  · rw [List.map_append]
    exact hancestry.turn hd

theorem savesOld (hsave : Session.SavesOld C now m s t) :
    Receives C t.dr used := by
  rcases hsave with ⟨-, rfl⟩ | ⟨old, chain, skipped, hremote, hmove, rfl⟩
  · exact h
  · exact h.moves hC hremote hmove
      (Nat.max_lt.mpr ⟨s.dr.receivingChainLength.toNat_lt, m.previousChainLength.toNat_lt⟩)

/-- **An accepted message takes one classical key.** -/
theorem classicalKey {stepped : Bool} (hkey : Session.ClassicalKey C env m secret s key stepped t) :
    Receives C t.dr (used ++ [key]) := by
  cases hkey with
  | skipped hget =>
    obtain ⟨chains, base, name, hname, hreceipt, hancestry⟩ := h
    exact ⟨chains, base, name, hname, hreceipt.take (ckStep_injective hC) hget, hancestry⟩
  | live _ hsame _ hderives =>
    refine h.derives hC ?_ hderives
    unfold Session.needsRatchet at hsame
    simpa using hsame
  | ratchet _ _ _ hsave hturn hderives =>
    exact ((h.savesOld hC hsave).turn hC hturn).derives hC rfl hderives

end Receives

/-! ## Runs -/

/-- An accepted message with the classical key it took. -/
structure Acceptance where
  message : EncryptedRatchetMessage
  drKey : Bytes

/-- The AEAD opened the message under the classical key, mixed with some PQ key or none. -/
def Acceptance.Opened (C : Crypto) (sender receiver sid : Bytes) (pqRatchetSuite : Bool)
    (x : Acceptance) : Prop :=
  ∃ pqKey messageKey padded, mixPqMessageKey C x.drKey pqKey = .ok messageKey ∧
    C.aeadDecrypt messageKey x.message.nonce x.message.ciphertext
      (some (associatedData x.message.adVersion sender receiver sid pqRatchetSuite
        (AdHeader.ofMessage x.message))) = .ok padded

def accepteds (log : List Seen) : List EncryptedRatchetMessage :=
  log.filterMap fun
    | .accepted m _ => some m
    | _ => none

theorem accepteds_append (l l' : List Seen) : accepteds (l ++ l') = accepteds l ++ accepteds l' :=
  List.filterMap_append

theorem accepteds_drawn (env : Env) : accepteds (drawn C env) = [] := by
  unfold drawn
  split
  · rfl
  · rfl

namespace Session

variable {s t : Session}

variable {used : List Bytes} {sid : Bytes} {s₀ : Session} {first : List Seen}

theorem cleanupIfDue_receives (h : Receives C s.dr used) (now : Nat) :
    Receives C (s.cleanupIfDue now).dr used := by
  unfold cleanupIfDue
  split
  · exact h.of_same rfl rfl rfl rfl fun a m hm => AgedStore.get?_of_get?_evict hm
  · exact h

theorem Opens.opened {env : Env} {m : EncryptedRatchetMessage} {secret : Option Bytes}
    {key plaintext : Bytes} {stepped : Bool} {pq : PqRatchet}
    (hkey : ClassicalKey C env m secret s key stepped t) (hopen : Opens C env m t key pq plaintext)
    (hsid : hexDecode s.sessionId = some sid) :
    Acceptance.Opened C s.contactId s.localUserId sid s.suiteId.isPqRatchet ⟨m, key⟩ := by
  obtain ⟨dr, proof, lastAt, rfl⟩ := hkey.frame
  obtain ⟨pqKey, messageKey, -, hmix, hopen⟩ := hopen
  obtain ⟨-, sid', padded, hsid', haead, -⟩ := tryAeadDecrypt_ok hopen
  obtain rfl : sid' = sid := Option.some.inj (hsid'.symm.trans hsid)
  exact ⟨pqKey, messageKey, padded, hmix, haead⟩

theorem receives_step (hC : C.FreeKdf) (h : Receives C s.dr used)
    (hsid : hexDecode s.sessionId = some sid) (event : Event) :
    ∃ new : List Acceptance, new.map Acceptance.message = accepteds (s.step C event).2 ∧
      (∀ x ∈ new, x.Opened C s.contactId s.localUserId sid s.suiteId.isPqRatchet) ∧
      Receives C (s.step C event).1.dr (used ++ new.map Acceptance.drKey) := by
  have hcase := step_case C s event
  have hsilent : ∀ {r : Session × List Seen}, accepteds r.2 = [] → Receives C r.1.dr used →
      ∃ new : List Acceptance, new.map Acceptance.message = accepteds r.2 ∧
        (∀ x ∈ new, x.Opened C s.contactId s.localUserId sid s.suiteId.isPqRatchet) ∧
        Receives C r.1.dr (used ++ new.map Acceptance.drKey) := by
    intro r hnone hr
    refine ⟨[], hnone.symm, fun _ hx => (nomatch hx), ?_⟩
    rw [List.map_nil, List.append_nil]
    exact hr
  generalize s.step C event = r at hcase ⊢
  cases hcase with
  | sent _ hstep _ =>
    obtain ⟨_, _, _, _, _, _, hdr⟩ := hstep.pq
    refine hsilent rfl ?_
    rw [hdr]
    exact h.of_same rfl rfl rfl rfl fun _ _ hm => hm
  | unsent hleft =>
    refine hsilent rfl ?_
    rcases hleft.dr with hdr | ⟨_, _, _, _, hdr⟩
    · rw [hdr]
      exact h
    · rw [hdr]
      exact h.of_same rfl rfl rfl rfl fun _ _ hm => hm
  | @accepted env m _ key plaintext stepped t pq hkey hopen =>
    have hsame := cleanupIfDue_same s env.now
    obtain ⟨_, _, hfinish⟩ := finish_frame (C := C) env m stepped pq t
    refine ⟨[⟨m, key⟩], ?_, ?_, ?_⟩
    · rw [accepteds_append, accepteds_drawn]
      rfl
    · intro x hx
      rw [List.mem_singleton.mp hx, ← hsame.contactId, ← hsame.localUserId, ← hsame.suiteId]
      exact hopen.opened hkey (hsame.sessionId ▸ hsid)
    · rw [hfinish]
      show Receives C t.dr (used ++ [key])
      exact (cleanupIfDue_receives h env.now).classicalKey hC hkey
  | @refused env _ _ _ hroll =>
    refine hsilent (accepteds_drawn env) ?_
    unfold RolledBack at hroll
    rw [hroll]
    exact cleanupIfDue_receives h env.now
  | answered _ _ hmix => exact hsilent rfl (h.mixRoot (.inr ⟨_, (mixIdentitySecret_ok hmix).1⟩))
  | unanswered | notLoaded | marked | headed | expecting => exact hsilent rfl h
  | loaded _ hload =>
    obtain ⟨pq, sid', -, -, rfl⟩ := hload
    exact hsilent rfl (h.of_same rfl rfl rfl rfl fun a m hm => AgedStore.get?_of_get?_evict hm)

/-- What holds of a session and the messages it has accepted. -/
structure AcceptHistory (C : Crypto) (s₀ : Session) (sid : Bytes) (s : Session) (log : List Seen)
    (taken : List Acceptance) : Prop where
  kept : AdKept s₀ s
  messages : taken.map Acceptance.message = accepteds log
  opened : ∀ x ∈ taken, x.Opened C s₀.contactId s₀.localUserId sid s₀.suiteId.isPqRatchet
  receives : Receives C s.dr (taken.map Acceptance.drKey)

theorem AcceptHistory.step (hC : C.FreeKdf) {log : List Seen} {taken : List Acceptance}
    (hsid : hexDecode s₀.sessionId = some sid) (h : AcceptHistory C s₀ sid s log taken)
    (event : Event) :
    ∃ taken', AcceptHistory C s₀ sid (s.step C event).1 (log ++ (s.step C event).2) taken' := by
  obtain ⟨new, hmessages, hopened, hreceives⟩ :=
    receives_step hC h.receives (h.kept.sessionId.trans hsid) event
  refine ⟨taken ++ new, h.kept.trans (step_adKept C s event).1, ?_, ?_, ?_⟩
  · rw [List.map_append, h.messages, hmessages, accepteds_append]
  · intro x hx
    rcases List.mem_append.mp hx with hold | hnew
    · exact h.opened x hold
    · have hx := hopened x hnew
      rw [h.kept.contactId, h.kept.localUserId, h.kept.suiteId] at hx
      exact hx
  · rw [List.map_append]
    exact hreceives

/-! ### Creation -/

theorem receives_start (hC : C.FreeKdf) {dr : Ratchet} {name : Bytes}
    (hname : dr.remoteDhPublic = some name) (hlen : dr.receivingChainLength = 0)
    (hstore : dr.skippedMessageKeys = .empty)
    (hchain : dr.receivingChainKey = defaultAeadKey ∨
      ∃ root, OpenedFrom C root dr.receivingChainKey)
    (hancestry : Ancestry C dr.rootKey [dr.receivingChainKey]) : Receives C dr [] := by
  have hroot : Origin (ckStep C) dr.receivingChainKey := by
    rcases hchain with heq | ⟨root, hopened⟩
    · rw [heq]
      exact origin_default hC
    · exact hopened.origin hC
  refine ⟨[(dr.receivingChainKey, name)], dr.receivingChainKey, name, hname, ?_, hancestry⟩
  rw [hlen, hstore]
  exact .start slot (2 ^ 32) hroot name fun a => AgedStore.get?_empty a

theorem acceptHistory_begins (hC : C.FreeKdf) (h : Begins C s₀ first)
    (hsid : hexDecode s₀.sessionId = some sid) :
    ∃ taken, AcceptHistory C s₀ sid s₀ first taken := by
  cases h with
  | initiator h =>
    obtain ⟨_, rootKeyVal, _, dhOutput, root, chain, -, hroot, -, -, hrk, rfl⟩ :=
      newInitiatorSession_ok h
    refine ⟨[], .refl _, rfl, fun _ hx => (nomatch hx), ?_⟩
    refine receives_start hC rfl rfl rfl (.inl rfl) ?_
    exact (Ancestry.start hC hroot).step (.inl ⟨_, _, hrk⟩) [_] fun b hb =>
      .inl (List.mem_singleton.mp hb)
  | @responder env _ _ _ _ m _ plaintext h =>
    obtain ⟨s₁, hs₁, hrun⟩ := newResponderSession_ok h
    obtain ⟨key, stepped, t, pq, hkey, hopen, rfl⟩ := decryptWithIdentitySecret_ok hrun
    have hstart : Receives C s₁.dr [] := by
      obtain ⟨_, rootKeyVal, dhOutput, root, receivingChain, _, _, dhOutput2, finalRoot, _, _, -,
        hroot, -, hrk, -, -, hrk2, -, rfl⟩ := responderSession_ok hs₁
      have hopened : OpenedFrom C rootKeyVal receivingChain := ⟨_, _, _, hrk, .inl rfl⟩
      refine receives_start hC rfl rfl rfl (.inr ⟨_, hopened⟩) ?_
      exact ((Ancestry.start hC hroot).step (.inl ⟨_, _, hrk⟩) [_] fun b hb =>
        .inr ((List.mem_singleton.mp hb).symm ▸ hopened)).mix (.inl ⟨_, _, hrk2⟩)
    have hsame := (acceptFrame hkey hopen).same
    refine ⟨[⟨m, key⟩], .refl _, rfl, ?_, ?_⟩
    · intro x hx
      rw [List.mem_singleton.mp hx, hsame.contactId, hsame.localUserId, hsame.suiteId]
      exact hopen.opened hkey (hsame.sessionId ▸ hsid)
    · obtain ⟨_, _, hfinish⟩ := finish_frame (C := C) env m stepped pq t
      rw [hfinish]
      show Receives C t.dr ([] ++ [key])
      exact (cleanupIfDue_receives hstart env.now).classicalKey hC hkey

/-- **No classical key is taken twice**, over any run. -/
theorem acceptHistory_run (hC : C.FreeKdf) (h : Begins C s₀ first)
    (hsid : hexDecode s₀.sessionId = some sid) (events : List Event) :
    ∃ taken, AcceptHistory C s₀ sid (Machine.run (Session.step C) s₀ events)
      (first ++ Machine.log (Session.step C) s₀ events) taken :=
  @Machine.run_rule _ _ _ (Session.step C) (fun _ _ => True)
    (fun s l => ∃ taken, AcceptHistory C s₀ sid s l taken)
    (fun _ _ event _ ⟨_, ht⟩ => ht.step hC hsid event) s₀ first events
    (Machine.along_of_forall (fun _ _ => trivial) s₀ events) (acceptHistory_begins hC h hsid)

/-! ## The theorem -/

/-- The AEAD of an ideal world, and a peer that uses no position twice: what opens is a
message the peer emitted, under the key, nonce and associated data it was sealed with, and
one ratchet key and number name one emitted message. -/
structure EmitsOnce (C : Crypto) (emitted : EncryptedRatchetMessage → Bytes → Prop)
    (sender receiver sid : Bytes) (pqRatchetSuite : Bool) : Prop where
  opens : ∀ key nonce ciphertext ad padded, C.aeadDecrypt key nonce ciphertext (some ad) = .ok padded →
    ∃ m, emitted m key ∧ m.nonce = nonce ∧ m.ciphertext = ciphertext ∧
      ad = associatedData m.adVersion sender receiver sid pqRatchetSuite (AdHeader.ofMessage m)
  once : ∀ m m' key key', emitted m key → emitted m' key' → m.dhPublicKey = m'.dhPublicKey →
    m.messageNumber = m'.messageNumber → m = m' ∧ key = key'

/-- **At most once.** Over any run of a session, from its creation on, no two accepted
messages have the same ratchet key and number. -/
theorem accepted_at_most_once (C : Crypto) (hC : C.FreeKdf) (s₀ : Session) (first : List Seen)
    (h₀ : Begins C s₀ first) (sid : Bytes) (hsid : hexDecode s₀.sessionId = some sid)
    (emitted : EncryptedRatchetMessage → Bytes → Prop)
    (hideal : EmitsOnce C emitted s₀.contactId s₀.localUserId sid s₀.suiteId.isPqRatchet)
    (events : List Event) :
    (accepteds (first ++ Machine.log (Session.step C) s₀ events)).Pairwise fun m m' =>
      ¬ (m.dhPublicKey = m'.dhPublicKey ∧ m.messageNumber = m'.messageNumber) := by
  obtain ⟨taken, hhistory⟩ := acceptHistory_run hC h₀ hsid events
  obtain ⟨chains, base, name, -, hreceipt, -⟩ := hhistory.receives
  -- every key taken came off a chain, so that it can be read back from the message key
  have hck : ∀ x ∈ taken, ∃ chain next, C.kdfCk chain = .ok (x.drKey, next) := by
    intro x hx
    obtain ⟨p, -, n, hkey, -⟩ := hreceipt.past x.drKey (List.mem_map_of_mem hx)
    obtain ⟨chain, next, -, hstep⟩ := exists_step_of_keyAt hkey
    exact ⟨chain, next, ok_of_ckStep hstep⟩
  rw [← hhistory.messages, List.pairwise_map]
  refine List.Pairwise.imp_of_mem ?_ (List.pairwise_map.mp hreceipt.once)
  rintro x x' hx hx' hne ⟨hdh, hnumber⟩
  obtain ⟨pqKey, key, padded, hmix, haead⟩ := hhistory.opened x hx
  obtain ⟨pqKey', key', padded', hmix', haead'⟩ := hhistory.opened x' hx'
  obtain ⟨m, hm, -, -, had⟩ := hideal.opens _ _ _ _ _ haead
  obtain ⟨m', hm', -, -, had'⟩ := hideal.opens _ _ _ _ _ haead'
  obtain ⟨hmdh, hmnum⟩ := associatedData_position had
  obtain ⟨hmdh', hmnum'⟩ := associatedData_position had'
  obtain ⟨-, rfl⟩ := hideal.once m m' key key' hm hm'
    (hmdh.symm.trans (hdh.trans hmdh')) (hmnum.symm.trans (hnumber.trans hmnum'))
  obtain ⟨chain, next, hchain⟩ := hck x hx
  obtain ⟨chain', next', hchain'⟩ := hck x' hx'
  exact hne (mixPqMessageKey_inj hC hchain hchain' hmix hmix')

def replayStart : Session :=
  match newInitiatorSession symbolicCrypto ⟨10, 21, 22, 23, 24⟩ (leBytes 32 3) (leBytes 32 6)
    (leBytes 32 5) (ofText "bob") (ofText "alice") .classic with
  | .ok s => s
  | .error _ => sampleSession

def replayMessage : EncryptedRatchetMessage where
  dhPublicKey := Vector.replicate 32 7
  messageNumber := 0
  ciphertext := [1, 2, 3]
  nonce := leBytes 12 0
  previousChainLength := 0
  suiteId := 1
  pqMessageEpoch := 0
  pqKeyIndex := 0
  pqRatchetField := none
  identityProofCiphertext := none
  adVersion := adVersionHeader

/-- The box the peer sealed, under the first key of the chain its ratchet key opens. -/
def replayBox : Box where
  key := 1 :: 4 :: (quote (addBytes 32 (leBytes 32 6) (List.replicate 32 7)) ++
    replayStart.dr.rootKey)
  nonce := leBytes 12 0
  ad := associatedData adVersionHeader replayStart.contactId replayStart.localUserId
    ((hexDecode replayStart.sessionId).getD []) replayStart.suiteId.isPqRatchet
    (AdHeader.ofMessage replayMessage)
  ciphertext := [1, 2, 3]
  plaintext := (padMessageDefault [104, 105]).toOption.getD []

def replayCrypto : Crypto := opensOnly symbolicCrypto [replayBox]

theorem replayStart_begins : Begins replayCrypto replayStart [] :=
  @Begins.initiator replayCrypto ⟨10, 21, 22, 23, 24⟩ (leBytes 32 3) (leBytes 32 6)
    (leBytes 32 5) (ofText "bob") (ofText "alice") .classic _ rfl

theorem replayCrypto_emitsOnce : EmitsOnce replayCrypto
    (fun m key => m = replayMessage ∧ key = replayBox.key) replayStart.contactId
    replayStart.localUserId ((hexDecode replayStart.sessionId).getD [])
    replayStart.suiteId.isPqRatchet where
  opens key nonce ciphertext ad padded h := by
    obtain ⟨b, hb, hkey, hnonce, hct, had⟩ := exists_box_of_opens h
    rw [List.mem_singleton.mp hb] at hkey hnonce hct had
    exact ⟨replayMessage, ⟨rfl, hkey.symm⟩, hnonce, hct, had.symm⟩
  once m m' key key' h h' _ _ := by
    rw [h.1, h'.1, h.2, h'.2]
    exact ⟨rfl, rfl⟩

def replayEvents : List Event :=
  [.decrypt ⟨20, 31, 32, 33, 34⟩ replayMessage none,
    .decrypt ⟨21, 41, 42, 43, 44⟩ replayMessage none, .reload 22,
    .decrypt ⟨23, 51, 52, 53, 54⟩ replayMessage none]

/-- It is accepted, and only once. -/
theorem accepted_at_most_once_replayed :
    replayMessage ∈ accepteds ([] ++ Machine.log (Session.step replayCrypto) replayStart replayEvents) ∧
      (accepteds ([] ++ Machine.log (Session.step replayCrypto) replayStart replayEvents)).Pairwise
        fun m m' => ¬ (m.dhPublicKey = m'.dhPublicKey ∧ m.messageNumber = m'.messageNumber) := by
  refine ⟨by decide +kernel, ?_⟩
  exact accepted_at_most_once replayCrypto (opensOnly_freeKdf symbolicCrypto_freeKdf _) replayStart []
    replayStart_begins ((hexDecode replayStart.sessionId).getD []) (by decide +kernel) _
    replayCrypto_emitsOnce replayEvents

end Session

end ConstructCore
