import ConstructCore.Lib.SendChain
import ConstructCore.Ratchet.PqInvariant

/-!
# The PQ half as a sender

Under suite 4 a message takes an index on the send chain of the current PQ epoch.
`PqRatchet.sendCursor` is where that sender stands. Sending moves it one key on
(`pqSendKey_cursor`); reading leaves it, or takes it to the start of a later epoch's chain
(`commitPqPostDecrypt_send`), unless an exchange is completed again at the last epoch
`u32::MAX`, where `saturating_add` names no later one.
-/

namespace ConstructCore

open Bytes Op KeyChain

namespace PqRatchet

variable {C : Crypto} {pq pq' : PqRatchet}

def sendChain? (pq : PqRatchet) : Option PqChain :=
  (chainsOf pq.pqChains pq.currentPqEpoch).bind fun c => c.send

def pqKeyStep (C : Crypto) (key : Bytes) : Option (Bytes × Bytes) :=
  match C.hkdfDeriveKey [] key (ofText "construct-pqr-step-v2") 64 with
  | .ok out => some (out.drop 32, out.take 32)
  | .error _ => none

variable {chain : PqChain} {key : Option Bytes} {suite : SuiteID} {epoch index : UInt32}

theorem pqKeyStep_of_ok {next : PqChain} {key : Bytes} (h : pqChainStep C chain = .ok (key, next)) :
    pqKeyStep C chain.key = some (key, next.key) ∧ next.index.toNat = chain.index.toNat + 1 := by
  unfold pqChainStep at h
  unfold pqKeyStep
  split at h
  · cases h
  · rename_i out hout
    split at h
    · cases h
    · rename_i index hindex
      cases h
      rw [hout]
      exact ⟨rfl, UInt32.toNat_of_checkedSucc hindex⟩

def sendCursor (pq : PqRatchet) : Cursor UInt32 Bytes :=
  match pq.sendChain? with
  | some chain => ⟨pq.currentPqEpoch, chain.key, chain.index.toNat⟩
  | none => ⟨pq.currentPqEpoch, [], 0⟩

def SameSend (pq pq' : PqRatchet) : Prop :=
  pq'.currentPqEpoch = pq.currentPqEpoch ∧ pq'.sendChain? = pq.sendChain?

theorem SameSend.refl (pq : PqRatchet) : SameSend pq pq := ⟨rfl, rfl⟩

theorem SameSend.trans {pq₁ pq₂ pq₃ : PqRatchet} (h : SameSend pq₁ pq₂) (h' : SameSend pq₂ pq₃) :
    SameSend pq₁ pq₃ := ⟨h'.1.trans h.1, h'.2.trans h.2⟩

theorem SameSend.cursor (h : SameSend pq pq') : pq'.sendCursor = pq.sendCursor := by
  unfold sendCursor
  rw [h.1, h.2]

theorem OtherExchange.sameSend (h : OtherExchange pq pq') : SameSend pq pq' := by
  obtain ⟨_, _, _, rfl⟩ := h
  exact ⟨rfl, rfl⟩

theorem setRecvChain_sameSend (pq : PqRatchet) (epoch : UInt32) (chain : PqChain) :
    SameSend pq (pq.setRecvChain epoch chain) := by
  unfold setRecvChain
  split
  · refine ⟨rfl, ?_⟩
    unfold sendChain?
    dsimp only
    rw [chainsOf_modifyEpoch (f := fun c => { c with recv := chain }) fun _ => rfl]
    split
    · rename_i he
      rw [he]
      cases chainsOf pq.pqChains epoch <;> rfl
    · rfl
  · exact ⟨rfl, rfl⟩

theorem pqReceiveKey_sameSend {now : Nat}
    (h : pqReceiveKey C suite now epoch index pq = .ok key pq') :
    SameSend pq pq' := by
  have hspec : Ensures (pqReceiveKey C suite now epoch index) pq (fun _ => SameSend pq)
      (fun _ => SameSend pq) := by
    refine pqReceiveKey_rule (.refl pq) ⟨rfl, rfl⟩ fun chain n _ => ensures_iff.mpr ⟨?_, ?_⟩
    · exact fun _ t _ => setRecvChain_sameSend pq epoch t.1
    · exact fun _ t _ => setRecvChain_sameSend pq epoch t.1
  exact hspec.of_ok h

/-- `pq_send_key`: nothing without an epoch, else the next key of the epoch's send chain
under the chain's index. -/
theorem pqSendKey_ok (h : pqSendKey C suite pq = .ok (epoch, index, key) pq') :
    (epoch = 0 ∧ index = 0 ∧ key = none ∧ pq' = pq) ∨
      (suite.isPqRatchet = true ∧ 0 < epoch ∧ epoch = pq.currentPqEpoch ∧
        ∃ chain next k, pq.sendChain? = some chain ∧ pqChainStep C chain = .ok (k, next) ∧
          index = chain.index ∧ key = some k ∧
          pq'.currentPqEpoch = pq.currentPqEpoch ∧ pq'.sendChain? = some next) := by
  unfold pqSendKey at h
  rw [get_bind_eq_ok, ite_eq_ok] at h
  rcases h with ⟨-, h⟩ | ⟨hguard, h⟩
  · obtain ⟨heq, rfl⟩ := pure_eq_ok.mp h
    obtain ⟨rfl, hrest⟩ := Prod.mk.inj heq
    obtain ⟨rfl, rfl⟩ := Prod.mk.inj hrest
    exact .inl ⟨rfl, rfl, rfl, rfl⟩
  · rw [Bool.or_eq_true, not_or] at hguard
    have hsuite : suite.isPqRatchet = true := by simpa using hguard.1
    have hpos : 0 < pq.currentPqEpoch := by
      have hne : pq.currentPqEpoch ≠ 0 := by simpa using hguard.2
      exact UInt32.pos_iff_ne_zero.mpr hne
    cases hchain : (pq.pqChains.find? fun c => c.epoch == pq.currentPqEpoch).bind
        fun c => c.send with
    | none =>
      rw [hchain] at h
      exact absurd h throw_ne_ok
    | some chain =>
      rw [hchain] at h
      obtain ⟨⟨k, next⟩, _, hrun, h⟩ := bind_eq_ok.mp h
      obtain ⟨hstep, rfl⟩ := ofExcept_eq_ok.mp hrun
      rw [set_bind_eq_ok] at h
      obtain ⟨heq, rfl⟩ := pure_eq_ok.mp h
      obtain ⟨rfl, hrest⟩ := Prod.mk.inj heq
      obtain ⟨rfl, rfl⟩ := Prod.mk.inj hrest
      refine .inr ⟨hsuite, hpos, rfl, chain, next, k, hchain, hstep, rfl, rfl, rfl, ?_⟩
      obtain ⟨c, hc, -⟩ := Option.bind_eq_some_iff.mp hchain
      unfold sendChain?
      dsimp only
      rw [chainsOf_modifyEpoch (f := fun c => { c with send := some next }) fun _ => rfl,
        if_pos rfl,
        show chainsOf pq.pqChains pq.currentPqEpoch = some c from hc]
      rfl

theorem sendCursor_of_chain (h : pq.sendChain? = some chain) :
    pq.sendCursor = ⟨pq.currentPqEpoch, chain.key, chain.index.toNat⟩ := by
  unfold sendCursor
  rw [h]

/-- `pq_send_key` as a move of the sender: nothing, or the next key of the current chain. -/
theorem pqSendKey_cursor (h : pqSendKey C suite pq = .ok (epoch, index, key) pq') :
    pq'.currentPqEpoch = pq.currentPqEpoch ∧
      ((epoch = 0 ∧ key = none ∧ pq'.sendCursor = pq.sendCursor) ∨
        (suite.isPqRatchet = true ∧ 0 < epoch ∧ epoch = pq.sendCursor.chain ∧
          index.toNat = pq.sendCursor.count ∧
          ∃ k next, key = some k ∧ pqKeyStep C pq.sendCursor.key = some (k, next) ∧
            pq'.sendCursor = ⟨pq.sendCursor.chain, next, pq.sendCursor.count + 1⟩)) := by
  rcases pqSendKey_ok h with ⟨hepoch, -, hkey, rfl⟩ |
    ⟨hsuite, hpos, hepoch, chain, next, k, hchain, hstep, rfl, hkey, hcur, hnext⟩
  · exact ⟨rfl, .inl ⟨hepoch, hkey, rfl⟩⟩
  · obtain ⟨hkeyStep, hindex⟩ := pqKeyStep_of_ok hstep
    rw [sendCursor_of_chain hchain, sendCursor_of_chain hnext, hcur, hindex]
    exact ⟨rfl, .inr ⟨hsuite, hpos, hepoch, rfl, k, next.key, hkey, hkeyStep, rfl⟩⟩

/-! ## Epochs opened -/

/-- `u32::MAX`, after which `saturating_add` names no later epoch. -/
abbrev lastEpoch : UInt32 := UInt32.ofNat (2 ^ 32 - 1)

def OpensEpoch (pq pq' : PqRatchet) : Prop :=
  pq.currentPqEpoch < pq'.currentPqEpoch ∧ ∃ key, pq'.sendChain? = some ⟨0, key⟩

theorem sendChain?_insert {chains : PqEpochChains} {key : Bytes} (h : WellFormed pq)
    (hle : pq.currentPqEpoch ≤ chains.epoch) (hsend : chains.send = some ⟨0, key⟩) :
    (chainsOf (insertPqEpochChains pq.pqChains chains) chains.epoch).bind (fun c => c.send) =
      some ⟨0, key⟩ := by
  have hbelow : ∀ c ∈ pq.pqChains, c.epoch ≤ chains.epoch := fun c hc =>
    UInt32.le_trans (h.epochs c hc).2 hle
  rw [(chainsOf_insert h.ordered hbelow).2.1]
  exact hsend

theorem promotePending_send (h : WellFormed pq) (epoch : UInt32) (now : Nat) :
    SameSend pq (pq.promotePending epoch now) ∨
      (OpensEpoch pq (pq.promotePending epoch now) ∧ pq.isPqInitiator = false) := by
  unfold promotePending
  cases hp : pq.pendingPqCiphertext with
  | none => exact .inl (.refl pq)
  | some p =>
    obtain ⟨hrole, hahead, -, hepoch, -, key, hsend⟩ := h.ciphertext p hp
    have hmax : max pq.currentPqEpoch p.epoch = p.chains.epoch := by
      rw [hepoch]
      exact if_pos (UInt32.le_of_lt hahead)
    dsimp only
    split
    · rw [hmax]
      refine .inr ⟨⟨?_, key, ?_⟩, hrole⟩
      · show pq.currentPqEpoch < p.chains.epoch
        rw [hepoch]
        exact hahead
      · exact sendChain?_insert h (hepoch ▸ UInt32.le_of_lt hahead) hsend
    · exact .inl (.refl pq)

theorem ingestPublicKey_sameSend (pq : PqRatchet) (env : Env) (epoch : UInt32) (key : Bytes) :
    SameSend pq (pq.ingestPublicKey C env epoch key) := by
  unfold ingestPublicKey
  split
  · exact .refl pq
  · split
    · exact .refl pq
    · dsimp only
      split
      · exact .refl pq
      · split
        · exact .refl pq
        · split
          · exact .refl pq
          · exact ⟨rfl, rfl⟩

/-- The initiator completes the epoch after its current one, which is a later one unless
the current one is the last. -/
theorem ingestCiphertext_send (hC : C.Sized) (h : WellFormed pq) (now : Nat)
    (ekHash : Vector UInt8 8) (ct : Bytes)
    (hlimit : pq.currentPqEpoch ≠ lastEpoch ∨ epoch ≠ lastEpoch) :
    SameSend pq (pq.ingestCiphertext C now epoch ekHash ct) ∨
      OpensEpoch pq (pq.ingestCiphertext C now epoch ekHash ct) := by
  unfold ingestCiphertext
  cases hp : pq.pendingPqExchange with
  | none => exact .inl (.refl pq)
  | some ex =>
    obtain ⟨-, hexEpoch, -, -⟩ := h.exchange ex hp
    dsimp only
    split
    · exact .inl (.refl pq)
    · rename_i hmatch
      split
      · exact .inl (.refl pq)
      · split
        · exact .inl (.refl pq)
        · rename_i chains hchains
          obtain ⟨rfl, -, key, hsend⟩ := pqEpochChains_ok hC hchains
          have hnext : chains.epoch = pq.currentPqEpoch.satAdd 1 := by
            rw [← hexEpoch]
            exact (Decidable.not_not.mp fun hne => hmatch (.inl hne)).symm
          have hlater : pq.currentPqEpoch < chains.epoch := by
            rw [hnext] at hlimit ⊢
            exact UInt32.lt_satAdd_one hlimit
          exact .inr ⟨hlater, key, sendChain?_insert h (UInt32.le_of_lt hlater) hsend⟩

/-- Committing an authenticated message leaves the sender or opens one later epoch, unless
it completes an exchange again at the last epoch. -/
theorem commitPqPostDecrypt_send (hC : C.Sized) (h : WellFormed pq) (suite : SuiteID) (env : Env)
    {m : EncryptedRatchetMessage}
    (hlimit : pq.currentPqEpoch = lastEpoch →
      ∀ ekHash ct, m.pqRatchetField ≠ some (.ciphertext lastEpoch ekHash ct)) :
    SameSend pq (pq.commitPqPostDecrypt C suite env m) ∨
      OpensEpoch pq (pq.commitPqPostDecrypt C suite env m) := by
  have hwf := h.promotePending m.pqMessageEpoch env.now
  unfold commitPqPostDecrypt
  split
  · exact .inl (.refl pq)
  · dsimp only
    rcases promotePending_send h m.pqMessageEpoch env.now with hsame | ⟨hopen, hrole⟩
    · -- no promotion: the field may complete an exchange
      cases hfield : m.pqRatchetField with
      | none => exact .inl hsame
      | some field =>
        cases field with
        | publicKey epoch key => exact .inl (hsame.trans (ingestPublicKey_sameSend _ _ _ _))
        | ciphertext epoch ekHash ct =>
          have hlimit' : (pq.promotePending m.pqMessageEpoch env.now).currentPqEpoch ≠
              lastEpoch ∨ epoch ≠ lastEpoch := by
            by_cases hlast : pq.currentPqEpoch = lastEpoch
            · refine .inr ?_
              rintro rfl
              exact hlimit hlast ekHash ct hfield
            · rw [hsame.1]
              exact .inl hlast
          rcases ingestCiphertext_send hC hwf env.now ekHash ct hlimit' with hkeep | hopen
          · exact .inl (hsame.trans hkeep)
          · refine .inr ⟨?_, hopen.2⟩
            rw [← hsame.1]
            exact hopen.1
    · -- a promotion: this side is the responder, which completes nothing
      have hkeep : ∀ pq', SameSend (pq.promotePending m.pqMessageEpoch env.now) pq' →
          OpensEpoch pq pq' := by
        intro pq' hpq'
        obtain ⟨hlater, key, hkey⟩ := hopen
        refine ⟨?_, key, hpq'.2.trans hkey⟩
        rw [hpq'.1]
        exact hlater
      cases m.pqRatchetField with
      | none => exact .inr (hkeep _ (.refl _))
      | some field =>
        cases field with
        | publicKey epoch key => exact .inr (hkeep _ (ingestPublicKey_sameSend _ _ _ _))
        | ciphertext epoch ekHash ct =>
          refine .inr (hkeep _ ?_)
          have hnone : (pq.promotePending m.pqMessageEpoch env.now).pendingPqExchange =
              none := by
            cases hex : (pq.promotePending m.pqMessageEpoch env.now).pendingPqExchange with
            | none => rfl
            | some ex =>
              have hinit := (hwf.exchange ex hex).1
              rw [promotePending_isPqInitiator, hrole] at hinit
              cases hinit
          unfold ingestCiphertext
          rw [hnone]
          exact .refl _

end PqRatchet

end ConstructCore
