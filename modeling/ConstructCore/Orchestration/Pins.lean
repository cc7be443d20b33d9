import ConstructCore.Orchestration.Instances
import ConstructCore.Orchestration.OrchestratorRuns

/-!
# Pins

A device's hybrid identity is pinned when a session with it first opens as initiator, its KEM
identity when one first opens as responder, and the highest SPK rotation epoch it has shown is
recorded. `PinsKept` says what a stretch of a run keeps of the three, and what the sessions
opened in it were opened with. Only an open writes a pin and only on first sight; a restart
reads back what was written.
-/

namespace ConstructCore

open Bytes Op
open Trust (ServerTrust)

/-- An encoding of the orchestrator's state that reads back what it wrote. -/
def Cfe.StateLossless (F : Cfe) : Prop :=
  ∀ state bytes, F.encodeState state = .ok bytes → F.decodeState bytes = .ok state

theorem codeBook_stateLossless (records : List CfeSessionRecord)
    (states : List CfeOrchestratorStateV1) : (codeBook records states).StateLossless := by
  intro state bytes h
  unfold codeBook at h ⊢
  dsimp only at h ⊢
  cases hidx : states.idxOf? state with
  | none =>
    rw [hidx] at h
    cases h
  | some i =>
    rw [hidx] at h
    cases h
    obtain ⟨hlt, hget, -⟩ := List.findIdx?_eq_some_iff_getElem.mp hidx
    rw [List.length_replicate, List.getElem?_eq_getElem hlt, beq_iff_eq.mp hget]

/-! ## What an open checks -/

variable {S : Suite} {offer : PqxdhOffer} {choice : PqxdhChoice} {l : Lifecycle} {contactId : Bytes}
  {m : Moment}

theorem planSigned_ok {hybridKey : Bytes} {now : Nat} {rejected : Option PqxdhRefusal}
    (h : planSigned S offer hybridKey now rejected = .ok choice) :
    choice.hybridIdentityFingerprint = hybridIdentityFingerprint S hybridKey := by
  unfold planSigned at h
  obtain ⟨spk, -, h⟩ := Except.exists_of_bind_ok h
  obtain ⟨u, -, h⟩ := Except.exists_of_bind_ok h
  cases h
  rfl

/-- A plan is made under the hybrid key of the bundle, which is the pinned one if one is. -/
theorem planPqxdh_ok {ctx : PqxdhContext} (h : planPqxdh S offer ctx = .ok choice) :
    ∃ key, offer.hybridIdentityKey = some key ∧
      choice.hybridIdentityFingerprint = hybridIdentityFingerprint S key ∧
      ∀ fp, ctx.pinnedHybridIdentity = some fp → hybridIdentityFingerprint S key = fp := by
  unfold planPqxdh at h
  obtain ⟨key, hkey, h⟩ := Except.exists_of_bind_ok h
  dsimp only at h
  split at h
  · cases h
  · rename_i hpin
    refine ⟨key, checkHybridIdentity_ok hkey, ?_, ?_⟩
    · split at h
      · exact planSigned_ok h
      · split at h
        · cases h
          rfl
        · exact planSigned_ok h
    · intro fp hfp
      rw [hfp] at hpin
      exact (by simpa using hpin : fp = hybridIdentityFingerprint S key).symm

/-- A KEM identity is admitted if it is the pinned one, or none is pinned. -/
theorem Lifecycle.admitKemIdentity_ok {env : Env} {kemIdentity : Option Bytes}
    {r : Bytes × Bytes × Bytes} (h : l.admitKemIdentity S env contactId kemIdentity = .ok r) :
    kemIdentity = some r.1 ∧
      ∀ fp, l.pinnedKemIdentity contactId = some fp → kemIdentityFingerprint S r.1 = fp := by
  unfold admitKemIdentity at h
  obtain ⟨key, hkey, h⟩ := Except.exists_of_bind_ok h
  split at h
  · cases h
  · rename_i hpin
    obtain ⟨answer, -, h⟩ := Except.exists_of_bind_ok h
    cases h
    refine ⟨Option.okOr_eq_ok.mp hkey, fun fp hfp => ?_⟩
    rw [hfp] at hpin
    exact (by simpa using hpin : fp = kemIdentityFingerprint S key).symm

theorem Lifecycle.spkEpochRegression_none {deviceId : Bytes} {epoch : UInt32}
    (h : l.spkEpochRegression deviceId epoch = none) (hepoch : epoch ≠ 0) {known : UInt32}
    (hknown : l.spkEpochs[deviceId]? = some known) : known ≤ epoch := by
  unfold spkEpochRegression at h
  rw [if_neg hepoch, hknown] at h
  dsimp only at h
  split at h
  · cases h
  · exact UInt32.not_lt.mp ‹_›

/-! ## What a stretch of a run keeps -/

def Lifecycle.EpochsShown (l : Lifecycle) : Prop :=
  ∀ (d : Bytes) (n : UInt32), l.spkEpochs[d]? = some n → n ≠ 0

/-- The pins and the epochs of `l` are kept in `l'`, and the sessions `seen` to open were opened
with what was pinned and recorded in `l`. -/
structure PinsKept (S : Suite) (l l' : Lifecycle) (seen : List LifecycleSeen) : Prop where
  hybrid : ∀ d fp, l.pinnedHybridIdentity d = some fp → l'.pinnedHybridIdentity d = some fp
  kem : ∀ d fp, l.pinnedKemIdentity d = some fp → l'.pinnedKemIdentity d = some fp
  epoch : ∀ (d : Bytes) (n : UInt32), l.spkEpochs[d]? = some n →
    ∃ n', l'.spkEpochs[d]? = some n' ∧ n ≤ n'
  shown : l.EpochsShown → l'.EpochsShown
  openedHybrid : ∀ d bundle kyber, .openedAsInitiator d bundle kyber ∈ seen →
    ∀ fp, l.pinnedHybridIdentity d = some fp →
      ∃ key, kyber.hybridIdentityKey = some key ∧ hybridIdentityFingerprint S key = fp
  openedEpoch : ∀ d bundle kyber, .openedAsInitiator d bundle kyber ∈ seen →
    bundle.spkRotationEpoch ≠ 0 → ∀ n : UInt32, l.spkEpochs[d]? = some n → n ≤ bundle.spkRotationEpoch
  openedKem : ∀ d identity first plaintext,
    .openedAsResponder d identity first plaintext ∈ seen →
    ∀ fp, l.pinnedKemIdentity d = some fp →
      ∃ key, first.kemIdentity = some key ∧ kemIdentityFingerprint S key = fp

namespace PinsKept

variable {S : Suite} {l l₁ l₂ : Lifecycle} {seen seen' : List LifecycleSeen}

theorem of_same (hhybrid : l₁.hybridIdentityPins = l.hybridIdentityPins)
    (hkem : l₁.kemIdentityPins = l.kemIdentityPins) (hepochs : l₁.spkEpochs = l.spkEpochs)
    (hseen : ∀ x ∈ seen, x.isOpen = false) : PinsKept S l l₁ seen where
  hybrid d fp h := by
    unfold Lifecycle.pinnedHybridIdentity at *
    rw [hhybrid]
    exact h
  kem d fp h := by
    unfold Lifecycle.pinnedKemIdentity at *
    rw [hkem]
    exact h
  epoch d n h := ⟨n, by rw [hepochs]; exact h, UInt32.le_refl n⟩
  shown h := by
    unfold Lifecycle.EpochsShown
    rw [hepochs]
    exact h
  openedHybrid d bundle kyber h := nomatch hseen _ h
  openedEpoch d bundle kyber h := nomatch hseen _ h
  openedKem d identity first plaintext h := nomatch hseen _ h

theorem of_beside (h : Lifecycle.SameBeside l l₁) (hseen : ∀ x ∈ seen, x.isOpen = false) :
    PinsKept S l l₁ seen :=
  of_same h.hybridIdentityPins h.kemIdentityPins h.spkEpochs hseen

theorem refl (l : Lifecycle) : PinsKept S l l [] := of_beside (.refl l) (by simp)

theorem trans (h : PinsKept S l l₁ seen) (h' : PinsKept S l₁ l₂ seen') :
    PinsKept S l l₂ (seen ++ seen') where
  hybrid d fp hfp := h'.hybrid d fp (h.hybrid d fp hfp)
  kem d fp hfp := h'.kem d fp (h.kem d fp hfp)
  epoch d n hn := by
    obtain ⟨n₁, hn₁, hle⟩ := h.epoch d n hn
    obtain ⟨n₂, hn₂, hle'⟩ := h'.epoch d n₁ hn₁
    exact ⟨n₂, hn₂, UInt32.le_trans hle hle'⟩
  shown hl := h'.shown (h.shown hl)
  openedHybrid d bundle kyber hmem fp hfp := by
    rcases List.mem_append.mp hmem with hmem | hmem
    · exact h.openedHybrid d bundle kyber hmem fp hfp
    · exact h'.openedHybrid d bundle kyber hmem fp (h.hybrid d fp hfp)
  openedEpoch d bundle kyber hmem hne n hn := by
    rcases List.mem_append.mp hmem with hmem | hmem
    · exact h.openedEpoch d bundle kyber hmem hne n hn
    · obtain ⟨n₁, hn₁, hle⟩ := h.epoch d n hn
      exact UInt32.le_trans hle (h'.openedEpoch d bundle kyber hmem hne n₁ hn₁)
  openedKem d identity first plaintext hmem fp hfp := by
    rcases List.mem_append.mp hmem with hmem | hmem
    · exact h.openedKem d identity first plaintext hmem fp hfp
    · exact h'.openedKem d identity first plaintext hmem fp (h.kem d fp hfp)

end PinsKept

/-! ## One event -/

theorem InitiatorOpening.Valid.pinsKept {bundle : X3DHPublicKeyBundle} {kyber : KyberBundleKeys}
    {d : InitiatorOpening} (hd : d.Valid S m contactId bundle kyber l) :
    PinsKept S l (d.apply S m contactId bundle l)
      [.openedAsInitiator contactId bundle kyber] := by
  obtain ⟨key, hkey, hfp, hpinned⟩ := planPqxdh_ok hd.plan
  have hhybrid : (d.apply S m contactId bundle l).hybridIdentityPins =
      l.hybridIdentityPins.insertIfNew contactId d.choice.hybridIdentityFingerprint := by
    unfold InitiatorOpening.apply Lifecycle.noteSpkEpoch
    split <;> rfl
  have hkem : (d.apply S m contactId bundle l).kemIdentityPins = l.kemIdentityPins := by
    unfold InitiatorOpening.apply Lifecycle.noteSpkEpoch
    split <;> rfl
  have hepochs : (d.apply S m contactId bundle l).spkEpochs =
      if bundle.spkRotationEpoch = 0 then l.spkEpochs
      else l.spkEpochs.insert contactId
        (max (l.spkEpochs[contactId]?.getD 0) bundle.spkRotationEpoch) := by
    unfold InitiatorOpening.apply Lifecycle.noteSpkEpoch
    split <;> rfl
  have hopened : ∀ {x : Bytes} {b : X3DHPublicKeyBundle} {k : KyberBundleKeys},
      LifecycleSeen.openedAsInitiator x b k ∈ [.openedAsInitiator contactId bundle kyber] →
      x = contactId ∧ b = bundle ∧ k = kyber := by
    intro x b k hmem
    exact LifecycleSeen.openedAsInitiator.inj (List.mem_singleton.mp hmem)
  refine ⟨?_, ?_, ?_, ?_, ?_, ?_, ?_⟩
  · intro x fp hx
    unfold Lifecycle.pinnedHybridIdentity at *
    rw [hhybrid, Table.lookup_insertIfNew]
    split
    · rename_i hxc
      rw [← hxc, hx]
      rfl
    · exact hx
  · intro x fp hx
    unfold Lifecycle.pinnedKemIdentity at *
    rw [hkem]
    exact hx
  · intro x n hx
    rw [hepochs]
    split
    · exact ⟨n, hx, UInt32.le_refl n⟩
    · rw [Table.lookup_insert]
      split
      · rename_i hxc
        refine ⟨_, rfl, ?_⟩
        rw [← hxc, hx]
        exact UInt32.le_iff_toNat_le.mpr (by
          simp only [Option.getD_some, UInt32.max_def]
          split
          · exact UInt32.le_iff_toNat_le.mp ‹_›
          · exact Nat.le_refl _)
      · exact ⟨n, hx, UInt32.le_refl n⟩
  · intro hl x n hx
    rw [hepochs] at hx
    split at hx
    · exact hl x n hx
    · rename_i hne
      rw [Table.lookup_insert] at hx
      split at hx
      · rw [← Option.some.inj hx, UInt32.max_def]
        split
        · exact hne
        · rename_i hlt
          intro hzero
          rw [hzero] at hlt
          exact hlt UInt32.zero_le
      · exact hl x n hx
  · intro x b k hmem fp hx
    obtain ⟨rfl, rfl, rfl⟩ := hopened hmem
    exact ⟨key, hkey, hpinned fp hx⟩
  · intro x b k hmem hne n hx
    obtain ⟨rfl, rfl, rfl⟩ := hopened hmem
    exact Lifecycle.spkEpochRegression_none hd.epoch hne hx
  · intro x identity first plaintext hmem
    exact nomatch List.mem_singleton.mp hmem

theorem ResponderOpening.Valid.pinsKept {remoteIdentity : Bytes} {first : IncomingFirstMessage}
    {message : EncryptedRatchetMessage} {d : ResponderOpening} {answered : Session}
    (hd : d.Valid S m (Lifecycle.callOf contactId remoteIdentity first message) l)
    {plaintext : Bytes} :
    PinsKept S l (d.apply S m (Lifecycle.callOf contactId remoteIdentity first message) answered l)
      [.openedAsResponder contactId remoteIdentity first plaintext] := by
  obtain ⟨hkey, hpinned⟩ := Lifecycle.admitKemIdentity_ok hd.identity
  refine ⟨fun _ _ h => h, ?_, fun x n h => ⟨n, h, UInt32.le_refl n⟩, fun h => h, ?_, ?_, ?_⟩
  · intro x fp hx
    unfold Lifecycle.pinnedKemIdentity at *
    show (l.kemIdentityPins.insertIfNew contactId (kemIdentityFingerprint S d.kemIdentity))[x]? = _
    rw [Table.lookup_insertIfNew]
    split
    · rename_i hxc
      rw [← hxc, hx]
      rfl
    · exact hx
  · intro x b k hmem
    exact nomatch List.mem_singleton.mp hmem
  · intro x b k hmem
    exact nomatch List.mem_singleton.mp hmem
  · intro x identity f pt hmem fp hx
    obtain ⟨rfl, rfl, rfl, rfl⟩ := LifecycleSeen.openedAsResponder.inj (List.mem_singleton.mp hmem)
    exact ⟨d.kemIdentity, hkey, hpinned fp hx⟩

namespace Lifecycle

variable {S : Suite} {F : Cfe}

theorem pinsOfCfe_cfePins (pins : Table Bytes (Vector UInt8 32)) :
    pinsOfCfe (cfePins pins) = pins := by
  unfold pinsOfCfe cfePins
  have hread : ∀ entries : List (Bytes × Vector UInt8 32),
      (entries.map fun p => CfeHybridPinV1.mk p.1 p.2.toList).filterMap (fun p =>
        (toVector? 32 p.fingerprint).map fun fp => (p.deviceId, fp)) = entries := by
    intro entries
    induction entries with
    | nil => rfl
    | cons p rest ih =>
      have hp : toVector? 32 p.2.toList = some p.2 := toVector?_eq_some.mpr rfl
      simp [hp, ih]
  rw [hread]
  exact Table.ofList_toList pins

variable {l : Lifecycle}

theorem restart_pins (hF : F.StateLossless) (hl : l.EpochsShown) (m : Moment)
    (initLocks : List Bytes) (sessions : Table Bytes Session)
    (previous : Table Bytes (List PreviousState)) :
    (l.restart F m initLocks sessions previous).hybridIdentityPins = l.hybridIdentityPins ∧
    (l.restart F m initLocks sessions previous).kemIdentityPins = l.kemIdentityPins ∧
    (l.restart F m initLocks sessions previous).spkEpochs = l.spkEpochs := by
  unfold restart
  cases hexport : l.exportOrchestratorStateCfe F initLocks with
  | error e => exact ⟨rfl, rfl, rfl⟩
  | ok bytes =>
    have hdecode := hF _ _ hexport
    have himport : importOrchestratorStateCfe F m bytes (l.newProcess sessions previous) =
        .ok initLocks ((l.newProcess sessions previous).installState m.nowSecs
          (l.orchestratorState initLocks)) := by
      unfold importOrchestratorStateCfe
      rw [hdecode]
      rfl
    dsimp only
    rw [himport]
    refine ⟨pinsOfCfe_cfePins _, pinsOfCfe_cfePins _, ?_⟩
    show Std.ExtTreeMap.ofList (((l.spkEpochs.toList.map fun e =>
      CfeSpkEpochV1.mk e.1 e.2).filter fun e => decide (0 < e.epoch)).map
        fun e => (e.deviceId, e.epoch)) = l.spkEpochs
    have hall : (l.spkEpochs.toList.map fun e => CfeSpkEpochV1.mk e.1 e.2).filter
        (fun e => decide (0 < e.epoch)) = l.spkEpochs.toList.map fun e =>
          CfeSpkEpochV1.mk e.1 e.2 := by
      rw [List.filter_eq_self]
      intro e he
      obtain ⟨⟨d, n⟩, hmem, rfl⟩ := List.mem_map.mp he
      have hn := hl d n (Std.ExtTreeMap.mem_toList_iff_getElem?_eq_some.mp hmem)
      exact decide_eq_true (UInt32.pos_iff_ne_zero.mpr hn)
    rw [hall, List.map_map]
    show Std.ExtTreeMap.ofList (l.spkEpochs.toList.map id) = _
    rw [List.map_id]
    exact Table.ofList_toList _

theorem change_seen (k : KeyManager) (change : KeyChange) :
    ∀ x ∈ (k.change S change).2, x.isOpen = false := by
  cases change with
  | generateOneTimePrekeys draws | generateKyberOneTimePrekeys now draws =>
    simp [KeyManager.change, LifecycleSeen.isOpen]
  | _ => simp [KeyManager.change]

theorem step_pinsKept (hF : F.StateLossless) (hl : l.EpochsShown) {e : LifecycleEvent}
    (he : e.kind ≠ .forget) :
    PinsKept S l (l.step S F e).1 (l.step S F e).2 := by
  have hcase := step_case S F l e
  generalize l.step S F e = r at hcase
  cases hcase with
  | moved h hseen => exact .of_beside h hseen
  | initiator hd h => exact hd.pinsKept.trans (.of_beside h (by simp))
  | responder hd h => exact hd.pinsKept.trans (.of_beside h (by simp))
  | @unanswered _ _ _ _ held =>
    -- The pins are written after the answer.
    cases held with
    | none => exact .of_same rfl rfl rfl (by simp)
    | some s => exact .of_same rfl rfl rfl (by simp)
  | forget => exact (he rfl).elim
  | @restart m initLocks sessions previous =>
    obtain ⟨hhybrid, hkem, hepochs⟩ := restart_pins hF hl m initLocks sessions previous
    exact .of_same hhybrid hkem hepochs (by simp)
  | acks => exact .of_same rfl rfl rfl (by simp)
  | setMyUserId => exact .of_same rfl rfl rfl (by simp)
  | keys => exact .of_same rfl rfl rfl (change_seen _ _)

theorem step_epochsShown (S : Suite) (hF : F.StateLossless) (hl : l.EpochsShown)
    (e : LifecycleEvent) : (l.step S F e).1.EpochsShown := by
  by_cases he : e.kind = .forget
  · cases e with
    | forget m contactId =>
      intro d n hn
      have hn' : (l.spkEpochs.erase contactId)[d]? = some n := hn
      rw [Table.lookup_erase] at hn'
      split at hn'
      · cases hn'
      · exact hl d n hn'
    | _ => cases he
  · exact (step_pinsKept hF hl he).shown hl

theorem epochsShown_new (client : Client) (myUserId : Bytes) :
    (new client myUserId).EpochsShown := by
  intro d n hn
  exact nomatch hn.symm.trans Std.ExtTreeMap.getElem?_empty

theorem run_epochsShown (S : Suite) (hF : F.StateLossless) (hl : l.EpochsShown)
    (events : List LifecycleEvent) : (Machine.run (step S F) l events).EpochsShown := by
  induction events generalizing l with
  | nil => exact hl
  | cons e rest ih => exact ih (step_epochsShown S hF hl e)

theorem run_pinsKept (hF : F.StateLossless) (hl : l.EpochsShown) {events : List LifecycleEvent}
    (hevents : ∀ e ∈ events, e.kind ≠ .forget) :
    PinsKept S l (Machine.run (step S F) l events) (Machine.log (step S F) l events) := by
  induction events generalizing l with
  | nil => exact .refl l
  | cons e rest ih =>
    exact (step_pinsKept hF hl (hevents e List.mem_cons_self)).trans
      (ih (step_epochsShown S hF hl e) fun e' he' => hevents e' (List.mem_cons_of_mem _ he'))

end Lifecycle

/-! ## Every run -/

namespace Orchestrator

/-- **Pins are stable.** Over every run of an orchestrator in which no contact is forgotten,
restarts included, and from every state it can be in: what is pinned for a device stays pinned,
and every session opened with the device was opened with what is pinned; an epoch recorded for a
device never decreases, and no session opens as initiator from a bundle that shows a lower one.
-/
theorem pins_stable (S : Suite) (F : Cfe) (hF : F.StateLossless) (client : Client)
    (myUserId : Bytes) (trust : ServerTrust) (before events : List OrchestratorEvent)
    (hevents : ∀ e ∈ events, e.kind ≠ .forget) :
    let o := Machine.run (step S F) (new client myUserId trust) before
    let o' := Machine.run (step S F) o events
    let seen := Machine.log (step S F) o events
    (∀ d fp, o.lifecycle.pinnedHybridIdentity d = some fp →
      o'.lifecycle.pinnedHybridIdentity d = some fp ∧
      ∀ bundle kyber, .openedAsInitiator d bundle kyber ∈ seen →
        ∃ key, kyber.hybridIdentityKey = some key ∧ hybridIdentityFingerprint S key = fp) ∧
    (∀ d fp, o.lifecycle.pinnedKemIdentity d = some fp →
      o'.lifecycle.pinnedKemIdentity d = some fp ∧
      ∀ identity first plaintext, .openedAsResponder d identity first plaintext ∈ seen →
        ∃ key, first.kemIdentity = some key ∧ kemIdentityFingerprint S key = fp) ∧
    ∀ (d : Bytes) (n : UInt32), o.lifecycle.spkEpochs[d]? = some n →
      (∃ n', o'.lifecycle.spkEpochs[d]? = some n' ∧ n ≤ n') ∧
      ∀ bundle kyber, .openedAsInitiator d bundle kyber ∈ seen →
        bundle.spkRotationEpoch ≠ 0 → n ≤ bundle.spkRotationEpoch := by
  intro o o' seen
  have hshown : o.lifecycle.EpochsShown := by
    obtain ⟨inner, -, hrun, -, -⟩ := run_simulated S F (new client myUserId trust) before
    rw [← hrun]
    exact Lifecycle.run_epochsShown S hF (Lifecycle.epochsShown_new client myUserId) inner
  obtain ⟨inner, hkinds, hrun, hsub, -⟩ := run_simulated S F o events
  have hinner : ∀ e ∈ inner, e.kind ≠ .forget := by
    intro e he
    rcases hkinds e he with h | ⟨e', he', h⟩
    · rw [h]
      exact fun h => nomatch h
    · rw [h]
      exact hevents e' he'
  have hkept := Lifecycle.run_pinsKept (S := S) hF hshown hinner
  rw [hrun] at hkept
  refine ⟨fun d fp hfp => ⟨hkept.hybrid d fp hfp, fun bundle kyber hmem => ?_⟩,
    fun d fp hfp => ⟨hkept.kem d fp hfp, fun identity first plaintext hmem => ?_⟩,
    fun d n hn => ⟨hkept.epoch d n hn, fun bundle kyber hmem hne => ?_⟩⟩
  · exact hkept.openedHybrid d bundle kyber (hsub.subset hmem) fp hfp
  · exact hkept.openedKem d identity first plaintext (hsub.subset hmem) fp hfp
  · exact hkept.openedEpoch d bundle kyber (hsub.subset hmem) hne n hn

def sampleInit : OrchestratorEvent :=
  .initSession sampleMoment (sampleDevice 20) (sampleBundle 20) (sampleKyber 20) false

def sampleCfe : Cfe :=
  codeBook [] [(Machine.run (step sizedSuite (codeBook [] [])) (sampleNew 1)
    [sampleInit]).lifecycle.orchestratorState []]

/-- After a restart that lost its sessions a device opens again, under the same pin. -/
theorem pins_stable_sample :
    let o := Machine.run (step sizedSuite sampleCfe) (sampleNew 1) [sampleInit]
    let events : List OrchestratorEvent := [.restart sampleMoment ∅ ∅, sampleInit]
    let fp := hybridIdentityFingerprint sizedSuite (List.replicate 1984 20)
    o.lifecycle.pinnedHybridIdentity (sampleDevice 20) = some fp ∧
      (Machine.log (step sizedSuite sampleCfe) o events).length = 1 ∧
      (Machine.run (step sizedSuite sampleCfe) o events).lifecycle.pinnedHybridIdentity
        (sampleDevice 20) = some fp :=
  ⟨by decide +kernel, by decide +kernel,
    ((pins_stable sizedSuite sampleCfe (codeBook_stateLossless _ _) (.new (sampleKeys 1))
      (sampleDevice 1) sampleTrust [sampleInit] [.restart sampleMoment ∅ ∅, sampleInit]
      (by simp [OrchestratorEvent.kind, sampleInit])).1 (sampleDevice 20) _
        (by decide +kernel)).1⟩

end Orchestrator

end ConstructCore
