import ConstructCore.Ratchet.SendPositions

/-!
# Invariants of a run

* **versions** — a session remembers the highest version of the associated data it has opened a
  message under; `step_version` says what one event can do to that memory, and
  `version_never_falls` is the downgrade protection of a run;
* **the PQ half** — it is well formed in every state (`pq_wellFormed_reachable`).
-/

namespace ConstructCore

/-- The version of the message a log entry shows. -/
def Seen.version? : Seen → Option UInt8
  | drew _ => none
  | sent m => some m.adVersion
  | accepted m _ => some m.adVersion

/-- The version a message was accepted under. -/
def Seen.heard? : Seen → Option UInt8
  | accepted m _ => some m.adVersion
  | _ => none

namespace Session

variable {C : Crypto}

/-- A version in use with a peer last heard at `peer`. -/
def InUse (peer version : UInt8) : Prop :=
  version = adVersionHeader ∨ version = adVersionLegacy ∧ peer < adVersionHeader

theorem InUse.ge {peer version old : UInt8} (h : InUse peer version) (hmax : old ≤ adVersionHeader)
    (hpeer : old ≤ peer) : old ≤ version := by
  rcases h with rfl | ⟨rfl, hlt⟩
  · exact hmax
  · have hlt := UInt8.lt_of_le_of_lt hpeer hlt
    rw [UInt8.lt_iff_toNat_lt] at hlt
    rw [UInt8.le_iff_toNat_le]
    exact Nat.le_of_lt_succ hlt

theorem InUse.le {peer version : UInt8} (h : InUse peer version) : version ≤ adVersionHeader := by
  rcases h with rfl | ⟨rfl, -⟩
  · exact UInt8.le_refl _
  · decide

theorem version?_drawn {env : Env} {y : Seen} (h : y ∈ drawn C env) :
    y.version? = none ∧ y.heard? = none := by
  unfold drawn at h
  split at h
  · rw [List.mem_singleton.mp h]
    exact ⟨rfl, rfl⟩
  · cases h

theorem pairwise_drawn {env : Env} : (drawn C env).Pairwise fun x _ => x.heard? = none := by
  unfold drawn
  split
  · exact List.pairwise_singleton _ _
  · exact .nil

/-- One event never lowers the memory, shows versions in use only, remembers what it accepts,
and shows that last. -/
theorem step_version (C : Crypto) (s : Session) (event : Event) :
    s.peerAdVersion ≤ (s.step C event).1.peerAdVersion ∧
      (∀ y ∈ (s.step C event).2, (∀ v ∈ y.version?, InUse s.peerAdVersion v) ∧
        ∀ v ∈ y.heard?, InUse s.peerAdVersion v ∧ v ≤ (s.step C event).1.peerAdVersion) ∧
      (s.step C event).2.Pairwise fun x _ => x.heard? = none := by
  have hcase := step_case C s event
  generalize s.step C event = r at hcase ⊢
  cases hcase with
  | @sent _ _ _ _ m t _ hstep hseal =>
    have hpeer : t.peerAdVersion = s.peerAdVersion := by rw [hstep.rest]
    refine ⟨hpeer ▸ UInt8.le_refl _, fun y hy => ?_, List.pairwise_singleton _ _⟩
    cases List.mem_singleton.mp hy
    refine ⟨?_, fun _ h => nomatch h⟩
    rintro _ ⟨⟩
    rw [hseal.adVersion, adSendVersion, hpeer]
    split
    · exact .inl rfl
    · exact .inr ⟨rfl, UInt8.not_le.mp ‹_›⟩
  | unsent hleft =>
    rw [hleft.rest]
    exact ⟨UInt8.le_refl _, (fun _ h => nomatch h), .nil⟩
  | @accepted env m _ _ _ _ t pq hkey hopen =>
    have hpeer := (acceptFrame hkey hopen).peerAdVersion
    rw [cleanupIfDue_peerAdVersion] at hpeer
    have huse : InUse s.peerAdVersion m.adVersion := by
      obtain ⟨_, _, -, -, haead⟩ := hopen
      obtain ⟨dr, proof, lastAt, rfl⟩ := hkey.frame
      rw [← cleanupIfDue_peerAdVersion s env.now]
      exact checkAdVersion_ok (tryAeadDecrypt_ok haead).1
    refine ⟨hpeer ▸ UInt8.left_le_max _ _, fun y hy => ?_, List.pairwise_append.mpr
      ⟨pairwise_drawn, List.pairwise_singleton _ _, fun x hx _ _ => (version?_drawn hx).2⟩⟩
    rcases List.mem_append.mp hy with hdrawn | hnew
    · simp [version?_drawn hdrawn]
    · cases List.mem_singleton.mp hnew
      refine ⟨?_, ?_⟩
      · rintro _ ⟨⟩
        exact huse
      · rintro _ ⟨⟩
        exact ⟨huse, hpeer ▸ UInt8.right_le_max _ _⟩
  | @refused env _ _ t hroll =>
    rw [hroll]
    refine ⟨cleanupIfDue_peerAdVersion s env.now ▸ UInt8.le_refl _, fun y hy => ?_, pairwise_drawn⟩
    simp [version?_drawn hy]
  | unanswered | notLoaded | answered _ _ _ | marked | headed | expecting =>
    exact ⟨UInt8.le_refl _, (fun _ h => nomatch h), .nil⟩
  | loaded _ hload =>
    obtain ⟨_, _, -, -, rfl⟩ := hload
    exact ⟨UInt8.left_le_max _ _, (fun _ h => nomatch h), .nil⟩

/-- **No downgrade.** Over any run of any session, saved and loaded at will, nothing is sent or
accepted under an older version than that of a message accepted before. -/
theorem version_never_falls (C : Crypto) (s₀ : Session) (events : List Event) :
    (Machine.log (Session.step C) s₀ events).Pairwise fun x y =>
      ∀ v ∈ x.heard?, ∀ w ∈ y.version?, v ≤ w := by
  refine (@Machine.log_rule _ _ _ (Session.step C) (fun _ _ => True)
    (fun s log => (∀ x ∈ log, ∀ v ∈ x.heard?, v ≤ adVersionHeader ∧ v ≤ s.peerAdVersion) ∧
      log.Pairwise fun x y => ∀ v ∈ x.heard?, ∀ w ∈ y.version?, v ≤ w) ?_ s₀ events
    (Machine.along_of_forall (fun _ _ => trivial) s₀ events) ⟨fun _ h => (nomatch h), .nil⟩).2
  rintro s log event - ⟨hheard, hlog⟩
  obtain ⟨hpeer, hshown, hlast⟩ := step_version C s event
  refine ⟨fun x hx v hv => ?_, List.pairwise_append.mpr ⟨hlog, ?_, fun x hx y hy v hv w hw => ?_⟩⟩
  · rcases List.mem_append.mp hx with hold | hnew
    · obtain ⟨hmax, hle⟩ := hheard x hold v hv
      exact ⟨hmax, UInt8.le_trans hle hpeer⟩
    · obtain ⟨huse, hle⟩ := (hshown x hnew).2 v hv
      exact ⟨huse.le, hle⟩
  · exact hlast.imp fun hx v hv => nomatch hx.symm.trans hv
  · obtain ⟨hmax, hle⟩ := hheard x hx v hv
    exact ((hshown y hy).1 w hw).ge hmax hle

/-- **The PQ half** of a suite-4 session is well formed in every state of every run. -/
theorem pq_wellFormed_reachable (C : Crypto) (hC : C.Sized) (s₀ : Session) (h₀ : Created C s₀)
    (hsuite : s₀.suiteId = .pqRatchet) (events : List Event) :
    (Machine.run (Session.step C) s₀ events).pq.WellFormed := by
  have hsave := @Machine.invariant_rule _ _ _ (Session.step C) (fun _ _ => True) Saveable
    (fun _ event _ ht => ht.step hC event) s₀ events
    (Machine.along_of_forall (fun _ _ => trivial) s₀ events) (saveable_created hC h₀ hsuite)
  exact hsave.pq

theorem pq_wellFormed_reachable_sample :
    (Machine.run (Session.step sizedCrypto) sendStart sendEvents).pq.WellFormed :=
  pq_wellFormed_reachable _ sizedCrypto_sized _ sendStart_created rfl _

end Session

end ConstructCore
