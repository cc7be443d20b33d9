import ConstructCore.Ratchet.Run

/-!
# Persistence: every reachable suite-4 session survives a save and a load

The loader resets the PQ half of a record that fails its checks. `Session.Saveable` is what
makes a session pass: a well-formed PQ half, a session id of 16 bytes in hex and an AD
version no older than the legacy one. Both constructors make it, every event keeps it, so
`saveLoad_reachable` holds of every state of every run.
-/

namespace ConstructCore

open Bytes Op

namespace Session

variable {C : Crypto} {s t : Session}

/-- A suite-4 session that the loader takes back whole. -/
structure Saveable (s : Session) : Prop where
  suiteId : s.suiteId = .pqRatchet
  pq : s.pq.WellFormed
  peerAdVersion : adVersionLegacy ≤ s.peerAdVersion
  sessionId : ∃ raw, s.sessionId = hexEncode raw ∧ raw.length = 16

theorem Saveable.of_same (h : Saveable s) (hsame : SameIdentity s t)
    (hadv : s.peerAdVersion ≤ t.peerAdVersion) (hpq : t.pq.WellFormed) : Saveable t where
  suiteId := hsame.suiteId.trans h.suiteId
  pq := hpq
  peerAdVersion := UInt8.le_trans h.peerAdVersion hadv
  sessionId := hsame.sessionId ▸ h.sessionId

/-! ## Events -/

theorem Saveable.cleanup (h : Saveable s) (now : Nat) :
    Saveable (s.cleanupOldSkippedKeysDefault now) :=
  h.of_same ⟨rfl, rfl, rfl, rfl⟩ (UInt8.le_refl _) (h.pq.evict now _)

theorem Saveable.cleanupIfDue (h : Saveable s) (now : Nat) : Saveable (s.cleanupIfDue now) := by
  unfold Session.cleanupIfDue
  split
  · exact h.cleanup now
  · exact h

theorem Saveable.rolledBack (h : Saveable s) (hroll : RolledBack s t) : Saveable t := by
  unfold RolledBack at hroll
  rw [hroll]
  exact h.of_same ⟨rfl, rfl, rfl, rfl⟩ (UInt8.le_refl _) h.pq

variable {env : Env} {m : EncryptedRatchetMessage} {root localId contact : Bytes}

theorem Saveable.sendLeft (hC : C.Sized) (h : Saveable s) (hleft : SendLeft C env s t) :
    Saveable t := by
  have hstart : (s.startedPq C env).WellFormed := h.pq.maybeStartByAge hC _ _
  have hpq : t.pq.WellFormed := by
    rcases hleft.pq with heq | heq | ⟨out, hsend⟩
    · rw [heq]
      exact h.pq
    · rw [heq]
      exact hstart
    · exact (PqRatchet.pqSendKey_wellFormed hC s.suiteId hstart).of_ok hsend
  have hsame : SameIdentity s t := by
    rw [hleft.rest]
    exact ⟨rfl, rfl, rfl, rfl⟩
  have hadv : t.peerAdVersion = s.peerAdVersion := by rw [hleft.rest]
  exact h.of_same hsame (hadv ▸ UInt8.le_refl _) hpq

theorem Saveable.accept (hC : C.Sized) (h : Saveable s) {stepped : Bool}
    (hframe : AcceptFrame C env m stepped s t) : Saveable t := by
  obtain ⟨hsame, hadv, pqKey, pq, hreceive, hcommit⟩ := hframe
  have hstepped : (s.steppedPq C env stepped).WellFormed := by
    unfold steppedPq
    cases stepped with
    | true => exact h.pq.maybeAdvance hC _ _
    | false => exact h.pq
  have hpq : pq.WellFormed :=
    (PqRatchet.pqReceiveKey_wellFormed hC _ _ _ _ hstepped).of_ok hreceive
  refine h.of_same hsame ?_ ?_
  · rw [hadv]
    exact UInt8.left_le_max _ _
  · rw [hcommit]
    exact hpq.commitPqPostDecrypt hC _ _ _

theorem Saveable.step (hC : C.Sized) (h : Saveable s) (event : Event) :
    Saveable (s.step C event).1 := by
  have hcase := step_case C s event
  generalize s.step C event = r at hcase ⊢
  cases hcase with
  | sent _ hstep _ => exact h.sendLeft hC hstep.left
  | unsent hleft => exact h.sendLeft hC hleft
  | @accepted env _ _ _ _ _ _ _ hkey hopen =>
    exact (h.cleanupIfDue env.now).accept hC (acceptFrame hkey hopen)
  | @refused env _ _ _ hroll => exact (h.cleanupIfDue env.now).rolledBack hroll
  | unanswered | notLoaded => exact h
  | answered _ _ _ | marked | headed | expecting =>
    exact h.of_same ⟨rfl, rfl, rfl, rfl⟩ (UInt8.le_refl _) h.pq
  | @loaded _ now t _ hload =>
    obtain ⟨pq, sid, hsid, hpq, rfl⟩ := hload
    obtain rfl := hpq h.suiteId h.pq
    obtain ⟨raw, hid, hraw⟩ := h.sessionId
    have hkept : Saveable { s with
        sessionId := sid, peerAdVersion := max s.peerAdVersion adVersionLegacy } := by
      refine ⟨h.suiteId, h.pq, ?_, ?_⟩
      · exact UInt8.le_trans h.peerAdVersion (UInt8.left_le_max _ _)
      · rcases hsid with rfl | ⟨raw', -, hraw', rfl⟩
        · exact ⟨raw, hid, hraw⟩
        · exact ⟨raw', rfl, hraw'⟩
    exact hkept.cleanup now

/-! ## Creation -/

theorem deriveSharedSessionId_ok (hC : C.Sized) {sid : Bytes}
    (h : deriveSharedSessionId C root localId contact = .ok sid) :
    ∃ raw, sid = hexEncode raw ∧ raw.length = 16 := by
  unfold deriveSharedSessionId at h
  split at h
  dsimp only at h
  split at h
  · rename_i bytes hbytes
    cases h
    exact ⟨bytes, rfl, hC.hkdf _ _ _ _ _ hbytes⟩
  · cases h

theorem saveable_initial {dr : Ratchet} {role : Bool} {raw : Bytes} {now : Nat}
    (hraw : raw.length = 16) :
    Saveable (.initial .pqRatchet dr role (hexEncode raw) contact localId now) where
  suiteId := rfl
  pq := PqRatchet.wellFormed_initial role now
  peerAdVersion := UInt8.le_refl _
  sessionId := ⟨raw, rfl, hraw⟩

theorem saveable_responder (hC : C.Sized) {identity : Bytes}
    (h : responderSession C env root identity m contact localId = .ok s)
    (hsuite : s.suiteId = .pqRatchet) : Saveable s := by
  obtain ⟨sid, _, _, _, _, _, _, _, _, _, suite, hsid, -, -, -, -, -, -, -, rfl⟩ :=
    responderSession_ok h
  obtain ⟨raw, rfl, hraw⟩ := deriveSharedSessionId_ok hC hsid
  obtain rfl : suite = .pqRatchet := hsuite
  exact saveable_initial hraw

theorem saveable_created (hC : C.Sized) (h : Created C s) (hsuite : s.suiteId = .pqRatchet) :
    Saveable s := by
  obtain ⟨first, h⟩ := h
  cases h with
  | initiator h =>
    obtain ⟨sid, _, _, _, _, _, hsid, -, -, -, -, rfl⟩ := newInitiatorSession_ok h
    obtain ⟨raw, rfl, hraw⟩ := deriveSharedSessionId_ok hC hsid
    obtain rfl : _ = SuiteID.pqRatchet := hsuite
    exact saveable_initial hraw
  | @responder env _ _ _ _ m _ plaintext h =>
    obtain ⟨s₁, hs₁, hrun⟩ := newResponderSession_ok h
    obtain ⟨key, stepped, t, pq, hkey, hopen, rfl⟩ := decryptWithIdentitySecret_ok hrun
    have hframe := acceptFrame hkey hopen
    -- the suite of the session is the one the first message opened it with
    have hs : s₁.suiteId = .pqRatchet :=
      ((cleanupIfDue_same _ env.now).trans hframe.same).suiteId.symm.trans hsuite
    exact ((saveable_responder hC hs₁ hs).cleanupIfDue env.now).accept hC hframe

/-- **Persistence.** In every state of every run of a suite-4 session, the loader's checks
accept the PQ half, and saving and loading the session gives it back, less skipped keys
past their maximum age. -/
theorem saveLoad_reachable (C : Crypto) (hC : C.Sized) (s₀ : Session) (h₀ : Created C s₀)
    (hsuite : s₀.suiteId = .pqRatchet) (events : List Event) (now : Nat) (s : Session)
    (hs : s = Machine.run (Session.step C) s₀ events) :
    validatePqRatchetState (serializePq s.pq) = .ok () ∧
      ∃ t, s.saveLoad now = .ok t ∧
        t = { s with
          dr := { s.dr with skippedMessageKeys := t.dr.skippedMessageKeys }
          pq := { s.pq with pqSkippedKeys := t.pq.pqSkippedKeys } } ∧
        AgedStore.EvictedByAge now Config.global.maxSkippedMessageAgeSeconds
          s.dr.skippedMessageKeys t.dr.skippedMessageKeys ∧
        AgedStore.EvictedByAge now Config.global.maxSkippedMessageAgeSeconds
          s.pq.pqSkippedKeys t.pq.pqSkippedKeys := by
  have hsave : Saveable s := by
    rw [hs]
    exact @Machine.invariant_rule _ _ _ (Session.step C) (fun _ _ => True) Saveable
      (fun t event _ ht => ht.step hC event) s₀ events
      (Machine.along_of_forall (fun _ _ => trivial) s₀ events) (saveable_created hC h₀ hsuite)
  obtain ⟨raw, hid, hraw⟩ := hsave.sessionId
  refine ⟨validatePqRatchetState_serializePq hsave.pq, s.cleanupOldSkippedKeysDefault now,
    saveLoad_eq now hsave.suiteId hsave.pq hsave.peerAdVersion hid hraw, rfl, ?_, ?_⟩
  · exact AgedStore.evictedByAge_evict _ _ _
  · exact AgedStore.evictedByAge_evict _ _ _

/-- A suite-4 initiator that writes, meets a stray message, is saved and loaded, and writes
again. -/
theorem saveLoad_reachable_initiator : ∃ s₀ s : Session,
    Created sizedCrypto s₀ ∧ s₀.suiteId = .pqRatchet ∧
      s = Machine.run (Session.step sizedCrypto) s₀
        [.encrypt ⟨700000, 1, 2, 3, 4⟩ [104, 105], .decrypt ⟨700001, 5, 6, 7, 8⟩ strayMessage none,
          .saveLoad 700002, .encrypt ⟨700003, 9, 10, 11, 12⟩ [33]] ∧
      validatePqRatchetState (serializePq s.pq) = .ok () ∧ ∃ t, s.saveLoad 700004 = .ok t := by
  have hcreated : Created sizedCrypto _ :=
    ⟨[], @Begins.initiator sizedCrypto ⟨10, 21, 22, 23, 24⟩ (leBytes 32 3) (leBytes 32 6)
      (leBytes 32 5) (ofText "bob") (ofText "alice") .pqRatchet _ rfl⟩
  have h := saveLoad_reachable sizedCrypto sizedCrypto_sized _ hcreated rfl
    [.encrypt ⟨700000, 1, 2, 3, 4⟩ [104, 105], .decrypt ⟨700001, 5, 6, 7, 8⟩ strayMessage none,
      .saveLoad 700002, .encrypt ⟨700003, 9, 10, 11, 12⟩ [33]] 700004 _ rfl
  obtain ⟨hvalid, t, ht, -⟩ := h
  exact ⟨_, _, hcreated, rfl, rfl, hvalid, t, ht⟩

end Session

end ConstructCore
