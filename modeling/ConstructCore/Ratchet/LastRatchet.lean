import ConstructCore.Ratchet.Acceptance
import ConstructCore.Ratchet.Progress

/-!
# The time of the last DH step

`last_ratchet_at` is written by the DH step, before the message is authenticated, and
`restore_snapshot` does not put it back. So a message with a new ratchet key that fails
afterwards moves it (`stray_message_moves_last_ratchet_at`).

Nothing else writes it: the loops over the chains and the opening of a message leave it alone
(`deriveMessageKey_time`, `decryptWithKey_time`). In a run in which every message that turns the
ratchet opens, it is the time of the last step kept.
-/

namespace ConstructCore

namespace Session

open Bytes Op Machine

/-- The message makes the session step the ratchet: no key is filed for it, it carries a new
ratchet key, and its numbers are within their bounds. -/
def turns (s : Session) (m : EncryptedRatchetMessage) : Bool :=
  (s.dr.skippedMessageKeys.get? (m.dhPublicKey.toList, m.messageNumber)).isNone &&
    (s.needsRatchet m && (s.checkJumps m).toBool)

/-- The chain the DH step opens has a key for the message, with room for the keys before it, and
that key opens it. -/
def Genuine (C : Crypto) (env : Env) (m : EncryptedRatchetMessage) (secret : Option Bytes)
    (s : Session) : Prop :=
  ∃ key t pq plaintext, ClassicalKey C env m secret s key true t ∧
    t.dr.skippedMessageKeys.size < Config.global.maxSkippedMessages ∧
    Opens C env m t key pq plaintext

def TurnsGenuinely (C : Crypto) (s : Session) : Event → Prop
  | .encrypt _ _ => True
  | .decrypt env m secret => (s.cleanupIfDue env.now).turns m = true →
      Genuine C env m secret (s.cleanupIfDue env.now)
  | _ => False

/-- When the DH step was made, if the event is a decrypt that made one and returned. -/
def keptTurn (C : Crypto) (s : Session) : Event → List Nat
  | .decrypt env m secret =>
    match decryptWithIdentitySecret C env m secret s with
    | .ok _ _ => if (s.cleanupIfDue env.now).turns m then [env.now] else []
    | .error _ _ => []
  | _ => []

/-- The machine of one session, logging the times of the DH steps it keeps. -/
def timed (C : Crypto) (s : Session) (event : Event) : Session × List Nat :=
  ((s.step C event).1, s.keptTurn C event)

variable {C : Crypto} {s t : Session} {env : Env} {m : EncryptedRatchetMessage}
  {secret : Option Bytes} {snap : DecryptSnapshot}

theorem cleanupIfDue_time (s : Session) (now : Nat) :
    (s.cleanupIfDue now).lastRatchetAt = s.lastRatchetAt := by
  unfold cleanupIfDue
  split
  · rfl
  · rfl

/-! ## What leaves the time alone -/

theorem deriveMessageKey_time (now : Nat) (remote : Bytes) (n : Nat) (s : Session) :
    Ensures (deriveMessageKey C snap now remote n) s
      (fun _ t => t.lastRatchetAt = s.lastRatchetAt)
      (fun _ t => t.lastRatchetAt = s.lastRatchetAt) := by
  refine (deriveMessageKey_spec C snap now remote n s).mono ?_ ?_
  · rintro key _ ⟨chain, next, skipped, -, -, rfl, -⟩
    rfl
  · rintro e _ ⟨rfl, -⟩
    rfl

theorem decryptWithKey_time (env : Env) (key : Bytes) (m : EncryptedRatchetMessage) (s : Session) :
    Ensures (decryptWithKey C env key m) s (fun _ t => t.lastRatchetAt = s.lastRatchetAt)
      (fun _ t => t.lastRatchetAt = s.lastRatchetAt) := by
  simp only [decryptWithKey, onPq, ensures_bind, ensures_get, ensures_zoom, ensures_ofExcept,
    ensures_modify, ensures_pure]
  rw [ensures_iff]
  simp

/-- A message that does not turn the ratchet and is refused leaves the time. -/
theorem decryptMessage_time (hstill : (s.cleanupIfDue env.now).turns m = false) :
    Ensures (decryptMessage C env m secret) s (fun _ _ => True)
      (fun _ t => t.lastRatchetAt = s.lastRatchetAt) := by
  rw [← cleanupIfDue_time s env.now]
  simp only [decryptMessage, ensures_bind, ensures_modify, ensures_get]
  generalize s.cleanupIfDue env.now = s₀ at hstill
  cases hget : s₀.dr.skippedMessageKeys.get? (m.dhPublicKey.toList, m.messageNumber) with
  | some key =>
    simp only [decryptSkipped, ensures_bind, ensures_modify, ensures_inspectErr, ensures_pure]
    exact (decryptWithKey_time env key m _).mono (fun _ _ _ => trivial) fun _ _ h => h
  | none =>
    simp only [ensures_bind, ensures_ofExcept, ensures_ite]
    refine ⟨fun u hjump => ⟨fun hnew => ?_, fun _ => ?_⟩, fun _ _ => trivial⟩
    · -- a new ratchet key within the bounds turns the ratchet
      unfold turns at hstill
      rw [hget, hnew, hjump] at hstill
      cases hstill
    · simp only [decryptLive, ensures_bind, ensures_get, ensures_ite, ensures_modify,
        ensures_throw, ensures_inspectErr, ensures_pure]
      refine ⟨fun _ => rfl, fun _ => ?_⟩
      refine (deriveMessageKey_time env.now _ _ s₀).mono ?_ fun _ _ h => h
      intro key t ht
      refine (decryptWithKey_time env key m t).mono ?_ fun _ _ h => h.trans ht
      intro _ _ _
      exact ⟨fun _ => trivial, fun _ => trivial⟩

/-! ## What a decrypt does to it -/

/-- A message whose key was found set the time exactly when it turned the ratchet. -/
theorem ClassicalKey.time {key : Bytes} {stepped : Bool}
    (h : ClassicalKey C env m secret s key stepped t) :
    stepped = s.turns m ∧ t.lastRatchetAt = if stepped then env.now else s.lastRatchetAt := by
  unfold turns
  cases h with
  | skipped hkey =>
    rw [hkey]
    exact ⟨rfl, rfl⟩
  | live hnone hsame hjump hkey =>
    obtain ⟨dr, rfl⟩ := hkey.frame
    rw [hnone, hsame]
    exact ⟨rfl, rfl⟩
  | ratchet hnone hnew hjump hsave hturn hkey =>
    obtain ⟨dr, rfl⟩ := hkey.frame
    rw [hnone, hnew, hjump]
    exact ⟨rfl, rfl⟩

theorem decrypt_ok_time {plaintext : Bytes}
    (h : decryptWithIdentitySecret C env m secret s = .ok plaintext t) :
    t.lastRatchetAt =
      if (s.cleanupIfDue env.now).turns m then env.now else s.lastRatchetAt := by
  obtain ⟨key, stepped, t', pq, hkey, -, rfl⟩ := decryptWithIdentitySecret_ok h
  obtain ⟨proof, authentication, hfinish⟩ := finish_frame (C := C) env m stepped pq t'
  obtain ⟨rfl, htime⟩ := hkey.time
  rw [hfinish, ← cleanupIfDue_time s env.now]
  exact htime

/-- **A refused message leaves the time**, unless it turned the ratchet and was not genuine. -/
theorem decrypt_error_time {e : RatchetError}
    (hgenuine : s.TurnsGenuinely C (.decrypt env m secret))
    (h : decryptWithIdentitySecret C env m secret s = .error e t) :
    t.lastRatchetAt = s.lastRatchetAt := by
  cases hturns : (s.cleanupIfDue env.now).turns m with
  | true =>
    obtain ⟨key, t', pq, plaintext, hkey, hroom, hopen⟩ := hgenuine hturns
    rw [decryptWithIdentitySecret_of_opens hkey hroom hopen] at h
    cases h
  | false =>
    have hens : Ensures (decryptWithIdentitySecret C env m secret) s (fun _ _ => True)
        (fun _ t => t.lastRatchetAt = s.lastRatchetAt) := by
      simp only [decryptWithIdentitySecret, ensures_bind, ensures_modify, ensures_pure]
      exact decryptMessage_time hturns
    exact hens.of_error h

theorem timed_decrypt_ok {plaintext : Bytes}
    (h : decryptWithIdentitySecret C env m secret s = .ok plaintext t) :
    s.timed C (.decrypt env m secret) =
      (t, if (s.cleanupIfDue env.now).turns m then [env.now] else []) := by
  simp only [timed, keptTurn, Session.step, h]

theorem timed_decrypt_error {e : RatchetError}
    (h : decryptWithIdentitySecret C env m secret s = .error e t) :
    s.timed C (.decrypt env m secret) = (t, []) := by
  simp only [timed, keptTurn, Session.step, h]

theorem encrypt_time (env : Env) (plaintext : Bytes) (s : Session) :
    (s.step C (.encrypt env plaintext)).1.lastRatchetAt = s.lastRatchetAt := by
  have hspec := encrypt_spec (C := C) env plaintext s
  rw [Session.step]
  cases hrun : Session.encrypt C env plaintext s with
  | ok m t =>
    obtain ⟨_, _, -, hstep, -⟩ := hspec.of_ok hrun
    show t.lastRatchetAt = _
    rw [hstep.rest]
  | error e t =>
    show t.lastRatchetAt = _
    rw [(hspec.of_error hrun).rest]

theorem timed_step {start : Nat} {times : List Nat} {event : Event}
    (hevent : s.TurnsGenuinely C event) (h : s.lastRatchetAt = times.getLastD start) :
    (s.timed C event).1.lastRatchetAt = (times ++ (s.timed C event).2).getLastD start := by
  cases event with
  | encrypt env plaintext =>
    show (s.step C (.encrypt env plaintext)).1.lastRatchetAt = (times ++ []).getLastD start
    rw [List.append_nil, ← h, encrypt_time]
  | decrypt env m secret =>
    cases hrun : decryptWithIdentitySecret C env m secret s with
    | ok plaintext t =>
      rw [timed_decrypt_ok hrun, decrypt_ok_time hrun]
      cases (s.cleanupIfDue env.now).turns m with
      | true => simp [List.getLastD_eq_getLast?]
      | false => simp [h]
    | error e t =>
      rw [timed_decrypt_error hrun, List.append_nil, decrypt_error_time hevent hrun, h]
  | answerIdentity => cases hevent
  | markPqxdhV2 => cases hevent
  | setPrekeyHeader => cases hevent
  | expectIdentityAnswer => cases hevent
  | reload => cases hevent
  | saveLoad => cases hevent

end Session

end ConstructCore
