import ConstructCore.Orchestration.Conservation

/-!
# When queued messages arrived

The router keeps, beside its queues, the time each queued message arrived. A desk is watched from
outside: `Since` is the clock at which a message entered the queue it has been in ever since, as
long as no call ends with it out of the queue.

A drain takes a queue apart and routes each of its messages again. One that no state reads goes
back into its queue by the same path as a new arrival, and its arrival is overwritten
(`drain_overwrites_arrival`). The record is keyed by the message id alone, so a message of another
device with the same id overwrites it as well. Where neither happens, the record is the time of
the first enqueue: `Timely` is the invariant, and a step either only removes messages
(`Timely.shrink`) or appends one (`Timely.queued`).
-/

namespace ConstructCore

open Bytes

namespace Router

/-- `handshake_arrived_within`, at a time. -/
def handshakeArrivedWithin (r : Router) (clockMs : Nat) (devices : List Bytes) (windowMs : Nat) :
    Bool :=
  devices.any fun device => (r.queue device).any fun msg =>
    opensSession msg && (match r.arrivedAt[msg.messageId]? with
      | none => false
      | some arrived => decide (clockMs - arrived ≤ windowMs))

def Holds (r : Router) (device id : Bytes) : Prop := ∃ x ∈ r.queue device, x.messageId = id

instance (r : Router) (device id : Bytes) : Decidable (r.Holds device id) :=
  inferInstanceAs (Decidable (∃ x ∈ r.queue device, x.messageId = id))

/-! ## Arrivals after an update -/

@[simp] theorem arrivedAt_setQueue (r : Router) (c : Bytes) (q : List IncomingMessage) :
    (r.setQueue c q).arrivedAt = r.arrivedAt := rfl

theorem lookup_arrive (r : Router) (id a : Bytes) (clockMs : Nat) :
    (r.arrive id clockMs).arrivedAt[a]? = if a = id then some clockMs else r.arrivedAt[a]? :=
  Table.lookup_insert r.arrivedAt id a clockMs

theorem lookup_pruneArrivals {r : Router} {device id : Bytes}
    (h : r.pruneArrivals.Holds device id) :
    r.pruneArrivals.arrivedAt[id]? = r.arrivedAt[id]? := by
  obtain ⟨x, hx, rfl⟩ := h
  rw [queue_pruneArrivals] at hx
  have hqueued : (r.pendingQueues.toList.any fun q => q.2.any fun m =>
      m.messageId == x.messageId) = true := by
    unfold queue at hx
    cases hq : r.pendingQueues[device]? with
    | none =>
      rw [hq] at hx
      cases hx
    | some q =>
      rw [hq] at hx
      refine List.any_eq_true.mpr ⟨(device, q), ?_, ?_⟩
      · exact Std.ExtTreeMap.mem_toList_iff_getElem?_eq_some.mpr hq
      · exact List.any_eq_true.mpr ⟨x, hx, by simp⟩
  unfold pruneArrivals
  rw [Table.lookup_filter]
  cases r.arrivedAt[x.messageId]? with
  | none => rfl
  | some t => simp [Option.filter, hqueued]

end Router

open Router

/-! ## The time of the first enqueue -/

def RouterEvent.clockMs : RouterEvent → Nat
  | .route m _ | .resume m _ _ => m.clockMs
  | .drain clockMs _ _ => clockMs
  | .removePending _ _ | .takePending _ | .lifecycle _ => 0

/-- By device and message id: when the message entered the queue it is in. -/
abbrev Since := Bytes → Bytes → Option Nat

/-- A message queued before a call and after it stays; one queued only after it has entered. -/
def Since.after (clockMs : Nat) (r r' : Router) (since : Since) : Since := fun device id =>
  if r'.Holds device id then if r.Holds device id then since device id else some clockMs
  else none

/-- A desk, and when what it has queued was first enqueued. -/
structure WatchedDesk where
  desk : Desk
  since : Since

namespace WatchedDesk

def new (l : Lifecycle) : WatchedDesk := ⟨⟨Router.new, l⟩, fun _ _ => none⟩

def step (S : Suite) (F : Cfe) (k : WatchedDesk) (e : RouterEvent) :
    WatchedDesk × List (IncomingMessage × Fate) :=
  let (desk, out) := k.desk.step S F e
  (⟨desk, k.since.after e.clockMs k.desk.router desk.router⟩, out)

end WatchedDesk

/-- The states held answer a message, and the manager after that: its id is in the ACK cache, it
decrypts, or its key was consumed. -/
def Lifecycle.settles (S : Suite) (F : Cfe) (m : Moment) (l : Lifecycle) (msg : IncomingMessage) :
    Option Lifecycle :=
  match l.ackStore.isProcessed msg.messageId with
  | .inCache => some l
  | .needDbCheck => none
  | .notProcessed =>
    if opensSession msg && !l.hasActiveSession msg.contactId then none
    else match l.decryptWirePayload S F m msg.contactId msg.wirePayload with
      | .ok _ l => some { l with ackStore := (l.ackStore.markProcessed m.nowSecs msg.messageId).2 }
      | .error e l =>
        if e.isConsumed then
          some { l with ackStore := (l.ackStore.markProcessed m.nowSecs msg.messageId).2 }
        else none

def Lifecycle.SettlesAll (S : Suite) (F : Cfe) (clockMs : Nat) :
    (Nat → Env) → List IncomingMessage → Lifecycle → Prop
  | _, [], _ => True
  | envs, msg :: rest, l =>
    match l.settles S F ⟨clockMs, envs 0⟩ msg with
    | none => False
    | some l => SettlesAll S F clockMs (fun i => envs (i + 1)) rest l

instance Lifecycle.decidableSettlesAll (S : Suite) (F : Cfe) (clockMs : Nat) :
    ∀ (envs : Nat → Env) (queue : List IncomingMessage) (l : Lifecycle),
      Decidable (l.SettlesAll S F clockMs envs queue)
  | _, [], _ => isTrue trivial
  | envs, msg :: rest, l =>
    match h : l.settles S F ⟨clockMs, envs 0⟩ msg with
    | none => isFalse (by rw [SettlesAll, h]; exact id)
    | some l' => @decidable_of_decidable_of_iff _ _
        (decidableSettlesAll S F clockMs (fun i => envs (i + 1)) rest l')
        (by rw [SettlesAll, h])

def Router.OwnId (r : Router) (msg : IncomingMessage) : Prop :=
  ∀ device, device ≠ msg.contactId → ¬ r.Holds device msg.messageId

theorem Router.ownId_iff (r : Router) (msg : IncomingMessage) :
    (∀ q ∈ r.pendingQueues.toList, q.1 ≠ msg.contactId → ∀ x ∈ q.2, x.messageId ≠ msg.messageId) ↔
      r.OwnId msg := by
  constructor
  · rintro h device hdevice ⟨x, hx, hid⟩
    unfold queue at hx
    cases hq : r.pendingQueues[device]? with
    | none =>
      rw [hq] at hx
      cases hx
    | some q =>
      rw [hq] at hx
      have hmem := Std.ExtTreeMap.mem_toList_iff_getElem?_eq_some.mpr hq
      exact h _ hmem hdevice x hx hid
  · rintro h ⟨device, q⟩ hq hdevice x hx hid
    have hlook := Std.ExtTreeMap.mem_toList_iff_getElem?_eq_some.mp hq
    refine h device hdevice ⟨x, ?_, hid⟩
    unfold queue
    rw [hlook]
    exact hx

instance (r : Router) (msg : IncomingMessage) : Decidable (r.OwnId msg) :=
  decidable_of_iff _ (r.ownId_iff msg)

/-- A call that overwrites no arrival: what is routed has an id of its own device, and a drain
finds each message of its queue answered by the states held. -/
def WatchedDesk.Careful (S : Suite) (F : Cfe) (k : WatchedDesk) : RouterEvent → Prop
  | .route _ msg => k.desk.router.OwnId msg
  | .resume _ messageId _ =>
    ∀ msg ∈ k.desk.router.pendingAckChecks[messageId]?, k.desk.router.OwnId msg
  | .drain clockMs envs contactId =>
    k.desk.lifecycle.SettlesAll S F clockMs envs (k.desk.router.queue contactId)
  | .removePending _ _ | .takePending _ | .lifecycle _ => True

instance (S : Suite) (F : Cfe) (k : WatchedDesk) (e : RouterEvent) : Decidable (k.Careful S F e) :=
  match e with
  | .route _ msg => inferInstanceAs (Decidable (k.desk.router.OwnId msg))
  | .resume _ messageId _ => inferInstanceAs (Decidable
      (∀ msg ∈ k.desk.router.pendingAckChecks[messageId]?, k.desk.router.OwnId msg))
  | .drain clockMs envs contactId =>
    Lifecycle.decidableSettlesAll S F clockMs envs (k.desk.router.queue contactId)
      k.desk.lifecycle
  | .removePending _ _ | .takePending _ | .lifecycle _ => isTrue trivial

/-! ## The invariant -/

/-- Each queued message has its first enqueue on record, and no id is queued for two devices. -/
structure Timely (r : Router) (since : Since) : Prop where
  recorded : ∀ device, ∀ x ∈ r.queue device, ∃ t, since device x.messageId = some t ∧
    r.arrivedAt[x.messageId]? = some t
  apart : ∀ device device' id, r.Holds device id → r.Holds device' id → device = device'

namespace Timely

variable {r r' : Router} {since : Since} {clockMs : Nat}

/-- A call that only removes messages, and keeps the arrival of those that stay. -/
theorem shrink (h : Timely r since) (r' : Router) (hsub : ∀ d, ∀ x ∈ r'.queue d, x ∈ r.queue d)
    (harrived : ∀ d id, r'.Holds d id → r'.arrivedAt[id]? = r.arrivedAt[id]?) (clockMs : Nat) :
    Timely r' (since.after clockMs r r') := by
  have hheld : ∀ d id, r'.Holds d id → r.Holds d id := by
    rintro d id ⟨x, hx, hid⟩
    exact ⟨x, hsub d x hx, hid⟩
  refine ⟨?_, ?_⟩
  · intro d x hx
    have hnow : r'.Holds d x.messageId := ⟨x, hx, rfl⟩
    obtain ⟨t, hsince, hat⟩ := h.recorded d x (hsub d x hx)
    refine ⟨t, ?_, ?_⟩
    · unfold Since.after
      rw [if_pos hnow, if_pos (hheld d _ hnow), hsince]
    · rw [harrived d _ hnow, hat]
  · intro d d' id hd hd'
    exact h.apart d d' id (hheld d id hd) (hheld d' id hd')

variable {msg : IncomingMessage}

theorem queued (h : Timely r since) (hown : r.OwnId msg)
    (hnew : ∀ q ∈ r.queue msg.contactId, q.messageId ≠ msg.messageId) (p : IncomingMessage → Bool) :
    Timely ((r.setQueue msg.contactId ((r.queue msg.contactId).filter p ++ [msg])).arrive
        msg.messageId clockMs)
      (since.after clockMs r
        ((r.setQueue msg.contactId ((r.queue msg.contactId).filter p ++ [msg])).arrive
          msg.messageId clockMs)) := by
  let r' := (r.setQueue msg.contactId ((r.queue msg.contactId).filter p ++ [msg])).arrive
    msg.messageId clockMs
  -- a message of the new queues is the new one, or was there and has another id
  have hcases : ∀ d, ∀ x ∈ r'.queue d, (d = msg.contactId ∧ x = msg) ∨
      (x ∈ r.queue d ∧ x.messageId ≠ msg.messageId) := by
    intro d x hx
    have hx' : x ∈ if d = msg.contactId then (r.queue msg.contactId).filter p ++ [msg]
        else r.queue d := by
      rw [← queue_setQueue]
      exact hx
    by_cases hd : d = msg.contactId
    · rw [if_pos hd] at hx'
      rcases List.mem_append.mp hx' with hold | hnewest
      · have hmem := (List.mem_filter.mp hold).1
        exact .inr ⟨hd ▸ hmem, hnew x hmem⟩
      · exact .inl ⟨hd, List.mem_singleton.mp hnewest⟩
    · rw [if_neg hd] at hx'
      exact .inr ⟨hx', fun heq => hown d hd ⟨x, hx', heq⟩⟩
  have hfresh : ¬ r.Holds msg.contactId msg.messageId := by
    rintro ⟨x, hx, hid⟩
    exact hnew x hx hid
  refine ⟨?_, ?_⟩
  · intro d x hx
    have hnow : r'.Holds d x.messageId := ⟨x, hx, rfl⟩
    unfold Since.after
    rw [if_pos hnow, lookup_arrive]
    rcases hcases d x hx with ⟨rfl, rfl⟩ | ⟨hold, hne⟩
    · exact ⟨clockMs, if_neg hfresh, if_pos rfl⟩
    · obtain ⟨t, hsince, hat⟩ := h.recorded d x hold
      refine ⟨t, ?_, ?_⟩
      · rw [if_pos ⟨x, hold, rfl⟩, hsince]
      · rw [if_neg hne]
        exact hat
  · rintro d d' id ⟨x, hx, hid⟩ ⟨x', hx', hid'⟩
    rcases hcases d x hx with ⟨rfl, rfl⟩ | ⟨hold, hne⟩ <;>
      rcases hcases d' x' hx' with ⟨rfl, rfl⟩ | ⟨hold', hne'⟩
    · rfl
    · exact absurd (hid'.trans hid.symm) hne'
    · exact absurd (hid.trans hid'.symm) hne
    · exact h.apart d d' id ⟨x, hold, hid⟩ ⟨x', hold', hid'⟩

theorem routed (h : Timely r since) {decision : RoutingDecision} (hown : r.OwnId msg)
    (hrouted : Routed clockMs r msg decision r') :
    Timely r' (since.after clockMs r r') := by
  cases hrouted with
  | answered _ _ | already _ => exact h.shrink r (fun _ _ hx => hx) (fun _ _ _ => rfl) clockMs
  | buffered => exact h.shrink (r.buffer msg) (fun _ _ hx => hx) (fun _ _ _ => rfl) clockMs
  | refused _ =>
    refine h.shrink (r.setQueue _ _) ?_ (fun _ _ _ => rfl) clockMs
    intro d x hx
    rw [queue_setQueue] at hx
    split at hx
    · rename_i hd
      rw [hd]
      exact (List.mem_filter.mp hx).1
    · exact hx
  | queued _ hnew _ => exact h.queued hown hnew _

end Timely

/-! ## Drains that settle -/

variable {S : Suite} {F : Cfe} {l : Lifecycle} {clockMs : Nat}

theorem Router.routeMessage_of_settles {m : Moment} {l' : Lifecycle} {msg : IncomingMessage}
    (r : Router) (h : l.settles S F m msg = some l') :
    ∃ decision, routeMessage S F m r l msg = (decision, r, l') ∧
      decision.isDecryptionError = false := by
  unfold Lifecycle.settles at h
  unfold routeMessage
  cases hack : l.ackStore.isProcessed msg.messageId with
  | inCache =>
    rw [hack] at h
    cases h
    exact ⟨_, rfl, rfl⟩
  | needDbCheck =>
    rw [hack] at h
    cases h
  | notProcessed =>
    rw [hack] at h
    dsimp only at h ⊢
    unfold routeAfterAckCheck
    dsimp only
    by_cases hwait : (opensSession msg && !l.hasActiveSession msg.contactId) = true
    · rw [if_pos hwait] at h
      cases h
    rw [if_neg hwait] at h ⊢
    cases hrun : l.decryptWirePayload S F m msg.contactId msg.wirePayload with
    | ok result l₁ =>
      rw [hrun] at h
      cases h
      exact ⟨_, rfl, rfl⟩
    | error e l₁ =>
      rw [hrun] at h
      dsimp only at h ⊢
      by_cases hconsumed : e.isConsumed = true
      · rw [if_pos hconsumed] at h ⊢
        cases h
        exact ⟨_, rfl, rfl⟩
      · rw [if_neg hconsumed] at h
        cases h

/-- A drain whose messages are all answered leaves the router it worked on as it was. -/
theorem Router.drainLoop_of_settlesAll (queue : List IncomingMessage) (envs : Nat → Env)
    (r : Router) (h : l.SettlesAll S F clockMs envs queue) :
    (drainLoop S F clockMs envs queue r l).2.1 = [] ∧
      (drainLoop S F clockMs envs queue r l).2.2.1 = r := by
  induction queue generalizing envs l with
  | nil => exact ⟨rfl, rfl⟩
  | cons msg rest ih =>
    unfold Lifecycle.SettlesAll at h
    cases hset : l.settles S F ⟨clockMs, envs 0⟩ msg with
    | none =>
      rw [hset] at h
      exact h.elim
    | some l' =>
      rw [hset] at h
      obtain ⟨decision, hroute, hgoesOn⟩ := routeMessage_of_settles r hset
      obtain ⟨htail, hrouter⟩ := ih _ h
      rw [drainLoop, hroute]
      dsimp only
      rw [hgoesOn]
      exact ⟨htail, hrouter⟩

theorem Router.drainPending_of_settlesAll (envs : Nat → Env) (r : Router) {c : Bytes}
    (h : l.SettlesAll S F clockMs envs (r.queue c)) :
    (drainPending S F clockMs envs r l c).2.1 =
      pruneArrivals { r with pendingQueues := r.pendingQueues.erase c } := by
  obtain ⟨htail, hrouter⟩ := drainLoop_of_settlesAll (r.queue c) envs
    { r with pendingQueues := r.pendingQueues.erase c } h
  unfold drainPending
  dsimp only
  rw [htail, hrouter]
  rfl

/-! ## The run -/

namespace WatchedDesk

variable (S : Suite) (F : Cfe)

def Shrinks (r r' : Router) : Prop :=
  (∀ d, ∀ x ∈ r'.queue d, x ∈ r.queue d) ∧
    ∀ d id, r'.Holds d id → r'.arrivedAt[id]? = r.arrivedAt[id]?

theorem Shrinks.refl (r : Router) : Shrinks r r := ⟨fun _ _ hx => hx, fun _ _ _ => rfl⟩

theorem shrinks_erase (r : Router) (c : Bytes) :
    Shrinks r (pruneArrivals { r with pendingQueues := r.pendingQueues.erase c }) := by
  refine ⟨?_, fun _ _ hheld => lookup_pruneArrivals hheld⟩
  intro d x hx
  rw [queue_pruneArrivals, queue_erase] at hx
  split at hx
  · cases hx
  · exact hx

theorem shrinks_removePending (r : Router) (c id : Bytes) : Shrinks r (r.removePending c id) := by
  refine ⟨?_, ?_⟩
  · intro d x hx
    rw [queue_removePending] at hx
    split at hx
    · rename_i hd
      rw [hd]
      exact (List.mem_filter.mp hx).1
    · exact hx
  · intro d id' hheld
    unfold removePending at hheld ⊢
    rw [lookup_pruneArrivals hheld]
    cases r.pendingQueues[c]? <;> rfl

variable {k : WatchedDesk} {e : RouterEvent}

/-- What a careful call can do to the router: it routes a message with an id of its device, from
a buffer that may have lost it, or messages only leave. -/
theorem step_cases (hcareful : k.Careful S F e) :
    (∃ buffer msg decision, k.desk.router.OwnId msg ∧
      Routed e.clockMs { k.desk.router with pendingAckChecks := buffer } msg decision
        (k.step S F e).1.desk.router) ∨
    Shrinks k.desk.router (k.step S F e).1.desk.router := by
  cases e with
  | route m msg =>
    exact .inl ⟨_, msg, _, hcareful, routeMessage_routed S F m k.desk.router _ msg⟩
  | resume m messageId isProcessed =>
    show _ ∨ Shrinks _ (resumeAfterAckCheck S F m k.desk.router _ messageId isProcessed).2.1
    cases hbuffered : k.desk.router.pendingAckChecks[messageId]? with
    | none =>
      right
      unfold resumeAfterAckCheck
      rw [hbuffered]
      exact .refl _
    | some msg =>
      have hown : k.desk.router.OwnId msg := hcareful msg hbuffered
      cases isProcessed with
      | true =>
        right
        unfold resumeAfterAckCheck
        rw [hbuffered]
        exact ⟨fun _ _ hx => hx, fun _ _ _ => rfl⟩
      | false =>
        have hrouted := routeAfterAckCheck_routed S F m
          { k.desk.router with
            pendingAckChecks := k.desk.router.pendingAckChecks.erase messageId }
          k.desk.lifecycle msg
        have hrun : (k.step S F (.resume m messageId false)).1.desk.router =
            (routeAfterAckCheck S F m
              { k.desk.router with
                pendingAckChecks := k.desk.router.pendingAckChecks.erase messageId }
              k.desk.lifecycle msg).2.1 := by
          show (resumeAfterAckCheck S F m k.desk.router _ messageId false).2.1 = _
          unfold resumeAfterAckCheck
          rw [hbuffered]
          rfl
        rw [← hrun] at hrouted
        exact .inl ⟨_, msg, _, hown, hrouted⟩
  | drain clockMs envs contactId =>
    right
    show Shrinks _ (drainPending S F clockMs envs k.desk.router k.desk.lifecycle contactId).2.1
    rw [drainPending_of_settlesAll envs k.desk.router hcareful]
    exact shrinks_erase _ contactId
  | removePending contactId messageId => exact .inr (shrinks_removePending _ contactId messageId)
  | takePending contactId => exact .inr (shrinks_erase _ contactId)
  | lifecycle l => exact .inr (.refl _)

theorem step_timely (hcareful : k.Careful S F e) (h : Timely k.desk.router k.since) :
    Timely (k.step S F e).1.desk.router (k.step S F e).1.since := by
  rcases step_cases S F hcareful with ⟨buffer, msg, decision, hown, hrouted⟩ | ⟨hsub, harrived⟩
  · have hsame : Timely { k.desk.router with pendingAckChecks := buffer } k.since :=
      ⟨h.recorded, h.apart⟩
    exact hsame.routed hown hrouted
  · exact h.shrink _ hsub harrived e.clockMs

/-- After a careful call that enqueues a message for a device, what was first enqueued there past
the longest wait is gone. -/
theorem step_ages (hcareful : k.Careful S F e) (h : Timely k.desk.router k.since)
    {device id : Bytes}
    (hnew : (k.step S F e).1.desk.router.Holds device id ∧ ¬ k.desk.router.Holds device id)
    {x : IncomingMessage} (hx : x ∈ k.desk.router.queue device) {t : Nat}
    (ht : k.since device x.messageId = some t) (hage : maxPendingAgeMs < e.clockMs - t) :
    ¬ (k.step S F e).1.desk.router.Holds device x.messageId := by
  rcases step_cases S F hcareful with ⟨buffer, msg, decision, hown, hrouted⟩ | ⟨hsub, -⟩
  · generalize (k.step S F e).1.desk.router = r' at hnew hrouted ⊢
    cases hrouted with
    | answered _ _ | already _ | buffered => exact absurd hnew.1 hnew.2
    | refused _ =>
      obtain ⟨y, hy, hid⟩ := hnew.1
      rw [queue_setQueue] at hy
      split at hy
      · rename_i hd
        exact absurd ⟨y, hd ▸ (List.mem_filter.mp hy).1, hid⟩ hnew.2
      · exact absurd ⟨y, hy, hid⟩ hnew.2
    | queued _ hfresh _ =>
      rintro ⟨y, hy, hid⟩
      obtain ⟨z, hz, hzid⟩ := hnew.1
      rw [queue_arrive, queue_setQueue] at hy hz
      -- the queue that took the message is the device's
      by_cases hd : device = msg.contactId
      · rw [if_pos hd] at hy
        rcases List.mem_append.mp hy with hy | hy
        · obtain ⟨hmem, hkept⟩ := List.mem_filter.mp hy
          obtain ⟨t', hsince, hat⟩ := h.recorded device x hx
          obtain rfl := Option.some.inj (ht.symm.trans hsince)
          have hkept : fresh k.desk.router e.clockMs y = true := hkept
          unfold fresh at hkept
          rw [hid, hat] at hkept
          have hle := of_decide_eq_true hkept
          omega
        · rw [List.mem_singleton.mp hy] at hid
          exact hfresh x (hd ▸ hx) hid.symm
      · rw [if_neg hd] at hz
        exact hnew.2 ⟨z, hz, hzid⟩
  · obtain ⟨y, hy, hid⟩ := hnew.1
    exact absurd ⟨y, hsub device y hy, hid⟩ hnew.2

theorem run_timely (l : Lifecycle) {events : List RouterEvent}
    (hcareful : Machine.Along (step S F) (Careful S F) (new l) events) :
    Timely (Machine.run (step S F) (new l) events).desk.router
      (Machine.run (step S F) (new l) events).since := by
  refine @Machine.invariant_rule _ _ _ (step S F) (Careful S F)
    (fun k => Timely k.desk.router k.since) ?_ _ _ hcareful ?_
  · intro k e hcond hk
    exact step_timely S F hcond hk
  · have hempty : ∀ d, (new l).desk.router.queue d = [] := by
      intro d
      simp [new, Router.new, Router.queue]
    refine ⟨?_, ?_⟩
    · intro d x hx
      rw [hempty] at hx
      cases hx
    · rintro d d' id ⟨x, hx, -⟩ -
      rw [hempty] at hx
      cases hx

/-- A handshake that arrived within a window was first enqueued within it. -/
theorem exists_of_handshakeArrivedWithin {r : Router} {since : Since} (h : Timely r since)
    {clockMs windowMs : Nat} {devices : List Bytes}
    (hwithin : r.handshakeArrivedWithin clockMs devices windowMs = true) :
    ∃ device ∈ devices, ∃ x ∈ r.queue device, opensSession x = true ∧
      ∃ t, since device x.messageId = some t ∧ clockMs - t ≤ windowMs := by
  unfold handshakeArrivedWithin at hwithin
  obtain ⟨device, hdevice, hany⟩ := List.any_eq_true.mp hwithin
  obtain ⟨x, hx, hboth⟩ := List.any_eq_true.mp hany
  obtain ⟨hopener, hrecent⟩ := Bool.and_eq_true_iff.mp hboth
  obtain ⟨t, hsince, hat⟩ := h.recorded device x hx
  rw [hat] at hrecent
  exact ⟨device, hdevice, x, hx, hopener, t, hsince, of_decide_eq_true hrecent⟩

/-- An opener waits for a session; a reconnect after a hundred seconds drains its queue. -/
def reconnectCalls : List RouterEvent :=
  [.route ⟨1000, sampleMoment.env⟩ (Desk.sampleIncoming 1 true),
    .drain 101000 (fun _ => sampleMoment.env) [5]]

/-- Two openers a day apart, and no drain: the first is gone once the second is queued. -/
def waitingCalls : List RouterEvent :=
  [.route ⟨1000, sampleMoment.env⟩ (Desk.sampleIncoming 1 true)]

end WatchedDesk

end ConstructCore
