import ConstructCore.Lib.Machine
import ConstructCore.Orchestration.Instances

/-!
# The router neither loses nor duplicates messages

A desk is a router with the lifecycle manager it routes on. Its events are the router's calls,
each with the clock it reads; between two of them the rest of the device may put the
lifecycle manager into any state. A message leaves the desk by an answer, by being removed or
taken out of its queue, or by age, and the desk logs each message that leaves.

* `Routed`: all that routing one message can do to the router;
* `Accounted`: every message handed in is in one place, counted over the queues, the buffer,
  the log and the messages being routed right now;
* `Accounted.routed`: routing a message in hand finds it a place and moves no other, except
  that old messages of its queue may leave by age;
* `drainLoop_accounted`: a drain takes a whole queue in hand and routes it. What is queued
  carries a handshake header, so no decision ends the drain early; nothing ages, since what
  is queued again has just arrived.
-/

namespace ConstructCore

def RoutingDecision.answers : RoutingDecision → Bool
  | .decrypted .. | .duplicate .. | .decryptionErrorNeeded .. | .queueFull .. => true
  | _ => false

/-- How a message left the router. -/
inductive Fate where
  | answered (decision : RoutingDecision)
  | removed
  | taken
  /-- Dropped from its queue: the arrival on record, and the clock. -/
  | aged (arrivedAt : Option Nat) (clockMs : Nat)
deriving DecidableEq

/-- A router and the lifecycle manager it routes on. -/
structure Desk where
  router : Router
  lifecycle : Lifecycle

/-- The router's calls; `lifecycle` stands for what else happens on the device. -/
inductive RouterEvent where
  | route (m : Moment) (msg : IncomingMessage)
  | resume (m : Moment) (messageId : Bytes) (isProcessed : Bool)
  | drain (clockMs : Nat) (envs : Nat → Env) (contactId : Bytes)
  | removePending (contactId messageId : Bytes)
  | takePending (contactId : Bytes)
  | lifecycle (l : Lifecycle)

def handedIn (events : List RouterEvent) : List IncomingMessage :=
  events.filterMap fun
    | .route _ msg => some msg
    | _ => none

namespace Router

def missing (r r' : Router) (contactId : Bytes) : List IncomingMessage :=
  (r.queue contactId).filter fun x => decide (x ∉ r'.queue contactId)

def settle (msg : IncomingMessage) (decision : RoutingDecision) : List (IncomingMessage × Fate) :=
  if decision.answers then [(msg, .answered decision)] else []

/-- Log what routing a message did: what its queue lost, and the decision. -/
def routedLog (clockMs : Nat) (r r' : Router) (msg : IncomingMessage) (decision : RoutingDecision) :
    List (IncomingMessage × Fate) :=
  (missing r r' msg.contactId).map (fun x => (x, .aged r.arrivedAt[x.messageId]? clockMs)) ++
    settle msg decision

end Router

open Router

def Desk.step (S : Suite) (F : Cfe) (k : Desk) : RouterEvent → Desk × List (IncomingMessage × Fate)
  | .route m msg =>
    let (decision, r, l) := routeMessage S F m k.router k.lifecycle msg
    (⟨r, l⟩, routedLog m.clockMs k.router r msg decision)
  | .resume m messageId isProcessed =>
    let (decision, r, l) := resumeAfterAckCheck S F m k.router k.lifecycle messageId isProcessed
    (⟨r, l⟩, match k.router.pendingAckChecks[messageId]? with
      | none => []
      | some msg => routedLog m.clockMs k.router r msg decision)
  | .drain clockMs envs contactId =>
    let (decisions, r, l) := drainPending S F clockMs envs k.router k.lifecycle contactId
    (⟨r, l⟩, ((k.router.queue contactId).zip decisions).flatMap fun p => settle p.1 p.2)
  | .removePending contactId messageId =>
    let r := k.router.removePending contactId messageId
    (⟨r, k.lifecycle⟩, (missing k.router r contactId).map fun x => (x, .removed))
  | .takePending contactId =>
    let (taken, r) := k.router.takePending contactId
    (⟨r, k.lifecycle⟩, taken.map fun x => (x, .taken))
  | .lifecycle l => (⟨k.router, l⟩, [])

namespace Router

/-! ## Queues after an update -/

def setQueue (r : Router) (contactId : Bytes) (queue : List IncomingMessage) : Router :=
  { r with pendingQueues := r.pendingQueues.insert contactId queue }

def arrive (r : Router) (messageId : Bytes) (clockMs : Nat) : Router :=
  { r with arrivedAt := r.arrivedAt.insert messageId clockMs }

def buffer (r : Router) (msg : IncomingMessage) : Router :=
  { r with pendingAckChecks := r.pendingAckChecks.insert msg.messageId msg }

def unbuffer (r : Router) (messageId : Bytes) : Router :=
  { r with pendingAckChecks := r.pendingAckChecks.erase messageId }

section Lookup

variable (r : Router)

@[simp] theorem queue_arrive (id d : Bytes) (clockMs : Nat) :
    (r.arrive id clockMs).queue d = r.queue d := rfl

@[simp] theorem queue_buffer (msg : IncomingMessage) (d : Bytes) :
    (r.buffer msg).queue d = r.queue d := rfl

theorem lookup_buffer (msg : IncomingMessage) (id : Bytes) :
    (r.buffer msg).pendingAckChecks[id]? =
      if id = msg.messageId then some msg else r.pendingAckChecks[id]? :=
  Table.lookup_insert r.pendingAckChecks msg.messageId id msg

theorem lookup_unbuffer (messageId id : Bytes) :
    (r.unbuffer messageId).pendingAckChecks[id]? =
      if id = messageId then none else r.pendingAckChecks[id]? :=
  Table.lookup_erase r.pendingAckChecks messageId id

theorem queue_setQueue (c d : Bytes) (q : List IncomingMessage) :
    (r.setQueue c q).queue d = if d = c then q else r.queue d := by
  unfold queue setQueue
  rw [Table.lookup_insert]
  split <;> rfl

theorem queue_erase (c d : Bytes) :
    queue { r with pendingQueues := r.pendingQueues.erase c } d =
      if d = c then [] else r.queue d := by
  unfold queue
  rw [Table.lookup_erase]
  split <;> rfl

@[simp] theorem queue_pruneArrivals (d : Bytes) :
    r.pruneArrivals.queue d = r.queue d := rfl

@[simp] theorem pendingAckChecks_pruneArrivals :
    r.pruneArrivals.pendingAckChecks = r.pendingAckChecks := rfl

@[simp] theorem maxPendingPerUser_pruneArrivals :
    r.pruneArrivals.maxPendingPerUser = r.maxPendingPerUser := rfl

theorem queue_removePending (c id d : Bytes) :
    (r.removePending c id).queue d =
      if d = c then (r.queue c).filter fun x => x.messageId != id else r.queue d := by
  unfold removePending
  rw [queue_pruneArrivals]
  cases hc : r.pendingQueues[c]? with
  | none =>
    have hq : r.queue c = [] := by rw [queue, hc]; rfl
    by_cases hd : d = c
    · rw [if_pos hd, hd, hq, List.filter_nil]
    · rw [if_neg hd]
  | some q =>
    have hq : r.queue c = q := by rw [queue, hc]; rfl
    rw [hq]
    dsimp only
    by_cases he : (q.filter fun x => x.messageId != id).isEmpty = true
    · rw [if_pos he, queue_erase, List.isEmpty_iff.mp he]
    · rw [if_neg he]
      exact queue_setQueue r c d _

theorem removePending_pendingAckChecks (c id : Bytes) :
    (r.removePending c id).pendingAckChecks = r.pendingAckChecks := by
  unfold removePending
  rw [pendingAckChecks_pruneArrivals]
  cases r.pendingQueues[c]? <;> rfl

theorem removePending_maxPendingPerUser (c id : Bytes) :
    (r.removePending c id).maxPendingPerUser = r.maxPendingPerUser := by
  unfold removePending
  rw [maxPendingPerUser_pruneArrivals]
  cases r.pendingQueues[c]? <;> rfl

end Lookup

/-! ## Routing one message -/

/-- All that routing a message can do to the router. -/
inductive Routed (clockMs : Nat) (r : Router) (msg : IncomingMessage) :
    RoutingDecision → Router → Prop
  /-- Answered without touching the router. -/
  | answered {decision : RoutingDecision} (h : decision.answers = true)
      (hopener : opensSession msg = true → decision.isDecryptionError = false) :
      Routed clockMs r msg decision r
  /-- Its id is queued already. -/
  | already {n : Nat} (h : ∃ q ∈ r.queue msg.contactId, q.messageId = msg.messageId) :
      Routed clockMs r msg (.needSessionInit msg.contactId n) r
  /-- Its queue is full of messages that have not aged. -/
  | refused (h : r.maxPendingPerUser ≤ ((r.queue msg.contactId).filter (r.fresh clockMs)).length) :
      Routed clockMs r msg (.queueFull msg.contactId)
        (r.setQueue msg.contactId ((r.queue msg.contactId).filter (r.fresh clockMs)))
  | queued {n : Nat} (hopener : opensSession msg = true)
      (hnew : ∀ q ∈ r.queue msg.contactId, q.messageId ≠ msg.messageId)
      (h : ((r.queue msg.contactId).filter (r.fresh clockMs)).length < r.maxPendingPerUser) :
      Routed clockMs r msg (.needSessionInit msg.contactId n)
        ((r.setQueue msg.contactId ((r.queue msg.contactId).filter (r.fresh clockMs) ++ [msg])).arrive
          msg.messageId clockMs)
  | buffered :
      Routed clockMs r msg (.pendingAckCheck msg.messageId) (r.buffer msg)

variable {msg : IncomingMessage} {r r' : Router} {c : Bytes} {clockMs : Nat}
  {decision : RoutingDecision} {out : List (IncomingMessage × Fate)}

theorem enqueueOrReject_routed (clockMs : Nat) (r : Router) (hopener : opensSession msg = true) :
    Routed clockMs r msg (r.enqueueOrReject clockMs msg).1 (r.enqueueOrReject clockMs msg).2 := by
  unfold enqueueOrReject
  dsimp only
  by_cases hsame : ((r.queue msg.contactId).any fun q => q.messageId == msg.messageId) = true
  · rw [if_pos hsame]
    refine .already ?_
    simpa using hsame
  · rw [if_neg hsame]
    by_cases hfull :
        r.maxPendingPerUser ≤ ((r.queue msg.contactId).filter (r.fresh clockMs)).length
    · rw [if_pos hfull]
      exact .refused hfull
    · rw [if_neg hfull]
      exact .queued hopener (by simpa using hsame) (by omega)

variable (S : Suite) (F : Cfe)

theorem routeAfterAckCheck_routed (m : Moment) (r : Router) (l : Lifecycle)
    (msg : IncomingMessage) :
    Routed m.clockMs r msg (routeAfterAckCheck S F m r l msg).1
      (routeAfterAckCheck S F m r l msg).2.1 := by
  unfold routeAfterAckCheck
  dsimp only
  by_cases hwait : (opensSession msg && !l.hasActiveSession msg.contactId) = true
  · rw [if_pos hwait]
    exact enqueueOrReject_routed m.clockMs r (Bool.and_eq_true_iff.mp hwait).1
  · rw [if_neg hwait]
    cases l.decryptWirePayload S F m msg.contactId msg.wirePayload with
    | ok result l' => exact .answered rfl fun _ => rfl
    | error e l' =>
      dsimp only
      by_cases hconsumed : e.isConsumed = true
      · rw [if_pos hconsumed]
        exact .answered rfl fun _ => rfl
      · rw [if_neg hconsumed]
        by_cases hopener : opensSession msg = true
        · rw [if_pos hopener]
          exact enqueueOrReject_routed m.clockMs r hopener
        · rw [if_neg hopener]
          exact .answered rfl fun h => absurd h hopener

theorem routeMessage_routed (m : Moment) (r : Router) (l : Lifecycle) (msg : IncomingMessage) :
    Routed m.clockMs r msg (routeMessage S F m r l msg).1 (routeMessage S F m r l msg).2.1 := by
  unfold routeMessage
  cases l.ackStore.isProcessed msg.messageId with
  | inCache => exact .answered rfl fun _ => rfl
  | needDbCheck => exact .buffered
  | notProcessed => exact routeAfterAckCheck_routed S F m r l msg

/-! ## Counting the places of a message -/

def waiting (r : Router) (x : IncomingMessage) : Nat :=
  if r.pendingAckChecks[x.messageId]? = some x then 1 else 0

def places (r : Router) (x : IncomingMessage) : Nat :=
  (r.queue x.contactId).count x + r.waiting x

@[simp] theorem waiting_setQueue (r : Router) (c : Bytes) (q : List IncomingMessage)
    (x : IncomingMessage) : (r.setQueue c q).waiting x = r.waiting x := rfl

@[simp] theorem waiting_arrive (r : Router) (id : Bytes) (clockMs : Nat) (x : IncomingMessage) :
    (r.arrive id clockMs).waiting x = r.waiting x := rfl

def Absent (r : Router) (id : Bytes) : Prop :=
  (∀ d, ∀ q ∈ r.queue d, q.messageId ≠ id) ∧ r.pendingAckChecks[id]? = none

theorem missing_of_queue_eq (h : r'.queue c = r.queue c) :
    missing r r' c = [] :=
  List.filter_eq_nil_iff.mpr fun x hx => by simpa [h] using hx

theorem missing_erase (r : Router) (c : Bytes) :
    missing r { r with pendingQueues := r.pendingQueues.erase c } c = r.queue c := by
  unfold missing
  rw [queue_erase, if_pos rfl]
  simp

/-- A queue that drops some messages and takes new ones: every message is still counted, once
those that are missing are. -/
theorem count_add_missing (r' : Router) (p : IncomingMessage → Bool) {added : List IncomingMessage}
    (hc : r'.queue c = (r.queue c).filter p ++ added) (hother : ∀ d ≠ c, r'.queue d = r.queue d)
    (hfiled : ∀ x ∈ r.queue c, x.contactId = c) (hadded : ∀ x ∈ added, x.contactId = c)
    (hnew : ∀ x ∈ r.queue c, x ∉ added) (x : IncomingMessage) :
    (r'.queue x.contactId).count x + (missing r r' c).count x =
      (r.queue x.contactId).count x + added.count x := by
  have hmissing : missing r r' c = (r.queue c).filter fun y => !p y := by
    refine List.filter_congr fun y hy => ?_
    rw [hc]
    cases hp : p y with
    | true => simp [hy, hp]
    | false => simp [hp, hnew y hy]
  by_cases hx : x.contactId = c
  · have hsplit := (List.filter_append_perm p (r.queue c)).count_eq x
    rw [List.count_append] at hsplit
    rw [hx, hc, hmissing, List.count_append]
    omega
  · have hmissing0 : (missing r r' c).count x = 0 := by
      refine List.count_eq_zero.mpr fun hmem => hx (hfiled x ?_)
      exact (List.mem_filter.mp hmem).1
    have hadded0 : added.count x = 0 := List.count_eq_zero.mpr fun hmem => hx (hadded x hmem)
    rw [hother _ hx, hmissing0, hadded0]

theorem map_fst_map_mk (xs : List IncomingMessage) (fate : IncomingMessage → Fate) :
    (xs.map fun x => (x, fate x)).map Prod.fst = xs := by
  rw [List.map_map]
  exact List.map_id _

theorem map_fst_routedLog (clockMs : Nat) (r r' : Router) (msg : IncomingMessage)
    (decision : RoutingDecision) :
    (routedLog clockMs r r' msg decision).map Prod.fst =
      missing r r' msg.contactId ++ if decision.answers then [msg] else [] := by
  unfold routedLog settle
  rw [List.map_append, map_fst_map_mk]
  congr 1
  cases decision.answers <;> rfl

/-- Routing gives the message a place or an answer, and moves another only out of its queue. -/
theorem Routed.places_add (h : Routed clockMs r msg decision r')
    (hfiled : ∀ x ∈ r.queue msg.contactId, x.contactId = msg.contactId)
    (habsent : Absent r msg.messageId) (x : IncomingMessage) :
    places r' x + ((routedLog clockMs r r' msg decision).map Prod.fst).count x =
      places r x + [msg].count x := by
  rw [map_fst_routedLog, List.count_append]
  cases h with
  | answered hanswers _ =>
    rw [missing_of_queue_eq rfl, hanswers]
    simp
  | already hsame =>
    obtain ⟨q, hq, hid⟩ := hsame
    exact absurd hid (habsent.1 _ q hq)
  | refused _ =>
    have hcount := count_add_missing
      (r.setQueue msg.contactId ((r.queue msg.contactId).filter (r.fresh clockMs)))
      (r.fresh clockMs) (by rw [queue_setQueue, if_pos rfl, List.append_nil])
      (fun d hd => by rw [queue_setQueue, if_neg hd]) hfiled (by simp) (by simp) x
    simp only [RoutingDecision.answers, if_true, List.count_nil] at hcount ⊢
    simp only [places, waiting_setQueue]
    omega
  | queued _ _ _ =>
    have hcount := count_add_missing
      ((r.setQueue msg.contactId
        ((r.queue msg.contactId).filter (r.fresh clockMs) ++ [msg])).arrive msg.messageId clockMs)
      (r.fresh clockMs) (by rw [queue_arrive, queue_setQueue, if_pos rfl])
      (fun d hd => by rw [queue_arrive, queue_setQueue, if_neg hd]) hfiled
      (fun y hy => by rw [List.mem_singleton.mp hy])
      (fun y hy hmem => habsent.1 _ y hy (by rw [List.mem_singleton.mp hmem])) x
    simp only [RoutingDecision.answers, Bool.false_eq_true, if_false, List.count_nil] at hcount ⊢
    simp only [places, waiting_arrive, waiting_setQueue]
    omega
  | buffered =>
    have hmissing : missing r (r.buffer msg) msg.contactId = [] := missing_of_queue_eq rfl
    rw [hmissing]
    simp only [RoutingDecision.answers, places, waiting, queue_buffer, lookup_buffer, List.count_nil,
      Bool.false_eq_true, if_false, List.count_singleton, beq_iff_eq]
    by_cases hid : x.messageId = msg.messageId
    · rw [if_pos hid, hid, habsent.2]
      simp
    · have hx : msg ≠ x := fun h => hid (by rw [h])
      simp [if_neg hid, hx]

/-! ## The accounts -/

/-- Every message handed in is in one place: a queue, the buffer, in hand, or in the log. -/
structure Accounted (handed inHand : List IncomingMessage) (r : Router)
    (out : List (IncomingMessage × Fate)) : Prop where
  ids : (handed.map (·.messageId)).Nodup
  queued : ∀ d, ∀ x ∈ r.queue d, x ∈ handed ∧ x.contactId = d ∧ opensSession x = true
  buffered : ∀ id x, r.pendingAckChecks[id]? = some x → x ∈ handed ∧ x.messageId = id
  held : ∀ x ∈ inHand, x ∈ handed
  left : ∀ x ∈ out.map Prod.fst, x ∈ handed
  once : ∀ x ∈ handed, places r x + inHand.count x + (out.map Prod.fst).count x = 1
  bound : ∀ d, (r.queue d).length ≤ r.maxPendingPerUser
  limit : r.maxPendingPerUser = ConstructCore.maxPendingPerUser

namespace Accounted

variable {handed inHand : List IncomingMessage} {r r' : Router}
  {out : List (IncomingMessage × Fate)} {msg : IncomingMessage} {clockMs : Nat}
  {decision : RoutingDecision}

theorem eq_of_id (h : Accounted handed inHand r out) {x y : IncomingMessage} (hx : x ∈ handed)
    (hy : y ∈ handed) (hid : x.messageId = y.messageId) : x = y :=
  List.inj_on_of_nodup_map h.ids hx hy hid

theorem filed (h : Accounted handed inHand r out) (c : Bytes) :
    ∀ x ∈ r.queue c, x.contactId = c := fun x hx => (h.queued c x hx).2.1

theorem absent (h : Accounted handed (msg :: inHand) r out) : Absent r msg.messageId := by
  have hmsg : msg ∈ handed := h.held msg List.mem_cons_self
  have honce := h.once msg hmsg
  rw [List.count_cons_self] at honce
  have hplaces : places r msg = 0 := by omega
  unfold places at hplaces
  constructor
  · intro d q hq hid
    obtain ⟨hq', hd, _⟩ := h.queued d q hq
    obtain rfl := h.eq_of_id hq' hmsg hid
    have hpos : 0 < (r.queue q.contactId).count q := List.count_pos_iff.mpr (hd ▸ hq)
    omega
  · cases hb : r.pendingAckChecks[msg.messageId]? with
    | none => rfl
    | some x =>
      obtain ⟨hx, hid⟩ := h.buffered _ x hb
      obtain rfl := h.eq_of_id hx hmsg hid
      rw [waiting, if_pos hb] at hplaces
      omega

theorem routed (h : Accounted handed (msg :: inHand) r out)
    (hrouted : Routed clockMs r msg decision r') :
    Accounted handed inHand r' (out ++ routedLog clockMs r r' msg decision) := by
  have hmsg : msg ∈ handed := h.held msg List.mem_cons_self
  have hplaces := hrouted.places_add (h.filed _) h.absent
  refine
    { ids := h.ids
      queued := ?_
      buffered := ?_
      held := fun x hx => h.held x (List.mem_cons_of_mem _ hx)
      left := ?_
      once := ?_
      bound := ?_
      limit := ?_ }
  · intro d x hx
    cases hrouted with
    | answered | already | buffered => exact h.queued d x hx
    | refused _ =>
      rw [queue_setQueue] at hx
      split at hx
      · rename_i hd
        exact hd ▸ h.queued _ x (List.mem_filter.mp hx).1
      · exact h.queued d x hx
    | queued hopener _ _ =>
      rw [queue_arrive, queue_setQueue] at hx
      split at hx
      · rename_i hd
        rcases List.mem_append.mp hx with hold | hnew
        · exact hd ▸ h.queued _ x (List.mem_filter.mp hold).1
        · rw [List.mem_singleton.mp hnew]
          exact ⟨hmsg, hd.symm, hopener⟩
      · exact h.queued d x hx
  · intro id x hx
    cases hrouted with
    | answered | already | refused | queued => exact h.buffered id x hx
    | buffered =>
      rw [lookup_buffer] at hx
      split at hx
      · rename_i hid
        obtain rfl := Option.some.inj hx
        exact ⟨hmsg, hid.symm⟩
      · exact h.buffered id x hx
  · intro x hx
    rw [List.map_append, map_fst_routedLog, List.mem_append, List.mem_append] at hx
    rcases hx with hx | hx | hx
    · exact h.left x hx
    · exact (h.queued _ x (List.mem_filter.mp hx).1).1
    · split at hx
      · rw [List.mem_singleton.mp hx]
        exact hmsg
      · cases hx
  · intro x hx
    have honce := h.once x hx
    have := hplaces x
    rw [List.map_append, List.count_append]
    rw [List.count_cons] at honce
    rw [List.count_singleton] at this
    omega
  · intro d
    cases hrouted with
    | answered | already | buffered => exact h.bound d
    | refused _ =>
      rw [queue_setQueue]
      split
      · exact (List.length_filter_le _ _).trans (h.bound _)
      · exact h.bound d
    | queued _ _ hroom =>
      rw [queue_arrive, queue_setQueue]
      split
      · rw [List.length_append, List.length_singleton]
        exact hroom
      · exact h.bound d
  · cases hrouted <;> exact h.limit

/-- Queues that only lose messages keep the accounts, once what they lost is in hand or in the
log. -/
theorem shrunk (h : Accounted handed [] r out) (c : Bytes) (p : IncomingMessage → Bool)
    {more : List (IncomingMessage × Fate)}
    (hqueue : ∀ d, r'.queue d = if d = c then (r.queue c).filter p else r.queue d)
    (hbuffer : r'.pendingAckChecks = r.pendingAckChecks)
    (hlimit : r'.maxPendingPerUser = r.maxPendingPerUser)
    (hmoved : inHand ++ more.map Prod.fst = missing r r' c) :
    Accounted handed inHand r' (out ++ more) := by
  have hsub : ∀ x ∈ missing r r' c, x ∈ handed := fun x hx =>
    (h.queued c x (List.mem_filter.mp hx).1).1
  refine
    { ids := h.ids
      queued := ?_
      buffered := fun id x hx => h.buffered id x (hbuffer ▸ hx)
      held := fun x hx => hsub x (hmoved ▸ List.mem_append_left _ hx)
      left := ?_
      once := ?_
      bound := ?_
      limit := hlimit.trans h.limit }
  · intro d x hx
    rw [hqueue] at hx
    split at hx
    · rename_i hd
      exact hd ▸ h.queued c x (List.mem_filter.mp hx).1
    · exact h.queued d x hx
  · intro x hx
    rw [List.map_append] at hx
    rcases List.mem_append.mp hx with hold | hnew
    · exact h.left x hold
    · exact hsub x (hmoved ▸ List.mem_append_right _ hnew)
  · intro x hx
    have honce := h.once x hx
    have hcount := count_add_missing r' p (by rw [hqueue, if_pos rfl, List.append_nil])
      (fun d hd => by rw [hqueue, if_neg hd]) (h.filed c) (by simp) (by simp) x
    have hwaiting : r'.waiting x = r.waiting x := by rw [waiting, waiting, hbuffer]
    rw [← hmoved, List.count_append] at hcount
    rw [List.count_nil] at honce hcount
    unfold places at honce ⊢
    rw [List.map_append, List.count_append, hwaiting]
    omega
  · intro d
    rw [hqueue, hlimit]
    split
    · exact (List.length_filter_le _ _).trans (h.bound c)
    · exact h.bound d

theorem unbuffered (h : Accounted handed [] r out)
    (hmsg : r.pendingAckChecks[msg.messageId]? = some msg) :
    Accounted handed [msg] (r.unbuffer msg.messageId) out := by
  refine
    { ids := h.ids
      queued := h.queued
      buffered := ?_
      held := fun x hx => List.mem_singleton.mp hx ▸ (h.buffered _ msg hmsg).1
      left := h.left
      once := ?_
      bound := h.bound
      limit := h.limit }
  · intro id x hx
    rw [lookup_unbuffer] at hx
    split at hx
    · cases hx
    · exact h.buffered id x hx
  · intro x hx
    have honce := h.once x hx
    have hwaiting : (r.unbuffer msg.messageId).waiting x + [msg].count x = r.waiting x := by
      unfold waiting
      rw [lookup_unbuffer]
      by_cases hid : x.messageId = msg.messageId
      · obtain rfl := h.eq_of_id hx (h.buffered _ msg hmsg).1 hid
        rw [if_pos rfl, hmsg]
        simp
      · have hne : msg ≠ x := fun h => hid (by rw [h])
        simp [if_neg hid, hne]
    rw [List.count_nil] at honce
    unfold places at honce ⊢
    show (r.queue x.contactId).count x + _ + _ + _ = 1
    omega

theorem handIn (h : Accounted handed [] r out)
    (hids : ((handed ++ [msg]).map (·.messageId)).Nodup) :
    Accounted (handed ++ [msg]) [msg] r out := by
  have hnew : msg ∉ handed := fun hmem =>
    (List.nodup_append.mp (List.Nodup.of_map _ hids)).2.2 msg hmem msg
      (List.mem_singleton_self msg) rfl
  have hqueue : (r.queue msg.contactId).count msg = 0 :=
    List.count_eq_zero.mpr fun hmem => hnew (h.queued _ msg hmem).1
  have hbuffer : r.waiting msg = 0 := if_neg fun hmem => hnew (h.buffered _ msg hmem).1
  have hout : (out.map Prod.fst).count msg = 0 :=
    List.count_eq_zero.mpr fun hmem => hnew (h.left msg hmem)
  exact
    { ids := hids
      queued := fun d x hx =>
        ⟨List.mem_append_left _ (h.queued d x hx).1, (h.queued d x hx).2⟩
      buffered := fun id x hx =>
        ⟨List.mem_append_left _ (h.buffered id x hx).1, (h.buffered id x hx).2⟩
      held := fun x hx => List.mem_append_right _ hx
      left := fun x hx => List.mem_append_left _ (h.left x hx)
      once := fun x hx => by
        rcases List.mem_append.mp hx with hold | hmsg
        · have hne : msg ≠ x := fun heq => hnew (heq ▸ hold)
          have honce := h.once x hold
          rw [List.count_nil] at honce
          rw [List.count_singleton, if_neg (by simpa using hne)]
          exact honce
        · obtain rfl := List.mem_singleton.mp hmsg
          rw [places, hqueue, hbuffer, hout, List.count_singleton_self]
      bound := h.bound
      limit := h.limit }

theorem nodup_queue (h : Accounted handed inHand r out) (d : Bytes) :
    ((r.queue d).map (·.messageId)).Nodup := by
  refine List.Nodup.map_on (fun x hx y hy hid =>
    h.eq_of_id (h.queued d x hx).1 (h.queued d y hy).1 hid) ?_
  refine List.nodup_iff_count_le_one.mpr fun x => ?_
  by_cases hx : x ∈ r.queue d
  · obtain ⟨hmem, hc, _⟩ := h.queued d x hx
    have honce := h.once x hmem
    rw [places, hc] at honce
    omega
  · rw [List.count_eq_zero.mpr hx]
    exact Nat.zero_le 1

end Accounted

/-! ## Draining a queue -/

theorem Routed.isDecryptionError_eq_false (h : Routed clockMs r msg decision r')
    (hopener : opensSession msg = true) : decision.isDecryptionError = false := by
  cases h with
  | answered _ hnot => exact hnot hopener
  | already | refused | queued | buffered => rfl

/-- Routing on a queue that has room and in which nothing has aged takes nothing out of it. -/
theorem Routed.queue_eq_append (h : Routed clockMs r msg decision r')
    (hfresh : ∀ x ∈ r.queue msg.contactId, r.fresh clockMs x = true)
    (hroom : (r.queue msg.contactId).length < r.maxPendingPerUser) :
    ∃ added, added.Sublist [msg] ∧ r'.queue msg.contactId = r.queue msg.contactId ++ added ∧
      (∀ x ∈ r'.queue msg.contactId, r'.fresh clockMs x = true) ∧
      r'.maxPendingPerUser = r.maxPendingPerUser := by
  have hkept : (r.queue msg.contactId).filter (r.fresh clockMs) = r.queue msg.contactId :=
    List.filter_eq_self.mpr hfresh
  cases h with
  | answered | already | buffered =>
    exact ⟨[], List.nil_sublist _, (List.append_nil _).symm, hfresh, rfl⟩
  | refused hfull =>
    rw [hkept] at hfull
    omega
  | queued _ _ _ =>
    rw [hkept]
    have hqueue : ((r.setQueue msg.contactId (r.queue msg.contactId ++ [msg])).arrive
        msg.messageId clockMs).queue msg.contactId = r.queue msg.contactId ++ [msg] := by
      rw [queue_arrive, queue_setQueue, if_pos rfl]
    refine ⟨[msg], List.Sublist.refl _, hqueue, fun x hx => ?_, rfl⟩
    rw [hqueue] at hx
    -- What was just queued has just arrived; the arrival of the others is as it was.
    have hlookup : ((r.setQueue msg.contactId (r.queue msg.contactId ++ [msg])).arrive
        msg.messageId clockMs).arrivedAt[x.messageId]? =
        if x.messageId = msg.messageId then some clockMs else r.arrivedAt[x.messageId]? :=
      Table.lookup_insert r.arrivedAt msg.messageId x.messageId clockMs
    unfold fresh
    rw [hlookup]
    by_cases hid : x.messageId = msg.messageId
    · simp [if_pos hid]
    · rw [if_neg hid]
      rcases List.mem_append.mp hx with hold | hnew
      · exact hfresh x hold
      · exact absurd (by rw [List.mem_singleton.mp hnew]) hid

variable {handed : List IncomingMessage}

theorem drainLoop_accounted (clockMs : Nat) (envs : Nat → Env) (rest : List IncomingMessage)
    (l : Lifecycle) (h : Accounted handed rest r out)
    (hrest : ∀ x ∈ rest, x.contactId = c ∧ opensSession x = true)
    (hfresh : ∀ x ∈ r.queue c, r.fresh clockMs x = true)
    (hroom : (r.queue c).length + rest.length ≤ r.maxPendingPerUser) :
    let res := drainLoop S F clockMs envs rest r l
    res.2.1 = [] ∧
      Accounted handed [] res.2.2.1 (out ++ (rest.zip res.1).flatMap fun p => settle p.1 p.2) ∧
      ∃ stay : List IncomingMessage, stay.Sublist rest ∧ res.2.2.1.queue c = r.queue c ++ stay := by
  induction rest generalizing envs r l out with
  | nil =>
    refine ⟨rfl, ?_, [], List.Sublist.refl _, (List.append_nil _).symm⟩
    rw [List.zip_nil_left, List.flatMap_nil, List.append_nil]
    exact h
  | cons msg rest ih =>
    obtain ⟨hc, hopener⟩ := hrest msg List.mem_cons_self
    have hrouted := routeMessage_routed S F ⟨clockMs, envs 0⟩ r l msg
    rw [List.length_cons] at hroom
    obtain ⟨added, hadded, hqueue, hfresh', hlimit⟩ :=
      hrouted.queue_eq_append (hc ▸ hfresh) (by rw [hc]; omega)
    have hmissing : missing r (routeMessage S F ⟨clockMs, envs 0⟩ r l msg).2.1 msg.contactId = [] :=
      List.filter_eq_nil_iff.mpr fun x hx => by simp [hqueue, hx]
    have haccounts := h.routed hrouted
    rw [routedLog, hmissing, List.map_nil, List.nil_append] at haccounts
    have hlen : added.length ≤ 1 := hadded.length_le
    rw [hc] at hqueue hfresh'
    obtain ⟨htail, hout, stay, hstay, hfinal⟩ := ih (fun i => envs (i + 1))
      (routeMessage S F ⟨clockMs, envs 0⟩ r l msg).2.2 haccounts
      (fun x hx => hrest x (List.mem_cons_of_mem _ hx)) hfresh'
      (by rw [hqueue, List.length_append, hlimit]; omega)
    unfold drainLoop
    simp only [hrouted.isDecryptionError_eq_false hopener, Bool.false_eq_true, if_false]
    refine ⟨htail, ?_, added ++ stay, ?_, ?_⟩
    · rw [List.zip_cons_cons, List.flatMap_cons, ← List.append_assoc]
      exact hout
    · exact hadded.append hstay
    · rw [hfinal, hqueue, List.append_assoc]

theorem drainPending_accounted (clockMs : Nat) (envs : Nat → Env) (l : Lifecycle) (c : Bytes)
    (h : Accounted handed [] r out) :
    let res := drainPending S F clockMs envs r l c
    Accounted handed [] res.2.1
        (out ++ ((r.queue c).zip res.1).flatMap fun p => settle p.1 p.2) ∧
      (res.2.1.queue c).Sublist (r.queue c) := by
  have hempty : ({ r with pendingQueues := r.pendingQueues.erase c } : Router).queue c = [] := by
    rw [queue_erase, if_pos rfl]
  have hinHand : Accounted handed (r.queue c)
      { r with pendingQueues := r.pendingQueues.erase c } out := by
    have hshrunk : Accounted handed (r.queue c)
        { r with pendingQueues := r.pendingQueues.erase c } (out ++ []) :=
      h.shrunk c (fun _ => false) (fun d => by rw [queue_erase, List.filter_false]) rfl rfl
        (by rw [missing_erase, List.map_nil, List.append_nil])
    rwa [List.append_nil] at hshrunk
  obtain ⟨htail, haccounts, stay, hstay, hqueue⟩ := drainLoop_accounted S F clockMs envs (c := c)
    (r.queue c) l hinHand (fun x hx => (h.queued c x hx).2) (by rw [hempty]; simp)
    (by rw [hempty]; simpa using h.bound c)
  unfold drainPending
  dsimp only
  rw [htail, List.isEmpty_nil, if_pos rfl]
  refine ⟨⟨haccounts.ids, haccounts.queued, haccounts.buffered, haccounts.held, haccounts.left,
    haccounts.once, haccounts.bound, haccounts.limit⟩, ?_⟩
  rw [queue_pruneArrivals, hqueue, hempty, List.nil_append]
  exact hstay

/-! ## What leaves by age is old -/

/-- A queue loses a message to routing only when its recorded arrival is too long ago. -/
theorem Routed.missing_aged (h : Routed clockMs r msg decision r') {x : IncomingMessage}
    (hx : x ∈ missing r r' msg.contactId) :
    ∃ arrived, r.arrivedAt[x.messageId]? = some arrived ∧ maxPendingAgeMs < clockMs - arrived := by
  obtain ⟨hmem, hgone⟩ := List.mem_filter.mp hx
  have hstale : r.fresh clockMs x = false := by
    cases h with
    | answered | already | buffered => exact absurd hmem (of_decide_eq_true hgone)
    | refused _ =>
      rw [queue_setQueue, if_pos rfl] at hgone
      simpa [hmem] using hgone
    | queued _ _ _ =>
      rw [queue_arrive, queue_setQueue, if_pos rfl] at hgone
      simp only [List.mem_append, List.mem_filter, hmem, true_and, List.mem_singleton, not_or,
        decide_eq_true_eq] at hgone
      exact Bool.eq_false_iff.mpr hgone.1
  unfold fresh at hstale
  cases harrived : r.arrivedAt[x.messageId]? with
  | none => simp [harrived] at hstale
  | some arrived =>
    rw [harrived] at hstale
    exact ⟨arrived, rfl, Nat.lt_of_not_le (of_decide_eq_false hstale)⟩

end Router

/-- What the log says of a message that left is so: an answer settles it, and what left by age
had been in its queue for longer than `MAX_PENDING_AGE_MS`. -/
def Fate.Settles : Fate → Prop
  | .answered decision => decision.answers = true
  | .removed | .taken => True
  | .aged arrivedAt clockMs =>
    ∃ arrived, arrivedAt = some arrived ∧ maxPendingAgeMs < clockMs - arrived

theorem settle_settles (msg : IncomingMessage) (decision : RoutingDecision) :
    ∀ e ∈ settle msg decision, e.2.Settles := by
  intro e he
  unfold settle at he
  split at he
  · rename_i hanswers
    rw [List.mem_singleton.mp he]
    exact hanswers
  · cases he

theorem Router.Routed.log_settles {clockMs : Nat} {r r' : Router} {msg : IncomingMessage}
    {decision : RoutingDecision} (h : Routed clockMs r msg decision r') :
    ∀ e ∈ routedLog clockMs r r' msg decision, e.2.Settles := by
  intro e he
  rcases List.mem_append.mp he with hmissing | hsettled
  · obtain ⟨x, hx, rfl⟩ := List.mem_map.mp hmissing
    exact h.missing_aged hx
  · exact settle_settles msg decision e hsettled

/-! ## Runs -/

namespace Desk

variable (S : Suite) (F : Cfe) {handed : List IncomingMessage} {k : Desk}
  {out : List (IncomingMessage × Fate)}

def Balanced (handed : List IncomingMessage) (k : Desk) (out : List (IncomingMessage × Fate)) :
    Prop :=
  Accounted handed [] k.router out ∧ ∀ e ∈ out, e.2.Settles

theorem Balanced.nil (l : Lifecycle) : Balanced [] ⟨Router.new, l⟩ [] := by
  have hqueue : ∀ d, Router.new.queue d = [] := fun d => by
    unfold queue Router.new
    simp
  refine ⟨?_, fun e he => (nomatch he)⟩
  exact
    { ids := List.nodup_nil
      queued := fun d x hx => by rw [hqueue] at hx; cases hx
      buffered := fun id x hx => by simp [Router.new] at hx
      held := fun x hx => (nomatch hx)
      left := fun x hx => (nomatch hx)
      once := fun x hx => (nomatch hx)
      bound := fun d => by rw [hqueue]; exact Nat.zero_le _
      limit := rfl }

variable {msg : IncomingMessage}

theorem Balanced.routed {r r' : Router} {clockMs : Nat} {decision : RoutingDecision}
    (h : Accounted handed [msg] r out) (hout : ∀ e ∈ out, e.2.Settles)
    (hrouted : Routed clockMs r msg decision r') (l : Lifecycle) :
    Balanced handed ⟨r', l⟩ (out ++ routedLog clockMs r r' msg decision) :=
  ⟨h.routed hrouted, List.forall_mem_append.mpr ⟨hout, hrouted.log_settles⟩⟩

section Step

variable (h : Balanced handed k out)

include h

theorem balanced_route (m : Moment) (hids : ((handed ++ [msg]).map (·.messageId)).Nodup) :
    Balanced (handed ++ [msg]) (k.step S F (.route m msg)).1
      (out ++ (k.step S F (.route m msg)).2) :=
  Balanced.routed (h.1.handIn hids) h.2 (routeMessage_routed S F m k.router k.lifecycle msg) _

theorem balanced_resume (m : Moment) (messageId : Bytes) (isProcessed : Bool) :
    Balanced handed (k.step S F (.resume m messageId isProcessed)).1
      (out ++ (k.step S F (.resume m messageId isProcessed)).2) := by
  simp only [step, resumeAfterAckCheck]
  cases hmsg : k.router.pendingAckChecks[messageId]? with
  | none =>
    dsimp only
    rw [List.append_nil]
    exact h
  | some msg =>
    obtain rfl := (h.1.buffered messageId msg hmsg).2
    have hinHand := h.1.unbuffered hmsg
    cases isProcessed with
    | true => exact Balanced.routed hinHand h.2 (.answered rfl fun _ => rfl) _
    | false => exact Balanced.routed hinHand h.2 (routeAfterAckCheck_routed S F m _ _ msg) _

theorem balanced_drain (clockMs : Nat) (envs : Nat → Env) (contactId : Bytes) :
    Balanced handed (k.step S F (.drain clockMs envs contactId)).1
      (out ++ (k.step S F (.drain clockMs envs contactId)).2) := by
  refine ⟨(drainPending_accounted S F clockMs envs k.lifecycle contactId h.1).1, ?_⟩
  refine List.forall_mem_append.mpr ⟨h.2, fun e he => ?_⟩
  obtain ⟨p, _, hp⟩ := List.mem_flatMap.mp he
  exact settle_settles p.1 p.2 e hp

theorem balanced_removePending (contactId messageId : Bytes) :
    Balanced handed (k.step S F (.removePending contactId messageId)).1
      (out ++ (k.step S F (.removePending contactId messageId)).2) := by
  refine ⟨h.1.shrunk contactId (fun x => x.messageId != messageId)
    (queue_removePending k.router contactId messageId) ?_ ?_ ?_, ?_⟩
  · exact removePending_pendingAckChecks k.router contactId messageId
  · exact removePending_maxPendingPerUser k.router contactId messageId
  · exact map_fst_map_mk _ _
  · refine List.forall_mem_append.mpr ⟨h.2, fun e he => ?_⟩
    obtain ⟨x, _, rfl⟩ := List.mem_map.mp he
    trivial

theorem balanced_takePending (contactId : Bytes) :
    Balanced handed (k.step S F (.takePending contactId)).1
      (out ++ (k.step S F (.takePending contactId)).2) := by
  refine ⟨h.1.shrunk contactId (fun _ => false) ?_ rfl rfl ?_, ?_⟩
  · intro d
    show queue { k.router with pendingQueues := k.router.pendingQueues.erase contactId } d = _
    rw [queue_erase, List.filter_false]
  · exact (map_fst_map_mk _ _).trans (missing_erase k.router contactId).symm
  · refine List.forall_mem_append.mpr ⟨h.2, fun e he => ?_⟩
    obtain ⟨x, _, rfl⟩ := List.mem_map.mp he
    trivial

theorem balanced_step (e : RouterEvent) (hids : ((handed ++ handedIn [e]).map (·.messageId)).Nodup) :
    Balanced (handed ++ handedIn [e]) (k.step S F e).1 (out ++ (k.step S F e).2) := by
  cases e with
  | route m msg => exact balanced_route S F h m hids
  | resume m id isProcessed =>
    exact (List.append_nil handed).symm ▸ balanced_resume S F h m id isProcessed
  | drain clockMs envs c =>
    exact (List.append_nil handed).symm ▸ balanced_drain S F h clockMs envs c
  | removePending c id => exact (List.append_nil handed).symm ▸ balanced_removePending S F h c id
  | takePending c => exact (List.append_nil handed).symm ▸ balanced_takePending S F h c
  | lifecycle l =>
    show Balanced (handed ++ []) ⟨k.router, l⟩ (out ++ [])
    rw [List.append_nil, List.append_nil]
    exact h

end Step

theorem balanced_run (l : Lifecycle) (events : List RouterEvent)
    (hids : ((handedIn events).map (·.messageId)).Nodup) :
    Balanced (handedIn events) (Machine.run (step S F) ⟨Router.new, l⟩ events)
      (Machine.log (step S F) ⟨Router.new, l⟩ events) := by
  induction events using List.reverseRecOn with
  | nil => exact Balanced.nil l
  | append_singleton events e ih =>
    have hsplit : handedIn (events ++ [e]) = handedIn events ++ handedIn [e] :=
      List.filterMap_append
    rw [hsplit] at hids ⊢
    rw [Machine.run_concat, Machine.log_concat]
    rw [List.map_append] at hids
    exact balanced_step S F (ih (List.nodup_append.mp hids).1) e (by rwa [List.map_append])

/-- Where a message can be. -/
inductive Place where
  | queue (contactId : Bytes)
  | ackBuffer
  | left (fate : Fate)

def At (k : Desk) (out : List (IncomingMessage × Fate)) (x : IncomingMessage) : Place → Prop
  | .queue contactId => x ∈ k.router.queue contactId
  | .ackBuffer => k.router.pendingAckChecks[x.messageId]? = some x
  | .left fate => (x, fate) ∈ out

theorem Balanced.nodup_out (h : Balanced handed k out) : (out.map Prod.fst).Nodup := by
  refine List.nodup_iff_count_le_one.mpr fun x => ?_
  by_cases hx : x ∈ out.map Prod.fst
  · have honce := h.1.once x (h.1.left x hx)
    omega
  · rw [List.count_eq_zero.mpr hx]
    exact Nat.zero_le 1

theorem Balanced.existsUnique_place (h : Balanced handed k out) {x : IncomingMessage}
    (hx : x ∈ handed) : ∃! p, k.At out x p := by
  have honce := h.1.once x hx
  rw [List.count_nil] at honce
  unfold places waiting at honce
  have hqueue : ∀ d, x ∈ k.router.queue d → d = x.contactId ∧
      0 < (k.router.queue x.contactId).count x := fun d hd => by
    have hc := (h.1.queued d x hd).2.1
    exact ⟨hc.symm, List.count_pos_iff.mpr (hc ▸ hd)⟩
  have hleft : ∀ fate, (x, fate) ∈ out → 0 < (out.map Prod.fst).count x := fun fate hf =>
    List.count_pos_iff.mpr (List.mem_map_of_mem hf)
  by_cases hbuffer : k.router.pendingAckChecks[x.messageId]? = some x
  · rw [if_pos hbuffer] at honce
    refine ⟨.ackBuffer, hbuffer, fun p hp => ?_⟩
    cases p with
    | queue d => have := (hqueue d hp).2; omega
    | ackBuffer => rfl
    | left fate => have := hleft fate hp; omega
  · rw [if_neg hbuffer] at honce
    by_cases hmem : x ∈ k.router.queue x.contactId
    · refine ⟨.queue x.contactId, hmem, fun p hp => ?_⟩
      have hpos := (hqueue _ hmem).2
      cases p with
      | queue d => rw [(hqueue d hp).1]
      | ackBuffer => exact absurd hp hbuffer
      | left fate => have := hleft fate hp; omega
    · have hzero := List.count_eq_zero.mpr hmem
      obtain ⟨⟨y, fate⟩, he, hy⟩ := List.mem_map.mp
        (List.count_pos_iff.mp (show 0 < (out.map Prod.fst).count x by omega))
      obtain rfl : y = x := hy
      refine ⟨.left fate, he, fun p hp => ?_⟩
      cases p with
      | queue d => have := (hqueue d hp).2; omega
      | ackBuffer => exact absurd hp hbuffer
      | left fate' =>
        have heq := List.inj_on_of_nodup_map h.nodup_out hp he rfl
        rw [(Prod.mk.inj heq).2]

/-- The router neither loses nor duplicates messages: in every interleaving of its calls, each
message handed in is in one place; what left was answered once, removed, taken, or too old;
queues hold openers only, none twice, no more than the limit; and a drain keeps the order of
what stays queued. -/
theorem router_conserves (l₀ : Lifecycle) (events : List RouterEvent)
    (hids : ((handedIn events).map (·.messageId)).Nodup) :
    let k := Machine.run (step S F) ⟨Router.new, l₀⟩ events
    let out := Machine.log (step S F) ⟨Router.new, l₀⟩ events
    (∀ x ∈ handedIn events, ∃! p, k.At out x p) ∧
      ((out.map Prod.fst).Nodup ∧ ∀ e ∈ out, e.1 ∈ handedIn events ∧ e.2.Settles) ∧
      (∀ id x, k.router.pendingAckChecks[id]? = some x → x ∈ handedIn events ∧ x.messageId = id) ∧
      (∀ d, ((k.router.queue d).map (·.messageId)).Nodup ∧
        (k.router.queue d).length ≤ maxPendingPerUser ∧
        ∀ x ∈ k.router.queue d, x ∈ handedIn events ∧ opensSession x = true) ∧
      ∀ clockMs envs d, ((drainPending S F clockMs envs k.router k.lifecycle d).2.1.queue d).Sublist
        (k.router.queue d) := by
  intro k out
  have h : Balanced (handedIn events) k out := balanced_run S F l₀ events hids
  refine ⟨fun x hx => h.existsUnique_place hx, ⟨h.nodup_out, fun e he => ?_⟩, h.1.buffered,
    fun d => ⟨?_, ?_, ?_⟩, fun clockMs envs d => ?_⟩
  · exact ⟨h.1.left e.1 (List.mem_map_of_mem he), h.2 e he⟩
  · exact h.1.nodup_queue d
  · exact h.1.limit ▸ h.1.bound d
  · exact fun x hx => ⟨(h.1.queued d x hx).1, (h.1.queued d x hx).2.2⟩
  · exact (drainPending_accounted S F clockMs envs k.lifecycle d h.1).2

def samplePayload (opener : Bool) : Bytes :=
  ((Wire.packMessage
    { adVersion := adVersionHeader
      dhPublicKey := List.replicate 32 9
      messageNumber := 0
      oneTimePrekeyId := 0
      kyberOtpkId := 0
      kemCiphertext := if opener then some [7] else none
      kemIdentity := none
      previousChainLength := 0
      suiteId := 1
      pqMessageEpoch := 0
      pqKeyIndex := 0
      pqRatchetField := none
      identityProofCiphertext := none
      sealedBox := List.replicate 20 1 }).toOption).getD []

def sampleIncoming (id : UInt8) (opener : Bool) : IncomingMessage where
  contactId := [5]
  wirePayload := samplePayload opener
  messageId := [id]
  msgNumber := 0
  contentType := 0
  senderCertificate := none
  envelopeSession := none

/-- Two openers wait for a session and one of them is removed; a third message is answered. -/
def sampleCalls : List RouterEvent :=
  [.route sampleMoment (sampleIncoming 1 true), .route sampleMoment (sampleIncoming 2 false),
    .route sampleMoment (sampleIncoming 3 true), .drain 1000 (fun _ => sampleMoment.env) [5],
    .removePending [5] [1]]

theorem router_conserves_sample :
    let l := Lifecycle.new (.new (sampleKeys 1)) [1]
    let k := Machine.run (step symbolicSuite (codeBook [] [])) ⟨Router.new, l⟩ sampleCalls
    let out := Machine.log (step symbolicSuite (codeBook [] [])) ⟨Router.new, l⟩ sampleCalls
    (k.router.queue [5] = [sampleIncoming 3 true] ∧
        out.map Prod.fst = [sampleIncoming 2 false, sampleIncoming 1 true]) ∧
      ∀ x ∈ handedIn sampleCalls, ∃! p, k.At out x p :=
  ⟨by decide +kernel,
    (router_conserves symbolicSuite (codeBook [] []) _ sampleCalls (by decide +kernel)).1⟩

end Desk

end ConstructCore
