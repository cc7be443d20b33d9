import ConstructCore.Orchestration.Orchestrator
import ConstructCore.Orchestration.Runs

/-!
# Runs of the orchestrator

The orchestrator as a machine, with the same log as the session manager's: what it answers with
a decrypted message, or with a session that opened, is what the log shows.

`step_simulated`: whatever a call of the orchestrator does to its session manager is a run of
the manager, of the same kind, and the log of the one is the log of the other, up to messages
that were decrypted and whose record could then not be exported. So an invariant of the
manager's runs holds along the orchestrator's (`Simulated`, `run_simulated`).
-/

namespace ConstructCore

open Bytes Op
open Trust (SenderCertificate ServerTrust)

/-- The calls of the orchestrator that change it. -/
inductive OrchestratorEvent where
  | messageReceived (m : Moment) (errorSealed : Bool) (arrival : Orchestrator.Arrival)
  | ackDbResult (m : Moment) (errorSealed : Bool) (messageId : Bytes) (isProcessed : Bool)
  | decryptBytes (m : Moment) (contactId wirePayload : Bytes)
  | networkReconnected (m : Moment) (envs : Bytes → Nat → Env) (devices : List Bytes)
  | outgoing (m : Moment) (contactId plaintext : Bytes)
  | initSession (m : Moment) (contactId : Bytes) (bundle : X3DHPublicKeyBundle)
      (kyber : KyberBundleKeys) (allowStale : Bool)
  | reopen (m : Moment) (contactId : Bytes) (bundle : X3DHPublicKeyBundle)
      (kyber : KyberBundleKeys) (allowStale : Bool)
  | sessionBundleFetched (m : Moment) (envs : Nat → Env) (contactId : Bytes)
      (bundle : X3DHPublicKeyBundle) (kyber : KyberBundleKeys)
  | sessionInitCompleted (m : Moment) (envs : Nat → Env) (contactId data : Bytes)
  | receivingFromCertificate (m : Moment) (certificate : SenderCertificate) (wirePayload : Bytes)
  | openReceiving (m : Moment) (envs : Nat → Env) (device : Bytes)
  | retireSession (m : Moment) (contactId : Bytes)
  | decryptionErrorReceived (m : Moment) (contactId ratchetKey : Bytes)
  | retireStaleHandshake (m : Moment) (contactId : Bytes)
  | forgetContactState (m : Moment) (contactId : Bytes)
  | importSession (m : Moment) (contactId data : Bytes)
  /-- A new process: its queues are empty, and it is given back the sessions stored. -/
  | restart (m : Moment) (sessions : Table Bytes Session)
      (previous : Table Bytes (List PreviousState))
  | wantToOpen (clockMs : Nat) (device : Bytes)
  | endOpening (device : Bytes)
  | setServerTrust (trust : ServerTrust)
  | ackMarkProcessed (now : Nat) (messageId : Bytes)
  | setMyUserId (userId : Bytes)
  | keys (change : KeyChange)

def OrchestratorEvent.kind : OrchestratorEvent → EventKind
  | .forgetContactState .. => .forget
  | .sessionInitCompleted .. | .importSession .. => .importSession
  | .restart .. => .restart
  | .setMyUserId .. => .setMyUserId
  | _ => .protocol

def RoutingDecision.handedOut (wirePayload : Bytes) : RoutingDecision → List LifecycleSeen
  | .decrypted contactId _ plaintext _ _ =>
    match Lifecycle.messageOfWire wirePayload with
    | .ok message => [.decrypted contactId message plaintext]
    | .error _ => []
  | _ => []

def drainedOut (queue : List IncomingMessage) (decisions : List RoutingDecision) :
    List LifecycleSeen :=
  (queue.zip decisions).flatMap fun p => p.2.handedOut p.1.wirePayload

namespace Orchestrator

def openedBy (S : Suite) (m : Moment) (trust : ServerTrust) (device : Bytes)
    (certificate : SenderCertificate) (wirePayload plaintext : Bytes) : List LifecycleSeen :=
  match certificate.identityForOpening S.toSigning trust (certificateTime m),
      IncomingFirstMessage.fromWirePayload wirePayload with
  | .ok identity, .ok first => [.openedAsResponder device identity first plaintext]
  | _, _ => []

/-- What a receiving open shows: the opener, and what was drained behind it. -/
def receivingSeen (S : Suite) (m : Moment) (o : Orchestrator) (device : Bytes)
    (drained : List RoutingDecision) : List LifecycleSeen :=
  match (openLoop S m o.serverTrust device (o.router.queue device) .none o.lifecycle).1 with
  | none => []
  | some (opener, plaintext) =>
    (opener.senderCertificate.toList.flatMap fun certificate =>
      openedBy S m o.serverTrust device certificate opener.wirePayload plaintext) ++
    drainedOut ((o.router.removePending device opener.messageId).queue device) drained

def answerSeen {ε : Type} (queue : List IncomingMessage) (opened : List LifecycleSeen) :
    Except ε (List RoutingDecision) → List LifecycleSeen
  | .error _ => []
  | .ok drained => opened ++ drainedOut queue drained

def reconnectedSeen (S : Suite) (F : Cfe) (m : Moment) (envs : Bytes → Nat → Env) :
    List Bytes → Orchestrator → List LifecycleSeen
  | [], _ => []
  | device :: rest, o =>
    let (decisions, o') := o.drainPending S F m (envs device) device
    drainedOut (o.router.queue device) decisions ++ reconnectedSeen S F m envs rest o'

def step (S : Suite) (F : Cfe) (o : Orchestrator) :
    OrchestratorEvent → Orchestrator × List LifecycleSeen
  | .messageReceived m errorSealed arrival =>
    let (decision, o) := handleMessageReceived S F m errorSealed arrival o
    (o, decision.toList.flatMap (·.handedOut arrival.data))
  | .ackDbResult m errorSealed messageId isProcessed =>
    let (decision, o') := handleAckDbResult S F m errorSealed messageId isProcessed o
    (o', o.router.pendingAckChecks[messageId]?.toList.flatMap fun msg =>
      decision.handedOut msg.wirePayload)
  | .decryptBytes m contactId wirePayload =>
    logged (fun plaintext => (Lifecycle.messageOfWire wirePayload).toOption.toList.map
      fun message => .decrypted contactId message plaintext)
      (decryptBytesFor S m contactId wirePayload o)
  | .networkReconnected m envs devices =>
    ((handleNetworkReconnected S F m envs devices o).2, reconnectedSeen S F m envs devices o)
  | .outgoing m contactId plaintext =>
    logged (fun out => [.sent contactId out.message]) (encryptMessageFor S m contactId plaintext o)
  | .initSession m contactId bundle kyber allowStale =>
    logged (fun _ => [.openedAsInitiator contactId bundle kyber])
      (Op.zoom (fun o => o.lifecycle) (fun l o => { o with lifecycle := l })
        (Lifecycle.initSessionWithBundle S m contactId bundle kyber allowStale) o)
  | .reopen m contactId bundle kyber allowStale =>
    logged (fun _ => [.openedAsInitiator contactId bundle kyber])
      (reopenSessionWithBundle S m contactId bundle kyber allowStale o)
  | .sessionBundleFetched m envs contactId bundle kyber =>
    let (answer, o') := handleSessionBundleFetched S F m envs contactId bundle kyber o
    (o', answerSeen (o.router.queue contactId) [.openedAsInitiator contactId bundle kyber] answer)
  | .sessionInitCompleted m envs contactId data =>
    let (answer, o') := handleSessionInitCompleted S F m envs contactId data o
    (o', answerSeen (o.router.queue contactId) [] answer)
  | .receivingFromCertificate m certificate wirePayload =>
    logged (fun r => openedBy S m o.serverTrust r.1 certificate wirePayload r.2)
      (receivingFromCertificate S m certificate wirePayload o)
  | .openReceiving m envs device =>
    let (answer, o') := openReceiving S F m envs o device
    (o', receivingSeen S m o device answer.decisions.tail)
  | .retireSession m contactId => ((o.retireSession m contactId).2, [])
  | .decryptionErrorReceived m contactId ratchetKey =>
    (o.answerDecryptionError m contactId ratchetKey, [])
  | .retireStaleHandshake m contactId => (o.retireStaleHandshake m contactId, [])
  | .forgetContactState m contactId => (o.forgetContactState m contactId, [])
  | .importSession m contactId data =>
    logged (fun _ => []) (Op.zoom (fun o => o.lifecycle) (fun l o => { o with lifecycle := l })
      (Lifecycle.importSessionBytes F m contactId data) o)
  | .restart m sessions previous =>
    ({ o with
      lifecycle := o.lifecycle.restart F m o.openingDeviceIds sessions previous
      router := .new
      opening := restoreOpening m.clockMs o.openingDeviceIds }, [])
  | .wantToOpen clockMs device => ((o.wantToOpen clockMs device).2, [])
  | .endOpening device => (o.endOpening device, [])
  | .setServerTrust trust => ({ o with serverTrust := trust }, [])
  | .ackMarkProcessed now messageId => (o.markProcessed now [messageId], [])
  | .setMyUserId userId => ({ o with lifecycle := o.lifecycle.setMyUserId userId }, [])
  | .keys change =>
    let (k, seen) := o.lifecycle.client.keyManager.change S change
    ({ o with lifecycle := o.lifecycle.mapKeys fun _ => k }, seen)

end Orchestrator

/-! ## The manager's part -/

def LifecycleSeen.isRead : LifecycleSeen → Bool
  | .decrypted .. => true
  | _ => false

def unread (log : List LifecycleSeen) : List LifecycleSeen := log.filter fun x => !x.isRead

@[simp] theorem unread_append (a b : List LifecycleSeen) :
    unread (a ++ b) = unread a ++ unread b := List.filter_append ..

/-- The manager gets from `l` to `l'` by a run of a kind, and `seen` is what the run shows, up to
messages read and not handed out. -/
def Simulated (S : Suite) (F : Cfe) (K : EventKind) (l l' : Lifecycle)
    (seen : List LifecycleSeen) : Prop :=
  ∃ events, (∀ e ∈ events, e.kind = .protocol ∨ e.kind = K) ∧
    Machine.run (Lifecycle.step S F) l events = l' ∧
    seen.Sublist (Machine.log (Lifecycle.step S F) l events) ∧
    unread seen = unread (Machine.log (Lifecycle.step S F) l events)

namespace Simulated

variable {S : Suite} {F : Cfe} {K : EventKind} {l l₁ l₂ : Lifecycle}

theorem refl (l : Lifecycle) : Simulated S F K l l [] :=
  ⟨[], fun _ h => (nomatch h), rfl, List.Sublist.refl _, rfl⟩

theorem trans {seen seen' : List LifecycleSeen} (h : Simulated S F K l l₁ seen)
    (h' : Simulated S F K l₁ l₂ seen') : Simulated S F K l l₂ (seen ++ seen') := by
  obtain ⟨events, hkind, rfl, hsub, hunread⟩ := h
  obtain ⟨events', hkind', rfl, hsub', hunread'⟩ := h'
  refine ⟨events ++ events', ?_, Machine.run_append _ _ _, ?_, ?_⟩
  · intro e he
    rcases List.mem_append.mp he with he | he
    · exact hkind e he
    · exact hkind' e he
  · rw [Machine.log_append]
    exact hsub.append hsub'
  · rw [Machine.log_append, unread_append, unread_append, hunread, hunread']

theorem of_step {e : LifecycleEvent} (hkind : e.kind = .protocol ∨ e.kind = K)
    {seen : List LifecycleSeen} (h : Lifecycle.step S F l e = (l₁, seen)) :
    Simulated S F K l l₁ seen := by
  refine ⟨[e], ?_, ?_, ?_, ?_⟩
  · intro e' he'
    rw [List.mem_singleton.mp he']
    exact hkind
  · exact congrArg Prod.fst h
  · show List.Sublist seen ((Lifecycle.step S F l e).2 ++ [])
    rw [h, List.append_nil]
  · show unread seen = unread ((Lifecycle.step S F l e).2 ++ [])
    rw [h, List.append_nil]

theorem of_logged {e : LifecycleEvent} (hkind : e.kind = .protocol ∨ e.kind = K) {ε α : Type}
    {f : α → List LifecycleSeen} {x : Op ε Lifecycle α}
    (h : Lifecycle.step S F l e = logged f (x l)) :
    Ensures x l (fun a l' => Simulated S F K l l' (f a))
      (fun _ l' => Simulated S F K l l' []) := by
  rw [ensures_iff]
  constructor
  · intro a l' hrun
    exact of_step hkind (by rw [h, hrun]; rfl)
  · intro err l' hrun
    exact of_step hkind (by rw [h, hrun]; rfl)

theorem forget_read {seen : List LifecycleSeen} (h : Simulated S F K l l₁ seen)
    (hread : ∀ x ∈ seen, x.isRead = true) : Simulated S F K l l₁ [] := by
  obtain ⟨events, hkind, hrun, -, hunread⟩ := h
  refine ⟨events, hkind, hrun, List.nil_sublist _, ?_⟩
  rw [← hunread]
  exact (List.filter_eq_nil_iff.mpr fun x hx => by simp [hread x hx]).symm

theorem acks (l : Lifecycle) (ackStore : AckStore) :
    Simulated S F K l { l with ackStore := ackStore } [] :=
  of_step (e := .acks ackStore) (.inl rfl) rfl

theorem trans_nil {seen : List LifecycleSeen} (h : Simulated S F K l l₁ seen)
    (h' : Simulated S F K l₁ l₂ []) : Simulated S F K l l₂ seen := by
  have := h.trans h'
  rwa [List.append_nil] at this

end Simulated

/-! ### Routing -/

section Routing

variable {S : Suite} {F : Cfe} {K : EventKind}

/-- Decrypting a wire payload is a decrypt; its result may be lost with the record's export. -/
theorem simulated_decryptWirePayload (m : Moment) (contactId payload : Bytes) (l : Lifecycle) :
    Ensures (Lifecycle.decryptWirePayload S F m contactId payload) l
      (fun r l' => ∃ message, Lifecycle.messageOfWire payload = .ok message ∧
        Simulated S F K l l' [.decrypted contactId message r.plaintext])
      (fun _ l' => Simulated S F K l l' []) := by
  simp only [Lifecycle.decryptWirePayload, ensures_bind, ensures_ofExcept, ensures_get,
    ensures_pure]
  refine ⟨fun message hmessage => ?_, fun _ _ => .refl l⟩
  refine (Simulated.of_logged (e := .decrypt m contactId message) (.inl rfl) rfl).mono ?_
    fun _ _ h => h
  intro plaintext l' hsim
  exact ⟨fun _ _ => ⟨message, hmessage, hsim⟩,
    fun _ _ => hsim.forget_read (by simp [LifecycleSeen.isRead])⟩

theorem simulated_routeAfterAckCheck (m : Moment) (r : Router) (l : Lifecycle)
    (msg : IncomingMessage) :
    Simulated S F K l (Router.routeAfterAckCheck S F m r l msg).2.2
      ((Router.routeAfterAckCheck S F m r l msg).1.handedOut msg.wirePayload) := by
  have hspec := simulated_decryptWirePayload (S := S) (F := F) (K := K) m msg.contactId
    msg.wirePayload l
  have henqueue : ∀ l', Simulated S F K l l' [] →
      Simulated S F K l l' ((r.enqueueOrReject m.clockMs msg).1.handedOut msg.wirePayload) := by
    intro l' h
    unfold Router.enqueueOrReject
    dsimp only
    split
    · exact h
    · split
      · exact h
      · exact h
  unfold Router.routeAfterAckCheck
  dsimp only
  split
  · exact henqueue l (.refl l)
  · cases hrun : Lifecycle.decryptWirePayload S F m msg.contactId msg.wirePayload l with
    | ok result l' =>
      obtain ⟨message, hmessage, hsim⟩ := hspec.of_ok hrun
      show Simulated S F K l _ (match Lifecycle.messageOfWire msg.wirePayload with
        | .ok message => [.decrypted msg.contactId message result.plaintext]
        | .error _ => [])
      rw [hmessage]
      exact hsim.trans_nil (.acks _ _)
    | error e l' =>
      have hsim := hspec.of_error hrun
      dsimp only
      split
      · exact hsim.trans_nil (.acks _ _)
      · split
        · exact henqueue l' hsim
        · exact hsim

theorem simulated_routeMessage (m : Moment) (r : Router) (l : Lifecycle) (msg : IncomingMessage) :
    Simulated S F K l (Router.routeMessage S F m r l msg).2.2
      ((Router.routeMessage S F m r l msg).1.handedOut msg.wirePayload) := by
  unfold Router.routeMessage
  split
  · exact .refl l
  · exact .refl l
  · exact simulated_routeAfterAckCheck m r l msg

theorem simulated_drainLoop (clockMs : Nat) (envs : Nat → Env) (queue : List IncomingMessage)
    (r : Router) (l : Lifecycle) :
    Simulated S F K l (Router.drainLoop S F clockMs envs queue r l).2.2.2
      (drainedOut queue (Router.drainLoop S F clockMs envs queue r l).1) := by
  induction queue generalizing envs r l with
  | nil => exact .refl l
  | cons msg rest ih =>
    have hroute := simulated_routeMessage (S := S) (F := F) (K := K) ⟨clockMs, envs 0⟩ r l
      msg
    rw [Router.drainLoop]
    dsimp only
    split
    · show Simulated S F K l _ (_ ++ drainedOut rest [])
      refine hroute.trans ?_
      rw [show drainedOut rest [] = [] by simp [drainedOut]]
      exact .refl _
    · exact hroute.trans (ih _ _ _)

theorem simulated_drainPending (clockMs : Nat) (envs : Nat → Env) (r : Router) (l : Lifecycle)
    (contactId : Bytes) :
    Simulated S F K l (Router.drainPending S F clockMs envs r l contactId).2.2
      (drainedOut (r.queue contactId) (Router.drainPending S F clockMs envs r l contactId).1) :=
  simulated_drainLoop clockMs envs (r.queue contactId) _ l

end Routing

namespace Orchestrator

variable {S : Suite} {F : Cfe} {K : EventKind}

/-! ### Decisions and drains -/

theorem decideActions_lifecycle (m : Moment) (errorSealed : Bool) (o : Orchestrator)
    (decision : RoutingDecision) :
    ∃ ackStore, (decideActions m errorSealed o decision).lifecycle =
      { o.lifecycle with ackStore := ackStore } := by
  cases decision with
  | needSessionInit contactId count =>
    unfold decideActions wantToOpen
    dsimp only
    split
    · exact ⟨_, rfl⟩
    · exact ⟨_, rfl⟩
  | decryptionErrorNeeded _ messageId _ _ _ _ =>
    cases errorSealed
    · exact ⟨_, rfl⟩
    · exact ⟨_, rfl⟩
  | _ => exact ⟨_, rfl⟩

theorem simulated_decideActions (m : Moment) (errorSealed : Bool) (l : Lifecycle) (r : Router)
    (opening : Table Bytes Nat) (trust : ServerTrust) (decision : RoutingDecision) :
    Simulated S F K l (decideActions m errorSealed ⟨l, r, opening, trust⟩ decision).lifecycle
      [] := by
  obtain ⟨ackStore, h⟩ := decideActions_lifecycle m errorSealed ⟨l, r, opening, trust⟩ decision
  rw [h]
  exact .acks l _

theorem simulated_decideAll (m : Moment) (decisions : List RoutingDecision) (o : Orchestrator) :
    Simulated S F K o.lifecycle (decisions.foldl (decideActions m false) o).lifecycle [] := by
  induction decisions generalizing o with
  | nil => exact .refl _
  | cons decision rest ih =>
    exact (simulated_decideActions m false _ _ _ _ decision).trans_nil (ih _)

theorem simulated_drain (m : Moment) (envs : Nat → Env) (l : Lifecycle) (r : Router)
    (opening : Table Bytes Nat) (trust : ServerTrust) (device : Bytes) :
    Simulated S F K l (drainPending S F m envs ⟨l, r, opening, trust⟩ device).2.lifecycle
      (drainedOut (r.queue device) (drainPending S F m envs ⟨l, r, opening, trust⟩ device).1) :=
  (simulated_drainPending m.clockMs envs r l device).trans_nil
    (simulated_decideAll m (Router.drainPending S F m.clockMs envs r l device).1
      ⟨(Router.drainPending S F m.clockMs envs r l device).2.2,
        (Router.drainPending S F m.clockMs envs r l device).2.1, opening, trust⟩)

theorem simulated_logged {ε α : Type} {f : α → List LifecycleSeen} {x : Op ε Orchestrator α}
    {o : Orchestrator}
    (h : Ensures x o (fun a o' => Simulated S F K o.lifecycle o'.lifecycle (f a))
      (fun _ o' => Simulated S F K o.lifecycle o'.lifecycle [])) :
    Simulated S F K o.lifecycle (logged f (x o)).1.lifecycle (logged f (x o)).2 := by
  cases hrun : x o with
  | ok a o' => exact h.of_ok hrun
  | error e o' => exact h.of_error hrun

theorem simulated_reconnected (m : Moment) (envs : Bytes → Nat → Env) (devices : List Bytes)
    (o : Orchestrator) :
    Simulated S F K o.lifecycle (handleNetworkReconnected S F m envs devices o).2.lifecycle
      (reconnectedSeen S F m envs devices o) := by
  induction devices generalizing o with
  | nil => exact .refl _
  | cons device rest ih => exact (simulated_drain m (envs device) _ _ _ _ device).trans (ih _)

/-! ### Receiving opens -/

theorem fromWirePayload_of_handshakeOf {carrier : IncomingMessage} {first : IncomingFirstMessage}
    (h : handshakeOf carrier = some first) :
    IncomingFirstMessage.fromWirePayload carrier.wirePayload = .ok first := by
  unfold handshakeOf at h
  split at h
  · cases h
  · rename_i first' hfirst
    dsimp only at h
    split at h
    · rw [hfirst, Option.some.inj h]
    · cases h

theorem openedBy_eq {m : Moment} {trust : ServerTrust} {device : Bytes}
    {certificate : SenderCertificate} {wirePayload plaintext identity : Bytes}
    {first : IncomingFirstMessage}
    (hidentity : certificate.identityForOpening S.toSigning trust (certificateTime m) =
      .ok identity)
    (hfirst : IncomingFirstMessage.fromWirePayload wirePayload = .ok first) :
    openedBy S m trust device certificate wirePayload plaintext =
      [.openedAsResponder device identity first plaintext] := by
  unfold openedBy
  rw [hidentity, hfirst]

def openerSeen (S : Suite) (m : Moment) (trust : ServerTrust) (device : Bytes)
    (opened : Option (IncomingMessage × Bytes)) : List LifecycleSeen :=
  match opened with
  | none => []
  | some (opener, plaintext) => opener.senderCertificate.toList.flatMap fun certificate =>
    openedBy S m trust device certificate opener.wirePayload plaintext

/-- The walk over a queue is a list of attempts, of which at most the last opens. -/
theorem simulated_openLoop (m : Moment) (trust : ServerTrust) (device : Bytes)
    (queue : List IncomingMessage) (a : Attempts) (l : Lifecycle) :
    Simulated S F K l (openLoop S m trust device queue a l).2.2
      (openerSeen S m trust device (openLoop S m trust device queue a l).1) := by
  induction queue generalizing a l with
  | nil => exact .refl l
  | cons carrier rest ih =>
    rw [openLoop]
    cases hfirst : handshakeOf carrier with
    | none => exact ih a l
    | some first =>
      dsimp only
      split
      · exact ih _ l
      · exact ih _ l
      · exact ih _ l
      · rename_i identity hchecked
        split
        · exact ih _ l
        · have hsim := Simulated.of_logged (S := S) (F := F) (K := K) (l := l)
            (e := .receive m device identity first) (.inl rfl) rfl
          have hcertificate : ∃ c, carrier.senderCertificate = some c ∧
              c.identityForOpening S.toSigning trust (certificateTime m) = .ok identity := by
            unfold checkedIdentity at hchecked
            cases hc : carrier.senderCertificate with
            | none => rw [hc] at hchecked; cases hchecked
            | some c =>
              rw [hc] at hchecked
              exact ⟨c, rfl, Option.some.inj hchecked⟩
          obtain ⟨c, hc, hidentity⟩ := hcertificate
          cases hrun : Lifecycle.replacing m.nowSecs device
              (Lifecycle.initReceivingWithIdentity S m device identity first) l with
          | ok plaintext l' =>
            have hopen := hsim.of_ok hrun
            show Simulated S F K l l' (carrier.senderCertificate.toList.flatMap _)
            rw [hc]
            simp only [Option.toList_some, List.flatMap_cons, List.flatMap_nil,
              List.append_nil]
            rw [openedBy_eq hidentity (fromWirePayload_of_handshakeOf hfirst)]
            exact hopen
          | error e l' =>
            have hfail := hsim.of_error hrun
            exact hfail.trans (ih _ l')

theorem simulated_openReceiving (m : Moment) (envs : Nat → Env) (o : Orchestrator)
    (device : Bytes) :
    Simulated S F K o.lifecycle (openReceiving S F m envs o device).2.lifecycle
      (receivingSeen S m o device (openReceiving S F m envs o device).1.decisions.tail) := by
  have hloop := simulated_openLoop (S := S) (F := F) (K := K) m o.serverTrust device
    (o.router.queue device) .none o.lifecycle
  unfold openReceiving receivingSeen
  dsimp only
  cases hopened : (openLoop S m o.serverTrust device (o.router.queue device) .none
      o.lifecycle).1 with
  | none =>
    rw [hopened] at hloop
    dsimp only
    refine hloop.trans_nil ?_
    unfold receivingGivenUp
    dsimp only
    split
    · exact .refl _
    · exact .acks _ _
  | some opened =>
    rw [hopened] at hloop
    exact hloop.trans ((Simulated.acks _ _).trans (simulated_drain m envs _ _ _ _ device))

/-! ### Every call -/

theorem simulated_reopen (m : Moment) (contactId : Bytes) (bundle : X3DHPublicKeyBundle)
    (kyber : KyberBundleKeys) (allowStale : Bool) (o : Orchestrator) :
    Ensures (reopenSessionWithBundle S m contactId bundle kyber allowStale) o
      (fun _ o' => Simulated S F K o.lifecycle o'.lifecycle
        [.openedAsInitiator contactId bundle kyber])
      (fun _ o' => Simulated S F K o.lifecycle o'.lifecycle []) := by
  have hopen := Simulated.of_logged (S := S) (F := F) (K := K) (l := o.lifecycle)
    (e := .reopen m contactId bundle kyber allowStale) (.inl rfl) rfl
  unfold Ensures
  rw [reopenSessionWithBundle]
  cases hrun : Lifecycle.replacing m.nowSecs contactId
      (Lifecycle.initSessionWithBundle S m contactId bundle kyber allowStale) o.lifecycle with
  | ok id l => exact hopen.of_ok hrun
  | error e l => exact hopen.of_error hrun

theorem reopen_router {m : Moment} {contactId id : Bytes} {bundle : X3DHPublicKeyBundle}
    {kyber : KyberBundleKeys} {allowStale : Bool} {o o' : Orchestrator}
    (h : reopenSessionWithBundle S m contactId bundle kyber allowStale o = .ok id o') :
    o'.router = o.router := by
  unfold reopenSessionWithBundle at h
  split at h
  · cases h
    rfl
  · cases h

theorem simulated_bundleFetched (m : Moment) (envs : Nat → Env) (contactId : Bytes)
    (bundle : X3DHPublicKeyBundle) (kyber : KyberBundleKeys) (o : Orchestrator) :
    Simulated S F K o.lifecycle
      (handleSessionBundleFetched S F m envs contactId bundle kyber o).2.lifecycle
      (answerSeen (o.router.queue contactId) [.openedAsInitiator contactId bundle kyber]
        (handleSessionBundleFetched S F m envs contactId bundle kyber o).1) := by
  have hopen := simulated_reopen (S := S) (F := F) (K := K) m contactId bundle kyber false o
  unfold handleSessionBundleFetched
  cases hrun : reopenSessionWithBundle S m contactId bundle kyber false o with
  | error e o' =>
    have hfail := hopen.of_error hrun
    exact hfail
  | ok id o' =>
    rw [← reopen_router hrun]
    exact (hopen.of_ok hrun).trans (simulated_drain m envs _ _ _ _ contactId)

theorem simulated_initCompleted (m : Moment) (envs : Nat → Env) (contactId data : Bytes)
    (o : Orchestrator) :
    Simulated S F .importSession o.lifecycle
      (handleSessionInitCompleted S F m envs contactId data o).2.lifecycle
      (answerSeen (o.router.queue contactId) []
        (handleSessionInitCompleted S F m envs contactId data o).1) := by
  have himport : Ensures (if data.isEmpty then pure () else
        Lifecycle.importSessionBytes F m contactId data) o.lifecycle
      (fun _ l => Simulated S F .importSession o.lifecycle l [])
      (fun _ l => Simulated S F .importSession o.lifecycle l []) := by
    rw [ensures_ite]
    exact ⟨fun _ => .refl _, fun _ => Simulated.of_logged (e := .importSession m contactId data)
      (.inr rfl) rfl⟩
  have heq : (if data.isEmpty then EStateM.Result.ok () o.lifecycle
      else Lifecycle.importSessionBytes F m contactId data o.lifecycle) =
      (if data.isEmpty then pure () else Lifecycle.importSessionBytes F m contactId data :
        Op Lifecycle.ImportError Lifecycle Unit) o.lifecycle := by
    split <;> rfl
  unfold handleSessionInitCompleted
  rw [heq]
  cases hrun : (if data.isEmpty then pure () else Lifecycle.importSessionBytes F m contactId data :
      Op Lifecycle.ImportError Lifecycle Unit) o.lifecycle with
  | error e l => exact himport.of_error hrun
  | ok u l => exact (himport.of_ok hrun).trans (simulated_drain m envs _ _ _ _ contactId)

theorem step_simulated (S : Suite) (F : Cfe) (o : Orchestrator) (e : OrchestratorEvent) :
    Simulated S F e.kind o.lifecycle (o.step S F e).1.lifecycle (o.step S F e).2 := by
  cases e with
  | messageReceived m errorSealed arrival =>
    show Simulated S F _ _ (handleMessageReceived S F m errorSealed arrival o).2.lifecycle
      ((handleMessageReceived S F m errorSealed arrival o).1.toList.flatMap
        (·.handedOut arrival.data))
    unfold handleMessageReceived
    cases hmsg : arrival.incoming? with
    | none => exact .refl _
    | some msg =>
      have hdata : msg.wirePayload = arrival.data := by
        unfold Arrival.incoming? at hmsg
        obtain ⟨_, -, rfl⟩ := Option.map_eq_some_iff.mp hmsg
        rfl
      have hroute := simulated_routeMessage (S := S) (F := F) (K := .protocol) m o.router
        o.lifecycle msg
      rw [hdata] at hroute
      simp only [Option.toList_some, List.flatMap_cons, List.flatMap_nil, List.append_nil]
      exact hroute.trans_nil (simulated_decideActions m errorSealed _ _ _ _ _)
  | ackDbResult m errorSealed messageId isProcessed =>
    show Simulated S F _ _ (handleAckDbResult S F m errorSealed messageId isProcessed
      o).2.lifecycle (o.router.pendingAckChecks[messageId]?.toList.flatMap fun msg =>
        (handleAckDbResult S F m errorSealed messageId isProcessed o).1.handedOut
          msg.wirePayload)
    unfold handleAckDbResult Router.resumeAfterAckCheck
    cases o.router.pendingAckChecks[messageId]? with
    | none => exact simulated_decideActions m errorSealed _ _ _ _ _
    | some msg =>
      simp only [Option.toList_some, List.flatMap_cons, List.flatMap_nil, List.append_nil]
      cases isProcessed with
      | true => exact simulated_decideActions m errorSealed _ _ _ _ _
      | false =>
        exact (simulated_routeAfterAckCheck m _ o.lifecycle msg).trans_nil
          (simulated_decideActions m errorSealed _ _ _ _ _)
  | decryptBytes m contactId wirePayload =>
    refine simulated_logged ?_
    simp only [decryptBytesFor, ensures_bind, ensures_ofExcept, ensures_zoom]
    refine ⟨fun message hmessage => ?_, fun _ _ => .refl _⟩
    rw [hmessage]
    exact Simulated.of_logged (e := .decrypt m contactId message) (.inl rfl) rfl
  | networkReconnected m envs devices => exact simulated_reconnected m envs devices o
  | outgoing m contactId plaintext =>
    refine simulated_logged ?_
    simp only [encryptMessageFor, ensures_bind, ensures_zoom, ensures_get, ensures_pure]
    exact Simulated.of_logged (e := .encrypt m contactId plaintext) (.inl rfl) rfl
  | initSession m contactId bundle kyber allowStale =>
    refine simulated_logged ?_
    simp only [ensures_zoom]
    exact Simulated.of_logged (e := .initSession m contactId bundle kyber allowStale) (.inl rfl)
      rfl
  | reopen m contactId bundle kyber allowStale =>
    exact simulated_logged (simulated_reopen m contactId bundle kyber allowStale o)
  | sessionBundleFetched m envs contactId bundle kyber =>
    exact simulated_bundleFetched m envs contactId bundle kyber o
  | sessionInitCompleted m envs contactId data =>
    exact simulated_initCompleted m envs contactId data o
  | receivingFromCertificate m certificate wirePayload =>
    refine simulated_logged ?_
    simp only [receivingFromCertificate, ensures_bind, ensures_get, ensures_ofExcept,
      ensures_zoom, ensures_pure]
    refine ⟨fun identity hidentity => ⟨fun first hfirst => ?_, fun _ _ => .refl _⟩,
      fun _ _ => .refl _⟩
    refine (Simulated.of_logged (e := .receive m certificate.deviceId identity first) (.inl rfl)
      rfl).mono ?_ fun _ _ h => h
    intro plaintext l' hsim
    rw [openedBy_eq hidentity hfirst]
    exact hsim
  | openReceiving m envs device => exact simulated_openReceiving m envs o device
  | retireSession m contactId => exact .of_step (e := .retire m contactId) (.inl rfl) rfl
  | decryptionErrorReceived m contactId ratchetKey =>
    show Simulated S F _ _ (o.answerDecryptionError m contactId ratchetKey).lifecycle []
    unfold answerDecryptionError
    split
    · exact .of_step (e := .retire m contactId) (.inl rfl) rfl
    · exact .refl _
  | retireStaleHandshake m contactId =>
    show Simulated S F _ _ (ConstructCore.Orchestrator.retireStaleHandshake m contactId
      o).lifecycle []
    unfold ConstructCore.Orchestrator.retireStaleHandshake
    split
    · exact .of_step (e := .retire m contactId) (.inl rfl) rfl
    · exact .refl _
  | forgetContactState m contactId => exact .of_step (e := .forget m contactId) (.inr rfl) rfl
  | importSession m contactId data =>
    refine simulated_logged ?_
    simp only [ensures_zoom]
    exact Simulated.of_logged (e := .importSession m contactId data) (.inr rfl) rfl
  | restart m sessions previous =>
    exact .of_step (e := .restart m o.openingDeviceIds sessions previous) (.inr rfl) rfl
  | wantToOpen clockMs device =>
    show Simulated S F _ _ (o.wantToOpen clockMs device).2.lifecycle []
    unfold ConstructCore.Orchestrator.wantToOpen
    split
    · exact .refl _
    · exact .refl _
  | endOpening device => exact .refl _
  | setServerTrust trust => exact .refl _
  | ackMarkProcessed now messageId => exact .acks _ _
  | setMyUserId userId => exact .of_step (e := .setMyUserId userId) (.inr rfl) rfl
  | keys change => exact .of_step (e := .keys change) (.inl rfl) rfl

/-- A run of the orchestrator is a run of its session manager, of the same kinds. -/
theorem run_simulated (S : Suite) (F : Cfe) (o : Orchestrator) (events : List OrchestratorEvent) :
    ∃ inner : List LifecycleEvent,
      (∀ e ∈ inner, e.kind = .protocol ∨ ∃ e' ∈ events, e.kind = e'.kind) ∧
      Machine.run (Lifecycle.step S F) o.lifecycle inner =
        (Machine.run (step S F) o events).lifecycle ∧
      (Machine.log (step S F) o events).Sublist
        (Machine.log (Lifecycle.step S F) o.lifecycle inner) ∧
      unread (Machine.log (step S F) o events) =
        unread (Machine.log (Lifecycle.step S F) o.lifecycle inner) := by
  induction events generalizing o with
  | nil => exact ⟨[], fun _ h => (nomatch h), rfl, List.Sublist.refl _, rfl⟩
  | cons e rest ih =>
    obtain ⟨first, hkind, hrun, hsub, hunread⟩ := step_simulated S F o e
    obtain ⟨inner, hkinds, hruns, hsubs, hunreads⟩ := ih (o.step S F e).1
    rw [← hrun] at hruns hsubs hunreads
    refine ⟨first ++ inner, ?_, ?_, ?_, ?_⟩
    · intro e' he'
      rcases List.mem_append.mp he' with he' | he'
      · exact (hkind e' he').imp id fun h => ⟨e, List.mem_cons_self, h⟩
      · exact (hkinds e' he').imp id fun ⟨x, hx, h⟩ => ⟨x, List.mem_cons_of_mem _ hx, h⟩
    · rw [Machine.run_append]
      exact hruns
    · rw [Machine.log_append]
      exact hsub.append hsubs
    · rw [Machine.log_append, unread_append, ← hunread, ← hunreads, ← unread_append]
      rfl

end Orchestrator

end ConstructCore
