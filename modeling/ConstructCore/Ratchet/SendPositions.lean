import ConstructCore.Ratchet.HeaderBinding
import ConstructCore.Ratchet.Persistence
import ConstructCore.Ratchet.PqSend

/-!
# No sending position is used twice

A message takes two positions: its number on the sending chain of the current ratchet key
and, under suite 4, its index on the send chain of the current PQ epoch. Both halves of the
session are senders on a succession of chains (`Session.drCursor`, `PqRatchet.sendCursor`)
and every event is one turn of each (`sendTurn_step`). The classical chains are named by
freshly drawn keys; the PQ chains by epochs, which only grow, as long as no exchange is
completed again at the last epoch `u32::MAX` (`NoEpochRepeat`).
-/

namespace ConstructCore

open Bytes Op KeyChain

/-! ## One event as a turn of both senders -/

/-- A message with the two keys it was sealed under. -/
structure Emission where
  message : EncryptedRatchetMessage
  drKey : Bytes
  pqKey : Option Bytes

namespace Emission

def dr (x : Emission) : Shown Bytes Bytes :=
  ⟨x.message.dhPublicKey.toList, x.message.messageNumber.toNat, x.drKey⟩

def pq (x : Emission) : Option (Shown UInt32 Bytes) :=
  x.pqKey.map fun key => ⟨x.message.pqMessageEpoch, x.message.pqKeyIndex.toNat, key⟩

/-- There is a PQ key exactly when the message names an epoch, and the message is sealed
under the two keys mixed. -/
structure Valid (C : Crypto) (x : Emission) : Prop where
  epoch : x.pqKey.isSome ↔ 0 < x.message.pqMessageEpoch
  sealing : ∃ messageKey padded ad, mixPqMessageKey C x.drKey x.pqKey = .ok messageKey ∧
    C.aeadEncrypt messageKey x.message.nonce padded (some ad) = .ok x.message.ciphertext

end Emission

def draws (log : List Seen) : List Bytes :=
  log.filterMap fun
    | .drew key => some key
    | _ => none

def sents (log : List Seen) : List EncryptedRatchetMessage :=
  log.filterMap fun
    | .sent m => some m
    | _ => none

namespace Session

variable {C : Crypto} {s t : Session}

def drCursor (s : Session) : Cursor Bytes Bytes :=
  ⟨s.dr.dhRatchetPublic, s.dr.sendingChainKey, s.dr.sendingChainLength.toNat⟩

theorem drCursor_of_zero (h : s.dr.sendingChainLength = 0) :
    s.drCursor = ⟨s.dr.dhRatchetPublic, s.dr.sendingChainKey, 0⟩ :=
  Cursor.ext rfl rfl (congrArg UInt32.toNat h)

/-- A turn of the classical sender: a chain is opened under a key just drawn, and a chain
is started in the state the event left. -/
def DrTurn (C : Crypto) (s t : Session) (seen : List Seen) (shown : List (Shown Bytes Bytes)) :
    Prop :=
  ∃ opened starts, Turn (ckStep C) s.drCursor t.drCursor shown opened starts ∧
    opened.Sublist (draws seen) ∧
    ∀ p ∈ starts, p = (t.dr.dhRatchetPublic, t.dr.sendingChainKey) ∧ t.dr.sendingChainLength = 0

/-- A turn of the PQ sender: an epoch is opened after the current one, and a chain is
started in the state the event left. -/
def PqTurn (C : Crypto) (pq pq' : PqRatchet) (shown : List (Shown UInt32 Bytes)) : Prop :=
  ∃ opened starts, Turn (PqRatchet.pqKeyStep C) pq.sendCursor pq'.sendCursor shown opened starts ∧
    ((opened = [] ∧ pq'.currentPqEpoch = pq.currentPqEpoch) ∨
      (opened = [pq'.currentPqEpoch] ∧ pq.currentPqEpoch < pq'.currentPqEpoch)) ∧
    ∀ p ∈ starts, p.1 = pq'.currentPqEpoch ∧ pq'.sendChain? = some ⟨0, p.2⟩

theorem DrTurn.of_eq {seen : List Seen} (h : t.drCursor = s.drCursor) : DrTurn C s t seen [] := by
  refine ⟨[], [], ?_, List.nil_sublist _, fun _ hp => nomatch hp⟩
  rw [h]
  exact .stay _

theorem DrTurn.opens {seen : List Seen} (hdraw : [t.dr.dhRatchetPublic].Sublist (draws seen))
    (hzero : t.dr.sendingChainLength = 0) : DrTurn C s t seen [] := by
  refine ⟨_, [(t.dr.dhRatchetPublic, t.dr.sendingChainKey)], ?_, hdraw, ?_⟩
  · rw [drCursor_of_zero hzero]
    exact .openChain _ _ _
  · intro p hp
    exact ⟨List.mem_singleton.mp hp, hzero⟩

theorem DrTurn.restarts {seen : List Seen} (hkey : t.dr.dhRatchetPublic = s.dr.dhRatchetPublic)
    (hfrom : s.dr.sendingChainLength = 0) (hto : t.dr.sendingChainLength = 0) :
    DrTurn C s t seen [] := by
  refine ⟨[], [(t.dr.dhRatchetPublic, t.dr.sendingChainKey)], ?_, List.nil_sublist _, ?_⟩
  · rw [drCursor_of_zero hfrom, drCursor_of_zero hto, hkey]
    exact .restart _ rfl
  · intro p hp
    exact ⟨List.mem_singleton.mp hp, hto⟩

theorem PqTurn.of_cursor {pq pq' : PqRatchet} (hcur : pq'.currentPqEpoch = pq.currentPqEpoch)
    (h : pq'.sendCursor = pq.sendCursor) : PqTurn C pq pq' [] := by
  refine ⟨[], [], ?_, .inl ⟨rfl, hcur⟩, fun _ hp => nomatch hp⟩
  rw [h]
  exact .stay _

theorem PqTurn.of_same {pq pq' : PqRatchet} (h : pq.SameSend pq') : PqTurn C pq pq' [] :=
  .of_cursor h.1 h.cursor

theorem PqTurn.of_opens {pq pq' : PqRatchet} (h : pq.OpensEpoch pq') : PqTurn C pq pq' [] := by
  obtain ⟨hlater, key, hkey⟩ := h
  have hcursor : pq'.sendCursor = ⟨pq'.currentPqEpoch, key, 0⟩ := by
    unfold PqRatchet.sendCursor
    rw [hkey]
    rfl
  refine ⟨[pq'.currentPqEpoch], [(pq'.currentPqEpoch, key)], ?_, .inr ⟨rfl, hlater⟩, ?_⟩
  · rw [hcursor]
    exact .openChain _ _ _
  · intro p hp
    rw [List.mem_singleton.mp hp]
    exact ⟨rfl, hkey⟩

theorem drCursor_advance {drKey next : Bytes} (hck : C.kdfCk s.dr.sendingChainKey = .ok (drKey, next))
    (hbound : s.dr.sendingChainLength.toNat + 1 < 2 ^ 32)
    (hdr : t.dr = advanceSending s.dr next (UInt32.ofNat (s.dr.sendingChainLength.toNat + 1))) :
    ckStep C s.drCursor.key = some (drKey, next) ∧
      t.drCursor = ⟨s.drCursor.chain, next, s.drCursor.count + 1⟩ := by
  refine ⟨ckStep_of_ok hck, ?_⟩
  unfold drCursor
  rw [hdr]
  refine Cursor.ext rfl rfl ?_
  show (UInt32.ofNat (s.dr.sendingChainLength.toNat + 1)).toNat = _
  rw [UInt32.toNat_ofNat']
  exact Nat.mod_eq_of_lt hbound

theorem SendStep.turns {env : Env} {pos : SendPosition} {padded : Bytes}
    {m : EncryptedRatchetMessage} (hstep : SendStep C env s pos t)
    (hseal : SealedAs C t pos padded m) :
    ∃ x : Emission, x.message = m ∧ x.Valid C ∧ DrTurn C s t [.sent m] [x.dr] ∧
      PqTurn C s.pq t.pq x.pq.toList ∧ (s.suiteId.isPqRatchet = false → x.pqKey = none) := by
  obtain ⟨pqKey, hpq, drKey, next, hck, hmix, hdr⟩ := hstep.pq
  obtain ⟨hckStep, hcursor⟩ := drCursor_advance hck hstep.bound hdr
  obtain ⟨sid, -, hct⟩ := hseal.ciphertext
  have hstarted : s.pq.SameSend (s.startedPq C env) :=
    (PqRatchet.maybeStartByAge_otherExchange s.suiteId s.pq env).sameSend
  have hdrTurn : DrTurn C s t [.sent m] [Emission.dr ⟨m, drKey, pqKey⟩] := by
    have hdh : m.dhPublicKey.toList = s.dr.dhRatchetPublic := by
      rw [hseal.dhPublicKey, hdr]
      rfl
    have hshown : Emission.dr ⟨m, drKey, pqKey⟩ = ⟨s.drCursor.chain, s.drCursor.count, drKey⟩ := by
      unfold Emission.dr drCursor
      rw [hdh, hseal.messageNumber, hstep.number]
    refine ⟨[], [], ?_, List.nil_sublist _, fun _ hp => nomatch hp⟩
    rw [hcursor, hshown]
    exact .yield hckStep
  obtain ⟨hcur, hmove⟩ := PqRatchet.pqSendKey_cursor hpq
  rw [hstarted.cursor] at hmove
  rcases hmove with ⟨hepoch, rfl, hsame⟩ |
    ⟨hsuite, hpos, hepoch, hindex, k, nextKey, rfl, hkeyStep, hto⟩
  · refine ⟨⟨m, drKey, none⟩, rfl, ⟨?_, pos.messageKey, padded, _, hmix, hct⟩, hdrTurn, ?_,
      fun _ => rfl⟩
    · rw [hseal.pqMessageEpoch, hepoch]
      simp
    · exact .of_cursor (hcur.trans hstarted.1) hsame
  · refine ⟨⟨m, drKey, some k⟩, rfl, ⟨?_, pos.messageKey, padded, _, hmix, hct⟩, hdrTurn, ?_, ?_⟩
    · rw [hseal.pqMessageEpoch]
      simpa using hpos
    · refine ⟨[], [], ?_, .inl ⟨rfl, hcur.trans hstarted.1⟩, fun _ hp => nomatch hp⟩
      have hshown : (Emission.pq ⟨m, drKey, some k⟩).toList =
          [⟨s.pq.sendCursor.chain, s.pq.sendCursor.count, k⟩] := by
        rw [← hindex, ← hepoch, ← hseal.pqMessageEpoch, ← hseal.pqKeyIndex]
        rfl
      rw [hto, hshown]
      exact .yield hkeyStep
    · intro hclassic
      rw [hclassic] at hsuite
      cases hsuite

theorem SendLeft.turns {env : Env} (hleft : SendLeft C env s t) :
    DrTurn C s t [] [] ∧ PqTurn C s.pq t.pq [] := by
  have hstarted : s.pq.SameSend (s.startedPq C env) :=
    (PqRatchet.maybeStartByAge_otherExchange s.suiteId s.pq env).sameSend
  constructor
  · rcases hleft.dr with hdr | ⟨drKey, next, hck, hbound, hdr⟩
    · refine DrTurn.of_eq ?_
      unfold drCursor
      rw [hdr]
    · obtain ⟨hckStep, hcursor⟩ := drCursor_advance hck hbound hdr
      refine ⟨[], [], ?_, List.nil_sublist _, fun _ hp => nomatch hp⟩
      rw [hcursor]
      exact .skip hckStep
  · rcases hleft.pq with hpq | hpq | ⟨⟨epoch, index, key⟩, hpq⟩
    · rw [hpq]
      exact .of_same (.refl _)
    · rw [hpq]
      exact .of_same hstarted
    · obtain ⟨hcur, hmove⟩ := PqRatchet.pqSendKey_cursor hpq
      rw [hstarted.cursor] at hmove
      rcases hmove with ⟨-, -, hsame⟩ | ⟨-, -, -, -, k, next, -, hkeyStep, hto⟩
      · exact .of_cursor (hcur.trans hstarted.1) hsame
      · refine ⟨[], [], ?_, .inl ⟨rfl, hcur.trans hstarted.1⟩, fun _ hp => nomatch hp⟩
        rw [hto]
        exact .skip hkeyStep

/-! ### Reading -/

theorem Derives.sending {now : Nat} {m : EncryptedRatchetMessage} {key : Bytes}
    (h : Derives C now m s key t) :
    t.drCursor = s.drCursor ∧ t.dr.sendingChainLength = s.dr.sendingChainLength := by
  obtain ⟨-, -, _, _, _, -, -, rfl⟩ := h
  exact ⟨rfl, rfl⟩

/-- Reading leaves the classical sender, or opens a chain under the key it drew. -/
theorem ClassicalKey.sending {env : Env} {m : EncryptedRatchetMessage} {secret : Option Bytes}
    {key : Bytes} {stepped : Bool} (h : ClassicalKey C env m secret s key stepped t) :
    t.drCursor = s.drCursor ∨
      (draws (drawn C env) = [t.dr.dhRatchetPublic] ∧ t.dr.sendingChainLength = 0) := by
  cases h with
  | skipped _ => exact .inl rfl
  | live _ _ _ hkey => exact .inl hkey.sending.1
  | ratchet _ _ _ _ hturn hkey =>
    refine .inr ⟨?_, hkey.sending.2⟩
    unfold drawn
    rw [hturn.fresh]
    exact congrArg (fun c => [Cursor.chain c]) hkey.sending.1.symm

theorem cleanupIfDue_drCursor (s : Session) (now : Nat) :
    (s.cleanupIfDue now).drCursor = s.drCursor := by
  unfold cleanupIfDue
  split
  · rfl
  · rfl

theorem cleanupIfDue_sameSend (s : Session) (now : Nat) :
    s.pq.SameSend (s.cleanupIfDue now).pq := by
  unfold cleanupIfDue
  split
  · exact ⟨rfl, rfl⟩
  · exact .refl _

theorem draws_append (l l' : List Seen) : draws (l ++ l') = draws l ++ draws l' :=
  List.filterMap_append

theorem sents_append (l l' : List Seen) : sents (l ++ l') = sents l ++ sents l' :=
  List.filterMap_append

theorem sents_drawn (env : Env) : sents (drawn C env) = [] := by
  unfold drawn
  split
  · rfl
  · rfl

theorem accepted_drTurn {env : Env} {m : EncryptedRatchetMessage} {secret : Option Bytes}
    {key plaintext : Bytes} {stepped : Bool} {pq : PqRatchet}
    (hkey : ClassicalKey C env m secret (s.cleanupIfDue env.now) key stepped t) :
    DrTurn C s { t.finish C env m stepped pq with prekeyHeader := none }
      (drawn C env ++ [.accepted m plaintext]) [] := by
  obtain ⟨proof, authentication, hfinish⟩ := finish_frame (C := C) env m stepped pq t
  rw [hfinish]
  rcases hkey.sending with hsame | ⟨hdraw, hzero⟩
  · exact .of_eq (hsame.trans (cleanupIfDue_drCursor s env.now))
  · refine .opens ?_ hzero
    rw [draws_append, hdraw]
    exact List.sublist_append_left _ _

/-- The events after which an epoch can be named a second time: a ciphertext for the last
epoch, read in the last epoch. -/
def NoEpochRepeat (s : Session) : Event → Prop
  | .decrypt _ m _ => s.pq.currentPqEpoch = PqRatchet.lastEpoch →
      ∀ ekHash ct, m.pqRatchetField ≠ some (.ciphertext PqRatchet.lastEpoch ekHash ct)
  | _ => True

theorem accepted_pqSend (hC : C.Sized) (h : Saveable s) {env : Env} {m : EncryptedRatchetMessage}
    {secret : Option Bytes} (hlimit : NoEpochRepeat s (.decrypt env m secret)) {stepped : Bool}
    (hframe : AcceptFrame C env m stepped (s.cleanupIfDue env.now) t) :
    s.pq.SameSend t.pq ∨ s.pq.OpensEpoch t.pq := by
  obtain ⟨-, -, pqKey, pq, hreceive, hcommit⟩ := hframe
  have hdue := h.cleanupIfDue env.now
  have hstepped : (steppedPq C env stepped (s.cleanupIfDue env.now)).WellFormed ∧
      (s.cleanupIfDue env.now).pq.SameSend (steppedPq C env stepped (s.cleanupIfDue env.now)) := by
    unfold steppedPq
    cases stepped with
    | true =>
      exact ⟨hdue.pq.maybeAdvance hC _ _, (PqRatchet.maybeAdvance_otherExchange _ _ _).sameSend⟩
    | false => exact ⟨hdue.pq, .refl _⟩
  have hpq : pq.WellFormed :=
    (PqRatchet.pqReceiveKey_wellFormed hC _ _ _ _ hstepped.1).of_ok hreceive
  have hread : s.pq.SameSend pq := ((cleanupIfDue_sameSend s env.now).trans hstepped.2).trans
    (PqRatchet.pqReceiveKey_sameSend hreceive)
  rw [hcommit]
  rcases PqRatchet.commitPqPostDecrypt_send hC hpq (s.cleanupIfDue env.now).suiteId env
      (m := m) (fun hlast => hlimit (hread.1.symm.trans hlast)) with hsame | hopen
  · exact .inl (hread.trans hsame)
  · refine .inr ⟨?_, hopen.2⟩
    rw [← hread.1]
    exact hopen.1

/-- What one event is to the two senders: `emitted` are the messages it returned. -/
structure SendTurn (C : Crypto) (s t : Session) (seen : List Seen) (emitted : List Emission) :
    Prop where
  messages : emitted.map Emission.message = sents seen
  valid : ∀ x ∈ emitted, x.Valid C
  dr : DrTurn C s t seen (emitted.map Emission.dr)
  classic : s.suiteId.isPqRatchet = false → ∀ x ∈ emitted, x.pqKey = none

theorem SendTurn.silent {seen : List Seen} (hsents : sents seen = []) (hdr : DrTurn C s t seen []) :
    SendTurn C s t seen [] where
  messages := hsents.symm
  valid _ hx := nomatch hx
  dr := hdr
  classic _ _ hx := nomatch hx

/-- **One event is one turn of each sender.** -/
theorem sendTurn_step (C : Crypto) (s : Session) (event : Event) :
    ∃ emitted, SendTurn C s (s.step C event).1 (s.step C event).2 emitted ∧
      (C.Sized → Saveable s → NoEpochRepeat s event →
        PqTurn C s.pq (s.step C event).1.pq (emitted.filterMap Emission.pq)) := by
  have hcase := step_case C s event
  generalize s.step C event = r at hcase ⊢
  cases hcase with
  | sent _ hstep hseal =>
    obtain ⟨x, rfl, hvalid, hdr, hpq, hclassic⟩ := hstep.turns hseal
    refine ⟨[x], ⟨rfl, ?_, hdr, ?_⟩, fun _ _ _ => ?_⟩
    · intro y hy
      rw [List.mem_singleton.mp hy]
      exact hvalid
    · intro hsuite y hy
      rw [List.mem_singleton.mp hy]
      exact hclassic hsuite
    · rw [show [x].filterMap Emission.pq = x.pq.toList by cases hx : x.pq <;> simp [hx]]
      exact hpq
  | unsent hleft => exact ⟨[], .silent rfl hleft.turns.1, fun _ _ _ => hleft.turns.2⟩
  | @accepted env m _ _ plaintext _ _ _ hkey hopen =>
    refine ⟨[], .silent ?_ (accepted_drTurn hkey), fun hC hsave hlimit => ?_⟩
    · rw [sents_append, sents_drawn]
      rfl
    · exact (accepted_pqSend hC hsave hlimit (acceptFrame hkey hopen)).elim .of_same .of_opens
  | @refused env _ _ _ hroll =>
    unfold RolledBack at hroll
    rw [hroll]
    refine ⟨[], .silent (sents_drawn env) (.of_eq (cleanupIfDue_drCursor s env.now)), ?_⟩
    intro _ _ _
    exact .of_same (cleanupIfDue_sameSend s env.now)
  | answered hfirst _ _ =>
    exact ⟨[], .silent rfl (.restarts rfl hfirst hfirst), fun _ _ _ => .of_same (.refl _)⟩
  | unanswered | notLoaded | marked | headed | expecting =>
    exact ⟨[], .silent rfl (.of_eq rfl), fun _ _ _ => .of_same (.refl _)⟩
  | loaded _ hload =>
    obtain ⟨pq, sid, -, hpq, rfl⟩ := hload
    refine ⟨[], .silent rfl (.of_eq rfl), fun _ hsave _ => ?_⟩
    obtain rfl := hpq hsave.suiteId hsave.pq
    exact .of_same ⟨rfl, rfl⟩

/-! ## A whole run -/

/-- A state of the run had the sending chain `p.2` under the ratchet key `p.1`, with no
message sent on it yet. -/
def StartsChain (C : Crypto) (s₀ : Session) (events : List Event) (p : Bytes × Bytes) : Prop :=
  ∃ pre, pre <+: events ∧ ∃ s, s = Machine.run (Session.step C) s₀ pre ∧
    p = (s.dr.dhRatchetPublic, s.dr.sendingChainKey) ∧ s.dr.sendingChainLength = 0

/-- A state of the run was in the epoch `p.1`, with the send chain `p.2` at its first
index. -/
def StartsEpoch (C : Crypto) (s₀ : Session) (events : List Event) (p : UInt32 × Bytes) : Prop :=
  ∃ pre, pre <+: events ∧ ∃ s, s = Machine.run (Session.step C) s₀ pre ∧
    p.1 = s.pq.currentPqEpoch ∧ s.pq.sendChain? = some ⟨0, p.2⟩

theorem StartsChain.append {s₀ : Session} {events : List Event} {p : Bytes × Bytes}
    (h : StartsChain C s₀ events p) (more : List Event) : StartsChain C s₀ (events ++ more) p := by
  obtain ⟨pre, hpre, hrest⟩ := h
  exact ⟨pre, hpre.trans (List.prefix_append _ _), hrest⟩

theorem StartsEpoch.append {s₀ : Session} {events : List Event} {p : UInt32 × Bytes}
    (h : StartsEpoch C s₀ events p) (more : List Event) : StartsEpoch C s₀ (events ++ more) p := by
  obtain ⟨pre, hpre, hrest⟩ := h
  exact ⟨pre, hpre.trans (List.prefix_append _ _), hrest⟩

/-- The classical positions shown so far are sound: each chain was opened under a drawn key
and started in a state of the run. -/
def DrHistory (C : Crypto) (s₀ : Session) (events : List Event) (shown : List (Shown Bytes Bytes)) :
    Prop :=
  ∃ base opened starts,
    Sound (ckStep C) s₀.dr.dhRatchetPublic base (Machine.run (Session.step C) s₀ events).drCursor
      shown opened starts ∧
    opened.Sublist (draws (Machine.log (Session.step C) s₀ events)) ∧
    ∀ p ∈ starts, StartsChain C s₀ events p

/-- The PQ positions shown so far are sound: the epochs opened are all different and none
is later than the current one. -/
def PqHistory (C : Crypto) (s₀ : Session) (events : List Event) (shown : List (Shown UInt32 Bytes)) :
    Prop :=
  ∃ base opened starts,
    Sound (PqRatchet.pqKeyStep C) s₀.pq.currentPqEpoch base
      (Machine.run (Session.step C) s₀ events).pq.sendCursor shown opened starts ∧
    (s₀.pq.currentPqEpoch :: opened).Nodup ∧
    (∀ e ∈ s₀.pq.currentPqEpoch :: opened,
      e ≤ (Machine.run (Session.step C) s₀ events).pq.currentPqEpoch) ∧
    ∀ p ∈ starts, 0 < p.1 → StartsEpoch C s₀ events p

theorem DrHistory.extend {s₀ : Session} {events : List Event} {event : Event}
    {shown shown' : List (Shown Bytes Bytes)} (h : DrHistory C s₀ events shown)
    (hfresh : (s₀.dr.dhRatchetPublic ::
      draws (Machine.log (Session.step C) s₀ (events ++ [event]))).Nodup)
    (hturn : DrTurn C (Machine.run (Session.step C) s₀ events)
      (Machine.run (Session.step C) s₀ (events ++ [event]))
      ((Machine.run (Session.step C) s₀ events).step C event).2 shown') :
    DrHistory C s₀ (events ++ [event]) (shown ++ shown') := by
  obtain ⟨base, opened, starts, hsound, hopened, hstarts⟩ := h
  obtain ⟨opened', starts', hmove, hopened', hstarts'⟩ := hturn
  have hsub : (opened ++ opened').Sublist
      (draws (Machine.log (Session.step C) s₀ (events ++ [event]))) := by
    rw [Machine.log_concat, draws_append]
    exact hopened.append hopened'
  obtain ⟨base', hsound'⟩ := hsound.turn hmove (hfresh.sublist (hsub.cons_cons _))
  refine ⟨base', _, _, hsound', hsub, ?_⟩
  intro p hp
  rcases List.mem_append.mp hp with hold | hnew
  · exact (hstarts p hold).append _
  · obtain ⟨hp, hzero⟩ := hstarts' p hnew
    exact ⟨_, List.prefix_refl _, _, rfl, hp, hzero⟩

theorem PqHistory.extend {s₀ : Session} {events : List Event} {event : Event}
    {shown shown' : List (Shown UInt32 Bytes)} (h : PqHistory C s₀ events shown)
    (hturn : PqTurn C (Machine.run (Session.step C) s₀ events).pq
      (Machine.run (Session.step C) s₀ (events ++ [event])).pq shown') :
    PqHistory C s₀ (events ++ [event]) (shown ++ shown') := by
  obtain ⟨base, opened, starts, hsound, hnodup, hle, hstarts⟩ := h
  obtain ⟨opened', starts', hmove, hopened', hstarts'⟩ := hturn
  -- an epoch opened now is later than every epoch opened before
  have hnext : (s₀.pq.currentPqEpoch :: (opened ++ opened')).Nodup ∧
      ∀ e ∈ s₀.pq.currentPqEpoch :: (opened ++ opened'),
        e ≤ (Machine.run (Session.step C) s₀ (events ++ [event])).pq.currentPqEpoch := by
    rcases hopened' with ⟨rfl, hcur⟩ | ⟨rfl, hlater⟩
    · rw [List.append_nil, hcur]
      exact ⟨hnodup, hle⟩
    · rw [← List.cons_append]
      have hbelow := fun e he => UInt32.lt_of_le_of_lt (hle e he) hlater
      constructor
      · rw [List.nodup_append]
        refine ⟨hnodup, List.nodup_singleton _, ?_⟩
        rintro e he e' he' rfl
        rw [List.mem_singleton.mp he'] at he
        exact UInt32.lt_irrefl _ (hbelow _ he)
      · intro e he
        rcases List.mem_append.mp he with hold | hnew
        · exact UInt32.le_of_lt (hbelow e hold)
        · rw [List.mem_singleton.mp hnew]
          exact UInt32.le_refl _
  obtain ⟨base', hsound'⟩ := hsound.turn hmove hnext.1
  refine ⟨base', _, _, hsound', hnext.1, hnext.2, ?_⟩
  intro p hp hpos
  rcases List.mem_append.mp hp with hold | hnew
  · exact (hstarts p hold hpos).append _
  · obtain ⟨hepoch, hchain⟩ := hstarts' p hnew
    exact ⟨_, List.prefix_refl _, _, rfl, hepoch, hchain⟩

/-- What the messages returned so far were sealed under. -/
structure SendHistory (C : Crypto) (s₀ : Session) (events : List Event)
    (emitted : List Emission) : Prop where
  messages : emitted.map Emission.message = sents (Machine.log (Session.step C) s₀ events)
  valid : ∀ x ∈ emitted, x.Valid C
  dr : DrHistory C s₀ events (emitted.map Emission.dr)
  classic : s₀.suiteId.isPqRatchet = false → ∀ x ∈ emitted, x.pqKey = none
  pq : s₀.suiteId = .pqRatchet → Saveable (Machine.run (Session.step C) s₀ events) ∧
    PqHistory C s₀ events (emitted.filterMap Emission.pq)

theorem run_suiteId (C : Crypto) (s₀ : Session) (events : List Event) :
    (Machine.run (Session.step C) s₀ events).suiteId = s₀.suiteId :=
  (heard_run C s₀ events).kept.suiteId

theorem SendHistory.extend (hC : C.Sized) {s₀ : Session} {events : List Event} {event : Event}
    {emitted : List Emission} (h : SendHistory C s₀ events emitted)
    (hlimit : NoEpochRepeat (Machine.run (Session.step C) s₀ events) event)
    (hfresh : (s₀.dr.dhRatchetPublic ::
      draws (Machine.log (Session.step C) s₀ (events ++ [event]))).Nodup) :
    ∃ emitted', SendHistory C s₀ (events ++ [event]) emitted' := by
  obtain ⟨new, hturn, hpq⟩ := sendTurn_step C (Machine.run (Session.step C) s₀ events) event
  rw [← Machine.run_concat] at hturn hpq
  have hboth : ∀ {P : Emission → Prop}, (∀ x ∈ emitted, P x) → (∀ x ∈ new, P x) →
      ∀ x ∈ emitted ++ new, P x := by
    intro P hold hnew x hx
    exact (List.mem_append.mp hx).elim (hold x) (hnew x)
  refine ⟨emitted ++ new, ?_, hboth h.valid hturn.valid, ?_, ?_, ?_⟩
  · rw [List.map_append, h.messages, hturn.messages, Machine.log_concat, sents_append]
  · rw [List.map_append]
    exact h.dr.extend hfresh hturn.dr
  · intro hsuite
    refine hboth (h.classic hsuite) (hturn.classic ?_)
    rw [run_suiteId]
    exact hsuite
  · intro hsuite
    obtain ⟨hsave, hhistory⟩ := h.pq hsuite
    rw [List.filterMap_append]
    refine ⟨?_, hhistory.extend (hpq hC hsave hlimit)⟩
    rw [Machine.run_concat]
    exact hsave.step hC event

/-! ### Creation -/

theorem created_sending (h : Created C s) : s.dr.sendingChainLength = 0 := by
  obtain ⟨first, h⟩ := h
  cases h with
  | initiator h =>
    obtain ⟨_, _, _, _, _, _, -, -, -, -, -, rfl⟩ := newInitiatorSession_ok h
    rfl
  | @responder env _ _ _ _ m _ plaintext h =>
    obtain ⟨s₁, hs₁, hrun⟩ := newResponderSession_ok h
    obtain ⟨key, stepped, t, pq, hkey, hopen, rfl⟩ := decryptWithIdentitySecret_ok hrun
    obtain ⟨_, _, hfinish⟩ := finish_frame (C := C) env m stepped pq t
    rw [hfinish]
    rcases hkey.sending with hsame | ⟨-, hzero⟩
    · rw [cleanupIfDue_drCursor] at hsame
      obtain ⟨_, _, _, _, _, _, _, _, _, _, _, -, -, -, -, -, -, -, -, rfl⟩ :=
        responderSession_ok hs₁
      exact UInt32.toNat_inj.mp (congrArg Cursor.count hsame)
    · exact hzero

theorem created_pqSend (hC : C.Sized) (h : Created C s) (hsuite : s.suiteId = .pqRatchet) :
    (s.pq.currentPqEpoch = 0 ∧ s.pq.sendChain? = none) ∨ ∃ key, s.pq.sendChain? = some ⟨0, key⟩ := by
  obtain ⟨first, h⟩ := h
  cases h with
  | initiator h =>
    obtain ⟨_, _, _, _, _, _, -, -, -, -, -, rfl⟩ := newInitiatorSession_ok h
    exact .inl ⟨rfl, rfl⟩
  | @responder env _ _ _ _ m _ plaintext h =>
    obtain ⟨s₁, hs₁, hrun⟩ := newResponderSession_ok h
    obtain ⟨key, stepped, t, pq, hkey, hopen, rfl⟩ := decryptWithIdentitySecret_ok hrun
    have hframe := acceptFrame hkey hopen
    have hs : s₁.suiteId = .pqRatchet :=
      ((cleanupIfDue_same _ env.now).trans hframe.same).suiteId.symm.trans hsuite
    have hsave := saveable_responder hC hs₁ hs
    obtain ⟨_, _, _, _, _, _, _, _, _, _, _, -, -, -, -, -, -, -, -, rfl⟩ :=
      responderSession_ok hs₁
    rcases @accepted_pqSend _ _ _ hC hsave _ _ none (fun hlast => nomatch hlast) _ hframe with
      hsame | hopen
    · exact .inl ⟨hsame.1, hsame.2⟩
    · exact .inr hopen.2

theorem sendHistory_start (hC : C.Sized) (h : Created C s) : SendHistory C s [] [] := by
  refine ⟨rfl, fun _ hx => (nomatch hx), ?_, fun _ _ hx => (nomatch hx), ?_⟩
  · have hzero := created_sending h
    refine ⟨fun _ => s.dr.sendingChainKey, [],
      [(s.dr.dhRatchetPublic, s.dr.sendingChainKey)], ?_, List.nil_sublist _, ?_⟩
    · show Sound _ _ _ s.drCursor [] [] _
      rw [drCursor_of_zero hzero]
      exact sound_start _ _
    · intro p hp
      rw [List.mem_singleton.mp hp]
      exact ⟨[], List.prefix_refl _, s, rfl, rfl, hzero⟩
  · intro hsuite
    refine ⟨saveable_created hC h hsuite, ?_⟩
    have hcursor : s.pq.sendCursor = ⟨s.pq.currentPqEpoch, s.pq.sendCursor.key, 0⟩ := by
      rcases created_pqSend hC h hsuite with ⟨-, hnone⟩ | ⟨key, hkey⟩
      · unfold PqRatchet.sendCursor
        rw [hnone]
      · rw [PqRatchet.sendCursor_of_chain hkey]
        rfl
    refine ⟨fun _ => s.pq.sendCursor.key, [], [(s.pq.currentPqEpoch, s.pq.sendCursor.key)], ?_,
      List.nodup_singleton _, ?_, ?_⟩
    · show Sound _ _ _ s.pq.sendCursor [] [] _
      rw [hcursor]
      exact sound_start _ _
    · intro e he
      rw [List.mem_singleton.mp he]
      exact UInt32.le_refl _
    · intro p hp hpos
      rw [List.mem_singleton.mp hp] at hpos ⊢
      refine ⟨[], List.prefix_refl _, s, rfl, rfl, ?_⟩
      rcases created_pqSend hC h hsuite with ⟨hcur, -⟩ | ⟨key, hkey⟩
      · rw [hcur] at hpos
        exact absurd hpos (UInt32.lt_irrefl 0)
      · rw [PqRatchet.sendCursor_of_chain hkey]
        exact hkey

theorem sendHistory_run (hC : C.Sized) {s₀ : Session} (h₀ : Created C s₀) {events : List Event}
    (hlimit : Machine.Along (Session.step C) NoEpochRepeat s₀ events) :
    (s₀.dr.dhRatchetPublic :: draws (Machine.log (Session.step C) s₀ events)).Nodup →
      ∃ emitted, SendHistory C s₀ events emitted := by
  refine Machine.history_rule (P := fun events =>
    (s₀.dr.dhRatchetPublic :: draws (Machine.log (Session.step C) s₀ events)).Nodup →
      ∃ emitted, SendHistory C s₀ events emitted) ?_ ?_ hlimit
  · intro events event _ hevent ih hfresh
    have hlead : (s₀.dr.dhRatchetPublic ::
        draws (Machine.log (Session.step C) s₀ events)).Nodup := by
      rw [Machine.log_concat, draws_append] at hfresh
      exact hfresh.sublist ((List.sublist_append_left _ _).cons_cons _)
    obtain ⟨emitted, h⟩ := ih hlead
    exact h.extend hC hevent hfresh
  · intro _
    exact ⟨[], sendHistory_start hC h₀⟩

/-! ## The theorem -/

/-- `m` is sealed under the key its numbers name: key `message_number` of the chain with
base `chain`, mixed with key `pq_key_index` of the send chain with base `epochChain` when it
names an epoch. -/
def SealedUnder (C : Crypto) (chain epochChain : Bytes) (m : EncryptedRatchetMessage) : Prop :=
  ∃ drKey pqKey messageKey padded ad,
    keyAt (ckStep C) chain m.messageNumber.toNat = some drKey ∧
    (0 < m.pqMessageEpoch →
      keyAt (PqRatchet.pqKeyStep C) epochChain m.pqKeyIndex.toNat = pqKey ∧ pqKey.isSome) ∧
    (m.pqMessageEpoch = 0 → pqKey = none) ∧
    mixPqMessageKey C drKey pqKey = .ok messageKey ∧
    C.aeadEncrypt messageKey m.nonce padded (some ad) = .ok m.ciphertext

namespace SendHistory

variable {s₀ : Session} {events : List Event} {emitted : List Emission}

theorem dr_distinct (h : SendHistory C s₀ events emitted) :
    (sents (Machine.log (Session.step C) s₀ events)).Pairwise fun m m' =>
      ¬ (m.dhPublicKey = m'.dhPublicKey ∧ m.messageNumber = m'.messageNumber) := by
  obtain ⟨base, opened, starts, hsound, -, -⟩ := h.dr
  rw [← h.messages, List.pairwise_map]
  refine (List.pairwise_map.mp hsound.distinct).imp ?_
  rintro x x' hne ⟨hkey, hnumber⟩
  exact hne ⟨congrArg Vector.toList hkey, congrArg UInt32.toNat hnumber⟩

theorem pq_distinct (h : SendHistory C s₀ events emitted) :
    (sents (Machine.log (Session.step C) s₀ events)).Pairwise fun m m' =>
      0 < m.pqMessageEpoch → 0 < m'.pqMessageEpoch →
        ¬ (m.pqMessageEpoch = m'.pqMessageEpoch ∧ m.pqKeyIndex = m'.pqKeyIndex) := by
  have hsome : ∀ x ∈ emitted, 0 < x.message.pqMessageEpoch → ∃ shown, x.pq = some shown ∧
      shown.chain = x.message.pqMessageEpoch ∧ shown.number = x.message.pqKeyIndex.toNat := by
    intro x hx hpos
    obtain ⟨key, hkey⟩ := Option.isSome_iff_exists.mp ((h.valid x hx).epoch.mpr hpos)
    refine ⟨⟨x.message.pqMessageEpoch, x.message.pqKeyIndex.toNat, key⟩, ?_, rfl, rfl⟩
    unfold Emission.pq
    rw [hkey]
    rfl
  rw [← h.messages, List.pairwise_map]
  cases hsuite : s₀.suiteId.isPqRatchet with
  | false =>
    refine List.Pairwise.imp_of_mem ?_ (List.pairwise_of_forall fun _ _ => True.intro)
    intro x x' hx _ _ hpos
    rw [← (h.valid x hx).epoch, h.classic hsuite x hx] at hpos
    cases hpos
  | true =>
    obtain ⟨-, base, opened, starts, hsound, -, -, -⟩ :=
      h.pq (SuiteID.isPqRatchet_iff.mp hsuite)
    refine List.Pairwise.imp_of_mem ?_ (List.pairwise_filterMap.mp hsound.distinct)
    rintro x x' hx hx' hne hpos hpos' ⟨hepoch, hindex⟩
    obtain ⟨shown, hshown, hchain, hnumber⟩ := hsome x hx hpos
    obtain ⟨shown', hshown', hchain', hnumber'⟩ := hsome x' hx' hpos'
    refine hne shown hshown shown' hshown' ⟨?_, ?_⟩
    · rw [hchain, hchain', hepoch]
    · rw [hnumber, hnumber', hindex]

/-- Every message is sealed under the keys its numbers name, on chains started in states of
the run. -/
theorem sealed (h : SendHistory C s₀ events emitted) :
    ∃ (base : Bytes → Bytes) (pqBase : UInt32 → Bytes), ∀ m ∈ sents (Machine.log (Session.step C) s₀ events),
      StartsChain C s₀ events (m.dhPublicKey.toList, base m.dhPublicKey.toList) ∧
      (0 < m.pqMessageEpoch → StartsEpoch C s₀ events (m.pqMessageEpoch, pqBase m.pqMessageEpoch)) ∧
      SealedUnder C (base m.dhPublicKey.toList) (pqBase m.pqMessageEpoch) m := by
  obtain ⟨base, opened, starts, hsound, -, hstarts⟩ := h.dr
  have hpq : ∃ pqBase : UInt32 → Bytes, ∀ x ∈ emitted, ∀ key, x.pqKey = some key →
      StartsEpoch C s₀ events (x.message.pqMessageEpoch, pqBase x.message.pqMessageEpoch) ∧
      keyAt (PqRatchet.pqKeyStep C) (pqBase x.message.pqMessageEpoch)
        x.message.pqKeyIndex.toNat = some key := by
    cases hsuite : s₀.suiteId.isPqRatchet with
    | false =>
      refine ⟨fun _ => [], fun x hx key hkey => ?_⟩
      rw [h.classic hsuite x hx] at hkey
      cases hkey
    | true =>
      obtain ⟨-, pqBase, _, pqStarts, hpqSound, -, -, hpqStarts⟩ :=
        h.pq (SuiteID.isPqRatchet_iff.mp hsuite)
      refine ⟨pqBase, fun x hx key hkey => ?_⟩
      have hshown : (⟨x.message.pqMessageEpoch, x.message.pqKeyIndex.toNat, key⟩ :
          Shown UInt32 Bytes) ∈ emitted.filterMap Emission.pq := by
        refine List.mem_filterMap.mpr ⟨x, hx, ?_⟩
        unfold Emission.pq
        rw [hkey]
        rfl
      refine ⟨hpqStarts _ (hpqSound.shownStarted _ hshown) ?_, hpqSound.keys _ hshown⟩
      rw [← (h.valid x hx).epoch, hkey]
      rfl
  obtain ⟨pqBase, hpq⟩ := hpq
  refine ⟨base, pqBase, ?_⟩
  rw [← h.messages]
  intro m hm
  obtain ⟨x, hx, rfl⟩ := List.mem_map.mp hm
  have hshown : x.dr ∈ emitted.map Emission.dr := List.mem_map_of_mem hx
  have hpos : 0 < x.message.pqMessageEpoch → ∃ key, x.pqKey = some key := fun hpos =>
    Option.isSome_iff_exists.mp ((h.valid x hx).epoch.mpr hpos)
  obtain ⟨messageKey, padded, ad, hmix, hct⟩ := (h.valid x hx).sealing
  refine ⟨hstarts _ (hsound.shownStarted _ hshown), ?_, x.drKey, x.pqKey, messageKey, padded, ad,
    hsound.keys _ hshown, ?_, ?_, hmix, hct⟩
  · intro hepoch
    obtain ⟨key, hkey⟩ := hpos hepoch
    exact (hpq x hx key hkey).1
  · intro hepoch
    obtain ⟨key, hkey⟩ := hpos hepoch
    rw [hkey]
    exact ⟨(hpq x hx key hkey).2, rfl⟩
  · intro hzero
    cases hkey : x.pqKey with
    | none => rfl
    | some key =>
      have := (h.valid x hx).epoch.mp (by rw [hkey]; rfl)
      rw [hzero] at this
      exact absurd this (UInt32.lt_irrefl 0)

end SendHistory

/-- **No sending position is used twice.** Over any run of a new session, with ratchet keys
drawn fresh and no exchange completed again at the last epoch, no two returned messages have
the same ratchet key and number, nor the same PQ epoch and index; and each message is sealed
under the keys its numbers name, counted from the start of its two chains. -/
theorem sendPositions_distinct (C : Crypto) (hC : C.Sized) (s₀ : Session) (h₀ : Created C s₀)
    (events : List Event) (log : List Seen) (hlog : log = Machine.log (Session.step C) s₀ events)
    (hfresh : (s₀.dr.dhRatchetPublic :: draws log).Nodup)
    (hlimit : Machine.Along (Session.step C) NoEpochRepeat s₀ events) :
    ((sents log).Pairwise fun m m' =>
      ¬ (m.dhPublicKey = m'.dhPublicKey ∧ m.messageNumber = m'.messageNumber)) ∧
    ((sents log).Pairwise fun m m' => 0 < m.pqMessageEpoch → 0 < m'.pqMessageEpoch →
      ¬ (m.pqMessageEpoch = m'.pqMessageEpoch ∧ m.pqKeyIndex = m'.pqKeyIndex)) ∧
    ∃ (base : Bytes → Bytes) (pqBase : UInt32 → Bytes), ∀ m ∈ sents log,
      StartsChain C s₀ events (m.dhPublicKey.toList, base m.dhPublicKey.toList) ∧
      (0 < m.pqMessageEpoch → StartsEpoch C s₀ events (m.pqMessageEpoch, pqBase m.pqMessageEpoch)) ∧
      SealedUnder C (base m.dhPublicKey.toList) (pqBase m.pqMessageEpoch) m := by
  subst hlog
  obtain ⟨emitted, hsend⟩ := sendHistory_run hC h₀ hlimit hfresh
  exact ⟨hsend.dr_distinct, hsend.pq_distinct, hsend.sealed⟩

def sendStart : Session :=
  match newInitiatorSession sizedCrypto ⟨10, 21, 22, 23, 24⟩ (leBytes 32 3) (leBytes 32 6)
    (leBytes 32 5) (ofText "bob") (ofText "alice") .pqRatchet with
  | .ok s => s
  | .error _ => sampleSession

def sendEvents : List Event :=
  [.encrypt ⟨700000, 1, 2, 3, 4⟩ [104, 105], .decrypt ⟨700001, 5, 6, 7, 8⟩ strayMessage none,
    .saveLoad 700002, .encrypt ⟨700003, 9, 10, 11, 12⟩ [33]]

theorem sendStart_created : Created sizedCrypto sendStart :=
  ⟨[], @Begins.initiator sizedCrypto ⟨10, 21, 22, 23, 24⟩ (leBytes 32 3) (leBytes 32 6)
    (leBytes 32 5) (ofText "bob") (ofText "alice") .pqRatchet _ rfl⟩

/-- It writes, meets a stray message, is saved and loaded, and writes again: the two
messages have different positions. -/
theorem sendPositions_distinct_initiator : ∃ m m' : EncryptedRatchetMessage,
    sents (Machine.log (Session.step sizedCrypto) sendStart sendEvents) = [m, m'] ∧
      ¬ (m.dhPublicKey = m'.dhPublicKey ∧ m.messageNumber = m'.messageNumber) := by
  have h := sendPositions_distinct sizedCrypto sizedCrypto_sized _ sendStart_created sendEvents _
    rfl (by decide +kernel) ⟨trivial, fun _ _ _ => (nomatch ·), trivial, trivial, trivial⟩
  obtain ⟨m, m', hsents⟩ := List.length_eq_two.mp (show (sents (Machine.log
    (Session.step sizedCrypto) sendStart sendEvents)).length = 2 by decide +kernel)
  rw [hsents] at h
  exact ⟨m, m', hsents, (List.pairwise_cons.mp h.1).1 m' (List.mem_singleton.mpr rfl)⟩

end Session

end ConstructCore
