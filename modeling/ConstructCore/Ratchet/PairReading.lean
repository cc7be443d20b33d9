import ConstructCore.Ratchet.Pairing
import ConstructCore.Ratchet.Progress

/-!
# Reading keeps two sessions paired

A letter is read with a filed key, off the reader's chain, or after a DH step onto the
writer's latest chain. In each case the reader ends where the ledger says, and the two sides
are still `Paired`; after a DH step the reader is the one ahead.

A letter whose key is gone can also meet the reader long after its chain was left: it then
makes the DH step on an old ratchet key. With collision-free key derivation and an AEAD that
opens nothing else, such a letter is refused (`Paired.stale_refused`).
-/

namespace ConstructCore

open Bytes Op KeyChain

variable {C : Crypto}

/-! ## The receiving chain -/

section Chain

variable {base : Bytes → Bytes} {reached : Bytes → Nat} {opened : List Bytes} {cur : Bytes}
  {s t : Session} {done : Bytes → Nat → Prop} {lost : Bytes × UInt32 → Prop}

section

variable (h : Settled (ckStep C) slot base reached opened cur s.dr.receivingChainKey
    s.dr.skippedMessageKeys done lost)
  (hcount : reached cur = s.dr.receivingChainLength.toNat)
  (hbound : ∀ d ∈ opened, reached d < 2 ^ 32)

include h hcount hbound

theorem settled_moves {now position : Nat} {chain : Bytes}
    {skipped : AgedStore (Bytes × UInt32) Bytes} (hposition : position < 2 ^ 32)
    (hmove : Session.Moves C now cur s position chain skipped) :
    Settled (ckStep C) slot base (Function.update reached cur position) opened cur chain skipped
      done lost := by
  unfold Session.Moves at hmove
  rw [← hcount] at hmove
  refine h.advance hmove ?_
  intro d hd i j hi hj heq
  have := hbound d hd
  exact slot_inj (by omega) (by omega) heq

theorem settled_derives {now : Nat} {m : EncryptedRatchetMessage} {key : Bytes}
    (hcur : m.dhPublicKey.toList = cur) (hkey : Session.Derives C now m s key t)
    (hdone : done cur m.messageNumber.toNat) :
    Settled (ckStep C) slot base (Function.update reached cur (m.messageNumber.toNat + 1)) opened
      cur t.dr.receivingChainKey t.dr.skippedMessageKeys done lost := by
  obtain ⟨-, hlt, chain, next, skipped, hmove, hck, rfl⟩ := hkey
  rw [hcur] at hmove
  have hsettled := settled_moves h hcount hbound (by omega) hmove
  have hyield := hsettled.yield (ckStep_of_ok hck) (by rw [Function.update_self]; exact hdone)
  rw [Function.update_self, Function.update_idem] at hyield
  exact hyield

end

theorem Session.Derives.keyAt {now : Nat} {m : EncryptedRatchetMessage} {key : Bytes}
    (h : Session.Derives C now m s key t) :
    keyAt (ckStep C) s.dr.receivingChainKey
      (m.messageNumber.toNat - s.dr.receivingChainLength.toNat) = some key := by
  obtain ⟨-, -, chain, next, skipped, hmove, hck, -⟩ := h
  exact keyAt_of_step hmove.stateAt (ckStep_of_ok hck)

theorem Session.Derives.length {now : Nat} {m : EncryptedRatchetMessage} {key : Bytes}
    (h : Session.Derives C now m s key t) :
    t.dr.receivingChainLength.toNat = m.messageNumber.toNat + 1 := by
  obtain ⟨-, hbound, chain, next, skipped, -, -, rfl⟩ := h
  show (UInt32.ofNat _).toNat = _
  rw [UInt32.toNat_ofNat', Nat.mod_eq_of_lt hbound]

end Chain

/-! ## Changes the pairing does not see -/

def Side.at (y : Side) (s : Session) : Side := { y with session := s }

/-- The session with the same ratchet and the same ends. -/
structure Session.SameRatchet (s t : Session) : Prop where
  dr : t.dr = s.dr
  proof : t.identityProof = s.identityProof
  version : t.peerAdVersion = s.peerAdVersion
  same : Session.SameIdentity s t

theorem Letter.Written.of_same {s t : Session} {l : Ledger} {x : Letter} (h : x.Written C s l)
    (hdr : t.dr = s.dr) (hs : Session.SameIdentity s t) : x.Written C t l := by
  obtain ⟨hchain, hposition, hbound, hprevious, hsuite, hversion, hpq, hsealed⟩ := h
  rw [← hdr] at hchain hprevious
  rw [← hs.suiteId] at hsuite hpq hsealed
  rw [← hs.sessionId, ← hs.localUserId, ← hs.contactId] at hsealed
  exact ⟨hchain, hposition, hbound, hprevious, hsuite, hversion, hpq, hsealed⟩

theorem Sends.of_same {s t : Session} {l : Ledger} (h : Sends C s l) (hdr : t.dr = s.dr)
    (hs : Session.SameIdentity s t) : Sends C t l := by
  refine ⟨?_, ?_, fun x hx => (h.letters x hx).of_same hdr hs, h.distinct⟩
  · rw [hdr]
    exact h.state
  · rw [hdr]
    exact h.sent

/-- Only the ratchet, the ends, the proof and the version of a session matter. -/
theorem Paired.of_same {used : List Bytes} {x y : Side} (h : Paired C used x y) {t : Session}
    (ht : y.session.SameRatchet t) : Paired C used x (y.at t) := by
  have hdr : (y.at t).session.dr = y.session.dr := ht.dr
  have hproof : (y.at t).session.identityProof = y.session.identityProof := ht.proof
  refine ⟨?_, ?_, h.matched.to_same ht.same, ?_⟩
  · have hgets := h.left.gets
    refine { h.left with gets := ?_ }
    refine { hgets with remote := ?_, settled := ?_, count := ?_, ancestry := ?_ }
    · rw [hdr]
      exact hgets.remote
    · rw [hdr]
      exact hgets.settled
    · rw [hdr]
      exact hgets.count
    · rw [hdr]
      exact hgets.ancestry
  · have hgets := h.right.gets
    refine { h.right with
      key := ?_, sends := h.right.sends.of_same hdr ht.same, gets := { hgets with chain := ?_ },
      named := ?_, version := ht.version.trans h.right.version }
    · rw [hdr]
      exact h.right.key
    · rw [hdr]
      exact hgets.chain
    · rw [hdr]
      exact h.right.named
  · rcases h.lead with hx | hy
    · refine .inl { hx with remote := ?_, derived := ?_ }
      · rw [hdr]
        exact hx.remote
      · rw [hdr, hproof]
        exact hx.derived
    · refine .inr { hy with remote := ?_, unseen := ?_, proof := ?_, derived := ?_ }
      · rw [hdr]
        exact hy.remote
      · rw [hdr]
        exact hy.unseen
      · rw [hproof]
        exact hy.proof
      · rw [hdr, hproof]
        exact hy.derived

theorem Paired.mono {used used' : List Bytes} {x y : Side} (h : Paired C used x y)
    (hsub : ∀ d ∈ used, d ∈ used') : Paired C used' x y :=
  ⟨{ h.left with
      names := fun d hd => hsub d (h.left.names d hd), named := hsub _ h.left.named },
    { h.right with
      names := fun d hd => hsub d (h.right.names d hd), named := hsub _ h.right.named },
    h.matched, h.lead⟩

theorem Session.cleanupIfDue_frame (s : Session) (now : Nat) :
    ∃ skipped pqSkipped, s.cleanupIfDue now = { s with
        dr := { s.dr with skippedMessageKeys := skipped }
        pq := { s.pq with pqSkippedKeys := pqSkipped } } ∧
      ∀ a m, skipped.get? a = some m → s.dr.skippedMessageKeys.get? a = some m := by
  unfold Session.cleanupIfDue
  split
  · exact ⟨_, _, rfl, fun a m h => AgedStore.get?_of_get?_evict h⟩
  · exact ⟨_, _, rfl, fun a m h => h⟩

/-- Eviction keeps the pairing, as long as it drops nothing but keys allowed to be lost. -/
theorem Paired.cleaned {used : List Bytes} {x y : Side} (h : Paired C used x y) (now : Nat)
    (hkeeps : ∀ a, y.session.dr.skippedMessageKeys.get? a ≠ none →
      (y.session.cleanupIfDue now).dr.skippedMessageKeys.get? a = none → y.lost a) :
    Paired C used x (y.at (y.session.cleanupIfDue now)) := by
  obtain ⟨skipped, pqSkipped, heq, hsub⟩ := y.session.cleanupIfDue_frame now
  rw [heq] at hkeeps ⊢
  refine ⟨?_, ?_, h.matched.to_same ⟨rfl, rfl, rfl, rfl⟩, ?_⟩
  · have hgets := h.left.gets
    exact { h.left with gets := { hgets with settled := hgets.settled.drop hsub hkeeps } }
  · have hgets := h.right.gets
    have hsends := h.right.sends
    exact { h.right with
      gets := { hgets with }
      sends := { hsends with letters := fun x hx => { hsends.letters x hx with } } }
  · exact h.lead.imp (fun hx => { hx with }) (fun hy => { hy with })

/-! ## The three ways to read -/

/-- The ledger after its reader read a letter and came to `n` on the chain it is on. -/
def Ledger.took (l : Ledger) (n : Nat) (x : Letter) : Ledger :=
  { l with reached := Function.update l.reached l.current n, read := l.read ++ [x] }

/-- The ledger after its reader left its chain at its end for the chain `pub`. -/
def Ledger.turned (l : Ledger) (pub : Bytes) (n : Nat) (x : Letter) : Ledger :=
  { l with
    reached := Function.update (Function.update l.reached l.current (l.sent l.current)) pub n
    opened := l.opened ++ [pub]
    current := pub
    read := l.read ++ [x] }

/-- The ledger after its writer opened the chain `pub`. -/
def Ledger.opens (l : Ledger) (pub base : Bytes) : Ledger :=
  { l with base := Function.update l.base pub base, sent := Function.update l.sent pub 0 }

def Side.on (x : Side) (l : Ledger) : Side := { x with ledger := l }

theorem Ledger.done_took {l : Ledger} (n : Nat) (x : Letter) {d : Bytes} {i : Nat}
    (h : l.Done d i) : (l.took n x).Done d i := by
  obtain ⟨x', hx', hrest⟩ := h
  exact ⟨x', List.mem_append_left _ hx', hrest⟩

theorem Ledger.done_took_self (l : Ledger) (n : Nat) (x : Letter) :
    (l.took n x).Done x.chain x.number :=
  ⟨x, by simp [Ledger.took], rfl, rfl⟩

theorem Ledger.reached_took_self (l : Ledger) (n : Nat) (x : Letter) :
    (l.took n x).reached l.current = n :=
  Function.update_self _ _ _

theorem Ledger.reached_took_of_ne {l : Ledger} (n : Nat) (x : Letter) {d : Bytes}
    (h : d ≠ l.current) : (l.took n x).reached d = l.reached d :=
  Function.update_of_ne h _ _

theorem Ledger.base_opens_self (l : Ledger) (pub base : Bytes) : (l.opens pub base).base pub = base :=
  Function.update_self _ _ _

theorem Ledger.sent_opens_self (l : Ledger) (pub base : Bytes) : (l.opens pub base).sent pub = 0 :=
  Function.update_self _ _ _

section Reading

variable {used : List Bytes} {x y : Side} {letter : Letter}

theorem Paired.skipped (h : Paired C used x y) (hletter : letter ∈ x.ledger.letters) :
    Paired C used
      (x.on (x.ledger.took y.session.dr.receivingChainLength.toNat letter))
      (y.at { y.session with dr := { y.session.dr with
        skippedMessageKeys := y.session.dr.skippedMessageKeys.remove
          (letter.message.dhPublicKey.toList, letter.message.messageNumber) } }) := by
  have hgets := h.left.gets
  have hreached : Function.update x.ledger.reached x.ledger.current
      y.session.dr.receivingChainLength.toNat = x.ledger.reached := by
    rw [← hgets.count]
    exact Function.update_eq_self _ _
  have hslot : (letter.message.dhPublicKey.toList, letter.message.messageNumber) =
      slot letter.chain letter.number := (Session.slot_toNat _ _).symm
  refine ⟨?_, ?_, h.matched.to_same ⟨rfl, rfl, rfl, rfl⟩, ?_⟩
  · have hsends := h.left.sends
    refine { h.left with
      sends := { hsends with letters := fun x hx => { hsends.letters x hx with } }, gets := ?_ }
    refine { hgets with settled := ?_, count := ?_, bound := ?_, closed := ?_, within := ?_, read := ?_ }
    · have htake := (hgets.settled.mono (fun _ _ => rfl) (fun d _ => congrFun hreached d)
        (fun d n hd => Ledger.done_took _ letter hd)).take
        (x.ledger.done_took_self y.session.dr.receivingChainLength.toNat letter) ?_
      · rw [← hslot] at htake
        exact htake
      · intro d hd n hn heq
        rw [hreached] at hn
        have := hgets.bound d hd
        have := (h.left.sends.letters letter hletter).bound
        exact slot_inj (by omega) (by omega) heq
    · exact Function.update_self _ _ _
    · intro d hd
      exact Nat.lt_of_le_of_lt (Nat.le_of_eq (congrFun hreached d)) (hgets.bound d hd)
    · intro d hd hne
      exact Nat.le_trans (hgets.closed d hd hne) (Nat.le_of_eq (congrFun hreached d).symm)
    · exact Nat.le_trans (Nat.le_of_eq (congrFun hreached _)) hgets.within
    · intro x' hx'
      rcases List.mem_append.mp hx' with hold | hnew
      · exact hgets.read x' hold
      · rw [List.mem_singleton.mp hnew]
        exact hletter
  · have hgets' := h.right.gets
    have hsends := h.right.sends
    exact { h.right with
      gets := { hgets' with }
      sends := { hsends with letters := fun x hx => { hsends.letters x hx with } } }
  · exact h.lead.imp (fun hx => { hx with }) (fun hy => { hy with })

theorem Paired.live (h : Paired C used x y) (hletter : letter ∈ x.ledger.letters)
    (hsame : y.session.needsRatchet letter.message = false) {now : Nat} {key : Bytes} {t : Session}
    (hkey : Session.Derives C now letter.message y.session key t) :
    Paired C used (x.on (x.ledger.took (letter.number + 1) letter)) (y.at t) := by
  have hgets := h.left.gets
  have hwritten := h.left.sends.letters letter hletter
  have hcur : letter.chain = x.ledger.current := by
    have hremote : y.session.dr.remoteDhPublic = some letter.message.dhPublicKey.toList := by
      unfold Session.needsRatchet at hsame
      simpa using hsame
    exact Option.some.inj (hremote.symm.trans hgets.remote)
  have hlength := hkey.length
  have hsettled := settled_derives
    (hgets.settled.mono (fun _ _ => rfl) (fun _ _ => rfl)
      (fun d n hd => Ledger.done_took (letter.number + 1) letter hd))
    hgets.count hgets.bound hcur hkey (hcur ▸ x.ledger.done_took_self _ letter)
  obtain ⟨-, -, chain, next, skipped, -, -, rfl⟩ := hkey
  refine ⟨?_, ?_, h.matched.to_same ⟨rfl, rfl, rfl, rfl⟩, ?_⟩
  · have hsends := h.left.sends
    refine { h.left with
      sends := { hsends with letters := fun x hx => { hsends.letters x hx with } }, gets := ?_ }
    refine { hgets with settled := hsettled, count := ?_, bound := ?_, closed := ?_, within := ?_, read := ?_ }
    · exact (Function.update_self _ _ _).trans hlength.symm
    · intro d hd
      show (x.ledger.took (letter.number + 1) letter).reached d < 2 ^ 32
      by_cases hdc : d = x.ledger.current
      · rw [hdc, Ledger.reached_took_self]
        exact hwritten.bound
      · rw [Ledger.reached_took_of_ne _ _ hdc]
        exact hgets.bound d hd
    · intro d hd (hne : d ≠ x.ledger.current)
      show x.ledger.sent d ≤ (x.ledger.took (letter.number + 1) letter).reached d
      rw [Ledger.reached_took_of_ne _ _ hne]
      exact hgets.closed d hd hne
    · show (x.ledger.took (letter.number + 1) letter).reached x.ledger.current ≤
        x.ledger.sent x.ledger.current
      rw [Ledger.reached_took_self, ← hcur]
      exact hwritten.position
    · intro x' hx'
      rcases List.mem_append.mp hx' with hold | hnew
      · exact hgets.read x' hold
      · rw [List.mem_singleton.mp hnew]
        exact hletter
  · have hgets' := h.right.gets
    have hsends := h.right.sends
    exact { h.right with
      gets := { hgets' with }
      sends := { hsends with letters := fun x hx => { hsends.letters x hx with } } }
  · exact h.lead.imp (fun hx => { hx with }) (fun hy => { hy with })

theorem Ahead.turn (h : Ahead C x y) (hdue : x.due = false) {env : Env} {d : Session.DhTurn}
    {s : Session} (hd : d.Valid C env x.session.dr.dhRatchetPublic y.secret s)
    (hpriv : s.dr.dhRatchetPrivate = y.session.dr.dhRatchetPrivate)
    (hroot : s.dr.rootKey = y.session.dr.rootKey)
    (hproof : s.identityProof = y.session.identityProof) :
    d.mixedRoot = x.session.dr.rootKey ∧
      d.mixedChain = x.ledger.base x.session.dr.dhRatchetPublic ∧ d.proof ≠ .awaitingAnswer := by
  obtain ⟨priv, z, root, chain, hpriv', hz, hrk, hmix⟩ := h.derived
  rw [if_neg (by rw [hdue]; decide)] at hmix
  obtain ⟨proof, hmix, hne⟩ := hmix
  obtain rfl : d.dhPrivate = priv :=
    Option.some.inj (hd.dhPrivate.symm.trans (hpriv.trans hpriv'))
  obtain rfl : d.dhReceive = z := Except.ok.inj (hd.dhReceive.symm.trans hz)
  have hreceive := hd.receive
  rw [hroot, hrk] at hreceive
  obtain ⟨rfl, rfl⟩ := Prod.mk.inj (Except.ok.inj hreceive)
  have hvalid := hd.mix
  rw [hproof, hmix] at hvalid
  obtain ⟨hmixed, hrest⟩ := Prod.mk.inj (Except.ok.inj hvalid)
  obtain ⟨hchain, hproof'⟩ := Prod.mk.inj hrest
  exact ⟨hmixed.symm, hchain.symm, hproof' ▸ hne⟩

theorem Gets.saves {s r t : Session} {l : Ledger} {lost : Bytes × UInt32 → Prop}
    (h : Gets C s r l lost) {now : Nat} {m : EncryptedRatchetMessage}
    (hend : m.previousChainLength.toNat = l.sent l.current) (hsave : Session.SavesOld C now m r t) :
    ∃ chain skipped, t = r.withReceiving chain (l.sent l.current) skipped ∧
      Settled (ckStep C) slot l.base (Function.update l.reached l.current (l.sent l.current))
        l.opened l.current chain skipped l.Done lost := by
  rcases hsave with ⟨hnone, -⟩ | ⟨old, chain, skipped, hremote, hmoves, rfl⟩
  · rw [h.remote] at hnone
    cases hnone
  · obtain rfl : l.current = old := Option.some.inj (h.remote.symm.trans hremote)
    have hmax : max r.dr.receivingChainLength.toNat m.previousChainLength.toNat =
        l.sent l.current := by
      have := h.within
      rw [h.count] at this
      omega
    rw [hmax] at hmoves ⊢
    refine ⟨chain, skipped, rfl, settled_moves h.settled h.count h.bound ?_ hmoves⟩
    rw [← hend]
    exact m.previousChainLength.toNat_lt

theorem Session.completeIdentityProof_ne {s : Session} (h : s.identityProof ≠ .awaitingAnswer) :
    s.completeIdentityProof.identityProof ≠ .awaitingAnswer := by
  unfold Session.completeIdentityProof
  split
  · exact fun heq => nomatch heq
  · exact h

theorem Half.reopened (h : Half C used y x) (hahead : Ahead C x y) {t : Session} {pub base : Bytes}
    {priv : Bytes} (hfresh : pub ∉ used) {used' : List Bytes} (hsub : ∀ d ∈ used, d ∈ used')
    (hpub : pub ∈ used') (hpriv : t.dr.dhRatchetPrivate = some priv) (hpair : C.KeyPair priv pub)
    (hdr : t.dr.dhRatchetPublic = pub ∧ t.dr.sendingChainKey = base ∧
      t.dr.sendingChainLength = 0 ∧
      t.dr.previousSendingLength = y.session.dr.sendingChainLength)
    (hs : Session.SameIdentity y.session t) (hversion : t.peerAdVersion = adVersionLegacy)
    {l : Ledger} (hdue : y.due = false) :
    Half C used' ((y.at t).on (y.ledger.opens pub base)) (x.on l) := by
  obtain ⟨htpub, htkey, htlen, htprev⟩ := hdr
  have hgets := h.gets
  have hsends := h.sends
  -- the chain written on before is one the other side has opened
  have hcurrent : y.session.dr.dhRatchetPublic = y.ledger.current :=
    Option.some.inj (hahead.remote.symm.trans hgets.remote)
  have hne : ∀ d ∈ y.ledger.opened, d ≠ pub := fun d hd heq => hfresh (heq ▸ h.names d hd)
  have hsent : ∀ d ∈ y.ledger.opened, (y.ledger.opens pub base).sent d = y.ledger.sent d :=
    fun d hd => Function.update_of_ne (hne d hd) _ _
  have hbase : ∀ d ∈ y.ledger.opened, (y.ledger.opens pub base).base d = y.ledger.base d :=
    fun d hd => Function.update_of_ne (hne d hd) _ _
  have hchain : ∀ x ∈ y.ledger.letters, x.chain ∈ y.ledger.opened := by
    intro x hx
    rcases (hsends.letters x hx).chain with hold | heq
    · exact hold
    · rw [heq, hcurrent]
      exact hgets.settled.current
  refine ⟨⟨priv, hpriv, htpub ▸ hpair⟩, ?_, ?_, fun d hd => hsub d (h.names d hd), ?_,
    fun hd => absurd (hdue.symm.trans hd) (by decide), hversion⟩
  · refine ⟨?_, ?_, ?_, hsends.distinct⟩
    · show stateAt _ ((y.ledger.opens pub base).base t.dr.dhRatchetPublic)
        t.dr.sendingChainLength.toNat = some t.dr.sendingChainKey
      rw [htpub, htkey, htlen, Ledger.base_opens_self]
      rfl
    · show (y.ledger.opens pub base).sent t.dr.dhRatchetPublic = t.dr.sendingChainLength.toNat
      rw [htpub, htlen, Ledger.sent_opens_self]
      rfl
    · intro z hz
      have hz' := hchain z hz
      obtain ⟨-, hposition, hbound, -, hsuite, hversion, hpq, hsealed⟩ := hsends.letters z hz
      rw [← hs.suiteId] at hsuite hpq hsealed
      rw [← hs.sessionId, ← hs.localUserId, ← hs.contactId, ← hbase _ hz'] at hsealed
      rw [← hsent _ hz'] at hposition
      exact ⟨.inl hz', hposition, hbound, fun hnot => absurd hz' hnot, hsuite, hversion, hpq, hsealed⟩
  · refine { hgets with settled := ?_, closed := ?_, within := ?_, chain := ?_, ancestry := ?_ }
    · exact hgets.settled.mono hbase (fun _ _ => rfl) (fun _ _ hd => hd)
    · intro d hd hcur
      exact Nat.le_trans (Nat.le_of_eq (hsent d hd)) (hgets.closed d hd hcur)
    · exact Nat.le_trans hgets.within (Nat.le_of_eq (hsent _ hgets.settled.current).symm)
    · refine .inr ⟨?_, ?_⟩
      · show t.dr.dhRatchetPublic ∉ y.ledger.opened
        rw [htpub]
        exact fun hmem => hne pub hmem rfl
      · show t.dr.previousSendingLength.toNat = (y.ledger.opens pub base).sent y.ledger.current
        rw [hsent _ hgets.settled.current, htprev, ← hcurrent, hsends.sent]
    · intro hC
      have hmap : y.ledger.opened.map (y.ledger.opens pub base).base =
          y.ledger.opened.map y.ledger.base := List.map_congr_left hbase
      show Ancestry C _ (y.ledger.opened.map (y.ledger.opens pub base).base)
      rw [hmap]
      exact hgets.ancestry hC
  · show t.dr.dhRatchetPublic ∈ used'
    rw [htpub]
    exact hpub

theorem Ledger.reached_turned_self (l : Ledger) (pub : Bytes) (n : Nat) (x : Letter) :
    (l.turned pub n x).reached pub = n :=
  Function.update_self _ _ _

theorem Ledger.reached_turned_current {l : Ledger} {pub : Bytes} (n : Nat) (x : Letter)
    (h : l.current ≠ pub) : (l.turned pub n x).reached l.current = l.sent l.current := by
  show Function.update (Function.update l.reached l.current (l.sent l.current)) pub n l.current = _
  rw [Function.update_of_ne h, Function.update_self]

theorem Ledger.reached_turned_of_ne {l : Ledger} {pub d : Bytes} (n : Nat) (x : Letter)
    (h : d ≠ pub) (hcur : d ≠ l.current) : (l.turned pub n x).reached d = l.reached d := by
  show Function.update (Function.update l.reached l.current (l.sent l.current)) pub n d = _
  rw [Function.update_of_ne h, Function.update_of_ne hcur]

/-- The reader has left its chain at the end and read a letter on the writer's. -/
theorem Gets.turned {s r u : Session} {l : Ledger} {lost : Bytes × UInt32 → Prop}
    (h : Gets C s r l lost) (hletter : letter ∈ l.letters) (hwritten : letter.Written C s l)
    (hlatest : letter.chain = s.dr.dhRatchetPublic) (hunseen : s.dr.dhRatchetPublic ∉ l.opened)
    (hend : l.sent l.current < 2 ^ 32)
    (hsettled : Settled (ckStep C) slot l.base
      (l.turned s.dr.dhRatchetPublic (letter.number + 1) letter).reached
      (l.opened ++ [s.dr.dhRatchetPublic]) s.dr.dhRatchetPublic u.dr.receivingChainKey
      u.dr.skippedMessageKeys (l.turned s.dr.dhRatchetPublic (letter.number + 1) letter).Done lost)
    (hremote : u.dr.remoteDhPublic = some s.dr.dhRatchetPublic)
    (hcount : u.dr.receivingChainLength.toNat = letter.number + 1)
    (hancestry : C.FreeKdf →
      Ancestry C u.dr.rootKey ((l.opened ++ [s.dr.dhRatchetPublic]).map l.base)) :
    Gets C s u (l.turned s.dr.dhRatchetPublic (letter.number + 1) letter) lost := by
  have hcur : l.current ≠ s.dr.dhRatchetPublic := fun heq => hunseen (heq ▸ h.settled.current)
  have hopened : ∀ d ∈ l.opened ++ [s.dr.dhRatchetPublic], d ≠ s.dr.dhRatchetPublic →
      d ∈ l.opened := by
    intro d hd hne
    exact (List.mem_append.mp hd).resolve_right fun hmem => hne (List.mem_singleton.mp hmem)
  refine ⟨hremote, hsettled, ?_, ?_, ?_, ?_, .inl rfl, ?_, hancestry⟩
  · exact (Ledger.reached_turned_self _ _ _ _).trans hcount.symm
  · intro d hd
    by_cases hpub : d = s.dr.dhRatchetPublic
    · rw [hpub, Ledger.reached_turned_self]
      exact hwritten.bound
    · by_cases hdc : d = l.current
      · rw [hdc, Ledger.reached_turned_current _ _ hcur]
        exact hend
      · rw [Ledger.reached_turned_of_ne _ _ hpub hdc]
        exact h.bound d (hopened d hd hpub)
  · intro d hd (hpub : d ≠ s.dr.dhRatchetPublic)
    by_cases hdc : d = l.current
    · rw [hdc, Ledger.reached_turned_current _ _ hcur]
      exact Nat.le_refl _
    · rw [Ledger.reached_turned_of_ne _ _ hpub hdc]
      exact h.closed d (hopened d hd hpub) hdc
  · show (l.turned s.dr.dhRatchetPublic (letter.number + 1) letter).reached s.dr.dhRatchetPublic ≤
      l.sent s.dr.dhRatchetPublic
    rw [Ledger.reached_turned_self, ← hlatest]
    exact hwritten.position
  · intro x' hx'
    rcases List.mem_append.mp hx' with hold | hnew
    · exact h.read x' hold
    · rw [List.mem_singleton.mp hnew]
      exact hletter

/-- **Reading after a DH step.** The letter is on the writer's latest chain; afterwards the
reader is the one ahead. -/
theorem Paired.ratcheted (hC : C.Reliable) (h : Paired C used x y)
    (hletter : letter ∈ x.ledger.letters)
    (hlatest : letter.chain = x.session.dr.dhRatchetPublic)
    (hnew : y.session.needsRatchet letter.message = true) {env : Env} {key : Bytes}
    {d : Session.DhTurn} {s₁ t u : Session} (hfresh : d.newPublic ∉ used)
    (hsave : Session.SavesOld C env.now letter.message y.session s₁)
    (hd : d.Valid C env letter.message.dhPublicKey.toList y.secret s₁)
    (hkey : Session.Derives C env.now letter.message
      (d.apply C env letter.message.dhPublicKey.toList s₁) key t)
    (hu : u.dr = t.dr ∧ u.peerAdVersion = adVersionLegacy ∧ Session.SameIdentity y.session u)
    (hproof : t.identityProof ≠ .awaitingAnswer → u.identityProof ≠ .awaitingAnswer) :
    Paired C (used ++ [d.newPublic])
      (x.on (x.ledger.turned letter.chain (letter.number + 1) letter))
      ((y.at u).on (y.ledger.opens d.newPublic d.sendChain)) := by
  have hgets := h.left.gets
  have hwritten := h.left.sends.letters letter hletter
  have hne : letter.chain ≠ x.ledger.current := by
    intro heq
    have : y.session.dr.remoteDhPublic = some letter.message.dhPublicKey.toList :=
      hgets.remote.trans (congrArg some heq.symm)
    unfold Session.needsRatchet at hnew
    rw [this] at hnew
    simp at hnew
  obtain ⟨hunseen, hprev⟩ : x.session.dr.dhRatchetPublic ∉ x.ledger.opened ∧
      x.session.dr.previousSendingLength.toNat = x.ledger.sent x.ledger.current := by
    rcases hgets.chain with heq | hrest
    · exact absurd (hlatest.trans heq) hne
    · exact hrest
  have hahead : Ahead C x y := by
    rcases h.lead with hx | hy
    · exact hx
    · have := Option.some.inj (hgets.remote.symm.trans hy.remote)
      exact absurd (hlatest.trans this.symm) hne
  have hdue : x.due = false := by
    cases hx : x.due with
    | false => rfl
    | true =>
      rw [h.left.idle hx] at hletter
      cases hletter
  have hend : letter.message.previousChainLength.toNat = x.ledger.sent x.ledger.current := by
    rw [hwritten.previous (hlatest ▸ hunseen)]
    exact hprev
  obtain ⟨chain, skipped, rfl, hsettled⟩ := hgets.saves hend hsave
  rw [show letter.message.dhPublicKey.toList = x.session.dr.dhRatchetPublic from hlatest] at hd hkey
  obtain ⟨hroot, hchain, hawait⟩ := hahead.turn hdue hd rfl rfl rfl
  have hlength := hkey.length
  have hderives := (hsettled.mono (fun _ _ => rfl) (fun _ _ => rfl) (fun _ _ hdone =>
    Ledger.done_took (letter.number + 1) letter hdone)).openChain hunseen d.mixedChain
  rw [hchain, Function.update_eq_self] at hderives
  rw [← hchain] at hderives
  -- the chain opened is read up to the letter
  have hbound : ∀ e ∈ x.ledger.opened ++ [x.session.dr.dhRatchetPublic],
      Function.update (Function.update x.ledger.reached x.ledger.current
        (x.ledger.sent x.ledger.current)) x.session.dr.dhRatchetPublic 0 e < 2 ^ 32 := by
    intro e he
    by_cases hpub : e = x.session.dr.dhRatchetPublic
    · rw [hpub, Function.update_self]
      decide
    · rw [Function.update_of_ne hpub]
      by_cases hcur : e = x.ledger.current
      · rw [hcur, Function.update_self, ← hend]
        exact letter.message.previousChainLength.toNat_lt
      · rw [Function.update_of_ne hcur]
        refine hgets.bound e ((List.mem_append.mp he).resolve_right ?_)
        exact fun hmem => hpub (List.mem_singleton.mp hmem)
  have hread := settled_derives hderives (Function.update_self _ _ _) hbound hlatest hkey
    (hlatest ▸ x.ledger.done_took_self _ letter)
  rw [Function.update_idem] at hread
  obtain ⟨hudr, huversion, husame⟩ := hu
  obtain ⟨-, -, next, chain', skipped', -, -, rfl⟩ := hkey
  rw [hlatest]
  refine ⟨?_, ?_, ?_, ?_⟩
  · have hsends := h.left.sends
    refine { h.left with
      sends := { hsends with letters := fun z hz => ?_ }
      gets := ?_
      names := ?_
      named := List.mem_append_left _ h.left.named }
    · have hz := hsends.letters z hz
      exact { hz with
        chain := hz.chain.imp_left fun hmem => List.mem_append_left _ hmem
        previous := fun hnot => hz.previous fun hmem => hnot (List.mem_append_left _ hmem) }
    · refine hgets.turned hletter hwritten hlatest hunseen ?_ ?_ ?_ ?_ ?_
      · rw [← hend]
        exact letter.message.previousChainLength.toNat_lt
      · show Settled _ _ _ _ _ _ u.dr.receivingChainKey u.dr.skippedMessageKeys _ _
        rw [hudr]
        exact hread
      · show u.dr.remoteDhPublic = _
        rw [hudr]
        rfl
      · show u.dr.receivingChainLength.toNat = _
        rw [hudr]
        exact hlength
      · intro hfree
        show Ancestry C u.dr.rootKey _
        rw [hudr, List.map_append, List.map_singleton, ← hchain]
        exact Ancestry.turn (s := y.session.withReceiving chain _ skipped) (hgets.ancestry hfree) hd
    · intro e he
      rcases List.mem_append.mp he with hold | hmem
      · exact List.mem_append_left _ (h.left.names e hold)
      · rw [List.mem_singleton.mp hmem]
        exact List.mem_append_left _ h.left.named
  · refine h.right.reopened hahead hfresh (fun e he => List.mem_append_left _ he) (by simp)
      (by rw [hudr]; rfl) (.inl ⟨_, hd.fresh⟩) ?_ husame huversion hahead.owes
    rw [hudr]
    exact ⟨rfl, rfl, rfl, rfl⟩
  · exact h.matched.to_same husame
  · -- the other side's next step meets the new key from its own
    obtain ⟨priv, hpriv, hpair⟩ := h.left.key
    obtain ⟨z, hz, hz'⟩ := hC.dh hpair (.inl ⟨_, hd.fresh⟩)
    obtain rfl : z = d.dhSend := Except.ok.inj (hz'.symm.trans hd.dhSend)
    refine .inr ⟨?_, ?_, hproof hawait, hdue, priv, d.dhSend, d.sendRoot, d.sendChain, hpriv, ?_, ?_, ?_⟩
    · show u.dr.remoteDhPublic = _
      rw [hudr]
      rfl
    · show u.dr.dhRatchetPublic ∉ y.ledger.opened
      rw [hudr]
      exact fun hmem => hfresh (h.right.names _ hmem)
    · show C.kemDecapsulate priv u.dr.dhRatchetPublic = _
      rw [hudr]
      exact hz
    · show C.kdfRk x.session.dr.rootKey d.dhSend = _
      rw [← hroot]
      exact hd.send
    · rw [if_neg (by rw [show ((y.at u).on _).due = y.due from rfl, hahead.owes]; decide)]
      refine ⟨x.session.identityProof, ?_, hahead.proof⟩
      show Session.awaitedMix C x.session.identityProof x.secret d.sendRoot d.sendChain =
        .ok (u.dr.rootKey, (y.ledger.opens d.newPublic d.sendChain).base u.dr.dhRatchetPublic,
          x.session.identityProof)
      unfold Session.awaitedMix
      rw [if_neg hahead.proof, hudr]
      show Except.ok _ = Except.ok (d.sendRoot, (y.ledger.opens d.newPublic d.sendChain).base
        d.newPublic, x.session.identityProof)
      rw [Ledger.base_opens_self]

/-- **A letter on a chain left long ago is refused.** The step on its ratchet key opens a chain
no letter was written on. -/
theorem Paired.stale_refused (hfree : C.FreeKdf) (hauth : C.Authentic) (h : Paired C used x y)
    (hletter : letter ∈ x.ledger.letters) (hold : letter.chain ≠ x.session.dr.dhRatchetPublic)
    {env : Env} {key plaintext remote : Bytes} {secret : Option Bytes} {d : Session.DhTurn}
    {s₁ t : Session} {pq : PqRatchet} (hroot : s₁.dr.rootKey = y.session.dr.rootKey)
    (hd : d.Valid C env remote secret s₁)
    (hkey : Session.Derives C env.now letter.message (d.apply C env remote s₁) key t)
    (hopen : Session.Opens C env letter.message t key pq plaintext) : False := by
  have hwritten := h.left.sends.letters letter hletter
  have hancestry := h.left.gets.ancestry hfree
  have hopened : OpenedFrom C y.session.dr.rootKey d.mixedChain := hroot ▸ hd.derivation.2.2.2
  have hmem : x.ledger.base letter.chain ∈ x.ledger.opened.map x.ledger.base :=
    List.mem_map_of_mem (hwritten.chain.resolve_right hold)
  obtain ⟨_, drKey, messageKey, padded, -, hdrKey, hmix, -, hseal⟩ := hwritten.sealed
  obtain ⟨pqKey, messageKey', -, hmix', htry⟩ := hopen
  obtain ⟨-, sid, padded', -, haead, -⟩ := Session.tryAeadDecrypt_ok htry
  obtain ⟨rfl, -, -⟩ := hauth hseal haead
  -- both classical keys come off a chain, so the mixed key names them
  have hkeyAt : keyAt (ckStep C) d.mixedChain letter.number = some key := hkey.keyAt
  obtain ⟨c, next, -, hstep⟩ := exists_step_of_keyAt hdrKey
  obtain ⟨c', next', -, hstep'⟩ := exists_step_of_keyAt hkeyAt
  obtain rfl := mixPqMessageKey_inj hfree (ok_of_ckStep hstep) (ok_of_ckStep hstep') hmix hmix'
  have horigin : Origin (ckStep C) (x.ledger.base letter.chain) := by
    obtain ⟨_, _, -, -, hbases⟩ := hancestry
    rcases hbases _ hmem with hdefault | ⟨_, _, -, -, hfrom⟩
    · rw [hdefault]
      exact origin_default hfree
    · exact hfrom.origin hfree
  obtain ⟨hsame, -⟩ := position_unique (ckStep_injective hfree) (hopened.origin hfree) horigin
    hkeyAt hdrKey
  exact hancestry.fresh hfree hopened (hsame ▸ hmem)

/-- A letter that would make the reader step back to a chain it has left. -/
def Stale (writer : Session) (letter : Letter) (reader : Session) : Prop :=
  reader.dr.skippedMessageKeys.get?
      (letter.message.dhPublicKey.toList, letter.message.messageNumber) = none ∧
    reader.needsRatchet letter.message = true ∧ letter.chain ≠ writer.dr.dhRatchetPublic

/-- Either the primitives are ideal, so that a stale letter is refused, or none is delivered. -/
def NoHarm (C : Crypto) (writer : Session) (letter : Letter) (reader : Session) : Prop :=
  (C.FreeKdf ∧ C.Authentic) ∨ ¬ Stale writer letter reader

theorem Session.finish_same {env : Env} {m : EncryptedRatchetMessage} {pq : PqRatchet}
    {t : Session} (hversion : max t.peerAdVersion m.adVersion = t.peerAdVersion) :
    t.SameRatchet { t.finish C env m false pq with prekeyHeader := none } :=
  ⟨rfl, rfl, hversion, rfl, rfl, rfl, rfl⟩

theorem drawnKey_of_ok {env : Env} {priv pub : Bytes}
    (h : C.generateKemKeys env.dhSeed = .ok (priv, pub)) : drawnKey C env = [pub] := by
  unfold drawnKey
  rw [h]

theorem Paired.still (h : Paired C used x y) (hletter : letter ∈ x.ledger.letters) {env : Env}
    {key : Bytes} {secret : Option Bytes} {t : Session} (pq : PqRatchet)
    (hkey : Session.ClassicalKey C env letter.message secret y.session key false t) :
    ∃ n, Paired C used (x.on (x.ledger.took n letter))
      (y.at { t.finish C env letter.message false pq with prekeyHeader := none }) := by
  have hversion : max y.session.peerAdVersion letter.message.adVersion = y.session.peerAdVersion := by
    rw [h.right.version, (h.left.sends.letters letter hletter).version]
    decide
  cases hkey with
  | skipped _ => exact ⟨_, (h.skipped hletter).of_same (Session.finish_same hversion)⟩
  | live _ hsame _ hderives =>
    have hlive := h.live hletter hsame hderives
    obtain ⟨dr, rfl⟩ := hderives.frame
    exact ⟨_, hlive.of_same (Session.finish_same hversion)⟩

/-- What a read leaves of the two sides: the ledgers, with the letter read if it was. -/
def ReadLeaves (C : Crypto) (used : List Bytes) (x y : Side) (out : Session × List Letter) : Prop :=
  ∃ lx ly, Paired C used (x.on lx) ((y.at out.1).on ly) ∧ lx.letters = x.ledger.letters ∧
    lx.read = x.ledger.read ++ out.2 ∧ ly.letters = y.ledger.letters ∧ ly.read = y.ledger.read

/-- **Reading keeps the pairing.** -/
theorem Paired.read (hC : C.Reliable) (h : Paired C used x y) (hletter : letter ∈ x.ledger.letters)
    {env : Env} {out : Session × List Letter}
    (hcase : Session.ReadCase C env y.secret letter y.session out)
    (hkeeps : ∀ a, y.session.dr.skippedMessageKeys.get? a ≠ none →
      (y.session.cleanupIfDue env.now).dr.skippedMessageKeys.get? a = none → y.lost a)
    (hharm : NoHarm C x.session letter (y.session.cleanupIfDue env.now))
    (hfresh : ∀ k ∈ drawnKey C env, k ∉ used) :
    ReadLeaves C (used ++ drawnKey C env) x y out := by
  have hclean := h.cleaned env.now hkeeps
  have hwritten := h.left.sends.letters letter hletter
  have hsub : ∀ k ∈ used, k ∈ used ++ drawnKey C env := fun k hk => List.mem_append_left _ hk
  have hmax : max adVersionLegacy letter.message.adVersion = adVersionLegacy := by
    rw [hwritten.version]
    decide
  have hversion : (y.session.cleanupIfDue env.now).peerAdVersion = adVersionLegacy :=
    hclean.right.version
  cases hcase with
  | refused hroll =>
    refine ⟨x.ledger, y.ledger, ?_, rfl, (List.append_nil _).symm, rfl, rfl⟩
    refine (hclean.of_same ?_).mono hsub
    unfold RolledBack at hroll
    rw [hroll]
    exact ⟨rfl, rfl, rfl, rfl, rfl, rfl, rfl⟩
  | @accepted key plaintext stepped t pq hkey hopen =>
    generalize y.session.cleanupIfDue env.now = s at hclean hkey hharm hversion
    cases stepped with
    | false =>
      obtain ⟨n, hstill⟩ := hclean.still hletter pq hkey
      exact ⟨x.ledger.took n letter, y.ledger, hstill.mono hsub, rfl, rfl, rfl, rfl⟩
    | true =>
      cases hkey with
      | @ratchet s₁ t d hnone hnew hjump hsave hd hderives =>
        have hdrawn := drawnKey_of_ok hd.fresh
        have hlatest : letter.chain = x.session.dr.dhRatchetPublic := by
          by_contra hold
          rcases hharm with ⟨hfree, hauth⟩ | hstale
          · refine hclean.stale_refused hfree hauth hletter hold ?_ hd hderives hopen
            rcases hsave with ⟨-, rfl⟩ | ⟨_, _, _, -, -, rfl⟩
            · rfl
            · rfl
          · exact hstale ⟨hnone, hnew, hold⟩
        have hnewKey : d.newPublic ∉ used :=
          hfresh _ (by rw [hdrawn]; exact List.mem_singleton.mpr rfl)
        have htversion : t.peerAdVersion = s.peerAdVersion := by
          obtain ⟨dr, rfl⟩ := hderives.frame
          obtain ⟨dr', rfl⟩ := hsave.frame
          rfl
        have htsame : Session.SameIdentity s t := by
          obtain ⟨dr, rfl⟩ := hderives.frame
          obtain ⟨dr', rfl⟩ := hsave.frame
          exact ⟨rfl, rfl, rfl, rfl⟩
        obtain ⟨proof, authentication, hfinish⟩ :=
          Session.finish_frame (C := C) env letter.message true pq t
        rw [hdrawn]
        refine ⟨x.ledger.turned letter.chain (letter.number + 1) letter,
          y.ledger.opens d.newPublic d.sendChain, ?_, rfl, rfl, rfl, rfl⟩
        refine hclean.ratcheted hC hletter hlatest hnew hnewKey hsave hd hderives ?_
          (fun hproof => Session.completeIdentityProof_ne hproof)
        rw [hfinish]
        refine ⟨rfl, ?_, htsame.trans ⟨rfl, rfl, rfl, rfl⟩⟩
        exact (congrArg (max · _) (htversion.trans hversion)).trans hmax

end Reading

end ConstructCore
