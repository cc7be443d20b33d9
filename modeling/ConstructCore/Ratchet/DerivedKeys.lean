import ConstructCore.Ratchet.Acceptance

/-!
# The chains messages are opened on

A key that opens a message should come off a receiving chain that was derived: from a root key
the session held and a DH output. Two places make such chains, the responder's constructor and
the DH step. The initiator's constructor makes none: it names the responder's identity key as
the peer's ratchet key and puts the empty key in place of the receiving chain.

* `forged_on_empty_chain`: a message under that identity key is opened with a key anyone can
  compute.
* `Traced`: every chain and every stored key is derived, but for those under the name the
  initiator started with. `Traced.classicalKey` is what an accepted message does to it.
* `opened_on_derived_chain`: over any run whose messages do not carry that name.
-/

namespace ConstructCore

open Bytes Op KeyChain

variable {C : Crypto}

/-! ## Derived keys -/

/-- A chain key on a receiving chain opened from a root key of `held`. -/
def DerivedChain (C : Crypto) (held : Bytes → Prop) (chain : Bytes) : Prop :=
  ∃ root base n, held root ∧ OpenedFrom C root base ∧ stateAt (ckStep C) base n = some chain

def DerivedKey (C : Crypto) (held : Bytes → Prop) (key : Bytes) : Prop :=
  ∃ root base n, held root ∧ OpenedFrom C root base ∧ keyAt (ckStep C) base n = some key

variable {held : Bytes → Prop} {chain : Bytes} {n : Nat} {s : Session}

theorem DerivedChain.key {key : Bytes} (h : DerivedChain C held chain)
    (hkey : keyAt (ckStep C) chain n = some key) : DerivedKey C held key := by
  obtain ⟨root, base, k, hroot, hbase, hstate⟩ := h
  refine ⟨root, base, k + n, hroot, hbase, ?_⟩
  rw [keyAt_of_stateAt hstate, hkey]

theorem DerivedChain.state {next : Bytes} (h : DerivedChain C held chain)
    (hnext : stateAt (ckStep C) chain n = some next) :
    DerivedChain C held next := by
  obtain ⟨root, base, k, hroot, hbase, hstate⟩ := h
  refine ⟨root, base, k + n, hroot, hbase, ?_⟩
  rw [stateAt_add hstate, hnext]

theorem Session.SavesOld.rootKey {now : Nat} {m : EncryptedRatchetMessage} {t : Session}
    (h : SavesOld C now m s t) : t.dr.rootKey = s.dr.rootKey := by
  rcases h with ⟨-, rfl⟩ | ⟨old, chain, skipped, -, -, rfl⟩
  · rfl
  · rfl

/-- Every chain and stored key is derived, but for those of the ratchet key `blank`. -/
structure Traced (C : Crypto) (held : Bytes → Prop) (blank : Option Bytes) (dr : Ratchet) :
    Prop where
  live : dr.remoteDhPublic = blank ∨ DerivedChain C held dr.receivingChainKey
  stored : ∀ dh i key, dr.skippedMessageKeys.get? (dh, i) = some key →
    blank = some dh ∨ DerivedKey C held key

namespace Traced

variable {held : Bytes → Prop} {blank : Option Bytes} {dr dr' : Ratchet}

theorem start (hlive : dr.remoteDhPublic = blank ∨ DerivedChain C held dr.receivingChainKey)
    (hstore : dr.skippedMessageKeys = .empty) : Traced C held blank dr where
  live := hlive
  stored dh i key hget := by
    rw [hstore, AgedStore.get?_empty] at hget
    cases hget

theorem of_same (h : Traced C held blank dr) (hremote : dr'.remoteDhPublic = dr.remoteDhPublic)
    (hkey : dr'.receivingChainKey = dr.receivingChainKey)
    (hstore : ∀ a m, dr'.skippedMessageKeys.get? a = some m →
      dr.skippedMessageKeys.get? a = some m) : Traced C held blank dr' where
  live := by
    rw [hremote, hkey]
    exact h.live
  stored dh i key hget := h.stored dh i key (hstore _ _ hget)

variable {s t : Session} {now : Nat} {m : EncryptedRatchetMessage} {env : Env}
  {secret : Option Bytes} {key : Bytes}

variable (h : Traced C held blank s.dr)

include h

theorem moves {name chain : Bytes} {position : Nat} {skipped : AgedStore (Bytes × UInt32) Bytes}
    (hname : s.dr.remoteDhPublic = some name)
    (hmove : Session.Moves C now name s position chain skipped) :
    Traced C held blank (s.withReceiving chain position skipped).dr where
  live := by
    rcases h.live with hblank | hderived
    · exact .inl hblank
    · exact .inr (hderived.state hmove.stateAt)
  stored dh i key hget := by
    rcases hmove.get?_cases hget with hold | ⟨j, hslot, n, hkey⟩
    · exact h.stored dh i key hold
    · -- filed under the chain's own name, which is `blank` or the name of a derived chain
      obtain rfl : dh = name := congrArg Prod.fst hslot
      rcases h.live with hblank | hderived
      · exact .inl (hblank.symm.trans hname)
      · exact .inr (hderived.key hkey)

theorem savesOld (hsave : Session.SavesOld C now m s t) :
    Traced C held blank t.dr := by
  rcases hsave with ⟨-, rfl⟩ | ⟨old, chain, skipped, hremote, hmove, rfl⟩
  · exact h
  · exact h.moves hremote hmove

theorem turn (hroot : held s.dr.rootKey) {remote : Bytes} {d : Session.DhTurn}
    (hd : d.Valid C env remote secret s) :
    Traced C held blank (d.apply C env remote s).dr where
  live := .inr ⟨_, _, 0, hroot, hd.derivation.2.2.2, rfl⟩
  stored := h.stored

theorem derives (hname : s.dr.remoteDhPublic = some m.dhPublicKey.toList)
    (hblank : blank ≠ some m.dhPublicKey.toList) (hkey : Session.Derives C now m s key t) :
    DerivedKey C held key ∧ Traced C held blank t.dr := by
  obtain ⟨-, -, chain, next, skipped, hmove, hck, rfl⟩ := hkey
  have hstep := ckStep_of_ok hck
  have hmoved := h.moves hname hmove
  have hchain : DerivedChain C held chain := by
    rcases hmoved.live with heq | hderived
    · exact absurd (heq.symm.trans hname) hblank
    · exact hderived
  refine ⟨hchain.key (keyAt_of_step (stateAt_zero chain) hstep), ?_, hmoved.stored⟩
  exact .inr (hchain.state (stateAt_succ_of_step (stateAt_zero chain) hstep))

/-- **An accepted message takes a derived key**, if its ratchet key is not `blank`. -/
theorem classicalKey (hroot : held s.dr.rootKey) {stepped : Bool}
    (hblank : blank ≠ some m.dhPublicKey.toList)
    (hkey : Session.ClassicalKey C env m secret s key stepped t) :
    DerivedKey C held key ∧ Traced C held blank t.dr := by
  cases hkey with
  | skipped hget =>
    refine ⟨?_, h.live, ?_⟩
    · rcases h.stored _ _ _ hget with heq | hderived
      · exact absurd heq hblank
      · exact hderived
    · intro dh i other hother
      exact h.stored dh i other (AgedStore.get?_of_get?_remove hother)
  | live _ hsame _ hderives =>
    refine h.derives ?_ hblank hderives
    unfold Session.needsRatchet at hsame
    simpa using hsame
  | ratchet _ _ _ hsave hturn hderives =>
    rw [← hsave.rootKey] at hroot
    exact ((h.savesOld hsave).turn hroot hturn).derives rfl hblank hderives

end Traced

/-! ## Runs -/

/-- A session as its constructor makes it, with the root key of its handshake and the name of
the receiving chain that was not derived. The responder is the one `newResponderSession`
decrypts its first message with: that decrypt is the first event of its run. -/
inductive Founded (C : Crypto) : Bytes → Option Bytes → Session → Prop
  | initiator {env : Env} {rootKey ephemeralPrivate remoteIdentity contactId localUserId : Bytes}
      {suiteId : SuiteID} {root : Bytes} {s : Session}
      (hroot : deriveInitialRootKey C rootKey = .ok root)
      (h : newInitiatorSession C env rootKey ephemeralPrivate remoteIdentity contactId
        localUserId suiteId = .ok s) : Founded C root (some remoteIdentity) s
  | responder {env : Env} {rootKey localIdentity contactId localUserId : Bytes}
      {firstMessage : EncryptedRatchetMessage} {root : Bytes} {s : Session}
      (hroot : deriveInitialRootKey C rootKey = .ok root)
      (h : responderSession C env rootKey localIdentity firstMessage contactId localUserId =
        .ok s) : Founded C root none s

theorem Founded.traced {root : Bytes} {blank : Option Bytes} (h : Founded C root blank s)
    (hroot : held root) :
    Traced C held blank s.dr := by
  cases h with
  | initiator hderive h =>
    obtain ⟨_, _, _, _, _, _, -, -, -, -, -, rfl⟩ := newInitiatorSession_ok h
    exact .start (.inl rfl) rfl
  | responder hderive h =>
    obtain ⟨_, rootKeyVal, _, _, receivingChain, _, _, _, _, _, _, -, hinitial, -, hrk, -, -, -,
      -, rfl⟩ := responderSession_ok h
    obtain rfl : rootKeyVal = root := Except.ok.inj (hinitial.symm.trans hderive)
    have hopened : OpenedFrom C rootKeyVal receivingChain := ⟨_, _, _, hrk, .inl rfl⟩
    exact .start (.inr ⟨rootKeyVal, receivingChain, 0, hroot, hopened, rfl⟩) rfl

/-- The event hands `decrypt` no message under the ratchet key `blank`. -/
def Event.Avoids (blank : Option Bytes) : Event → Prop
  | .decrypt _ m _ => blank ≠ some m.dhPublicKey.toList
  | _ => True

namespace Session

variable {s t : Session}

def rootsAlong (C : Crypto) (s : Session) : List Event → List Bytes
  | [] => [s.dr.rootKey]
  | event :: events => s.dr.rootKey :: rootsAlong C (s.step C event).1 events

theorem along_roots (s : Session) (events : List Event) :
    Machine.Along (Session.step C) (fun t _ => t.dr.rootKey ∈ s.rootsAlong C events) s events := by
  suffices hall : ∀ (s : Session) (held : List Bytes), (∀ r ∈ s.rootsAlong C events, r ∈ held) →
      Machine.Along (Session.step C) (fun t _ => t.dr.rootKey ∈ held) s events from
    hall s _ fun _ hr => hr
  induction events with
  | nil => intro s held _; trivial
  | cons event events ih =>
    intro s held hsub
    refine ⟨hsub _ (List.mem_cons_self ..), ih _ held ?_⟩
    intro r hr
    exact hsub r (List.mem_cons_of_mem _ hr)

variable {held : Bytes → Prop} {blank : Option Bytes}

theorem cleanupIfDue_traced (h : Traced C held blank s.dr) (now : Nat) :
    Traced C held blank (s.cleanupIfDue now).dr := by
  unfold cleanupIfDue
  split
  · exact h.of_same rfl rfl fun a m hm => AgedStore.get?_of_get?_evict hm
  · exact h

theorem cleanupIfDue_rootKey (s : Session) (now : Nat) :
    (s.cleanupIfDue now).dr.rootKey = s.dr.rootKey := by
  unfold cleanupIfDue
  split
  · rfl
  · rfl

theorem traced_step (h : Traced C held blank s.dr) (hroot : held s.dr.rootKey) {event : Event}
    (havoids : event.Avoids blank) :
    Traced C held blank (s.step C event).1.dr := by
  have hcase := step_case C s event
  generalize s.step C event = r at hcase ⊢
  cases hcase with
  | sent _ hstep _ =>
    obtain ⟨_, _, _, _, _, _, hdr⟩ := hstep.pq
    rw [hdr]
    exact h.of_same rfl rfl fun _ _ hm => hm
  | unsent hleft =>
    rcases hleft.dr with hdr | ⟨_, _, _, _, hdr⟩
    · rw [hdr]
      exact h
    · rw [hdr]
      exact h.of_same rfl rfl fun _ _ hm => hm
  | @accepted env m _ key plaintext stepped t pq hkey hopen =>
    obtain ⟨_, _, hfinish⟩ := finish_frame (C := C) env m stepped pq t
    rw [hfinish]
    rw [← cleanupIfDue_rootKey s env.now] at hroot
    exact ((cleanupIfDue_traced h env.now).classicalKey hroot havoids hkey).2
  | @refused env _ _ _ hroll =>
    unfold RolledBack at hroll
    rw [hroll]
    exact cleanupIfDue_traced h env.now
  | answered _ _ hmix => exact h.of_same rfl rfl fun _ _ hm => hm
  | unanswered | notLoaded | marked | headed | expecting => exact h
  | loaded _ hload =>
    obtain ⟨pq, sid', -, -, rfl⟩ := hload
    exact h.of_same rfl rfl fun a m hm => AgedStore.get?_of_get?_evict hm

theorem traced_run {root : Bytes} {s₀ : Session} (h₀ : Founded C root blank s₀)
    {events : List Event} (havoids : ∀ event ∈ events, event.Avoids blank)
    {before after : List Event} (hsplit : events = before ++ after) :
    let held := fun r => r = root ∨ r ∈ s₀.rootsAlong C events
    Traced C held blank (Machine.run (Session.step C) s₀ before).dr ∧
      (after ≠ [] → held (Machine.run (Session.step C) s₀ before).dr.rootKey) := by
  intro held
  have hroots := along_roots (C := C) s₀ events
  have hcond : Machine.Along (Session.step C)
      (fun t event => held t.dr.rootKey ∧ event.Avoids blank) s₀ events :=
    (hroots.imp fun _ _ hmem => .inr hmem).and (Machine.along_of_mem havoids s₀)
  subst hsplit
  obtain ⟨hbefore, hafter⟩ := Machine.along_append.mp hcond
  constructor
  · exact @Machine.invariant_rule _ _ _ (Session.step C) _ (fun t => Traced C held blank t.dr)
      (fun t event hcond ht => traced_step ht hcond.1 hcond.2) s₀ before hbefore
      (h₀.traced (.inl rfl))
  · intro hne
    cases after with
    | nil => exact absurd rfl hne
    | cons event rest => exact hafter.1.1

end Session

/-! ## What a party can know -/

/-- What a party knows, where no output of a key derivation is known without its key input. -/
structure Unpredictable (C : Crypto) (knows : Bytes → Prop) : Prop where
  ckKey : ∀ {chain key next}, C.kdfCk chain = .ok (key, next) → knows key → knows chain
  ckNext : ∀ {chain key next}, C.kdfCk chain = .ok (key, next) → knows next → knows chain
  rkChain : ∀ {root dh root' chain}, C.kdfRk root dh = .ok (root', chain) → knows chain →
    knows root
  hkdf : ∀ {salt ikm info len out}, C.hkdfDeriveKey salt ikm info len = .ok out → knows out →
    knows ikm

/-- An ideal AEAD: what opens of the messages a party made was sealed with a key it knows. -/
def SealsWithKnown (C : Crypto) (knows : Bytes → Prop) (made : EncryptedRatchetMessage → Prop) :
    Prop :=
  ∀ m key ad padded, made m → C.aeadDecrypt key m.nonce m.ciphertext (some ad) = .ok padded →
    knows key

namespace Unpredictable

variable {knows : Bytes → Prop}

variable (h : Unpredictable C knows)

include h

theorem of_stateAt {base chain : Bytes} {n : Nat} (hstate : stateAt (ckStep C) base n = some chain)
    (hknown : knows chain) : knows base := by
  induction n generalizing chain with
  | zero =>
    rw [stateAt_zero] at hstate
    exact Option.some.inj hstate ▸ hknown
  | succ n ih =>
    obtain ⟨before, hbefore, hstep⟩ := Option.bind_eq_some_iff.mp hstate
    obtain ⟨⟨key, next⟩, hck, rfl⟩ := Option.map_eq_some_iff.mp hstep
    exact ih hbefore (h.ckNext (ok_of_ckStep hck) hknown)

theorem of_derivedKey {held : Bytes → Prop} {key : Bytes} (hkey : DerivedKey C held key)
    (hknown : knows key) : ∃ root, held root ∧ knows root := by
  obtain ⟨root, base, n, hroot, ⟨dh, root', chain, hrk, hbase⟩, hkeyAt⟩ := hkey
  obtain ⟨state, next, hstate, hstep⟩ := exists_step_of_keyAt hkeyAt
  have hbaseKnown : knows base := h.of_stateAt hstate (h.ckKey (ok_of_ckStep hstep) hknown)
  refine ⟨root, hroot, h.rkChain hrk ?_⟩
  rcases hbase with rfl | ⟨secret, hmix⟩
  · exact hbaseKnown
  · exact h.hkdf hmix hbaseKnown

theorem of_mixPqMessageKey {drKey out : Bytes} {pqKey : Option Bytes}
    (hmix : mixPqMessageKey C drKey pqKey = .ok out) (hknown : knows out) : knows drKey := by
  unfold mixPqMessageKey at hmix
  cases pqKey with
  | none => exact Except.ok.inj hmix ▸ hknown
  | some pqKey =>
    dsimp only at hmix
    split at hmix
    · cases hmix
    · rename_i mixed hmixed
      exact h.hkdf hmixed (Except.ok.inj hmix ▸ hknown)

end Unpredictable

namespace Session

variable {held : Bytes → Prop} {key : Bytes}

theorem Opens.known {knows : Bytes → Prop} {made : EncryptedRatchetMessage → Prop} {env : Env}
    {m : EncryptedRatchetMessage} {t : Session} {plaintext : Bytes} {pq : PqRatchet}
    (hopen : Opens C env m t key pq plaintext) (hkey : DerivedKey C held key)
    (hknows : Unpredictable C knows) (hseals : SealsWithKnown C knows made) (hmade : made m) :
    ∃ r, held r ∧ knows r := by
  obtain ⟨pqKey, messageKey, -, hmix, hopen⟩ := hopen
  obtain ⟨-, sid, padded, -, haead, -⟩ := tryAeadDecrypt_ok hopen
  have hmessageKey := hseals m messageKey _ padded hmade haead
  exact hknows.of_derivedKey hkey (hknows.of_mixPqMessageKey hmix hmessageKey)

/-- **No message is opened on a chain that was never derived**, where no message carries the
ratchet key the initiator started with. Whenever `decrypt` returns in a run, it took its key off
a receiving chain opened from a root key of the session; and who made the message knows a root
key of the session. -/
theorem opened_on_derived_chain {root : Bytes} {blank : Option Bytes} {s₀ : Session}
    (h₀ : Founded C root blank s₀) (events : List Event)
    (havoids : ∀ event ∈ events, event.Avoids blank) :
    let held := fun r => r = root ∨ r ∈ s₀.rootsAlong C events
    ∀ before env m secret after, events = before ++ .decrypt env m secret :: after →
      let s := Machine.run (Session.step C) s₀ before
      ∀ plaintext u, decryptWithIdentitySecret C env m secret s = .ok plaintext u →
        (∃ key stepped t pq, ClassicalKey C env m secret (s.cleanupIfDue env.now) key stepped t ∧
          Opens C env m t key pq plaintext ∧ DerivedKey C held key) ∧
        ∀ knows made, Unpredictable C knows → SealsWithKnown C knows made → made m →
          ∃ r, held r ∧ knows r := by
  intro held before env m secret after hsplit s plaintext u hok
  obtain ⟨htraced, hheld⟩ := traced_run h₀ havoids hsplit
  have hroot : held (s.cleanupIfDue env.now).dr.rootKey := by
    rw [cleanupIfDue_rootKey]
    exact hheld (List.cons_ne_nil _ _)
  have hblank : blank ≠ some m.dhPublicKey.toList :=
    havoids (.decrypt env m secret) (by rw [hsplit]; simp)
  obtain ⟨key, stepped, t, pq, hkey, hopen, -⟩ := decryptWithIdentitySecret_ok hok
  have hderived := ((cleanupIfDue_traced htraced env.now).classicalKey hroot hblank hkey).1
  exact ⟨⟨key, stepped, t, pq, hkey, hopen, hderived⟩,
    fun knows made hknows hseals hmade => hopen.known hderived hknows hseals hmade⟩

/-! ## The empty chain -/

/-- A message under the identity key the sample initiator was given, numbered 0. -/
def forgedMessage : EncryptedRatchetMessage :=
  { replayMessage with dhPublicKey := ((toVector? 32 (leBytes 32 5)).getD (Vector.replicate 32 0)) }

def forgedBox : Box :=
  { replayBox with
    key := [1]
    ad := associatedData adVersionHeader replayStart.contactId replayStart.localUserId
      ((hexDecode replayStart.sessionId).getD []) replayStart.suiteId.isPqRatchet
      (AdHeader.ofMessage forgedMessage) }

def forgedCrypto : Crypto := opensOnly symbolicCrypto [forgedBox]

def replayRoot : Bytes := ((deriveInitialRootKey symbolicCrypto (leBytes 32 3)).toOption).getD []

theorem replayStart_founded (boxes : List Box) :
    Founded (opensOnly symbolicCrypto boxes) replayRoot (some (leBytes 32 5)) replayStart :=
  @Founded.initiator (opensOnly symbolicCrypto boxes) ⟨10, 21, 22, 23, 24⟩ (leBytes 32 3)
    (leBytes 32 6) (leBytes 32 5) (ofText "bob") (ofText "alice") .classic _ _ rfl rfl

theorem not_derivedKey_default (hC : C.FreeKdf) {next : Bytes}
    (hck : C.kdfCk defaultAeadKey = .ok (key, next)) : ¬ DerivedKey C held key := by
  rintro ⟨root, base, n, -, hopened, hkey⟩
  obtain ⟨chain, next', hstate, hstep⟩ := exists_step_of_keyAt hkey
  obtain rfl : defaultAeadKey = chain := hC.ckKey hck (ok_of_ckStep hstep)
  cases n with
  | zero => exact hopened.ne_default hC (Option.some.inj hstate)
  | succ n =>
    obtain ⟨before, -, hback⟩ := Option.bind_eq_some_iff.mp hstate
    obtain ⟨⟨m, k⟩, hback, hk⟩ := Option.map_eq_some_iff.mp hback
    exact origin_default hC before m (by rw [hback, ← hk])

/-- What the forger knows: the empty key, and the key it derives from it. -/
def forgerKnows (key : Bytes) : Prop := key = [] ∨ key = [1]

instance : DecidablePred forgerKnows := fun key => inferInstanceAs (Decidable (key = [] ∨ key = [1]))

theorem forgerKnows_unpredictable : Unpredictable forgedCrypto forgerKnows where
  ckKey h hknown := by
    cases h
    rcases hknown with h | h
    · cases h
    · exact .inl (List.cons.inj h).2
  ckNext h hknown := by
    cases h
    rcases hknown with h | h
    · cases h
    · exact absurd (List.cons.inj h).1 (by decide)
  rkChain h hknown := by
    cases h
    rcases hknown with h | h
    · cases h
    · exact absurd (List.cons.inj h).1 (by decide)
  hkdf h hknown := by
    cases h
    rcases hknown with h | h
    · cases h
    · exact absurd (List.cons.inj h).1 (by decide)

theorem forger_seals : SealsWithKnown forgedCrypto forgerKnows (· = forgedMessage) := by
  rintro m key ad padded rfl hopens
  obtain ⟨b, hb, hkey, -⟩ := exists_box_of_opens hopens
  rw [List.mem_singleton.mp hb] at hkey
  exact .inr hkey.symm

def forgedEnv : Env := ⟨20, 31, 32, 33, 34⟩

/-- The initiator opens the forged message, with a key that is on no derived chain; and its maker
knows no root key of the session. -/
theorem forged_on_empty_chain :
    forgedCrypto.FreeKdf ∧
    Founded forgedCrypto replayRoot (some (leBytes 32 5)) replayStart ∧
    .accepted forgedMessage [104, 105] ∈
      (replayStart.step forgedCrypto (.decrypt forgedEnv forgedMessage none)).2 ∧
    (∀ key stepped t, ClassicalKey forgedCrypto forgedEnv forgedMessage none
        (replayStart.cleanupIfDue forgedEnv.now) key stepped t →
      ∀ held, ¬ DerivedKey forgedCrypto held key) ∧
    Unpredictable forgedCrypto forgerKnows ∧
    SealsWithKnown forgedCrypto forgerKnows (· = forgedMessage) ∧
    ∀ r, (r = replayRoot ∨ r ∈ replayStart.rootsAlong forgedCrypto
      [.decrypt forgedEnv forgedMessage none]) → ¬ forgerKnows r := by
  have hfree : forgedCrypto.FreeKdf := opensOnly_freeKdf symbolicCrypto_freeKdf _
  refine ⟨hfree, replayStart_founded _, ?_, ?_, forgerKnows_unpredictable, forger_seals, ?_⟩
  · decide +kernel
  · intro key stepped t hkey held
    have hsame : replayStart.cleanupIfDue forgedEnv.now = replayStart := if_neg (by decide +kernel)
    rw [hsame] at hkey
    cases hkey with
    | skipped hget =>
      have hnone : replayStart.dr.skippedMessageKeys.get?
          (forgedMessage.dhPublicKey.toList, forgedMessage.messageNumber) = none := by
        decide +kernel
      rw [hnone] at hget
      cases hget
    | live _ _ _ hderives =>
      obtain ⟨-, -, chain, next, skipped, hmove, hck, -⟩ := hderives
      obtain ⟨rfl, -⟩ := hmove.eq_of_le (Nat.zero_le _)
      exact not_derivedKey_default hfree hck
    | ratchet _ hnew => exact absurd hnew (by decide +kernel)
  · rintro r (rfl | hr)
    · decide +kernel
    · revert r
      decide +kernel

instance (blank : Option Bytes) : DecidablePred (Event.Avoids blank)
  | .decrypt _ m _ => inferInstanceAs (Decidable (blank ≠ some m.dhPublicKey.toList))
  | .encrypt .. | .answerIdentity .. | .markPqxdhV2 _ | .setPrekeyHeader _
  | .expectIdentityAnswer | .reload _ | .saveLoad _ => isTrue trivial

/-- The peer's own message, under a new ratchet key, opens on the chain that key derives. -/
theorem opened_on_derived_chain_replayed :
    ∃ key stepped t pq, ClassicalKey replayCrypto ⟨20, 31, 32, 33, 34⟩ replayMessage none
        (replayStart.cleanupIfDue 20) key stepped t ∧
      Opens replayCrypto ⟨20, 31, 32, 33, 34⟩ replayMessage t key pq [104, 105] ∧
      DerivedKey replayCrypto (fun r => r = replayRoot ∨ r ∈ replayStart.rootsAlong replayCrypto
        replayEvents) key := by
  have haccepted : .accepted replayMessage [104, 105] ∈
      (replayStart.step replayCrypto (.decrypt ⟨20, 31, 32, 33, 34⟩ replayMessage none)).2 := by
    decide +kernel
  obtain ⟨u, hrun⟩ := ok_of_accepted haccepted
  exact (opened_on_derived_chain (replayStart_founded [replayBox]) replayEvents
    (by decide +kernel) [] ⟨20, 31, 32, 33, 34⟩ replayMessage none _ rfl [104, 105] u hrun).1

end Session

end ConstructCore
