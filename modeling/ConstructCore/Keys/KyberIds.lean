import ConstructCore.Keys.KyberPrekeys
import ConstructCore.Lib.Machine

/-!
# Kyber prekey ids name one key

The store of `KyberPrekeys` as a machine, over any sequence of its calls and of reloads from the
record saved last. Beside it runs a `Ledger`: what a caller of the store knows from the answers
alone, that is which key it was handed under which id and where that key stands (pending,
current, retired since some time, one-time).

* `Kept`: the ids handed out so far lie below the counters, and no two keys share one; what the
  store holds was handed out. `Call.step_kept` is the step, one case for each call.
* `Follows`: whatever the ledger says of a key, the store holds it so. A reload keeps both, since
  a store that is `Kept` is read back from its record.
* `ids_name_one_key`: the whole run.
-/

namespace ConstructCore

open Bytes

namespace KyberPrekeyStore

/-! ## The ledger -/

/-- Where a key stands that was handed out: retired since a time, and the latest time the clock
has shown since. -/
inductive Standing where
  | pending
  | current
  | retired (since latest : Nat)
  | oneTime
deriving DecidableEq, Repr

namespace Standing

def seen (now : Nat) : Standing → Standing
  | retired since latest => retired since (max latest now)
  | s => s

/-- A commit makes the pending key current, and retires the one before it. -/
def committed (now : Nat) : Standing → Standing
  | pending => current
  | current => retired now now
  | s => s

/-- The key can still be asked for: it is not retired, or has been for less than the time
retired keys are kept. -/
def InUse : Standing → Prop
  | retired since latest => latest - since < spkRetentionAfterRotationSecs
  | _ => True

end Standing

/-- The keys handed out that a caller has not given up, with their standing. -/
abbrev Ledger := List (KyberPrekey × Standing)

namespace Ledger

def seen (now : Nat) (l : Ledger) : Ledger := l.map fun e => (e.1, e.2.seen now)

def begun (k : KyberPrekey) (l : Ledger) : Ledger :=
  if (k, Standing.pending) ∈ l then l else (k, .pending) :: l

def committed (now : Nat) (l : Ledger) : Ledger := l.map fun e => (e.1, e.2.committed now)

def rolledBack (l : Ledger) : Ledger := l.filter fun e => decide (e.2 ≠ .pending)

def generated (keys : List KyberPrekey) (l : Ledger) : Ledger :=
  keys.map (fun k => (k, .oneTime)) ++ l

def burned (gone : UInt32 → Bool) (l : Ledger) : Ledger :=
  l.filter fun e => decide (e.2 ≠ .oneTime) || !gone e.1.keyId

end Ledger

/-! ## The machine -/

/-- A key under the id the store gave it. -/
inductive Handed where
  | signed (prekey : KyberPrekey)
  | oneTime (prekey : KyberPrekey)
deriving DecidableEq, Repr

def Handed.prekey : Handed → KyberPrekey
  | signed k => k
  | oneTime k => k

/-- The calls of the store, and a reload from the record saved last. -/
inductive Call where
  | begin (now : Nat) (draw : Seed)
  | commit (now : Nat)
  | rollback
  | generateOtpks (now : Nat) (draws : List Seed)
  | removeOtpk (keyId : UInt32)
  | pruneOtpksBelow (minKeepId : UInt32)
  | pruneRetired (now : Nat)
  | reload (now : Nat)

/-- The store and the ledger beside it. -/
structure Tracked where
  store : KyberPrekeyStore
  ledger : Ledger

/-- One call. The log shows the keys that were given an id; the ledger sees answers only, so
that a batch that fails, whose keys are in the store all the same, adds nothing to it. -/
def Call.step (S : Suite) (t : Tracked) : Call → Tracked × List Handed
  | .begin now draw =>
    match beginSpkRotation S now draw t.store with
    | .ok k store => (⟨store, (t.ledger.seen now).begun k⟩, [.signed k])
    | .error _ store => (⟨store, t.ledger.seen now⟩, [])
  | .commit now =>
    match t.store.commitSpkRotation now with
    | (true, store) => (⟨store, (t.ledger.seen now).committed now⟩, [])
    | (false, store) => (⟨store, t.ledger.seen now⟩, [])
  | .rollback => (⟨t.store.rollbackSpkRotation, t.ledger.rolledBack⟩, [])
  | .generateOtpks now draws =>
    let made := (t.store.madeOtpks S now draws).map .oneTime
    match KyberPrekeyStore.generateOtpks S now draws t.store with
    | .ok keys store => (⟨store, (t.ledger.seen now).generated keys⟩, made)
    | .error _ store => (⟨store, t.ledger.seen now⟩, made)
  | .removeOtpk keyId => (⟨t.store.removeOtpk keyId, t.ledger.burned (· == keyId)⟩, [])
  | .pruneOtpksBelow minKeepId =>
    (⟨t.store.pruneOtpksBelow minKeepId, t.ledger.burned fun id => decide (id < minKeepId)⟩, [])
  | .pruneRetired now => (⟨t.store.pruneRetired now, t.ledger.seen now⟩, [])
  | .reload now => (⟨fromCfe t.store.toCfe now, t.ledger.seen now⟩, [])

/-! ## What a call does to the store -/

/-- A begun rotation hands out the pending key, or a new one under the next id. -/
theorem beginSpkRotation_cases (S : Suite) (now : Nat) (draw : Seed) (store : KyberPrekeyStore) :
    (∃ k, store.pendingSpk = some k ∧ beginSpkRotation S now draw store = .ok k store) ∨
    (store.pendingSpk = none ∧ store.nextSpkId < kyberOtpkIdStart ∧
      beginSpkRotation S now draw store = .ok (.generate S store.nextSpkId now draw)
        { store with
          nextSpkId := store.nextSpkId + 1
          pendingSpk := some (.generate S store.nextSpkId now draw) }) ∨
    ∃ e, beginSpkRotation S now draw store = .error e store := by
  have hget : (get : Op String KyberPrekeyStore _) store = .ok store store := rfl
  unfold beginSpkRotation
  rw [Op.bind_run, hget]
  dsimp only
  cases hpending : store.pendingSpk with
  | some k => exact .inl ⟨k, rfl, rfl⟩
  | none =>
    dsimp only
    by_cases hfull : kyberOtpkIdStart ≤ store.nextSpkId
    · rw [if_pos hfull]
      exact .inr (.inr ⟨_, rfl⟩)
    · rw [if_neg hfull]
      exact .inr (.inl ⟨rfl, UInt32.not_le.mp hfull, rfl⟩)

theorem commitSpkRotation_cases (store : KyberPrekeyStore) (now : Nat) :
    (store.pendingSpk = none ∧ store.commitSpkRotation now = (false, store)) ∨
    ∃ k, store.pendingSpk = some k ∧ store.commitSpkRotation now = (true, ({ store with
        spk := some k
        pendingSpk := none
        retiredSpks := store.retiredSpks ++
          store.spk.toList.map fun previous => ⟨previous, now⟩ } : KyberPrekeyStore).pruneRetired
        now) := by
  unfold commitSpkRotation
  cases store.pendingSpk with
  | none => exact .inl ⟨rfl, rfl⟩
  | some k => exact .inr ⟨k, rfl, rfl⟩

theorem mem_retiredSpks_pruneRetired {store : KyberPrekeyStore} {now : Nat} {r : RetiredSpk} :
    r ∈ (store.pruneRetired now).retiredSpks ↔
      r ∈ store.retiredSpks ∧ now - r.retiredAt < spkRetentionAfterRotationSecs := by
  unfold pruneRetired
  rw [List.mem_filter, decide_eq_true_iff]

theorem signedPrekeys_pruneRetired {store : KyberPrekeyStore} {now : Nat} {k : KyberPrekey}
    (h : k ∈ (store.pruneRetired now).signedPrekeys) : k ∈ store.signedPrekeys := by
  rw [mem_signedPrekeys] at h ⊢
  rcases h with h | h | ⟨r, hr, hk⟩
  · exact .inl h
  · exact .inr (.inl h)
  · exact .inr (.inr ⟨r, (mem_retiredSpks_pruneRetired.mp hr).1, hk⟩)

theorem signedPrekeys_commit {store : KyberPrekeyStore} {now : Nat} {k : KyberPrekey}
    (h : k ∈ (store.commitSpkRotation now).2.signedPrekeys) : k ∈ store.signedPrekeys := by
  rcases commitSpkRotation_cases store now with ⟨-, hrun⟩ | ⟨pending, hpending, hrun⟩
  · rwa [hrun] at h
  rw [hrun] at h
  have hmem := signedPrekeys_pruneRetired h
  rw [mem_signedPrekeys] at hmem ⊢
  rcases hmem with hspk | hnone | ⟨r, hr, rfl⟩
  · obtain rfl := Option.some.inj hspk
    exact .inr (.inl hpending)
  · cases hnone
  · rcases List.mem_append.mp hr with hold | hnew
    · exact .inr (.inr ⟨r, hold, rfl⟩)
    · obtain ⟨previous, hprevious, rfl⟩ := List.mem_map.mp hnew
      exact .inl (Option.mem_toList.mp hprevious)

theorem commitSpkRotation_otpks (store : KyberPrekeyStore) (now : Nat) :
    (store.commitSpkRotation now).2.otpks = store.otpks := by
  rcases commitSpkRotation_cases store now with ⟨-, hrun⟩ | ⟨_, -, hrun⟩
  · rw [hrun]
  · rw [hrun]
    rfl

theorem commitSpkRotation_counters (store : KyberPrekeyStore) (now : Nat) :
    (store.commitSpkRotation now).2.nextSpkId = store.nextSpkId ∧
      (store.commitSpkRotation now).2.nextOtpkId = store.nextOtpkId := by
  rcases commitSpkRotation_cases store now with ⟨-, hrun⟩ | ⟨_, -, hrun⟩
  · rw [hrun]
    exact ⟨rfl, rfl⟩
  · rw [hrun]
    exact ⟨rfl, rfl⟩

/-! ## Ids -/

/-- No two keys were given one id, each id lies in its range and below its counter, and what the
store holds was given an id. -/
structure Kept (store : KyberPrekeyStore) (handed : List Handed) : Prop where
  unique : ∀ a ∈ handed, ∀ b ∈ handed, a.prekey.keyId = b.prekey.keyId → a = b
  signedBelow : ∀ k, .signed k ∈ handed → k.keyId < store.nextSpkId
  signedRange : store.nextSpkId ≤ kyberOtpkIdStart
  signedCounter : 0 < store.nextSpkId
  oneTimeBelow : ∀ k, .oneTime k ∈ handed → k.keyId < store.nextOtpkId
  oneTimeRange : ∀ k, .oneTime k ∈ handed → kyberOtpkIdStart ≤ k.keyId
  oneTimeCounter : kyberOtpkIdStart ≤ store.nextOtpkId
  seedLength : ∀ a ∈ handed, a.prekey.seed.length = mlkemSeedSize
  signedHeld : ∀ k ∈ store.signedPrekeys, .signed k ∈ handed
  oneTimeHeld : ∀ (id : UInt32) k, store.otpks[id]? = some k → k.keyId = id ∧ .oneTime k ∈ handed

namespace Kept

variable {store store' : KyberPrekeyStore} {handed : List Handed}

theorem default : Kept default [] where
  unique _ h := nomatch h
  signedBelow _ h := nomatch h
  signedRange := by decide
  signedCounter := by decide
  oneTimeBelow _ h := nomatch h
  oneTimeRange _ h := nomatch h
  oneTimeCounter := by decide
  seedLength _ h := nomatch h
  signedHeld _ h := nomatch h
  oneTimeHeld _ _ h := by simp [KyberPrekeyStore.default] at h

variable (h : Kept store handed)

include h

theorem shrink (hnext : store'.nextSpkId = store.nextSpkId)
    (hnextOtpk : store'.nextOtpkId = store.nextOtpkId)
    (hsigned : ∀ k ∈ store'.signedPrekeys, k ∈ store.signedPrekeys)
    (honeTime : ∀ (id : UInt32) k, store'.otpks[id]? = some k → store.otpks[id]? = some k) :
    Kept store' handed where
  unique := h.unique
  signedBelow k hk := by
    rw [hnext]
    exact h.signedBelow k hk
  signedRange := hnext ▸ h.signedRange
  signedCounter := hnext ▸ h.signedCounter
  oneTimeBelow k hk := by
    rw [hnextOtpk]
    exact h.oneTimeBelow k hk
  oneTimeRange := h.oneTimeRange
  oneTimeCounter := hnextOtpk ▸ h.oneTimeCounter
  seedLength := h.seedLength
  signedHeld k hk := h.signedHeld k (hsigned k hk)
  oneTimeHeld id k hk := h.oneTimeHeld id k (honeTime id k hk)

theorem wellKept : WellKept store where
  signedSeed k hk := h.seedLength _ (h.signedHeld k hk)
  oneTimeSeed id k hk := h.seedLength _ (h.oneTimeHeld id k hk).2
  oneTimeId id k hk := (h.oneTimeHeld id k hk).1
  signedBelow k hk := h.signedBelow k (h.signedHeld k hk)
  oneTimeBelow id hid := by
    obtain ⟨k, hk⟩ := Option.isSome_iff_exists.mp
      (Std.ExtTreeMap.mem_iff_isSome_getElem?.mp hid)
    obtain ⟨rfl, hhanded⟩ := h.oneTimeHeld id k hk
    exact h.oneTimeBelow k hhanded
  signedCounter := h.signedCounter
  oneTimeCounter := h.oneTimeCounter

theorem pruneRetired (now : Nat) :
    Kept (store.pruneRetired now) handed :=
  h.shrink rfl rfl (fun _ => signedPrekeys_pruneRetired) fun _ _ hk => hk

theorem reload (now : Nat) : Kept (fromCfe store.toCfe now) handed := by
  rw [h.wellKept.fromCfe_toCfe now]
  exact h.pruneRetired now

theorem commit (now : Nat) :
    Kept (store.commitSpkRotation now).2 handed := by
  obtain ⟨hnext, hnextOtpk⟩ := commitSpkRotation_counters store now
  refine h.shrink hnext hnextOtpk (fun _ => signedPrekeys_commit) ?_
  intro id k hk
  rwa [commitSpkRotation_otpks] at hk

theorem again {k : KyberPrekey} (hk : store.pendingSpk = some k) :
    Kept store (handed ++ [.signed k]) := by
  have hmem := h.signedHeld k (mem_signedPrekeys.mpr (.inr (.inl hk)))
  have hsub : ∀ a ∈ handed ++ [.signed k], a ∈ handed := by
    intro a ha
    rcases List.mem_append.mp ha with ha | ha
    · exact ha
    · rw [List.mem_singleton.mp ha]
      exact hmem
  exact {
    unique := fun a ha b hb => h.unique a (hsub a ha) b (hsub b hb)
    signedBelow := fun k hk => h.signedBelow k (hsub _ hk)
    signedRange := h.signedRange
    signedCounter := h.signedCounter
    oneTimeBelow := fun k hk => h.oneTimeBelow k (hsub _ hk)
    oneTimeRange := fun k hk => h.oneTimeRange k (hsub _ hk)
    oneTimeCounter := h.oneTimeCounter
    seedLength := fun a ha => h.seedLength a (hsub a ha)
    signedHeld := fun k hk => List.mem_append_left _ (h.signedHeld k hk)
    oneTimeHeld := fun id k hk =>
      ⟨(h.oneTimeHeld id k hk).1, List.mem_append_left _ (h.oneTimeHeld id k hk).2⟩ }

theorem unique_snoc {new : Handed} (hnew : ∀ a ∈ handed, a.prekey.keyId ≠ new.prekey.keyId) :
    ∀ a ∈ handed ++ [new], ∀ b ∈ handed ++ [new], a.prekey.keyId = b.prekey.keyId → a = b := by
  intro a ha b hb heq
  rcases List.mem_append.mp ha with ha | ha <;> rcases List.mem_append.mp hb with hb | hb
  · exact h.unique a ha b hb heq
  · rw [List.mem_singleton.mp hb] at heq
    exact absurd heq (hnew a ha)
  · rw [List.mem_singleton.mp ha] at heq
    exact absurd heq.symm (hnew b hb)
  · rw [List.mem_singleton.mp ha, List.mem_singleton.mp hb]

variable {S : Suite} (hseed : ∀ draw, (S.mlkem1024Seed draw).length = mlkemSeedSize)

include hseed

theorem seedLength_snoc {new : Handed} {id : UInt32} {now : Nat} {draw : Seed}
    (hnew : new.prekey = .generate S id now draw) :
    ∀ a ∈ handed ++ [new], a.prekey.seed.length = mlkemSeedSize := by
  intro a ha
  rcases List.mem_append.mp ha with ha | ha
  · exact h.seedLength a ha
  · rw [List.mem_singleton.mp ha, hnew]
    exact hseed draw

/-- A new signed prekey takes the next id, which is below the one-time range. -/
theorem begun (hroom : store.nextSpkId < kyberOtpkIdStart) (now : Nat) (draw : Seed) :
    Kept { store with
        nextSpkId := store.nextSpkId + 1
        pendingSpk := some (.generate S store.nextSpkId now draw) }
      (handed ++ [.signed (.generate S store.nextSpkId now draw)]) := by
  have hstart : kyberOtpkIdStart.toNat = 1000000 := rfl
  have hroom' := UInt32.lt_iff_toNat_lt.mp hroom
  have hsucc : (store.nextSpkId + 1).toNat = store.nextSpkId.toNat + 1 := by
    rw [UInt32.toNat_add, UInt32.toNat_one]
    omega
  have hfresh : ∀ a ∈ handed, a.prekey.keyId ≠ store.nextSpkId := by
    intro a ha heq
    cases a with
    | signed k => exact UInt32.lt_irrefl _ (heq ▸ h.signedBelow k ha)
    | oneTime k =>
      have hle := h.oneTimeRange k ha
      rw [show k.keyId = store.nextSpkId from heq] at hle
      exact UInt32.not_le.mpr hroom hle
  refine {
    unique := h.unique_snoc hfresh
    signedBelow := ?_
    signedRange := ?_
    signedCounter := ?_
    oneTimeBelow := ?_
    oneTimeRange := ?_
    oneTimeCounter := h.oneTimeCounter
    seedLength := h.seedLength_snoc hseed rfl
    signedHeld := ?_
    oneTimeHeld := ?_ }
  · intro k hk
    rw [UInt32.lt_iff_toNat_lt, hsucc]
    rcases List.mem_append.mp hk with hk | hk
    · have hlt := UInt32.lt_iff_toNat_lt.mp (h.signedBelow k hk)
      omega
    · rw [Handed.signed.inj (List.mem_singleton.mp hk)]
      exact Nat.lt_succ_self _
  · rw [UInt32.le_iff_toNat_le, hsucc]
    omega
  · rw [UInt32.lt_iff_toNat_lt, hsucc]
    exact Nat.succ_pos _
  · intro k hk
    rcases List.mem_append.mp hk with hk | hk
    · exact h.oneTimeBelow k hk
    · exact absurd (List.mem_singleton.mp hk) nofun
  · intro k hk
    rcases List.mem_append.mp hk with hk | hk
    · exact h.oneTimeRange k hk
    · exact absurd (List.mem_singleton.mp hk) nofun
  · intro k hk
    rcases mem_signedPrekeys.mp hk with hk | hk | hk
    · exact List.mem_append_left _ (h.signedHeld k (mem_signedPrekeys.mpr (.inl hk)))
    · rw [← Option.some.inj hk]
      exact List.mem_append_right _ (List.mem_singleton_self _)
    · exact List.mem_append_left _ (h.signedHeld k (mem_signedPrekeys.mpr (.inr (.inr hk))))
  · intro id k hk
    exact ⟨(h.oneTimeHeld id k hk).1, List.mem_append_left _ (h.oneTimeHeld id k hk).2⟩

theorem addOtpk (now : Nat) (draw : Seed) {next : UInt32}
    (hnext : store.nextOtpkId.checkedSucc = some next) :
    Kept (store.addOtpk S now draw next)
      (handed ++ [.oneTime (.generate S store.nextOtpkId now draw)]) := by
  have hsucc := UInt32.toNat_of_checkedSucc hnext
  have hstart := UInt32.le_iff_toNat_le.mp h.oneTimeCounter
  have hfresh : ∀ a ∈ handed, a.prekey.keyId ≠ store.nextOtpkId := by
    intro a ha heq
    cases a with
    | signed k =>
      have hlt := h.signedBelow k ha
      rw [show k.keyId = store.nextOtpkId from heq] at hlt
      exact UInt32.not_le.mpr (UInt32.lt_of_lt_of_le hlt h.signedRange) h.oneTimeCounter
    | oneTime k => exact UInt32.lt_irrefl _ (heq ▸ h.oneTimeBelow k ha)
  refine {
    unique := h.unique_snoc hfresh
    signedBelow := ?_
    signedRange := h.signedRange
    signedCounter := h.signedCounter
    oneTimeBelow := ?_
    oneTimeRange := ?_
    oneTimeCounter := ?_
    seedLength := h.seedLength_snoc hseed rfl
    signedHeld := ?_
    oneTimeHeld := ?_ }
  · intro k hk
    rcases List.mem_append.mp hk with hk | hk
    · exact h.signedBelow k hk
    · exact absurd (List.mem_singleton.mp hk) nofun
  · intro k hk
    show k.keyId < next
    rw [UInt32.lt_iff_toNat_lt, hsucc]
    rcases List.mem_append.mp hk with hk | hk
    · have hlt := UInt32.lt_iff_toNat_lt.mp (h.oneTimeBelow k hk)
      omega
    · rw [Handed.oneTime.inj (List.mem_singleton.mp hk)]
      exact Nat.lt_succ_self _
  · intro k hk
    rcases List.mem_append.mp hk with hk | hk
    · exact h.oneTimeRange k hk
    · rw [Handed.oneTime.inj (List.mem_singleton.mp hk)]
      exact h.oneTimeCounter
  · show kyberOtpkIdStart ≤ next
    rw [UInt32.le_iff_toNat_le, hsucc]
    omega
  · intro k hk
    exact List.mem_append_left _ (h.signedHeld k hk)
  · intro id k hk
    have hk : (store.otpks.insert store.nextOtpkId _)[id]? = some k := hk
    rw [Table.lookup_insert] at hk
    split at hk
    · rename_i hid
      obtain rfl := Option.some.inj hk
      exact ⟨hid.symm, List.mem_append_right _ (List.mem_singleton_self _)⟩
    · exact ⟨(h.oneTimeHeld id k hk).1, List.mem_append_left _ (h.oneTimeHeld id k hk).2⟩

theorem afterOtpks (now : Nat) (draws : List Seed) :
    Kept (store.afterOtpks S now draws)
      (handed ++ (store.madeOtpks S now draws).map .oneTime) := by
  induction draws generalizing store handed with
  | nil =>
    rw [madeOtpks, List.map_nil, List.append_nil]
    exact h
  | cons draw draws ih =>
    rw [KyberPrekeyStore.afterOtpks, madeOtpks]
    cases hnext : store.nextOtpkId.checkedSucc with
    | none =>
      rw [List.map_nil, List.append_nil]
      exact h
    | some next =>
      have hrest := ih (h.addOtpk hseed now draw hnext)
      rw [List.append_assoc] at hrest
      exact hrest

end Kept

theorem Call.step_kept {S : Suite}
    (hseed : ∀ draw, (S.mlkem1024Seed draw).length = mlkemSeedSize) {t : Tracked}
    {handed : List Handed} (h : Kept t.store handed) (c : Call) :
    Kept (c.step S t).1.store (handed ++ (c.step S t).2) := by
  cases c with
  | begin now draw =>
    rw [step]
    rcases beginSpkRotation_cases S now draw t.store with
      ⟨k, hk, hrun⟩ | ⟨-, hroom, hrun⟩ | ⟨e, hrun⟩
    · rw [hrun]
      exact h.again hk
    · rw [hrun]
      exact h.begun hseed hroom now draw
    · rw [hrun]
      simpa using h
  | commit now =>
    have hcommit := h.commit now
    rw [step]
    rcases hrun : t.store.commitSpkRotation now with ⟨_ | _, store⟩
    · rw [hrun] at hcommit
      simpa using hcommit
    · rw [hrun] at hcommit
      simpa using hcommit
  | rollback =>
    refine (List.append_nil handed).symm ▸ h.shrink rfl rfl ?_ fun _ _ hk => hk
    intro k hk
    rw [mem_signedPrekeys] at hk ⊢
    rcases hk with hk | hk | hk
    · exact .inl hk
    · cases hk
    · exact .inr (.inr hk)
  | generateOtpks now draws =>
    have hmade := h.afterOtpks hseed now draws
    rw [step]
    rcases generateOtpks_eq S now draws t.store with hrun | ⟨e, hrun⟩
    · rw [hrun]
      exact hmade
    · rw [hrun]
      exact hmade
  | removeOtpk keyId =>
    refine (List.append_nil handed).symm ▸ h.shrink rfl rfl (fun _ hk => hk) ?_
    intro id k hk
    have hk : (t.store.otpks.erase keyId)[id]? = some k := hk
    rw [Table.lookup_erase] at hk
    split at hk
    · cases hk
    · exact hk
  | pruneOtpksBelow minKeepId =>
    refine (List.append_nil handed).symm ▸ h.shrink rfl rfl (fun _ hk => hk) ?_
    intro id k hk
    have hk : (t.store.otpks.filter fun id _ => decide (minKeepId ≤ id))[id]? = some k := hk
    rw [Table.lookup_filter] at hk
    exact (Option.filter_eq_some_iff.mp hk).1
  | pruneRetired now => exact (List.append_nil handed).symm ▸ h.pruneRetired now
  | reload now => exact (List.append_nil handed).symm ▸ h.reload now

/-! ## What the ledger knows -/

def Stands (store : KyberPrekeyStore) (k : KyberPrekey) : Standing → Prop
  | .pending => store.pendingSpk = some k
  | .current => store.spk = some k
  | .retired since latest => latest - since < spkRetentionAfterRotationSecs →
      ⟨k, since⟩ ∈ store.retiredSpks
  | .oneTime => store.otpks[k.keyId]? = some k

theorem Stands.seen {store : KyberPrekeyStore} {k : KyberPrekey} {st : Standing}
    (h : Stands store k st) (now : Nat) : Stands store k (st.seen now) := by
  cases st with
  | retired since latest =>
    intro hage
    have hle : latest ≤ max latest now := Nat.le_max_left _ _
    exact h (by omega)
  | pending | current | oneTime => exact h

theorem Stands.pruned {store : KyberPrekeyStore} {k : KyberPrekey} {st : Standing}
    (h : Stands store k st) (now : Nat) : Stands (store.pruneRetired now) k (st.seen now) := by
  cases st with
  | retired since latest =>
    intro hage
    have hle : latest ≤ max latest now := Nat.le_max_left _ _
    have hnow : now ≤ max latest now := Nat.le_max_right _ _
    rw [mem_retiredSpks_pruneRetired]
    refine ⟨h (by omega), ?_⟩
    show now - since < spkRetentionAfterRotationSecs
    omega
  | pending | current | oneTime => exact h

theorem Stands.committed {store : KyberPrekeyStore} {k pending : KyberPrekey} {st : Standing}
    (h : Stands store k st) (hpending : store.pendingSpk = some pending) (now : Nat) :
    Stands (({ store with
        spk := some pending
        pendingSpk := none
        retiredSpks := store.retiredSpks ++
          store.spk.toList.map fun previous => ⟨previous, now⟩ } : KyberPrekeyStore).pruneRetired
      now) k ((st.seen now).committed now) := by
  cases st with
  | pending => exact hpending.symm.trans h
  | current =>
    intro _
    rw [mem_retiredSpks_pruneRetired, Nat.sub_self]
    refine ⟨List.mem_append_right _ ?_, by decide⟩
    rw [show store.spk = some k from h]
    exact List.mem_singleton_self _
  | retired since latest =>
    intro hage
    have hold := (h.pruned now) hage
    rw [mem_retiredSpks_pruneRetired] at hold ⊢
    exact ⟨List.mem_append_left _ hold.1, hold.2⟩
  | oneTime => exact h

/-- The store holds each key of the ledger as its standing says, and the ledger knows the
current and the pending key. -/
structure Follows (t : Tracked) : Prop where
  stands : ∀ e ∈ t.ledger, Stands t.store e.1 e.2
  current : ∀ k, t.store.spk = some k → (k, .current) ∈ t.ledger
  pending : ∀ k, t.store.pendingSpk = some k → (k, .pending) ∈ t.ledger

namespace Follows

variable {t : Tracked}

variable (h : Follows t)

include h

theorem stands_seen (now : Nat) :
    ∀ e ∈ t.ledger.seen now, Stands t.store e.1 e.2 := by
  intro e he
  obtain ⟨e', he', rfl⟩ := List.mem_map.mp he
  exact (h.stands e' he').seen now

theorem current_seen (now : Nat) {k : KyberPrekey} (hk : t.store.spk = some k) :
    (k, .current) ∈ t.ledger.seen now :=
  List.mem_map.mpr ⟨_, h.current k hk, rfl⟩

theorem pending_seen (now : Nat) {k : KyberPrekey} (hk : t.store.pendingSpk = some k) :
    (k, .pending) ∈ t.ledger.seen now :=
  List.mem_map.mpr ⟨_, h.pending k hk, rfl⟩

theorem seen (now : Nat) : Follows ⟨t.store, t.ledger.seen now⟩ where
  stands := h.stands_seen now
  current _ hk := h.current_seen now hk
  pending _ hk := h.pending_seen now hk

theorem pruned (now : Nat) :
    Follows ⟨t.store.pruneRetired now, t.ledger.seen now⟩ where
  stands e he := by
    obtain ⟨e', he', rfl⟩ := List.mem_map.mp he
    exact (h.stands e' he').pruned now
  current _ hk := h.current_seen now hk
  pending _ hk := h.pending_seen now hk

theorem again (now : Nat) {k : KyberPrekey} (hk : t.store.pendingSpk = some k) :
    Follows ⟨t.store, (t.ledger.seen now).begun k⟩ := by
  unfold Ledger.begun
  rw [if_pos (h.pending_seen now hk)]
  exact h.seen now

theorem begun (hnone : t.store.pendingSpk = none) (now : Nat) (k : KyberPrekey) (next : UInt32) :
    Follows ⟨{ t.store with nextSpkId := next, pendingSpk := some k },
      (t.ledger.seen now).begun k⟩ := by
  -- the ledger has no pending key, since the store has none
  have hother : ∀ k', (k', Standing.pending) ∉ t.ledger.seen now := by
    intro k' hmem
    have hpending : t.store.pendingSpk = some k' := h.stands_seen now _ hmem
    rw [hnone] at hpending
    cases hpending
  unfold Ledger.begun
  rw [if_neg (hother k)]
  refine ⟨?_, ?_, ?_⟩
  · rintro ⟨k', st⟩ he
    rcases List.mem_cons.mp he with he | he
    · obtain ⟨rfl, rfl⟩ := Prod.mk.inj he
      exact rfl
    · cases st with
      | pending => exact absurd he (hother k')
      | current | retired since latest | oneTime => exact h.stands_seen now _ he
  · intro k' hk'
    exact List.mem_cons_of_mem _ (h.current_seen now hk')
  · intro k' hk'
    rw [Option.some.inj hk']
    exact List.mem_cons_self

theorem committed {pending : KyberPrekey} (hpending : t.store.pendingSpk = some pending) (now : Nat) :
    Follows ⟨({ t.store with
        spk := some pending
        pendingSpk := none
        retiredSpks := t.store.retiredSpks ++
          t.store.spk.toList.map fun previous => ⟨previous, now⟩ } : KyberPrekeyStore).pruneRetired
      now, (t.ledger.seen now).committed now⟩ := by
  refine ⟨?_, ?_, ?_⟩
  · intro e he
    obtain ⟨e₁, he₁, rfl⟩ := List.mem_map.mp he
    obtain ⟨e₂, he₂, rfl⟩ := List.mem_map.mp he₁
    exact (h.stands e₂ he₂).committed hpending now
  · intro k hk
    obtain rfl := Option.some.inj hk
    exact List.mem_map.mpr ⟨_, h.pending_seen now hpending, rfl⟩
  · intro k hk
    cases hk

theorem rolledBack :
    Follows ⟨t.store.rollbackSpkRotation, t.ledger.rolledBack⟩ := by
  refine ⟨?_, ?_, ?_⟩
  · rintro ⟨k, st⟩ he
    obtain ⟨he, hne⟩ := List.mem_filter.mp he
    have hstands := h.stands _ he
    cases st with
    | pending => simp at hne
    | current | retired since latest | oneTime => exact hstands
  · intro k hk
    exact List.mem_filter.mpr ⟨h.current k hk, by simp⟩
  · intro k hk
    cases hk

theorem withOtpks {otpks : Table UInt32 KyberPrekey} {next : UInt32} {l : Ledger}
    (hold : ∀ e ∈ l, e.2 ≠ .oneTime → e ∈ t.ledger)
    (honeTime : ∀ k, (k, .oneTime) ∈ l → otpks[k.keyId]? = some k)
    (hkeep : ∀ e ∈ t.ledger, e.2 ≠ .oneTime → e ∈ l) :
    Follows ⟨{ t.store with otpks, nextOtpkId := next }, l⟩ := by
  refine ⟨?_, ?_, ?_⟩
  · rintro ⟨k, st⟩ he
    cases st with
    | oneTime => exact honeTime k he
    | pending | current | retired since latest => exact h.stands _ (hold _ he (by simp))
  · intro k hk
    exact hkeep _ (h.current k hk) (by simp)
  · intro k hk
    exact hkeep _ (h.pending k hk) (by simp)

theorem burned {otpks : Table UInt32 KyberPrekey} (gone : UInt32 → Bool)
    (hlookup : ∀ id : UInt32, gone id = false → otpks[id]? = t.store.otpks[id]?) :
    Follows ⟨{ t.store with otpks }, t.ledger.burned gone⟩ := by
  refine @withOtpks t h otpks t.store.nextOtpkId _ ?_ ?_ ?_
  · intro e he _
    exact (List.mem_filter.mp he).1
  · intro k hk
    obtain ⟨hk, hgone⟩ := List.mem_filter.mp hk
    rw [hlookup _ (by simpa using hgone)]
    exact h.stands _ hk
  · intro e he hne
    exact List.mem_filter.mpr ⟨he, by simp [hne]⟩

end Follows

theorem lookup_afterOtpks_of_lt {S : Suite} {now : Nat} {draws : List Seed}
    {store : KyberPrekeyStore} {id : UInt32} (hid : id < store.nextOtpkId) :
    (store.afterOtpks S now draws).otpks[id]? = store.otpks[id]? := by
  induction draws generalizing store with
  | nil => rfl
  | cons draw draws ih =>
    rw [afterOtpks]
    cases hnext : store.nextOtpkId.checkedSucc with
    | none => rfl
    | some next =>
      have hlt : id < next := by
        rw [UInt32.lt_iff_toNat_lt] at hid ⊢
        rw [UInt32.toNat_of_checkedSucc hnext]
        omega
      show (afterOtpks S now draws (store.addOtpk S now draw next)).otpks[id]? = _
      rw [ih hlt]
      exact Table.lookup_insert_of_ne _ _ fun heq => UInt32.lt_irrefl _ (heq ▸ hid)

theorem lookup_afterOtpks_of_mem {S : Suite} {now : Nat} {draws : List Seed}
    {store : KyberPrekeyStore} {k : KyberPrekey} (hk : k ∈ store.madeOtpks S now draws) :
    (store.afterOtpks S now draws).otpks[k.keyId]? = some k := by
  induction draws generalizing store with
  | nil => cases hk
  | cons draw draws ih =>
    rw [madeOtpks] at hk
    rw [afterOtpks]
    cases hnext : store.nextOtpkId.checkedSucc with
    | none =>
      rw [hnext] at hk
      cases hk
    | some next =>
      rw [hnext] at hk
      show (afterOtpks S now draws (store.addOtpk S now draw next)).otpks[k.keyId]? = _
      rcases List.mem_cons.mp hk with rfl | hk
      · rw [lookup_afterOtpks_of_lt]
        · exact Table.lookup_insert_self _ _ _
        · show store.nextOtpkId < next
          rw [UInt32.lt_iff_toNat_lt, UInt32.toNat_of_checkedSucc hnext]
          exact Nat.lt_succ_self _
      · exact ih hk

theorem afterOtpks_eq (S : Suite) (now : Nat) (draws : List Seed) (store : KyberPrekeyStore) :
    ∃ next, store.afterOtpks S now draws =
      { store with otpks := (store.afterOtpks S now draws).otpks, nextOtpkId := next } := by
  induction draws generalizing store with
  | nil => exact ⟨store.nextOtpkId, rfl⟩
  | cons draw draws ih =>
    rw [afterOtpks]
    cases store.nextOtpkId.checkedSucc with
    | none => exact ⟨store.nextOtpkId, rfl⟩
    | some next => exact ih (store.addOtpk S now draw next)

theorem Follows.generated {S : Suite} {t : Tracked} {handed : List Handed} (h : Follows t)
    (hkept : Kept t.store handed) (now : Nat) (draws : List Seed) {keys : List KyberPrekey}
    (hkeys : ∀ k ∈ keys, k ∈ t.store.madeOtpks S now draws) :
    Follows ⟨t.store.afterOtpks S now draws, (t.ledger.seen now).generated keys⟩ := by
  have hbelow : ∀ k, (k, Standing.oneTime) ∈ t.ledger.seen now →
      (t.store.afterOtpks S now draws).otpks[k.keyId]? = some k := by
    intro k hk
    have hlook : t.store.otpks[k.keyId]? = some k := h.stands_seen now _ hk
    rw [lookup_afterOtpks_of_lt (hkept.oneTimeBelow k (hkept.oneTimeHeld _ k hlook).2)]
    exact hlook
  obtain ⟨next, hstore⟩ := afterOtpks_eq S now draws t.store
  rw [hstore]
  refine (h.seen now).withOtpks ?_ ?_ ?_
  · intro e he hne
    rcases List.mem_append.mp he with he | he
    · obtain ⟨k, -, rfl⟩ := List.mem_map.mp he
      exact absurd rfl hne
    · exact he
  · intro k hk
    rcases List.mem_append.mp hk with hk | hk
    · obtain ⟨k', hk', heq⟩ := List.mem_map.mp hk
      obtain ⟨rfl, -⟩ := Prod.mk.inj heq
      exact lookup_afterOtpks_of_mem (hkeys _ hk')
    · exact hbelow k hk
  · intro e he _
    exact List.mem_append_right _ he

theorem Call.step_follows {S : Suite} {t : Tracked} {handed : List Handed}
    (hkept : Kept t.store handed) (h : Follows t) (c : Call) : Follows (c.step S t).1 := by
  cases c with
  | begin now draw =>
    rw [step]
    rcases beginSpkRotation_cases S now draw t.store with
      ⟨k, hk, hrun⟩ | ⟨hnone, -, hrun⟩ | ⟨e, hrun⟩
    · rw [hrun]
      exact h.again now hk
    · rw [hrun]
      exact h.begun hnone now _ _
    · rw [hrun]
      exact h.seen now
  | commit now =>
    rw [step]
    rcases commitSpkRotation_cases t.store now with ⟨-, hrun⟩ | ⟨pending, hpending, hrun⟩
    · rw [hrun]
      exact h.seen now
    · rw [hrun]
      exact h.committed hpending now
  | rollback => exact h.rolledBack
  | generateOtpks now draws =>
    rw [step]
    rcases generateOtpks_eq S now draws t.store with hrun | ⟨e, hrun⟩
    · rw [hrun]
      exact h.generated hkept now draws fun _ hk => hk
    · rw [hrun]
      exact h.generated (S := S) hkept now draws (List.forall_mem_nil _)
  | removeOtpk keyId =>
    refine h.burned (· == keyId) ?_
    intro id hid
    rw [Table.lookup_erase, if_neg (by simpa using hid)]
  | pruneOtpksBelow minKeepId =>
    refine h.burned (fun id => decide (id < minKeepId)) ?_
    intro id hid
    have hle : minKeepId ≤ id := UInt32.not_lt.mp (by simpa using hid)
    rw [Table.lookup_filter]
    cases t.store.otpks[id]? with
    | none => rfl
    | some k => simp [hle]
  | pruneRetired now => exact h.pruned now
  | reload now =>
    rw [step]
    rw [hkept.wellKept.fromCfe_toCfe now]
    exact h.pruned now

/-! ## The run -/

def Tracked.new : Tracked := ⟨default, []⟩

theorem run_kept {S : Suite} (hseed : ∀ draw, (S.mlkem1024Seed draw).length = mlkemSeedSize)
    (calls : List Call) :
    Kept (Machine.run (Call.step S) Tracked.new calls).store
        (Machine.log (Call.step S) Tracked.new calls) ∧
      Follows (Machine.run (Call.step S) Tracked.new calls) := by
  refine @Machine.log_rule _ _ _ (Call.step S) (fun _ _ => True)
    (fun t handed => Kept t.store handed ∧ Follows t) ?_ _ _
    (Machine.along_of_forall (fun _ _ => trivial) _ _) ?_
  · rintro t handed c - ⟨hkept, hfollows⟩
    exact ⟨Call.step_kept hseed hkept c, Call.step_follows hkept hfollows c⟩
  · refine ⟨Kept.default, ?_, ?_, ?_⟩
    · intro e he
      cases he
    · intro k hk
      cases hk
    · intro k hk
      cases hk

theorem find_of_stands {store : KyberPrekeyStore} {handed : List Handed} (hkept : Kept store handed)
    {k : KyberPrekey} {st : Standing} (h : Stands store k st) (huse : st.InUse) :
    store.find k.keyId = some k := by
  have hsigned : k ∈ store.signedPrekeys → store.find k.keyId = some k := by
    intro hk
    have hhanded := hkept.signedHeld k hk
    refine find_of_mem hk (UInt32.lt_of_lt_of_le (hkept.signedBelow k hhanded) hkept.signedRange) ?_
    intro k' hk' heq
    exact Handed.signed.inj (hkept.unique _ (hkept.signedHeld k' hk') _ hhanded heq)
  cases st with
  | pending => exact hsigned (mem_signedPrekeys.mpr (.inr (.inl h)))
  | current => exact hsigned (mem_signedPrekeys.mpr (.inl h))
  | retired since latest =>
    exact hsigned (mem_signedPrekeys.mpr (.inr (.inr ⟨_, h huse, rfl⟩)))
  | oneTime =>
    unfold find
    rw [if_pos (hkept.oneTimeRange k (hkept.oneTimeHeld _ k h).2)]
    exact h

theorem handed_of_find {store : KyberPrekeyStore} {handed : List Handed} (hkept : Kept store handed)
    {id : UInt32} {k : KyberPrekey} (h : store.find id = some k) :
    k.keyId = id ∧ ∃ a ∈ handed, a.prekey = k := by
  by_cases hid : kyberOtpkIdStart ≤ id
  · unfold find at h
    rw [if_pos hid] at h
    obtain ⟨hkey, hhanded⟩ := hkept.oneTimeHeld id k h
    exact ⟨hkey, _, hhanded, rfl⟩
  · obtain ⟨hk, hkey⟩ := mem_of_find (UInt32.not_le.mp hid) h
    exact ⟨hkey, _, hkept.signedHeld k hk, rfl⟩

/-- Over any sequence of calls and reloads: no id is handed out for two keys; signed prekeys and
one-time keys have ids of their own range; a key is found under its id as long as it is pending,
current, retired for less than the retention time, or a one-time key that was not given up; and
what is found under an id is the key handed out under it. -/
theorem ids_name_one_key {S : Suite}
    (hseed : ∀ draw, (S.mlkem1024Seed draw).length = mlkemSeedSize) (calls : List Call) :
    let t := Machine.run (Call.step S) Tracked.new calls
    let handed := Machine.log (Call.step S) Tracked.new calls
    (∀ a ∈ handed, ∀ b ∈ handed, a.prekey.keyId = b.prekey.keyId → a = b) ∧
    (∀ k, .signed k ∈ handed → k.keyId < kyberOtpkIdStart) ∧
    (∀ k, .oneTime k ∈ handed → kyberOtpkIdStart ≤ k.keyId) ∧
    (∀ k st, (k, st) ∈ t.ledger → st.InUse → t.store.find k.keyId = some k) ∧
    ∀ id k, t.store.find id = some k → k.keyId = id ∧ ∃ a ∈ handed, a.prekey = k := by
  obtain ⟨hkept, hfollows⟩ := run_kept hseed calls
  refine ⟨hkept.unique, ?_, hkept.oneTimeRange, ?_, ?_⟩
  · intro k hk
    exact UInt32.lt_of_lt_of_le (hkept.signedBelow k hk) hkept.signedRange
  · intro k st hmem huse
    exact find_of_stands hkept (hfollows.stands _ hmem) huse
  · intro id k hfind
    exact handed_of_find hkept hfind

def sampleCalls : List Call :=
  [.begin 10 1, .commit 10, .begin 20 2, .commit 20, .generateOtpks 25 [3, 4],
    .removeOtpk kyberOtpkIdStart, .reload 30]

/-- The first key of the sample is found while it is retired, and the one-time key that was not
burned. -/
theorem ids_name_one_key_sample :
    let t := Machine.run (Call.step symbolicSuite) Tracked.new sampleCalls
    t.store.find 1 = some (.generate symbolicSuite 1 10 1) ∧
      t.store.find 1000001 = some (.generate symbolicSuite 1000001 25 4) := by
  obtain ⟨-, -, -, hfound, -⟩ := ids_name_one_key (S := symbolicSuite)
    (fun draw => length_leBytes _ draw) sampleCalls
  have hretired : (10 : Nat) < spkRetentionAfterRotationSecs := by decide
  exact ⟨hfound (.generate symbolicSuite 1 10 1) (.retired 20 30) (by decide +kernel) hretired,
    hfound (.generate symbolicSuite 1000001 25 4) .oneTime (by decide +kernel) trivial⟩

end KyberPrekeyStore

end ConstructCore
