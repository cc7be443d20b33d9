import ConstructCore.Crypto.Suite
import ConstructCore.Lib.Table

/-!
# The Kyber prekeys of a device

`crypto/kyber_prekeys.rs`: the signed prekey with its two-phase rotation and its history, the
one-time pool, and the record both are saved in. The store has no clock: every operation that
needs one takes it as an argument.

A store whose seeds have their length and whose counters are ahead of its ids (`WellKept`) is
read back from its record as it was, but for the retired keys whose time has run out
(`fromCfe_toCfe`).
-/

theorem UInt32.max_of_le {a b : UInt32} (h : b ≤ a) : max a b = a := by
  show (if a ≤ b then b else a) = a
  split
  · rename_i hab
    exact UInt32.le_antisymm h hab
  · rfl

instance UInt32.instMaxEqOr : Std.MaxEqOr UInt32 where
  max_eq_or a b := by
    show (if a ≤ b then b else a) = a ∨ (if a ≤ b then b else a) = b
    split
    · exact .inr rfl
    · exact .inl rfl

namespace ConstructCore

open Bytes

def spkRetentionAfterRotationSecs : Nat := 14 * 24 * 3600

def kyberOtpkIdStart : UInt32 := 1000000

/-- `KyberPrekey`, and its record `CfeKyberPrekeyV1`, which has the same fields. -/
structure KyberPrekey where
  keyId : UInt32
  createdAt : Nat
  seed : Bytes
deriving DecidableEq, Repr

namespace KyberPrekey

def generate (S : Suite) (keyId : UInt32) (createdAt : Nat) (draw : Seed) : KyberPrekey where
  keyId
  createdAt
  seed := (S.mlkem1024Generate draw).1

def publicKey (S : Suite) (k : KyberPrekey) : Except MlKem1024Error Bytes :=
  S.mlkem1024PublicFromSeed k.seed

/-- `KyberPrekey::from_cfe`: a seed of another length is dropped. -/
def fromCfe (record : KyberPrekey) : Option KyberPrekey :=
  if record.seed.length = mlkemSeedSize then some record else none

theorem fromCfe_of_length {k : KyberPrekey} (h : k.seed.length = mlkemSeedSize) :
    k.fromCfe = some k := if_pos h

end KyberPrekey

structure RetiredSpk where
  prekey : KyberPrekey
  retiredAt : Nat
deriving DecidableEq, Repr

structure KyberPrekeyStore where
  spk : Option KyberPrekey
  pendingSpk : Option KyberPrekey
  retiredSpks : List RetiredSpk
  otpks : Table UInt32 KyberPrekey
  nextSpkId : UInt32
  nextOtpkId : UInt32

/-- `CfeKyberPrekeysV1`. -/
structure CfeKyberPrekeys where
  spk : Option KyberPrekey
  pendingSpk : Option KyberPrekey
  retiredSpks : List RetiredSpk
  otpks : List KyberPrekey
  nextSpkId : UInt32
  nextOtpkId : UInt32

namespace KyberPrekeyStore

def default : KyberPrekeyStore where
  spk := none
  pendingSpk := none
  retiredSpks := []
  otpks := ∅
  nextSpkId := 1
  nextOtpkId := kyberOtpkIdStart

/-! ## The signed prekey -/

/-- `begin_spk_rotation`: the pending key again, or a new one. -/
def beginSpkRotation (S : Suite) (now : Nat) (draw : Seed) :
    Op String KyberPrekeyStore KyberPrekey := do
  let store ← get
  match store.pendingSpk with
  | some pending => return pending
  | none =>
    if kyberOtpkIdStart ≤ store.nextSpkId then throw "Kyber SPK id range exhausted"
    else
      let prekey := KyberPrekey.generate S store.nextSpkId now draw
      set { store with nextSpkId := store.nextSpkId + 1, pendingSpk := some prekey }
      return prekey

def pruneRetired (store : KyberPrekeyStore) (now : Nat) : KyberPrekeyStore :=
  { store with
    retiredSpks := store.retiredSpks.filter fun r =>
      decide (now - r.retiredAt < spkRetentionAfterRotationSecs) }

/-- `commit_spk_rotation`: whether there was a pending key, and the store after it. -/
def commitSpkRotation (store : KyberPrekeyStore) (now : Nat) : Bool × KyberPrekeyStore :=
  match store.pendingSpk with
  | none => (false, store)
  | some pending =>
    let retired := store.spk.toList.map fun previous => { prekey := previous, retiredAt := now }
    let store := { store with
      spk := some pending
      pendingSpk := none
      retiredSpks := store.retiredSpks ++ retired }
    (true, store.pruneRetired now)

def rollbackSpkRotation (store : KyberPrekeyStore) : KyberPrekeyStore :=
  { store with pendingSpk := none }

/-! ## One-time prekeys -/

/-- One round of `generate_otpks`. -/
def addOtpk (S : Suite) (now : Nat) (draw : Seed) (next : UInt32) (store : KyberPrekeyStore) :
    KyberPrekeyStore :=
  { store with
    nextOtpkId := next
    otpks := store.otpks.insert store.nextOtpkId
      (KyberPrekey.generate S store.nextOtpkId now draw) }

/-- `generate_otpks`: one key for each draw, until the ids run out. A batch that fails keeps the
keys it made. -/
def generateOtpks (S : Suite) (now : Nat) :
    List Seed → Op String KyberPrekeyStore (List KyberPrekey)
  | [] => pure []
  | draw :: draws => do
      let store ← get
      match store.nextOtpkId.checkedSucc with
      | none => throw "Kyber OTPK id range exhausted"
      | some next =>
        set (addOtpk S now draw next store)
        let out ← generateOtpks S now draws
        return KyberPrekey.generate S store.nextOtpkId now draw :: out

def madeOtpks (S : Suite) (now : Nat) : List Seed → KyberPrekeyStore → List KyberPrekey
  | [], _ => []
  | draw :: draws, store =>
    match store.nextOtpkId.checkedSucc with
    | none => []
    | some next => KyberPrekey.generate S store.nextOtpkId now draw ::
        madeOtpks S now draws (addOtpk S now draw next store)

def afterOtpks (S : Suite) (now : Nat) : List Seed → KyberPrekeyStore → KyberPrekeyStore
  | [], store => store
  | draw :: draws, store =>
    match store.nextOtpkId.checkedSucc with
    | none => store
    | some next => afterOtpks S now draws (addOtpk S now draw next store)

/-- A batch leaves its keys in the store, and returns them unless it fails. -/
theorem generateOtpks_eq (S : Suite) (now : Nat) (draws : List Seed) (store : KyberPrekeyStore) :
    generateOtpks S now draws store =
        .ok (madeOtpks S now draws store) (afterOtpks S now draws store) ∨
      ∃ e, generateOtpks S now draws store = .error e (afterOtpks S now draws store) := by
  induction draws generalizing store with
  | nil => exact .inl rfl
  | cons draw draws ih =>
    have hget : (get : Op String KyberPrekeyStore _) store = .ok store store := rfl
    rw [madeOtpks, afterOtpks]
    cases hnext : store.nextOtpkId.checkedSucc with
    | none =>
      refine .inr ⟨"Kyber OTPK id range exhausted", ?_⟩
      rw [generateOtpks, Op.bind_run, hget]
      dsimp only
      rw [hnext]
      rfl
    | some next =>
      have hrest : generateOtpks S now (draw :: draws) store =
          (generateOtpks S now draws >>= fun out => pure
            (KyberPrekey.generate S store.nextOtpkId now draw :: out))
            (addOtpk S now draw next store) := by
        rw [generateOtpks, Op.bind_run, hget]
        dsimp only
        rw [hnext]
        rfl
      rw [hrest, Op.bind_run]
      rcases ih (addOtpk S now draw next store) with hok | ⟨e, herror⟩
      · rw [hok]
        exact .inl rfl
      · rw [herror]
        exact .inr ⟨e, rfl⟩

def pruneOtpksBelow (store : KyberPrekeyStore) (minKeepId : UInt32) : KyberPrekeyStore :=
  { store with otpks := store.otpks.filter fun id _ => decide (minKeepId ≤ id) }

def removeOtpk (store : KyberPrekeyStore) (keyId : UInt32) : KyberPrekeyStore :=
  { store with otpks := store.otpks.erase keyId }

/-! ## Lookup -/

/-- The signed prekeys held: the current one, the pending one and the retired ones. -/
def signedPrekeys (store : KyberPrekeyStore) : List KyberPrekey :=
  store.spk.toList ++ store.pendingSpk.toList ++ store.retiredSpks.map (·.prekey)

/-- `find`: a one-time key, or the current, the pending or a retired signed prekey. -/
def find (store : KyberPrekeyStore) (keyId : UInt32) : Option KyberPrekey :=
  if kyberOtpkIdStart ≤ keyId then store.otpks[keyId]?
  else store.signedPrekeys.find? fun k => k.keyId == keyId

variable {store : KyberPrekeyStore} {k : KyberPrekey}

/-- A held signed prekey is found under its id, if no other held one has that id. -/
theorem find_of_mem (hk : k ∈ store.signedPrekeys) (hid : k.keyId < kyberOtpkIdStart)
    (hsame : ∀ k' ∈ store.signedPrekeys, k'.keyId = k.keyId → k' = k) :
    store.find k.keyId = some k := by
  unfold find
  rw [if_neg (UInt32.not_le.mpr hid)]
  cases hfind : store.signedPrekeys.find? fun k' => k'.keyId == k.keyId with
  | none =>
    have hne := List.find?_eq_none.mp hfind k hk
    simp at hne
  | some k' =>
    have heq : k'.keyId = k.keyId := by simpa using List.find?_some hfind
    rw [hsame k' (List.mem_of_find?_eq_some hfind) heq]

theorem mem_of_find {id : UInt32} (hid : id < kyberOtpkIdStart) (h : store.find id = some k) :
    k ∈ store.signedPrekeys ∧ k.keyId = id := by
  unfold find at h
  rw [if_neg (UInt32.not_le.mpr hid)] at h
  exact ⟨List.mem_of_find?_eq_some h, by simpa using List.find?_some h⟩

/-! ## Persistence -/

def toCfe (store : KyberPrekeyStore) : CfeKyberPrekeys where
  spk := store.spk
  pendingSpk := store.pendingSpk
  retiredSpks := store.retiredSpks
  otpks := store.otpks.toList.map (·.2)
  nextSpkId := store.nextSpkId
  nextOtpkId := store.nextOtpkId

def raiseCounters (store : KyberPrekeyStore) : KyberPrekeyStore :=
  { store with
    nextSpkId := match (store.signedPrekeys.map (·.keyId)).max? with
      | some id => max store.nextSpkId (id + 1)
      | none => store.nextSpkId
    nextOtpkId := match store.otpks.maxKey? with
      | some id => max store.nextOtpkId (id.satAdd 1)
      | none => store.nextOtpkId }

def fromCfe (record : CfeKyberPrekeys) (now : Nat) : KyberPrekeyStore :=
  let store : KyberPrekeyStore := {
    spk := record.spk.bind KyberPrekey.fromCfe
    pendingSpk := record.pendingSpk.bind KyberPrekey.fromCfe
    retiredSpks := record.retiredSpks.filterMap fun r =>
      r.prekey.fromCfe.map fun prekey => { prekey, retiredAt := r.retiredAt }
    otpks := .ofList ((record.otpks.filterMap KyberPrekey.fromCfe).map fun k => (k.keyId, k))
    nextSpkId := max record.nextSpkId 1
    nextOtpkId := max record.nextOtpkId kyberOtpkIdStart }
  store.raiseCounters.pruneRetired now

/-- Seeds of the right length, one-time keys under their own ids, and counters ahead of every id
held. -/
structure WellKept (store : KyberPrekeyStore) : Prop where
  signedSeed : ∀ k ∈ store.signedPrekeys, k.seed.length = mlkemSeedSize
  oneTimeSeed : ∀ (id : UInt32) k, store.otpks[id]? = some k → k.seed.length = mlkemSeedSize
  oneTimeId : ∀ (id : UInt32) k, store.otpks[id]? = some k → k.keyId = id
  signedBelow : ∀ k ∈ store.signedPrekeys, k.keyId < store.nextSpkId
  oneTimeBelow : ∀ id ∈ store.otpks, id < store.nextOtpkId
  signedCounter : 0 < store.nextSpkId
  oneTimeCounter : kyberOtpkIdStart ≤ store.nextOtpkId

theorem mem_signedPrekeys :
    k ∈ store.signedPrekeys ↔ store.spk = some k ∨ store.pendingSpk = some k ∨
      ∃ r ∈ store.retiredSpks, r.prekey = k := by
  unfold signedPrekeys
  rw [List.mem_append, List.mem_append, Option.mem_toList, Option.mem_toList, List.mem_map, or_assoc]

theorem bind_fromCfe {o : Option KyberPrekey}
    (h : ∀ k, o = some k → k.seed.length = mlkemSeedSize) : o.bind KyberPrekey.fromCfe = o := by
  cases o with
  | none => rfl
  | some k => exact KyberPrekey.fromCfe_of_length (h k rfl)

namespace WellKept

variable {store : KyberPrekeyStore}

theorem retiredSpks_fromCfe (h : WellKept store) :
    (store.retiredSpks.filterMap fun r =>
      r.prekey.fromCfe.map fun prekey => ({ prekey, retiredAt := r.retiredAt } : RetiredSpk)) =
      store.retiredSpks := by
  rw [List.filterMap_congr (g := some), List.filterMap_some]
  intro r hr
  rw [KyberPrekey.fromCfe_of_length
    (h.signedSeed _ (mem_signedPrekeys.mpr (.inr (.inr ⟨r, hr, rfl⟩))))]
  rfl

theorem otpks_fromCfe (h : WellKept store) :
    (Std.ExtTreeMap.ofList ((store.toCfe.otpks.filterMap KyberPrekey.fromCfe).map
      fun k => (k.keyId, k)) : Table UInt32 KyberPrekey) = store.otpks := by
  have hkeep : (store.toCfe.otpks.filterMap KyberPrekey.fromCfe).map (fun k => (k.keyId, k)) =
      store.otpks.toList := by
    unfold toCfe
    rw [List.filterMap_map, List.map_filterMap, List.filterMap_congr (g := some),
      List.filterMap_some]
    intro p hp
    have hlook := Std.ExtTreeMap.mem_toList_iff_getElem?_eq_some.mp hp
    have hseed := KyberPrekey.fromCfe_of_length (h.oneTimeSeed _ _ hlook)
    simp [hseed, h.oneTimeId _ _ hlook]
  rw [hkeep, Table.ofList_toList]

theorem raiseCounters_eq (h : WellKept store) : store.raiseCounters = store := by
  have hsigned : (match (store.signedPrekeys.map (·.keyId)).max? with
      | some id => max store.nextSpkId (id + 1)
      | none => store.nextSpkId) = store.nextSpkId := by
    cases hmax : (store.signedPrekeys.map (·.keyId)).max? with
    | none => rfl
    | some id =>
      obtain ⟨k, hk, rfl⟩ := List.mem_map.mp (List.max?_mem hmax)
      have hlt := h.signedBelow k hk
      have hnext := store.nextSpkId.toNat_lt
      rw [UInt32.lt_iff_toNat_lt] at hlt
      refine UInt32.max_of_le ?_
      rw [UInt32.le_iff_toNat_le, UInt32.toNat_add, UInt32.toNat_one]
      omega
  have honeTime : (match store.otpks.maxKey? with
      | some id => max store.nextOtpkId (id.satAdd 1)
      | none => store.nextOtpkId) = store.nextOtpkId := by
    cases hmax : store.otpks.maxKey? with
    | none => rfl
    | some id =>
      have hlt := h.oneTimeBelow id (Std.ExtTreeMap.maxKey?_mem hmax)
      have hnext := store.nextOtpkId.toNat_lt
      rw [UInt32.lt_iff_toNat_lt] at hlt
      refine UInt32.max_of_le ?_
      rw [UInt32.le_iff_toNat_le, UInt32.toNat_satAdd, UInt32.toNat_one]
      omega
  unfold raiseCounters
  rw [hsigned, honeTime]

/-- A well-kept store is read back as it was, but for the retired keys whose time has run out. -/
theorem fromCfe_toCfe (h : WellKept store) (now : Nat) :
    fromCfe store.toCfe now = store.pruneRetired now := by
  have hspk : store.spk.bind KyberPrekey.fromCfe = store.spk :=
    bind_fromCfe fun k hk => h.signedSeed k (mem_signedPrekeys.mpr (.inl hk))
  have hpending : store.pendingSpk.bind KyberPrekey.fromCfe = store.pendingSpk :=
    bind_fromCfe fun k hk => h.signedSeed k (mem_signedPrekeys.mpr (.inr (.inl hk)))
  have hsigned : max store.nextSpkId 1 = store.nextSpkId := by
    have hpos := h.signedCounter
    refine UInt32.max_of_le ?_
    rw [UInt32.lt_iff_toNat_lt] at hpos
    rw [UInt32.le_iff_toNat_le, UInt32.toNat_one]
    exact hpos
  have honeTime : max store.nextOtpkId kyberOtpkIdStart = store.nextOtpkId :=
    UInt32.max_of_le h.oneTimeCounter
  unfold fromCfe
  rw [h.otpks_fromCfe]
  unfold toCfe
  dsimp only
  rw [hspk, hpending, h.retiredSpks_fromCfe, hsigned, honeTime]
  exact congrArg (pruneRetired · now) h.raiseCounters_eq

end WellKept

end KyberPrekeyStore

end ConstructCore
