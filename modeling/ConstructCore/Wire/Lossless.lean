import ConstructCore.Wire.Payload

/-!
# The wire codec is lossless

Every part of `unpack` returns a value exactly when the data starts with what `pack_message`
writes for it: the key index (`readLeb128_eq_ok`), the objects (`kemIdentityObject_eq_ok`),
the PQ section (`unpackPqSection_eq_ok`), the flags (`wireSuiteId_flags`). `unpack_eq_ok_iff`
puts the parts together, and both directions of the round trip are read off it.
-/

namespace ConstructCore

open Bytes

namespace Wire

variable {total : Nat} {b rest : Bytes}

/-! ## LEB128 -/

theorem toUInt8_group (value : UInt32) :
    (value &&& 0x7f).toUInt8 = UInt8.ofNat (value.toNat % 128) := by
  apply UInt8.toNat_inj.mp
  rw [UInt32.toNat_toUInt8, UInt32.toNat_and, UInt8.toNat_ofNat']
  exact congrArg (· % 256) (Nat.and_two_pow_sub_one_eq_mod value.toNat 7)

theorem shiftRight_seven (value : UInt32) : value >>> 7 = UInt32.ofNat (value.toNat / 128) := by
  apply UInt32.toNat_inj.mp
  have hlt := value.toNat_lt
  have hseven : (7 : UInt32).toNat % 32 = 7 := by decide
  rw [UInt32.toNat_shiftRight, hseven, Nat.shiftRight_eq_div_pow, UInt32.toNat_ofNat',
    Nat.mod_eq_of_lt (show value.toNat / 128 < 2 ^ 32 by omega)]

variable {n i : Nat} {value acc v epoch : UInt32} {x : WireFields} {p data : Bytes}
  {field : Option PqRatchetWireField} {suiteId : UInt16} {d : DecodedWirePayload}

theorem setHigh_group (h : n < 128) :
    UInt8.ofNat n ||| 0x80 = UInt8.ofNat (n + 128) := by
  revert n
  decide

theorem writeLeb128_of_lt (h : value.toNat < 128) :
    writeLeb128 value = [UInt8.ofNat value.toNat] := by
  rw [writeLeb128, shiftRight_seven, Nat.div_eq_of_lt h, toUInt8_group, Nat.mod_eq_of_lt h]
  rfl

theorem writeLeb128_of_ge (h : 128 ≤ value.toNat) :
    writeLeb128 value = UInt8.ofNat (value.toNat % 128 + 128) ::
      writeLeb128 (UInt32.ofNat (value.toNat / 128)) := by
  have hlt := value.toNat_lt
  have hne : ¬ UInt32.ofNat (value.toNat / 128) = 0 := by
    intro hzero
    have := congrArg UInt32.toNat hzero
    rw [UInt32.toNat_ofNat', UInt32.toNat_zero] at this
    omega
  rw [writeLeb128, toUInt8_group, setHigh_group (Nat.mod_lt _ (by decide)), shiftRight_seven,
    dif_neg hne]

theorem writeLeb128_cons {w : UInt32} {group : Nat} (h : value.toNat = group + 128 * w.toNat)
    (hgroup : group < 128) (hw : w.toNat ≠ 0) :
    writeLeb128 value = UInt8.ofNat (group + 128) :: writeLeb128 w := by
  have hlow : value.toNat % 128 = group := by omega
  have hrest : value.toNat / 128 = w.toNat := by omega
  rw [writeLeb128_of_ge (by omega), hlow, hrest, UInt32.ofNat_toNat]

theorem byte_group (x : UInt8) : (x &&& 0x7f).toUInt32.toNat = x.toNat % 128 := by
  rw [UInt8.toNat_toUInt32, UInt8.toNat_and]
  exact Nat.and_two_pow_sub_one_eq_mod x.toNat 7

theorem byte_high (x : UInt8) : x &&& 0x80 = 0 ↔ x.toNat < 128 := by
  have hall : ∀ n < 256, n &&& 128 = 0 ↔ n < 128 := by decide +kernel
  rw [← UInt8.toNat_inj, UInt8.toNat_and]
  exact hall x.toNat x.toNat_lt

theorem or_shift_group {group : UInt32} (hi : i ≤ 4) (hacc : acc.toNat < 2 ^ (7 * i))
    (hgroup : group.toNat * 2 ^ (7 * i) < 2 ^ 32) :
    (acc ||| group <<< UInt32.ofNat (7 * i)).toNat = acc.toNat + 2 ^ (7 * i) * group.toNat := by
  have hshift : (UInt32.ofNat (7 * i)).toNat % 32 = 7 * i := by
    rw [UInt32.toNat_ofNat']
    omega
  rw [UInt32.toNat_or, UInt32.toNat_shiftLeft, hshift, Nat.shiftLeft_eq,
    Nat.mod_eq_of_lt hgroup, Nat.mul_comm, Nat.or_comm,
    ← Nat.two_pow_add_eq_or_of_lt hacc, Nat.add_comm]

theorem group_fits_iff {x : UInt8} (hi : i ≤ 4) :
    ¬ (i = 4 ∧ (x &&& 0x7f).toUInt32 > 0x0f) ↔ x.toNat % 128 * 2 ^ (7 * i) < 2 ^ 32 := by
  have hlast : (x &&& 0x7f).toUInt32 > 0x0f ↔ 15 < x.toNat % 128 := by
    rw [← byte_group, gt_iff_lt, UInt32.lt_iff_toNat_lt]
    rfl
  rw [hlast]
  have hgroup : x.toNat % 128 < 128 := Nat.mod_lt _ (by decide)
  interval_cases i <;> omega

/-- The rounds from `i` on read what `write_leb128` writes for the bits from `7 * i` on. -/
theorem readLeb128From_eq_ok {left : Nat} (hleft : i + left = 5) (hacc : acc.toNat < 2 ^ (7 * i)) :
    readLeb128From total left i acc b = .ok v rest ↔
      ∃ w : UInt32, b = writeLeb128 w ++ rest ∧ (0 < i → w ≠ 0) ∧
        v.toNat = acc.toNat + 2 ^ (7 * i) * w.toNat := by
  have hv := v.toNat_lt
  induction left generalizing i acc b with
  | zero =>
    obtain rfl : i = 5 := hleft
    refine ⟨fun h => absurd h Op.throw_ne_ok, fun ⟨w, _, hw, hsum⟩ => ?_⟩
    have hpos : w.toNat ≠ 0 := fun hzero => hw (by decide) (UInt32.toNat_inj.mp hzero)
    omega
  | succ left ih =>
    have hi : i ≤ 4 := by omega
    have hpow : 2 ^ (7 * (i + 1)) = 2 ^ (7 * i) * 128 := by rw [Nat.mul_succ, Nat.pow_add]
    -- what a round adds, and that the next one starts above it
    have hround : ∀ x : UInt8, x.toNat % 128 * 2 ^ (7 * i) < 2 ^ 32 →
        (acc ||| (x &&& 0x7f).toUInt32 <<< UInt32.ofNat (7 * i)).toNat =
          acc.toNat + 2 ^ (7 * i) * (x.toNat % 128) := by
      intro x hfits
      rw [or_shift_group hi hacc (by rwa [byte_group]), byte_group]
    have hbound : ∀ g < 128, acc.toNat + 2 ^ (7 * i) * g < 2 ^ (7 * (i + 1)) := by
      intro g hg
      have := Nat.mul_le_mul_left (2 ^ (7 * i)) (Nat.le_of_lt_succ hg)
      omega
    show (Reader.u8 _ >>= _) b = _ ↔ _
    rw [Op.bind_eq_ok]
    constructor
    · rintro ⟨x, tail, hx, hrun⟩
      obtain rfl := Reader.u8_eq_ok.mp hx
      obtain ⟨-, hrun⟩ | ⟨hfits, hrun⟩ := Op.ite_eq_ok.mp hrun
      · exact absurd hrun Op.throw_ne_ok
      have hacc' := hround x ((group_fits_iff hi).mp hfits)
      obtain ⟨hlow, hrun⟩ | ⟨hhigh, hrun⟩ := Op.ite_eq_ok.mp hrun
      · -- the last byte
        have hx := (byte_high x).mp hlow
        obtain ⟨-, hrun⟩ | ⟨hcanonical, hrun⟩ := Op.ite_eq_ok.mp hrun
        · exact absurd hrun Op.throw_ne_ok
        obtain ⟨rfl, rfl⟩ := Op.pure_eq_ok.mp hrun
        refine ⟨x.toUInt32, ?_, fun hpos hzero => hcanonical ⟨hpos, ?_⟩, ?_⟩
        · rw [writeLeb128_of_lt (by rwa [UInt8.toNat_toUInt32]), UInt8.toNat_toUInt32,
            UInt8.ofNat_toNat]
          rfl
        · exact UInt8.toNat_inj.mp (by rw [← UInt8.toNat_toUInt32, hzero]; rfl)
        · rw [hacc', UInt8.toNat_toUInt32, Nat.mod_eq_of_lt hx]
      · -- more bytes follow
        have hx : ¬ x.toNat < 128 := fun h => hhigh ((byte_high x).mpr h)
        have hlt := x.toNat_lt
        obtain ⟨w, rfl, hw, hsum⟩ := (ih (by omega) (by
          rw [hacc']; exact hbound _ (Nat.mod_lt _ (by decide)))).mp hrun
        have hsum' : v.toNat = acc.toNat + 2 ^ (7 * i) * (x.toNat % 128 + 128 * w.toNat) := by
          rw [hsum, hacc', hpow, Nat.mul_add, Nat.mul_assoc, Nat.add_assoc]
        have hpos : w.toNat ≠ 0 := fun hzero => hw (by omega) (UInt32.toNat_inj.mp hzero)
        have hsmall : x.toNat % 128 + 128 * w.toNat < 2 ^ 32 := by
          have := Nat.le_mul_of_pos_left (x.toNat % 128 + 128 * w.toNat)
            (Nat.two_pow_pos (7 * i))
          omega
        have hwide : (UInt32.ofNat (x.toNat % 128 + 128 * w.toNat)).toNat =
            x.toNat % 128 + 128 * w.toNat := by
          rw [UInt32.toNat_ofNat', Nat.mod_eq_of_lt hsmall]
        refine ⟨UInt32.ofNat (x.toNat % 128 + 128 * w.toNat), ?_, fun _ hzero => ?_, ?_⟩
        · have hhead : UInt8.ofNat (x.toNat % 128 + 128) = x := by
            apply UInt8.toNat_inj.mp
            rw [UInt8.toNat_ofNat']
            omega
          rw [writeLeb128_cons hwide (Nat.mod_lt _ (by decide)) hpos, hhead]
          rfl
        · rw [hzero, UInt32.toNat_zero] at hwide
          omega
        · rw [hwide, hsum']
    · rintro ⟨w, rfl, hw, hsum⟩
      by_cases hlast : w.toNat < 128
      · have hbyte : (UInt8.ofNat w.toNat).toNat = w.toNat := by
          rw [UInt8.toNat_ofNat']
          omega
        have hgroup : (UInt8.ofNat w.toNat).toNat % 128 = w.toNat := by omega
        have hfits : (UInt8.ofNat w.toNat).toNat % 128 * 2 ^ (7 * i) < 2 ^ 32 := by
          rw [hgroup, Nat.mul_comm]
          omega
        refine ⟨UInt8.ofNat w.toNat, rest, ?_, ?_⟩
        · rw [writeLeb128_of_lt hlast]
          exact Reader.u8_eq_ok.mpr rfl
        refine Op.ite_eq_ok.mpr (.inr ⟨(group_fits_iff hi).mpr hfits, ?_⟩)
        refine Op.ite_eq_ok.mpr (.inl ⟨(byte_high _).mpr (by omega), ?_⟩)
        refine Op.ite_eq_ok.mpr (.inr ⟨fun ⟨hpos, hzero⟩ => hw hpos ?_, ?_⟩)
        · rw [hzero] at hbyte
          exact UInt32.toNat_inj.mp hbyte.symm
        · refine Op.pure_eq_ok.mpr ⟨UInt32.toNat_inj.mp ?_, rfl⟩
          rw [hround _ hfits, hgroup, hsum]
      · have hlt := w.toNat_lt
        have hbyte : (UInt8.ofNat (w.toNat % 128 + 128)).toNat = w.toNat % 128 + 128 := by
          rw [UInt8.toNat_ofNat']
          omega
        have hgroup : (UInt8.ofNat (w.toNat % 128 + 128)).toNat % 128 = w.toNat % 128 := by omega
        have hparts : 2 ^ (7 * i) * w.toNat =
            2 ^ (7 * i) * (w.toNat % 128) + 2 ^ (7 * (i + 1)) * (w.toNat / 128) := by
          rw [hpow, Nat.mul_assoc, ← Nat.mul_add, Nat.mod_add_div]
        have hfits : (UInt8.ofNat (w.toNat % 128 + 128)).toNat % 128 * 2 ^ (7 * i) < 2 ^ 32 := by
          rw [hgroup, Nat.mul_comm]
          omega
        have hrest : (UInt32.ofNat (w.toNat / 128)).toNat = w.toNat / 128 := by
          rw [UInt32.toNat_ofNat']
          omega
        refine ⟨UInt8.ofNat (w.toNat % 128 + 128),
          writeLeb128 (UInt32.ofNat (w.toNat / 128)) ++ rest, ?_, ?_⟩
        · rw [writeLeb128_of_ge (by omega)]
          exact Reader.u8_eq_ok.mpr rfl
        refine Op.ite_eq_ok.mpr (.inr ⟨(group_fits_iff hi).mpr hfits, ?_⟩)
        refine Op.ite_eq_ok.mpr (.inr ⟨fun hlow => ?_, ?_⟩)
        · have := (byte_high _).mp hlow
          omega
        refine (ih (by omega) ?_).mpr ⟨_, rfl, fun _ hzero => ?_, ?_⟩
        · rw [hround _ hfits, hgroup]
          exact hbound _ (Nat.mod_lt _ (by decide))
        · rw [hzero, UInt32.toNat_zero] at hrest
          omega
        · rw [hround _ hfits, hgroup, hrest, hsum, hparts, Nat.add_assoc]

theorem readLeb128_eq_ok :
    readLeb128 total b = .ok v rest ↔ b = writeLeb128 v ++ rest := by
  unfold readLeb128
  rw [readLeb128From_eq_ok rfl (by decide)]
  constructor
  · rintro ⟨w, hb, -, hv⟩
    have hvw : v = w := by
      apply UInt32.toNat_inj.mp
      rw [hv]
      simp
    rw [hvw]
    exact hb
  · intro hb
    refine ⟨v, hb, fun h => absurd h (by decide), ?_⟩
    simp

/-! ## Objects and the PQ section -/

theorem kemIdentityObject_eq_ok {present : Bool} {object : Option Bytes} :
    kemIdentityObject total present b = .ok object rest ↔
      object.isSome = present ∧ (∀ x ∈ object, x.length = kemIdentityObjectSize) ∧
        b = packObject object ++ rest := by
  unfold kemIdentityObject
  cases present with
  | false =>
    show (pure none : Op _ _ _) b = _ ↔ _
    rw [Op.pure_eq_ok]
    constructor
    · rintro ⟨rfl, rfl⟩
      exact ⟨rfl, fun x hx => (nomatch hx), rfl⟩
    · rintro ⟨hnone, -, rfl⟩
      rw [Option.isSome_eq_false_iff, Option.isNone_iff_eq_none] at hnone
      subst hnone
      exact ⟨rfl, rfl⟩
  | true =>
    show (Reader.u16 _ >>= _) b = _ ↔ _
    simp only [Op.bind_eq_ok, Reader.u16_eq_ok, Op.ite_eq_ok, Op.throw_ne_ok, and_false, false_or,
      not_not, Reader.take_eq_ok, Op.pure_eq_ok]
    constructor
    · rintro ⟨len, t, rfl, hsize, x, u, ⟨hlen, rfl⟩, rfl, rfl⟩
      refine ⟨rfl, fun y hy => ?_, ?_⟩
      · obtain rfl := Option.some.inj hy
        exact hlen.trans hsize
      · show _ = Reader.prefixed x ++ u
        rw [Reader.prefixed, hlen, UInt16.ofNat_toNat, List.append_assoc]
    · rintro ⟨hsome, hsize, rfl⟩
      obtain ⟨x, rfl⟩ := Option.isSome_iff_exists.mp hsome
      have hx := hsize x rfl
      have hlen : (UInt16.ofNat x.length).toNat = x.length := by rw [hx]; rfl
      exact ⟨UInt16.ofNat x.length, x ++ rest, List.append_assoc _ _ _, hlen.trans hx, x, rest,
        ⟨hlen.symm, rfl⟩, rfl, rfl⟩

theorem packPqField_publicKey {key : Bytes} :
    packPqField (some (.publicKey epoch key)) = .ok p ↔
      key.length ≤ u16Max ∧ 1 :: (u32ToLe epoch ++ Reader.prefixed key) = p := by
  show (if key.length > u16Max then _ else _) = _ ↔ _
  split <;> simp_all

theorem packPqField_ciphertext {ekHash : Vector UInt8 8} {ct : Bytes} :
    packPqField (some (.ciphertext epoch ekHash ct)) = .ok p ↔
      ct.length ≤ u16Max ∧ 2 :: (u32ToLe epoch ++ (ekHash.toList ++ Reader.prefixed ct)) = p := by
  show (if ct.length > u16Max then _ else _) = _ ↔ _
  split <;> simp_all

theorem unpackPqField_eq_ok :
    unpackPqField total b = .ok field rest ↔
      ∃ p, packPqField field = .ok p ∧ b = p ++ rest := by
  unfold unpackPqField
  rw [Op.bind_eq_ok]
  constructor
  · rintro ⟨typ, tail, htyp, hrun⟩
    obtain rfl := Reader.u8_eq_ok.mp htyp
    obtain ⟨rfl, hread⟩ | ⟨-, hrun⟩ := Op.ite_eq_ok.mp hrun
    · obtain ⟨rfl, rfl⟩ := Op.pure_eq_ok.mp hread
      exact ⟨[0], rfl, rfl⟩
    obtain ⟨rfl, hread⟩ | ⟨-, hrun⟩ := Op.ite_eq_ok.mp hrun
    · simp only [Op.bind_eq_ok, Reader.u32_eq_ok, Reader.lengthPrefixed_eq_ok,
        Op.pure_eq_ok] at hread
      obtain ⟨epoch, _, rfl, key, _, ⟨hfits, rfl⟩, rfl, rfl⟩ := hread
      refine ⟨_, packPqField_publicKey.mpr ⟨hfits, rfl⟩, ?_⟩
      simp
    obtain ⟨rfl, hread⟩ | ⟨-, hrun⟩ := Op.ite_eq_ok.mp hrun
    · simp only [Op.bind_eq_ok, Reader.u32_eq_ok, Reader.vector_eq_ok, Reader.lengthPrefixed_eq_ok,
        Op.pure_eq_ok] at hread
      obtain ⟨epoch, _, rfl, ekHash, _, rfl, ct, _, ⟨hfits, rfl⟩, rfl, rfl⟩ := hread
      refine ⟨_, packPqField_ciphertext.mpr ⟨hfits, rfl⟩, ?_⟩
      simp
    · exact absurd hrun Op.throw_ne_ok
  · rintro ⟨p, hp, rfl⟩
    rcases field with _ | ⟨epoch, key⟩ | ⟨epoch, ekHash, ct⟩
    · cases hp
      exact ⟨0, rest, rfl, rfl⟩
    · obtain ⟨hfits, rfl⟩ := packPqField_publicKey.mp hp
      refine ⟨1, u32ToLe epoch ++ (Reader.prefixed key ++ rest), by simp [Reader.u8], ?_⟩
      refine Op.ite_eq_ok.mpr (.inr ⟨by decide, Op.ite_eq_ok.mpr (.inl ⟨rfl, ?_⟩)⟩)
      simp only [Op.bind_eq_ok, Reader.u32_eq_ok, Reader.lengthPrefixed_eq_ok, Op.pure_eq_ok]
      exact ⟨epoch, _, rfl, key, rest, ⟨hfits, rfl⟩, rfl, rfl⟩
    · obtain ⟨hfits, rfl⟩ := packPqField_ciphertext.mp hp
      refine ⟨2, u32ToLe epoch ++ (ekHash.toList ++ (Reader.prefixed ct ++ rest)),
        by simp [Reader.u8], ?_⟩
      refine Op.ite_eq_ok.mpr (.inr ⟨by decide, Op.ite_eq_ok.mpr (.inr ⟨by decide,
        Op.ite_eq_ok.mpr (.inl ⟨rfl, ?_⟩)⟩)⟩)
      simp only [Op.bind_eq_ok, Reader.u32_eq_ok, Reader.vector_eq_ok,
        Reader.lengthPrefixed_eq_ok, Op.pure_eq_ok]
      exact ⟨epoch, _, rfl, ekHash, _, rfl, ct, rest, ⟨hfits, rfl⟩, rfl, rfl⟩

def CanonicalSection (suiteId : UInt16) (epoch index : UInt32) (field : Option PqRatchetWireField) :
    Prop :=
  if suiteId = pqRatchetSuite then epoch = 0 → index = 0
  else epoch = 0 ∧ index = 0 ∧ field = none

theorem unpackPqSection_eq_ok {index : UInt32} :
    unpackPqSection total suiteId b = .ok (epoch, index, field) rest ↔
      CanonicalSection suiteId epoch index field ∧
        ∃ p, packPqSection suiteId epoch index field = .ok p ∧ b = p ++ rest := by
  unfold unpackPqSection packPqSection CanonicalSection
  split
  case isTrue hsuite =>
    simp only [Op.bind_eq_ok, Reader.u32_eq_ok, readLeb128_eq_ok, Op.ite_eq_ok, Op.throw_ne_ok,
      and_false, false_or, unpackPqField_eq_ok, Op.pure_eq_ok]
    constructor
    · rintro ⟨e, _, rfl, i, _, rfl, hcanonical, f, _, ⟨p, hp, rfl⟩, heq, rfl⟩
      cases heq
      refine ⟨fun hzero => by_contra fun hne => hcanonical ⟨hzero, hne⟩,
        u32ToLe epoch ++ writeLeb128 index ++ p, ?_, by simp only [List.append_assoc]⟩
      rw [Except.bind_of_ok hp]
      rfl
    · rintro ⟨hcanonical, p, hp, rfl⟩
      obtain ⟨q, hq, hp⟩ := Except.exists_of_bind_ok hp
      cases hp
      exact ⟨epoch, _, by simp only [List.append_assoc], index, q ++ rest, rfl,
        fun hne => hne.2 (hcanonical hne.1), field, rest, ⟨q, hq, rfl⟩, rfl, rfl⟩
  case isFalse hsuite =>
    rw [Op.pure_eq_ok]
    constructor
    · rintro ⟨heq, rfl⟩
      cases heq
      exact ⟨⟨rfl, rfl, rfl⟩, [], rfl, rfl⟩
    · rintro ⟨⟨rfl, rfl, rfl⟩, p, hp, rfl⟩
      cases hp
      exact ⟨rfl, rfl⟩

/-! ## The flags -/

def presentFlags (adV4 pqxdh kemIdentity proof : Bool) : UInt16 :=
  (if adV4 then adV4Flag else 0) ||| (if pqxdh then pqxdhV2Flag else 0) |||
    (if kemIdentity then kemIdentityFlag else 0) ||| (if proof then identityProofFlag else 0)

theorem wireSuiteId_eq_or (suiteId : UInt16) (adV4 pqxdh kemIdentity proof : Bool) :
    wireSuiteId suiteId adV4 pqxdh kemIdentity proof =
      suiteId ||| presentFlags adV4 pqxdh kemIdentity proof := by
  unfold wireSuiteId presentFlags
  cases adV4 <;> cases pqxdh <;> cases kemIdentity <;> cases proof <;> simp [UInt16.or_assoc]

theorem wireSuiteId_parts (wire : UInt16) :
    wireSuiteId (wire &&& ~~~ wireFlags) (wire &&& adV4Flag != 0) (wire &&& pqxdhV2Flag != 0)
      (wire &&& kemIdentityFlag != 0) (wire &&& identityProofFlag != 0) = wire := by
  have hall : ~~~ wireFlags ||| (adV4Flag ||| pqxdhV2Flag ||| kemIdentityFlag |||
      identityProofFlag) = -1 := by decide
  rw [wireSuiteId_eq_or, presentFlags, ← wire.and_flag (k := 11) rfl, ← wire.and_flag (k := 8) rfl,
    ← wire.and_flag (k := 9) rfl, ← wire.and_flag (k := 10) rfl, ← UInt16.and_or_distrib_left,
    ← UInt16.and_or_distrib_left, ← UInt16.and_or_distrib_left, ← UInt16.and_or_distrib_left,
    hall, UInt16.and_neg_one]

theorem wireSuiteId_flags (hsuite : suiteId &&& ~~~ wireFlags = suiteId)
    (adV4 pqxdh kemIdentity proof : Bool) :
    let wire := wireSuiteId suiteId adV4 pqxdh kemIdentity proof
    wire &&& ~~~ wireFlags = suiteId ∧ (wire &&& adV4Flag != 0) = adV4 ∧
      (wire &&& pqxdhV2Flag != 0) = pqxdh ∧ (wire &&& kemIdentityFlag != 0) = kemIdentity ∧
      (wire &&& identityProofFlag != 0) = proof := by
  have hclear : ∀ flag, ~~~ wireFlags &&& flag = 0 → suiteId &&& flag = 0 := by
    intro flag hflag
    rw [← hsuite, UInt16.and_assoc, hflag, UInt16.and_zero]
  have had := hclear adV4Flag (by decide)
  have hpq := hclear pqxdhV2Flag (by decide)
  have hkem := hclear kemIdentityFlag (by decide)
  have hproof := hclear identityProofFlag (by decide)
  have hflags : ∀ adV4 pqxdh kemIdentity proof : Bool,
      let flags := presentFlags adV4 pqxdh kemIdentity proof
      flags &&& ~~~ wireFlags = 0 ∧ (flags &&& adV4Flag != 0) = adV4 ∧
        (flags &&& pqxdhV2Flag != 0) = pqxdh ∧ (flags &&& kemIdentityFlag != 0) = kemIdentity ∧
        (flags &&& identityProofFlag != 0) = proof := by
    decide
  rw [wireSuiteId_eq_or]
  simp only [UInt16.and_or_distrib_right, hsuite, had, hpq, hkem, hproof, UInt16.zero_or]
  obtain ⟨hnone, hall⟩ := hflags adV4 pqxdh kemIdentity proof
  exact ⟨by rw [hnone, UInt16.or_zero], hall⟩

/-! ## The payload -/

theorem checkObjects_eq_ok {objects : List Bytes} :
    checkObjects objects = .ok () ↔ ∀ x ∈ objects, x.length = kemIdentityObjectSize := by
  induction objects with
  | nil => exact ⟨fun _ x hx => (nomatch hx), fun _ => rfl⟩
  | cons x objects ih =>
    show (if x.length ≠ kemIdentityObjectSize then _ else checkObjects objects) = _ ↔ _
    rw [List.forall_mem_cons, ← ih]
    split
    · exact ⟨fun h => (nomatch h), fun h => absurd h.1 ‹_›⟩
    · exact ⟨fun h => ⟨not_not.mp ‹_›, h⟩, fun h => h.2⟩

/-- The length of the KEM ciphertext, as `pack_message` takes it. -/
def WireFields.kemLen (x : WireFields) : Nat := (x.kemCiphertext.map List.length).getD 0

/-- Everything behind the fixed header but the PQ section and the sealed box. -/
def WireFields.objects (x : WireFields) : Bytes :=
  x.kemCiphertext.getD [] ++ packObject x.kemIdentity ++ packObject x.identityProofCiphertext

theorem packMessage_eq_ok :
    packMessage x = .ok data ↔
      x.dhPublicKey.length = dhKeySize ∧ x.kemLen ≤ u16Max ∧
      (x.kemIdentity.isSome → x.kemLen ≠ 0) ∧
      (∀ k ∈ x.kemIdentity, k.length = kemIdentityObjectSize) ∧
      (∀ k ∈ x.identityProofCiphertext, k.length = kemIdentityObjectSize) ∧
      ∃ pq, packPqSection (x.suiteId &&& ~~~ wireFlags) x.pqMessageEpoch x.pqKeyIndex
          x.pqRatchetField = .ok pq ∧
        data = packHeader x.messageNumber x.dhPublicKey x.oneTimePrekeyId x.kyberOtpkId
            (UInt16.ofNat x.kemLen) x.previousChainLength
            (wireSuiteId (x.suiteId &&& ~~~ wireFlags) (x.adVersion ≥ adVersionHeader)
              (x.kemLen > 0) x.kemIdentity.isSome x.identityProofCiphertext.isSome) ++
          (x.objects ++ (pq ++ x.sealedBox)) := by
  unfold packMessage
  show (if _ then _ else if x.kemLen > u16Max then _ else
    if x.kemIdentity.isSome ∧ x.kemLen = 0 then _ else _) = _ ↔ _
  split
  case isTrue hlen => exact ⟨fun h => (nomatch h), fun h => absurd h.1 hlen⟩
  case isFalse hlen =>
  split
  case isTrue hkem => exact ⟨fun h => (nomatch h), fun h => absurd h.2.1 (Nat.not_le.mpr hkem)⟩
  case isFalse hkem =>
  split
  case isTrue hid => exact ⟨fun h => (nomatch h), fun h => absurd hid.2 (h.2.2.1 hid.1)⟩
  case isFalse hid =>
  constructor
  · intro h
    obtain ⟨_, hsizes, h⟩ := Except.exists_of_bind_ok h
    obtain ⟨pq, hpq, h⟩ := Except.exists_of_bind_ok h
    cases h
    rw [checkObjects_eq_ok, List.forall_mem_append] at hsizes
    refine ⟨not_not.mp hlen, Nat.not_lt.mp hkem, fun hsome hzero => hid ⟨hsome, hzero⟩,
      fun k hk => hsizes.1 k (Option.mem_toList.mpr hk),
      fun k hk => hsizes.2 k (Option.mem_toList.mpr hk), pq, hpq, ?_⟩
    simp only [WireFields.objects, List.append_assoc]
    rfl
  · rintro ⟨-, -, -, hidentity, hproof, pq, hpq, rfl⟩
    have hsizes : checkObjects (x.kemIdentity.toList ++ x.identityProofCiphertext.toList) =
        .ok () := by
      rw [checkObjects_eq_ok, List.forall_mem_append]
      exact ⟨fun k hk => hidentity k (Option.mem_toList.mp hk),
        fun k hk => hproof k (Option.mem_toList.mp hk)⟩
    rw [Except.bind_of_ok hsizes, Except.bind_of_ok hpq]
    simp only [WireFields.objects, List.append_assoc]
    rfl

/-- The values a wire payload can hold. -/
structure DecodedWirePayload.Canonical (d : DecodedWirePayload) : Prop where
  suite : d.suiteId &&& ~~~ wireFlags = d.suiteId
  current : d.suiteId ≠ retiredPqRatchetV1
  adVersion : d.adVersion = adVersionLegacy ∨ d.adVersion = adVersionHeader
  kem : d.kemCiphertext ≠ some []
  pqSection : CanonicalSection d.suiteId d.pqMessageEpoch d.pqKeyIndex d.pqRatchetField
  sealedBox : d.sealedBox ≠ []

theorem unpackBody_eq_ok {n o k p : UInt32} {dh : Bytes} {kemLen wire : UInt16} :
    unpackBody total n dh o k kemLen p wire b = .ok d rest ↔
      (wire &&& pqxdhV2Flag != 0 → kemLen ≠ 0) ∧
      (wire &&& kemIdentityFlag != 0 → wire &&& pqxdhV2Flag != 0) ∧
      wire &&& ~~~ wireFlags ≠ retiredPqRatchetV1 ∧ rest ≠ [] ∧
      ∃ kem kemIdentity proof epoch index field pq,
        kem.length = kemLen.toNat ∧
        kemIdentity.isSome = (wire &&& kemIdentityFlag != 0) ∧
        (∀ x ∈ kemIdentity, x.length = kemIdentityObjectSize) ∧
        proof.isSome = (wire &&& identityProofFlag != 0) ∧
        (∀ x ∈ proof, x.length = kemIdentityObjectSize) ∧
        CanonicalSection (wire &&& ~~~ wireFlags) epoch index field ∧
        packPqSection (wire &&& ~~~ wireFlags) epoch index field = .ok pq ∧
        b = kem ++ (packObject kemIdentity ++ (packObject proof ++ (pq ++ rest))) ∧
        d = {
          messageNumber := n
          dhPublicKey := dh
          oneTimePrekeyId := o
          kyberOtpkId := k
          previousChainLength := p
          suiteId := wire &&& ~~~ wireFlags
          kemCiphertext := if kemLen.toNat > 0 then some kem else none
          pqxdhV2 := wire &&& pqxdhV2Flag != 0
          kemIdentity := kemIdentity
          identityProofCiphertext := proof
          sealedBox := rest
          pqMessageEpoch := epoch
          pqKeyIndex := index
          pqRatchetField := field
          adVersion := if wire &&& adV4Flag != 0 then adVersionHeader else adVersionLegacy } := by
  unfold unpackBody
  simp only [Op.ite_eq_ok, Op.throw_ne_ok, and_false, false_or, Op.get_eq_ok, Op.bind_eq_ok,
    Reader.take_eq_ok, kemIdentityObject_eq_ok, Op.pure_eq_ok]
  constructor
  · rintro ⟨hflag, hidentity, _, _, ⟨rfl, rfl⟩, hlong, kem, _, ⟨hkem, rfl⟩, kemIdentity, _, ⟨hk, hksize, rfl⟩, proof, _,
      ⟨hp, hpsize, rfl⟩, hsuite, ⟨epoch, index, field⟩, _, hsection, _, _,
      ⟨rfl, rfl⟩, hsealed, rfl, rfl⟩
    obtain ⟨hcanonical, pq, hpq, rfl⟩ := unpackPqSection_eq_ok.mp hsection
    refine ⟨fun h hzero => hflag ⟨h, hzero⟩, fun h => ?_, hsuite, ?_, kem, kemIdentity, proof,
      epoch, index, field, pq, hkem, hk, hksize, hp, hpsize, hcanonical, hpq, rfl, rfl⟩
    · by_contra hne
      exact hidentity ⟨h, by simpa using hne⟩
    · simpa using hsealed
  · rintro ⟨hflag, hidentity, hsuite, hsealed, kem, kemIdentity, proof, epoch, index, field, pq,
      hkem, hk, hksize, hp, hpsize, hcanonical, hpq, rfl, rfl⟩
    refine ⟨fun h => hflag h.1 h.2, fun h => ?_, _, _, ⟨rfl, rfl⟩, ?_, kem, _, ⟨hkem, rfl⟩, kemIdentity, _,
      ⟨hk, hksize, rfl⟩, proof, _, ⟨hp, hpsize, rfl⟩, hsuite, (epoch, index, field), rest,
      unpackPqSection_eq_ok.mpr ⟨hcanonical, pq, hpq, rfl⟩, rest, rest, ⟨rfl, rfl⟩, ?_, rfl, rfl⟩
    · have := hidentity h.1
      simp_all
    · have hpos := List.length_pos_iff.mpr hsealed
      simp only [List.length_append, hkem]
      omega
    · simpa using hsealed

theorem unpack_eq_ok :
    unpack data = .ok d ↔
      ∃ n dh o k kemLen p wire body rest,
        dh.length = dhKeySize ∧ data = packHeader n dh o k kemLen p wire ++ body ∧
          unpackBody data.length n dh o k kemLen p wire body = .ok d rest := by
  have hrun : ∀ rest, unpackFrom data.length data = .ok d rest ↔
      ∃ n dh o k kemLen p wire body,
        dh.length = dhKeySize ∧ data = packHeader n dh o k kemLen p wire ++ body ∧
          unpackBody data.length n dh o k kemLen p wire body = .ok d rest := by
    intro rest
    unfold unpackFrom
    generalize data.length = total
    simp only [Op.bind_eq_ok, Reader.u32_eq_ok, Reader.u16_eq_ok, Reader.take_eq_ok, packHeader]
    constructor
    · rintro ⟨n, _, rfl, dh, _, ⟨hlen, rfl⟩, o, _, rfl, k, _, rfl, kemLen, _, rfl, p, _, rfl, wire,
        body, rfl, hbody⟩
      exact ⟨n, dh, o, k, kemLen, p, wire, body, hlen, by simp only [List.append_assoc], hbody⟩
    · rintro ⟨n, dh, o, k, kemLen, p, wire, body, hlen, rfl, hbody⟩
      exact ⟨n, _, by simp only [List.append_assoc], dh, _, ⟨hlen, rfl⟩, o, _, rfl, k, _, rfl,
        kemLen, _, rfl, p, _, rfl, wire, body, rfl, hbody⟩
  unfold unpack
  constructor
  · intro h
    split at h
    · cases h
    cases hfrom : unpackFrom data.length data with
    | error e t => rw [hfrom] at h; cases h
    | ok payload rest =>
      rw [hfrom] at h
      cases h
      obtain ⟨n, dh, o, k, kemLen, p, wire, body, hparts⟩ := (hrun rest).mp hfrom
      exact ⟨n, dh, o, k, kemLen, p, wire, body, rest, hparts⟩
  · rintro ⟨n, dh, o, k, kemLen, p, wire, body, rest, hlen, hdata, hbody⟩
    have hlong : ¬ data.length ≤ headerSize := by
      obtain ⟨-, -, -, hne, kem, kemIdentity, proof, _, _, _, pq, -, -, -, -, -, -, -, hparts, -⟩ :=
        unpackBody_eq_ok.mp hbody
      have hpos := List.length_pos_iff.mpr hne
      rw [hdata, hparts]
      simp only [packHeader, List.length_append, length_u32ToLe, length_u16ToLe, hlen, headerSize]
      omega
    rw [if_neg hlong, (hrun rest).mpr ⟨n, dh, o, k, kemLen, p, wire, body, hlen, hdata, hbody⟩]

theorem kemCiphertext_parts {kem : Bytes} (h : kem.length = n) :
    let field := if n > 0 then some kem else none
    (field.map List.length).getD 0 = n ∧ field.getD [] = kem ∧ field ≠ some [] ∧
      field.isSome = decide (n > 0) := by
  subst h
  cases kem <;> simp

theorem decide_adVersion (adV4 : Bool) :
    decide ((if adV4 then adVersionHeader else adVersionLegacy) ≥ adVersionHeader) = adV4 := by
  cases adV4 <;> rfl

theorem adVersion_of_decide {v : UInt8} (h : v = adVersionLegacy ∨ v = adVersionHeader) :
    (if decide (v ≥ adVersionHeader) then adVersionHeader else adVersionLegacy) = v := by
  rcases h with rfl | rfl <;> rfl

/-- **The codec.** Of the payloads whose PQXDH flag agrees with the presence of a ciphertext,
`unpack` returns exactly the canonical ones, each on what `pack_message` makes of it. -/
theorem unpack_eq_ok_iff (hflag : d.pqxdhV2 = d.kemCiphertext.isSome) :
    unpack data = .ok d ↔ d.Canonical ∧ packMessage d.toWireFields = .ok data := by
  constructor
  · intro h
    obtain ⟨n, dh, o, k, kemLen, p, wire, body, rest, hlen, hdata, hbody⟩ := unpack_eq_ok.mp h
    obtain ⟨hpqxdh, hidentity, hsuite, hsealed, kem, kemIdentity, proof, epoch, index, field, pq,
      hkem, hk, hksize, hp, hpsize, hcanonical, hpq, hparts, hd⟩ := unpackBody_eq_ok.mp hbody
    obtain ⟨hkemLen, hkemBytes, hkemNe, hkemSome⟩ := kemCiphertext_parts hkem
    have hclear : wire &&& ~~~ wireFlags &&& ~~~ wireFlags = wire &&& ~~~ wireFlags := by
      rw [UInt16.and_assoc, UInt16.and_self]
    subst hd
    refine ⟨⟨hclear, hsuite, ?_, hkemNe, hcanonical, hsealed⟩, ?_⟩
    · dsimp only
      split
      · exact .inr rfl
      · exact .inl rfl
    refine packMessage_eq_ok.mpr ⟨hlen, ?_, ?_, hksize, hpsize, pq, ?_, ?_⟩
    · show (Option.map List.length _).getD 0 ≤ _
      rw [hkemLen]
      exact Nat.le_of_lt_succ kemLen.toNat_lt
    · intro hsome
      show (Option.map List.length _).getD 0 ≠ 0
      rw [hkemLen]
      exact fun hzero => hpqxdh (hidentity (hk ▸ hsome)) (UInt16.toNat_inj.mp hzero)
    · show packPqSection (wire &&& ~~~ wireFlags &&& ~~~ wireFlags) _ _ _ = _
      rw [hclear]
      exact hpq
    · have hwire : wireSuiteId (wire &&& ~~~ wireFlags &&& ~~~ wireFlags)
          ((if wire &&& adV4Flag != 0 then adVersionHeader else adVersionLegacy) ≥ adVersionHeader)
          (kemLen.toNat > 0) kemIdentity.isSome proof.isSome = wire := by
        rw [hclear, hk, hp, decide_adVersion, ← hkemSome]
        exact hflag ▸ wireSuiteId_parts wire
      rw [hdata, hparts]
      simp only [WireFields.objects, WireFields.kemLen, hkemLen, hkemBytes, hwire,
        UInt16.ofNat_toNat, List.append_assoc]
  · rintro ⟨hcanonical, hpack⟩
    obtain ⟨hlen, hkemMax, hidentity, hksize, hpsize, pq, hpq, hdata⟩ := packMessage_eq_ok.mp hpack
    have hkemLen : (UInt16.ofNat d.kemLen).toNat = d.kemLen := by
      rw [UInt16.toNat_ofNat']
      exact Nat.mod_eq_of_lt (Nat.lt_succ_of_le hkemMax)
    have hkemField : (if d.kemLen > 0 then some (d.kemCiphertext.getD []) else none) =
        d.kemCiphertext ∧ (d.kemCiphertext.getD []).length = d.kemLen ∧
        decide (d.kemLen > 0) = d.kemCiphertext.isSome := by
      have hne := hcanonical.kem
      unfold WireFields.kemLen
      rcases hkem : d.kemCiphertext with _ | _ | ⟨x, xs⟩
      · exact ⟨rfl, rfl, rfl⟩
      · exact absurd hkem hne
      · exact ⟨rfl, rfl, rfl⟩
    obtain ⟨hkemSome, hkemBytes, hkemPos⟩ := hkemField
    obtain ⟨hsuite, had, hpqxdh, hkem, hproof⟩ := wireSuiteId_flags hcanonical.suite
      (d.adVersion ≥ adVersionHeader) (d.kemLen > 0) d.kemIdentity.isSome
      d.identityProofCiphertext.isSome
    rw [hcanonical.suite] at hpq hdata
    refine unpack_eq_ok.mpr ⟨_, _, _, _, _, _, _, _, d.sealedBox, hlen, hdata, ?_⟩
    refine unpackBody_eq_ok.mpr ⟨?_, ?_, ?_, hcanonical.sealedBox, d.kemCiphertext.getD [],
      d.kemIdentity, d.identityProofCiphertext, d.pqMessageEpoch, d.pqKeyIndex, d.pqRatchetField,
      pq, ?_, hkem.symm, hksize, hproof.symm, hpsize, ?_, ?_, ?_, ?_⟩
    · rw [hpqxdh]
      intro hpos hzero
      have hzero' := congrArg UInt16.toNat hzero
      rw [hkemLen, UInt16.toNat_zero] at hzero'
      exact absurd hzero' (Nat.pos_iff_ne_zero.mp (of_decide_eq_true hpos))
    · rw [hpqxdh, hkem]
      exact fun hsome => decide_eq_true (Nat.pos_of_ne_zero (hidentity hsome))
    · rw [hsuite]
      exact hcanonical.current
    · rw [hkemBytes, hkemLen]
    · rw [hsuite]
      exact hcanonical.pqSection
    · rw [hsuite]
      exact hpq
    · simp only [WireFields.objects, List.append_assoc]
    · rw [hsuite, hpqxdh, had, hkemLen, hkemSome, hkemPos, ← hflag, adVersion_of_decide hcanonical.adVersion]

/-- The payloads a session gives to `pack_message`. -/
structure WireFields.Producible (x : WireFields) : Prop where
  suite : ∃ suite : SuiteID, x.suiteId = suite.asU16
  adVersion : x.adVersion = adVersionLegacy ∨ x.adVersion = adVersionHeader
  kem : x.kemCiphertext ≠ some []
  pqSection : CanonicalSection x.suiteId x.pqMessageEpoch x.pqKeyIndex x.pqRatchetField
  sealedBox : x.sealedBox ≠ []

theorem WireFields.Producible.canonical (h : x.Producible) :
    (DecodedWirePayload.mk x x.kemCiphertext.isSome).Canonical := by
  obtain ⟨suite, hsuite⟩ := h.suite
  refine ⟨?_, ?_, h.adVersion, h.kem, h.pqSection, h.sealedBox⟩
  · show x.suiteId &&& _ = x.suiteId
    rw [hsuite]
    cases suite <;> decide
  · show x.suiteId ≠ _
    rw [hsuite]
    cases suite <;> decide

/-- **The wire codec is lossless.** What a session packs comes back as it was; what `unpack`
accepts, with the flag in agreement with the ciphertext, packs to the same bytes; so no two
byte strings of that shape decode to one payload. -/
theorem wire_lossless :
    (∀ (x : WireFields) (data : Bytes), x.Producible → packMessage x = .ok data →
      unpack data = .ok { x with pqxdhV2 := x.kemCiphertext.isSome }) ∧
    (∀ (data : Bytes) (d : DecodedWirePayload), unpack data = .ok d →
      d.pqxdhV2 = d.kemCiphertext.isSome → packMessage d.toWireFields = .ok data) ∧
    ∀ (data data' : Bytes) (d : DecodedWirePayload), unpack data = .ok d →
      unpack data' = .ok d → d.pqxdhV2 = d.kemCiphertext.isSome → data = data' := by
  refine ⟨?_, ?_, ?_⟩
  · intro x data hx hpack
    exact (unpack_eq_ok_iff rfl).mpr ⟨hx.canonical, hpack⟩
  · intro data d h hflag
    exact ((unpack_eq_ok_iff hflag).mp h).2
  · intro data data' d h h' hflag
    have hpack := ((unpack_eq_ok_iff hflag).mp h).2
    have hpack' := ((unpack_eq_ok_iff hflag).mp h').2
    exact Except.ok.inj (hpack.symm.trans hpack')

def sampleFields : WireFields where
  adVersion := adVersionHeader
  dhPublicKey := List.replicate 32 9
  messageNumber := 2
  oneTimePrekeyId := 7
  kyberOtpkId := 11
  previousChainLength := 5
  suiteId := SuiteID.pqRatchet.asU16
  kemCiphertext := some [1, 2, 3]
  kemIdentity := none
  identityProofCiphertext := none
  sealedBox := [42]
  pqMessageEpoch := 3
  pqKeyIndex := 300
  pqRatchetField := some (.publicKey 4 [8, 8])

theorem sampleFields_producible : sampleFields.Producible :=
  ⟨⟨.pqRatchet, rfl⟩, .inr rfl, by decide, fun h => absurd h (by decide), by decide⟩

theorem wire_lossless_sample :
    ∃ data, packMessage sampleFields = .ok data ∧
      unpack data = .ok { sampleFields with pqxdhV2 := true } := by
  have hpack : ∃ data, packMessage sampleFields = .ok data :=
    ⟨_, packMessage_eq_ok.mpr ⟨by decide, by decide, by decide, fun k hk => (nomatch hk),
      fun k hk => (nomatch hk), _, rfl, rfl⟩⟩
  obtain ⟨data, hdata⟩ := hpack
  exact ⟨data, hdata, wire_lossless.1 sampleFields data sampleFields_producible hdata⟩

end Wire

end ConstructCore
