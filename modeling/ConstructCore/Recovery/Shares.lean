import ConstructCore.Lib.Op
import ConstructCore.Lib.Shamir
import ConstructCore.Recovery.Gf256
import Mathlib.SetTheory.Cardinal.Finite

/-!
# Recovery shares

`split_secret` and `combine_shares` of `crypto/social_recovery.rs`: each byte of a secret is the
value at zero of a polynomial of its own over the field of bytes, a share holds the values at
its index. The coefficients drawn are an argument.
-/

namespace ConstructCore

/-! ## Splitting and combining -/

/-- Why a secret is not split, or shares give no secret. -/
inductive RecoveryError where
  | threshold
  | shareCount
  | tooFewShares
  | indexZero
  | duplicateIndex
  | checksum
  | wordCount (got : Nat)
  | unknownWord (word : Bytes)
deriving DecidableEq, Repr

structure Share where
  index : UInt8
  data : Vector UInt8 32
deriving DecidableEq, Repr

/-- Horner's method, as the loop of `split_secret` runs it. -/
def hornerByte (x : UInt8) (coeffs : List UInt8) : UInt8 :=
  coeffs.reverse.foldl (fun val c => gfMul val x ^^^ c) 0

/-- The share at an index: `draw` has the coefficients of each byte's polynomial above the
constant one. -/
def shareAt {n : Nat} (secret : Vector UInt8 32) (draw : Fin 32 → Fin n → UInt8) (index : UInt8) :
    Share where
  index := index
  data := Vector.ofFn fun pos => hornerByte index (secret[pos] :: List.ofFn (draw pos))

/-- `1..=share_count`. -/
def shareIndices (shareCount : UInt8) : List UInt8 :=
  (List.range shareCount.toNat).map fun i => UInt8.ofNat (i + 1)

def splitSecret (secret : Vector UInt8 32) (threshold shareCount : UInt8)
    (draw : Fin 32 → Fin (threshold.toNat - 1) → UInt8) : Except RecoveryError (List Share) :=
  if ¬ (2 ≤ threshold ∧ threshold ≤ 10) then .error .threshold
  else if shareCount < threshold ∨ 10 < shareCount then .error .shareCount
  else .ok ((shareIndices shareCount).map (shareAt secret draw))

def checkIndices : List UInt8 → List Share → Except RecoveryError Unit
  | _, [] => .ok ()
  | seen, s :: shares =>
    if s.index = 0 then .error .indexZero
    else if s.index ∈ seen then .error .duplicateIndex
    else checkIndices (s.index :: seen) shares

/-- The inner loop of `combine_shares`: numerator and denominator of the weight of share `i`. -/
def weightLoop (shares : List Share) (i : Nat) (xi : UInt8) : UInt8 × UInt8 :=
  shares.zipIdx.foldl (fun acc p =>
    if i = p.2 then acc else (gfMul acc.1 p.1.index, gfMul acc.2 (xi ^^^ p.1.index))) (1, 1)

/-- The outer loop of `combine_shares`, at one position. -/
def combineByte (shares : List Share) (pos : Fin 32) : UInt8 :=
  shares.zipIdx.foldl (fun value p =>
    let w := weightLoop shares p.2 p.1.index
    value ^^^ gfMul p.1.data[pos] (gfDiv w.1 w.2)) 0

def combineShares (shares : List Share) : Except RecoveryError (Vector UInt8 32) := do
  if shares.length < 2 then .error .tooFewShares
  else
    checkIndices [] shares
    return Vector.ofFn fun pos => combineByte shares pos

variable {shareCount : UInt8} {shares : List Share} {α β : Type} {k n : Nat} {indices : List UInt8}

theorem splitSecret_ok {secret : Vector UInt8 32} {threshold : UInt8}
    {draw : Fin 32 → Fin (threshold.toNat - 1) → UInt8}
    (h : splitSecret secret threshold shareCount draw = .ok shares) :
    shares = (shareIndices shareCount).map (shareAt secret draw) := by
  unfold splitSecret at h
  split at h
  · cases h
  · split at h
    · cases h
    · exact (Except.ok.inj h).symm

theorem mem_shareIndices {x : UInt8} :
    x ∈ shareIndices shareCount ↔ x ≠ 0 ∧ x ≤ shareCount := by
  have hx := x.toNat_lt
  have hn := shareCount.toNat_lt
  unfold shareIndices
  rw [List.mem_map, UInt8.le_iff_toNat_le]
  constructor
  · rintro ⟨i, hi, rfl⟩
    rw [List.mem_range] at hi
    have hval : (UInt8.ofNat (i + 1)).toNat = i + 1 := by
      rw [UInt8.toNat_ofNat']
      omega
    refine ⟨fun h => ?_, by omega⟩
    rw [h] at hval
    simp at hval
  · rintro ⟨hne, hle⟩
    have hpos : x.toNat ≠ 0 := fun h => hne (UInt8.toNat_inj.mp h)
    refine ⟨x.toNat - 1, List.mem_range.mpr (by omega), ?_⟩
    rw [Nat.sub_add_cancel (by omega), UInt8.ofNat_toNat]

/-! ## The loops over the field -/

theorem hornerByte_eq (x : UInt8) (coeffs : List UInt8) :
    (⟨hornerByte x coeffs⟩ : GF256) = Shamir.horner ⟨x⟩ (coeffs.map .mk) := by
  unfold hornerByte
  rw [List.foldl_reverse]
  induction coeffs with
  | nil => rfl
  | cons c coeffs ih =>
    rw [List.foldr_cons, List.map_cons, Shamir.horner_cons, ← ih]
    rfl

theorem foldl_zipIdx_keep (f : β → α → β) (xs : List α) {i : Nat} (hik : i < k) (acc : β) :
    (xs.zipIdx k).foldl (fun acc p => if i = p.2 then acc else f acc p.1) acc =
      xs.foldl f acc := by
  induction xs generalizing k acc with
  | nil => rfl
  | cons x xs ih =>
    rw [List.zipIdx_cons, List.foldl_cons, List.foldl_cons, ih (by omega)]
    dsimp only
    rw [if_neg (by omega)]

theorem foldl_zipIdx_skip (f : β → α → β) (xs : List α) (i k : Nat) (acc : β) :
    (xs.zipIdx k).foldl (fun acc p => if k + i = p.2 then acc else f acc p.1) acc =
      (xs.eraseIdx i).foldl f acc := by
  induction xs generalizing i k acc with
  | nil => rfl
  | cons x xs ih =>
    rw [List.zipIdx_cons, List.foldl_cons]
    dsimp only
    cases i with
    | zero =>
      rw [if_pos (Nat.add_zero k), List.eraseIdx_cons_zero]
      exact foldl_zipIdx_keep f xs (by omega) acc
    | succ i =>
      have h := ih i (k + 1) (f acc x)
      rw [show k + 1 + i = k + (i + 1) by omega] at h
      rw [if_neg (by omega), List.eraseIdx_cons_succ, List.foldl_cons, h]

theorem weightLoop_eq (shares : List Share) (i : Nat) (xi : UInt8) :
    let others := (shares.eraseIdx i).map fun s => (⟨s.index⟩ : GF256)
    (⟨(weightLoop shares i xi).1⟩ : GF256) = (others.map fun y => 0 - y).prod ∧
      (⟨(weightLoop shares i xi).2⟩ : GF256) = (others.map fun y => ⟨xi⟩ - y).prod := by
  have hskip := foldl_zipIdx_skip
    (fun (acc : UInt8 × UInt8) (s : Share) => (gfMul acc.1 s.index, gfMul acc.2 (xi ^^^ s.index)))
    shares i 0 (1, 1)
  have hprod : ∀ (others : List Share) (acc : UInt8 × UInt8),
      (⟨(others.foldl (fun acc s => (gfMul acc.1 s.index, gfMul acc.2 (xi ^^^ s.index))) acc).1⟩ :
          GF256) = ⟨acc.1⟩ * (others.map fun s => 0 - (⟨s.index⟩ : GF256)).prod ∧
        (⟨(others.foldl (fun acc s => (gfMul acc.1 s.index, gfMul acc.2 (xi ^^^ s.index))) acc).2⟩ :
          GF256) = ⟨acc.2⟩ * (others.map fun s => ⟨xi⟩ - (⟨s.index⟩ : GF256)).prod := by
    intro others
    induction others with
    | nil => exact fun acc => ⟨(mul_one _).symm, (mul_one _).symm⟩
    | cons s others ih =>
      intro acc
      obtain ⟨h1, h2⟩ := ih (gfMul acc.1 s.index, gfMul acc.2 (xi ^^^ s.index))
      rw [List.foldl_cons, h1, h2, List.map_cons, List.prod_cons, List.map_cons, List.prod_cons,
        ← mul_assoc, ← mul_assoc]
      exact ⟨congrArg (· * _) (GF256.ext (by simp)), rfl⟩
  simp only [Nat.zero_add] at hskip
  unfold weightLoop
  rw [hskip]
  obtain ⟨h1, h2⟩ := hprod (shares.eraseIdx i) (1, 1)
  simp only [List.map_map, Function.comp_def]
  exact ⟨h1.trans (one_mul _), h2.trans (one_mul _)⟩

theorem combineByte_eq (hnd : (shares.map Share.index).Nodup) (pos : Fin 32) :
    (⟨combineByte shares pos⟩ : GF256) = (shares.map fun s => (⟨s.data[pos]⟩ : GF256) *
      Shamir.weightAtZero ⟨s.index⟩
        ((shares.map fun s => (⟨s.index⟩ : GF256)).erase ⟨s.index⟩)).sum := by
  have hsum : ∀ (terms : List (Share × Nat)) (acc : UInt8),
      (⟨terms.foldl (fun value p => value ^^^ gfMul p.1.data[pos]
        (gfDiv (weightLoop shares p.2 p.1.index).1 (weightLoop shares p.2 p.1.index).2)) acc⟩ :
          GF256) = ⟨acc⟩ + (terms.map fun p => (⟨gfMul p.1.data[pos]
        (gfDiv (weightLoop shares p.2 p.1.index).1 (weightLoop shares p.2 p.1.index).2)⟩ :
          GF256)).sum := by
    intro terms
    induction terms with
    | nil => exact fun acc => (add_zero _).symm
    | cons p terms ih =>
      intro acc
      rw [List.foldl_cons, ih, List.map_cons, List.sum_cons, ← add_assoc]
      rfl
  have hnd' : (shares.map fun s => (⟨s.index⟩ : GF256)).Nodup := by
    have h := hnd.map (f := GF256.mk) fun _ _ h => GF256.mk.inj h
    rwa [List.map_map] at h
  unfold combineByte
  dsimp only
  rw [hsum]
  show 0 + _ = _
  rw [zero_add]
  congr 1
  refine List.ext_getElem (by simp) fun i hi hi' => ?_
  have hlt : i < shares.length := by simpa using hi
  simp only [List.getElem_map, List.getElem_zipIdx, Nat.zero_add]
  have hothers : (shares.map fun s => (⟨s.index⟩ : GF256)).erase ⟨shares[i].index⟩ =
      (shares.eraseIdx i).map fun s => (⟨s.index⟩ : GF256) := by
    have h := hnd'.erase_getElem i (by simpa using hlt)
    rwa [List.getElem_map, List.eraseIdx_map] at h
  obtain ⟨hnum, hden⟩ := weightLoop_eq shares i shares[i].index
  have hne : ((((shares.eraseIdx i).map fun s => (⟨s.index⟩ : GF256)).map
      fun y => ⟨shares[i].index⟩ - y).prod) ≠ 0 := by
    refine List.prod_ne_zero fun hzero => ?_
    obtain ⟨y, hy, hxy⟩ := List.mem_map.mp hzero
    rw [← hothers, ← sub_eq_zero.mp hxy] at hy
    exact hnd'.not_mem_erase hy
  unfold Shamir.weightAtZero
  apply GF256.ext
  rw [hothers, GF256.byte_mul, GF256.byte_div _ hne, ← hnum, ← hden]

/-! ## Reconstruction -/

theorem eval_shareAt (secret : Vector UInt8 32) (draw : Fin 32 → Fin n → UInt8) (pos : Fin 32)
    (x : UInt8) :
    (Shamir.poly ((secret[pos] :: List.ofFn (draw pos)).map GF256.mk)).eval ⟨x⟩ =
      ⟨(shareAt secret draw x).data[pos]⟩ := by
  rw [Shamir.eval_poly, ← hornerByte_eq]
  simp [shareAt]

theorem eval_secret (secret : Vector UInt8 32) (draw : Fin 32 → Fin n → UInt8) (pos : Fin 32) :
    (Shamir.poly ((secret[pos] :: List.ofFn (draw pos)).map GF256.mk)).eval 0 =
      ⟨secret[pos]⟩ := by
  rw [Shamir.eval_poly, List.map_cons, Shamir.horner_cons, mul_zero, zero_add]

/-- A secret's own shares under different indices, as many as the threshold, give the secret. -/
theorem combineByte_shareAt (secret : Vector UInt8 32) (draw : Fin 32 → Fin n → UInt8)
    (hnd : indices.Nodup) (hlen : n < indices.length) (pos : Fin 32) :
    combineByte (indices.map (shareAt secret draw)) pos = secret[pos] := by
  have hids : ((indices.map (shareAt secret draw)).map Share.index).Nodup := by
    rw [List.map_map]
    exact (List.map_id' indices).symm ▸ hnd
  have hmk := hnd.map (f := GF256.mk) fun _ _ h => GF256.mk.inj h
  have hsum := combineByte_eq hids pos
  have hdeg : (Shamir.poly ((secret[pos] :: List.ofFn (draw pos)).map GF256.mk)).degree <
      (indices.map GF256.mk).length := by
    refine (Shamir.degree_poly_lt _).trans_le (Nat.cast_le.mpr ?_)
    simpa using hlen
  have hp := Shamir.sum_at_zero hmk hdeg
  rw [eval_secret, List.map_map] at hp
  rw [List.map_map, List.map_map] at hsum
  refine GF256.mk.inj (hsum.trans (Eq.trans (congrArg List.sum ?_) hp))
  refine List.map_congr_left fun x _ => ?_
  show _ = (Shamir.poly ((secret[pos] :: List.ofFn (draw pos)).map GF256.mk)).eval ⟨x⟩ * _
  rw [eval_shareAt]
  rfl

theorem checkIndices_ok {seen : List UInt8} (hne : ∀ s ∈ shares, s.index ≠ 0)
    (hnd : (shares.map Share.index).Nodup) (hseen : ∀ s ∈ shares, s.index ∉ seen) :
    checkIndices seen shares = .ok () := by
  induction shares generalizing seen with
  | nil => rfl
  | cons s shares ih =>
    rw [List.map_cons, List.nodup_cons] at hnd
    rw [checkIndices, if_neg (hne s List.mem_cons_self), if_neg (hseen s List.mem_cons_self)]
    refine ih (fun s' h => hne s' (List.mem_cons_of_mem _ h)) hnd.2 fun s' h => ?_
    rw [List.mem_cons, not_or]
    refine ⟨?_, hseen s' (List.mem_cons_of_mem _ h)⟩
    rintro heq
    exact hnd.1 (heq ▸ List.mem_map_of_mem h)

theorem combineShares_shareAt (secret : Vector UInt8 32) (draw : Fin 32 → Fin n → UInt8)
    (hnd : indices.Nodup) (hne : ∀ x ∈ indices, x ≠ 0) (hlen : n < indices.length)
    (htwo : 2 ≤ indices.length) :
    combineShares (indices.map (shareAt secret draw)) = .ok secret := by
  have hbytes : (Vector.ofFn fun pos => combineByte (indices.map (shareAt secret draw)) pos) =
      secret := by
    ext i hi
    rw [Vector.getElem_ofFn]
    exact congrArg UInt8.toNat (combineByte_shareAt secret draw hnd hlen ⟨i, hi⟩)
  have hcheck : checkIndices [] (indices.map (shareAt secret draw)) = .ok () := by
    refine checkIndices_ok ?_ ?_ fun _ _ => List.not_mem_nil
    · intro s hs
      obtain ⟨x, hx, rfl⟩ := List.mem_map.mp hs
      exact hne x hx
    · rw [List.map_map]
      exact (List.map_id' indices).symm ▸ hnd
  unfold combineShares
  rw [if_neg (by rw [List.length_map]; omega), hcheck, hbytes]
  rfl

/-! ## Too few shares -/

/-- The bytes seen at a position are consistent with equally many draws for every secret. -/
theorem card_draws_byte {xs : Fin k → UInt8} (hinj : Function.Injective xs) (hne : ∀ i, xs i ≠ 0)
    (hk : k ≤ n) (secretByte : UInt8) (ys : Fin k → UInt8) :
    Nat.card {draw : Fin n → UInt8 //
      ∀ i, hornerByte (xs i) (secretByte :: List.ofFn draw) = ys i} = 256 ^ (n - k) := by
  have hcount := Shamir.card_consistent (F := GF256) (n := n)
    (show Function.Injective fun i => GF256.mk (xs i) from fun i j h => hinj (GF256.mk.inj h))
    (fun i h => hne i (GF256.mk.inj h)) hk ⟨secretByte⟩ fun i => ⟨ys i⟩
  rw [Nat.card_congr GF256.equivByte, Nat.card_congr byteEquiv, Nat.card_fin] at hcount
  rw [← hcount]
  -- bytes and field elements are the same draws
  refine Nat.card_congr ((Equiv.arrowCongr (Equiv.refl _) GF256.equivByte.symm).subtypeEquiv ?_)
  intro draw
  refine forall_congr' fun i => ?_
  have h := hornerByte_eq (xs i) (secretByte :: List.ofFn draw)
  rw [List.map_cons, List.map_ofFn] at h
  show _ ↔ Shamir.horner ⟨xs i⟩ (⟨secretByte⟩ :: List.ofFn (GF256.mk ∘ draw)) = ⟨ys i⟩
  rw [← h]
  exact ⟨congrArg GF256.mk, GF256.mk.inj⟩

/-- **Fewer than threshold shares reveal nothing.** Whatever the shares seen at up to
`threshold - 1` different indices, none of them 0, every secret is consistent with them under
equally many choices of coefficients: `256^(threshold - 1 - k)` at each byte position, so the
same number for whole shares. -/
theorem shares_reveal_nothing (threshold : UInt8) (k : Nat) (hk : k ≤ threshold.toNat - 1)
    (xs : Fin k → UInt8) (hinj : Function.Injective xs)
    (hne : ∀ i, xs i ≠ 0) (observed : Fin k → Vector UInt8 32) (secret : Vector UInt8 32) :
    (∀ pos : Fin 32, Nat.card {draw : Fin (threshold.toNat - 1) → UInt8 //
      ∀ i, hornerByte (xs i) (secret[pos] :: List.ofFn draw) = (observed i)[pos]} =
        256 ^ (threshold.toNat - 1 - k)) ∧
    (∀ shareCount draw shares, splitSecret secret threshold shareCount draw = .ok shares →
      ∀ s ∈ shares, s = shareAt secret draw s.index ∧ s.index ≠ 0) ∧
    Nat.card {draw : Fin 32 → Fin (threshold.toNat - 1) → UInt8 //
      ∀ i, shareAt secret draw (xs i) = ⟨xs i, observed i⟩} =
        (256 ^ (threshold.toNat - 1 - k)) ^ 32 := by
  have hbyte : ∀ pos : Fin 32, Nat.card {draw : Fin (threshold.toNat - 1) → UInt8 //
      ∀ i, hornerByte (xs i) (secret[pos] :: List.ofFn draw) = (observed i)[pos]} =
        256 ^ (threshold.toNat - 1 - k) :=
    fun pos => card_draws_byte hinj hne hk _ _
  refine ⟨hbyte, fun shareCount draw shares h s hs => ?_, ?_⟩
  · obtain ⟨x, hx, rfl⟩ := List.mem_map.mp (splitSecret_ok h ▸ hs)
    exact ⟨rfl, (mem_shareIndices.mp hx).1⟩
  -- position by position, the draws are independent
  have hpos : ∀ draw : Fin 32 → Fin (threshold.toNat - 1) → UInt8,
      (∀ i, shareAt secret draw (xs i) = ⟨xs i, observed i⟩) ↔
        ∀ pos i, hornerByte (xs i) (secret[pos] :: List.ofFn (draw pos)) = (observed i)[pos] := by
    intro draw
    rw [forall_comm]
    refine forall_congr' fun i => ?_
    unfold shareAt
    rw [Share.mk.injEq, Vector.ext_iff]
    simp only [true_and, Vector.getElem_ofFn]
    exact ⟨fun h pos => h pos.val pos.isLt, fun h j hj => h ⟨j, hj⟩⟩
  rw [Nat.card_congr ((Equiv.subtypeEquivRight hpos).trans (Equiv.subtypePiEquivPi
    (p := fun pos draw => ∀ i, hornerByte (xs i) (secret[pos] :: List.ofFn draw) =
      (observed i)[pos]))), Nat.card_pi]
  simp only [hbyte, Finset.prod_const, Finset.card_univ, Fintype.card_fin]

/-- One share seen at threshold 3. -/
theorem shares_reveal_nothing_one :
    Nat.card {draw : Fin 32 → Fin 2 → UInt8 //
      ∀ i : Fin 1, shareAt (Vector.replicate 32 7) draw (![5] i) =
        ⟨![5] i, Vector.replicate 32 1⟩} = (256 ^ 1) ^ 32 :=
  (shares_reveal_nothing 3 1 (by decide) ![5] (Function.injective_of_subsingleton _) (by decide)
    (fun _ => Vector.replicate 32 1) (Vector.replicate 32 7)).2.2

end ConstructCore
