import ConstructCore.Lib.Hex
import Mathlib.Data.List.Basic

/-!
# Account ids as text

`dashed` and `raw` of `history/records.rs`: sixteen bytes as the dashed hexadecimal text of a UUID
and back. Texts are their UTF-8 bytes. `raw` looks at each character by its position; `raw_cut`
says what it does of a text cut at the four places of a dash, and both directions follow from it.
-/

namespace History

open Bytes

/-- `b'-'`. -/
def dash : UInt8 := 45

def isDashAt (i : Nat) : Bool := [8, 13, 18, 23].contains i

def isAsciiHexdigit (c : UInt8) : Bool := (hexValue c).isSome

def misplaced (c : UInt8 × Nat) : Bool :=
  if isDashAt c.2 then c.1 != dash else !isAsciiHexdigit c.1

def dashed (raw : Bytes) : Option Bytes :=
  if raw.length ≠ 16 then none
  else
    let hex := hexEncode raw
    some (hex.take 8 ++ dash :: ((hex.drop 8).take 4 ++ dash :: ((hex.drop 12).take 4 ++
      dash :: ((hex.drop 16).take 4 ++ dash :: hex.drop 20))))

def raw (dashed : Bytes) : Option Bytes :=
  if dashed.length ≠ 36 ∨ dashed.zipIdx.any misplaced then none
  else hexDecode (dashed.filter (· != dash))

/-! ## Cutting a text at the dashes -/

theorem any_misplaced_of_digits {seg : Bytes} {k : Nat}
    (h : ∀ i, k ≤ i → i < k + seg.length → isDashAt i = false) :
    (seg.zipIdx k).any misplaced = seg.any fun c => !isAsciiHexdigit c := by
  induction seg generalizing k with
  | nil => rfl
  | cons c seg ih =>
    have hk := h k (Nat.le_refl k) (by simp)
    rw [List.zipIdx_cons, List.any_cons, List.any_cons,
      ih (fun i hi hlt => h i (by omega) (by simp at hlt ⊢; omega))]
    simp [misplaced, hk]

theorem any_misplaced_dash {c : UInt8} {k : Nat} (h : isDashAt k = true) (rest : Bytes) :
    ((c :: rest).zipIdx k).any misplaced = (c != dash || (rest.zipIdx (k + 1)).any misplaced) := by
  rw [List.zipIdx_cons, List.any_cons]
  simp [misplaced, h]

theorem not_dash_of_isAsciiHexdigit {c : UInt8} (h : isAsciiHexdigit c = true) : c ≠ dash := by
  rintro rfl
  exact absurd h (by decide)

theorem filter_dash_of_digits {seg : Bytes} (h : ∀ c ∈ seg, isAsciiHexdigit c = true) :
    seg.filter (· != dash) = seg := by
  apply List.filter_eq_self.mpr
  intro c hc
  simpa using not_dash_of_isAsciiHexdigit (h c hc)

section Cut

variable {a b c d e : Bytes} {w x y z : UInt8} (ha : a.length = 8) (hb : b.length = 4)
  (hc : c.length = 4) (hd : d.length = 4) (he : e.length = 12)

include ha hb hc hd he

theorem any_misplaced_cut :
    ((a ++ w :: (b ++ x :: (c ++ y :: (d ++ z :: e)))).zipIdx).any misplaced =
      (a.any (fun c => !isAsciiHexdigit c) || (w != dash ||
        (b.any (fun c => !isAsciiHexdigit c) || (x != dash ||
          (c.any (fun c => !isAsciiHexdigit c) || (y != dash ||
            (d.any (fun c => !isAsciiHexdigit c) || (z != dash ||
              e.any (fun c => !isAsciiHexdigit c))))))))) := by
  have hdigits : ∀ {seg : Bytes} {k n : Nat}, seg.length = n →
      (∀ i < 36, k ≤ i → i < k + n → isDashAt i = false) → k + n ≤ 36 →
      (seg.zipIdx k).any misplaced = seg.any fun c => !isAsciiHexdigit c := by
    intro seg k n hseg hnone hle
    apply any_misplaced_of_digits
    intro i hk hlt
    exact hnone i (by omega) hk (by omega)
  simp only [List.zipIdx_append, List.any_append, ha, Nat.zero_add]
  rw [hdigits ha (by decide) (by decide), any_misplaced_dash (by decide), List.zipIdx_append,
    List.any_append, hdigits hb (by decide) (by decide), hb, any_misplaced_dash (by decide),
    List.zipIdx_append, List.any_append, hdigits hc (by decide) (by decide), hc,
    any_misplaced_dash (by decide), List.zipIdx_append, List.any_append,
    hdigits hd (by decide) (by decide), hd, any_misplaced_dash (by decide),
    hdigits he (by decide) (by decide)]

/-- `raw` of a text cut at the dashes: there must be dashes, and what is between them is decoded. -/
theorem raw_cut {bytes : Bytes} :
    raw (a ++ w :: (b ++ x :: (c ++ y :: (d ++ z :: e)))) = some bytes ↔
      (w = dash ∧ x = dash ∧ y = dash ∧ z = dash) ∧
        (∀ t ∈ a ++ b ++ c ++ d ++ e, isAsciiHexdigit t = true) ∧
        hexDecode (a ++ b ++ c ++ d ++ e) = some bytes := by
  have hlen : (a ++ w :: (b ++ x :: (c ++ y :: (d ++ z :: e)))).length = 36 := by
    simp only [List.length_append, List.length_cons, ha, hb, hc, hd, he]
  have hcut := any_misplaced_cut (w := w) (x := x) (y := y) (z := z) ha hb hc hd he
  unfold raw
  rw [hlen, hcut]
  by_cases hdashes : w = dash ∧ x = dash ∧ y = dash ∧ z = dash
  · obtain ⟨rfl, rfl, rfl, rfl⟩ := hdashes
    by_cases hdigits : ∀ t ∈ a ++ b ++ c ++ d ++ e, isAsciiHexdigit t = true
    · have hseg : ∀ seg : Bytes, (∀ t ∈ seg, t ∈ a ++ b ++ c ++ d ++ e) →
          (seg.any fun c => !isAsciiHexdigit c) = false ∧ seg.filter (· != dash) = seg := by
        intro seg hsub
        have hall : ∀ t ∈ seg, isAsciiHexdigit t = true := fun t ht => hdigits t (hsub t ht)
        refine ⟨?_, filter_dash_of_digits hall⟩
        rw [List.any_eq_false]
        intro t ht
        simp [hall t ht]
      obtain ⟨ha', fa⟩ := hseg a (by simp +contextual)
      obtain ⟨hb', fb⟩ := hseg b (by simp +contextual)
      obtain ⟨hc', fc⟩ := hseg c (by simp +contextual)
      obtain ⟨hd', fd⟩ := hseg d (by simp +contextual)
      obtain ⟨he', fe⟩ := hseg e (by simp +contextual)
      rw [ha', hb', hc', hd', he', if_neg (by decide)]
      have hfilter : (a ++ dash :: (b ++ dash :: (c ++ dash :: (d ++ dash :: e)))).filter
          (· != dash) = a ++ b ++ c ++ d ++ e := by
        simp only [List.filter_append, List.filter_cons, fa, fb, fc, fd, fe, bne_self_eq_false,
          Bool.false_eq_true, if_false, List.append_assoc]
      rw [hfilter]
      exact ⟨fun h => ⟨⟨rfl, rfl, rfl, rfl⟩, hdigits, h⟩, fun h => h.2.2⟩
    · -- a character that is no digit is found in its part
      have hbad : ∃ t ∈ a ++ b ++ c ++ d ++ e, isAsciiHexdigit t = false := by
        by_contra hnone
        apply hdigits
        intro t ht
        by_contra hne
        exact hnone ⟨t, ht, Bool.eq_false_iff.mpr hne⟩
      obtain ⟨t, ht, hbad⟩ := hbad
      have hany : ∀ seg : Bytes, t ∈ seg → (seg.any fun c => !isAsciiHexdigit c) = true :=
        fun seg hmem => List.any_eq_true.mpr ⟨t, hmem, by simp [hbad]⟩
      rw [if_pos]
      · exact ⟨fun h => (by cases h), fun h => absurd h.2.1 hdigits⟩
      · right
        simp only [List.mem_append] at ht
        rcases ht with (((ht | ht) | ht) | ht) | ht <;> simp [hany _ ht]
  · rw [if_pos]
    · exact ⟨fun h => (by cases h), fun h => absurd h.1 hdashes⟩
    · right
      by_contra hnone
      apply hdashes
      simp only [Bool.or_eq_true, not_or, bne_iff_ne, ne_eq, not_not] at hnone
      tauto

end Cut

/-! ## Both directions -/

theorem isAsciiHexdigit_of_hexDecode {t x : Bytes} (h : hexDecode t = some x) :
    ∀ c ∈ t, isAsciiHexdigit c = true := by
  induction t using hexDecode.induct generalizing x with
  | case1 =>
    intro c hc
    cases hc
  | case2 c => cases h
  | case3 hi lo rest ih =>
    obtain ⟨m, n, bytes, hm, hn, hbytes, -⟩ := hexDecode_cons_cons h
    intro c hc
    rw [List.mem_cons, List.mem_cons] at hc
    rcases hc with rfl | rfl | hc
    · simp [isAsciiHexdigit, hm]
    · simp [isAsciiHexdigit, hn]
    · exact ih hbytes c hc

theorem hexEncode_lower (b : Bytes) : ∀ c ∈ hexEncode b, ¬ IsUpperHex c := by
  have hdigit : ∀ n < 16, ¬ IsUpperHex (hexDigit n) := by
    simp only [IsUpperHex]
    decide
  intro c hc
  obtain ⟨x, -, hc⟩ := List.mem_flatMap.mp hc
  have hx := x.toNat_lt
  simp only [List.mem_cons, List.not_mem_nil, or_false] at hc
  rcases hc with rfl | rfl
  · exact hdigit _ (by omega)
  · exact hdigit _ (by omega)

theorem exists_hexDecode {t : Bytes} (heven : t.length % 2 = 0)
    (h : ∀ c ∈ t, isAsciiHexdigit c = true) : ∃ x, hexDecode t = some x := by
  induction t using hexDecode.induct with
  | case1 => exact ⟨[], rfl⟩
  | case2 c => simp at heven
  | case3 hi lo rest ih =>
    simp only [List.length_cons] at heven
    obtain ⟨m, hm⟩ := Option.isSome_iff_exists.mp (h hi (by simp))
    obtain ⟨n, hn⟩ := Option.isSome_iff_exists.mp (h lo (by simp))
    obtain ⟨x, hx⟩ := ih (by omega) (fun c hc => h c (by simp [hc]))
    exact ⟨UInt8.ofNat (16 * m + n) :: x, by simp [hexDecode, hm, hn, hx]⟩

/-- The text of an account id in lower case: five groups of digits between four dashes. -/
def IsLowerDashed (t : Bytes) : Prop :=
  ∃ a b c d e : Bytes, t = a ++ dash :: (b ++ dash :: (c ++ dash :: (d ++ dash :: e))) ∧
    a.length = 8 ∧ b.length = 4 ∧ c.length = 4 ∧ d.length = 4 ∧ e.length = 12 ∧
    ∀ k ∈ a ++ b ++ c ++ d ++ e, isAsciiHexdigit k = true ∧ ¬ IsUpperHex k

theorem take_drop_parts (hex : Bytes) :
    hex.take 8 ++ (hex.drop 8).take 4 ++ (hex.drop 12).take 4 ++ (hex.drop 16).take 4 ++
      hex.drop 20 = hex := by
  rw [← List.take_add, ← List.take_add, ← List.take_add, List.take_append_drop]

/-- Sixteen bytes have a lower-case dashed text, and it reads back as them. -/
theorem raw_dashed {b : Bytes} (h : b.length = 16) :
    ∃ t, dashed b = some t ∧ IsLowerDashed t ∧ raw t = some b := by
  have hlen : (hexEncode b).length = 32 := by rw [length_hexEncode, h]
  have hdigits := isAsciiHexdigit_of_hexDecode (hexDecode_hexEncode b)
  refine ⟨_, by rw [dashed, if_neg (by simp [h])], ?_, ?_⟩
  · refine ⟨_, _, _, _, _, rfl, by simp [hlen], by simp [hlen], by simp [hlen], by simp [hlen],
      by simp [hlen], ?_⟩
    rw [take_drop_parts]
    exact fun k hk => ⟨hdigits k hk, hexEncode_lower b k hk⟩
  · refine (raw_cut (by simp [hlen]) (by simp [hlen]) (by simp [hlen]) (by simp [hlen])
      (by simp [hlen])).mpr ⟨⟨rfl, rfl, rfl, rfl⟩, ?_⟩
    rw [take_drop_parts]
    exact ⟨hdigits, hexDecode_hexEncode b⟩

/-- A lower-case dashed text reads as sixteen bytes, and it is their text. -/
theorem dashed_raw {t : Bytes} (h : IsLowerDashed t) :
    ∃ b, raw t = some b ∧ b.length = 16 ∧ dashed b = some t := by
  obtain ⟨a, p, c, d, e, rfl, ha, hp, hc, hd, he, hdigits⟩ := h
  have hlen : (a ++ p ++ c ++ d ++ e).length = 32 := by simp [ha, hp, hc, hd, he]
  obtain ⟨b, hdecode⟩ := exists_hexDecode (by rw [hlen]) (fun k hk => (hdigits k hk).1)
  have hhex := hexEncode_of_hexDecode hdecode (fun k hk => (hdigits k hk).2)
  have hb : b.length = 16 := by
    have := length_of_hexDecode hdecode
    omega
  refine ⟨b, ?_, hb, ?_⟩
  · exact (raw_cut ha hp hc hd he).mpr
      ⟨⟨rfl, rfl, rfl, rfl⟩, fun k hk => (hdigits k hk).1, hdecode⟩
  -- each group stands where `dashed` cuts it out
  · have h12 : (a ++ p).length = 12 := by simp [ha, hp]
    have h16 : (a ++ p ++ c).length = 16 := by simp [ha, hp, hc]
    have h20 : (a ++ p ++ c ++ d).length = 20 := by simp [ha, hp, hc, hd]
    have hpart1 : (hexEncode b).take 8 = a := by
      rw [hhex, List.append_assoc, List.append_assoc, List.append_assoc, List.take_left' ha]
    have hpart2 : ((hexEncode b).drop 8).take 4 = p := by
      rw [hhex, List.append_assoc, List.append_assoc, List.append_assoc, List.drop_left' ha,
        List.take_left' hp]
    have hpart3 : ((hexEncode b).drop 12).take 4 = c := by
      rw [hhex, List.append_assoc, List.append_assoc, List.drop_left' h12, List.take_left' hc]
    have hpart4 : ((hexEncode b).drop 16).take 4 = d := by
      rw [hhex, List.append_assoc, List.drop_left' h16, List.take_left' hd]
    have hpart5 : (hexEncode b).drop 20 = e := by rw [hhex, List.drop_left' h20]
    rw [dashed, if_neg (by simp [hb])]
    simp only [hpart1, hpart2, hpart3, hpart4, hpart5]

end History
