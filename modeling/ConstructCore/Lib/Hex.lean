import ConstructCore.Lib.Bytes

/-!
# Reading hexadecimal text

What a text that `hexDecode` accepts is: two digits a byte. A text without upper-case letters is
the one `hexEncode` writes of its bytes.
-/

namespace Bytes

/-- The code of an upper-case hexadecimal letter. -/
def IsUpperHex (c : UInt8) : Prop := 65 ≤ c ∧ c ≤ 70

theorem hexDecode_cons_cons {hi lo : UInt8} {rest x : Bytes}
    (h : hexDecode (hi :: lo :: rest) = some x) :
    ∃ m n bytes, hexValue hi = some m ∧ hexValue lo = some n ∧ hexDecode rest = some bytes ∧
      x = UInt8.ofNat (16 * m + n) :: bytes := by
  rw [hexDecode] at h
  obtain ⟨m, hm, h⟩ := Option.bind_eq_some_iff.mp h
  obtain ⟨n, hn, h⟩ := Option.bind_eq_some_iff.mp h
  obtain ⟨bytes, hbytes, h⟩ := Option.bind_eq_some_iff.mp h
  cases h
  exact ⟨m, n, bytes, hm, hn, hbytes, rfl⟩

theorem hexDecode_eq_nil {a : Bytes} (h : hexDecode a = some []) : a = [] := by
  rcases a with _ | ⟨hi, _ | ⟨lo, rest⟩⟩
  · rfl
  · cases h
  · obtain ⟨m, n, bytes, -, -, -, hx⟩ := hexDecode_cons_cons h
    cases hx

theorem length_of_hexDecode {a x : Bytes} (h : hexDecode a = some x) :
    a.length = 2 * x.length := by
  induction a using hexDecode.induct generalizing x with
  | case1 =>
    cases h
    rfl
  | case2 c => cases h
  | case3 hi lo rest ih =>
    obtain ⟨m, n, bytes, -, -, hbytes, rfl⟩ := hexDecode_cons_cons h
    simp only [List.length_cons, ih hbytes]
    omega

/-- A digit that is no upper-case letter is written the way it was read. -/
theorem hexDigit_of_hexValue {c : UInt8} {n : Nat} (h : hexValue c = some n)
    (hc : ¬ IsUpperHex c) : n < 16 ∧ hexDigit n = c := by
  simp only [IsUpperHex] at hc
  unfold hexValue at h
  simp only [UInt8.le_iff_toNat_le, UInt8.reduceToNat] at h hc
  have hlt := c.toNat_lt
  split at h
  · cases h
    refine ⟨by omega, UInt8.toNat_inj.mp ?_⟩
    rw [hexDigit, if_pos (by omega), UInt8.toNat_ofNat']
    omega
  · split at h
    · cases h
      refine ⟨by omega, UInt8.toNat_inj.mp ?_⟩
      rw [hexDigit, if_neg (by omega), UInt8.toNat_ofNat']
      omega
    · cases h

theorem hexEncode_of_hexDecode {a x : Bytes} (h : hexDecode a = some x)
    (hlower : ∀ c ∈ a, ¬ IsUpperHex c) : hexEncode x = a := by
  induction a using hexDecode.induct generalizing x with
  | case1 =>
    cases h
    rfl
  | case2 c => cases h
  | case3 hi lo rest ih =>
    obtain ⟨m, n, bytes, hm, hn, hbytes, rfl⟩ := hexDecode_cons_cons h
    obtain ⟨hm16, hhi⟩ := hexDigit_of_hexValue hm (hlower hi (by simp))
    obtain ⟨hn16, hlo⟩ := hexDigit_of_hexValue hn (hlower lo (by simp))
    have hbyte : (UInt8.ofNat (16 * m + n)).toNat = 16 * m + n := by
      rw [UInt8.toNat_ofNat', Nat.mod_eq_of_lt (by omega)]
    have hhigh : (16 * m + n) / 16 = m := by omega
    have hlow : (16 * m + n) % 16 = n := by omega
    have hrest := ih hbytes (fun c hc => hlower c (by simp [hc]))
    show hexDigit _ :: hexDigit _ :: hexEncode bytes = _
    rw [hbyte, hhigh, hlow, hhi, hlo, hrest]

end Bytes
