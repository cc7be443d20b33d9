import ConstructCore.Lib.Bytes

/-!
# Message padding

`pad_message` fills a message up to a multiple of the block size with bytes that each
hold the padding length; `unpad_message` checks those bytes and takes them off.
`unpadMessage_padMessage` is the round trip for every block size the scheme allows.
-/

namespace ConstructCore

def defaultBlockSize : Nat := 255

def maxBlockSize : Nat := 255

def maxMessageSize : Nat := 65536

inductive PaddingError where
  | messageTooLarge (got max : Nat)
  | invalidPadding
  | emptyMessage
  | invalidBlockSize (got : Nat)
deriving DecidableEq, Repr

def PaddingError.text : PaddingError → String
  | messageTooLarge got max => s!"Message too large: {got} bytes (max {max})"
  | invalidPadding => "Padding is invalid or corrupted"
  | emptyMessage => "Message is empty"
  | invalidBlockSize got => s!"Block size {got} is not in 1..={maxBlockSize}"

def padMessage (plaintext : Bytes) (blockSize : Nat) : Except PaddingError Bytes :=
  if blockSize = 0 ∨ blockSize > maxBlockSize then .error (.invalidBlockSize blockSize)
  else if plaintext.length > maxMessageSize then
    .error (.messageTooLarge plaintext.length maxMessageSize)
  else
    let blocks := plaintext.length / blockSize + 1
    let paddedLen := blocks * blockSize
    let paddingLen := paddedLen - plaintext.length
    .ok (plaintext ++ List.replicate paddingLen (UInt8.ofNat paddingLen))

def padMessageDefault (plaintext : Bytes) : Except PaddingError Bytes :=
  padMessage plaintext defaultBlockSize

def unpadMessage (padded : Bytes) : Except PaddingError Bytes :=
  match padded.getLast? with
  | none => .error .emptyMessage
  | some last =>
    let paddingLen := last.toNat
    if paddingLen = 0 ∨ paddingLen > padded.length ∨ paddingLen > 255 then
      .error .invalidPadding
    else
      let start := padded.length - paddingLen
      -- the accumulator stays 0 only if every padding byte is the expected one
      let diff := (padded.drop start).foldl (fun d b => d ||| (b ^^^ last)) 0
      if diff ≠ 0 then .error .invalidPadding else .ok (padded.take start)

theorem foldl_diff_replicate (n : Nat) (b : UInt8) :
    (List.replicate n b).foldl (fun d x => d ||| (x ^^^ b)) 0 = 0 := by
  induction n with
  | zero => rfl
  | succ n ih =>
    rw [List.replicate_succ, List.foldl_cons, UInt8.xor_self, UInt8.or_zero]
    exact ih

/-- The padding length is one to a whole block, so it fits the byte that carries it. -/
theorem paddingLen_bounds (len : Nat) {blockSize : Nat} (h0 : blockSize ≠ 0) :
    0 < (len / blockSize + 1) * blockSize - len ∧
      (len / blockSize + 1) * blockSize - len ≤ blockSize := by
  have hlt : len < (len / blockSize + 1) * blockSize := by
    rw [mul_comm]
    exact Nat.lt_mul_div_succ len (Nat.pos_of_ne_zero h0)
  have hle : len / blockSize * blockSize ≤ len := Nat.div_mul_le_self len blockSize
  rw [Nat.succ_mul] at hlt ⊢
  omega

theorem unpadMessage_append_replicate (m : Bytes) {n : Nat} (h0 : 0 < n) (h1 : n ≤ 255) :
    unpadMessage (m ++ List.replicate n (UInt8.ofNat n)) = .ok m := by
  have hbyte : (UInt8.ofNat n).toNat = n := by
    rw [UInt8.toNat_ofNat']
    omega
  have hlast : (m ++ List.replicate n (UInt8.ofNat n)).getLast? = some (UInt8.ofNat n) := by
    rw [List.getLast?_append_of_ne_nil, List.getLast?_replicate, if_neg (by omega)]
    simp only [ne_eq, List.replicate_eq_nil_iff]
    omega
  have hstart : (m ++ List.replicate n (UInt8.ofNat n)).length - n = m.length := by
    simp
  unfold unpadMessage
  simp only [hlast, hbyte, hstart, List.drop_left, List.take_left, foldl_diff_replicate]
  rw [if_neg, if_neg (by simp)]
  simp only [List.length_append, List.length_replicate]
  omega

theorem unpadMessage_padMessage {m padded : Bytes} {blockSize : Nat}
    (h : padMessage m blockSize = .ok padded) : unpadMessage padded = .ok m := by
  unfold padMessage at h
  split at h
  · cases h
  · rename_i hblock
    split at h
    · cases h
    · obtain rfl := Except.ok.inj h
      have hb := paddingLen_bounds m.length (show blockSize ≠ 0 by omega)
      have hmax : blockSize ≤ 255 := by
        unfold maxBlockSize at hblock
        omega
      exact unpadMessage_append_replicate m hb.1 (by omega)

end ConstructCore
