import ConstructCore.Lib.BigEndian
import Mathlib.Data.List.Basic

/-!
# KNST frames

`knst.rs`: the thirty-byte header in front of every message body, and the split of a body into
frames. `parse_frame` is the one fact about the header: what `frame` writes, `Frame::parse` reads.
`flatten_chunks` is the one fact about the split: the first chunks put together are the front of
the body.
-/

namespace ConstructCore

open Bytes

namespace Knst

def magic : Bytes := ofText "KNST"

def version : UInt8 := 1

def headerLen : Nat := 30

def chunkPayloadSize : Nat := 3770

def maxChunks : Nat := 256

structure Frame where
  contentType : UInt8
  messageId : Vector UInt8 16
  chunkIndex : UInt16
  totalChunks : UInt16
  plaintextLength : UInt32
  payload : Bytes
deriving DecidableEq, Repr

/-- `data[start..start + n]`. -/
def field (data : Bytes) (start n : Nat) : Bytes := (data.drop start).take n

def Frame.parse (data : Bytes) : Option Frame := do
  if data.length < headerLen ∨ data.take 4 ≠ magic ∨ data[4]? ≠ some version then none
  else
    let contentType ← data[5]?
    let messageId ← toVector? 16 (field data 6 16)
    return {
      contentType := contentType
      messageId := messageId
      chunkIndex := u16OfBe (field data 22 2)
      totalChunks := u16OfBe (field data 24 2)
      plaintextLength := u32OfBe (field data 26 4)
      payload := data.drop headerLen }

def Frame.controlBody (f : Frame) : Option Bytes :=
  let length := f.plaintextLength.toNat
  if f.totalChunks = 1 ∧ length ≤ f.payload.length then some (f.payload.take length) else none

def frame (body : Bytes) (contentType : UInt8) (messageId : Vector UInt8 16)
    (chunkIndex totalChunks : UInt16) (plaintextLength : UInt32) : Bytes :=
  magic ++ [version] ++ [contentType] ++ messageId.toList ++ u16ToBe chunkIndex ++
    u16ToBe totalChunks ++ u32ToBe plaintextLength ++ body

/-- `u32::try_from`. -/
def u32TryFrom (n : Nat) : Option UInt32 := if n < 2 ^ 32 then some (UInt32.ofNat n) else none

/-- `u16::try_from`. -/
def u16TryFrom (n : Nat) : Option UInt16 := if n < 2 ^ 16 then some (UInt16.ofNat n) else none

def frameWhole (body : Bytes) (contentType : UInt8) (messageId : Vector UInt8 16) :
    Option Bytes := do
  let length ← u32TryFrom body.length
  return frame body contentType messageId 0 1 length

/-- The frames a body takes: `div_ceil`, and one for an empty body. -/
def chunkCount (body : Bytes) : Nat :=
  max ((body.length + (chunkPayloadSize - 1)) / chunkPayloadSize) 1

/-- `body[start..end]` of the frame at index `i`. -/
def chunk (body : Bytes) (i : Nat) : Bytes :=
  let start := i * chunkPayloadSize
  (body.take (min (start + chunkPayloadSize) body.length)).drop start

def encodeChunks (body : Bytes) (contentType : UInt8) (messageId : Vector UInt8 16) :
    Option (List Bytes) := do
  let total := chunkCount body
  if total > maxChunks then none
  else
    let length ← u32TryFrom body.length
    let totalU16 ← u16TryFrom total
    return (List.range total).map fun i =>
      frame (chunk body i) contentType messageId (UInt16.ofNat i) totalU16 length

def controlFrame (plaintext : Bytes) : Option (UInt8 × Bytes) := do
  let f ← Frame.parse plaintext
  let body ← f.controlBody
  return (f.contentType, body)

/-! ## The header -/

theorem field_middle {x y z : Bytes} {start n : Nat} (hx : x.length = start) (hy : y.length = n) :
    field (x ++ (y ++ z)) start n = y := by
  rw [field, List.drop_left' hx, List.take_left' hy]

section Header

variable (body : Bytes) (contentType : UInt8) (messageId : Vector UInt8 16)
  (chunkIndex totalChunks : UInt16) (plaintextLength : UInt32)

theorem parse_frame :
    Frame.parse (frame body contentType messageId chunkIndex totalChunks plaintextLength) =
      some ⟨contentType, messageId, chunkIndex, totalChunks, plaintextLength, body⟩ := by
  generalize hdata : frame body contentType messageId chunkIndex totalChunks plaintextLength = data
  have hmagic : magic.length = 4 := by decide
  -- the header cut at each of its fields in turn
  have hfront : data = magic ++ (version :: contentType :: (messageId.toList ++
      (u16ToBe chunkIndex ++ (u16ToBe totalChunks ++ (u32ToBe plaintextLength ++ body))))) := by
    simp [← hdata, frame]
  have hid : field data 6 16 = messageId.toList := by
    rw [show data = (magic ++ [version, contentType]) ++ (messageId.toList ++ (u16ToBe chunkIndex ++
      (u16ToBe totalChunks ++ (u32ToBe plaintextLength ++ body)))) by simp [hfront]]
    exact field_middle (by simp [hmagic]) (by simp)
  have hindex : field data 22 2 = u16ToBe chunkIndex := by
    rw [show data = (magic ++ [version, contentType] ++ messageId.toList) ++ (u16ToBe chunkIndex ++
      (u16ToBe totalChunks ++ (u32ToBe plaintextLength ++ body))) by simp [hfront]]
    exact field_middle (by simp [hmagic]) (by simp)
  have htotal : field data 24 2 = u16ToBe totalChunks := by
    rw [show data = (magic ++ [version, contentType] ++ messageId.toList ++ u16ToBe chunkIndex) ++
      (u16ToBe totalChunks ++ (u32ToBe plaintextLength ++ body)) by simp [hfront]]
    exact field_middle (by simp [hmagic]) (by simp)
  have hlength : field data 26 4 = u32ToBe plaintextLength := by
    rw [show data = (magic ++ [version, contentType] ++ messageId.toList ++ u16ToBe chunkIndex ++
      u16ToBe totalChunks) ++ (u32ToBe plaintextLength ++ body) by simp [hfront]]
    exact field_middle (by simp [hmagic]) (by simp)
  have hpayload : data.drop headerLen = body := by
    rw [show data = (magic ++ [version, contentType] ++ messageId.toList ++ u16ToBe chunkIndex ++
      u16ToBe totalChunks ++ u32ToBe plaintextLength) ++ body by simp [hfront]]
    exact List.drop_left' (by simp [hmagic, headerLen])
  have htake : data.take 4 = magic := by
    rw [hfront]
    exact List.take_left' hmagic
  have hversion : data[4]? = some version := by
    rw [hfront, List.getElem?_append_right (by omega), hmagic]
    rfl
  have htype : data[5]? = some contentType := by
    rw [hfront, List.getElem?_append_right (by omega), hmagic]
    rfl
  have hlong : ¬ data.length < headerLen := by
    simp [hfront, hmagic, headerLen]
    omega
  have hvector : toVector? 16 messageId.toList = some messageId := toVector?_eq_some.mpr rfl
  unfold Frame.parse
  rw [if_neg (by simp [hlong, htake, hversion])]
  simp only [htype, hid, hvector, hindex, htotal, hlength, hpayload, u16OfBe_u16ToBe,
    u32OfBe_u32ToBe, Option.bind_eq_bind, Option.bind_some]
  rfl

end Header

/-! ## The split -/

theorem flatten_chunks (body : Bytes) (n : Nat) :
    ((List.range n).map (chunk body)).flatten = body.take (n * chunkPayloadSize) := by
  induction n with
  | zero => simp
  | succ n ih =>
    have hchunk : chunk body n = (body.drop (n * chunkPayloadSize)).take chunkPayloadSize := by
      rw [chunk, List.drop_take]
      by_cases hin : n * chunkPayloadSize + chunkPayloadSize ≤ body.length
      · rw [Nat.min_eq_left hin, Nat.add_sub_cancel_left]
      · -- the last chunk is cut at the end of the body
        rw [Nat.min_eq_right (by omega), List.take_of_length_le (by simp),
          List.take_of_length_le (by simp; omega)]
    rw [List.range_succ, List.map_append, List.flatten_append, ih]
    simp only [List.map_cons, List.map_nil, List.flatten_cons, List.flatten_nil,
      List.append_nil, hchunk]
    rw [Nat.succ_mul, List.take_add]

theorem length_le_chunkCount_mul (body : Bytes) :
    body.length ≤ chunkCount body * chunkPayloadSize := by
  simp only [chunkCount, chunkPayloadSize]
  omega

theorem chunkCount_le_maxChunks {body : Bytes} :
    chunkCount body ≤ maxChunks ↔ body.length ≤ maxChunks * chunkPayloadSize := by
  simp only [chunkCount, chunkPayloadSize, maxChunks]
  omega

theorem flatten_chunks_chunkCount (body : Bytes) :
    ((List.range (chunkCount body)).map (chunk body)).flatten = body := by
  rw [flatten_chunks]
  exact List.take_of_length_le (length_le_chunkCount_mul body)

def frames (body : Bytes) (contentType : UInt8) (messageId : Vector UInt8 16) : List Frame :=
  (List.range (chunkCount body)).map fun i =>
    ⟨contentType, messageId, UInt16.ofNat i, UInt16.ofNat (chunkCount body),
      UInt32.ofNat body.length, chunk body i⟩

theorem encodeChunks_eq_none {body : Bytes} (h : ¬ body.length ≤ maxChunks * chunkPayloadSize)
    (contentType : UInt8) (messageId : Vector UInt8 16) :
    encodeChunks body contentType messageId = none := by
  have hmany : chunkCount body > maxChunks := by
    rw [← chunkCount_le_maxChunks] at h
    omega
  rw [encodeChunks]
  exact if_pos hmany

theorem encodeChunks_parse {body : Bytes} (h : body.length ≤ maxChunks * chunkPayloadSize)
    (contentType : UInt8) (messageId : Vector UInt8 16) :
    ∃ encoded, encodeChunks body contentType messageId = some encoded ∧
      encoded.map Frame.parse = (frames body contentType messageId).map some := by
  have hcount := chunkCount_le_maxChunks.mpr h
  have hfew : ¬ chunkCount body > maxChunks := by omega
  have hlen : body.length < 2 ^ 32 := by
    simp only [maxChunks, chunkPayloadSize] at h
    omega
  have htotal : chunkCount body < 2 ^ 16 := by
    simp only [maxChunks] at hcount
    omega
  refine ⟨_, by rw [encodeChunks, if_neg hfew, u32TryFrom, if_pos hlen, u16TryFrom, if_pos htotal];
                rfl, ?_⟩
  rw [List.map_map, frames, List.map_map]
  apply List.map_congr_left
  intro i _
  exact parse_frame _ _ _ _ _ _

/-- **KNST frames reassemble.** A body is encoded exactly when it is at most 256 chunks long. Its
frames then parse, carry the body's id, type, count and length, are numbered from zero, and their
payloads in that order are the body; and a body that fits one frame comes back out of it. -/
theorem frames_reassemble (body : Bytes) (contentType : UInt8) (messageId : Vector UInt8 16) :
    ((encodeChunks body contentType messageId).isSome = true ↔
      body.length ≤ maxChunks * chunkPayloadSize) ∧
    (∀ encoded, encodeChunks body contentType messageId = some encoded →
      ∃ parsed : List Frame, encoded.map Frame.parse = parsed.map some ∧
        parsed.length = chunkCount body ∧
        (∀ f ∈ parsed, f.messageId = messageId ∧ f.contentType = contentType ∧
          f.totalChunks.toNat = chunkCount body ∧ f.plaintextLength.toNat = body.length) ∧
        parsed.map (fun f => f.chunkIndex.toNat) = List.range (chunkCount body) ∧
        (parsed.map Frame.payload).flatten = body) ∧
    (body.length < 2 ^ 32 → ∃ whole, frameWhole body contentType messageId = some whole ∧
      controlFrame whole = some (contentType, body)) := by
  refine ⟨?_, ?_, ?_⟩
  · by_cases hfits : body.length ≤ maxChunks * chunkPayloadSize
    · obtain ⟨encoded, hencoded, -⟩ := encodeChunks_parse hfits contentType messageId
      simp [hencoded, hfits]
    · simp [encodeChunks_eq_none hfits, hfits]
  · intro encoded hencoded
    have hfits : body.length ≤ maxChunks * chunkPayloadSize := by
      by_contra hlong
      rw [encodeChunks_eq_none hlong] at hencoded
      cases hencoded
    have hcount := chunkCount_le_maxChunks.mpr hfits
    simp only [maxChunks, chunkPayloadSize] at hfits hcount
    obtain ⟨encoded', hencoded', hparse⟩ := encodeChunks_parse
      (by simpa only [maxChunks, chunkPayloadSize] using hfits) contentType messageId
    rw [hencoded] at hencoded'
    cases hencoded'
    refine ⟨frames body contentType messageId, hparse, by simp [frames], ?_, ?_, ?_⟩
    · intro f hf
      obtain ⟨i, -, rfl⟩ := List.mem_map.mp hf
      refine ⟨rfl, rfl, ?_, ?_⟩
      · exact UInt16.toNat_ofNat_of_lt' (by simp only [UInt16.size]; omega)
      · exact UInt32.toNat_ofNat_of_lt' (by simp only [UInt32.size]; omega)
    · rw [frames, List.map_map]
      conv_rhs => rw [← List.map_id (List.range (chunkCount body))]
      apply List.map_congr_left
      intro i hi
      have hlt := List.mem_range.mp hi
      exact UInt16.toNat_ofNat_of_lt' (by simp only [UInt16.size]; omega)
    · rw [frames, List.map_map]
      exact flatten_chunks_chunkCount body
  · intro hlen
    refine ⟨_, by rw [frameWhole, u32TryFrom, if_pos hlen]; rfl, ?_⟩
    have hback : (UInt32.ofNat body.length).toNat = body.length :=
      UInt32.toNat_ofNat_of_lt' hlen
    rw [controlFrame, parse_frame]
    simp [Frame.controlBody, hback]

end Knst

end ConstructCore
