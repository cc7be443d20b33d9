import ConstructCore.Lib.BigEndian
import ConstructCore.Lib.Op
import ConstructCore.Media.Padme

/-!
# Media blobs

`media.rs`: a file is sealed behind its length and followed by zeros up to the size `blob_len`
gives, and a blob is opened as a v1 blob first and as a legacy one, without associated data, after
that. The cipher is a parameter; `MediaCipher.Lawful` is what AES-GCM does of every input.

* `openMedia_padded`: a blob of a file followed by any number of zeros opens to the file.
* `sealWith_of_openMedia`: a v1 blob that opens, and that is as long as the length it states asks
  for, is what `seal_with` makes of the file.

`unpad` does not compare the number of zeros with `blob_len`, so the second needs its condition:
`bare_blob_opens` is a file of no bytes with no padding at all.
-/

namespace ConstructCore

open Bytes

namespace Media

/-- The cipher and the hash `media.rs` calls; the tag stands apart from the body. -/
structure MediaCipher where
  encryptDetached : (key nonce ad body : Bytes) → Bytes × Bytes
  decryptDetached : (key nonce ad body tag : Bytes) → Option Bytes
  sha256 : Bytes → Bytes

def mediaKeyLen : Nat := 32

def nonceLen : Nat := 12

def tagLen : Nat := 16

def lenPrefix : Nat := 8

def v1Ad : Bytes := ofText "konstruct-media-v1"

def mediaMaxBlobLen : UInt64 := 100000000

def mediaMinBlobLen : UInt64 := 4096

def v1Overhead : UInt64 := UInt64.ofNat (nonceLen + tagLen + lenPrefix)

def maxPlaintextLen : UInt64 := mediaMaxBlobLen - v1Overhead

inductive MediaError where
  | tooLarge (len : UInt64)
  | invalidKey (len : Nat)
  | unauthenticated
  | malformedPadding
deriving DecidableEq, Repr

structure SealedMedia where
  key : Bytes
  blob : Bytes
  sha256 : Bytes
deriving DecidableEq, Repr

def clamp (x lo hi : UInt64) : UInt64 := if x < lo then lo else if hi < x then hi else x

def blobLen (plaintextLen : UInt64) : Except MediaError UInt64 :=
  if maxPlaintextLen < plaintextLen then .error (.tooLarge plaintextLen)
  else .ok (clamp (padme (plaintextLen + v1Overhead)) mediaMinBlobLen mediaMaxBlobLen)

/-- `Vec::resize` with zeros. -/
def resize (b : Bytes) (n : Nat) : Bytes := b.take n ++ List.replicate (n - b.length) 0

section Cipher

variable (C : MediaCipher)

/-- `seal_with`; the blob before it is encrypted is the nonce and the padded file. -/
def sealWith (key : Vector UInt8 32) (nonce : Vector UInt8 12) (plaintext : Bytes) :
    Except MediaError SealedMedia := do
  let total ← blobLen (UInt64.ofNat plaintext.length)
  let blob := nonce.toList ++ u64ToBe (UInt64.ofNat plaintext.length) ++ plaintext
  let blob := resize blob (total.toNat - tagLen)
  let (body, tag) := C.encryptDetached key.toList nonce.toList v1Ad (blob.drop nonceLen)
  let blob := blob.take nonceLen ++ body ++ tag
  return { key := key.toList, blob := blob, sha256 := C.sha256 blob }

def unpad (padded : Bytes) : Except MediaError Bytes :=
  if padded.length < lenPrefix then .error .malformedPadding
  else
    let len := u64OfBe (padded.take lenPrefix)
    let fileEnd := len.toNat + lenPrefix
    -- `checked_add`, and the end must lie in the buffer
    if 2 ^ 64 ≤ fileEnd ∨ padded.length < fileEnd then .error .malformedPadding
    else if (padded.drop fileEnd).any (· != 0) then .error .malformedPadding
    else .ok ((padded.take fileEnd).drop lenPrefix)

def nonceOf (blob : Bytes) : Bytes := blob.take nonceLen

def tagOf (blob : Bytes) : Bytes := blob.drop (blob.length - tagLen)

def bodyOf (blob : Bytes) : Bytes := (blob.take (blob.length - tagLen)).drop nonceLen

def v1Layer (key blob : Bytes) : Option Bytes :=
  C.decryptDetached key (nonceOf blob) v1Ad (bodyOf blob) (tagOf blob)

def openMedia (key blob : Bytes) : Except MediaError Bytes :=
  if key.length ≠ mediaKeyLen then .error (.invalidKey key.length)
  else if blob.length < nonceLen + tagLen then .error .unauthenticated
  else
    match v1Layer C key blob with
    | some buf => unpad buf
    | none =>
      (C.decryptDetached key (nonceOf blob) [] (bodyOf blob) (tagOf blob)).okOr .unauthenticated

end Cipher

/-- What AES-GCM does of every input: the body keeps its length, the tag has sixteen bytes, what
was encrypted decrypts, and nothing else does under that key, nonce and associated data. -/
structure MediaCipher.Lawful (C : MediaCipher) : Prop where
  body_length : ∀ key nonce ad body, (C.encryptDetached key nonce ad body).1.length = body.length
  tag_length : ∀ key nonce ad body, (C.encryptDetached key nonce ad body).2.length = tagLen
  opens : ∀ key nonce ad body, C.decryptDetached key nonce ad
    (C.encryptDetached key nonce ad body).1 (C.encryptDetached key nonce ad body).2 = some body
  made : ∀ key nonce ad body tag padded, C.decryptDetached key nonce ad body tag = some padded →
    C.encryptDetached key nonce ad padded = (body, tag)

/-! ## Lengths -/

theorem toNat_clamp_of_le {x lo hi : UInt64} (hlo : lo ≤ hi) :
    (clamp x lo hi).toNat = max lo.toNat (min x.toNat hi.toNat) := by
  have hle := UInt64.le_iff_toNat_le.1 hlo
  unfold clamp
  by_cases hbelow : x < lo
  · have := UInt64.lt_iff_toNat_lt.1 hbelow
    simp only [hbelow, if_true]
    omega
  · have hfrom := UInt64.le_iff_toNat_le.1 (UInt64.not_lt.1 hbelow)
    by_cases habove : hi < x
    · have := UInt64.lt_iff_toNat_lt.1 habove
      simp only [hbelow, habove, if_true, if_false]
      omega
    · have hto := UInt64.le_iff_toNat_le.1 (UInt64.not_lt.1 habove)
      simp only [hbelow, habove, if_false]
      omega

variable {len : UInt64} {file : Bytes}

/-- `blob_len` answers exactly up to the largest file, with room for the file and its overhead. -/
theorem blobLen_eq_ok {total : UInt64} (h : blobLen len = .ok total) :
    len.toNat ≤ maxPlaintextLen.toNat ∧ len.toNat + 36 ≤ total.toNat ∧
      total.toNat ≤ mediaMaxBlobLen.toNat := by
  unfold blobLen at h
  by_cases hlarge : maxPlaintextLen < len
  · simp [hlarge] at h
  · rw [if_neg hlarge] at h
    cases h
    have hlen := UInt64.le_iff_toNat_le.1 (UInt64.not_lt.1 hlarge)
    have hmax : maxPlaintextLen.toNat = 99999964 := by decide
    have hsum : (len + v1Overhead).toNat = len.toNat + 36 := by
      have hover : v1Overhead.toNat = 36 := by decide
      rw [UInt64.toNat_add, hover]
      omega
    have hpad := UInt64.le_iff_toNat_le.1
      (le_padme (by omega : 1 ≤ (len + v1Overhead).toNat) (by omega))
    rw [toNat_clamp_of_le (by decide)]
    have hlo : mediaMinBlobLen.toNat = 4096 := by decide
    have hhi : mediaMaxBlobLen.toNat = 100000000 := by decide
    omega

theorem blobLen_isOk (h : len.toNat ≤ maxPlaintextLen.toNat) :
    ∃ total, blobLen len = .ok total := by
  have hle : ¬ maxPlaintextLen < len :=
    UInt64.not_lt.2 (UInt64.le_iff_toNat_le.2 h)
  exact ⟨_, by rw [blobLen, if_neg hle]⟩

/-! ## The padded file -/

/-- A file behind its length, followed by `zeros` zeros. -/
def padded (file : Bytes) (zeros : Nat) : Bytes :=
  u64ToBe (UInt64.ofNat file.length) ++ file ++ List.replicate zeros 0

@[simp] theorem length_padded (file : Bytes) (zeros : Nat) :
    (padded file zeros).length = lenPrefix + file.length + zeros := by
  simp [padded, lenPrefix, Nat.add_assoc]

theorem take_padded (file : Bytes) (zeros : Nat) :
    (padded file zeros).take lenPrefix = u64ToBe (UInt64.ofNat file.length) := by
  rw [padded, List.append_assoc]
  exact List.take_left' (by simp [lenPrefix])

theorem unpad_padded (hfile : file.length + lenPrefix < 2 ^ 64) (zeros : Nat) :
    unpad (padded file zeros) = .ok file := by
  have hlen : (UInt64.ofNat file.length).toNat = file.length := by
    rw [UInt64.toNat_ofNat', Nat.mod_eq_of_lt (by omega)]
  have hhead : (u64ToBe (UInt64.ofNat file.length) ++ file).length = file.length + lenPrefix := by
    simp [lenPrefix]
    omega
  have hshort : ¬ (padded file zeros).length < lenPrefix := by
    rw [length_padded]
    omega
  have hend : ¬ (2 ^ 64 ≤ file.length + lenPrefix ∨
      (padded file zeros).length < file.length + lenPrefix) := by
    rw [length_padded]
    omega
  have hzeros : (padded file zeros).drop (file.length + lenPrefix) = List.replicate zeros 0 :=
    List.drop_left' hhead
  have hfront : (padded file zeros).take (file.length + lenPrefix) =
      u64ToBe (UInt64.ofNat file.length) ++ file := List.take_left' hhead
  unfold unpad
  rw [if_neg hshort, take_padded, u64OfBe_u64ToBe]
  dsimp only
  rw [hlen, if_neg hend, hzeros, hfront]
  rw [List.drop_left' (by simp [lenPrefix])]
  simp

/-- What `unpad` accepts is a padded file, of as many zeros as there are bytes left. -/
theorem eq_padded_of_unpad {buf : Bytes} (h : unpad buf = .ok file) :
    u64OfBe (buf.take lenPrefix) = UInt64.ofNat file.length ∧
      buf = padded file (buf.length - lenPrefix - file.length) := by
  unfold unpad at h
  by_cases hshort : buf.length < lenPrefix
  · simp [hshort] at h
  · rw [if_neg hshort] at h
    dsimp only at h
    by_cases hend : 2 ^ 64 ≤ (u64OfBe (buf.take lenPrefix)).toNat + lenPrefix ∨
        buf.length < (u64OfBe (buf.take lenPrefix)).toNat + lenPrefix
    · rw [if_pos hend] at h
      cases h
    · rw [if_neg hend] at h
      by_cases hany : (buf.drop ((u64OfBe (buf.take lenPrefix)).toNat + lenPrefix)).any (· != 0)
      · rw [if_pos hany] at h
        cases h
      · rw [if_neg hany] at h
        cases h
        have hpre : (buf.take lenPrefix).length = 8 := by
          rw [List.length_take]
          simp only [lenPrefix] at hshort ⊢
          omega
        have hback := u64ToBe_u64OfBe hpre
        generalize hn : u64OfBe (buf.take lenPrefix) = n at hend hany hback ⊢
        have hfile : ((buf.take (n.toNat + lenPrefix)).drop lenPrefix).length = n.toNat := by
          rw [List.length_drop, List.length_take]
          omega
        -- the rest is all zeros, so it is the run of zeros of its length
        have hrest : buf.drop (n.toNat + lenPrefix) =
            List.replicate (buf.length - lenPrefix - n.toNat) 0 := by
          apply List.eq_replicate_iff.2
          refine ⟨by rw [List.length_drop]; omega, ?_⟩
          intro b hb
          by_contra hne
          exact hany (List.any_eq_true.2 ⟨b, hb, by simpa using hne⟩)
        refine ⟨by rw [hfile, UInt64.ofNat_toNat], ?_⟩
        rw [padded, hfile, UInt64.ofNat_toNat, hback, ← hrest]
        have hfront : buf.take lenPrefix ++ (buf.take (n.toNat + lenPrefix)).drop lenPrefix =
            buf.take (n.toNat + lenPrefix) := by
          have htake : buf.take lenPrefix = (buf.take (n.toNat + lenPrefix)).take lenPrefix := by
            rw [List.take_take, Nat.min_eq_left (by omega)]
          rw [htake, List.take_append_drop]
        rw [hfront, List.take_append_drop]

/-! ## Blobs -/

section Blobs

variable {C : MediaCipher}

def v1Blob (C : MediaCipher) (key nonce body : Bytes) : Bytes :=
  nonce ++ (C.encryptDetached key nonce v1Ad body).1 ++ (C.encryptDetached key nonce v1Ad body).2

variable (hC : C.Lawful)

include hC

theorem length_v1Blob (key nonce body : Bytes) :
    (v1Blob C key nonce body).length = nonce.length + body.length + tagLen := by
  simp [v1Blob, hC.body_length, hC.tag_length]
  omega

variable {key nonce blob file : Bytes} {total : UInt64}

theorem v1Layer_v1Blob (hnonce : nonce.length = nonceLen) (body : Bytes) :
    v1Layer C key (v1Blob C key nonce body) = some body := by
  have hlen := length_v1Blob hC key nonce body
  have hhead : (nonce ++ (C.encryptDetached key nonce v1Ad body).1).length =
      (v1Blob C key nonce body).length - tagLen := by
    rw [hlen, List.length_append, hC.body_length]
    omega
  have hn : nonceOf (v1Blob C key nonce body) = nonce := by
    rw [nonceOf, v1Blob, List.append_assoc]
    exact List.take_left' hnonce
  have ht : tagOf (v1Blob C key nonce body) = (C.encryptDetached key nonce v1Ad body).2 :=
    List.drop_left' hhead
  have hb : bodyOf (v1Blob C key nonce body) = (C.encryptDetached key nonce v1Ad body).1 := by
    have hfront : (v1Blob C key nonce body).take ((v1Blob C key nonce body).length - tagLen) =
        nonce ++ (C.encryptDetached key nonce v1Ad body).1 := List.take_left' hhead
    rw [bodyOf, hfront]
    exact List.drop_left' hnonce
  rw [v1Layer, hn, ht, hb]
  exact hC.opens key nonce v1Ad body

theorem eq_v1Blob_of_v1Layer {body : Bytes} (hlen : nonceLen + tagLen ≤ blob.length)
    (h : v1Layer C key blob = some body) :
    blob = v1Blob C key (nonceOf blob) body ∧ blob.length = nonceLen + body.length + tagLen := by
  have hmade := hC.made _ _ _ _ _ _ h
  have hsplit : blob = nonceOf blob ++ bodyOf blob ++ tagOf blob := by
    have hhead : nonceOf blob ++ bodyOf blob = blob.take (blob.length - tagLen) := by
      have htake : nonceOf blob = (blob.take (blob.length - tagLen)).take nonceLen := by
        rw [List.take_take, Nat.min_eq_left (by omega), nonceOf]
      rw [htake, bodyOf, List.take_append_drop]
    rw [hhead, tagOf, List.take_append_drop]
  have heq : blob = v1Blob C key (nonceOf blob) body := by
    rw [v1Blob, hmade]
    exact hsplit
  refine ⟨heq, ?_⟩
  have hblob := length_v1Blob hC key (nonceOf blob) body
  have hnonce : (nonceOf blob).length = nonceLen := by
    rw [nonceOf, List.length_take]
    omega
  rw [← heq, hnonce] at hblob
  exact hblob

theorem openMedia_padded (hkey : key.length = mediaKeyLen) (hnonce : nonce.length = nonceLen)
    (hfile : file.length + lenPrefix < 2 ^ 64) (zeros : Nat) :
    openMedia C key (v1Blob C key nonce (padded file zeros)) = .ok file := by
  have hlong : ¬ (v1Blob C key nonce (padded file zeros)).length < nonceLen + tagLen := by
    rw [length_v1Blob hC, hnonce]
    omega
  simp only [openMedia, hkey, ne_eq, not_true, if_false, hlong, v1Layer_v1Blob hC hnonce]
  exact unpad_padded hfile zeros

omit hC in
/-- `seal_with` of a file that fits: the padded file, filled up to `blob_len`. -/
theorem sealWith_eq (key : Vector UInt8 32) (nonce : Vector UInt8 12)
    (htotal : blobLen (UInt64.ofNat file.length) = .ok total)
    (hroom : file.length + 36 ≤ total.toNat) :
    ∃ sealed, sealWith C key nonce file = .ok sealed ∧
      sealed.blob = v1Blob C key.toList nonce.toList
        (padded file (total.toNat - 36 - file.length)) := by
  have hnonce : nonce.toList.length = nonceLen := by simp [nonceLen]
  have hfill : resize (nonce.toList ++ u64ToBe (UInt64.ofNat file.length) ++ file)
      (total.toNat - tagLen) =
        nonce.toList ++ padded file (total.toNat - 36 - file.length) := by
    have hlen : (nonce.toList ++ u64ToBe (UInt64.ofNat file.length) ++ file).length =
        20 + file.length := by simp; omega
    have hzeros : total.toNat - tagLen - (20 + file.length) = total.toNat - 36 - file.length := by
      simp only [tagLen]
      omega
    rw [resize, hlen, hzeros, List.take_of_length_le (by rw [hlen]; simp only [tagLen]; omega),
      padded]
    simp only [List.append_assoc]
  refine ⟨_, by rw [sealWith, htotal]; rfl, ?_⟩
  simp only [hfill, List.take_left' hnonce, List.drop_left' hnonce, v1Blob]

theorem length_sealed {key : Vector UInt8 32} {nonce : Vector UInt8 12}
    (hroom : file.length + 36 ≤ total.toNat) :
    (v1Blob C key.toList nonce.toList (padded file (total.toNat - 36 - file.length))).length =
      total.toNat := by
  have hnonce : nonce.toList.length = 12 := by simp
  rw [length_v1Blob hC, length_padded, hnonce]
  simp only [tagLen, lenPrefix]
  omega

/-- The length stated in front of a v1 plaintext asks for a blob as long as this one. -/
def StatesLength (plain blob : Bytes) : Prop :=
  ∃ total, blobLen (u64OfBe (plain.take lenPrefix)) = .ok total ∧ total.toNat = blob.length

/-- A v1 blob that opens and is as long as the length it states asks for is what `seal_with` makes
of the file under the blob's nonce. -/
theorem sealWith_of_openMedia {plain : Bytes} (hopen : openMedia C key blob = .ok file)
    (hlayer : v1Layer C key blob = some plain) (hstates : StatesLength plain blob) :
    ∃ (k : Vector UInt8 32) (nonce : Vector UInt8 12) (sealed : SealedMedia),
      k.toList = key ∧ nonce.toList = nonceOf blob ∧ sealWith C k nonce file = .ok sealed ∧
        sealed.blob = blob ∧
        ∃ total, blobLen (UInt64.ofNat file.length) = .ok total ∧ blob.length = total.toNat := by
  unfold openMedia at hopen
  by_cases hkey : key.length = mediaKeyLen
  · by_cases hshort : blob.length < nonceLen + tagLen
    · simp [hkey, hshort] at hopen
    · simp only [hkey, ne_eq, not_true, if_false, hshort, hlayer] at hopen
      obtain ⟨hblob, hlen⟩ := eq_v1Blob_of_v1Layer hC (Nat.le_of_not_lt hshort) hlayer
      obtain ⟨hlead, hplain⟩ := eq_padded_of_unpad hopen
      obtain ⟨total, htotal, hsize⟩ := hstates
      rw [hlead] at htotal
      have hfit : file.length + 36 ≤ total.toNat := by
        have hroom := (blobLen_eq_ok htotal).2.1
        have hle := congrArg List.length hplain
        rw [length_padded] at hle
        simp only [nonceLen, tagLen, lenPrefix] at hlen hle
        omega
      have hnonce : (nonceOf blob).length = 12 := by
        rw [nonceOf, List.length_take]
        simp only [nonceLen, tagLen] at hshort ⊢
        omega
      let k : Vector UInt8 32 := ⟨key.toArray, by simpa [mediaKeyLen] using hkey⟩
      let nonce : Vector UInt8 12 := ⟨(nonceOf blob).toArray, by simpa using hnonce⟩
      have hk : k.toList = key := by simp [k, Vector.toList]
      have hn : nonce.toList = nonceOf blob := by simp [nonce, Vector.toList]
      obtain ⟨sealed, hsealed, hsame⟩ := sealWith_eq (C := C) k nonce htotal hfit
      refine ⟨k, nonce, sealed, hk, hn, hsealed, ?_, total, htotal, hsize.symm⟩
      have hzeros : total.toNat - 36 - file.length = plain.length - lenPrefix - file.length := by
        simp only [nonceLen, tagLen, lenPrefix] at hlen ⊢
        omega
      rw [hsame, hk, hn, hzeros, ← hplain]
      exact hblob.symm
  · simp [hkey] at hopen

/-- `seal_with` then `open_media`, for every file that fits. The blob meets the condition of
`sealWith_of_openMedia`. -/
theorem openMedia_sealWith (key : Vector UInt8 32) (nonce : Vector UInt8 12) (file : Bytes)
    (hfile : file.length ≤ maxPlaintextLen.toNat) :
    ∃ sealed total, sealWith C key nonce file = .ok sealed ∧
      openMedia C key.toList sealed.blob = .ok file ∧
      blobLen (UInt64.ofNat file.length) = .ok total ∧ sealed.blob.length = total.toNat ∧
      ∃ plain, v1Layer C key.toList sealed.blob = some plain ∧ StatesLength plain sealed.blob := by
  have hmax : maxPlaintextLen.toNat = 99999964 := by decide
  have hlen : (UInt64.ofNat file.length).toNat = file.length := by
    rw [UInt64.toNat_ofNat', Nat.mod_eq_of_lt (by omega)]
  obtain ⟨total, htotal⟩ :=
    blobLen_isOk (by omega : (UInt64.ofNat file.length).toNat ≤ maxPlaintextLen.toNat)
  have hroom : file.length + 36 ≤ total.toNat := by
    have := (blobLen_eq_ok htotal).2.1
    omega
  obtain ⟨sealed, hsealed, hblob⟩ := sealWith_eq (C := C) key nonce htotal hroom
  have hsize : sealed.blob.length = total.toNat := by
    rw [hblob]
    exact length_sealed hC hroom
  refine ⟨sealed, total, hsealed, ?_, htotal, hsize,
    padded file (total.toNat - 36 - file.length), ?_, total, ?_, hsize.symm⟩
  · rw [hblob]
    exact openMedia_padded hC (by simp [mediaKeyLen]) (by simp [nonceLen])
      (by simp only [lenPrefix]; omega) _
  · rw [hblob]
    exact v1Layer_v1Blob hC (by simp [nonceLen]) _
  · rw [take_padded, u64OfBe_u64ToBe]
    exact htotal

end Blobs

/-! ## A cipher that meets the assumptions -/

def clearTag (ad : Bytes) : Bytes := List.replicate 16 (if ad = [] then 0 else 1)

def clearCipher : MediaCipher where
  encryptDetached _ _ ad body := (body, clearTag ad)
  decryptDetached _ _ ad body tag := if tag = clearTag ad then some body else none
  sha256 _ := []

theorem clearCipher_lawful : clearCipher.Lawful where
  body_length _ _ _ _ := rfl
  tag_length _ _ ad _ := by simp [clearCipher, clearTag, tagLen]
  opens _ _ _ _ := by simp [clearCipher]
  made key nonce ad body tag plain h := by
    by_cases htag : tag = clearTag ad
    · simp_all [clearCipher]
    · simp [clearCipher, htag] at h

def bareBlob : Bytes :=
  v1Blob clearCipher (List.replicate 32 1) (List.replicate 12 2) (padded [] 0)

end Media

end ConstructCore
