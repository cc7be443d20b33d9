import ConstructCore.Recovery.Shares
import ConstructCore.Recovery.Wordlist

/-!
# Share mnemonics

`encode_share`, `decode_share`, `create_recovery_shares` and `reconstruct_vault_key` of
`crypto/social_recovery.rs`. A share is 35 bytes on the wire, the last two a checksum; the 280
bits are 28 words of ten bits. The checksum's hash is a parameter.
-/

namespace ConstructCore

open Bytes

/-! ## The wire -/

def Share.body (s : Share) : Bytes := s.index :: s.data.toList

def checksum (sha256 : Bytes → Vector UInt8 32) (body : Bytes) : Bytes :=
  [(sha256 body)[0], (sha256 body)[1]]

def shareToWire (sha256 : Bytes → Vector UInt8 32) (s : Share) : Bytes :=
  s.body ++ checksum sha256 s.body

def wireToShare (sha256 : Bytes → Vector UInt8 32) (buf : Bytes) : Except RecoveryError Share :=
  if buf.drop 33 ≠ checksum sha256 (buf.take 33) then .error .checksum
  else if buf.getD 0 0 = 0 then .error .indexZero
  else .ok { index := buf.getD 0 0, data := Vector.ofFn fun pos => buf.getD (1 + pos) 0 }

@[simp] theorem Share.length_body (s : Share) : s.body.length = 33 := by
  simp [Share.body]

@[simp] theorem length_shareToWire (sha256 : Bytes → Vector UInt8 32) (s : Share) :
    (shareToWire sha256 s).length = 35 := by
  simp [shareToWire, checksum]

theorem wireToShare_shareToWire (sha256 : Bytes → Vector UInt8 32) {s : Share}
    (hs : s.index ≠ 0) : wireToShare sha256 (shareToWire sha256 s) = .ok s := by
  have hdrop : (shareToWire sha256 s).drop 33 = checksum sha256 s.body :=
    List.drop_left' s.length_body
  have htake : (shareToWire sha256 s).take 33 = s.body := List.take_left' s.length_body
  unfold wireToShare
  rw [hdrop, htake, if_neg (not_not.mpr rfl)]
  have hindex : (shareToWire sha256 s).getD 0 0 = s.index := rfl
  rw [hindex, if_neg hs]
  have hdata : (Vector.ofFn fun pos : Fin 32 => (shareToWire sha256 s).getD (1 + pos) 0) =
      s.data := by
    refine Vector.ext fun pos hpos => ?_
    have hlen : pos < s.data.toList.length := by simpa using hpos
    rw [Vector.getElem_ofFn, Nat.add_comm]
    change (s.data.toList ++ checksum sha256 s.body).getD pos 0 = _
    rw [List.getD_append _ _ _ _ hlen, List.getD_eq_getElem _ _ hlen, Vector.getElem_toList]
  rw [hdata]

/-! ## Ten bits a word -/

def bitAt (bytes : Bytes) (pos : Nat) : UInt8 :=
  (bytes.getD (pos / 8) 0 >>> UInt8.ofNat (7 - pos % 8)) &&& 1

/-- The inner loop of `bytes_to_word_indices`. -/
def wordIndexLoop (bytes : Bytes) (w n : Nat) : UInt16 :=
  (List.range n).foldl (fun val b => val <<< 1 ||| (bitAt bytes (w * 10 + b)).toUInt16) 0

def wordIndex (bytes : Bytes) (w : Nat) : UInt16 := wordIndexLoop bytes w 10

def bytesToWordIndices (bytes : Bytes) : List UInt16 := (List.range 28).map (wordIndex bytes)

def putBit (result : Bytes) (pos : Nat) (bit : UInt8) : Bytes :=
  result.modify (pos / 8) fun x => x ||| bit <<< UInt8.ofNat (7 - pos % 8)

def wordIndicesToBytes (indices : List UInt16) : Bytes :=
  indices.zipIdx.foldl (fun result p =>
    (List.range 10).foldl (fun result b =>
      putBit result (p.2 * 10 + b) ((p.1 >>> UInt16.ofNat (9 - b)) &&& 1).toUInt8) result)
    (List.replicate 35 0)

theorem bitAt_le_one (bytes : Bytes) (pos : Nat) : (bitAt bytes pos).toNat ≤ 1 := by
  unfold bitAt
  rw [UInt8.toNat_and]
  exact Nat.and_le_right

def ofBits (bits : List Nat) : Nat := bits.foldl (fun v b => 2 * v + b) 0

theorem ofBits_concat (bits : List Nat) (b : Nat) : ofBits (bits ++ [b]) = 2 * ofBits bits + b := by
  simp [ofBits]

theorem ofBits_lt {bits : List Nat} (hbits : ∀ b ∈ bits, b ≤ 1) :
    ofBits bits < 2 ^ bits.length := by
  induction bits using List.reverseRecOn with
  | nil => simp [ofBits]
  | append_singleton bits b ih =>
    have hinit := ih fun c hc => hbits c (List.mem_append_left _ hc)
    have hlast := hbits b (by simp)
    rw [ofBits_concat, List.length_append, List.length_singleton, pow_succ]
    omega

theorem ofBits_bit {bits : List Nat} (hbits : ∀ b ∈ bits, b ≤ 1) {j : Nat} (hj : j < bits.length) :
    ofBits bits / 2 ^ (bits.length - 1 - j) % 2 = bits.getD j 0 := by
  induction bits using List.reverseRecOn with
  | nil => exact absurd hj (Nat.not_lt_zero _)
  | append_singleton bits b ih =>
    have hlast := hbits b (by simp)
    have hinit : ∀ c ∈ bits, c ≤ 1 := fun c hc => hbits c (List.mem_append_left _ hc)
    rw [List.length_append, List.length_singleton] at hj
    rw [ofBits_concat, List.length_append, List.length_singleton, Nat.add_sub_cancel]
    rcases Nat.lt_or_ge j bits.length with hlt | hge
    · -- a bit further up: the last one is shifted out
      have hexp : bits.length - j = (bits.length - 1 - j) + 1 := by omega
      have hhalf : (2 * ofBits bits + b) / 2 = ofBits bits := by omega
      rw [hexp, pow_succ, Nat.mul_comm (2 ^ _), ← Nat.div_div_eq_div_mul, hhalf, ih hinit hlt,
        List.getD_append _ _ _ _ hlt]
    · have hlen : j = bits.length := by omega
      subst hlen
      rw [Nat.sub_self, pow_zero, Nat.div_one, List.getD_append_right _ _ _ _ (Nat.le_refl _),
        Nat.sub_self, List.getD_cons_zero]
      omega

def wordBits (bytes : Bytes) (w n : Nat) : List Nat :=
  (List.range n).map fun b => (bitAt bytes (w * 10 + b)).toNat

theorem wordBits_le_one (bytes : Bytes) (w n : Nat) : ∀ b ∈ wordBits bytes w n, b ≤ 1 := by
  intro b hb
  obtain ⟨i, -, rfl⟩ := List.mem_map.mp hb
  exact bitAt_le_one bytes _

theorem toNat_wordIndexLoop (bytes : Bytes) (w : Nat) {n : Nat} (hn : n ≤ 16) :
    (wordIndexLoop bytes w n).toNat = ofBits (wordBits bytes w n) := by
  induction n with
  | zero => rfl
  | succ n ih =>
    have hlt := ofBits_lt (wordBits_le_one bytes w n)
    have hbit := bitAt_le_one bytes (w * 10 + n)
    have hpow : 2 ^ n ≤ 2 ^ 15 := Nat.pow_le_pow_right (by decide) (by omega)
    simp only [wordBits, List.length_map, List.length_range] at hlt
    have hbits : wordBits bytes w (n + 1) =
        wordBits bytes w n ++ [(bitAt bytes (w * 10 + n)).toNat] := by
      simp [wordBits, List.range_succ]
    have hloop : wordIndexLoop bytes w (n + 1) =
        wordIndexLoop bytes w n <<< 1 ||| (bitAt bytes (w * 10 + n)).toUInt16 := by
      simp [wordIndexLoop, List.range_succ]
    rw [hbits, ofBits_concat, hloop, UInt16.toNat_or, UInt16.toNat_shiftLeft, ih (by omega)]
    have hshift : ofBits (wordBits bytes w n) <<< ((1 : UInt16).toNat % 16) % 2 ^ 16 =
        ofBits (wordBits bytes w n) <<< 1 := by
      rw [show (1 : UInt16).toNat % 16 = 1 from rfl, Nat.shiftLeft_eq]
      exact Nat.mod_eq_of_lt (by simp only [wordBits]; omega)
    rw [hshift, UInt8.toNat_toUInt16,
      ← Nat.shiftLeft_add_eq_or_of_lt (by omega : (bitAt bytes (w * 10 + n)).toNat < 2 ^ 1),
      Nat.shiftLeft_eq]
    omega

theorem toNat_wordIndex (bytes : Bytes) (w : Nat) :
    (wordIndex bytes w).toNat = ofBits (wordBits bytes w 10) :=
  toNat_wordIndexLoop bytes w (n := 10) (by decide)

theorem wordIndex_lt (bytes : Bytes) (w : Nat) : (wordIndex bytes w).toNat < 1024 := by
  rw [toNat_wordIndex]
  exact lt_of_lt_of_eq (ofBits_lt (wordBits_le_one bytes w 10)) (by simp [wordBits])

theorem wordIndex_bit (bytes : Bytes) (w : Nat) {b : Nat} (hb : b < 10) :
    ((wordIndex bytes w >>> UInt16.ofNat (9 - b)) &&& 1).toUInt8 = bitAt bytes (w * 10 + b) := by
  have hlen : (wordBits bytes w 10).length = 10 := by simp [wordBits]
  have hbit := ofBits_bit (wordBits_le_one bytes w 10) (hlen.symm ▸ hb)
  have hshift : (UInt16.ofNat (9 - b)).toNat % 16 = 9 - b := by
    rw [UInt16.toNat_ofNat']
    omega
  apply UInt8.toNat_inj.mp
  rw [UInt16.toNat_toUInt8, UInt16.toNat_and, UInt16.toNat_shiftRight, hshift, toNat_wordIndex,
    Nat.shiftRight_eq_div_pow]
  simp only [hlen] at hbit
  have hget : (wordBits bytes w 10).getD b 0 = (bitAt bytes (w * 10 + b)).toNat := by
    simp [wordBits, hb]
  rw [hget] at hbit
  rw [show (1 : UInt16).toNat = 1 from rfl, Nat.and_one_is_mod, hbit]
  have := bitAt_le_one bytes (w * 10 + b)
  omega

/-! ## Unpacking -/

theorem modify_append_cons {α : Type} (f : α → α) (before after : List α) (x : α) :
    (before ++ x :: after).modify before.length f = before ++ f x :: after := by
  induction before with
  | nil => rfl
  | cons b before ih => simpa using ih

theorem foldl_modify_append {α β : Type} (f : β → α → α) (js : List β) (before after : List α)
    (x : α) :
    js.foldl (fun r j => r.modify before.length (f j)) (before ++ x :: after) =
      before ++ js.foldl (fun y j => f j y) x :: after := by
  induction js generalizing x with
  | nil => rfl
  | cons j js ih =>
    rw [List.foldl_cons, List.foldl_cons, modify_append_cons, ih]

theorem foldl_bits_byte (x : UInt8) :
    (List.range 8).foldl (fun y j =>
      y ||| ((x >>> UInt8.ofNat (7 - j)) &&& 1) <<< UInt8.ofNat (7 - j)) 0 = x := by
  have hall : ∀ n < 256, (List.range 8).foldl (fun y j =>
      y ||| ((UInt8.ofNat n >>> UInt8.ofNat (7 - j)) &&& 1) <<< UInt8.ofNat (7 - j)) 0 =
        UInt8.ofNat n := by
    decide +kernel
  simpa using hall x.toNat x.toNat_lt

theorem foldl_putBit_byte (bytes before after : Bytes) {k : Nat} (hk : before.length = k) :
    ((List.range 8).map (8 * k + ·)).foldl (fun r p => putBit r p (bitAt bytes p))
      (before ++ 0 :: after) = before ++ bytes.getD k 0 :: after := by
  subst hk
  rw [List.foldl_map]
  have hpos : ∀ j ∈ List.range 8, ∀ r : Bytes,
      putBit r (8 * before.length + j) (bitAt bytes (8 * before.length + j)) =
        r.modify before.length fun y => y |||
          ((bytes.getD before.length 0 >>> UInt8.ofNat (7 - j)) &&& 1) <<< UInt8.ofNat (7 - j) := by
    intro j hj r
    rw [List.mem_range] at hj
    have hdiv : (8 * before.length + j) / 8 = before.length := by omega
    have hmod : (8 * before.length + j) % 8 = j := by omega
    rw [putBit, bitAt, hdiv, hmod]
  rw [List.foldl_ext _ _ _ fun r j hj => hpos j hj r, foldl_modify_append, foldl_bits_byte]

/-- After the bits of the first `k` bytes, those bytes stand and the rest is zero. -/
theorem foldl_putBit (bytes : Bytes) (hlen : bytes.length = 35) {k : Nat} (hk : k ≤ 35) :
    (List.range (8 * k)).foldl (fun r p => putBit r p (bitAt bytes p)) (List.replicate 35 0) =
      bytes.take k ++ List.replicate (35 - k) 0 := by
  induction k with
  | zero => simp
  | succ k ih =>
    have hrest : List.replicate (35 - k) (0 : UInt8) = 0 :: List.replicate (35 - (k + 1)) 0 := by
      rw [← List.replicate_succ]
      congr 1
      omega
    have hrange : List.range (8 * (k + 1)) =
        List.range (8 * k) ++ (List.range 8).map (8 * k + ·) := by
      rw [Nat.mul_succ, List.range_add]
    have htake : bytes.take (k + 1) = bytes.take k ++ [bytes.getD k 0] := by
      rw [List.take_succ_eq_append_getElem (by omega), List.getD_eq_getElem _ _ (by omega)]
    rw [hrange, List.foldl_append, ih (by omega), hrest,
      foldl_putBit_byte bytes _ _ (by rw [List.length_take]; omega), htake]
    simp

theorem zipIdx_bytesToWordIndices (bytes : Bytes) :
    (bytesToWordIndices bytes).zipIdx = (List.range 28).map fun w => (wordIndex bytes w, w) := by
  apply List.ext_getElem
  · simp [bytesToWordIndices]
  · intro i h₁ h₂
    simp [bytesToWordIndices]

theorem wordIndicesToBytes_bytesToWordIndices {bytes : Bytes} (hlen : bytes.length = 35) :
    wordIndicesToBytes (bytesToWordIndices bytes) = bytes := by
  have hinner : ∀ (r : Bytes) (w : Nat),
      (List.range 10).foldl (fun r b => putBit r (w * 10 + b)
          ((wordIndex bytes w >>> UInt16.ofNat (9 - b)) &&& 1).toUInt8) r =
        ((List.range 10).map (w * 10 + ·)).foldl (fun r p => putBit r p (bitAt bytes p)) r := by
    intro r w
    rw [List.foldl_map]
    apply List.foldl_ext
    intro r' b hb
    rw [wordIndex_bit bytes w (List.mem_range.mp hb)]
  have hpositions : (List.range 28).flatMap (fun w => (List.range 10).map (w * 10 + ·)) =
      List.range (8 * 35) := by
    decide +kernel
  unfold wordIndicesToBytes
  rw [zipIdx_bytesToWordIndices, List.foldl_map]
  simp only [hinner]
  rw [← List.foldl_flatMap, hpositions, foldl_putBit bytes hlen (Nat.le_refl _)]
  simp [← hlen]

/-! ## Words -/

/-- The length of the white space a text starts with, 0 for none: `char::is_whitespace` on the
UTF-8 bytes. -/
def whitespaceLen (text : Bytes) : Nat :=
  let a := text.getD 0 0
  let b := text.getD 1 0
  let c := text.getD 2 0
  if (9 ≤ a ∧ a ≤ 13) ∨ a = 0x20 then 1
  else if a = 0xC2 ∧ (b = 0x85 ∨ b = 0xA0) then 2
  else if (a = 0xE1 ∧ b = 0x9A ∧ c = 0x80) ∨
      (a = 0xE2 ∧ b = 0x80 ∧ ((0x80 ≤ c ∧ c ≤ 0x8A) ∨ c = 0xA8 ∨ c = 0xA9 ∨ c = 0xAF)) ∨
      (a = 0xE2 ∧ b = 0x81 ∧ c = 0x9F) ∨ (a = 0xE3 ∧ b = 0x80 ∧ c = 0x80) then 3
  else 0

def flush (word : Bytes) : List Bytes := if word.isEmpty then [] else [word]

/-- `skip` bytes of a white space are still to pass; `word` has been read. -/
def splitLoop : Nat → Bytes → Bytes → List Bytes
  | _, word, [] => flush word
  | skip + 1, word, _ :: rest => splitLoop skip word rest
  | 0, word, b :: rest =>
    match whitespaceLen (b :: rest) with
    | 0 => splitLoop 0 (word ++ [b]) rest
    | n + 1 => flush word ++ splitLoop n [] rest

def splitWhitespace (text : Bytes) : List Bytes := splitLoop 0 [] text

theorem whitespaceLen_lower {b : UInt8} (hb : isLower b = true) (rest : Bytes) :
    whitespaceLen (b :: rest) = 0 := by
  simp only [isLower, Bool.and_eq_true, Nat.ble_eq] at hb
  have hne : ∀ c : UInt8, c.toNat < 97 ∨ 122 < c.toNat → b ≠ c := by
    rintro c hc rfl
    omega
  have hascii : ¬ ((9 ≤ b ∧ b ≤ 13) ∨ b = 0x20) := by
    rintro (⟨-, h⟩ | h)
    · rw [UInt8.le_iff_toNat_le] at h
      have : (13 : UInt8).toNat = 13 := rfl
      omega
    · exact hne _ (by decide) h
  simp only [whitespaceLen, List.getD_cons_zero, if_neg hascii, hne 0xC2 (by decide),
    hne 0xE1 (by decide), hne 0xE2 (by decide), hne 0xE3 (by decide), false_and, or_self, if_false]

theorem splitLoop_lower {w : Bytes} (hw : ∀ b ∈ w, isLower b = true) (word rest : Bytes) :
    splitLoop 0 word (w ++ rest) = splitLoop 0 (word ++ w) rest := by
  induction w generalizing word with
  | nil => simp
  | cons b w ih =>
    rw [List.cons_append, splitLoop, whitespaceLen_lower (hw b (by simp))]
    rw [ih (fun c hc => hw c (List.mem_cons_of_mem _ hc)), List.append_assoc]
    rfl

theorem splitLoop_space (word rest : Bytes) :
    splitLoop 0 word (0x20 :: rest) = flush word ++ splitLoop 0 [] rest := by
  have hspace : whitespaceLen (0x20 :: rest) = 1 := by
    simp [whitespaceLen]
  rw [splitLoop, hspace]

/-- `words.join(" ")`. -/
def joinWords (words : List Bytes) : Bytes := List.intercalate [0x20] words

theorem splitWhitespace_joinWords {words : List Bytes}
    (hwords : ∀ w ∈ words, w ≠ [] ∧ ∀ b ∈ w, isLower b = true) :
    splitWhitespace (joinWords words) = words := by
  unfold splitWhitespace joinWords
  induction words with
  | nil => rfl
  | cons w words ih =>
    obtain ⟨hne, hlower⟩ := hwords w (by simp)
    have hflush : flush w = [w] := by simp [flush, hne]
    have hrest := ih fun v hv => hwords v (List.mem_cons_of_mem _ hv)
    cases words with
    | nil =>
      have := splitLoop_lower hlower [] []
      rw [List.append_nil, List.nil_append] at this
      rw [List.intercalate_singleton, this, splitLoop, hflush]
    | cons v words =>
      rw [List.intercalate_cons_cons, List.append_assoc, splitLoop_lower hlower,
        List.nil_append, List.singleton_append, splitLoop_space, hflush, hrest]
      rfl

/-! ## Encoding and decoding -/

section Codec

variable (sha256 : Bytes → Vector UInt8 32)

def encodeShare (s : Share) : Bytes :=
  joinWords ((bytesToWordIndices (shareToWire sha256 s)).map fun i => wordlist.getD i.toNat [])

def wordPosition (word : Bytes) : Except RecoveryError UInt16 :=
  if word ∈ wordlist then .ok (UInt16.ofNat (wordlist.idxOf word)) else .error (.unknownWord word)

def decodeShare (mnemonic : Bytes) : Except RecoveryError Share := do
  let words := splitWhitespace mnemonic
  if words.length ≠ 28 then .error (.wordCount words.length)
  else
    let indices ← words.mapM wordPosition
    wireToShare sha256 (wordIndicesToBytes indices)

def createRecoveryShares (vaultKey : Vector UInt8 32) (threshold shareCount : UInt8)
    (draw : Fin 32 → Fin (threshold.toNat - 1) → UInt8) : Except RecoveryError (List Bytes) := do
  let shares ← splitSecret vaultKey threshold shareCount draw
  return shares.map (encodeShare sha256)

def reconstructVaultKey (mnemonics : List Bytes) : Except RecoveryError (Vector UInt8 32) := do
  let shares ← mnemonics.mapM (decodeShare sha256)
  combineShares shares

theorem wordlist_getD_mem {i : Nat} (hi : i < 1024) : wordlist.getD i [] ∈ wordlist := by
  have hlt : i < wordlist.length := by rw [length_wordlist]; exact hi
  rw [List.getD_eq_getElem _ _ hlt]
  exact List.getElem_mem hlt

theorem wordPosition_wordlist {i : UInt16} (hi : i.toNat < 1024) :
    wordPosition (wordlist.getD i.toNat []) = .ok i := by
  have hlt : i.toNat < wordlist.length := by rw [length_wordlist]; exact hi
  have hpos : wordlist.idxOf (wordlist.getD i.toNat []) = i.toNat := by
    rw [List.getD_eq_getElem _ _ hlt]
    exact nodup_wordlist.idxOf_getElem _ hlt
  unfold wordPosition
  rw [if_pos (wordlist_getD_mem hi), hpos, UInt16.ofNat_toNat]

theorem mapM_wordPosition {indices : List UInt16} (hind : ∀ i ∈ indices, i.toNat < 1024) :
    (indices.map fun i => wordlist.getD i.toNat []).mapM wordPosition = .ok indices := by
  induction indices with
  | nil => rfl
  | cons i indices ih =>
    rw [List.map_cons, List.mapM_cons, wordPosition_wordlist (hind i (by simp)),
      ih fun j hj => hind j (List.mem_cons_of_mem _ hj)]
    rfl

theorem decodeShare_encodeShare {s : Share} (hs : s.index ≠ 0) :
    decodeShare sha256 (encodeShare sha256 s) = .ok s := by
  have hlt : ∀ i ∈ bytesToWordIndices (shareToWire sha256 s), i.toNat < 1024 := by
    intro i hi
    obtain ⟨w, -, rfl⟩ := List.mem_map.mp hi
    exact wordIndex_lt _ w
  have hsplit : splitWhitespace (encodeShare sha256 s) =
      (bytesToWordIndices (shareToWire sha256 s)).map fun i => wordlist.getD i.toNat [] := by
    apply splitWhitespace_joinWords
    intro w hw
    obtain ⟨i, hi, rfl⟩ := List.mem_map.mp hw
    exact wordlist_lower (wordlist_getD_mem (hlt i hi))
  have hlen : (splitWhitespace (encodeShare sha256 s)).length = 28 := by
    rw [hsplit]
    simp [bytesToWordIndices]
  unfold decodeShare
  simp only [hlen, ne_eq, not_true_eq_false, if_false]
  rw [hsplit, mapM_wordPosition hlt]
  change wireToShare sha256 (wordIndicesToBytes _) = _
  rw [wordIndicesToBytes_bytesToWordIndices (length_shareToWire sha256 s),
    wireToShare_shareToWire sha256 hs]

theorem mapM_decodeShare {shares : List Share} (hshares : ∀ s ∈ shares, s.index ≠ 0) :
    (shares.map (encodeShare sha256)).mapM (decodeShare sha256) = .ok shares := by
  induction shares with
  | nil => rfl
  | cons s shares ih =>
    rw [List.map_cons, List.mapM_cons, decodeShare_encodeShare sha256 (hshares s (by simp)),
      ih fun j hj => hshares j (List.mem_cons_of_mem _ hj)]
    rfl

theorem exists_map_of_subset {α β : Type} {f : α → β} {as : List α} {bs : List β}
    (h : bs ⊆ as.map f) : ∃ picked, picked ⊆ as ∧ bs = picked.map f := by
  induction bs with
  | nil => exact ⟨[], List.nil_subset _, rfl⟩
  | cons b bs ih =>
    rw [List.cons_subset] at h
    obtain ⟨a, ha, rfl⟩ := List.mem_map.mp h.1
    obtain ⟨picked, hpicked, rfl⟩ := ih h.2
    exact ⟨a :: picked, List.cons_subset.mpr ⟨ha, hpicked⟩, rfl⟩

theorem nodup_shareIndices {shareCount : UInt8} : (shareIndices shareCount).Nodup := by
  have hlt := shareCount.toNat_lt
  refine (List.nodup_range).map_on fun i hi j hj heq => ?_
  rw [List.mem_range] at hi hj
  have := congrArg UInt8.toNat heq
  simp only [UInt8.toNat_ofNat'] at this
  omega

/-- **Social recovery reconstructs.** Whatever the secret, the coefficients drawn and the
admissible threshold and share count, as many different mnemonics come out as asked for, and any
`threshold` of them or more, in any order, give the secret back. -/
theorem reconstructVaultKey_of_created (vaultKey : Vector UInt8 32) (threshold shareCount : UInt8)
    (draw : Fin 32 → Fin (threshold.toNat - 1) → UInt8) (htwo : 2 ≤ threshold)
    (hle : threshold ≤ shareCount) (hten : shareCount ≤ 10) :
    ∃ mnemonics, createRecoveryShares sha256 vaultKey threshold shareCount draw = .ok mnemonics ∧
      mnemonics.Nodup ∧ mnemonics.length = shareCount.toNat ∧
      ∀ picked : List Bytes, picked ⊆ mnemonics → picked.Nodup →
        threshold.toNat ≤ picked.length → reconstructVaultKey sha256 picked = .ok vaultKey := by
  rw [UInt8.le_iff_toNat_le] at htwo hle hten
  have htwo' : 2 ≤ threshold.toNat := htwo
  have hten' : shareCount.toNat ≤ 10 := hten
  have hsplit : splitSecret vaultKey threshold shareCount draw =
      .ok ((shareIndices shareCount).map (shareAt vaultKey draw)) := by
    have hrange : 2 ≤ threshold ∧ threshold ≤ 10 :=
      ⟨htwo, UInt8.le_iff_toNat_le.mpr (hle.trans hten)⟩
    have hcount : ¬ (shareCount < threshold ∨ 10 < shareCount) := by
      rw [UInt8.lt_iff_toNat_lt, UInt8.lt_iff_toNat_lt]
      exact not_or.mpr ⟨by omega, Nat.not_lt.mpr hten⟩
    unfold splitSecret
    rw [if_neg (not_not.mpr hrange), if_neg hcount]
  have hdecoded : ∀ indices : List UInt8, (∀ x ∈ indices, x ≠ 0) →
      (indices.map fun x => encodeShare sha256 (shareAt vaultKey draw x)).mapM
        (decodeShare sha256) = .ok (indices.map (shareAt vaultKey draw)) := by
    intro indices hne
    have hshares : ∀ s ∈ indices.map (shareAt vaultKey draw), s.index ≠ 0 := by
      intro s hs
      obtain ⟨x, hx, rfl⟩ := List.mem_map.mp hs
      exact hne x hx
    have hmap := mapM_decodeShare sha256 hshares
    rwa [List.map_map] at hmap
  have hne : ∀ x ∈ shareIndices shareCount, x ≠ 0 := fun x hx => (mem_shareIndices.mp hx).1
  refine ⟨(shareIndices shareCount).map fun x => encodeShare sha256 (shareAt vaultKey draw x),
    ?_, ?_, ?_, ?_⟩
  · unfold createRecoveryShares
    rw [hsplit]
    simp [pure, Except.pure, bind, Except.bind, Function.comp_def]
  · -- a mnemonic tells its share, a share its index
    refine nodup_shareIndices.map_on fun x hx y hy heq => ?_
    have hdec := congrArg (decodeShare sha256) heq
    rw [decodeShare_encodeShare sha256 (hne x hx), decodeShare_encodeShare sha256 (hne y hy)] at hdec
    exact congrArg Share.index (Except.ok.inj hdec)
  · simp [shareIndices]
  · intro picked hsub hnd hlen
    obtain ⟨indices, hind, rfl⟩ := exists_map_of_subset hsub
    have hne' : ∀ x ∈ indices, x ≠ 0 := fun x hx => hne x (hind hx)
    rw [List.length_map] at hlen
    unfold reconstructVaultKey
    rw [hdecoded indices hne']
    exact combineShares_shareAt vaultKey draw (hnd.of_map _) hne' (by omega) (by omega)

end Codec

/-- Two of three, picked in the other order. -/
theorem reconstructVaultKey_of_created_two :
    ∃ mnemonics, createRecoveryShares (fun _ => Vector.replicate 32 9) (Vector.replicate 32 7) 2 3
        (fun _ _ => 5) = .ok mnemonics ∧
      reconstructVaultKey (fun _ => Vector.replicate 32 9) (mnemonics.drop 1).reverse =
        .ok (Vector.replicate 32 7) := by
  obtain ⟨mnemonics, hcreated, hnd, hlen, hpick⟩ :=
    reconstructVaultKey_of_created (fun _ => Vector.replicate 32 9) (Vector.replicate 32 7) 2 3
      (fun _ _ => 5) (by decide) (by decide) (by decide)
  have hlen' : mnemonics.length = 3 := hlen
  refine ⟨mnemonics, hcreated, hpick _ ?_ ?_ ?_⟩
  · exact fun m hm => List.mem_of_mem_drop (List.mem_reverse.mp hm)
  · exact List.nodup_reverse.mpr (hnd.sublist (List.drop_sublist _ _))
  · rw [List.length_reverse, List.length_drop, hlen']
    decide

end ConstructCore
