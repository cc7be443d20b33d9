import ConstructCore.History.Sending

/-!
# A history transfer, end to end

The receiver gathers a length prefix, a chunk, a length prefix, and so on: `Receiver.resumable`
makes it independent of how the bytes arrive. Of honest bytes it opens every chunk
(`Receiver.feed_chunks`). Of any bytes at all, `Follows` holds as long as no feed has failed: the
chunks opened so far are the first ones the sender sealed, and the events returned so far are
what the reader reports of them. The end marker is not authenticated, but it is taken only from a
reader that has read the End record.
-/

namespace History

open Bytes Incremental

/-! ## The AEAD -/

/-- What is used of ChaCha20-Poly1305 of any input: the lengths. -/
structure Aead.Sized (A : Aead) : Prop where
  ciphertext_length : ∀ key nonce aad p, (A.encrypt key nonce aad p).1.length = p.length
  tag_length : ∀ key nonce aad p, (A.encrypt key nonce aad p).2.length = tagLen

/-- The AEAD is ideal for the cipher's key, under which the plaintexts `ps` were sealed, each
under its index: what opens under an index is the plaintext sealed under it, from its own
ciphertext and tag. -/
def Aead.Ideal (A : Aead) (c : ChunkCipher) (ps : List Bytes) : Prop :=
  ∀ index ciphertext tag p,
    A.decrypt c.key (nonce index) (c.aad index) ciphertext tag = some p ↔
      ps[index.toNat]? = some p ∧
        (ciphertext, tag) = A.encrypt c.key (nonce index) (c.aad index) p

theorem length_nonce (index : UInt32) : (nonce index).length = nonceLen := by
  unfold nonce
  rw [List.length_append, length_u32ToLe, List.length_replicate]
  rfl

namespace ChunkCipher

variable {A : Aead} {c c' : ChunkCipher} {p : Bytes}

theorem length_sealed (hA : A.Sized) (index : UInt32) :
    (c.sealed A index p).length = nonceLen + p.length + tagLen := by
  show (nonce index ++ ((A.encrypt c.key (nonce index) (c.aad index) p).1 ++
    (A.encrypt c.key (nonce index) (c.aad index) p).2)).length = _
  rw [List.length_append, List.length_append, length_nonce, hA.ciphertext_length, hA.tag_length]
  omega

variable {ps : List Bytes}

theorem openNext_sealed (hA : A.Sized) (hideal : A.Ideal c ps) (hp : ps[c.index.toNat]? = some p)
    (hne : p ≠ []) (hlen : p.length ≤ chunkPlaintext) (hindex : c.index.toNat + 1 < 2 ^ 32) :
    openNext A (c.sealed A c.index p) c = .ok p { c with index := c.index + 1 } := by
  have hpos := List.length_pos_iff.mpr hne
  have hsize := length_sealed (c := c) (p := p) hA c.index
  have hnonce := length_nonce c.index
  have hsealed : c.sealed A c.index p =
      nonce c.index ++ ((A.encrypt c.key (nonce c.index) (c.aad c.index) p).1 ++
        (A.encrypt c.key (nonce c.index) (c.aad c.index) p).2) := rfl
  have htag := hA.tag_length c.key (nonce c.index) (c.aad c.index) p
  have hdecrypt := (hideal c.index _ _ p).mpr ⟨hp, rfl⟩
  have hrange : ¬ ((c.sealed A c.index p).length < nonceLen + tagLen + 1 ∨
      maxSealedChunk < (c.sealed A c.index p).length) := by
    rw [hsize]
    unfold maxSealedChunk
    omega
  have htake : (c.sealed A c.index p).take nonceLen = nonce c.index := by
    rw [hsealed, ← hnonce, List.take_left]
  have htagAt : (c.sealed A c.index p).length - tagLen = (nonce c.index ++
      (A.encrypt c.key (nonce c.index) (c.aad c.index) p).1).length := by
    rw [hsealed]
    simp only [List.length_append]
    omega
  have hbody : ((c.sealed A c.index p).take ((c.sealed A c.index p).length - tagLen)).drop nonceLen =
      (A.encrypt c.key (nonce c.index) (c.aad c.index) p).1 := by
    rw [htagAt, hsealed, ← List.append_assoc, List.take_left, ← hnonce, List.drop_left]
  have htagBytes : (c.sealed A c.index p).drop ((c.sealed A c.index p).length - tagLen) =
      (A.encrypt c.key (nonce c.index) (c.aad c.index) p).2 := by
    rw [htagAt, hsealed, ← List.append_assoc, List.drop_left]
  have hnext : nextIndex c = .ok c.index { c with index := c.index + 1 } := by
    unfold nextIndex
    rw [Op.get_bind_eq_ok, UInt32.checkedSucc_eq_some hindex]
    rfl
  unfold openNext
  dsimp only
  rw [if_neg hrange, Op.bind_eq_ok]
  refine ⟨_, _, hnext, ?_⟩
  rw [if_neg (not_not.mpr htake), Op.get_bind_eq_ok, hbody, htagBytes]
  have haad : { c with index := c.index + 1 }.aad c.index = c.aad c.index := rfl
  dsimp only
  rw [haad]
  rw [hdecrypt]
  rfl

theorem openNext_ideal {sealed : Bytes} (hideal : A.Ideal c ps) (h : openNext A sealed c = .ok p c') :
    ps[c.index.toNat]? = some p ∧
      ∃ i, c' = { c with index := i } ∧ i.toNat = c.index.toNat + 1 := by
  unfold openNext at h
  dsimp only at h
  rw [Op.ite_eq_ok] at h
  obtain ⟨-, h⟩ | ⟨-, h⟩ := h
  · cases h
  obtain ⟨index, c₁, hindex, h⟩ := Op.bind_eq_ok.mp h
  obtain ⟨rfl, i, rfl, hi⟩ := nextIndex_ok hindex
  rw [Op.ite_eq_ok] at h
  obtain ⟨-, h⟩ | ⟨-, h⟩ := h
  · cases h
  rw [Op.get_bind_eq_ok] at h
  have haad : { c with index := i }.aad c.index = c.aad c.index := rfl
  dsimp only at h
  rw [haad] at h
  cases hplain : A.decrypt c.key (nonce c.index) (c.aad c.index)
      ((sealed.take (sealed.length - tagLen)).drop nonceLen)
      (sealed.drop (sealed.length - tagLen)) with
  | none =>
    rw [hplain] at h
    cases h
  | some plain =>
    rw [hplain] at h
    cases h
    exact ⟨((hideal c.index _ _ p).mp hplain).1, i, rfl, hi⟩

end ChunkCipher

/-! ## The receiver between two steps -/

namespace Receiver

variable {A : Aead} {r r' : Receiver} {d : Bytes} {out : List Event}

/-- Between two steps the receiver lacks a byte of a prefix or of a chunk, or is done. -/
def Waiting (r : Receiver) : Prop :=
  match r.state with
  | .chunkLen => r.buf.length < lenPrefix
  | .chunk len => r.buf.length < len
  | .done => True
  | .failed _ => False

theorem waiting_cases (h : r.Waiting) : r.state = .done ∨ 0 < r.need := by
  unfold Waiting at h
  unfold need
  cases hstate : r.state with
  | chunkLen =>
    rw [hstate] at h
    exact .inr (Nat.sub_pos_of_lt h)
  | chunk len =>
    rw [hstate] at h
    exact .inr (Nat.sub_pos_of_lt h)
  | done => exact .inl rfl
  | failed f =>
    rw [hstate] at h
    exact h.elim

theorem step_gather (d : Bytes) :
    r.step A d = gather r.need (fun z => { r with buf := r.buf ++ z })
      (fun z => r.complete A (r.buf ++ z)) d := by
  unfold step
  dsimp only
  rcases Nat.lt_or_ge d.length r.need with hlt | hge
  · rw [gather_of_lt hlt, Nat.min_eq_right (Nat.le_of_lt hlt), if_pos (by omega), List.take_length,
      List.drop_length]
  · rw [gather_of_le hge, Nat.min_eq_left hge, if_neg (by omega)]

theorem step_of_done (h : r.state = .done) (d : Bytes) : r.step A d = .error .malformed := by
  have hneed : r.need = 0 := by
    unfold need
    rw [h]
  unfold step
  dsimp only
  rw [hneed, Nat.zero_min, if_neg (Nat.lt_irrefl 0)]
  unfold complete
  rw [h]
  rfl

theorem sealedLen_ok {b : Bytes} {len : Nat} (h : sealedLen b = .ok (some len)) : 0 < len := by
  unfold sealedLen at h
  dsimp only at h
  split at h
  · cases h
  split at h
  · cases h
  · cases h
    omega

/-- What a complete prefix or chunk may lead to. -/
inductive Completed (A : Aead) (r : Receiver) (buf : Bytes) : Receiver → List Event → Prop
  | announced (len : Nat) (hstate : r.state = .chunkLen) (hlen : sealedLen buf = .ok (some len)) :
      Completed A r buf { r with buf := [], state := .chunk len } []
  | ended (reader : Reader) (hstate : r.state = .chunkLen)
      (hfinish : r.reader.finish = (reader, .ok ())) :
      Completed A r buf { r with buf := [], reader, state := .done } []
  | opened (len : Nat) (plain : Bytes) (cipher : ChunkCipher) (reader : Reader)
      (events : List Event) (hstate : r.state = .chunk len)
      (hopen : ChunkCipher.openNext A buf r.cipher = .ok plain cipher)
      (hpush : r.reader.push plain = some (reader, events, .ok ())) :
      Completed A r buf { r with buf := [], cipher, reader, state := .chunkLen } events

variable {buf : Bytes} {ps : List Bytes} {reader : Reader}

theorem complete_ok (h : r.complete A buf = .ok (r', out)) :
    Completed A r buf r' out := by
  unfold complete at h
  cases hstate : r.state with
  | chunkLen =>
    rw [hstate] at h
    dsimp only at h
    cases hlen : sealedLen buf with
    | error f =>
      rw [hlen] at h
      cases h
    | ok o =>
      rw [hlen] at h
      cases o with
      | some len =>
        cases h
        exact .announced len hstate hlen
      | none =>
        dsimp only at h
        cases hfinish : r.reader.finish with
        | mk reader res =>
          rw [hfinish] at h
          cases res with
          | error f => cases h
          | ok u =>
            cases h
            exact .ended reader hstate hfinish
  | chunk len =>
    rw [hstate] at h
    dsimp only at h
    cases hopen : ChunkCipher.openNext A buf r.cipher with
    | error f c =>
      rw [hopen] at h
      cases h
    | ok plain cipher =>
      rw [hopen] at h
      dsimp only at h
      cases hpush : r.reader.push plain with
      | none =>
        rw [hpush] at h
        cases h
      | some v =>
        obtain ⟨reader, events, res⟩ := v
        rw [hpush] at h
        cases res with
        | error f => cases h
        | ok u =>
          cases h
          exact .opened len plain cipher reader out hstate hopen hpush
  | done =>
    rw [hstate] at h
    cases h
  | failed f =>
    rw [hstate] at h
    cases h

theorem Completed.waiting (h : Completed A r buf r' out) : r'.Waiting := by
  cases h with
  | announced len _ hlen => exact sealedLen_ok hlen
  | ended => trivial
  | opened => exact (by decide : 0 < lenPrefix)

theorem resumable : Resumable (step A) (fun e : Event => [e]) Waiting where
  keeps {r d r' rest out} hr hd h := by
    rcases waiting_cases hr with hdone | hneed
    · rw [step_of_done hdone] at h
      cases h
    · rw [step_gather] at h
      obtain ⟨hlen, ⟨hlt, rfl⟩ | hcomplete⟩ := gather_ok hneed hd h
      · refine ⟨?_, hlen⟩
        unfold need at hlt
        unfold Waiting
        cases hstate : r.state with
        | chunkLen =>
          rw [hstate] at hlt
          simp only [List.length_append]
          dsimp only at hlt
          omega
        | chunk len =>
          rw [hstate] at hlt
          simp only [List.length_append]
          dsimp only at hlt
          omega
        | done => trivial
        | failed f =>
          unfold Waiting at hr
          rw [hstate] at hr
          exact hr.elim
      · exact ⟨(complete_ok hcomplete).waiting, hlen⟩
  resumes {r x y} hr _ _ := by
    rcases waiting_cases hr with hdone | hneed
    · exact .fails .malformed (step_of_done hdone x) (step_of_done hdone (x ++ y))
    · refine .of_gather (step_gather x) (step_gather (x ++ y)) fun _ => ?_
      have hneed' : need { r with buf := r.buf ++ x } = r.need - x.length := by
        unfold need
        cases r.state with
        | chunkLen =>
          dsimp only
          rw [List.length_append, Nat.sub_sub]
        | chunk len =>
          dsimp only
          rw [List.length_append, Nat.sub_sub]
        | done => exact (Nat.zero_sub _).symm
        | failed f => exact (Nat.zero_sub _).symm
      rw [step_gather, hneed']
      simp only [List.append_assoc]
      rfl

/-! ## Honest chunks -/

theorem step_front {front : Bytes} (hbuf : r.buf = []) (hneed : r.need = front.length)
    (hcomplete : r.complete A front = .ok (r', out)) (rest : Bytes) :
    r.step A (front ++ rest) = .ok (r', rest, out) := by
  rw [step_gather, gather_of_le (by rw [hneed, List.length_append]; omega), hneed, hbuf,
    List.take_left, List.drop_left, List.nil_append, hcomplete]
  rfl

theorem sealedLen_chunk {n : Nat} (hpos : 0 < n) (hle : n ≤ chunkPlaintext) :
    sealedLen (leBytes 4 (nonceLen + n + tagLen)) = .ok (some (nonceLen + n + tagLen)) := by
  have hmax : chunkPlaintext = 65536 := rfl
  have hnonce : nonceLen = 12 := rfl
  have htag : tagLen = 16 := rfl
  have hread : ofLeBytes (leBytes 4 (nonceLen + n + tagLen)) = nonceLen + n + tagLen := by
    rw [ofLeBytes_leBytes]
    exact Nat.mod_eq_of_lt (by omega)
  unfold sealedLen maxSealedChunk
  dsimp only
  rw [hread, if_neg (by omega), if_neg (by omega)]

theorem feed_chunk {p rest : Bytes} (hA : A.Sized) (hideal : A.Ideal r.cipher ps)
    (hstate : r.state = .chunkLen) (hbuf : r.buf = []) (hp : ps[r.cipher.index.toNat]? = some p)
    (hne : p ≠ []) (hlen : p.length ≤ chunkPlaintext) (hindex : r.cipher.index.toNat + 1 < 2 ^ 32)
    (hreader : r.reader.Resting)
    (hfeed : Incremental.feed Reader.step r.reader p = some (out, .ok reader)) :
    Incremental.feed (step A) r (r.cipher.chunk A r.cipher.index p ++ rest) =
      (Incremental.feed (step A)
        { r with cipher := { r.cipher with index := r.cipher.index + 1 }, reader } rest).map
        (Fed.after out) := by
  have hpos := List.length_pos_iff.mpr hne
  have hlead : (leBytes 4 (nonceLen + p.length + tagLen)).length = 4 := length_leBytes _ _
  have hwaiting : r.Waiting := by
    unfold Waiting
    rw [hstate, hbuf]
    exact (by decide : 0 < lenPrefix)
  -- the length prefix
  have hfirst : r.step A (r.cipher.chunk A r.cipher.index p ++ rest) =
      .ok ({ r with state := .chunk (nonceLen + p.length + tagLen) },
        r.cipher.sealed A r.cipher.index p ++ rest, []) := by
    unfold ChunkCipher.chunk
    rw [List.append_assoc]
    refine step_front hbuf ?_ ?_ _
    · unfold need
      rw [hstate, hbuf, hlead]
      rfl
    · unfold complete
      rw [hstate]
      dsimp only
      rw [sealedLen_chunk hpos hlen]
      dsimp only
      rw [← hbuf]
  -- what stands behind it
  have hsecond : step A { r with state := .chunk (nonceLen + p.length + tagLen) }
      (r.cipher.sealed A r.cipher.index p ++ rest) =
      .ok ({ r with cipher := { r.cipher with index := r.cipher.index + 1 }, reader }, rest, out) := by
    refine step_front (r := { r with state := .chunk (nonceLen + p.length + tagLen) }) hbuf ?_ ?_ _
    · unfold need
      dsimp only
      rw [hbuf, ChunkCipher.length_sealed hA]
      rfl
    · unfold complete
      dsimp only
      rw [ChunkCipher.openNext_sealed hA hideal hp hne hlen hindex]
      dsimp only
      rw [Reader.push_of_feed hreader hfeed]
      dsimp only
      rw [← hbuf, ← hstate]
  have hmiddle : Waiting { r with state := .chunk (nonceLen + p.length + tagLen) } := by
    show r.buf.length < nonceLen + p.length + tagLen
    rw [hbuf, List.length_nil]
    omega
  have hne₁ : r.cipher.chunk A r.cipher.index p ++ rest ≠ [] := by
    rw [← List.length_pos_iff]
    unfold ChunkCipher.chunk
    rw [List.length_append, List.length_append, hlead]
    omega
  have hne₂ : r.cipher.sealed A r.cipher.index p ++ rest ≠ [] := by
    rw [← List.length_pos_iff, List.length_append, ChunkCipher.length_sealed hA]
    omega
  rw [resumable.feed_of_ok hwaiting hne₁ hfirst, resumable.feed_of_ok hmiddle hne₂ hsecond,
    Option.map_map]
  congr 1

theorem feed_eof (hstate : r.state = .chunkLen) (hbuf : r.buf = [])
    (hreader : r.reader.state = .done) :
    Incremental.feed (step A) r eof = some ([], .ok { r with state := .done }) := by
  have hwaiting : r.Waiting := by
    unfold Waiting
    rw [hstate, hbuf]
    exact (by decide : 0 < lenPrefix)
  have hfinish : r.reader.finish = (r.reader, .ok ()) := by
    unfold Reader.finish
    rw [hreader]
  have hstep : r.step A (eof ++ []) = .ok ({ r with state := .done }, [], []) := by
    refine step_front hbuf ?_ ?_ _
    · unfold need
      rw [hstate, hbuf]
      rfl
    · unfold complete
      rw [hstate, show sealedLen eof = .ok none from rfl]
      dsimp only
      rw [hfinish]
      dsimp only
      rw [← hbuf]
  have hne : eof ++ [] ≠ [] := List.cons_ne_nil _ _
  rw [← List.append_nil eof, resumable.feed_of_ok hwaiting hne hstep]
  rfl

/-- The chunks of plaintexts that the reader takes to the end, and the end marker. -/
theorem feed_chunks {qs : List Bytes} (hA : A.Sized) (hideal : A.Ideal r.cipher ps)
    (hstate : r.state = .chunkLen) (hbuf : r.buf = []) (hqs : ps.drop r.cipher.index.toNat = qs)
    (hsize : ∀ p ∈ ps, p ≠ [] ∧ p.length ≤ chunkPlaintext) (hindex : ps.length < 2 ^ 32)
    (hreader : r.reader.Resting) (hfed : feedAll Reader.step r.reader qs = some (out, .ok reader))
    (hdone : reader.state = .done) :
    ∃ q, Incremental.feed (step A) r (r.cipher.chunks A r.cipher.index.toNat qs ++ eof) =
      some (out, .ok q) ∧ q.state = .done := by
  induction qs generalizing r out with
  | nil =>
    cases hfed
    exact ⟨_, feed_eof hstate hbuf hdone, rfl⟩
  | cons p qs ih =>
    have hp : ps[r.cipher.index.toNat]? = some p := by
      rw [← List.head?_drop, hqs]
      rfl
    obtain ⟨hlt, -⟩ := List.getElem?_eq_some_iff.mp hp
    have hmem : p ∈ ps := List.mem_of_getElem? hp
    obtain ⟨hne, hlen⟩ := hsize p hmem
    obtain ⟨⟨first, res⟩, hfeed, hinv⟩ := Reader.resumable.feed_total hreader p
    rw [feedAll, hfeed] at hfed
    cases res with
    | error f => cases hfed
    | ok reader₁ =>
      obtain ⟨⟨more, res⟩, hmore, heq⟩ := Option.map_eq_some_iff.mp hfed
      cases heq
      have hnext : (r.cipher.index + 1).toNat = r.cipher.index.toNat + 1 := by
        rw [UInt32.toNat_add, UInt32.toNat_one]
        exact Nat.mod_eq_of_lt (by omega)
      obtain ⟨q, hq, hqdone⟩ := ih
        (r := { r with cipher := { r.cipher with index := r.cipher.index + 1 },
                       reader := reader₁ })
        hideal hstate hbuf
        (by
          show ps.drop (r.cipher.index + 1).toNat = qs
          rw [hnext, ← List.drop_drop, hqs]
          rfl)
        (hinv reader₁ rfl) hmore
      refine ⟨q, ?_, hqdone⟩
      rw [ChunkCipher.chunks, UInt32.ofNat_toNat, List.append_assoc,
        feed_chunk hA hideal hstate hbuf hp hne hlen (by omega) hreader hfeed]
      dsimp only at hq
      rw [hnext, ChunkCipher.chunks_index] at hq
      rw [hq]
      rfl

/-! ## Any bytes -/

/-- What holds as long as no feed has failed: the chunks opened are the first ones of `ps`, and
`seen` is what a reader reports of them. -/
structure Follows (cipher : ChunkCipher) (reader : Reader) (ps : List Bytes) (r : Receiver)
    (seen : List Event) : Prop where
  waiting : r.Waiting
  cipher : ∃ i, r.cipher = { cipher with index := i }
  read : feedAll Reader.step reader (ps.take r.cipher.index.toNat) = some (seen, .ok r.reader)
  done : r.state = .done → r.reader.state = .done

section Follows

variable {cipher : ChunkCipher} {reader : Reader} {ps : List Bytes} {seen : List Event}

variable (h : Follows cipher reader ps r seen) (hideal : A.Ideal cipher ps)
  (hreader : reader.Resting)

include h hideal hreader

theorem Follows.completed {buf : Bytes} (hcompleted : Completed A r buf r' out) :
    Follows cipher reader ps r' (seen ++ out) := by
  cases hcompleted with
  | announced len hstate hlen =>
    rw [List.append_nil]
    exact ⟨sealedLen_ok hlen, h.cipher, h.read, nofun⟩
  | ended reader' hstate hfinish =>
    have hdone : r.reader.state = .done ∧ reader' = r.reader := by
      unfold Reader.finish at hfinish
      split at hfinish
      · rename_i hstate
        exact ⟨hstate, (congrArg Prod.fst hfinish).symm⟩
      · cases congrArg Prod.snd hfinish
      · cases congrArg Prod.snd hfinish
    obtain ⟨hdone, rfl⟩ := hdone
    rw [List.append_nil]
    exact ⟨trivial, h.cipher, h.read, fun _ => hdone⟩
  | opened len plain cipher' reader' events hstate hopen hpush =>
    obtain ⟨i, hcipher⟩ := h.cipher
    have hideal' : A.Ideal r.cipher ps := by
      rw [hcipher]
      exact hideal
    obtain ⟨hplain, j, rfl, hj⟩ := ChunkCipher.openNext_ideal hideal' hopen
    have hresting : r.reader.Resting := Reader.resumable.feedAll_inv hreader h.read rfl
    obtain ⟨⟨first, res⟩, hfeed, -⟩ := Reader.resumable.feed_total hresting plain
    rw [Reader.push_of_feed hresting hfeed] at hpush
    cases res with
    | error f => cases hpush
    | ok reader₁ =>
      cases hpush
      refine ⟨(by decide : 0 < lenPrefix), ⟨j, by dsimp only; rw [hcipher]⟩, ?_, nofun⟩
      dsimp only
      rw [hj, List.take_add_one, hplain, Option.toList_some, feedAll_append, h.read]
      show (feedAll Reader.step r.reader [plain]).map (Fed.after seen) = _
      rw [feedAll, hfeed]
      show some (Fed.after seen (Fed.after _ ([], .ok reader'))) = _
      rw [Fed.after_after]
      simp only [Fed.after, List.append_nil]

theorem Follows.step {rest : Bytes} (hd : d ≠ []) (hstep : r.step A d = .ok (r', rest, out)) :
    Follows cipher reader ps r' (seen ++ out) := by
  rcases waiting_cases h.waiting with hdone | hneed
  · rw [step_of_done hdone] at hstep
    cases hstep
  · have hwaiting := (resumable.keeps h.waiting hd hstep).1
    rw [step_gather] at hstep
    rcases Nat.lt_or_ge d.length r.need with hlt | hge
    · rw [gather_of_lt hlt] at hstep
      cases hstep
      rw [List.append_nil]
      exact ⟨hwaiting, h.cipher, h.read, h.done⟩
    · obtain ⟨-, ⟨hlt, -⟩ | hcomplete⟩ := gather_ok hneed hd hstep
      · omega
      · exact h.completed hideal hreader (complete_ok hcomplete)

theorem Follows.fed (hfeed : Incremental.feed (Receiver.step A) r d = some (out, .ok r')) :
    Follows cipher reader ps r' (seen ++ out) :=
  feed_rule (I := Follows cipher reader ps)
    (fun _ _ _ _ _ _ hs hd hstep => hs.step hideal hreader hd hstep) h hfeed

end Follows

/-- A receiver that has not failed goes through the steps of the bytes it is given. -/
theorem feed_cases (hr : r.Waiting) (d : Bytes) :
    (∃ out r', Incremental.feed (step A) r d = some (out, .ok r') ∧
      r.feed A d = (r', .ok (out, r'.status))) ∨
    ∃ f, r.feed A d = (r.fail f, .error f) := by
  obtain ⟨⟨out, res⟩, hfeed, -⟩ := (resumable (A := A)).feed_total hr d
  unfold feed
  split
  · rename_i f hstate
    unfold Waiting at hr
    rw [hstate] at hr
    exact hr.elim
  · rw [hfeed]
    cases res with
    | error f => exact .inr ⟨f, rfl⟩
    | ok r' => exact .inl ⟨out, r', rfl, rfl⟩

theorem feed_of_done (hstate : r.state = .done)
    (hfeed : Incremental.feed (step A) r d = some (out, .ok r')) : r'.state = .done := by
  by_cases hd : d = []
  · subst hd
    cases hfeed
    exact hstate
  · rw [Resumable.feed_of_error hd (step_of_done hstate d)] at hfeed
    cases hfeed

theorem status_eq_done : r.status = .done ↔ r.state = .done := by
  unfold status
  cases r.state <;> simp

theorem feeds_of_failed {f : HistoryFailure} (hstate : r.state = .failed f) (pieces : List Bytes) :
    returned (r.feeds A pieces).2 = [] ∧ ¬ saidDone (r.feeds A pieces).2 ∧
      ∃ f, (r.feeds A pieces).1.state = .failed f := by
  induction pieces generalizing r with
  | nil => exact ⟨rfl, fun ⟨_, h⟩ => (nomatch h), f, hstate⟩
  | cons piece pieces ih =>
    have hfeed : r.feed A piece = (r.fail f, .error f) := by
      unfold feed
      rw [hstate]
    obtain ⟨hnone, hdone, hfailed⟩ := ih (r := r.fail f) rfl
    rw [feeds, hfeed]
    refine ⟨hnone, ?_, hfailed⟩
    rintro ⟨events, hmem⟩
    rcases List.mem_cons.mp hmem with h | h
    · cases h
    · exact hdone ⟨events, h⟩

/-- **Over any feeds**, some of which may fail: there is a last receiver before a failure, it
follows the sender with all that was returned, and it is done if a feed said so or the receiver
is. -/
theorem Follows.feeds {cipher : ChunkCipher} {seen : List Event}
    (h : Follows cipher reader ps r seen) (hideal : A.Ideal cipher ps) (hreader : reader.Resting)
    (pieces : List Bytes) :
    ∃ q, Follows cipher reader ps q (seen ++ returned (r.feeds A pieces).2) ∧
      (r.state = .done ∨ saidDone (r.feeds A pieces).2 ∨ (r.feeds A pieces).1.state = .done →
        q.state = .done) := by
  induction pieces generalizing r seen with
  | nil =>
    refine ⟨r, by rw [show returned (r.feeds A []).2 = [] from rfl, List.append_nil]; exact h, ?_⟩
    rintro (hr | ⟨_, hmem⟩ | hr)
    · exact hr
    · cases hmem
    · exact hr
  | cons piece pieces ih =>
    obtain ⟨out, r', hfed, hfeed⟩ | ⟨f, hfeed⟩ := feed_cases (A := A) h.waiting piece
    · obtain ⟨q, hq, hdone⟩ := ih (h.fed hideal hreader hfed)
      rw [Receiver.feeds, hfeed]
      refine ⟨q, ?_, ?_⟩
      · show Follows cipher reader ps q (seen ++ (out ++ returned (r'.feeds A pieces).2))
        rw [← List.append_assoc]
        exact hq
      · rintro (hr | ⟨events, hmem⟩ | hr)
        · exact hdone (.inl (feed_of_done hr hfed))
        · rcases List.mem_cons.mp hmem with heq | hmem
          · have hstatus : Status.done = r'.status := congrArg Prod.snd (Except.ok.inj heq)
            exact hdone (.inl (status_eq_done.mp hstatus.symm))
          · exact hdone (.inr (.inl ⟨events, hmem⟩))
        · exact hdone (.inr (.inr hr))
    · obtain ⟨hnone, hnot, f', hfailed⟩ := feeds_of_failed (A := A) (r := r.fail f) rfl pieces
      rw [Receiver.feeds, hfeed]
      refine ⟨r, ?_, ?_⟩
      · show Follows cipher reader ps r (seen ++ returned (Receiver.feeds A (r.fail f) pieces).2)
        rw [hnone, List.append_nil]
        exact h
      · rintro (hr | ⟨events, hmem⟩ | hr)
        · exact hr
        · rcases List.mem_cons.mp hmem with heq | hmem
          · cases heq
          · exact absurd ⟨events, hmem⟩ hnot
        · cases hfailed.symm.trans hr

theorem feeds_of_feedAll (hr : r.Waiting) {pieces : List Bytes}
    (hfed : feedAll (step A) r pieces = some (out, .ok r')) :
    (r.feeds A pieces).1 = r' ∧ returned (r.feeds A pieces).2 = out ∧
      (∀ res ∈ (r.feeds A pieces).2, ∃ v, res = .ok v) ∧
      (r.state ≠ .done → r'.state = .done → saidDone (r.feeds A pieces).2) := by
  induction pieces generalizing r out with
  | nil =>
    cases hfed
    exact ⟨rfl, rfl, fun _ h => (nomatch h), fun hnot hdone => absurd hdone hnot⟩
  | cons piece pieces ih =>
    rw [feedAll] at hfed
    obtain ⟨⟨first, res⟩, hfeed, hinv⟩ := (resumable (A := A)).feed_total hr piece
    rw [hfeed] at hfed
    cases res with
    | error f => cases hfed
    | ok r₁ =>
      obtain ⟨⟨more, res⟩, hmore, heq⟩ := Option.map_eq_some_iff.mp hfed
      cases heq
      obtain ⟨hlast, hreturned, hok, hsaid⟩ := ih (hinv r₁ rfl) hmore
      obtain ⟨out', r₁', hfeed', hrun⟩ | ⟨f, hrun⟩ := feed_cases (A := A) hr piece
      · obtain ⟨rfl, hsame⟩ := Prod.mk.inj (Option.some.inj (hfeed.symm.trans hfeed'))
        obtain rfl := Except.ok.inj hsame
        rw [feeds, hrun]
        refine ⟨hlast, congrArg (first ++ ·) hreturned, ?_, ?_⟩
        · intro res hres
          rcases List.mem_cons.mp hres with rfl | hres
          · exact ⟨_, rfl⟩
          · exact hok res hres
        · intro _ hdone
          by_cases hmid : r₁.state = .done
          · exact ⟨first, List.mem_cons.mpr (.inl (by rw [status_eq_done.mpr hmid]))⟩
          · obtain ⟨events, hmem⟩ := hsaid hmid hdone
            exact ⟨events, List.mem_cons_of_mem _ hmem⟩
      · exfalso
        unfold feed at hrun
        split at hrun
        · rename_i f hstate
          unfold Waiting at hr
          rw [hstate] at hr
          exact hr
        · rw [hfeed] at hrun
          cases congrArg Prod.snd hrun

theorem endOfInput_ok (h : r.endOfInput.2 = .ok ()) : r.state = .done := by
  unfold endOfInput at h
  split at h
  · assumption
  · cases h
  · cases h

end Receiver

/-! ## The transfer -/

/-- The plaintexts of the chunks a sender seals for calls that end with `finish`. -/
def Sender.plaintexts (cs : List Writer.Call) : List Bytes :=
  (Writer.new.calls ((cs ++ [Writer.Call.finish]).flatMap Sender.expand)).bytes.chunksOf chunkPlaintext

theorem length_flatten_le {n : Nat} {ps : List Bytes} (h : ∀ p ∈ ps, p.length ≤ n) :
    ps.flatten.length ≤ ps.length * n := by
  induction ps with
  | nil => exact Nat.zero_le _
  | cons p ps ih =>
    have hp := h p List.mem_cons_self
    have hps := ih fun q hq => h q (List.mem_cons_of_mem p hq)
    rw [List.flatten_cons, List.length_append, List.length_cons, Nat.succ_mul]
    omega

/-- What the wire carries when all calls succeed: the sealed plaintexts and the end marker; and a
reader that knows the envelope reads the plaintexts to the end. -/
theorem Sender.wire_of_calls {A : Aead} {key snapshotId userId wire : Bytes} {s : Sender}
    {cs : List Writer.Call}
    (hsent : Sender.calls A (cs ++ [.finish]) (Sender.start key snapshotId userId) = .ok wire s)
    (hannounced : ∀ c ∈ cs, c.Announces (some { snapshotId, userId })) :
    wire = ({ key, snapshotId, userId } : ChunkCipher).chunks A 0 (Sender.plaintexts cs) ++ eof ∧
      (Sender.plaintexts cs).length < 2 ^ 32 ∧
      ∃ honest reader, feedAll Reader.step (Reader.new (some { snapshotId, userId }))
          (Sender.plaintexts cs) = some (honest, .ok reader) ∧ reader.state = .done ∧
        joinMedia honest = joinMedia (Writer.eventsOf 0 (cs ++ [.finish])) := by
  obtain ⟨bs, w, htaken, hended, hwire, hcount⟩ := (Sender.sent_start key snapshotId userId).finished
    hsent
  have hexpand : cs.flatMap Sender.expand ++ [.finish] = (cs ++ [Writer.Call.finish]).flatMap Sender.expand := by
    rw [List.flatMap_append]
    rfl
  rw [List.nil_append, hexpand] at htaken
  have hcalls := htaken.calls
  have hplain : Sender.plaintexts cs = bs.flatten.chunksOf chunkPlaintext := by
    unfold Sender.plaintexts Writer.Written.bytes
    rw [hcalls]
  obtain ⟨hflat, hsize⟩ := List.chunksOf_spec (by decide : 0 < chunkPlaintext) bs.flatten
  rw [← hplain] at hwire hcount hflat hsize
  refine ⟨hwire, hcount, ?_⟩
  -- what is owed is paid, and all that was written is short enough for no length to wrap
  have hpaid : w.mediaRemaining = 0 := by
    rw [← hexpand] at htaken
    obtain ⟨_, _, w₁, -, hlast⟩ := htaken.of_append
    cases hlast with
    | cons hfinish hnil =>
      cases hnil
      obtain ⟨-, hzero, -, order, -, rfl⟩ := Writer.finish_spec.of_ok hfinish
      exact hzero
  have hlen : bs.flatten.length + mediaHeadCap < 2 ^ 64 := by
    have hle := length_flatten_le fun p hp => (hsize p hp).2
    have hmax : (Sender.plaintexts cs).length * chunkPlaintext ≤ 2 ^ 32 * chunkPlaintext :=
      Nat.mul_le_mul_right _ (Nat.le_of_lt hcount)
    have hcap : 2 ^ 32 * chunkPlaintext + mediaHeadCap < 2 ^ 64 := by decide
    rw [hflat] at hle
    omega
  have hannounces : ∀ c ∈ (cs ++ [Writer.Call.finish]).flatMap Sender.expand,
      c.Announces (some { snapshotId, userId }) := by
    intro c hc
    obtain ⟨d, hd, hc⟩ := List.mem_flatMap.mp hc
    cases d with
    | mediaBytes piece =>
      obtain ⟨p, -, rfl⟩ := List.mem_map.mp hc
      trivial
    | record ty proto =>
      obtain rfl := List.mem_singleton.mp hc
      rcases List.mem_append.mp hd with hd | hd
      · exact hannounced _ hd
      · cases List.mem_singleton.mp hd
    | beginMedia mediaId mimeType byteLen =>
      obtain rfl := List.mem_singleton.mp hc
      trivial
    | finish =>
      obtain rfl := List.mem_singleton.mp hc
      trivial
  have hnew := Reader.resting_new (some { snapshotId, userId })
  obtain ⟨out, reader, hfed, hstep, hevents⟩ :=
    (Writer.inStep_new (some { snapshotId, userId })).calls (htaken.sound hpaid hlen) hannounces
  rw [hcalls] at hfed hstep hevents
  have hdone : reader.state = .done := by
    rw [hstep.state]
    unfold Writer.awaited
    dsimp only
    rw [hended, if_pos rfl]
  obtain ⟨fed, fed', hplainFed, hpiecesFed, hparts, hres⟩ :=
    Reader.resumable.feedAll_agree hnew (show (Sender.plaintexts cs).flatten = bs.flatten from hflat)
  obtain rfl : fed' = (out, .ok reader) := Option.some.inj (hpiecesFed.symm.trans hfed)
  refine ⟨fed.1, reader, ?_, hdone, joinMedia_of_parts ?_⟩
  · obtain ⟨honest, res⟩ := fed
    obtain rfl : res = .ok reader := hres
    exact hplainFed
  · rw [hparts]
    exact hevents.trans (Sender.events_expand htaken)

/-- A receiver fed what a sender put on the wire, in any pieces, returns what a reader of the
plaintexts returns, and is done. -/
theorem Receiver.feeds_wire {A : Aead} {key snapshotId userId : Bytes} {ps pieces : List Bytes}
    {honest : List Event} {reader : Reader} (hA : A.Sized)
    (hideal : A.Ideal { key, snapshotId, userId } ps)
    (hsize : ∀ p ∈ ps, p ≠ [] ∧ p.length ≤ chunkPlaintext) (hcount : ps.length < 2 ^ 32)
    (hfed : feedAll Reader.step (Reader.new (some { snapshotId, userId })) ps =
      some (honest, .ok reader)) (hdone : reader.state = .done)
    (hpieces : pieces.flatten =
      ({ key, snapshotId, userId } : ChunkCipher).chunks A 0 ps ++ eof) :
    let run := (Receiver.start key snapshotId userId).feeds A pieces
    (∀ res ∈ run.2, ∃ v, res = .ok v) ∧ Receiver.returned run.2 = honest ∧
      Receiver.saidDone run.2 ∧ run.1.endOfInput.2 = .ok () := by
  have hstart : (Receiver.start key snapshotId userId).Waiting := (by decide : 0 < lenPrefix)
  have hreader := Reader.resting_new (some { snapshotId, userId })
  -- the sender's own bytes, at once and then in any pieces
  obtain ⟨q, hq, hqdone⟩ := Receiver.feed_chunks (r := Receiver.start key snapshotId userId)
    hA hideal rfl rfl rfl hsize hcount hreader hfed hdone
  obtain ⟨fed, fed', hpiecesFed, hwhole, hparts, hres⟩ :=
    Receiver.resumable.feedAll_flatten hstart pieces
  rw [hpieces] at hwhole
  obtain rfl : fed' = (honest, .ok q) := Option.some.inj (hwhole.symm.trans hq)
  rw [List.flatMap_singleton', List.flatMap_singleton'] at hparts
  obtain ⟨out, res⟩ := fed
  obtain rfl : out = honest := hparts
  obtain rfl : res = .ok q := hres
  obtain ⟨hlast, hreturned, hok, hsaid⟩ := Receiver.feeds_of_feedAll hstart hpiecesFed
  refine ⟨hok, hreturned, hsaid nofun hqdone, ?_⟩
  rw [hlast]
  unfold Receiver.endOfInput
  rw [hqdone]

/-- **A history transfer, end to end.** Where all calls of the sender succeed, its manifest names
the ids of the envelope and the AEAD is ideal for the channel key, there is one sequence of
events, the calls' own up to joining media bytes, such that: however the bytes of the sender are
cut, every feed succeeds, the events are returned and the receiver is done; and whatever bytes the
receiver is fed instead, the events that successful feeds return are the first ones of that
sequence, and all of it where a feed said done or the end of input was taken. -/
theorem history_transfer (A : Aead) (hA : A.Sized) (key snapshotId userId wire : Bytes)
    (cs : List Writer.Call)
    (hsent : ∃ s, Sender.calls A (cs ++ [.finish]) (Sender.start key snapshotId userId) =
      .ok wire s)
    (hannounced : ∀ c ∈ cs, c.Announces (some { snapshotId, userId }))
    (hideal : A.Ideal { key, snapshotId, userId } (Sender.plaintexts cs)) :
    ∃ honest, joinMedia honest = joinMedia (Writer.eventsOf 0 (cs ++ [.finish])) ∧
      (∀ pieces : List Bytes, pieces.flatten = wire →
        let run := (Receiver.start key snapshotId userId).feeds A pieces
        (∀ res ∈ run.2, ∃ v, res = .ok v) ∧ Receiver.returned run.2 = honest ∧
          Receiver.saidDone run.2 ∧ run.1.endOfInput.2 = .ok ()) ∧
      ∀ pieces : List Bytes,
        let run := (Receiver.start key snapshotId userId).feeds A pieces
        Receiver.returned run.2 <+: honest ∧
          (Receiver.saidDone run.2 ∨ run.1.endOfInput.2 = .ok () →
            Receiver.returned run.2 = honest) := by
  obtain ⟨s, hsent⟩ := hsent
  obtain ⟨hwire, hcount, honest, reader, hfed, hdone, hjoin⟩ :=
    Sender.wire_of_calls hsent hannounced
  have hsize := (List.chunksOf_spec (by decide : 0 < chunkPlaintext)
    (Writer.new.calls ((cs ++ [Writer.Call.finish]).flatMap Sender.expand)).bytes).2
  have hreader := Reader.resting_new (some { snapshotId, userId })
  have hstart : (Receiver.start key snapshotId userId).Waiting := (by decide : 0 < lenPrefix)
  refine ⟨honest, hjoin, fun pieces hpieces => ?_, fun pieces => ?_⟩
  · exact Receiver.feeds_wire hA hideal hsize hcount hfed hdone (hpieces.trans hwire)
  · -- any bytes: what was returned is what the first plaintexts say
    have hfollows : Receiver.Follows { key, snapshotId, userId }
        (Reader.new (some { snapshotId, userId })) (Sender.plaintexts cs)
        (Receiver.start key snapshotId userId) [] := ⟨hstart, ⟨0, rfl⟩, rfl, nofun⟩
    obtain ⟨q, hq, hqdone⟩ := hfollows.feeds hideal hreader pieces
    rw [List.nil_append] at hq
    have hsplit := feedAll_append Reader.step (Reader.new (some { snapshotId, userId }))
      ((Sender.plaintexts cs).take q.cipher.index.toNat)
      ((Sender.plaintexts cs).drop q.cipher.index.toNat)
    rw [List.take_append_drop, hfed, hq.read] at hsplit
    obtain ⟨⟨more, res⟩, hmore, heq⟩ := Option.map_eq_some_iff.mp hsplit.symm
    replace hmore : feedAll Reader.step q.reader
        ((Sender.plaintexts cs).drop q.cipher.index.toNat) = some (more, res) := hmore
    have hhonest : Receiver.returned ((Receiver.start key snapshotId userId).feeds A pieces).2 ++ more
        = honest := congrArg Prod.fst heq
    refine ⟨⟨more, hhonest⟩, fun hend => ?_⟩
    have hqstate : q.state = .done := by
      rcases hend with hsaid | hend
      · exact hqdone (.inr (.inl hsaid))
      · exact hqdone (.inr (.inr (Receiver.endOfInput_ok hend)))
    -- a reader that has read End takes no further plaintext
    have hnone : (Sender.plaintexts cs).drop q.cipher.index.toNat = [] := by
      cases hdrop : (Sender.plaintexts cs).drop q.cipher.index.toNat with
      | nil => rfl
      | cons p qs =>
        exfalso
        have hp : p ∈ Sender.plaintexts cs :=
          List.mem_of_mem_drop (by rw [hdrop]; exact List.mem_cons_self)
        have hstep : q.reader.step p = .error .malformed := by
          unfold Reader.step
          rw [hq.done hqstate]
        rw [hdrop, feedAll, Resumable.feed_of_error (hsize p hp).1 hstep] at hmore
        cases hmore
        cases congrArg Prod.snd heq
    rw [hnone] at hmore
    cases hmore
    rw [← hhonest, List.append_nil]

/-! ## An ideal AEAD for given plaintexts -/

/-- An AEAD that opens nothing but the plaintexts `ps`, each under its index. -/
def opensOnlySealed (ps : List Bytes) : Aead where
  encrypt _ _ _ p := (p, List.replicate tagLen 0)
  decrypt _ nonce _ ciphertext tag :=
    if ps[ofLeBytes (nonce.take 4)]? = some ciphertext ∧ tag = List.replicate tagLen 0 then
      some ciphertext
    else none

theorem opensOnlySealed_sized (ps : List Bytes) : (opensOnlySealed ps).Sized where
  ciphertext_length _ _ _ _ := rfl
  tag_length _ _ _ _ := List.length_replicate

theorem opensOnlySealed_ideal (ps : List Bytes) (c : ChunkCipher) :
    (opensOnlySealed ps).Ideal c ps := by
  intro index ciphertext tag p
  have hindex : ofLeBytes ((nonce index).take 4) = index.toNat := by
    have htake : (nonce index).take 4 = u32ToLe index := by
      unfold nonce
      rw [← length_u32ToLe index, List.take_left]
    rw [htake]
    show ofLeBytes (leBytes 4 index.toNat) = _
    rw [ofLeBytes_leBytes]
    exact Nat.mod_eq_of_lt index.toNat_lt
  show (if _ then some ciphertext else none) = some p ↔ _ ∧ (ciphertext, tag) = (p, _)
  rw [hindex]
  constructor
  · intro h
    split at h
    · rename_i hsealed
      obtain rfl := Option.some.inj h
      exact ⟨hsealed.1, by rw [hsealed.2]⟩
    · cases h
  · rintro ⟨hp, heq⟩
    cases heq
    exact if_pos ⟨hp, rfl⟩

/-- A manifest of both phases for snapshot `1 … 1` and account `2 … 2`. -/
def sampleManifest : Bytes :=
  [8, 1, 18, 16] ++ List.replicate 16 1 ++ [26, 16] ++ List.replicate 16 2 ++ [104, 3]

def sampleCalls : List Writer.Call :=
  [.record RecordType.manifest sampleManifest, .beginMedia "a" "" 2, .mediaBytes [5, 6]]

def sampleRun : EStateM.Result HistoryFailure Sender Bytes :=
  Sender.calls (opensOnlySealed (Sender.plaintexts sampleCalls)) (sampleCalls ++ [.finish])
    (Sender.start [7] (List.replicate 16 1) (List.replicate 16 2))

def sampleWire : Bytes :=
  match sampleRun with
  | .ok wire _ => wire
  | .error _ _ => []

theorem sampleRun_ok : ∃ s, sampleRun = .ok sampleWire s := by
  have hok : (match sampleRun with | .ok _ _ => true | .error _ _ => false) = true := by
    decide +kernel
  unfold sampleWire
  cases hrun : sampleRun with
  | ok wire s => exact ⟨s, rfl⟩
  | error f s =>
    rw [hrun] at hok
    cases hok

theorem sampleCalls_announced : ∀ c ∈ sampleCalls, c.Announces
    (some { snapshotId := List.replicate 16 1, userId := List.replicate 16 2 }) := by
  have hmanifest : manifest sampleManifest =
      .ok ⟨1, List.replicate 16 1, List.replicate 16 2, 3⟩ := by decide +kernel
  intro c hc
  rcases List.mem_cons.mp hc with rfl | hc
  · rintro - m hm env henv
    cases henv
    obtain rfl := Except.ok.inj (hmanifest.symm.trans hm)
    exact ⟨rfl, rfl⟩
  · rcases List.mem_cons.mp hc with rfl | hc
    · trivial
    · cases List.mem_singleton.mp hc
      trivial

theorem history_transfer_sample :
    ∃ honest, joinMedia honest =
        joinMedia (Writer.eventsOf 0 (sampleCalls ++ [Writer.Call.finish])) ∧
      (∀ pieces : List Bytes, pieces.flatten = sampleWire →
        let run := (Receiver.start [7] (List.replicate 16 1) (List.replicate 16 2)).feeds
          (opensOnlySealed (Sender.plaintexts sampleCalls)) pieces
        (∀ res ∈ run.2, ∃ v, res = .ok v) ∧ Receiver.returned run.2 = honest ∧
          Receiver.saidDone run.2 ∧ run.1.endOfInput.2 = .ok ()) ∧
      ∀ pieces : List Bytes,
        let run := (Receiver.start [7] (List.replicate 16 1) (List.replicate 16 2)).feeds
          (opensOnlySealed (Sender.plaintexts sampleCalls)) pieces
        Receiver.returned run.2 <+: honest ∧
          (Receiver.saidDone run.2 ∨ run.1.endOfInput.2 = .ok () →
            Receiver.returned run.2 = honest) :=
  history_transfer _ (opensOnlySealed_sized _) _ _ _ _ _ sampleRun_ok sampleCalls_announced
    (opensOnlySealed_ideal _ _)

end History
