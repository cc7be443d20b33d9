import ConstructCore.History.Transfer

/-!
# A refused piece of a media item

`push_media` cuts a piece into parts and writes and seals one part after the other. A refusal at
the first part changes nothing; one at a later part leaves the parts before it written, so that
the bytes the item still owes can no longer be pushed (`long_piece_leaves_parts`).

A piece that is within what is owed is taken whole (`pushParts_of_room`), as long as there are
chunk indices for it, and one whose first part is too long is refused at once
(`call_of_first_refused`). So a push that is refused under `WholePush` leaves the sender as it
was, and the transfer goes on as if the call had not been made.
-/

namespace History

open Bytes Incremental

/-- A blob that still owes bytes was begun after another record, and no End was written. -/
def Writer.Owing (w : Writer) : Prop :=
  0 < w.mediaRemaining → w.ended = false ∧ w.order.last ≠ none

theorem Writer.Owing.call {w w' : Writer} {c : Call} {b : Bytes} (h : w.Owing)
    (hcall : Writer.call c w = .ok b w') : w'.Owing := by
  intro howed
  cases c with
  | record ty proto =>
    have htaken := record_spec.of_ok hcall
    obtain ⟨_, _, -, -, rfl⟩ := htaken.judged
    exact absurd htaken.paid (Nat.ne_of_gt howed)
  | beginMedia mediaId mimeType byteLen =>
    have htaken := beginMedia_spec.of_ok hcall
    obtain ⟨order, hcheck, rfl⟩ := htaken.checked
    obtain ⟨rfl, -⟩ := Order.check_ok (k := .media) rfl hcheck
    exact ⟨htaken.running, nofun⟩
  | mediaBytes piece =>
    obtain ⟨-, -, rfl⟩ := mediaBytes_spec.of_ok hcall
    exact h (Nat.lt_of_lt_of_le howed (Nat.sub_le ..))
  | finish =>
    obtain ⟨-, hpaid, -, _, -, rfl⟩ := finish_spec.of_ok hcall
    exact absurd hpaid (Nat.ne_of_gt howed)

theorem ChunkCipher.nextIndex_of_room {c : ChunkCipher} (h : c.index.toNat + 1 < 2 ^ 32) :
    nextIndex c = .ok c.index { c with index := c.index + 1 } := by
  unfold nextIndex
  rw [Op.get_bind_eq_ok, UInt32.checkedSucc_eq_some h]
  rfl

theorem ChunkCipher.sealNext_of_room {A : Aead} {c : ChunkCipher} {pending : Bytes}
    (hne : pending ≠ []) (h : c.index.toNat + 1 < 2 ^ 32) :
    sealNext A (pending.take chunkPlaintext) c =
      .ok (c.chunk A c.index (pending.take chunkPlaintext)) { c with index := c.index + 1 } := by
  have hfits : ¬ (pending.take chunkPlaintext = [] ∨
      chunkPlaintext < (pending.take chunkPlaintext).length) := by
    rw [List.take_eq_nil_iff, List.length_take]
    rintro ((hzero | hnil) | hlong)
    · exact absurd hzero (by decide)
    · exact hne hnil
    · omega
  unfold sealNext
  dsimp only
  rw [Op.ite_eq_ok]
  exact .inr ⟨hfits, Op.bind_eq_ok.mpr ⟨_, _, nextIndex_of_room h, rfl⟩⟩

namespace Sender

variable {A : Aead} {all : Bool} {s s₁ s' : Sender} {out rest pending piece : Bytes}
  {c c' : ChunkCipher} {n k : Nat} {u : Unit} {request : Writer.Call}

/-! ## Sealing -/

theorem sealChunks_short (hn : pending.length ≤ n)
    (h : sealChunks A all n pending c = .ok (out, rest) c') : rest.length < chunkPlaintext := by
  induction n generalizing pending out c with
  | zero =>
    cases h
    exact Nat.lt_of_le_of_lt hn (by decide)
  | succ n ih =>
    rw [sealChunks, Op.ite_eq_ok] at h
    obtain ⟨hmore, h⟩ | ⟨hmore, h⟩ := h
    · obtain ⟨first, c₁, -, h⟩ := Op.bind_eq_ok.mp h
      obtain ⟨⟨more, rest'⟩, c₂, hrest, h⟩ := Op.bind_eq_ok.mp h
      cases h
      have hchunk : 0 < chunkPlaintext := by decide
      by_cases hpos : pending.length = 0
      · exact ih (by rw [List.length_drop]; omega) hrest
      · exact ih (by rw [List.length_drop]; omega) hrest
    · cases h
      exact Nat.not_le.mp fun hfull => hmore (.inl hfull)

theorem sealPending_left (h : sealPending A all s = .ok out s') :
    s'.pending.length < chunkPlaintext ∧ s'.writer = s.writer ∧ s'.state = s.state := by
  obtain ⟨rest, c, hchunks, rfl⟩ := sealPending_ok h
  exact ⟨sealChunks_short (Nat.le_refl _) hchunks, rfl, rfl⟩

theorem sealChunks_of_room
    (hlen : pending.length ≤ k * chunkPlaintext ∨
      all = false ∧ pending.length < (k + 1) * chunkPlaintext)
    (hroom : c.index.toNat + k < 2 ^ 32) :
    ∃ out rest c', sealChunks A all n pending c = .ok (out, rest) c' ∧
      c'.index.toNat ≤ c.index.toNat + k := by
  have hchunk : 0 < chunkPlaintext := by decide
  induction n generalizing pending c k with
  | zero => exact ⟨[], pending, c, rfl, Nat.le_add_right ..⟩
  | succ n ih =>
    rw [sealChunks]
    by_cases hmore : chunkPlaintext ≤ pending.length ∨ all = true ∧ pending ≠ []
    · rw [if_pos hmore]
      have hne : pending ≠ [] := by
        rintro rfl
        rcases hmore with hfull | hall
        · exact absurd hfull (by decide)
        · exact hall.2 rfl
      have hpos := List.length_pos_iff.mpr hne
      obtain ⟨k, rfl⟩ : ∃ j, k = j + 1 := by
        refine ⟨k - 1, (Nat.succ_pred_eq_of_pos (Nat.pos_of_ne_zero ?_)).symm⟩
        rintro rfl
        rcases hmore with hfull | hall
        · rcases hlen with hlen | hlen <;> omega
        · rcases hlen with hlen | hlen
          · omega
          · exact absurd (hall.1.symm.trans hlen.1) (by decide)
      rw [Nat.succ_mul, Nat.succ_mul, Nat.succ_mul] at hlen
      have hseal := ChunkCipher.sealNext_of_room (A := A) hne (by omega : c.index.toNat + 1 < 2 ^ 32)
      have hindex : (c.index + 1).toNat = c.index.toNat + 1 := by
        rw [UInt32.toNat_add, UInt32.toNat_one]
        omega
      obtain ⟨more, rest, c', hrest, hle⟩ := ih (c := { c with index := c.index + 1 }) (k := k)
        (by
          rw [show (pending.drop chunkPlaintext).length = _ from List.length_drop, Nat.succ_mul]
          exact hlen.imp (fun h => by omega) (And.imp_right fun h => by omega))
        (by show (c.index + 1).toNat + k < _; omega)
      refine ⟨_, rest, c', Op.bind_eq_ok.mpr ⟨_, _, hseal, Op.bind_eq_ok.mpr ⟨_, _, hrest, rfl⟩⟩, ?_⟩
      change c'.index.toNat ≤ (c.index + 1).toNat + k at hle
      omega
    · rw [if_neg hmore]
      exact ⟨[], pending, c, rfl, Nat.le_add_right ..⟩

theorem sealPending_of_room (all : Bool)
    (hlen : s.pending.length ≤ k * chunkPlaintext ∨
      all = false ∧ s.pending.length < (k + 1) * chunkPlaintext)
    (hroom : s.cipher.index.toNat + k < 2 ^ 32) :
    ∃ out s', sealPending A all s = .ok out s' ∧
      s'.cipher.index.toNat ≤ s.cipher.index.toNat + k := by
  obtain ⟨out, rest, c', hchunks, hle⟩ :=
    sealChunks_of_room (A := A) (n := s.pending.length) hlen hroom
  refine ⟨out, { s with cipher := c', pending := rest }, ?_, hle⟩
  unfold sealPending
  rw [Op.get_bind_eq_ok]
  refine Op.bind_eq_ok.mpr ⟨(out, rest), { s with cipher := c' }, ?_, rfl⟩
  exact Op.zoom_eq_ok.mpr ⟨c', hchunks, rfl⟩

/-! ## A sender after calls it took -/

/-- Less than a chunk is pending, and what is owed can be followed by End. -/
structure Settled (s : Sender) : Prop where
  short : s.pending.length < chunkPlaintext
  owing : s.writer.Owing

theorem Settled.next (h : Settled s) (hwrite : write request s = .ok u s₁)
    (hseal : sealPending A all s₁ = .ok out s') : Settled s' := by
  obtain ⟨b, w, hcall, rfl⟩ := write_ok hwrite
  obtain ⟨hshort, hwriter, -⟩ := sealPending_left hseal
  exact ⟨hshort, hwriter ▸ h.owing.call hcall⟩

theorem Settled.parts (h : Settled s) {parts : List Bytes}
    (hparts : pushParts A parts s = .ok out s') : Settled s' := by
  induction parts generalizing s out with
  | nil =>
    cases hparts
    exact h
  | cons part parts ih =>
    rw [pushParts] at hparts
    obtain ⟨u, s₁, hwrite, hparts⟩ := Op.bind_eq_ok.mp hparts
    obtain ⟨first, s₂, hseal, hparts⟩ := Op.bind_eq_ok.mp hparts
    obtain ⟨last, s₃, hrest, hparts⟩ := Op.bind_eq_ok.mp hparts
    cases hparts
    exact ih (h.next hwrite hseal) hrest

theorem Settled.call (h : Settled s) (hcall : Sender.call A request s = .ok out s') : Settled s' := by
  have hone : ∀ c, push A c s = .ok out s' → Settled s' := by
    intro c hrun
    obtain ⟨_, s₀, hstreaming, hrest⟩ := Op.bind_eq_ok.mp hrun
    obtain ⟨rfl, -⟩ := streaming_ok hstreaming
    obtain ⟨_, s₁, hwrite, hseal⟩ := Op.bind_eq_ok.mp hrest
    exact h.next hwrite hseal
  cases request with
  | record ty proto => exact hone _ hcall
  | beginMedia mediaId mimeType byteLen => exact hone _ hcall
  | mediaBytes piece =>
    obtain ⟨_, s₀, hstreaming, hrun⟩ := Op.bind_eq_ok.mp hcall
    obtain ⟨rfl, -⟩ := streaming_ok hstreaming
    exact h.parts hrun
  | finish =>
    obtain ⟨_, s₀, hstreaming, hrun⟩ := Op.bind_eq_ok.mp hcall
    obtain ⟨rfl, -⟩ := streaming_ok hstreaming
    obtain ⟨_, s₁, hwrite, hrun⟩ := Op.bind_eq_ok.mp hrun
    obtain ⟨last, s₂, hseal, hrun⟩ := Op.bind_eq_ok.mp hrun
    cases hrun
    have hnext := h.next hwrite hseal
    exact ⟨hnext.short, hnext.owing⟩

theorem Settled.calls {cs : List Writer.Call} (h : Settled s)
    (hcalls : Sender.calls A cs s = .ok out s') : Settled s' := by
  induction cs generalizing s out with
  | nil =>
    cases hcalls
    exact h
  | cons c cs ih =>
    obtain ⟨first, s₁, hcall, hrest⟩ := Op.bind_eq_ok.mp hcalls
    obtain ⟨last, s₂, hlast, hrest⟩ := Op.bind_eq_ok.mp hrest
    cases hrest
    exact ih (h.call hcall) hlast

theorem calls_append {cs more : List Writer.Call} {later : Bytes}
    (h : Sender.calls A cs s = .ok out s₁) (h' : Sender.calls A more s₁ = .ok later s') :
    Sender.calls A (cs ++ more) s = .ok (out ++ later) s' := by
  induction cs generalizing s out with
  | nil =>
    cases h
    exact h'
  | cons c cs ih =>
    obtain ⟨first, s₂, hcall, hrest⟩ := Op.bind_eq_ok.mp h
    obtain ⟨last, s₃, hlast, hrest⟩ := Op.bind_eq_ok.mp hrest
    cases hrest
    refine Op.bind_eq_ok.mpr ⟨first, s₂, hcall, Op.bind_eq_ok.mpr ⟨_, s', ih hlast, ?_⟩⟩
    rw [List.append_assoc]
    rfl

/-! ## Pieces taken whole, and pieces refused at once -/

theorem write_of_taken {b : Bytes} {w : Writer} (h : Writer.call request s.writer = .ok b w) :
    write request s = .ok () { s with writer := w, pending := s.pending ++ b } :=
  Op.bind_eq_ok.mpr ⟨b, { s with writer := w }, Op.zoom_eq_ok.mpr ⟨w, h, rfl⟩, rfl⟩

theorem pushParts_of_room (parts : List Bytes) (hshort : s.pending.length < chunkPlaintext)
    (hparts : ∀ p ∈ parts, p.length ≤ chunkPlaintext)
    (howed : parts.flatten.length ≤ s.writer.mediaRemaining)
    (hroom : s.cipher.index.toNat + parts.length < 2 ^ 32) :
    ∃ out s', pushParts A parts s = .ok out s' ∧ s'.state = s.state ∧
      s'.pending.length < chunkPlaintext ∧
      s'.writer = { s.writer with
        mediaRemaining := s.writer.mediaRemaining - parts.flatten.length } ∧
      s'.cipher.index.toNat ≤ s.cipher.index.toNat + parts.length := by
  induction parts generalizing s with
  | nil => exact ⟨[], s, rfl, rfl, hshort, rfl, Nat.le_refl _⟩
  | cons part parts ih =>
    rw [List.flatten_cons, List.length_append] at howed
    rw [List.length_cons] at hroom
    have hpart := hparts part List.mem_cons_self
    have hbytes : Writer.call (.mediaBytes part) s.writer = .ok part
        { s.writer with mediaRemaining := s.writer.mediaRemaining - part.length } :=
      Op.get_bind_eq_ok.mpr (Op.ite_eq_ok.mpr (.inr ⟨by omega, rfl⟩))
    have hwrite := write_of_taken hbytes
    obtain ⟨first, s₂, hseal, hindex⟩ := sealPending_of_room (A := A) (k := 1) false
      (s := { s with
        writer := { s.writer with mediaRemaining := s.writer.mediaRemaining - part.length }
        pending := s.pending ++ part })
      (.inr ⟨rfl, by rw [List.length_append]; omega⟩) (by show s.cipher.index.toNat + 1 < _; omega)
    obtain ⟨hshort₂, hwriter, hstate⟩ := sealPending_left hseal
    dsimp only at hindex hwriter hstate
    obtain ⟨last, s', hlast, hstate', hshort', hwriter', hindex'⟩ := ih hshort₂
      (fun p hp => hparts p (List.mem_cons_of_mem _ hp)) (by rw [hwriter]; dsimp only; omega)
      (by omega)
    refine ⟨first ++ last, s', ?_, hstate'.trans hstate, hshort', ?_, ?_⟩
    · exact Op.bind_eq_ok.mpr ⟨(), _, hwrite, Op.bind_eq_ok.mpr ⟨first, s₂, hseal,
        Op.bind_eq_ok.mpr ⟨last, s', hlast, rfl⟩⟩⟩
    · rw [hwriter', hwriter, List.flatten_cons, List.length_append, Nat.sub_sub]
    · rw [List.length_cons]
      omega

theorem streaming_run (h : s.state = .streaming) : streaming s = .ok () s :=
  Op.get_bind_eq_ok.mpr (Op.ite_eq_ok.mpr (.inr ⟨fun hne => hne h, rfl⟩))

theorem call_of_room (piece : Bytes) (hstate : s.state = .streaming)
    (hshort : s.pending.length < chunkPlaintext)
    (howed : piece.length ≤ s.writer.mediaRemaining)
    (hroom : s.cipher.index.toNat + (piece.chunksOf chunkPlaintext).length < 2 ^ 32) :
    ∃ out s', Sender.call A (.mediaBytes piece) s = .ok out s' ∧ s'.state = .streaming ∧
      s'.pending.length < chunkPlaintext ∧
      s'.writer = { s.writer with
        mediaRemaining := s.writer.mediaRemaining - piece.length } ∧
      s'.cipher.index.toNat ≤
        s.cipher.index.toNat + (piece.chunksOf chunkPlaintext).length := by
  obtain ⟨hflat, hsize⟩ := List.chunksOf_spec (by decide : 0 < chunkPlaintext) piece
  obtain ⟨out, s', hrun, hstate', hrest⟩ := pushParts_of_room (A := A) _ hshort
    (fun p hp => (hsize p hp).2) (by rw [hflat]; exact howed) hroom
  rw [hflat] at hrest
  exact ⟨out, s', Op.bind_eq_ok.mpr ⟨(), s, streaming_run hstate, hrun⟩, hstate'.trans hstate,
    hrest⟩

theorem call_of_done (h : s.state ≠ .streaming) :
    Sender.call A (.mediaBytes piece) s = .error .malformed s := by
  have hstreaming : streaming s = .error .malformed s := by
    show (if s.state ≠ .streaming then throw .malformed else pure ⟨⟩ :
      Op HistoryFailure Sender Unit) s = _
    rw [if_pos h]
    rfl
  show (streaming >>= _) s = _
  rw [Op.bind_run, hstreaming]

theorem pushParts_of_refused {part : Bytes} {parts : List Bytes}
    (h : s.writer.mediaRemaining < part.length) :
    pushParts A (part :: parts) s = .error .malformed s := by
  have hbytes : Writer.call (.mediaBytes part) s.writer = .error .malformed s.writer := by
    show (if s.writer.mediaRemaining < _ then throw .malformed else _ :
      Op HistoryFailure Writer Bytes) s.writer = _
    rw [if_pos h]
    rfl
  have hwrite : write (.mediaBytes part) s = .error .malformed s := by
    unfold write
    rw [Op.bind_run]
    unfold Op.zoom
    rw [hbytes]
  show (write _ >>= _) s = _
  rw [Op.bind_run, hwrite]

theorem pushParts_append_refused {parts more : List Bytes} {f : HistoryFailure}
    (h : pushParts A parts s = .ok out s₁) (h' : pushParts A more s₁ = .error f s') :
    pushParts A (parts ++ more) s = .error f s' := by
  induction parts generalizing s out with
  | nil =>
    cases h
    exact h'
  | cons part parts ih =>
    rw [pushParts] at h
    obtain ⟨u, s₂, hwrite, h⟩ := Op.bind_eq_ok.mp h
    obtain ⟨first, s₃, hseal, h⟩ := Op.bind_eq_ok.mp h
    obtain ⟨last, s₄, hlast, h⟩ := Op.bind_eq_ok.mp h
    cases h
    rw [List.cons_append, pushParts, Op.bind_run, hwrite]
    dsimp only
    rw [Op.bind_run, hseal]
    dsimp only
    rw [Op.bind_run, ih hlast]

theorem call_of_first_refused (h : s.writer.mediaRemaining < min piece.length chunkPlaintext) :
    Sender.call A (.mediaBytes piece) s = .error .malformed s := by
  by_cases hstate : s.state = .streaming
  · have hne : piece ≠ [] := by
      rintro rfl
      exact absurd h (Nat.not_lt_zero _)
    show (streaming >>= fun _ => pushParts A (piece.chunksOf chunkPlaintext)) s = _
    rw [Op.bind_run, streaming_run hstate, List.chunksOf_of_ne_nil (by decide) hne]
    exact pushParts_of_refused (by rw [List.length_take, Nat.min_comm]; exact h)
  · exact call_of_done hstate

theorem finish_of_room (hstate : s.state = .streaming) (hshort : s.pending.length < chunkPlaintext)
    (hpaid : s.writer.mediaRemaining = 0) (hrunning : s.writer.ended = false)
    (hlast : s.writer.order.last ≠ none) (hroom : s.cipher.index.toNat + 2 < 2 ^ 32) :
    ∃ out s', Sender.call A .finish s = .ok out s' := by
  obtain ⟨phase, hphase⟩ := Option.ne_none_iff_exists'.mp hlast
  have hcheck := Order.check_of_checked (k := .final) (rfl : rank RecordType.endRecord = _)
    (.next phase hphase rfl (by cases phase <;> decide))
  have hend : Writer.call .finish s.writer = .ok (s.writer.opening ++ [RecordType.endRecord])
      { s.writer with
        order := { s.writer.order with last := some .final }, started := true, ended := true } := by
    refine Op.bind_eq_ok.mpr ⟨(), s.writer, ?_, ?_⟩
    · refine Op.get_bind_eq_ok.mpr (Op.ite_eq_ok.mpr (.inr ⟨?_, rfl⟩))
      rw [hrunning, hpaid]
      decide
    · refine Op.bind_eq_ok.mpr ⟨(), _, Op.get_bind_eq_ok.mpr (Op.bind_eq_ok.mpr ⟨_, _,
        Op.ofExcept_eq_ok.mpr ⟨hcheck, rfl⟩, rfl⟩), ?_⟩
      exact Op.bind_eq_ok.mpr ⟨_, _, Writer.preamble_run _, rfl⟩
  have hopening : s.writer.opening.length ≤ 5 := by
    unfold Writer.opening
    split <;> decide
  obtain ⟨out, s', hseal, -⟩ := sealPending_of_room (A := A) (k := 2) true
    (s := { s with
      writer := { s.writer with
        order := { s.writer.order with last := some .final }, started := true, ended := true }
      pending := s.pending ++ (s.writer.opening ++ [RecordType.endRecord]) })
    (.inl (by
      have hchunk : chunkPlaintext = 65536 := rfl
      simp only [List.length_append, List.length_singleton]
      omega)) hroom
  exact ⟨out ++ eof, { s' with state := .done }, Op.bind_eq_ok.mpr ⟨(), s, streaming_run hstate,
    Op.bind_eq_ok.mpr ⟨(), _, write_of_taken hend, Op.bind_eq_ok.mpr ⟨out, s', hseal, rfl⟩⟩⟩⟩

/-! ## The theorem -/

/-- The piece is within what is owed, with chunk indices left for its parts, or its first part is
already too long. -/
def WholePush (s : Sender) (piece : Bytes) : Prop :=
  piece.length ≤ s.writer.mediaRemaining ∧
      s.cipher.index.toNat + (piece.chunksOf chunkPlaintext).length < 2 ^ 32 ∨
    s.writer.mediaRemaining < min piece.length chunkPlaintext

theorem refused_of_whole (hs : Settled s) (hwhole : s.WholePush piece) {f : HistoryFailure}
    (h : Sender.call A (.mediaBytes piece) s = .error f s') : s' = s := by
  rcases hwhole with ⟨howed, hroom⟩ | hfirst
  · by_cases hstate : s.state = .streaming
    · obtain ⟨out, t, hrun, -⟩ := call_of_room (A := A) _ hstate hs.short howed hroom
      rw [hrun] at h
      cases h
    · rw [call_of_done hstate] at h
      cases h
      rfl
  · rw [call_of_first_refused hfirst] at h
    cases h
    rfl

theorem settled_start (key snapshotId userId : Bytes) : Settled (start key snapshotId userId) :=
  ⟨(by decide : 0 < chunkPlaintext), fun h => absurd h (Nat.lt_irrefl 0)⟩

end Sender

/-- The manifest and the head of a media item of `byteLen` bytes. -/
def itemBegun (byteLen : Nat) : List Writer.Call :=
  [.record RecordType.manifest sampleManifest, .beginMedia "a" "" byteLen]

def itemSender (byteLen : Nat) : EStateM.Result HistoryFailure Sender Bytes :=
  Sender.calls (opensOnlySealed []) (itemBegun byteLen)
    (Sender.start [7] (List.replicate 16 1) (List.replicate 16 2))

theorem itemSender_ok (byteLen : Nat)
    (h : (match itemSender byteLen with
      | .ok _ s => decide (s.state = .streaming ∧ s.writer.mediaRemaining = byteLen ∧
          s.cipher.index = 0)
      | .error _ _ => false) = true) :
    ∃ out s, itemSender byteLen = .ok out s ∧ s.state = .streaming ∧
      s.writer.mediaRemaining = byteLen ∧ s.cipher.index = 0 := by
  cases hrun : itemSender byteLen with
  | ok out s =>
    rw [hrun] at h
    exact ⟨out, s, rfl, of_decide_eq_true h⟩
  | error f s =>
    rw [hrun] at h
    cases h

/-- An item of 65537 bytes is owed and 131072 are pushed. The first 65536 of them are written
before the push is refused, and the 65537 bytes of the item, which the sender would have taken,
are refused as well. -/
theorem long_piece_leaves_parts :
    ∃ out s f s', itemSender 65537 = .ok out s ∧
      Sender.call (opensOnlySealed []) (.mediaBytes (List.replicate 131072 0)) s = .error f s' ∧
      s'.writer.mediaRemaining = 1 ∧
      (∃ later t, Sender.call (opensOnlySealed []) (.mediaBytes (List.replicate 65537 5)) s =
        .ok later t) ∧
      ∃ e, Sender.call (opensOnlySealed []) (.mediaBytes (List.replicate 65537 5)) s' =
        .error e s' := by
  obtain ⟨out, s, hsent, hstate, howed, hindex⟩ := itemSender_ok 65537 (by decide +kernel)
  have hs := (Sender.settled_start _ _ _).calls hsent
  -- the piece is two parts: the first is taken, the second is not
  obtain ⟨part, hpart, hpiece⟩ : ∃ part : Bytes, part.length = chunkPlaintext ∧
      List.replicate 131072 0 = part ++ part :=
    ⟨List.replicate chunkPlaintext 0, List.length_replicate,
      (List.replicate_append_replicate (n := 65536) (m := 65536)).symm⟩
  have hcut : (List.replicate 131072 (0 : UInt8)).chunksOf chunkPlaintext = [part] ++ [part] := by
    have hlast : part.chunksOf chunkPlaintext = [part] := by
      have h := List.chunksOf_append (by decide) hpart []
      rwa [List.append_nil, List.chunksOf_nil] at h
    rw [hpiece, List.chunksOf_append (by decide) hpart, hlast]
    rfl
  obtain ⟨first, s₁, hfirst, hstate₁, -, hwriter, -⟩ := Sender.pushParts_of_room
    (A := opensOnlySealed []) [part] hs.short
    (fun p hp => Nat.le_of_eq (List.mem_singleton.mp hp ▸ hpart))
    (by rw [howed, List.flatten_singleton, hpart]; decide)
    (by rw [hindex]; exact (by decide : 0 + 1 < 2 ^ 32))
  have howed₁ : s₁.writer.mediaRemaining = 1 := by
    rw [hwriter, List.flatten_singleton, hpart]
    show s.writer.mediaRemaining - _ = 1
    rw [howed]
    rfl
  have hrefused : ∀ b : UInt8, ∀ n, 1 < n →
      Sender.call (opensOnlySealed []) (.mediaBytes (List.replicate n b)) s₁ =
        .error .malformed s₁ := by
    intro b n hn
    apply Sender.call_of_first_refused
    have hchunk : 1 < chunkPlaintext := by decide
    rw [howed₁, List.length_replicate]
    omega
  refine ⟨out, s, .malformed, s₁, hsent, ?_, howed₁, ?_, .malformed, hrefused 5 65537 (by decide)⟩
  · show (Sender.streaming >>= fun _ => Sender.pushParts _ (List.chunksOf _ _)) s = _
    rw [Op.bind_run, Sender.streaming_run hstate, hcut]
    refine Sender.pushParts_append_refused hfirst (Sender.pushParts_of_refused ?_)
    rw [howed₁, hpart]
    decide
  · obtain ⟨later, t, hrun, -⟩ := Sender.call_of_room (A := opensOnlySealed [])
      (List.replicate 65537 5) hstate hs.short (by rw [howed, List.length_replicate])
      (by
        have := List.length_chunksOf_le (by decide : 0 < chunkPlaintext)
          (List.replicate 65537 (5 : UInt8))
        rw [List.length_replicate] at this
        rw [hindex]
        exact Nat.lt_of_le_of_lt (Nat.add_le_add_left this _) (by decide))
    exact ⟨later, t, hrun⟩

/-- **A refused push leaves the transfer intact.** After any calls the sender took, a push of
media that is refused, of a piece within what is owed or with a first part beyond it, leaves the
sender as it was: what it puts on the wire from there on is what it would have put there without
the call; the bytes the item owes can be pushed and the stream finished; and a receiver fed all of
it, in any pieces, returns the events of the calls that were taken and is done. -/
theorem refused_media_leaves_transfer (A : Aead) (key snapshotId userId out piece : Bytes)
    (cs : List Writer.Call) (s s' : Sender) (f : HistoryFailure)
    (hsent : Sender.calls A cs (Sender.start key snapshotId userId) = .ok out s)
    (hwhole : s.WholePush piece)
    (hrefused : Sender.call A (.mediaBytes piece) s = .error f s') :
    s' = s ∧
    (∀ more later t, Sender.calls A more s' = .ok later t →
      Sender.calls A (cs ++ more) (Sender.start key snapshotId userId) = .ok (out ++ later) t) ∧
    (∀ rest : Bytes, s.state = .streaming → 0 < s.writer.mediaRemaining →
      rest.length = s.writer.mediaRemaining →
      s.cipher.index.toNat + (rest.chunksOf chunkPlaintext).length + 2 < 2 ^ 32 →
      ∃ later t, Sender.calls A [.mediaBytes rest, .finish] s' = .ok later t) ∧
    (A.Sized → ∀ more later t, Sender.calls A (more ++ [.finish]) s' = .ok later t →
      (∀ c ∈ cs ++ more, c.Announces (some { snapshotId, userId })) →
      A.Ideal { key, snapshotId, userId } (Sender.plaintexts (cs ++ more)) →
      ∃ honest, joinMedia honest = joinMedia (Writer.eventsOf 0 (cs ++ more ++ [.finish])) ∧
        ∀ pieces : List Bytes, pieces.flatten = out ++ later →
          let run := (Receiver.start key snapshotId userId).feeds A pieces
          (∀ res ∈ run.2, ∃ v, res = .ok v) ∧ Receiver.returned run.2 = honest ∧
            Receiver.saidDone run.2 ∧ run.1.endOfInput.2 = .ok ()) := by
  have hs := (Sender.settled_start key snapshotId userId).calls hsent
  obtain rfl := Sender.refused_of_whole hs hwhole hrefused
  refine ⟨rfl, fun more later t hmore => Sender.calls_append hsent hmore, ?_, ?_⟩
  · intro rest hstate howing hrest hroom
    obtain ⟨hrunning, hlast⟩ := hs.owing howing
    obtain ⟨first, s₁, hfirst, hstate₁, hshort₁, hwriter₁, hindex₁⟩ :=
      Sender.call_of_room (A := A) _ hstate hs.short (Nat.le_of_eq hrest) (by omega)
    obtain ⟨last, t, hfinish⟩ := Sender.finish_of_room (A := A) hstate₁ hshort₁
      (by rw [hwriter₁, hrest]; exact Nat.sub_self _) (by rw [hwriter₁]; exact hrunning)
      (by rw [hwriter₁]; exact hlast) (by omega)
    exact ⟨_, t, Op.bind_eq_ok.mpr ⟨first, s₁, hfirst, Op.bind_eq_ok.mpr ⟨_, t,
      Op.bind_eq_ok.mpr ⟨last, t, hfinish, rfl⟩, rfl⟩⟩⟩
  · intro hA more later t hmore hannounced hideal
    have hall := Sender.calls_append hsent hmore
    rw [← List.append_assoc] at hall
    obtain ⟨hwire, hcount, honest, reader, hfed, hdone, hjoin⟩ :=
      Sender.wire_of_calls hall hannounced
    refine ⟨honest, hjoin, fun pieces hpieces => ?_⟩
    exact Receiver.feeds_wire hA hideal (List.chunksOf_spec (by decide) _).2 hcount hfed hdone
      (hpieces.trans hwire)

/-- An item of two bytes is owed and three are pushed; then the two are pushed and the transfer is
finished. -/
theorem refused_media_leaves_transfer_sample :
    ∃ out s f s', itemSender 2 = .ok out s ∧
      Sender.call (opensOnlySealed []) (.mediaBytes [4, 5, 6]) s = .error f s' ∧ s' = s ∧
      ∃ later t, Sender.calls (opensOnlySealed []) [.mediaBytes [5, 6], .finish] s' =
        .ok later t := by
  obtain ⟨out, s, hsent, hstate, howed, hindex⟩ := itemSender_ok 2 (by decide +kernel)
  have hfirst : s.writer.mediaRemaining < min [(4 : UInt8), 5, 6].length chunkPlaintext := by
    rw [howed]
    decide
  have hrefused := Sender.call_of_first_refused (A := opensOnlySealed []) hfirst
  have h := refused_media_leaves_transfer _ _ _ _ _ _ _ _ _ _ hsent (.inr hfirst) hrefused
  refine ⟨out, s, _, s, hsent, hrefused, h.1, ?_⟩
  exact h.2.2.1 [5, 6] hstate (by rw [howed]; decide) howed.symm (by rw [hindex]; decide)

end History
