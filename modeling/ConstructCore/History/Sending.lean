import ConstructCore.History.Session

/-!
# What a sender puts on the wire

`Sent` follows a sender through calls that all succeed: what the writer wrote is the sealed
chunks followed by what is pending. At the end (`finished_of_calls`) the wire carries the chunks
of everything written, each under its index, and the end marker.
-/

namespace History

open Bytes

/-! ## Calls the writer takes -/

namespace Writer

/-- All of a sequence of calls were taken, and wrote these bytes. -/
inductive AllTaken : Writer → List Call → List Bytes → Writer → Prop
  | nil (w : Writer) : AllTaken w [] [] w
  | cons {w w' w'' : Writer} {c : Call} {cs : List Call} {b : Bytes} {bs : List Bytes}
      (hcall : call c w = .ok b w') (hrest : AllTaken w' cs bs w'') :
      AllTaken w (c :: cs) (b :: bs) w''

namespace AllTaken

variable {w w' w'' : Writer} {cs cs' : List Call} {bs bs' : List Bytes}

theorem owed_eq {c : Call} {b : Bytes} (hcall : call c w = .ok b w') :
    w'.mediaRemaining = (c.events w.mediaRemaining).2 := by
  cases c with
  | record ty proto =>
    obtain ⟨_, _, -, -, rfl⟩ := (record_spec.of_ok hcall).judged
    rfl
  | beginMedia mediaId mimeType byteLen =>
    obtain ⟨_, -, rfl⟩ := (beginMedia_spec.of_ok hcall).checked
    rfl
  | mediaBytes piece =>
    obtain ⟨-, -, rfl⟩ := mediaBytes_spec.of_ok hcall
    rfl
  | finish =>
    obtain ⟨-, -, -, _, -, rfl⟩ := finish_spec.of_ok hcall
    rfl

theorem append (h : AllTaken w cs bs w') (h' : AllTaken w' cs' bs' w'') :
    AllTaken w (cs ++ cs') (bs ++ bs') w'' := by
  induction h with
  | nil _ => exact h'
  | cons hcall _ ih => exact .cons hcall (ih h')

section

variable (h : AllTaken w cs bs w')

include h

theorem calls :
    w.calls cs = { writer := w', taken := cs, pieces := bs } := by
  induction h with
  | nil _ => rfl
  | cons hcall _ ih =>
    rw [Writer.calls, hcall]
    dsimp only
    rw [ih]

/-- What is owed at the start is written, where nothing is owed at the end. -/
theorem owed_le (hend : w'.mediaRemaining = 0) :
    w.mediaRemaining ≤ bs.flatten.length := by
  induction h with
  | nil w => omega
  | @cons w w₁ w' c cs b bs hcall _ ih =>
    have hrest := ih hend
    rw [List.flatten_cons, List.length_append]
    cases c with
    | record ty proto =>
      have hpaid := (record_spec.of_ok hcall).paid
      omega
    | beginMedia mediaId mimeType byteLen =>
      have hpaid := (beginMedia_spec.of_ok hcall).paid
      omega
    | mediaBytes piece =>
      obtain ⟨hpiece, rfl, rfl⟩ := mediaBytes_spec.of_ok hcall
      dsimp only at hrest
      omega
    | finish =>
      obtain ⟨-, hpaid, -⟩ := finish_spec.of_ok hcall
      omega

/-- Calls that are all taken are sound, where the whole of what they write is not too long: a
blob that is announced is written before the end. -/
theorem sound (hend : w'.mediaRemaining = 0) (hlen : bs.flatten.length + mediaHeadCap < 2 ^ 64) :
    SoundCalls w cs := by
  induction h with
  | nil _ => trivial
  | @cons w w₁ w' c cs b bs hcall hrest ih =>
    rw [List.flatten_cons, List.length_append] at hlen
    refine ⟨?_, ?_⟩
    · cases c with
      | record ty proto =>
        intro hty _ _
        obtain ⟨_, _, -, hjudged, -⟩ := (record_spec.of_ok hcall).judged
        cases hjudged with
        | manifest _ hm hversion hphase => exact ⟨_, hm, hversion, hphase⟩
        | message hmessage _ _ => exact absurd (hty.symm.trans hmessage) (by decide)
        | other hmanifest _ _ => exact absurd hty hmanifest
      | beginMedia mediaId mimeType byteLen =>
        obtain ⟨_, -, rfl⟩ := (beginMedia_spec.of_ok hcall).checked
        have howed := hrest.owed_le hend
        dsimp only at howed
        show byteLen + mediaHeadCap < 2 ^ 64
        omega
      | mediaBytes piece => trivial
      | finish => trivial
    · unfold next
      rw [hcall]
      exact ih hend (by omega)

end

theorem eventsOf_append (h : AllTaken w cs bs w') (cs' : List Call) :
    eventsOf w.mediaRemaining (cs ++ cs') =
      eventsOf w.mediaRemaining cs ++ eventsOf w'.mediaRemaining cs' := by
  induction h with
  | nil _ => rfl
  | cons hcall _ ih =>
    rw [List.cons_append, eventsOf, eventsOf, ← owed_eq hcall, ih, List.append_assoc]

theorem of_append (h : AllTaken w (cs ++ cs') bs w'') :
    ∃ bs₁ bs₂ w', AllTaken w cs bs₁ w' ∧ AllTaken w' cs' bs₂ w'' := by
  induction cs generalizing w bs with
  | nil => exact ⟨[], bs, w, .nil w, h⟩
  | cons c cs ih =>
    cases h with
    | @cons _ w₁ _ _ _ b bs hcall hrest =>
      obtain ⟨bs₁, bs₂, w', h₁, h₂⟩ := ih hrest
      exact ⟨b :: bs₁, bs₂, w', .cons hcall h₁, h₂⟩

theorem events_parts {ps : List Bytes} (h : AllTaken w (ps.map .mediaBytes) bs w')
    (hps : ∀ p ∈ ps, p ≠ []) :
    ps.flatten.length ≤ w.mediaRemaining ∧
      w'.mediaRemaining = w.mediaRemaining - ps.flatten.length ∧
      (eventsOf w.mediaRemaining (ps.map .mediaBytes)).flatMap Event.parts =
        ((Call.mediaBytes ps.flatten).events w.mediaRemaining).1.flatMap Event.parts := by
  induction ps generalizing w bs with
  | nil =>
    cases h
    refine ⟨Nat.zero_le _, rfl, ?_⟩
    have hnone : ¬ (0 < w'.mediaRemaining ∧ w'.mediaRemaining = ([] : Bytes).length) := by
      rw [List.length_nil]
      omega
    show [] = (Event.mediaBytes [] :: (if _ then _ else _)).flatMap Event.parts
    rw [List.flatten_nil, if_neg hnone]
    rfl
  | cons p ps ih =>
    cases h with
    | @cons _ w₁ _ _ _ b bs hcall hrest =>
      obtain ⟨hlen, -, rfl⟩ := mediaBytes_spec.of_ok hcall
      obtain ⟨hle, howed, hevents⟩ := ih hrest (fun q hq => hps q (List.mem_cons_of_mem p hq))
      dsimp only at hle howed hevents
      have hpos : 0 < p.length := List.length_pos_iff.mpr (hps p List.mem_cons_self)
      have hflat : (p :: ps).flatten.length = p.length + ps.flatten.length := by
        rw [List.flatten_cons, List.length_append]
      refine ⟨by omega, by omega, ?_⟩
      show (_ ++ eventsOf (w.mediaRemaining - p.length) (ps.map .mediaBytes)).flatMap _ = _
      rw [List.flatMap_append, hevents]
      unfold Call.events
      dsimp only
      rw [hflat]
      by_cases hlast : w.mediaRemaining = p.length
      · -- the first part pays all: there are no others
        have hnone : ps.flatten = [] := List.eq_nil_of_length_eq_zero (by omega)
        rw [List.flatten_cons, hnone, List.append_nil, if_pos (by omega),
          if_neg (by omega), if_pos (by rw [List.length_nil]; omega)]
        exact List.append_nil _
      · rw [if_neg (by omega), List.flatten_cons]
        by_cases hend : w.mediaRemaining = p.length + ps.flatten.length
        · rw [if_pos (by omega), if_pos (by omega)]
          simp [Event.parts]
        · rw [if_neg (by omega), if_neg (by omega)]
          simp [Event.parts]

end AllTaken

end Writer

/-! ## Chunks on the wire -/

/-- The chunks from the `i`-th on. -/
def ChunkCipher.chunks (A : Aead) (c : ChunkCipher) : Nat → List Bytes → Bytes
  | _, [] => []
  | i, p :: ps => c.chunk A (UInt32.ofNat i) p ++ c.chunks A (i + 1) ps

theorem ChunkCipher.chunks_append (A : Aead) (c : ChunkCipher) (i : Nat) (ps qs : List Bytes) :
    c.chunks A i (ps ++ qs) = c.chunks A i ps ++ c.chunks A (i + ps.length) qs := by
  induction ps generalizing i with
  | nil => rfl
  | cons p ps ih =>
    rw [List.cons_append, chunks, chunks, ih, List.append_assoc, List.length_cons,
      show i + 1 + ps.length = i + (ps.length + 1) by omega]

theorem ChunkCipher.chunks_index (A : Aead) (c : ChunkCipher) (index : UInt32) (i : Nat)
    (ps : List Bytes) : ({ c with index } : ChunkCipher).chunks A i ps = c.chunks A i ps := by
  induction ps generalizing i with
  | nil => rfl
  | cons p ps ih =>
    rw [chunks, chunks, ih]
    rfl

variable {c c' : ChunkCipher}

theorem ChunkCipher.nextIndex_ok {index : UInt32} (h : nextIndex c = .ok index c') :
    index = c.index ∧ ∃ i, c' = { c with index := i } ∧ i.toNat = c.index.toNat + 1 := by
  unfold nextIndex at h
  rw [Op.get_bind_eq_ok] at h
  cases hnext : c.index.checkedSucc with
  | none =>
    rw [hnext] at h
    cases h
  | some i =>
    rw [hnext] at h
    cases h
    exact ⟨rfl, i, rfl, UInt32.toNat_of_checkedSucc hnext⟩

theorem ChunkCipher.sealNext_ok {A : Aead} {p out : Bytes} (h : sealNext A p c = .ok out c') :
    out = c.chunk A c.index p ∧
      ∃ i, c' = { c with index := i } ∧ i.toNat = c.index.toNat + 1 := by
  unfold sealNext at h
  dsimp only at h
  rw [Op.ite_eq_ok] at h
  obtain ⟨-, h⟩ | ⟨-, h⟩ := h
  · cases h
  · obtain ⟨index, c₁, hindex, h⟩ := Op.bind_eq_ok.mp h
    obtain ⟨rfl, i, rfl, hi⟩ := nextIndex_ok hindex
    cases h
    exact ⟨rfl, i, rfl, hi⟩

namespace Sender

variable {A : Aead}

variable {all : Bool} {out : Bytes} {s s' : Sender} {u : Unit}

theorem sealChunks_ok {n : Nat} {pending rest : Bytes} {c c' : ChunkCipher}
    (hn : pending.length ≤ n) (h : sealChunks A all n pending c = .ok (out, rest) c') :
    ∃ ps i, pending = ps.flatten ++ rest ∧ out = c.chunks A c.index.toNat ps ∧
      c' = { c with index := i } ∧ i.toNat = c.index.toNat + ps.length ∧
      (all = false → ∀ p ∈ ps, p.length = chunkPlaintext) ∧
      (all = true → rest = [] ∧ ps = pending.chunksOf chunkPlaintext) := by
  induction n generalizing pending out c with
  | zero =>
    obtain rfl := List.eq_nil_of_length_eq_zero (Nat.le_zero.mp hn)
    cases h
    exact ⟨[], c'.index, rfl, rfl, rfl, rfl, fun _ _ hp => (nomatch hp), fun _ => ⟨rfl, rfl⟩⟩
  | succ n ih =>
    rw [sealChunks, Op.ite_eq_ok] at h
    obtain ⟨hmore, h⟩ | ⟨hmore, h⟩ := h
    · obtain ⟨first, c₁, hfirst, h⟩ := Op.bind_eq_ok.mp h
      obtain ⟨⟨more, rest'⟩, c₂, hrest, h⟩ := Op.bind_eq_ok.mp h
      cases h
      have hpos : pending ≠ [] := by
        rintro rfl
        rcases hmore with hfull | ⟨-, hne⟩
        · exact absurd hfull (by decide)
        · exact hne rfl
      have hlen := List.length_pos_iff.mpr hpos
      have hchunk : (0 : Nat) < chunkPlaintext := by decide
      obtain ⟨rfl, i, rfl, hi⟩ := ChunkCipher.sealNext_ok hfirst
      obtain ⟨ps, j, hpending, rfl, rfl, hj, hfull, hall⟩ :=
        ih (by rw [List.length_drop]; omega) hrest
      refine ⟨pending.take chunkPlaintext :: ps, j, ?_, ?_, rfl, ?_, ?_, ?_⟩
      · rw [List.flatten_cons, List.append_assoc, ← hpending, List.take_append_drop]
      · rw [ChunkCipher.chunks_index, hi, ChunkCipher.chunks, UInt32.ofNat_toNat]
      · rw [hj, List.length_cons]
        dsimp only
        omega
      · intro hall p hp
        rcases List.mem_cons.mp hp with rfl | hp
        · rcases hmore with hfull | ⟨htrue, -⟩
          · exact List.length_take_of_le hfull
          · rw [hall] at htrue
            cases htrue
        · exact hfull hall p hp
      · intro htrue
        obtain ⟨hnone, rfl⟩ := hall htrue
        exact ⟨hnone, (List.chunksOf_of_ne_nil hchunk hpos).symm⟩
    · cases h
      refine ⟨[], c'.index, rfl, rfl, rfl, rfl, fun _ _ hp => (nomatch hp), fun htrue => ?_⟩
      have hnil : rest = [] := not_not.mp fun hne => hmore (.inr ⟨htrue, hne⟩)
      rw [hnil]
      exact ⟨rfl, rfl⟩

/-- A sender after calls that all succeeded, given what its writer was asked and wrote, and what
was put on the wire. -/
structure Sent (A : Aead) (start : ChunkCipher) (s : Sender) (cs : List Writer.Call)
    (written : List Bytes) (out : Bytes) : Prop where
  taken : Writer.AllTaken .new cs written s.writer
  cipher : ∃ i, s.cipher = { start with index := i }
  chunked : ∃ ps, written.flatten = ps.flatten ++ s.pending ∧
    (∀ p ∈ ps, p.length = chunkPlaintext) ∧ out = start.chunks A 0 ps ∧
    s.cipher.index.toNat = ps.length

theorem streaming_ok (h : streaming s = .ok u s') :
    s' = s ∧ s.state = .streaming := by
  unfold streaming at h
  rw [Op.get_bind_eq_ok, Op.ite_eq_ok] at h
  obtain ⟨-, h⟩ | ⟨hstate, h⟩ := h
  · cases h
  · cases h
    exact ⟨rfl, not_not.mp hstate⟩

theorem write_ok {c : Writer.Call} (h : write c s = .ok u s') :
    ∃ b w, Writer.call c s.writer = .ok b w ∧
      s' = { s with writer := w, pending := s.pending ++ b } := by
  unfold write at h
  obtain ⟨b, s₁, hzoom, h⟩ := Op.bind_eq_ok.mp h
  unfold Op.zoom at hzoom
  cases hcall : Writer.call c s.writer with
  | error f w =>
    rw [hcall] at hzoom
    cases hzoom
  | ok b' w =>
    rw [hcall] at hzoom
    cases hzoom
    cases h
    exact ⟨b, w, rfl, rfl⟩

theorem sealPending_ok (h : sealPending A all s = .ok out s') :
    ∃ rest c, sealChunks A all s.pending.length s.pending s.cipher = .ok (out, rest) c ∧
      s' = { s with cipher := c, pending := rest } := by
  unfold sealPending at h
  rw [Op.get_bind_eq_ok] at h
  obtain ⟨⟨out', rest⟩, s₁, hzoom, h⟩ := Op.bind_eq_ok.mp h
  unfold Op.zoom at hzoom
  cases hseal : sealChunks A all s.pending.length s.pending s.cipher with
  | error f c =>
    rw [hseal] at hzoom
    cases hzoom
  | ok v c =>
    rw [hseal] at hzoom
    cases hzoom
    cases h
    exact ⟨rest, c, rfl, rfl⟩

section Steps

variable {start : ChunkCipher} {s s₁ s' : Sender} {cs : List Writer.Call} {written : List Bytes}
  {out more : Bytes} {c : Writer.Call} {u : Unit}

section Kept

variable (h : Sent A start s cs written out)

include h

/-- What a call of the writer adds to `pending`, and the full chunks taken off it. -/
theorem Sent.next (hwrite : write c s = .ok u s₁) (hseal : sealPending A false s₁ = .ok more s') :
    ∃ b, Sent A start s' (cs ++ [c]) (written ++ [b]) (out ++ more) ∧ s'.state = s.state := by
  obtain ⟨b, w, hcall, rfl⟩ := write_ok hwrite
  obtain ⟨rest, c', hchunks, rfl⟩ := sealPending_ok hseal
  obtain ⟨qs, j, hpending, rfl, rfl, hj, hfull, -⟩ := sealChunks_ok (Nat.le_refl _) hchunks
  dsimp only at hpending hj
  obtain ⟨i, hcipher⟩ := h.cipher
  obtain ⟨ps, hwritten, hps, rfl, hindex⟩ := h.chunked
  refine ⟨b, ⟨h.taken.append (.cons hcall (.nil w)), ⟨j, ?_⟩, ps ++ qs, ?_, ?_, ?_, ?_⟩, rfl⟩
  · dsimp only
    rw [hcipher]
  · rw [List.flatten_append, List.flatten_cons, List.flatten_nil, List.append_nil, hwritten,
      List.append_assoc, hpending, List.flatten_append, List.append_assoc]
  · intro p hp
    rcases List.mem_append.mp hp with hp | hp
    · exact hps p hp
    · exact hfull rfl p hp
  · dsimp only
    rw [ChunkCipher.chunks_append, Nat.zero_add, hindex, hcipher,
      ChunkCipher.chunks_index A start i]
  · rw [List.length_append, hj, hindex]

theorem Sent.parts {parts : List Bytes} (hparts : pushParts A parts s = .ok more s') :
    ∃ bs, Sent A start s' (cs ++ parts.map .mediaBytes) (written ++ bs) (out ++ more) ∧
      s'.state = s.state := by
  induction parts generalizing s cs written out more with
  | nil =>
    cases hparts
    exact ⟨[], by simpa only [List.map_nil, List.append_nil] using h, rfl⟩
  | cons part parts ih =>
    rw [pushParts] at hparts
    obtain ⟨u, s₁, hwrite, hparts⟩ := Op.bind_eq_ok.mp hparts
    obtain ⟨first, s₂, hseal, hparts⟩ := Op.bind_eq_ok.mp hparts
    obtain ⟨last, s₃, hrest, hparts⟩ := Op.bind_eq_ok.mp hparts
    cases hparts
    obtain ⟨b, hnext, hstate⟩ := h.next hwrite hseal
    obtain ⟨bs, hsent, hstate'⟩ := ih hnext hrest
    refine ⟨b :: bs, ?_, hstate'.trans hstate⟩
    simpa only [List.map_cons, List.append_assoc, List.singleton_append] using hsent

/-- What the writer is asked for by one call of the sender: a piece of a blob goes in parts. -/
def expand : Writer.Call → List Writer.Call
  | .mediaBytes piece => (piece.chunksOf chunkPlaintext).map .mediaBytes
  | c => [c]

theorem Sent.call (hc : c ≠ .finish) (hcall : Sender.call A c s = .ok more s') :
    ∃ bs, Sent A start s' (cs ++ expand c) (written ++ bs) (out ++ more) ∧
      s.state = .streaming ∧ s'.state = .streaming := by
  have hone : ∀ c, push A c s = .ok more s' →
      ∃ bs, Sent A start s' (cs ++ [c]) (written ++ bs) (out ++ more) ∧
        s.state = .streaming ∧ s'.state = .streaming := by
    intro c hrun
    obtain ⟨_, s₀, hstreaming, hrest⟩ := Op.bind_eq_ok.mp hrun
    obtain ⟨rfl, hstate⟩ := streaming_ok hstreaming
    obtain ⟨_, s₁, hwrite, hseal⟩ := Op.bind_eq_ok.mp hrest
    obtain ⟨b, hnext, hstate'⟩ := h.next hwrite hseal
    exact ⟨[b], hnext, hstate, hstate'.trans hstate⟩
  cases c with
  | record ty proto => exact hone _ hcall
  | beginMedia mediaId mimeType byteLen => exact hone _ hcall
  | mediaBytes piece =>
    obtain ⟨_, s₀, hstreaming, hrun⟩ := Op.bind_eq_ok.mp hcall
    obtain ⟨rfl, hstate⟩ := streaming_ok hstreaming
    obtain ⟨bs, hsent, hstate'⟩ := h.parts hrun
    exact ⟨bs, hsent, hstate, hstate'.trans hstate⟩
  | finish => exact absurd rfl hc

/-- **At the end the wire carries the chunks of everything written, and the end marker.** -/
theorem Sent.finish (hcall : Sender.call A .finish s = .ok more s') :
    ∃ b w, Writer.AllTaken .new (cs ++ [.finish]) (written ++ [b]) w ∧ w.ended = true ∧
      out ++ more =
        start.chunks A 0 ((written ++ [b]).flatten.chunksOf chunkPlaintext) ++ eof ∧
      ((written ++ [b]).flatten.chunksOf chunkPlaintext).length < 2 ^ 32 := by
  obtain ⟨_, s₀, hstreaming, hrun⟩ := Op.bind_eq_ok.mp hcall
  obtain ⟨rfl, -⟩ := streaming_ok hstreaming
  obtain ⟨_, s₁, hwrite, hrun⟩ := Op.bind_eq_ok.mp hrun
  obtain ⟨last, s₂, hseal, hrun⟩ := Op.bind_eq_ok.mp hrun
  obtain ⟨b, w, hfinish, rfl⟩ := write_ok hwrite
  obtain ⟨rest, c', hchunks, rfl⟩ := sealPending_ok hseal
  obtain ⟨qs, j, -, rfl, rfl, hj, -, hall⟩ := sealChunks_ok (Nat.le_refl _) hchunks
  cases hrun
  obtain ⟨-, hqs⟩ := hall rfl
  obtain ⟨i, hcipher⟩ := h.cipher
  obtain ⟨ps, hwritten, hps, rfl, hindex⟩ := h.chunked
  have hsplit : (written ++ [b]).flatten.chunksOf chunkPlaintext = ps ++ qs := by
    rw [List.flatten_append, List.flatten_cons, List.flatten_nil, List.append_nil, hwritten,
      List.append_assoc, List.chunksOf_flatten_append (by decide) hps, hqs]
  refine ⟨b, w, h.taken.append (.cons hfinish (.nil w)), ?_, ?_, ?_⟩
  · obtain ⟨-, -, -, order, -, rfl⟩ := Writer.finish_spec.of_ok hfinish
    rfl
  · dsimp only at hindex ⊢
    rw [hsplit, ChunkCipher.chunks_append, Nat.zero_add, hindex, hcipher,
      ChunkCipher.chunks_index A start i, List.append_assoc]
  · rw [hsplit, List.length_append]
    dsimp only at hj
    rw [← hindex, ← hj]
    exact j.toNat_lt

end Kept

theorem calls_of_done (hstate : s.state = .done) : ¬ Sender.calls A (c :: cs) s = .ok more s' := by
  intro h
  obtain ⟨first, s₁, hcall, -⟩ := Op.bind_eq_ok.mp h
  have hstreaming : ∃ u t, streaming s = .ok u t := by
    cases c with
    | record ty proto =>
      obtain ⟨u, t, hu, -⟩ := Op.bind_eq_ok.mp hcall
      exact ⟨u, t, hu⟩
    | beginMedia mediaId mimeType byteLen =>
      obtain ⟨u, t, hu, -⟩ := Op.bind_eq_ok.mp hcall
      exact ⟨u, t, hu⟩
    | mediaBytes piece =>
      obtain ⟨u, t, hu, -⟩ := Op.bind_eq_ok.mp hcall
      exact ⟨u, t, hu⟩
    | finish =>
      obtain ⟨u, t, hu, -⟩ := Op.bind_eq_ok.mp hcall
      exact ⟨u, t, hu⟩
  obtain ⟨u, t, hu⟩ := hstreaming
  rw [(streaming_ok hu).2] at hstate
  cases hstate

theorem finish_state (hcall : Sender.call A .finish s = .ok more s') : s'.state = .done := by
  obtain ⟨_, s₀, -, hrun⟩ := Op.bind_eq_ok.mp hcall
  obtain ⟨_, s₁, -, hrun⟩ := Op.bind_eq_ok.mp hrun
  obtain ⟨last, s₂, -, hrun⟩ := Op.bind_eq_ok.mp hrun
  cases hrun
  rfl

variable {ds : List Writer.Call}

/-- **A run that ends with `finish`.** The writer took what each call stands for, and the wire
carries the chunks of all it wrote and the end marker. -/
theorem Sent.finished (h : Sent A start s cs written out)
    (hcalls : Sender.calls A (ds ++ [.finish]) s = .ok more s') :
    ∃ bs w, Writer.AllTaken .new (cs ++ ds.flatMap expand ++ [.finish]) bs w ∧ w.ended = true ∧
      out ++ more = start.chunks A 0 (bs.flatten.chunksOf chunkPlaintext) ++ eof ∧
      (bs.flatten.chunksOf chunkPlaintext).length < 2 ^ 32 := by
  induction ds generalizing s cs written out more with
  | nil =>
    obtain ⟨last, s₁, hcall, hrest⟩ := Op.bind_eq_ok.mp hcalls
    cases hrest
    obtain ⟨b, w, htaken, hended, hout, hlen⟩ := h.finish hcall
    rw [List.flatMap_nil, List.append_nil, List.append_nil]
    exact ⟨written ++ [b], w, htaken, hended, hout, hlen⟩
  | cons d ds ih =>
    obtain ⟨first, s₁, hcall, hrest⟩ := Op.bind_eq_ok.mp hcalls
    obtain ⟨rest, s₂, hrun, heq⟩ := Op.bind_eq_ok.mp hrest
    cases heq
    by_cases hd : d = .finish
    · subst hd
      have hdone := finish_state hcall
      cases ds with
      | nil => exact absurd hrun (calls_of_done hdone)
      | cons d ds => exact absurd hrun (calls_of_done hdone)
    · obtain ⟨bs, hsent, -, -⟩ := h.call hd hcall
      obtain ⟨bs', w, htaken, hended, hout, hlen⟩ := ih hsent hrun
      refine ⟨bs', w, ?_, hended, ?_, hlen⟩
      · rw [List.flatMap_cons, ← List.append_assoc]
        exact htaken
      · rw [← List.append_assoc]
        exact hout

theorem sent_start (key snapshotId userId : Bytes) :
    Sent A { key, snapshotId, userId } (Sender.start key snapshotId userId) [] [] [] :=
  ⟨.nil _, ⟨0, rfl⟩, [], rfl, nofun, rfl, rfl⟩

/-- What the calls stand for, whether a piece of a blob goes in parts or not. -/
theorem events_expand {w w' : Writer} {bs : List Bytes}
    (h : Writer.AllTaken w (ds.flatMap expand) bs w') :
    (Writer.eventsOf w.mediaRemaining (ds.flatMap expand)).flatMap Event.parts =
      (Writer.eventsOf w.mediaRemaining ds).flatMap Event.parts := by
  induction ds generalizing w bs with
  | nil => rfl
  | cons d ds ih =>
    rw [List.flatMap_cons] at h ⊢
    obtain ⟨bs₁, bs₂, w₁, hfirst, hrest⟩ := h.of_append
    rw [hfirst.eventsOf_append, List.flatMap_append, ih hrest]
    show _ = ((d.events w.mediaRemaining).1 ++
      Writer.eventsOf (d.events w.mediaRemaining).2 ds).flatMap Event.parts
    rw [List.flatMap_append]
    have hone : ∀ c, Writer.AllTaken w [c] bs₁ w₁ →
        (Writer.eventsOf w.mediaRemaining [c]).flatMap Event.parts ++
          (Writer.eventsOf w₁.mediaRemaining ds).flatMap Event.parts =
        (c.events w.mediaRemaining).1.flatMap Event.parts ++
          (Writer.eventsOf (c.events w.mediaRemaining).2 ds).flatMap Event.parts := by
      intro c hc
      cases hc with
      | cons hcall hnil =>
        cases hnil
        rw [Writer.AllTaken.owed_eq hcall, Writer.eventsOf, Writer.eventsOf, List.append_nil]
    cases d with
    | record ty proto => exact hone _ hfirst
    | beginMedia mediaId mimeType byteLen => exact hone _ hfirst
    | mediaBytes piece =>
      obtain ⟨hflat, hparts⟩ := List.chunksOf_spec (by decide : 0 < chunkPlaintext) piece
      obtain ⟨-, howed, hevents⟩ := hfirst.events_parts (fun p hp => (hparts p hp).1)
      rw [hflat] at howed hevents
      show (Writer.eventsOf w.mediaRemaining
        ((piece.chunksOf chunkPlaintext).map .mediaBytes)).flatMap Event.parts ++ _ = _
      rw [hevents, howed]
      rfl
    | finish => exact hone _ hfirst

end Steps

end Sender

end History
