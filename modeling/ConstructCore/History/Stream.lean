import ConstructCore.History.Writer

/-!
# What the writer writes is read

A reader that is fed what the writer wrote is `InStep` with it: the same phase, the last rank it
has seen no higher than the writer's, and waiting for what the writer writes next. `InStep.taken`
and `InStep.refused` keep this over every call that meets `Call.Sound`; `InStep.calls` over every
sequence of them.

A call may break the step in two ways. The order of a manifest whose content is refused stays
checked: the writer then takes any other record although no manifest was written
(`Writer.refused_manifest_unread`). And a blob length near `2 ^ 64` makes the payload length
wrap.
-/

namespace History

open Bytes Incremental

/-! ## The two orders -/

namespace Order

/-- The reader's order `r` against the writer's `w`: the same phase, and a last rank where the
writer has one, no higher than it. -/
structure Lags (r w : Order) : Prop where
  phase : r.phase = w.phase
  first : r.last = none ↔ w.last = none
  last : ∀ a b, r.last = some a → w.last = some b → a.place ≤ b.place

theorem Lags.refl (o : Order) : Lags o o where
  phase := rfl
  first := Iff.rfl
  last a b ha hb := by
    obtain rfl : a = b := Option.some.inj (ha.symm.trans hb)
    exact Nat.le_refl _

/-- What a passed check says. -/
inductive Checked (o : Order) (k : Rank) : Prop
  | first (hlast : o.last = none) (hk : k = .manifest)
  | next (l : Rank) (hlast : o.last = some l) (hallows : o.allows k = true)
      (hle : l.place ≤ k.place)

variable {o r w w' : Order} {ty : UInt8} {k : Rank}

theorem check_ok {o' : Order} (hk : rank ty = some k) (h : o.check ty = .ok o') :
    o' = { o with last := some k } ∧ Checked o k := by
  unfold check at h
  rw [hk] at h
  dsimp only at h
  cases hlast : o.last with
  | none =>
    rw [hlast] at h
    dsimp only at h
    split at h
    · cases h
    · rename_i hmanifest
      cases h
      exact ⟨rfl, .first hlast (not_not.mp hmanifest)⟩
  | some l =>
    rw [hlast] at h
    dsimp only at h
    split at h
    · cases h
    · rename_i hgood
      obtain ⟨hallows, hle⟩ := not_or.mp hgood
      cases h
      exact ⟨rfl, .next l hlast (not_not.mp hallows) (Nat.le_of_not_lt hle)⟩

theorem check_of_checked (hk : rank ty = some k) (h : Checked o k) :
    o.check ty = .ok { o with last := some k } := by
  unfold check
  rw [hk]
  dsimp only
  cases h with
  | first hlast hmanifest =>
    rw [hlast]
    exact if_neg (not_not.mpr hmanifest)
  | next l hlast hallows hle =>
    rw [hlast]
    exact if_neg (not_or.mpr ⟨not_not.mpr hallows, Nat.not_lt.mpr hle⟩)

/-- What the writer's order lets through, the reader's does, and the two are in step again. -/
theorem Lags.check (hk : rank ty = some k) (h : Lags r w) (hcheck : w.check ty = .ok w') :
    ∃ r', r.check ty = .ok r' ∧ Lags r' w' := by
  obtain ⟨rfl, hchecked⟩ := check_ok hk hcheck
  have hreader : Checked r k := by
    cases hchecked with
    | first hlast hmanifest => exact .first (h.first.mpr hlast) hmanifest
    | next l hlast hallows hle =>
      cases hr : r.last with
      | none =>
        rw [h.first.mp hr] at hlast
        cases hlast
      | some a =>
        refine .next a hr ?_ (Nat.le_trans (h.last a l hr hlast) hle)
        unfold allows at hallows ⊢
        rw [h.phase]
        exact hallows
  refine ⟨_, check_of_checked hk hreader, h.phase, ⟨nofun, nofun⟩, ?_⟩
  rintro a b ha hb
  cases ha
  cases hb
  exact Nat.le_refl _

/-- A rank the writer has checked but not written leaves the reader behind, unless it is the
manifest's. -/
theorem Lags.behind (hk : rank ty = some k) (hmanifest : k ≠ .manifest) (h : Lags r w)
    (hcheck : w.check ty = .ok w') : Lags r w' := by
  obtain ⟨rfl, hchecked⟩ := check_ok hk hcheck
  cases hchecked with
  | first hlast hfirst => exact absurd hfirst hmanifest
  | next l hlast hallows hle =>
    refine ⟨h.phase, ⟨fun hr => ?_, nofun⟩, fun a b ha hb => ?_⟩
    · rw [h.first.mp hr] at hlast
      cases hlast
    · cases hb
      exact Nat.le_trans (h.last a l ha hlast) hle

end Order

/-- A transcript record has a rank, and only the manifest's is the manifest's. -/
theorem rank_transcript {ty : UInt8} (h : RecordType.manifest ≤ ty ∧ ty ≤ RecordType.call) :
    ∃ k, rank ty = some k ∧ (k = .manifest → ty = RecordType.manifest) := by
  have hlow : 1 ≤ ty.toNat := UInt8.le_iff_toNat_le.mp h.1
  have hhigh : ty.toNat ≤ 7 := UInt8.le_iff_toNat_le.mp h.2
  have hty : ty = UInt8.ofNat ty.toNat := UInt8.ofNat_toNat.symm
  generalize ty.toNat = n at hlow hhigh hty
  subst hty
  interval_cases n <;> exact ⟨_, rfl, by decide⟩

/-! ## Feeding the pieces of a record -/

namespace Reader

open Writer (frame)

variable {r : Reader} {ty : UInt8}

theorem feed_opening {w : Writer} (hbuf : r.buf = [])
    (hstate : r.state = if w.started then .recordHeader else .preamble) (d : Bytes) :
    feed step r (w.opening ++ d) = feed step { r with state := .recordHeader } d := by
  unfold Writer.opening
  cases hstarted : w.started with
  | true =>
    rw [hstarted, if_pos rfl] at hstate
    rw [if_pos rfl, List.nil_append, ← hstate]
  | false =>
    rw [hstarted, if_neg Bool.false_ne_true] at hstate
    obtain ⟨state, buf, order, envelope⟩ := r
    obtain rfl : buf = [] := hbuf
    obtain rfl : state = .preamble := hstate
    have hlen : (0 : Nat) < preambleLen := Nat.succ_pos 4
    have hstep : step ⟨.preamble, [], order, envelope⟩ (magic ++ [version] ++ d) =
        .ok (⟨.recordHeader, [], order, envelope⟩, d, []) := by
      rw [step_preamble (r := ⟨.preamble, [], order, envelope⟩) rfl hlen,
        gather_of_le (Nat.le_add_left 5 d.length)]
      rfl
    have hne : magic ++ [version] ++ d ≠ [] := List.cons_ne_nil _ _
    have hrest : Resting ⟨.preamble, [], order, envelope⟩ := hlen
    rw [if_neg Bool.false_ne_true, resumable.feed_of_ok hrest hne hstep]
    exact Option.map_id_apply

variable {len : Nat} {order : Order} {state : State} {r' : Reader} {out : List Event}
  {proto : Bytes}

theorem step_frame (hstate : r.state = .recordHeader) (hbuf : r.buf = [])
    (hty : ty ≠ RecordType.endRecord) (d : Bytes) :
    r.step (frame ty len d) =
      (r.header (ty :: leBytes 8 len)).map fun s => (s.1, d, s.2) := by
  have hend : ¬ (r.buf = [] ∧ (frame ty len d).head? = some RecordType.endRecord) :=
    fun h => hty (Option.some.inj h.2)
  have hlen : (ty :: leBytes 8 len).length = 9 := by rw [List.length_cons, length_leBytes]
  have hframe : frame ty len d = (ty :: leBytes 8 len) ++ d := rfl
  rw [step_header hstate (by rw [hbuf]; exact Nat.succ_pos 8) hend, hbuf, List.length_nil,
    gather_of_le (by rw [hframe, List.length_append, hlen]; exact Nat.le_add_right 9 _), hframe,
    show recordHeaderLen - 0 = (ty :: leBytes 8 len).length from hlen.symm, List.take_left,
    List.drop_left, List.nil_append]

theorem header_frame (hlen : len ≤ maxRecordBytes) (hbegin : r.begin ty len = .ok (order, state)) :
    r.header (ty :: leBytes 8 len) =
      if len = 0 then completeEmpty { r with buf := [], order, state }
      else .ok ({ r with buf := [], order, state }, []) := by
  have hread : ofLeBytes (leBytes 8 len) = len := by
    rw [ofLeBytes_leBytes]
    exact Nat.mod_eq_of_lt (Nat.lt_of_le_of_lt hlen (by decide))
  unfold header
  dsimp only
  rw [show (ty :: leBytes 8 len).headD 0 = ty from rfl,
    show (ty :: leBytes 8 len).drop 1 = leBytes 8 len from rfl, hread, if_neg (Nat.not_lt.mpr hlen), hbegin]
  rfl

/-- The header of a record with a payload leaves the reader to gather it. -/
theorem feed_frame (hstate : r.state = .recordHeader) (hbuf : r.buf = [])
    (hty : ty ≠ RecordType.endRecord) (hlen : len ≤ maxRecordBytes)
    (hbegin : r.begin ty len = .ok (order, state)) (hpos : 0 < len) (d : Bytes) :
    feed step r (frame ty len d) = feed step { r with buf := [], order, state } d := by
  have hstep : r.step (frame ty len d) = .ok ({ r with buf := [], order, state }, d, []) := by
    rw [step_frame hstate hbuf hty, header_frame hlen hbegin, if_neg (Nat.ne_of_gt hpos)]
    rfl
  have hne : frame ty len d ≠ [] := List.cons_ne_nil _ _
  rw [resumable.feed_of_ok (resting_of_header hstate hbuf) hne hstep]
  exact Option.map_id_apply

theorem feed_of_step {d : Bytes} (hr : r.Resting) (hd : d ≠ [])
    (hstep : r.step d = .ok (r', [], out)) : feed step r d = some (out, .ok r') := by
  rw [resumable.feed_of_ok hr hd hstep]
  show some (Fed.after out ([], .ok r')) = _
  rw [Fed.after, List.append_nil]

theorem feed_record (hstate : r.state = .recordHeader) (hbuf : r.buf = [])
    (hty : RecordType.manifest ≤ ty ∧ ty ≤ RecordType.call) (hlen : proto.length ≤ maxRecordBytes)
    (hcheck : r.order.check ty = .ok order)
    (hrecord : record { r with order, buf := [], state := .recordHeader } ty proto = .ok (r', out)) :
    feed step r (frame ty proto.length proto) = some (out, .ok r') := by
  have hne : ty ≠ RecordType.endRecord := by
    rintro rfl
    exact absurd hty.1 (by decide)
  have hbegin : r.begin ty proto.length = .ok (order, .record ty proto.length) := by
    unfold begin
    rw [if_pos hty, hcheck]
    rfl
  cases hproto : proto with
  | nil =>
    subst hproto
    refine feed_of_step (resting_of_header hstate hbuf) (List.cons_ne_nil _ _) ?_
    rw [step_frame hstate hbuf hne, header_frame hlen hbegin, if_pos List.length_nil]
    show (record { r with order, buf := [], state := .recordHeader } ty []).map _ = _
    rw [hrecord]
    rfl
  | cons b bs =>
    have hpos : 0 < proto.length := by
      rw [hproto]
      exact Nat.succ_pos _
    rw [← hproto, feed_frame hstate hbuf hne hlen hbegin hpos]
    refine feed_of_step hpos (List.length_pos_iff.mp hpos) ?_
    rw [step_record rfl, gather_of_le (Nat.le_refl _), List.take_length, List.drop_length]
    show (record { r with order, buf := [], state := .recordHeader } ty proto).map _ = _
    rw [hrecord]
    rfl

/-- What the writer judged fit to frame the reader takes, where a manifest names what the
envelope announced. -/
theorem record_judged (hjudged : Writer.Judged ty proto r.order order)
    (hannounced : ty = RecordType.manifest → ∀ m, manifest proto = .ok m → Announced r.envelope m) :
    r.record ty proto = .ok ({ r with order }, [Writer.recordEvent ty proto]) := by
  unfold record
  cases hjudged with
  | manifest hty hm hversion hphase =>
    have hevent : Writer.recordEvent ty proto = .record ty proto :=
      if_neg fun h => absurd (hty.symm.trans h.1) (by decide)
    rw [if_pos hty, Except.bind_of_ok hm, hevent]
    dsimp only
    rw [if_neg (not_not.mpr hversion), if_neg (not_not.mpr hphase),
      if_neg (not_not.mpr (hannounced hty _ hm))]
    rfl
  | @message b hty hb hset =>
    have hmanifest : ty ≠ RecordType.manifest := by
      rw [hty]
      decide
    rw [if_neg hmanifest, if_pos hty, Except.bind_of_ok hb]
    cases b with
    | known =>
      have hevent : Writer.recordEvent ty proto = .record ty proto :=
        if_neg fun h => by
          rw [hb] at h
          cases h.2
      rw [hevent]
      rfl
    | unknown =>
      have hevent : Writer.recordEvent ty proto = .skipped ty := if_pos ⟨hty, hb⟩
      rw [hevent]
      rfl
    | unset => exact absurd rfl hset
  | other hmanifest hmessage hproto =>
    have hevent : Writer.recordEvent ty proto = .record ty proto := if_neg fun h => hmessage h.1
    rw [if_neg hmanifest, if_neg hmessage, Except.bind_of_ok hproto, hevent]
    rfl

end Reader

/-! ## The head of a media blob -/

section MediaHead

open Writer (textBytes headBytes)

/-- A text field the writer wrote is read back, whatever stands around it. -/
theorem textField_written (pre post : Bytes) (payloadLen : Nat) (number : UInt8) (text : String)
    (hlen : (ofText text).length < 2 ^ 64)
    (hfits : pre.length + (textBytes number text).length ≤ payloadLen) :
    textField (pre ++ (textBytes number text ++ post)) payloadLen number pre.length =
      .ok (some (text, pre.length + (textBytes number text).length)) := by
  have hsize : (textBytes number text).length =
      1 + (writeVarint (ofText text).length).length + (ofText text).length := by
    unfold textBytes
    rw [List.length_cons, List.length_append]
    omega
  have hbuf : pre ++ (textBytes number text ++ post) =
      (pre ++ [tag number 2]) ++ (writeVarint (ofText text).length ++ (ofText text ++ post)) := by
    unfold textBytes
    simp only [List.append_assoc, List.cons_append, List.nil_append]
  have hkey : (pre ++ (textBytes number text ++ post))[pre.length]? = some (tag number 2) := by
    rw [List.getElem?_append_right (Nat.le_refl _), Nat.sub_self]
    rfl
  have hread := readVarint_writeVarint (pre ++ [tag number 2]) (ofText text ++ post) hlen
  rw [← hbuf, List.length_append, List.length_singleton] at hread
  have hend : pre.length + 1 + (writeVarint (ofText text).length).length + (ofText text).length =
      pre.length + (textBytes number text).length := by omega
  have htext : ((pre ++ (textBytes number text ++ post)).take
      (pre.length + 1 + (writeVarint (ofText text).length).length + (ofText text).length)).drop
      (pre.length + 1 + (writeVarint (ofText text).length).length) = ofText text := by
    have hbuf' : pre ++ (textBytes number text ++ post) =
        (pre ++ [tag number 2] ++ writeVarint (ofText text).length) ++ (ofText text ++ post) := by
      rw [hbuf, List.append_assoc (pre ++ [tag number 2])]
    have hlen' : (pre ++ [tag number 2] ++ writeVarint (ofText text).length).length =
        pre.length + 1 + (writeVarint (ofText text).length).length := by
      rw [List.length_append, List.length_append, List.length_singleton]
    rw [hbuf', ← hlen', List.take_length_add_append, List.drop_left, List.take_left]
  unfold textField
  rw [if_neg (by omega), hkey]
  dsimp only
  rw [if_neg (not_not.mpr rfl), hread]
  dsimp only
  rw [if_neg (by omega), if_neg (by rw [hend]; simp only [List.length_append]; omega), htext,
    toText?_ofText]
  dsimp only
  rw [hend]

/-- Where the payload ends or another field stands, a text field is absent. -/
theorem textField_absent {buf : Bytes} {payloadLen pos : Nat} {number : UInt8}
    (h : pos = payloadLen ∨ pos ≠ payloadLen ∧ ∃ key, buf[pos]? = some key ∧ key ≠ tag number 2) :
    textField buf payloadLen number pos = .ok (some ("", pos)) := by
  unfold textField
  rcases h with h | ⟨hpos, key, hkey, htag⟩
  · exact if_pos h
  · rw [if_neg hpos, hkey]
    exact if_pos htag

variable {mediaId mimeType : String} {byteLen : Nat}

theorem blobField_written (pre : Bytes) (hid : mediaId ≠ "")
    (hfits : (pre ++ (if 0 < byteLen then tag 3 2 :: writeVarint byteLen else [])).length + byteLen
      < 2 ^ 64) :
    blobField (pre ++ (if 0 < byteLen then tag 3 2 :: writeVarint byteLen else []))
        ((pre ++ (if 0 < byteLen then tag 3 2 :: writeVarint byteLen else [])).length + byteLen)
        mediaId mimeType pre.length =
      .ok (some { mediaId, mimeType, blobLen := byteLen, consumed :=
        (pre ++ (if 0 < byteLen then tag 3 2 :: writeVarint byteLen else [])).length }) := by
  unfold blobField
  rw [if_neg hid]
  by_cases hpos : 0 < byteLen
  · rw [if_pos hpos] at hfits ⊢
    have hread := readVarint_writeVarint (pre ++ [tag 3 2]) [] (v := byteLen) (by omega)
    rw [List.append_nil, List.append_assoc, List.singleton_append, List.length_append,
      List.length_singleton] at hread
    have hkey : (pre ++ tag 3 2 :: writeVarint byteLen)[pre.length]? = some (tag 3 2) := by
      rw [List.getElem?_append_right (Nat.le_refl _), Nat.sub_self]
      rfl
    have hsize : (pre ++ tag 3 2 :: writeVarint byteLen).length =
        pre.length + 1 + (writeVarint byteLen).length := by
      rw [List.length_append, List.length_cons]
      omega
    rw [if_neg (by omega), hkey]
    dsimp only
    rw [if_neg (not_not.mpr rfl), hread]
    dsimp only
    rw [← hsize, if_neg (not_not.mpr (Nat.mod_eq_of_lt hfits))]
  · obtain rfl : byteLen = 0 := Nat.eq_zero_of_not_pos hpos
    rw [if_neg hpos, List.append_nil]
    exact if_pos rfl

/-- **The head the writer wrote is read back.** -/
theorem mediaHead_written (hid : mediaId ≠ "")
    (hfits : (headBytes mediaId mimeType byteLen).length + byteLen < 2 ^ 64) :
    mediaHead (headBytes mediaId mimeType byteLen)
        ((headBytes mediaId mimeType byteLen).length + byteLen) =
      .ok (some { mediaId, mimeType, blobLen := byteLen, consumed :=
        (headBytes mediaId mimeType byteLen).length }) := by
  have hsize : ∀ number text, (ofText text).length ≤ (textBytes number text).length := by
    intro number text
    unfold textBytes
    rw [List.length_cons, List.length_append]
    omega
  have hid' := hsize 1 mediaId
  have hmime' := hsize 2 mimeType
  have hbytes : headBytes mediaId mimeType byteLen =
      (textBytes 1 mediaId ++ (if mimeType = "" then [] else textBytes 2 mimeType)) ++
        (if 0 < byteLen then tag 3 2 :: writeVarint byteLen else []) :=
    (List.append_assoc _ _ _).symm
  have hfirst : textField (headBytes mediaId mimeType byteLen)
      ((headBytes mediaId mimeType byteLen).length + byteLen) 1 0 =
      .ok (some (mediaId, (textBytes 1 mediaId).length)) := by
    have hlen : (textBytes 1 mediaId).length ≤ (headBytes mediaId mimeType byteLen).length := by
      unfold headBytes
      rw [List.length_append]
      omega
    have h := textField_written []
      ((if mimeType = "" then [] else textBytes 2 mimeType) ++
        (if 0 < byteLen then tag 3 2 :: writeVarint byteLen else []))
      ((headBytes mediaId mimeType byteLen).length + byteLen) 1 mediaId (by omega)
      (by rw [List.length_nil]; omega)
    rw [List.nil_append, List.length_nil, Nat.zero_add] at h
    exact h
  have hsecond : textField (headBytes mediaId mimeType byteLen)
      ((headBytes mediaId mimeType byteLen).length + byteLen) 2 (textBytes 1 mediaId).length =
      .ok (some (mimeType,
        (textBytes 1 mediaId ++ (if mimeType = "" then [] else textBytes 2 mimeType)).length)) := by
    by_cases hmime : mimeType = ""
    · subst hmime
      have hbuf : headBytes mediaId "" byteLen = textBytes 1 mediaId ++
          (if 0 < byteLen then tag 3 2 :: writeVarint byteLen else []) := rfl
      rw [if_pos rfl, List.append_nil, hbuf]
      refine textField_absent ?_
      by_cases hpos : 0 < byteLen
      · rw [if_pos hpos]
        refine .inr ⟨by rw [List.length_append]; omega, tag 3 2, ?_, by decide⟩
        rw [List.getElem?_append_right (Nat.le_refl _), Nat.sub_self]
        rfl
      · rw [if_neg hpos, List.append_nil]
        exact .inl (by omega)
    · have hbuf : headBytes mediaId mimeType byteLen = textBytes 1 mediaId ++
          (textBytes 2 mimeType ++ (if 0 < byteLen then tag 3 2 :: writeVarint byteLen else [])) := by
        unfold headBytes
        rw [if_neg hmime]
      have hend : (textBytes 1 mediaId ++ textBytes 2 mimeType).length =
          (textBytes 1 mediaId).length + (textBytes 2 mimeType).length := List.length_append
      rw [hbuf] at hfits
      rw [if_neg hmime, hbuf, hend]
      simp only [List.length_append] at hfits
      exact textField_written _ _ _ 2 mimeType (by omega)
        (by simp only [List.length_append]; omega)
  unfold mediaHead
  rw [hfirst]
  dsimp only
  rw [hsecond]
  dsimp only
  rw [hbytes] at hfits ⊢
  exact blobField_written _ hid hfits

end MediaHead

namespace Reader

open Writer (frame headBytes)

theorem feed_media {r : Reader} {order : Order} {mediaId mimeType : String} {byteLen : Nat}
    (hstate : r.state = .recordHeader) (hbuf : r.buf = []) (hid : mediaId ≠ "")
    (hcap : (headBytes mediaId mimeType byteLen).length ≤ mediaHeadCap)
    (hfits : (headBytes mediaId mimeType byteLen).length + byteLen ≤ maxRecordBytes)
    (hcheck : r.order.check RecordType.mediaBlob = .ok order) :
    feed step r (frame RecordType.mediaBlob
        ((headBytes mediaId mimeType byteLen).length + byteLen)
        (headBytes mediaId mimeType byteLen)) =
      some (((Writer.Call.beginMedia mediaId mimeType byteLen).events 0).1,
        .ok { r with order, state := if byteLen = 0 then .recordHeader else .mediaBlob byteLen }) := by
  have hlen : 0 < (headBytes mediaId mimeType byteLen).length := Nat.succ_pos _
  generalize hhead : headBytes mediaId mimeType byteLen = head at *
  have hbegin : r.begin RecordType.mediaBlob (head.length + byteLen) =
      .ok (order, .mediaHead (head.length + byteLen)) := by
    unfold begin
    rw [if_neg (by decide), if_pos rfl, hcheck]
    rfl
  have hread : mediaHead head (head.length + byteLen) =
      .ok (some { mediaId, mimeType, blobLen := byteLen, consumed := head.length }) := by
    rw [← hhead] at hfits ⊢
    exact mediaHead_written hid (Nat.lt_of_le_of_lt hfits (by decide))
  have hrest : Resting { r with buf := [], order, state := .mediaHead (head.length + byteLen) } :=
    ⟨Nat.lt_min.mpr ⟨by rw [List.length_nil]; omega, (by decide : 0 < mediaHeadCap)⟩,
      mediaHead_nil (by omega)⟩
  have hstep : step { r with buf := [], order, state := .mediaHead (head.length + byteLen) } head =
      .ok ({ r with order, state := if byteLen = 0 then .recordHeader else .mediaBlob byteLen }, [],
        ((Writer.Call.beginMedia mediaId mimeType byteLen).events 0).1) := by
    have htake : head.take (min (head.length + byteLen) mediaHeadCap - 0) = head :=
      List.take_of_length_le (by rw [Nat.sub_zero]; exact Nat.le_min.mpr ⟨by omega, hcap⟩)
    rw [step_mediaHead rfl, List.length_nil, htake, List.nil_append]
    unfold headStep
    rw [hread]
    unfold mediaBegin Writer.Call.events
    dsimp only
    rw [Nat.sub_zero, List.drop_length, ← hbuf]
    split <;> rfl
  rw [feed_frame hstate hbuf (by decide) hfits hbegin (by omega)]
  exact feed_of_step hrest (List.length_pos_iff.mp hlen) hstep

end Reader

/-! ## In step -/

namespace Writer

def awaited (w : Writer) : State :=
  if w.ended then .done
  else if 0 < w.mediaRemaining then .mediaBlob w.mediaRemaining
  else if w.started then .recordHeader
  else .preamble

/-- The reader has read all that the writer wrote. -/
structure InStep (w : Writer) (r : Reader) : Prop where
  order : Order.Lags r.order w.order
  buf : r.buf = []
  state : r.state = w.awaited
  /-- A stream that has ended owes nothing. -/
  paid : w.ended = true → w.mediaRemaining = 0
  /-- A blob that is owed has begun. -/
  begun : 0 < w.mediaRemaining → w.started = true

theorem inStep_new (envelope : Option Envelope) : InStep new (Reader.new envelope) where
  order := .refl {}
  buf := rfl
  state := rfl
  paid := nofun
  begun := nofun

/-- What keeps a call from leaving the reader behind: a manifest offered while there is none is
one the reader will take, and the length of a blob and its head is a 64-bit number. -/
def Call.Sound (w : Writer) : Call → Prop
  | .record ty proto => ty = RecordType.manifest → w.order.last = none →
      proto.length ≤ maxRecordBytes → Framable proto
  | .beginMedia _ _ byteLen => byteLen + mediaHeadCap < 2 ^ 64
  | .mediaBytes _ => True
  | .finish => True

def Call.Announces (envelope : Option Envelope) : Call → Prop
  | .record ty proto => ty = RecordType.manifest →
      ∀ m, manifest proto = .ok m → Reader.Announced envelope m
  | _ => True

/-- What feeding a reader that is in step comes to, after a call that was taken. -/
structure Reads (w : Writer) (r : Reader) (c : Call) (b : Bytes) (w' : Writer)
    (out : List Event) (r' : Reader) : Prop where
  fed : feed Reader.step r b = some (out, .ok r')
  inStep : InStep w' r'
  envelope : r'.envelope = r.envelope
  events : out.flatMap Event.parts = (c.events w.mediaRemaining).1.flatMap Event.parts
  owed : w'.mediaRemaining = (c.events w.mediaRemaining).2

section Step

variable {w w' : Writer} {r : Reader} {b : Bytes}

variable (h : InStep w r)

include h

/-- Where a writer is ready for a record, the reader waits for one or for the preamble. -/
theorem InStep.awaits (hrunning : w.ended = false) (hpaid : w.mediaRemaining = 0) :
    r.state = if w.started then .recordHeader else .preamble := by
  rw [h.state]
  unfold awaited
  rw [hrunning, hpaid]
  rfl

theorem InStep.record {ty : UInt8} {proto : Bytes} (htaken : RecordTaken w ty proto b w')
    (hannounces : (Call.record ty proto).Announces r.envelope) :
    ∃ out r', Reads w r (.record ty proto) b w' out r' := by
  obtain ⟨checked, order, hcheck, hjudged, rfl⟩ := htaken.judged
  obtain ⟨k, hk, -⟩ := rank_transcript htaken.transcript
  obtain ⟨seen, hseen, hlags⟩ := h.order.check hk hcheck
  have hlags' : ∃ order', Judged ty proto seen order' ∧ Order.Lags order' order := by
    cases hjudged with
    | manifest hty hm hversion hphase =>
      exact ⟨_, .manifest hty hm hversion hphase, rfl, hlags.first, hlags.last⟩
    | message hty hb hset => exact ⟨_, .message hty hb hset, hlags⟩
    | other hmanifest hmessage hproto => exact ⟨_, .other hmanifest hmessage hproto, hlags⟩
  obtain ⟨order', hjudged', hlags'⟩ := hlags'
  have hrecord := Reader.record_judged
    (r := { r with order := seen, buf := [], state := .recordHeader }) hjudged' hannounces
  refine ⟨_, { r with order := order', buf := [], state := .recordHeader }, ?_,
    ⟨hlags', rfl, ?_, ?_, ?_⟩, rfl, rfl, rfl⟩
  · rw [htaken.written, Reader.feed_opening h.buf (h.awaits htaken.running htaken.paid)]
    exact Reader.feed_record rfl h.buf htaken.transcript htaken.fits hseen hrecord
  · unfold awaited
    rw [htaken.running, htaken.paid]
    rfl
  · intro _
    exact htaken.paid
  · intro _
    rfl

theorem InStep.media {mediaId mimeType : String} {byteLen : Nat}
    (htaken : MediaTaken w mediaId mimeType byteLen b w') (hlen : byteLen + mediaHeadCap < 2 ^ 64) :
    ∃ out r', Reads w r (.beginMedia mediaId mimeType byteLen) b w' out r' := by
  obtain ⟨order, hcheck, rfl⟩ := htaken.checked
  obtain ⟨seen, hseen, hlags⟩ := h.order.check (k := .media) rfl hcheck
  have hcapped := htaken.capped
  have hwords : ((headBytes mediaId mimeType byteLen).length + byteLen) % 2 ^ 64 =
      (headBytes mediaId mimeType byteLen).length + byteLen := Nat.mod_eq_of_lt (by omega)
  have hfits := htaken.fits
  rw [hwords] at hfits
  refine ⟨_, { r with order := seen, state := if byteLen = 0 then .recordHeader
                                               else .mediaBlob byteLen }, ?_,
    ⟨hlags, h.buf, ?_, ?_, ?_⟩, rfl, rfl, rfl⟩
  · rw [htaken.written, hwords, Reader.feed_opening h.buf (h.awaits htaken.running htaken.paid)]
    exact Reader.feed_media rfl h.buf htaken.named hcapped hfits hseen
  · unfold awaited
    dsimp only
    rw [htaken.running, if_neg Bool.false_ne_true]
    by_cases hzero : byteLen = 0
    · rw [if_pos hzero, if_neg (by omega), if_pos rfl]
    · rw [if_neg hzero, if_pos (by omega)]
  · intro hended
    rw [htaken.running] at hended
    cases hended
  · intro _
    rfl

theorem InStep.piece {piece : Bytes} (hpiece : piece.length ≤ w.mediaRemaining) :
    ∃ out r', Reads w r (.mediaBytes piece) piece
      { w with mediaRemaining := w.mediaRemaining - piece.length } out r' := by
  by_cases hnil : piece = []
  · subst hnil
    refine ⟨[], r, rfl, h, rfl, ?_, rfl⟩
    have hnone : ¬ (0 < w.mediaRemaining ∧ w.mediaRemaining = ([] : Bytes).length) := by
      rw [List.length_nil]
      omega
    unfold Call.events
    dsimp only
    rw [if_neg hnone]
    rfl
  · have hlen : 0 < piece.length := List.length_pos_iff.mpr hnil
    have howed : 0 < w.mediaRemaining := by omega
    have hrunning : w.ended = false := by
      refine Bool.eq_false_iff.mpr fun hended => ?_
      have := h.paid hended
      omega
    have hstarted := h.begun howed
    have hstate : r.state = .mediaBlob w.mediaRemaining := by
      rw [h.state]
      unfold awaited
      rw [hrunning, if_neg Bool.false_ne_true, if_pos howed]
    have hrest : r.Resting := by
      simp only [Reader.Resting, hstate]
      exact ⟨h.buf, howed⟩
    by_cases hlast : w.mediaRemaining = piece.length
    · refine ⟨[.mediaBytes piece, .mediaEnd], { r with state := .recordHeader },
        Reader.feed_of_step hrest hnil ?_, ⟨h.order, h.buf, ?_, ?_, ?_⟩, rfl, ?_, rfl⟩
      · rw [Reader.step_blob_last hstate (Nat.le_of_eq hlast), hlast, List.drop_length,
          List.take_length]
      · unfold awaited
        dsimp only
        rw [hrunning, if_neg Bool.false_ne_true, if_neg (by omega), hstarted, if_pos rfl]
      · intro _
        show w.mediaRemaining - piece.length = 0
        omega
      · intro _
        exact hstarted
      · unfold Call.events
        dsimp only
        rw [if_pos ⟨howed, hlast⟩]
    · refine ⟨_, _, Reader.feed_of_step hrest hnil
        (Reader.step_blob_more hstate (by omega)), ⟨h.order, h.buf, ?_, ?_, ?_⟩, rfl, ?_, rfl⟩
      · unfold awaited
        dsimp only
        rw [hrunning, if_neg Bool.false_ne_true, if_pos (by omega)]
      · intro hended
        rw [hrunning] at hended
        cases hended
      · intro _
        exact hstarted
      · unfold Call.events
        dsimp only
        rw [if_neg (fun h => hlast h.2)]

theorem InStep.finish {order : Order} (hrunning : w.ended = false) (hpaid : w.mediaRemaining = 0)
    (hcheck : w.order.check RecordType.endRecord = .ok order) :
    ∃ out r', Reads w r .finish (w.opening ++ [RecordType.endRecord])
      { w with order, started := true, ended := true } out r' := by
  obtain ⟨seen, hseen, hlags⟩ := h.order.check (k := .final) rfl hcheck
  refine ⟨[.ended], { r with order := seen, state := .done }, ?_, ⟨hlags, h.buf, rfl, ?_, ?_⟩,
    rfl, rfl, rfl⟩
  · rw [Reader.feed_opening h.buf (h.awaits hrunning hpaid)]
    refine Reader.feed_of_step (Reader.resting_of_header rfl h.buf) (List.cons_ne_nil _ _) ?_
    have hhead : [RecordType.endRecord].head? = some RecordType.endRecord := rfl
    rw [Reader.step_end (r := { r with state := .recordHeader }) rfl ⟨h.buf, hhead⟩]
    show (r.order.check RecordType.endRecord).map _ = _
    rw [hseen]
    rfl
  · intro _
    exact hpaid
  · intro _
    rfl

variable {c : Call}

/-- **A call that is taken writes what the reader takes for it, and leaves the two in step.** -/
theorem InStep.taken (hcall : call c w = .ok b w') (hannounces : c.Announces r.envelope)
    (hlen : ∀ mediaId mimeType byteLen, c = .beginMedia mediaId mimeType byteLen →
      byteLen + mediaHeadCap < 2 ^ 64) :
    ∃ out r', Reads w r c b w' out r' := by
  cases c with
  | record ty proto => exact h.record (record_spec.of_ok hcall) hannounces
  | beginMedia mediaId mimeType byteLen =>
    exact h.media (beginMedia_spec.of_ok hcall) (hlen mediaId mimeType byteLen rfl)
  | mediaBytes piece =>
    obtain ⟨hpiece, rfl, rfl⟩ := mediaBytes_spec.of_ok hcall
    exact h.piece hpiece
  | finish =>
    obtain ⟨hrunning, hpaid, rfl, order, hcheck, rfl⟩ := finish_spec.of_ok hcall
    exact h.finish hrunning hpaid hcheck

/-- **A call that is refused leaves the two in step.** -/
theorem InStep.refused {f : HistoryFailure} (hcall : call c w = .error f w') (hsound : c.Sound w) :
    InStep w' r := by
  obtain rfl | ⟨ty, proto, order, rfl, htranscript, hfits, hcheck, rfl, hmanifest⟩ :=
    call_error hcall
  · exact h
  · obtain ⟨k, hk, hty⟩ := rank_transcript htranscript
    have hother : k ≠ .manifest := by
      rintro rfl
      have hty := hty rfl
      obtain ⟨-, hlast | ⟨l, -, hallows, -⟩⟩ := Order.check_ok hk hcheck
      · exact hmanifest hty (hsound hty ‹_› hfits)
      · cases hallows
    exact ⟨h.order.behind hk hother hcheck, h.buf, h.state, h.paid, h.begun⟩

end Step

/-! ## Runs -/

def next (w : Writer) (c : Call) : Writer :=
  match call c w with
  | .ok _ w' => w'
  | .error _ w' => w'

def SoundCalls (w : Writer) : List Call → Prop
  | [] => True
  | c :: cs => c.Sound w ∧ SoundCalls (w.next c) cs

theorem calls_append (w : Writer) (cs cs' : List Call) :
    (w.calls (cs ++ cs')).writer = ((w.calls cs).writer.calls cs').writer := by
  induction cs generalizing w with
  | nil => rfl
  | cons c cs ih =>
    rw [List.cons_append, calls, calls]
    cases hcall : call c w with
    | ok b w' => exact ih w'
    | error f w' => exact ih w'

variable {w : Writer} {cs : List Call}

theorem SoundCalls.append {cs' : List Call} (h : SoundCalls w cs)
    (h' : SoundCalls (w.calls cs).writer cs') : SoundCalls w (cs ++ cs') := by
  induction cs generalizing w with
  | nil => exact h'
  | cons c cs ih =>
    refine ⟨h.1, ih h.2 ?_⟩
    unfold next
    rw [calls] at h'
    cases hcall : call c w with
    | ok b w' =>
      rw [hcall] at h'
      exact h'
    | error f w' =>
      rw [hcall] at h'
      exact h'

/-- Over any sequence of sound calls, the reader that is fed what was written for each call stays
in step and reports the calls that were taken. -/
theorem InStep.calls {r : Reader} (h : InStep w r) (hsound : SoundCalls w cs)
    (hannounces : ∀ c ∈ cs, c.Announces r.envelope) :
    ∃ out r', feedAll Reader.step r (w.calls cs).pieces = some (out, .ok r') ∧
      InStep (w.calls cs).writer r' ∧
      out.flatMap Event.parts =
        (eventsOf w.mediaRemaining (w.calls cs).taken).flatMap Event.parts := by
  induction cs generalizing w r with
  | nil => exact ⟨[], r, rfl, h, rfl⟩
  | cons c cs ih =>
    obtain ⟨hc, hcs⟩ := hsound
    have hannounces' : ∀ d ∈ cs, d.Announces r.envelope :=
      fun d hd => hannounces d (List.mem_cons_of_mem c hd)
    unfold next at hcs
    rw [Writer.calls]
    cases hcall : call c w with
    | error f w' =>
      rw [hcall] at hcs
      obtain ⟨out, r', hfed, hstep, hevents⟩ := ih (h.refused hcall hc) hcs hannounces'
      rw [(call_error hcall).mediaRemaining] at hevents
      exact ⟨out, r', hfed, hstep, hevents⟩
    | ok b w' =>
      rw [hcall] at hcs
      have hlen : ∀ mediaId mimeType byteLen, c = .beginMedia mediaId mimeType byteLen →
          byteLen + mediaHeadCap < 2 ^ 64 := by
        rintro mediaId mimeType byteLen rfl
        exact hc
      obtain ⟨first, r₁, hreads⟩ := h.taken hcall (hannounces c List.mem_cons_self) hlen
      rw [← hreads.envelope] at hannounces'
      obtain ⟨out, r', hfed, hstep, hevents⟩ := ih hreads.inStep hcs hannounces'
      refine ⟨first ++ out, r', ?_, hstep, ?_⟩
      · dsimp only
        rw [feedAll, hreads.fed]
        show (feedAll Reader.step r₁ (w'.calls cs).pieces).map (Fed.after first) = _
        rw [hfed]
        rfl
      · show _ = ((c.events w.mediaRemaining).1 ++
          eventsOf (c.events w.mediaRemaining).2 (w'.calls cs).taken).flatMap Event.parts
        rw [List.flatMap_append, List.flatMap_append, hreads.events, hevents, hreads.owed]

/-- A manifest the writer refuses for its content has been checked by then: the writer goes on to
take an End, and the reader refuses the stream. -/
theorem refused_manifest_unread :
    (∃ b w', call .finish (new.calls [.record RecordType.manifest [7]]).writer = .ok b w') ∧
      (new.calls ([.record RecordType.manifest [7]] ++ [.finish])).bytes = magic ++ [version, 0] ∧
      (Reader.new none).read [(new.calls ([.record RecordType.manifest [7]] ++ [.finish])).bytes] =
        some ([], .error .recordOrder) :=
  ⟨⟨_, _, rfl⟩, rfl, rfl⟩

/-- **Whatever the writer took, the reader reads.** Over every sequence of sound calls, some of
which may be refused, that ends with an End the writer takes, the reader takes all that was
written, and its events are the calls taken, in order and up to joining media bytes. -/
theorem written_is_read (cs : List Call) (hsound : SoundCalls new cs)
    (hend : ∃ b w', call .finish (new.calls cs).writer = .ok b w') :
    ∃ out, (Reader.new none).read [(new.calls (cs ++ [.finish])).bytes] = some (out, .ok ()) ∧
      joinMedia out = joinMedia (eventsOf 0 (new.calls (cs ++ [.finish])).taken) := by
  obtain ⟨b, w', hend⟩ := hend
  have hnew := Reader.resting_new none
  have hannounces : ∀ c ∈ cs ++ [.finish], c.Announces (Reader.new none).envelope := by
    intro c _
    cases c with
    | record ty proto => exact fun _ _ _ env henv => nomatch henv
    | _ => trivial
  have hlast : SoundCalls (new.calls cs).writer [.finish] := ⟨trivial, trivial⟩
  obtain ⟨out, r', hfed, hstep, hevents⟩ :=
    (inStep_new none).calls (hsound.append hlast) hannounces
  have hstate : r'.state = .done := by
    have hended : (new.calls (cs ++ [.finish])).writer.ended = true := by
      obtain ⟨-, -, -, order, -, rfl⟩ := finish_spec.of_ok hend
      rw [calls_append, calls, hend]
      rfl
    rw [hstep.state]
    unfold awaited
    rw [hended, if_pos rfl]
  -- the stream in one piece, against the pieces it was written in
  have hsame : [(new.calls (cs ++ [.finish])).bytes].flatten =
      (new.calls (cs ++ [.finish])).pieces.flatten := List.append_nil _
  obtain ⟨fed, fed', hone, hpieces, hparts, hres⟩ := Reader.resumable.feedAll_agree hnew hsame
  obtain rfl : fed' = (out, .ok r') := Option.some.inj (hpieces.symm.trans hfed)
  refine ⟨fed.1, ?_, joinMedia_of_parts (hparts.trans hevents)⟩
  rw [Reader.read_eq_feedAll hnew, hone]
  show some (fed.1, Reader.outcome fed.2) = _
  rw [hres]
  show some (fed.1, r'.finish.2) = _
  unfold Reader.finish
  rw [hstate]

/-- A manifest, a contact refused for its content, a message with a body of a later version and a
media item in two pieces. -/
theorem written_is_read_media :
    ∃ out, (Reader.new none).read [(new.calls ([.record RecordType.manifest [8, 1, 104, 3],
        .record RecordType.contact [7], .record RecordType.message [0x8a, 0x01, 0],
        .beginMedia "a" "" 2, .mediaBytes [5], .mediaBytes [6]] ++ [.finish])).bytes] =
        some (out, .ok ()) ∧
      joinMedia out = joinMedia (eventsOf 0 [.record RecordType.manifest [8, 1, 104, 3],
        .record RecordType.message [0x8a, 0x01, 0], .beginMedia "a" "" 2, .mediaBytes [5],
        .mediaBytes [6], .finish]) :=
  written_is_read _
    ⟨fun _ _ _ => ⟨⟨1, [], [], 3⟩, rfl, rfl, by decide, by decide⟩, nofun, nofun,
      (by decide : 2 + mediaHeadCap < 2 ^ 64), trivial, trivial, trivial⟩
    ⟨_, _, rfl⟩

end Writer

end History
