import ConstructCore.History.Cth1

/-!
# The record stream does not depend on its pieces

However the bytes of a stream are cut, the reader reports the same and comes to the same. What
a step does with the bytes it has depends only on the state and on how many it still wants:
preamble, headers and records are gathered (`Incremental.gather`), a blob passes through, and a
media head is decided as soon as its own bytes are there (`mediaHead_append`,
`mediaHead_of_take`). `Reader.resumable` says so of every step; `Incremental.Resumable` does the
rest.
-/

namespace History

open Bytes Incremental

/-! ## A media head depends on its own bytes -/

section MediaHead

variable {buf more : Bytes} {payloadLen pos n : Nat} {number : UInt8} {mediaId mimeType : String}

theorem textField_eq : textField buf payloadLen number pos =
    if pos = payloadLen then .ok (some ("", pos))
    else andThen (.ok buf[pos]?) fun key =>
      if key ≠ tag number 2 then .ok (some ("", pos))
      else andThen (readVarint buf (pos + 1)) fun v =>
        if payloadLen < v.2 + v.1 then .error .malformed
        else if buf.length < v.2 + v.1 then .ok none
        else match toText? ((buf.take (v.2 + v.1)).drop v.2) with
          | none => .error .malformed
          | some text => .ok (some (text, v.2 + v.1)) := by
  unfold textField
  cases buf[pos]? with
  | none => rfl
  | some key => rcases readVarint buf (pos + 1) with f | _ | v <;> rfl

theorem textField_append (h : textField buf payloadLen number pos ≠ .ok none) :
    textField (buf ++ more) payloadLen number pos = textField buf payloadLen number pos := by
  rw [textField_eq] at h
  rw [textField_eq, textField_eq]
  refine guard_congr h fun h => andThen_congr h getElem?_append_settled fun key h => ?_
  refine guard_congr h fun h => andThen_congr h readVarint_append fun v h => ?_
  refine guard_congr h fun h => ?_
  -- what the bytes so far do not hold is the one thing that more of them would change
  have hhere : ¬ buf.length < v.2 + v.1 := fun hshort => h (if_pos hshort)
  rw [if_neg hhere, if_neg (by rw [List.length_append]; omega),
    List.take_append_of_le_length (by omega)]

theorem blobField_eq : blobField buf payloadLen mediaId mimeType pos =
    if mediaId = "" then .error .malformed
    else if pos = payloadLen then
      .ok (some { mediaId, mimeType, blobLen := 0, consumed := pos })
    else andThen (.ok buf[pos]?) fun key =>
      if key ≠ tag 3 2 then .error .malformed
      else andThen (readVarint buf (pos + 1)) fun v =>
        if (v.2 + v.1) % 2 ^ 64 ≠ payloadLen then .error .malformed
        else .ok (some { mediaId, mimeType, blobLen := v.1, consumed := v.2 }) := by
  unfold blobField
  cases buf[pos]? with
  | none => rfl
  | some key => rcases readVarint buf (pos + 1) with f | _ | v <;> rfl

theorem blobField_append (h : blobField buf payloadLen mediaId mimeType pos ≠ .ok none) :
    blobField (buf ++ more) payloadLen mediaId mimeType pos =
      blobField buf payloadLen mediaId mimeType pos := by
  rw [blobField_eq] at h
  rw [blobField_eq, blobField_eq]
  refine guard_congr h fun h => guard_congr h fun h => ?_
  refine andThen_congr h getElem?_append_settled fun key h => ?_
  exact guard_congr h fun h => andThen_congr h readVarint_append fun _ _ => rfl

theorem mediaHead_eq : mediaHead buf payloadLen =
    andThen (textField buf payloadLen 1 0) fun v =>
      andThen (textField buf payloadLen 2 v.2) fun w =>
        blobField buf payloadLen v.1 w.1 w.2 := by
  unfold mediaHead
  rcases textField buf payloadLen 1 0 with f | _ | ⟨mediaId, pos⟩
  · rfl
  · rfl
  · rcases hmime : textField buf payloadLen 2 pos with f | _ | w <;> simp only [andThen, hmime]

/-- Bytes after a head that is complete, or that is none, do not change its reading. -/
theorem mediaHead_append (h : mediaHead buf payloadLen ≠ .ok none) :
    mediaHead (buf ++ more) payloadLen = mediaHead buf payloadLen := by
  rw [mediaHead_eq] at h
  rw [mediaHead_eq, mediaHead_eq]
  refine andThen_congr h textField_append fun v h => ?_
  exact andThen_congr h textField_append fun w h => blobField_append h

/-- A text field ends in the payload and not before it starts, and its own bytes suffice to read
it: where it is absent, with the key that follows. -/
theorem textField_ok {text : String} {p : Nat}
    (h : textField buf payloadLen number pos = .ok (some (text, p))) :
    pos ≤ p ∧ (p ≤ buf.length ∨ p = pos) ∧
      ∀ n, p < n ∨ p ≤ n ∧ p = payloadLen →
        textField (buf.take n) payloadLen number pos = .ok (some (text, p)) := by
  rw [textField_eq] at h
  split at h
  · rename_i hpos
    cases h
    exact ⟨Nat.le_refl _, .inr rfl, fun n _ => if_pos hpos⟩
  rename_i hpos
  obtain ⟨key, hkey, h⟩ := of_andThen_eq_some h
  split at h
  · rename_i htag
    cases h
    refine ⟨Nat.le_refl _, .inr rfl, fun n hn => ?_⟩
    rw [textField_eq, if_neg hpos, List.getElem?_take_of_lt (by omega), andThen_of_some hkey,
      if_pos htag]
  rename_i htag
  obtain ⟨⟨len, q⟩, hvarint, h⟩ := of_andThen_eq_some h
  obtain ⟨hlt, hle, htake⟩ := readVarint_ok hvarint
  dsimp only at h
  split at h
  · cases h
  rename_i hfits
  split at h
  · cases h
  rename_i hhere
  split at h
  · cases h
  rename_i htext
  cases h
  refine ⟨by omega, .inl (by omega), fun n hn => ?_⟩
  have hn' : q + len ≤ n := by omega
  rw [textField_eq, if_neg hpos, List.getElem?_take_of_lt (by omega), andThen_of_some hkey,
    if_neg htag, andThen_of_some (htake n (by omega))]
  dsimp only
  rw [if_neg hfits, if_neg (by rw [List.length_take]; omega), List.take_take,
    Nat.min_eq_left hn', htext]

variable {head : MediaHead}

theorem blobField_ok (h : blobField buf payloadLen mediaId mimeType pos = .ok (some head)) :
    (pos = payloadLen ∧ head.consumed = pos ∨ pos < head.consumed ∧ head.consumed ≤ buf.length) ∧
      blobField (buf.take head.consumed) payloadLen mediaId mimeType pos = .ok (some head) := by
  rw [blobField_eq] at h
  split at h
  · cases h
  rename_i hid
  split at h
  · rename_i hpos
    cases h
    refine ⟨.inl ⟨hpos, rfl⟩, ?_⟩
    rw [blobField_eq, if_neg hid, if_pos hpos]
  rename_i hpos
  obtain ⟨key, hkey, h⟩ := of_andThen_eq_some h
  split at h
  · cases h
  rename_i htag
  obtain ⟨⟨len, q⟩, hvarint, h⟩ := of_andThen_eq_some h
  obtain ⟨hlt, hle, htake⟩ := readVarint_ok hvarint
  dsimp only at h
  split at h
  · cases h
  rename_i hfits
  cases h
  refine ⟨.inr ⟨by dsimp only; omega, hle⟩, ?_⟩
  rw [blobField_eq, if_neg hid, if_neg hpos, List.getElem?_take_of_lt (by dsimp only; omega),
    andThen_of_some hkey, if_neg htag, andThen_of_some (htake q (Nat.le_refl q)), if_neg hfits]

theorem mediaHead_ok (hne : 0 < payloadLen) (h : mediaHead buf payloadLen = .ok (some head)) :
    head.consumed ≤ buf.length ∧
      mediaHead (buf.take head.consumed) payloadLen = .ok (some head) := by
  rw [mediaHead_eq] at h
  obtain ⟨⟨mediaId, pos⟩, hid, h⟩ := of_andThen_eq_some h
  obtain ⟨⟨mimeType, pos'⟩, hmime, h⟩ := of_andThen_eq_some h
  obtain ⟨-, hend, htake⟩ := textField_ok hid
  obtain ⟨hle, hend', htake'⟩ := textField_ok hmime
  obtain ⟨hlast, hblob⟩ := blobField_ok h
  dsimp only at hle hend' hlast
  have hpos : pos < head.consumed ∨ pos ≤ head.consumed ∧ pos = payloadLen := by omega
  have hpos' : pos' < head.consumed ∨ pos' ≤ head.consumed ∧ pos' = payloadLen := by omega
  refine ⟨by omega, ?_⟩
  rw [mediaHead_eq, andThen_of_some (htake _ hpos), andThen_of_some (htake' _ hpos')]
  exact hblob

/-- A head that the bytes so far did not settle takes some of those that follow. -/
theorem lt_consumed (hne : 0 < payloadLen) (hnone : mediaHead buf payloadLen = .ok none)
    (h : mediaHead (buf ++ more) payloadLen = .ok (some head)) : buf.length < head.consumed := by
  by_contra hle
  obtain ⟨-, htake⟩ := mediaHead_ok hne h
  rw [List.take_append_of_le_length (Nat.le_of_not_lt hle)] at htake
  have hsettled : mediaHead (buf.take head.consumed) payloadLen ≠ .ok none := by
    rw [htake]
    exact nofun
  have hbuf : mediaHead (buf.take head.consumed ++ buf.drop head.consumed) payloadLen = _ :=
    mediaHead_append hsettled
  rw [List.take_append_drop, hnone, htake] at hbuf
  cases hbuf

end MediaHead

/-! ## Media bytes up to joining -/

/-- An event as the part of it that no cut can change, or the bytes of a media item one by
one. -/
def Event.parts : Event → List (Event ⊕ UInt8)
  | .mediaBytes b => b.map .inr
  | e => [.inl e]

def attachBytes (b : Bytes) (es : List Event) : List Event :=
  if b = [] then es
  else
    match es with
    | .mediaBytes c :: rest => .mediaBytes (b ++ c) :: rest
    | _ => .mediaBytes b :: es

def joinMedia : List Event → List Event
  | [] => []
  | .mediaBytes b :: es => attachBytes b (joinMedia es)
  | e :: es => e :: joinMedia es

def regroup : List (Event ⊕ UInt8) → List Event
  | [] => []
  | .inl e :: ps => e :: regroup ps
  | .inr b :: ps => attachBytes [b] (regroup ps)

theorem attachBytes_cons (b : UInt8) (c : Bytes) (es : List Event) :
    attachBytes [b] (attachBytes c es) = attachBytes (b :: c) es := by
  unfold attachBytes
  by_cases hc : c = []
  · subst hc
    rfl
  · cases es with
    | nil => simp [hc]
    | cons e rest => cases e <;> simp [hc]

theorem regroup_bytes (b : Bytes) (ps : List (Event ⊕ UInt8)) :
    regroup (b.map .inr ++ ps) = attachBytes b (regroup ps) := by
  induction b with
  | nil => rfl
  | cons c b ih =>
    show attachBytes [c] (regroup (b.map .inr ++ ps)) = _
    rw [ih, attachBytes_cons]

theorem joinMedia_eq_regroup (es : List Event) : joinMedia es = regroup (es.flatMap Event.parts) := by
  induction es with
  | nil => rfl
  | cons e es ih =>
    rw [List.flatMap_cons]
    cases e with
    | mediaBytes b =>
      show attachBytes b (joinMedia es) = regroup (b.map .inr ++ _)
      rw [regroup_bytes, ih]
    | _ => exact congrArg (List.cons _) ih

theorem joinMedia_of_parts {es es' : List Event}
    (h : es.flatMap Event.parts = es'.flatMap Event.parts) : joinMedia es = joinMedia es' := by
  rw [joinMedia_eq_regroup, joinMedia_eq_regroup, h]

/-! ## The steps of the reader -/

namespace Reader

theorem take_min_length (d : Bytes) (n : Nat) : d.take (min n d.length) = d.take n := by
  rw [← List.take_take, List.take_length]

theorem drop_min_length (d : Bytes) (n : Nat) : d.drop (min n d.length) = d.drop n := by
  rcases Nat.le_total n d.length with h | h
  · rw [Nat.min_eq_left h]
  · rw [Nat.min_eq_right h, List.drop_length, List.drop_of_length_le h]

section Steps

variable {r : Reader}

variable {len remaining payloadLen before : Nat} {d buf x y : Bytes} {ty : UInt8} {r' : Reader}
  {out : List Event} {head : MediaHead}

theorem fill_gather (hbuf : r.buf.length < len)
    (complete : Bytes → Except HistoryFailure (Reader × List Event)) (d : Bytes) :
    (let (buf, data) := fill r.buf d len
     if buf.length ≠ len then .ok ({ r with buf }, data, [])
     else (complete buf).map fun s => (s.1, data, s.2)) =
      gather (len - r.buf.length) (fun z => { r with buf := r.buf ++ z })
        (fun z => complete (r.buf ++ z)) d := by
  simp only [fill, take_min_length, drop_min_length]
  rcases Nat.lt_or_ge d.length (len - r.buf.length) with hlt | hge
  · rw [gather_of_lt hlt, List.take_of_length_le (Nat.le_of_lt hlt),
      List.drop_of_length_le (Nat.le_of_lt hlt),
      if_pos (by rw [List.length_append]; omega)]
  · rw [gather_of_le hge, if_neg]
    rw [List.length_append, List.length_take_of_le hge]
    omega

theorem step_preamble (hstate : r.state = .preamble) (hbuf : r.buf.length < preambleLen)
    (d : Bytes) :
    r.step d = gather (preambleLen - r.buf.length) (fun z => { r with buf := r.buf ++ z })
      (fun z => r.opening (r.buf ++ z)) d := by
  rw [← fill_gather hbuf]
  unfold step
  rw [hstate]

theorem step_end (hstate : r.state = .recordHeader)
    (hend : r.buf = [] ∧ d.head? = some RecordType.endRecord) :
    r.step d = (r.order.check RecordType.endRecord).map fun order =>
      ({ r with order, state := .done }, d.drop 1, [.ended]) := by
  unfold step
  rw [hstate]
  dsimp only
  rw [if_pos hend]
  cases r.order.check RecordType.endRecord <;> rfl

theorem step_header (hstate : r.state = .recordHeader) (hbuf : r.buf.length < recordHeaderLen)
    (hend : ¬ (r.buf = [] ∧ d.head? = some RecordType.endRecord)) :
    r.step d = gather (recordHeaderLen - r.buf.length) (fun z => { r with buf := r.buf ++ z })
      (fun z => r.header (r.buf ++ z)) d := by
  rw [← fill_gather hbuf]
  unfold step
  rw [hstate]
  dsimp only
  rw [if_neg hend]

theorem step_record (hstate : r.state = .record ty remaining) (d : Bytes) :
    r.step d = gather remaining
      (fun z => { r with buf := r.buf ++ z, state := .record ty (remaining - z.length) })
      (fun z => record { r with buf := [], state := .recordHeader } ty (r.buf ++ z)) d := by
  unfold step
  rw [hstate]
  simp only [take_min_length, drop_min_length]
  rcases Nat.lt_or_ge d.length remaining with hlt | hge
  · rw [gather_of_lt hlt, Nat.min_eq_right (Nat.le_of_lt hlt), if_pos (by omega),
      List.take_of_length_le (Nat.le_of_lt hlt), List.drop_of_length_le (Nat.le_of_lt hlt)]
  · rw [gather_of_le hge, Nat.min_eq_left hge, if_neg (by omega)]

theorem step_discard (hstate : r.state = .discard ty remaining) (d : Bytes) :
    r.step d = gather remaining
      (fun z => { r with state := .discard ty (remaining - z.length) })
      (fun _ => .ok ({ r with state := .recordHeader }, [.skipped ty])) d := by
  unfold step
  rw [hstate]
  simp only [drop_min_length]
  rcases Nat.lt_or_ge d.length remaining with hlt | hge
  · rw [gather_of_lt hlt, Nat.min_eq_right (Nat.le_of_lt hlt), if_pos (by omega),
      List.drop_of_length_le (Nat.le_of_lt hlt)]
  · rw [gather_of_le hge, Nat.min_eq_left hge, if_neg (by omega)]
    rfl

theorem step_blob_last (hstate : r.state = .mediaBlob remaining) (hd : remaining ≤ d.length) :
    r.step d = .ok ({ r with state := .recordHeader }, d.drop remaining,
      [.mediaBytes (d.take remaining), .mediaEnd]) := by
  unfold step
  rw [hstate]
  dsimp only
  rw [Nat.min_eq_left hd, if_pos (Nat.sub_self _)]

theorem step_blob_more (hstate : r.state = .mediaBlob remaining) (hd : d.length < remaining) :
    r.step d = .ok ({ r with state := .mediaBlob (remaining - d.length) }, [],
      [.mediaBytes d]) := by
  unfold step
  rw [hstate]
  dsimp only
  rw [Nat.min_eq_right (Nat.le_of_lt hd), if_neg (by omega), List.drop_length, List.take_length]

/-- What a media head's step comes to, from the bytes of the head that are there. -/
def headStep (r : Reader) (payloadLen before : Nat) (buf d : Bytes) :
    Except HistoryFailure (Reader × Bytes × List Event) :=
  match mediaHead buf payloadLen with
  | .error f => .error f
  | .ok none =>
    if min payloadLen mediaHeadCap ≤ buf.length then .error .malformed
    else .ok ({ r with buf }, d.drop (min payloadLen mediaHeadCap - before), [])
  | .ok (some head) => .ok (r.mediaBegin head before d)

theorem step_mediaHead (hstate : r.state = .mediaHead payloadLen) (d : Bytes) :
    r.step d = r.headStep payloadLen r.buf.length
      (r.buf ++ d.take (min payloadLen mediaHeadCap - r.buf.length)) d := by
  unfold step headStep
  rw [hstate]
  dsimp only
  rewrite [take_min_length, drop_min_length]
  rfl

/-! ## Between two steps -/

/-- Between two steps the reader wants at least one more byte of the unit it assembles. -/
def Resting (r : Reader) : Prop :=
  match r.state with
  | .preamble => r.buf.length < preambleLen
  | .recordHeader => r.buf.length < recordHeaderLen
  | .record _ remaining => 0 < remaining
  | .discard _ remaining => r.buf = [] ∧ 0 < remaining
  | .mediaBlob remaining => r.buf = [] ∧ 0 < remaining
  | .mediaHead payloadLen =>
    r.buf.length < min payloadLen mediaHeadCap ∧ mediaHead r.buf payloadLen = .ok none
  | .done => True
  | .failed _ => False

theorem resting_new (envelope : Option Envelope) : (new envelope).Resting := by
  show (0 : Nat) < 5
  omega

theorem resting_of_header (hstate : r.state = .recordHeader) (hbuf : r.buf = []) :
    r.Resting := by
  unfold Resting
  rw [hstate, hbuf]
  show (0 : Nat) < 9
  omega

theorem record_ok {proto : Bytes} (h : r.record ty proto = .ok (r', out)) :
    r'.state = r.state ∧ r'.buf = r.buf := by
  unfold record at h
  split at h
  · obtain ⟨m, -, h⟩ := Except.exists_of_bind_ok h
    dsimp only at h
    split at h
    · cases h
    split at h
    · cases h
    split at h
    · cases h
    cases h
    exact ⟨rfl, rfl⟩
  split at h
  · obtain ⟨b, -, h⟩ := Except.exists_of_bind_ok h
    split at h <;> cases h <;> exact ⟨rfl, rfl⟩
  · obtain ⟨-, -, h⟩ := Except.exists_of_bind_ok h
    cases h
    exact ⟨rfl, rfl⟩

theorem opening_ok (h : r.opening buf = .ok (r', out)) : r'.Resting := by
  unfold opening at h
  split at h
  · cases h
  split at h
  · cases h
  cases h
  exact resting_of_header rfl rfl

theorem mediaHead_nil (h : 0 < payloadLen) :
    mediaHead [] payloadLen = .ok none := by
  have htext : textField [] payloadLen 1 0 = .ok none := if_neg (Nat.ne_of_lt h)
  unfold mediaHead
  rw [htext]

theorem begin_ok {v : Order × State} (h : r.begin ty len = .ok v) :
    v.2 = .record ty len ∨ v.2 = .mediaHead len ∨ v.2 = .discard ty len := by
  unfold begin at h
  split at h
  · obtain ⟨order, -, h⟩ := Except.exists_of_bind_ok h
    cases h
    exact .inl rfl
  split at h
  · obtain ⟨order, -, h⟩ := Except.exists_of_bind_ok h
    cases h
    exact .inr (.inl rfl)
  · cases h
    exact .inr (.inr rfl)

theorem completeEmpty_ok
    (hstate : r.state = .record ty len ∨ r.state = .mediaHead len ∨ r.state = .discard ty len)
    (hbuf : r.buf = []) (h : r.completeEmpty = .ok (r', out)) : r'.Resting := by
  unfold completeEmpty at h
  rcases hstate with hstate | hstate | hstate <;> rw [hstate] at h
  · obtain ⟨hs, hb⟩ := record_ok h
    exact resting_of_header hs (hb.trans hbuf)
  · cases h
  · cases h
    exact resting_of_header rfl hbuf

theorem header_ok (h : r.header buf = .ok (r', out)) : r'.Resting := by
  unfold header at h
  dsimp only at h
  split at h
  · cases h
  obtain ⟨⟨order, state⟩, hbegin, h⟩ := Except.exists_of_bind_ok h
  have hstate := begin_ok hbegin
  dsimp only at h hstate
  split at h
  · exact completeEmpty_ok hstate rfl h
  · rename_i hlen
    have hpos : 0 < ofLeBytes (buf.drop 1) := Nat.pos_of_ne_zero hlen
    cases h
    unfold Resting
    rcases hstate with rfl | rfl | rfl
    · exact hpos
    · exact ⟨Nat.lt_min.mpr ⟨hpos, (by decide : 0 < mediaHeadCap)⟩, mediaHead_nil hpos⟩
    · exact ⟨rfl, hpos⟩

theorem mediaBegin_rest (hd : d ≠ []) (hbefore : before < head.consumed) :
    (r.mediaBegin head before d).1.Resting ∧
      (r.mediaBegin head before d).2.1.length < d.length := by
  have hlen : (d.drop (head.consumed - before)).length < d.length := by
    have := List.length_pos_iff.mpr hd
    rw [List.length_drop]
    omega
  unfold mediaBegin
  dsimp only
  split
  · exact ⟨resting_of_header rfl rfl, hlen⟩
  · rename_i hblob
    exact ⟨⟨rfl, Nat.pos_of_ne_zero hblob⟩, hlen⟩

/-- **A step leaves the reader resting, and has used some of its input.** -/
theorem step_keeps {rest : Bytes} (hr : r.Resting) (hd : d ≠ [])
    (h : r.step d = .ok (r', rest, out)) :
    r'.Resting ∧ rest.length < d.length := by
  cases hstate : r.state with
  | preamble =>
    have hbuf : r.buf.length < preambleLen := by simpa only [Resting, hstate] using hr
    rw [step_preamble hstate hbuf] at h
    obtain ⟨hlen, ⟨hlt, rfl⟩ | hopening⟩ := gather_ok (by omega) hd h
    · refine ⟨?_, hlen⟩
      simp only [Resting, hstate, List.length_append]
      omega
    · exact ⟨opening_ok hopening, hlen⟩
  | recordHeader =>
    have hbuf : r.buf.length < recordHeaderLen := by simpa only [Resting, hstate] using hr
    by_cases hend : r.buf = [] ∧ d.head? = some RecordType.endRecord
    · rw [step_end hstate hend] at h
      cases hcheck : r.order.check RecordType.endRecord with
      | error f =>
        rw [hcheck] at h
        cases h
      | ok order =>
        rw [hcheck] at h
        cases h
        have := List.length_pos_iff.mpr hd
        exact ⟨trivial, by rw [List.length_drop]; omega⟩
    · rw [step_header hstate hbuf hend] at h
      obtain ⟨hlen, ⟨hlt, rfl⟩ | hheader⟩ := gather_ok (by omega) hd h
      · refine ⟨?_, hlen⟩
        simp only [Resting, hstate, List.length_append]
        omega
      · exact ⟨header_ok hheader, hlen⟩
  | record ty remaining =>
    have hpos : 0 < remaining := by simpa only [Resting, hstate] using hr
    rw [step_record hstate] at h
    obtain ⟨hlen, ⟨hlt, rfl⟩ | hrecord⟩ := gather_ok hpos hd h
    · exact ⟨Nat.sub_pos_of_lt hlt, hlen⟩
    · obtain ⟨hs, hb⟩ := record_ok hrecord
      exact ⟨resting_of_header hs hb, hlen⟩
  | discard ty remaining =>
    obtain ⟨hbuf, hpos⟩ : r.buf = [] ∧ 0 < remaining := by simpa only [Resting, hstate] using hr
    rw [step_discard hstate] at h
    obtain ⟨hlen, ⟨hlt, rfl⟩ | hdone⟩ := gather_ok hpos hd h
    · exact ⟨⟨hbuf, Nat.sub_pos_of_lt hlt⟩, hlen⟩
    · cases hdone
      exact ⟨resting_of_header rfl hbuf, hlen⟩
  | mediaHead payloadLen =>
    obtain ⟨hbuf, hnone⟩ : r.buf.length < min payloadLen mediaHeadCap ∧
        History.mediaHead r.buf payloadLen = .ok none := by simpa only [Resting, hstate] using hr
    have hlen := List.length_pos_iff.mpr hd
    rw [step_mediaHead hstate] at h
    unfold headStep at h
    split at h
    · cases h
    · rename_i hmore
      split at h
      · cases h
      · rename_i hshort
        cases h
        refine ⟨?_, by rw [List.length_drop]; omega⟩
        simp only [Resting, hstate]
        exact ⟨Nat.lt_of_not_le hshort, hmore⟩
    · rename_i head hhead
      have hconsumed := lt_consumed (by omega) hnone hhead
      obtain ⟨hrest, hless⟩ := mediaBegin_rest (r := r) hd hconsumed
      rw [Except.ok.inj h] at hrest hless
      exact ⟨hrest, hless⟩
  | mediaBlob remaining =>
    obtain ⟨hbuf, hpos⟩ : r.buf = [] ∧ 0 < remaining := by simpa only [Resting, hstate] using hr
    have hlen := List.length_pos_iff.mpr hd
    rcases Nat.lt_or_ge d.length remaining with hlt | hge
    · rw [step_blob_more hstate hlt] at h
      cases h
      exact ⟨⟨hbuf, Nat.sub_pos_of_lt hlt⟩, hlen⟩
    · rw [step_blob_last hstate hge] at h
      cases h
      exact ⟨resting_of_header rfl hbuf, by rw [List.length_drop]; omega⟩
  | done =>
    simp only [step, hstate] at h
    cases h
  | failed f => simp only [Resting, hstate] at hr

/-! ## A piece cut in two -/

theorem mediaBegin_append (h : head.consumed - before ≤ x.length) (y : Bytes) :
    r.mediaBegin head before (x ++ y) =
      ((r.mediaBegin head before x).1, (r.mediaBegin head before x).2.1 ++ y,
        (r.mediaBegin head before x).2.2) := by
  unfold mediaBegin
  dsimp only
  rw [List.drop_append_of_le_length h]
  split <;> rfl

theorem mediaBegin_later (h : r.buf.length + x.length ≤ head.consumed) (y : Bytes) :
    r.mediaBegin head r.buf.length (x ++ y) =
      mediaBegin { r with buf := r.buf ++ x } head (r.buf ++ x).length y := by
  have hdrop : (x ++ y).drop (head.consumed - r.buf.length) =
      y.drop (head.consumed - (r.buf ++ x).length) := by
    rw [List.drop_append, List.drop_of_length_le (by omega), List.nil_append, List.length_append,
      Nat.sub_sub]
  unfold mediaBegin
  dsimp only
  rw [hdrop]

theorem resumes_mediaHead (hstate : r.state = .mediaHead payloadLen) (hr : r.Resting) :
    Resumes step Event.parts r x y := by
  obtain ⟨hbuf, hnone⟩ : r.buf.length < min payloadLen mediaHeadCap ∧
      mediaHead r.buf payloadLen = .ok none := by simpa only [Resting, hstate] using hr
  have hpayload : 0 < payloadLen := by omega
  generalize hn : min payloadLen mediaHeadCap - r.buf.length = n
  have hxstep := step_mediaHead hstate x
  have hxystep := step_mediaHead hstate (x ++ y)
  have htake : r.buf ++ (x ++ y).take n = r.buf ++ x.take n ++ y.take (n - x.length) := by
    rw [List.take_append, List.append_assoc]
  rw [hn] at hxstep
  rw [hn, htake] at hxystep
  unfold headStep at hxstep hxystep
  rw [hn] at hxstep hxystep
  rcases hhead : mediaHead (r.buf ++ x.take n) payloadLen with f | _ | head
  · rw [hhead] at hxstep
    rw [mediaHead_append (by rw [hhead]; exact nofun), hhead] at hxystep
    exact .fails f hxstep hxystep
  · rw [hhead] at hxstep
    dsimp only at hxstep
    rcases Nat.lt_or_ge x.length n with hlt | hge
    · -- all of `x` is looked at for the head, and the rest of it may follow
      rw [List.take_of_length_le (Nat.le_of_lt hlt)] at hhead hxstep hxystep
      rw [if_neg (by rw [List.length_append]; omega),
        List.drop_of_length_le (Nat.le_of_lt hlt)] at hxstep
      rw [List.drop_append, List.drop_of_length_le (Nat.le_of_lt hlt),
        List.nil_append] at hxystep
      have hystep := step_mediaHead (r := { r with buf := r.buf ++ x }) hstate y
      have hn' : min payloadLen mediaHeadCap - (r.buf ++ x).length = n - x.length := by
        rw [List.length_append]
        omega
      unfold headStep at hystep
      dsimp only at hystep
      rw [hn'] at hystep
      rcases hhead' : mediaHead (r.buf ++ x ++ y.take (n - x.length)) payloadLen with f | _ | head
      · rw [hhead'] at hystep hxystep
        exact .failsLater _ [] f hxstep hystep hxystep rfl
      · rw [hhead'] at hystep hxystep
        dsimp only at hystep hxystep
        split at hystep
        · rename_i hfull
          rw [if_pos hfull] at hxystep
          exact .failsLater _ [] _ hxstep hystep hxystep rfl
        · rename_i hmore
          rw [if_neg hmore] at hxystep
          exact .settlesLater _ _ _ [] [] [] hxstep hystep hxystep rfl
      · rw [hhead'] at hystep hxystep
        dsimp only at hxystep
        have hconsumed := lt_consumed hpayload hhead hhead'
        rw [List.length_append] at hconsumed
        rw [mediaBegin_later (Nat.le_of_lt hconsumed)] at hxystep
        exact .settlesLater _ _ _ [] _ _ hxstep hystep hxystep rfl
    · -- `x` has all the bytes a head may take
      have hfull : min payloadLen mediaHeadCap ≤ (r.buf ++ x.take n).length := by
        rw [List.length_append, List.length_take_of_le hge]
        omega
      rw [Nat.sub_eq_zero_of_le hge, List.take_zero, List.append_nil, hhead] at hxystep
      dsimp only at hxystep
      rw [if_pos hfull] at hxstep hxystep
      exact .fails _ hxstep hxystep
  · have hconsumed : head.consumed - r.buf.length ≤ x.length := by
      have := (mediaHead_ok hpayload hhead).1
      rw [List.length_append, List.length_take] at this
      omega
    rw [hhead] at hxstep
    rw [mediaHead_append (by rw [hhead]; exact nofun), hhead] at hxystep
    dsimp only at hxystep
    rw [mediaBegin_append hconsumed] at hxystep
    exact .settles _ _ _ hxstep hxystep

theorem resumes_mediaBlob (hstate : r.state = .mediaBlob remaining) :
    Resumes step Event.parts r x y := by
  rcases Nat.lt_or_ge x.length remaining with hlt | hge
  · have hxstep := step_blob_more hstate hlt
    rcases Nat.lt_or_ge y.length (remaining - x.length) with hlt' | hge'
    · have hystep := step_blob_more
        (r := { r with state := .mediaBlob (remaining - x.length) }) rfl hlt'
      have hxystep := step_blob_more hstate (d := x ++ y) (by rw [List.length_append]; omega)
      rw [List.length_append, ← Nat.sub_sub] at hxystep
      exact .settlesLater _ _ _ _ _ _ hxstep hystep hxystep (by simp [Event.parts])
    · have hystep := step_blob_last
        (r := { r with state := .mediaBlob (remaining - x.length) }) rfl hge'
      have hxystep := step_blob_last hstate (d := x ++ y) (by rw [List.length_append]; omega)
      rw [List.drop_append, List.drop_of_length_le (Nat.le_of_lt hlt), List.nil_append,
        List.take_append, List.take_of_length_le (Nat.le_of_lt hlt)] at hxystep
      exact .settlesLater _ _ _ _ _ _ hxstep hystep hxystep (by simp [Event.parts])
  · have hxystep := step_blob_last hstate (d := x ++ y) (by rw [List.length_append]; omega)
    rw [List.take_append_of_le_length hge, List.drop_append_of_le_length hge] at hxystep
    exact .settles _ _ _ (step_blob_last hstate hge) hxystep

/-- **A step comes to the same on a piece cut in two as on the whole.** -/
theorem step_resumes (hr : r.Resting) (hx : x ≠ []) :
    Resumes step Event.parts r x y := by
  cases hstate : r.state with
  | preamble =>
    have hbuf : r.buf.length < preambleLen := by simpa only [Resting, hstate] using hr
    refine .of_gather (step_preamble hstate hbuf x) (step_preamble hstate hbuf (x ++ y)) ?_
    intro hlt
    have hy := step_preamble (r := { r with buf := r.buf ++ x }) hstate
      (by rw [List.length_append]; omega) y
    simp only [List.length_append, ← Nat.sub_sub, List.append_assoc] at hy
    exact hy
  | recordHeader =>
    have hbuf : r.buf.length < recordHeaderLen := by simpa only [Resting, hstate] using hr
    have hhead : (x ++ y).head? = x.head? := List.head?_append_of_ne_nil x hx
    by_cases hend : r.buf = [] ∧ x.head? = some RecordType.endRecord
    · have hxstep := step_end hstate hend
      have hxystep := step_end hstate (d := x ++ y) ⟨hend.1, hhead.trans hend.2⟩
      rw [List.drop_append_of_le_length (List.length_pos_iff.mpr hx)] at hxystep
      cases hcheck : r.order.check RecordType.endRecord with
      | error f =>
        rw [hcheck] at hxstep hxystep
        exact .fails f hxstep hxystep
      | ok order =>
        rw [hcheck] at hxstep hxystep
        exact .settles _ _ _ hxstep hxystep
    · refine .of_gather (step_header hstate hbuf hend)
        (step_header hstate hbuf (by rw [hhead]; exact hend)) ?_
      intro hlt
      have hne : r.buf ++ x ≠ [] := List.append_ne_nil_of_right_ne_nil _ hx
      have hy := step_header (r := { r with buf := r.buf ++ x }) hstate
        (by rw [List.length_append]; omega) (d := y) (fun h => hne h.1)
      simp only [List.length_append, ← Nat.sub_sub, List.append_assoc] at hy
      exact hy
  | record ty remaining =>
    refine .of_gather (step_record hstate x) (step_record hstate (x ++ y)) ?_
    intro hlt
    have hy := step_record (r :=
      { r with buf := r.buf ++ x, state := .record ty (remaining - x.length) }) rfl y
    simp only [Nat.sub_sub, List.append_assoc, ← List.length_append] at hy
    rw [hy]
  | discard ty remaining =>
    refine .of_gather (step_discard hstate x) (step_discard hstate (x ++ y)) ?_
    intro hlt
    have hy := step_discard (r :=
      { r with state := .discard ty (remaining - x.length) }) rfl y
    simp only [Nat.sub_sub, ← List.length_append] at hy
    rw [hy]
  | mediaHead payloadLen => exact resumes_mediaHead hstate hr
  | mediaBlob remaining => exact resumes_mediaBlob hstate
  | done => exact .fails .malformed (by simp only [step, hstate]) (by simp only [step, hstate])
  | failed f => exact .fails f (by simp only [step, hstate]) (by simp only [step, hstate])

end Steps

theorem resumable : Resumable step Event.parts Resting where
  keeps hr hd h := step_keeps hr hd h
  resumes hr hx _ := step_resumes hr hx

/-! ## Reading in pieces -/

def outcome : Except HistoryFailure Reader → Except HistoryFailure Unit
  | .ok r => r.finish.2
  | .error f => .error f

variable {r : Reader}

/-- A reader that has not failed goes through the steps of the piece it is given. -/
theorem push_of_feed (hr : r.Resting) {d : Bytes} {fed : Fed Reader Event HistoryFailure}
    (h : feed step r d = some fed) :
    r.push d = some (match fed.2 with
      | .ok r' => (r', fed.1, .ok ())
      | .error f => (r.failed f, fed.1, .error f)) := by
  unfold push
  split
  · rename_i f hstate
    simp only [Resting, hstate] at hr
  · rw [h]
    rfl

theorem read_eq_feedAll (hr : r.Resting) (pieces : List Bytes) :
    r.read pieces = (feedAll step r pieces).map fun fed => (fed.1, outcome fed.2) := by
  induction pieces generalizing r with
  | nil => rfl
  | cons piece pieces ih =>
    obtain ⟨⟨out, res⟩, hfeed, hinv⟩ := resumable.feed_total hr piece
    rw [read, push_of_feed hr hfeed, feedAll, hfeed]
    cases res with
    | error f => rfl
    | ok r' =>
      show (r'.read pieces).map _ = ((feedAll step r' pieces).map _).map _
      rw [ih (hinv r' rfl), Option.map_map, Option.map_map]
      rfl

/-- **Reading does not depend on the pieces.** However a stream is cut, with empty pieces or
without, reading it ends; two ways of cutting it give the same events once adjacent media bytes
are joined, and the same outcome. -/
theorem read_chunking (envelope : Option Envelope) (pieces pieces' : List Bytes)
    (hsame : pieces.flatten = pieces'.flatten) :
    ∃ out out' res, (new envelope).read pieces = some (out, res) ∧
      (new envelope).read pieces' = some (out', res) ∧ joinMedia out = joinMedia out' := by
  have hnew := resting_new envelope
  obtain ⟨fed, fed', hfed, hfed', hparts, hres⟩ := resumable.feedAll_agree hnew hsame
  refine ⟨fed.1, fed'.1, outcome fed.2, ?_, ?_, joinMedia_of_parts hparts⟩
  · rw [read_eq_feedAll hnew, hfed]
    rfl
  · rw [read_eq_feedAll hnew, hfed', hres]
    rfl

/-- A manifest, one media item cut in the middle of its head and of its bytes, and End. -/
theorem read_chunking_media :
    ∃ out out' res,
      (new none).read [magic ++ [1, 1, 4, 0, 0, 0, 0, 0, 0, 0, 8, 1, 104, 3, 8, 7, 0, 0, 0],
        [], [0, 0, 0, 0, 10, 1], [97, 26, 2, 5], [6, 0]] = some (out, res) ∧
      (new none).read [magic ++ [1, 1, 4, 0, 0, 0, 0, 0, 0, 0, 8, 1, 104, 3, 8, 7, 0, 0, 0,
        0, 0, 0, 0, 10, 1, 97, 26, 2, 5, 6, 0]] = some (out', res) ∧
      joinMedia out = joinMedia out' :=
  read_chunking none _ _ rfl

end Reader

end History
