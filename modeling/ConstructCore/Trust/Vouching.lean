import ConstructCore.Trust.Devices

/-!
# Vouching is a least fixed point

What `judge` of `crypto/device_certificate.rs` answers. `Sound` and `Kept` are what one closing of
the vouching loop keeps; at its end every device has the verdict it is `Due`, which names neither
the rounds nor the order of the lists.
-/

namespace ConstructCore

open Bytes

namespace Trust

section

variable {S : Signing} {d : OfferedDevice} {signer : Bytes} {h : Vector UInt8 32}
  {anchors : Anchors} {trusted : List TrustedDevice} {offered : List OfferedDevice}

/-! ## The vouching loop -/

/-- What holds between two closings: every key in the table is reached, every open device may
still be vouched for, and every device vouched for is reached. -/
structure Sound (S : Signing) (trusted : List TrustedDevice) (offered : List OfferedDevice)
    (s : Verdicts) (anchors : Anchors) : Prop where
  reached : ∀ id h, anchors[id]? = some h → Reached S trusted offered id h
  isOpen : ∀ d, (d, none) ∈ s →
    d ∈ offered ∧ d.isConsistent S = true ∧ Untrusted trusted d.deviceId
  vouched : ∀ d signer, (d, some (.vouched signer)) ∈ s →
    d ∈ offered ∧ d.isConsistent S = true ∧ Untrusted trusted d.deviceId ∧
      ∃ h, Certifies S d signer h ∧ Reached S trusted offered signer h

variable {s s' : Verdicts} {t t' : Anchors} {v : DeviceVerdict} {fuel : Nat}
  {verdicts : List DeviceVerdict}

theorem Sound.reached_of_vouched (hs : Sound S trusted offered s anchors)
    (hmem : (d, some (.vouched signer)) ∈ s) :
    Reached S trusted offered d.deviceId (d.presented S) := by
  obtain ⟨hd, hcons, hun, h, hcert, hr⟩ := hs.vouched d signer hmem
  exact .vouched hd hcons hun hcert hr

theorem mem_middle {α : Type} {before after : List α} {x y z : α}
    (h : z ∈ before ++ x :: after) : z = x ∨ z ∈ before ++ y :: after := by
  simp only [List.mem_append, List.mem_cons] at h ⊢
  tauto

theorem fire_eq_some {m : DeviceVerdict} :
    (vouching S).fire d anchors = some m ↔
      ∃ signer h, m = .vouched signer ∧ anchors[signer]? = some h ∧ Certifies S d signer h := by
  simp only [vouching, Option.map_eq_some_iff, vouchingSigner_eq_some]
  constructor
  · rintro ⟨signer, ⟨h, hh⟩, rfl⟩
    exact ⟨signer, h, rfl, hh⟩
  · rintro ⟨signer, h, rfl, hh⟩
    exact ⟨signer, ⟨h, hh⟩, rfl⟩

theorem Sound.closes (hclose : Saturation.Closes (vouching S) (s, t) (s', t'))
    (hs : Sound S trusted offered s t) :
    Sound S trusted offered s' t' := by
  cases hclose with
  | close hfire =>
    rename_i before after d m
    obtain ⟨signer, h, rfl, hanchor, hcert⟩ := fire_eq_some.mp hfire
    obtain ⟨hd, hcons, hun⟩ := hs.isOpen d (by simp)
    have hsigner := hs.reached signer h hanchor
    refine ⟨fun id k hk => ?_, fun e he => ?_, fun e by' he => ?_⟩
    · rw [show (t.insert ((vouching S).key d) ((vouching S).value d))[id]? = _ from
        Table.lookup_insert _ _ _ _] at hk
      split at hk
      · rename_i hid
        cases hk
        rw [hid]
        exact .vouched hd hcons hun hcert hsigner
      · exact hs.reached id k hk
    · rcases mem_middle (y := (d, none)) he with heq | hmem
      · cases heq
      · exact hs.isOpen e hmem
    · rcases mem_middle (y := (d, none)) he with heq | hmem
      · cases heq
        exact ⟨hd, hcons, hun, h, hcert, hsigner⟩
      · exact hs.vouched e by' hmem

/-- What the whole list keeps when no id is offered twice. -/
structure Kept (S : Signing) (trusted : List TrustedDevice) (offered : List OfferedDevice)
    (s : Verdicts) (anchors : Anchors) : Prop where
  devices : s.map Prod.fst = offered
  anchored : ∀ id h, IsAnchor S trusted offered id h → anchors[id]? = some h
  vouched : ∀ d signer, (d, some (.vouched signer)) ∈ s →
    anchors[d.deviceId]? = some (d.presented S)
  verdict : ∀ d v, (d, v) ∈ s → v = standing S trusted d ∨
    (standing S trusted d = none ∧ ∃ signer h, v = some (.vouched signer) ∧ Certifies S d signer h)

theorem Kept.closes (hoffered : (offered.map OfferedDevice.deviceId).Nodup)
    (hclose : Saturation.Closes (vouching S) (s, t) (s', t')) (hk : Kept S trusted offered s t) :
    Kept S trusted offered s' t' := by
  cases hclose with
  | close hfire =>
    rename_i before after d m
    obtain ⟨signer, h, rfl, hanchor, hcert⟩ := fire_eq_some.mp hfire
    have hstand : standing S trusted d = none := by
      rcases hk.verdict d none (by simp) with heq | ⟨hnone, -⟩
      · exact heq.symm
      · exact hnone
    have hlookup : ∀ id, (t.insert ((vouching S).key d) ((vouching S).value d))[id]? =
        if id = d.deviceId then some (d.presented S) else t[id]? :=
      fun id => Table.lookup_insert _ _ _ _
    refine ⟨?_, fun id k hid => ?_, fun e by' he => ?_, fun e v he => ?_⟩
    · rw [← hk.devices]
      simp
    · rw [hlookup, if_neg, hk.anchored id k hid]
      rintro rfl
      obtain ⟨u, hu, huid, -⟩ := hid
      exact (standing_eq_none.mp hstand).2 u hu huid
    · rw [hlookup]
      split
      · rename_i hid
        -- the same id is the same device
        have hmem : e ∈ offered := by
          rw [← hk.devices]
          have := List.mem_map_of_mem (f := Prod.fst) he
          simpa using this
        have hmem' : d ∈ offered := by
          rw [← hk.devices]
          simp
        rw [List.inj_on_of_nodup_map hoffered hmem hmem' hid]
      · rename_i hid
        rcases mem_middle (y := (d, none)) he with heq | hmem
        · cases heq
          exact absurd rfl hid
        · exact hk.vouched e by' hmem
    · rcases mem_middle (y := (d, none)) he with heq | hmem
      · cases heq
        exact .inr ⟨hstand, signer, h, rfl, hcert⟩
      · exact hk.verdict e v hmem

theorem Kept.complete (hk : Kept S trusted offered s anchors)
    (hclosed : ∀ d, (d, none) ∈ s → (vouching S).fire d anchors = none) {id : Bytes}
    (hr : Reached S trusted offered id h) : anchors[id]? = some h := by
  induction hr with
  | anchor ha => exact hk.anchored _ _ ha
  | @vouched d signer h hd hcons hun hcert _ ih =>
    have hfire : (vouching S).fire d anchors = some (.vouched signer) :=
      fire_eq_some.mpr ⟨signer, h, rfl, ih, hcert⟩
    rw [← hk.devices] at hd
    obtain ⟨⟨d, v⟩, hmem, rfl⟩ := List.mem_map.mp hd
    have hstand := standing_eq_none.mpr ⟨hcons, hun⟩
    rcases hk.verdict d v hmem with rfl | ⟨-, signer', h', rfl, -⟩
    · rw [hstand] at hmem
      rw [hclosed d hmem] at hfire
      cases hfire
    · exact hk.vouched d signer' hmem

theorem OnceEach.of_nodup (htrusted : (trusted.map TrustedDevice.deviceId).Nodup)
    (hoffered : (offered.map OfferedDevice.deviceId).Nodup) : OnceEach S trusted offered := by
  refine ⟨htrusted, ?_⟩
  rw [List.nodup_iff_pairwise_ne, List.pairwise_map] at hoffered
  exact hoffered.imp fun hne _ _ hid => absurd hid hne

theorem OnceEach.sound (H : OnceEach S trusted offered)
    (hanchors : ∀ id, anchors[id]? =
      (trusted.find? fun u => u.deviceId == id).bind (anchorOf S offered)) :
    Sound S trusted offered (offered.map fun d => (d, standing S trusted d)) anchors := by
  refine ⟨fun id h hlookup => ?_, fun d hd => ?_, fun d signer hd => ?_⟩
  · rw [hanchors] at hlookup
    exact .anchor (H.anchors_iff.mp hlookup)
  · obtain ⟨e, he, heq⟩ := List.mem_map.mp hd
    obtain ⟨rfl, hstand⟩ := Prod.mk.inj heq
    exact ⟨he, standing_eq_none.mp hstand⟩
  · obtain ⟨e, he, heq⟩ := List.mem_map.mp hd
    obtain ⟨rfl, hstand⟩ := Prod.mk.inj heq
    unfold standing at hstand
    split at hstand
    · obtain ⟨t, -, ht⟩ := Option.map_eq_some_iff.mp hstand
      split at ht <;> cases ht
    · cases hstand

theorem OnceEach.kept (H : OnceEach S trusted offered)
    (hanchors : ∀ id, anchors[id]? =
      (trusted.find? fun u => u.deviceId == id).bind (anchorOf S offered)) :
    Kept S trusted offered (offered.map fun d => (d, standing S trusted d)) anchors := by
  refine ⟨?_, fun id h hid => ?_, fun d signer hd => ?_, fun d v hd => ?_⟩
  · rw [List.map_map]
    exact List.map_id' offered
  · rw [hanchors]
    exact H.anchors_iff.mpr hid
  · obtain ⟨-, hcons, hun, -⟩ := (H.sound hanchors).vouched d signer hd
    obtain ⟨e, he, heq⟩ := List.mem_map.mp hd
    obtain ⟨rfl, hstand⟩ := Prod.mk.inj heq
    rw [standing_eq_none.mpr ⟨hcons, hun⟩] at hstand
    cases hstand
  · obtain ⟨e, he, heq⟩ := List.mem_map.mp hd
    obtain ⟨rfl, rfl⟩ := Prod.mk.inj heq
    exact .inl rfl

/-! ## The verdicts as a whole -/

/-- The verdict a device is due: the one it stands at, or by what is reached. -/
def Due (S : Signing) (trusted : List TrustedDevice) (offered : List OfferedDevice)
    (d : OfferedDevice) (v : DeviceVerdict) : Prop :=
  standing S trusted d = some v ∨ standing S trusted d = none ∧
    ((Reached S trusted offered d.deviceId (d.presented S) ∧
        ∃ signer h, Certifies S d signer h ∧ v = .vouched signer) ∨
      (¬ Reached S trusted offered d.deviceId (d.presented S) ∧ v = .unvouched))

theorem Due.unique {v' : DeviceVerdict} (hv : Due S trusted offered d v)
    (hv' : Due S trusted offered d v') : v = v' := by
  rcases hv with hv | ⟨hopen, hv⟩
  · rcases hv' with hv' | ⟨hopen, -⟩
    · exact Option.some.inj (hv.symm.trans hv')
    · rw [hv] at hopen
      cases hopen
  · rcases hv' with hv' | ⟨-, hv'⟩
    · rw [hv'] at hopen
      cases hopen
    · rcases hv with ⟨hr, signer, h, hcert, rfl⟩ | ⟨hr, rfl⟩
      · rcases hv' with ⟨-, signer', h', hcert', rfl⟩ | ⟨hr', -⟩
        · rw [(hcert.unique hcert').1]
        · exact absurd hr hr'
      · rcases hv' with ⟨hr', -⟩ | ⟨-, rfl⟩
        · exact absurd hr' hr
        · rfl

section Order

variable {trusted' : List TrustedDevice} {offered' : List OfferedDevice}

variable {id : Bytes}

variable (ht : trusted.Perm trusted')

include ht

theorem Untrusted.perm (hun : Untrusted trusted id) :
    Untrusted trusted' id :=
  fun t hmem => hun t (ht.mem_iff.mpr hmem)

theorem standing_perm (hnd : (trusted.map TrustedDevice.deviceId).Nodup) (d : OfferedDevice) :
    standing S trusted d = standing S trusted' d := by
  unfold standing
  cases hfind : trusted.find? fun t => t.deviceId == d.deviceId with
  | none => rw [find?_trusted_eq_none.mpr ((find?_trusted_eq_none.mp hfind).perm ht)]
  | some t =>
    have hid := List.find?_some hfind
    rw [beq_iff_eq] at hid
    have hmem := ht.mem_iff.mp (List.mem_of_find?_eq_some hfind)
    rw [← hid, find?_trusted_of_mem ((ht.map _).nodup_iff.mp hnd) hmem]

variable (ho : offered.Perm offered')

include ho

theorem IsAnchor.perm (ha : IsAnchor S trusted offered id h) :
    IsAnchor S trusted' offered' id h := by
  obtain ⟨t, hmem, hid, hanchor⟩ := ha
  refine ⟨t, ht.mem_iff.mp hmem, hid, ?_⟩
  cases hpin : t.hybridPin with
  | none =>
    rw [hpin] at hanchor
    obtain ⟨d, hd, hrest⟩ := hanchor
    exact ⟨d, ho.mem_iff.mp hd, hrest⟩
  | some pin =>
    rw [hpin] at hanchor
    exact ⟨hanchor.1, fun d hd => hanchor.2 d (ho.mem_iff.mpr hd)⟩

theorem Reached.perm (hr : Reached S trusted offered id h) : Reached S trusted' offered' id h := by
  induction hr with
  | anchor ha => exact .anchor (ha.perm ht ho)
  | vouched hd hcons hun hcert _ ih =>
    exact .vouched (ho.mem_iff.mp hd) hcons (hun.perm ht) hcert ih

theorem Due.perm (hnd : (trusted.map TrustedDevice.deviceId).Nodup) {v : DeviceVerdict}
    (hv : Due S trusted offered d v) :
    Due S trusted' offered' d v := by
  have hreached : Reached S trusted offered d.deviceId (d.presented S) ↔
      Reached S trusted' offered' d.deviceId (d.presented S) :=
    ⟨Reached.perm ht ho, Reached.perm ht.symm ho.symm⟩
  unfold Due at hv ⊢
  rwa [← standing_perm ht hnd, ← hreached]

end Order

/-! ## The results of `judge` -/

theorem judge_ok (htrusted : trusted ≠ []) (h : judge S fuel trusted offered = some verdicts) :
    ∃ s t, Saturation.saturate (vouching S) fuel
        (trusted.foldl (settleTrusted S) (settleInvalid S offered, ∅)).1
        (trusted.foldl (settleTrusted S) (settleInvalid S offered, ∅)).2 = some (s, t) ∧
      verdicts = s.map fun x => x.2.getD .unvouched := by
  unfold judge at h
  simp only [List.isEmpty_eq_false_iff.mpr htrusted, Bool.false_eq_true, if_false] at h
  obtain ⟨⟨s, t⟩, hsat, rfl⟩ := Option.map_eq_some_iff.mp h
  exact ⟨s, t, hsat, rfl⟩

theorem settleFirst_devices (id : Bytes) (verdict : DeviceVerdict) (s : Verdicts) :
    (settleFirst id verdict s).map Prod.fst = s.map Prod.fst := by
  induction s with
  | nil => rfl
  | cons x rest ih =>
    obtain ⟨d, v⟩ := x
    cases v with
    | none =>
      unfold settleFirst
      split
      · rfl
      · rw [List.map_cons, List.map_cons, ih]
    | some v =>
      rw [settleFirst, List.map_cons, List.map_cons, ih]

theorem settleTrusted_devices (trusted : List TrustedDevice) (j : Verdicts × Anchors) :
    (trusted.foldl (settleTrusted S) j).1.map Prod.fst = j.1.map Prod.fst := by
  induction trusted generalizing j with
  | nil => rfl
  | cons t trusted ih =>
    rw [List.foldl_cons, ih]
    unfold settleTrusted
    split
    · split <;> exact settleFirst_devices _ _ _
    · split <;> rfl

theorem settled_devices (S : Signing) (trusted : List TrustedDevice)
    (offered : List OfferedDevice) :
    (trusted.foldl (settleTrusted S) (settleInvalid S offered, ∅)).1.map Prod.fst = offered := by
  rw [settleTrusted_devices]
  unfold settleInvalid
  rw [List.map_map]
  exact List.map_id' offered

theorem closes_devices (hclose : Saturation.Closes (vouching S) (s, t) (s', t')) :
    s'.map Prod.fst = s.map Prod.fst := by
  cases hclose
  simp

/-- `judge` comes to an end on every input, after at most as many rounds as devices and one, and
fuel beyond that changes nothing. -/
theorem judge_total (S : Signing) (trusted : List TrustedDevice) (offered : List OfferedDevice) :
    ∃ verdicts, verdicts.length = offered.length ∧
      (∀ fuel, offered.length < fuel → judge S fuel trusted offered = some verdicts) ∧
      ∀ fuel v, judge S fuel trusted offered = some v → v = verdicts := by
  have hlen : (trusted.foldl (settleTrusted S) (settleInvalid S offered, ∅)).1.length =
      offered.length := by
    have hmap := congrArg List.length (settled_devices S trusted offered)
    rwa [List.length_map] at hmap
  by_cases htrusted : trusted = []
  · subst htrusted
    refine ⟨_, ?_, fun fuel _ => rfl, fun fuel v hv => (Option.some.inj hv).symm⟩
    rw [List.length_map]
    exact hlen
  · have hopen : Saturation.openCount
        (trusted.foldl (settleTrusted S) (settleInvalid S offered, ∅)).1 < offered.length + 1 :=
      Nat.lt_succ_of_le (hlen ▸ List.countP_le_length)
    obtain ⟨⟨s, t⟩, hsat⟩ := Saturation.saturate_total (R := vouching S)
      (trusted.foldl (settleTrusted S) (settleInvalid S offered, ∅)).2 hopen
    have hempty : trusted.isEmpty = false := List.isEmpty_eq_false_iff.mpr htrusted
    have hjudge : ∀ fuel, offered.length < fuel → judge S fuel trusted offered =
        some (s.map fun x => x.2.getD .unvouched) := by
      intro fuel hfuel
      unfold judge
      simp only [hempty, Bool.false_eq_true, if_false]
      rw [Saturation.saturate_mono hfuel hsat, Option.map_some]
    refine ⟨_, ?_, hjudge, fun fuel v hv => ?_⟩
    · rw [List.length_map]
      have hdev : s.map Prod.fst = offered :=
        Saturation.saturate_rule (P := fun s _ => s.map Prod.fst = offered)
          (fun _ _ _ _ hclose hP => (closes_devices hclose).trans hP) hsat
          (settled_devices S trusted offered)
      rw [← hdev, List.length_map]
    · obtain ⟨s', t', hsat', rfl⟩ := judge_ok htrusted hv
      have hmore := Saturation.saturate_mono (Nat.le_max_left fuel (offered.length + 1)) hsat'
      rw [Saturation.saturate_mono (Nat.le_max_right fuel (offered.length + 1)) hsat] at hmore
      cases hmore
      rfl

theorem mem_zip_verdicts :
    (d, v) ∈ (s.map Prod.fst).zip (s.map fun x => x.2.getD .unvouched) ↔
      ∃ w, (d, w) ∈ s ∧ v = w.getD .unvouched := by
  rw [List.zip_map', List.mem_map]
  constructor
  · rintro ⟨⟨e, w⟩, hmem, heq⟩
    obtain ⟨rfl, rfl⟩ := Prod.mk.inj heq
    exact ⟨w, hmem, rfl⟩
  · rintro ⟨w, hmem, rfl⟩
    exact ⟨(d, w), hmem, rfl⟩

theorem vouched_reached (H : OnceEach S trusted offered)
    (h : judge S fuel trusted offered = some verdicts)
    (hmem : (d, .vouched signer) ∈ offered.zip verdicts) :
    Reached S trusted offered d.deviceId (d.presented S) := by
  obtain ⟨hslots, hanchors⟩ := settled_standing H
  by_cases htrusted : trusted = []
  · -- nothing trusted: nobody is vouched for
    subst htrusted
    unfold judge at h
    simp only [List.isEmpty_nil, if_true, Option.some.injEq] at h
    subst h
    obtain ⟨x, hx, hv⟩ := List.mem_map.mp (List.of_mem_zip hmem).2
    rw [hslots] at hx
    obtain ⟨e, -, rfl⟩ := List.mem_map.mp hx
    simp only [standing, List.find?_nil, Option.map_none] at hv
    split at hv <;> cases hv
  · obtain ⟨s, t, hsat, rfl⟩ := judge_ok htrusted h
    rw [hslots] at hsat
    have hsound := Saturation.saturate_rule
      (P := fun s t => Sound S trusted offered s t ∧ s.map Prod.fst = offered)
      (fun _ _ _ _ hclose hP => ⟨hP.1.closes hclose, (closes_devices hclose).trans hP.2⟩) hsat
      ⟨H.sound hanchors, (H.kept hanchors).devices⟩
    rw [← hsound.2] at hmem
    obtain ⟨w, hw, heq⟩ := mem_zip_verdicts.mp hmem
    cases w with
    | none => cases heq
    | some w =>
      cases heq
      exact hsound.1.reached_of_vouched hw

theorem judge_due (htrusted : (trusted.map TrustedDevice.deviceId).Nodup)
    (hoffered : (offered.map OfferedDevice.deviceId).Nodup) (hne : trusted ≠ [])
    (h : judge S fuel trusted offered = some verdicts) (hmem : (d, v) ∈ offered.zip verdicts) :
    Due S trusted offered d v := by
  have H : OnceEach S trusted offered := .of_nodup htrusted hoffered
  obtain ⟨hslots, hanchors⟩ := settled_standing H
  obtain ⟨s, t, hsat, rfl⟩ := judge_ok hne h
  rw [hslots] at hsat
  have hsound := Saturation.saturate_rule (P := fun s t => Sound S trusted offered s t)
    (fun _ _ _ _ hclose hP => hP.closes hclose) hsat (H.sound hanchors)
  have hkept := Saturation.saturate_rule (P := fun s t => Kept S trusted offered s t)
    (fun _ _ _ _ hclose hP => hP.closes hoffered hclose) hsat (H.kept hanchors)
  have hclosed := Saturation.saturate_closed hsat
  rw [← hkept.devices] at hmem
  obtain ⟨w, hw, rfl⟩ := mem_zip_verdicts.mp hmem
  rcases hkept.verdict d w hw with rfl | ⟨hopen, signer, h, rfl, hcert⟩
  · cases hstand : standing S trusted d with
    | some v => exact .inl hstand
    | none =>
      -- an open device that were reached would still be vouched for
      refine .inr ⟨hstand, .inr ⟨fun hr => ?_, rfl⟩⟩
      rw [hstand] at hw
      obtain ⟨hd, -, hun⟩ := hsound.isOpen d hw
      obtain ⟨signer, h, hcert, hsigner⟩ := hr.certified hoffered hd hun
      have hfire := fire_eq_some.mpr ⟨signer, h, rfl, hkept.complete hclosed hsigner, hcert⟩
      rw [hclosed d hw] at hfire
      cases hfire
  · exact .inr ⟨hopen, .inl ⟨hsound.reached_of_vouched hw, signer, h, hcert, rfl⟩⟩

theorem mem_zip_of_due (hlen : verdicts.length = offered.length) (hd : d ∈ offered)
    (hdue : ∀ w, (d, w) ∈ offered.zip verdicts → w = v) :
    (d, v) ∈ offered.zip verdicts := by
  obtain ⟨i, hi, rfl⟩ := List.getElem_of_mem hd
  have hi' : i < verdicts.length := hlen ▸ hi
  have hmem : (offered[i], verdicts[i]) ∈ offered.zip verdicts := by
    rw [← List.getElem_zip (h := by rw [List.length_zip]; omega)]
    exact List.getElem_mem _
  rw [← hdue _ hmem]
  exact hmem

end

/-! ## Samples -/

/-- Hashing to the first byte, and a signature that starts as its key does. -/
def sampleSigning : Signing where
  sha256 b := Vector.replicate 32 (b.getD 0 0)
  ed25519Verify _ _ _ := true
  hybridVerify key _ signature := key.getD 0 0 == signature.getD 0 0

/-- The id of device `n`. -/
def sampleId (n : UInt8) : Bytes := hexEncode (List.replicate 16 n)

/-- Device `n` with hybrid key `m`. -/
def sampleOffered (n m : UInt8) (certificate : Option Bytes) : OfferedDevice where
  deviceId := sampleId n
  keys := {
    identityPublic := List.replicate 32 n
    verifyingKey := List.replicate 32 0
    hybridPublic := List.replicate 1984 m
    hybridBinding := [] }
  certificate := certificate

/-- A certificate of device `n` under hybrid key `m`. -/
def sampleCert (n m : UInt8) : Bytes :=
  DeviceCertificate.encode {
    signerDeviceId := List.replicate 16 n
    issuedAt := 0
    signerHybridPublic := List.replicate 1984 m
    signature := List.replicate 3373 m }

/-- Device `n`, trusted with hybrid key `m`. -/
def sampleTrusted (n m : UInt8) : TrustedDevice where
  deviceId := sampleId n
  hybridPin := some (Vector.replicate 32 m)

theorem sampleCert_certifies {m : UInt8} {signer : Bytes} {h : Vector UInt8 32}
    (hanchor : vouchingSigner sampleSigning (sampleOffered 3 3 (some (sampleCert 1 m)))
      ((∅ : Anchors).insert (sampleId 1) (Vector.replicate 32 m)) = some (sampleId 1))
    (hcert : Certifies sampleSigning (sampleOffered 3 3 (some (sampleCert 1 m))) signer h) :
    signer = sampleId 1 ∧ h = Vector.replicate 32 m := by
  obtain ⟨h', hlookup, hcert'⟩ := vouchingSigner_eq_some.mp hanchor
  rw [Table.lookup_insert_self] at hlookup
  cases hlookup
  exact hcert.unique hcert'

end Trust

end ConstructCore
