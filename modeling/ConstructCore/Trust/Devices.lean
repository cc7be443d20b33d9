import ConstructCore.Handshake.Plan
import ConstructCore.Lib.Saturation
import Mathlib.Data.List.Induction
import Mathlib.Data.List.Pairwise

/-!
# Devices of one account vouch for each other

`crypto/device_certificate.rs`: `judge` gives every device the server lists for an account a
verdict, from the devices already trusted and the certificates the listed ones carry.

* **The loop** is `Saturation.saturate` over the listed devices, with `vouchingSigner` as rule and
  the hybrid keys trusted so far as table.
* **Its meaning** is `Reached`, the least set of devices with their keys that has the trusted
  devices' anchors and is closed under valid certificates.
* **The trusted devices** must be told apart: under `OnceEach` the table the loop starts from has
  their anchors and no others (`settled_standing`, `OnceEach.anchors_iff`).
-/

namespace ConstructCore

open Bytes

namespace Trust

/-! ## Certificates -/

structure DeviceKeys where
  identityPublic : Bytes
  verifyingKey : Bytes
  hybridPublic : Bytes
  hybridBinding : Bytes
deriving DecidableEq

def hybridSignatureSize : Nat := 3373

def certLen : Nat := 1 + 16 + 8 + hybridSigPublicKeySize + hybridSignatureSize

structure DeviceCertificate where
  signerDeviceId : Bytes
  issuedAt : UInt64
  signerHybridPublic : Bytes
  signature : Bytes
deriving DecidableEq

def DeviceCertificate.encode (c : DeviceCertificate) : Bytes :=
  1 :: c.signerDeviceId ++ u64ToBe c.issuedAt ++ c.signerHybridPublic ++ c.signature

def DeviceCertificate.decode (bytes : Bytes) : Option DeviceCertificate :=
  if bytes.length ≠ certLen ∨ bytes.getD 0 0 ≠ 1 then none
  else some {
    signerDeviceId := (bytes.drop 1).take 16
    issuedAt := UInt64.ofNat (ofLeBytes ((bytes.drop 17).take 8).reverse)
    signerHybridPublic := (bytes.drop 25).take hybridSigPublicKeySize
    signature := bytes.drop (25 + hybridSigPublicKeySize) }

def certificateMessage (signerDeviceId subjectDeviceId : Bytes) (subject : DeviceKeys)
    (issuedAt : UInt64) : Bytes :=
  ofText "KonstruktDeviceCert-v1" ++ [0] ++ signerDeviceId ++ subjectDeviceId ++
    subject.identityPublic ++ subject.verifyingKey ++ subject.hybridPublic ++ u64ToBe issuedAt

/-- `CertError`, as far as `check_keys` returns it. -/
inductive CertError where
  | keysMalformed
  | bindingInvalid
deriving DecidableEq, Repr

def deriveDeviceIdBytes (S : Signing) (identityPublic : Bytes) : Bytes :=
  (S.sha256 identityPublic).toList.take 16

def checkKeys (S : Signing) (keys : DeviceKeys) : Except CertError Bytes :=
  if keys.identityPublic.length ≠ 32 ∨ keys.verifyingKey.length ≠ 32 ∨
      keys.hybridPublic.length ≠ hybridSigPublicKeySize then .error .keysMalformed
  else if S.ed25519Verify keys.verifyingKey (buildHybridIdentityBindMessage keys.hybridPublic)
      keys.hybridBinding then .ok (deriveDeviceIdBytes S keys.identityPublic)
  else .error .bindingInvalid

def hybridPin (S : Signing) (hybridPublic : Bytes) : Vector UInt8 32 := S.sha256 hybridPublic

/-! ## The verdicts -/

inductive DeviceVerdict where
  | pinned
  | firstOfAccount
  | vouched (signer : Bytes)
  | unvouched
  | keyChanged
  | invalid
deriving DecidableEq, Repr

structure TrustedDevice where
  deviceId : Bytes
  hybridPin : Option (Vector UInt8 32)
deriving DecidableEq

structure OfferedDevice where
  deviceId : Bytes
  keys : DeviceKeys
  certificate : Option Bytes
deriving DecidableEq

/-- The hybrid keys trusted so far, by device id. -/
abbrev Anchors := Table Bytes (Vector UInt8 32)

def vouchingSigner (S : Signing) (device : OfferedDevice) (anchors : Anchors) : Option Bytes := do
  let cert ← DeviceCertificate.decode (← device.certificate)
  let signer := hexEncode cert.signerDeviceId
  if signer = device.deviceId then none
  else
    let anchor ← anchors[signer]?
    if hybridPin S cert.signerHybridPublic ≠ anchor then none
    else
      let subjectId ← (hexDecode device.deviceId).filter fun id => id.length = 16
      if S.hybridVerify cert.signerHybridPublic
          (certificateMessage cert.signerDeviceId subjectId device.keys cert.issuedAt)
          cert.signature then some signer
      else none

def OfferedDevice.isConsistent (S : Signing) (d : OfferedDevice) : Bool :=
  match checkKeys S d.keys with
  | .ok id => hexEncode id = d.deviceId
  | .error _ => false

def OfferedDevice.presented (S : Signing) (d : OfferedDevice) : Vector UInt8 32 :=
  Trust.hybridPin S d.keys.hybridPublic

/-- The offered devices, each with the verdict it has so far. -/
abbrev Verdicts := Saturation.Slots OfferedDevice DeviceVerdict

/-- `verdicts[i] = Some(verdict)` at the first offered device of that id without a verdict. -/
def settleFirst (id : Bytes) (verdict : DeviceVerdict) : Verdicts → Verdicts
  | [] => []
  | (d, none) :: rest =>
    if d.deviceId = id then (d, some verdict) :: rest
    else (d, none) :: settleFirst id verdict rest
  | (d, some v) :: rest => (d, some v) :: settleFirst id verdict rest

def TrustedDevice.refuses (t : TrustedDevice) (presented : Vector UInt8 32) : Bool :=
  t.hybridPin.any fun pin => pin ≠ presented

def settleTrusted (S : Signing) (j : Verdicts × Anchors) (t : TrustedDevice) :
    Verdicts × Anchors :=
  match j.1.find? fun s => s.2.isNone && s.1.deviceId == t.deviceId with
  | some (d, _) =>
    if t.refuses (d.presented S) then (settleFirst t.deviceId .keyChanged j.1, j.2)
    else (settleFirst t.deviceId .pinned j.1, j.2.insert t.deviceId (d.presented S))
  | none =>
    match t.hybridPin with
    | some pin => (j.1, j.2.insert t.deviceId pin)
    | none => j

def vouching (S : Signing) :
    Saturation.Rules OfferedDevice Bytes (Vector UInt8 32) DeviceVerdict where
  fire d anchors := (vouchingSigner S d anchors).map .vouched
  key d := d.deviceId
  value d := d.presented S

def settleInvalid (S : Signing) (offered : List OfferedDevice) : Verdicts :=
  offered.map fun d => (d, if d.isConsistent S then none else some .invalid)

/-- `judge`; `fuel` bounds the rounds of the vouching loop. -/
def judge (S : Signing) (fuel : Nat) (trusted : List TrustedDevice)
    (offered : List OfferedDevice) : Option (List DeviceVerdict) :=
  let settled := trusted.foldl (settleTrusted S) (settleInvalid S offered, ∅)
  if trusted.isEmpty then some (settled.1.map fun s => s.2.getD .firstOfAccount)
  else (Saturation.saturate (vouching S) fuel settled.1 settled.2).map fun r =>
    r.1.map fun s => s.2.getD .unvouched

/-! ## What the verdicts mean -/

section

variable (S : Signing)

/-- A valid certificate on the device, by a hybrid key of that hash under the signer's id. -/
def Certifies (d : OfferedDevice) (signer : Bytes) (h : Vector UInt8 32) : Prop :=
  ∃ bytes cert subjectId, d.certificate = some bytes ∧
    DeviceCertificate.decode bytes = some cert ∧ hexEncode cert.signerDeviceId = signer ∧
    signer ≠ d.deviceId ∧ hybridPin S cert.signerHybridPublic = h ∧
    hexDecode d.deviceId = some subjectId ∧ subjectId.length = 16 ∧
    S.hybridVerify cert.signerHybridPublic
      (certificateMessage cert.signerDeviceId subjectId d.keys cert.issuedAt) cert.signature = true

/-- The anchor of a trusted device: its pin, unless it is offered with another key; the key it is
offered with, when it has no pin. -/
def IsAnchor (trusted : List TrustedDevice) (offered : List OfferedDevice) (id : Bytes)
    (h : Vector UInt8 32) : Prop :=
  ∃ t ∈ trusted, t.deviceId = id ∧
    match t.hybridPin with
    | some pin => h = pin ∧ ∀ d ∈ offered, d.isConsistent S = true → d.deviceId = id →
        d.presented S = pin
    | none => ∃ d ∈ offered, d.isConsistent S = true ∧ d.deviceId = id ∧ h = d.presented S

def Untrusted (trusted : List TrustedDevice) (id : Bytes) : Prop :=
  ∀ t ∈ trusted, t.deviceId ≠ id

/-- The least set of devices with their keys that has the anchors of the trusted devices and is
closed under valid certificates: reached by a chain of them. -/
inductive Reached (trusted : List TrustedDevice) (offered : List OfferedDevice) :
    Bytes → Vector UInt8 32 → Prop
  | anchor {id : Bytes} {h : Vector UInt8 32} (ha : IsAnchor S trusted offered id h) :
      Reached trusted offered id h
  | vouched {d : OfferedDevice} {signer : Bytes} {h : Vector UInt8 32} (hd : d ∈ offered)
      (hcons : d.isConsistent S = true) (hun : Untrusted trusted d.deviceId)
      (hcert : Certifies S d signer h) (hsigner : Reached trusted offered signer h) :
      Reached trusted offered d.deviceId (d.presented S)

/-- No device is trusted twice, and none that is trusted is offered twice. -/
structure OnceEach (trusted : List TrustedDevice) (offered : List OfferedDevice) : Prop where
  trustedOnce : (trusted.map TrustedDevice.deviceId).Nodup
  offeredOnce : offered.Pairwise fun d d' => d.isConsistent S = true → d'.isConsistent S = true →
    d.deviceId = d'.deviceId → Untrusted trusted d.deviceId

end

section

variable {S : Signing} {d : OfferedDevice} {signer signer' : Bytes} {h h' : Vector UInt8 32}
  {anchors : Anchors} {trusted : List TrustedDevice} {offered : List OfferedDevice}

theorem vouchingSigner_eq_some :
    vouchingSigner S d anchors = some signer ↔
      ∃ h, anchors[signer]? = some h ∧ Certifies S d signer h := by
  unfold vouchingSigner Certifies
  constructor
  · intro hv
    simp only [Option.bind_eq_bind, Option.bind_eq_some_iff] at hv
    obtain ⟨bytes, hbytes, cert, hcert, hv⟩ := hv
    split at hv
    · cases hv
    rename_i hne
    obtain ⟨anchor, hanchor, hv⟩ := Option.bind_eq_some_iff.mp hv
    split at hv
    · cases hv
    rename_i hpin
    obtain ⟨subjectId, hsubject, hv⟩ := Option.bind_eq_some_iff.mp hv
    rw [Option.filter_eq_some_iff] at hsubject
    split at hv
    · rename_i hverify
      cases hv
      exact ⟨anchor, hanchor, bytes, cert, subjectId, hbytes, hcert, rfl, hne, not_not.mp hpin,
        hsubject.1, of_decide_eq_true hsubject.2, hverify⟩
    · cases hv
  · rintro ⟨h, hanchor, bytes, cert, subjectId, hbytes, hcert, rfl, hne, rfl, hsubject, hlen, hverify⟩
    simp [hbytes, hcert, hne, hanchor, hsubject, hlen, hverify, Option.filter]

theorem Certifies.unique (hc : Certifies S d signer h) (hc' : Certifies S d signer' h') :
    signer = signer' ∧ h = h' := by
  obtain ⟨bytes, cert, -, hbytes, hcert, rfl, -, rfl, -⟩ := hc
  obtain ⟨bytes', cert', -, hbytes', hcert', rfl, -, rfl, -⟩ := hc'
  rw [hbytes] at hbytes'
  cases hbytes'
  rw [hcert] at hcert'
  cases hcert'
  exact ⟨rfl, rfl⟩

/-! ## The trusted devices -/

def standing (S : Signing) (trusted : List TrustedDevice) (d : OfferedDevice) :
    Option DeviceVerdict :=
  if d.isConsistent S then
    (trusted.find? fun t => t.deviceId == d.deviceId).map fun t =>
      if t.refuses (d.presented S) then .keyChanged else .pinned
  else some .invalid

def anchorOf (S : Signing) (offered : List OfferedDevice) (t : TrustedDevice) :
    Option (Vector UInt8 32) :=
  match offered.find? fun d => d.isConsistent S && d.deviceId == t.deviceId with
  | some d => if t.refuses (d.presented S) then none else some (d.presented S)
  | none => t.hybridPin

variable {id : Bytes} {t : TrustedDevice}

theorem find?_trusted_eq_none :
    (trusted.find? fun t => t.deviceId == id) = none ↔ Untrusted trusted id := by
  simp [Untrusted]

theorem standing_eq_none :
    standing S trusted d = none ↔ d.isConsistent S = true ∧ Untrusted trusted d.deviceId := by
  unfold standing
  cases hcons : d.isConsistent S with
  | false => simp
  | true => simp [Untrusted]

theorem settleFirst_map {verdict : DeviceVerdict} {f : OfferedDevice → Option DeviceVerdict}
    (hone : offered.Pairwise fun d d' => ¬ ((f d = none ∧ d.deviceId = id) ∧
      f d' = none ∧ d'.deviceId = id)) :
    settleFirst id verdict (offered.map fun d => (d, f d)) =
      offered.map fun d => (d, if f d = none ∧ d.deviceId = id then some verdict else f d) := by
  induction offered with
  | nil => rfl
  | cons d rest ih =>
    obtain ⟨hd, hrest⟩ := List.pairwise_cons.mp hone
    rw [List.map_cons, List.map_cons]
    cases hf : f d with
    | some v =>
      simp only [settleFirst, ih hrest, reduceCtorEq, false_and, if_false]
    | none =>
      by_cases hid : d.deviceId = id
      · simp only [settleFirst, hid, if_true, true_and]
        congr 1
        refine List.map_congr_left fun d' hd' => ?_
        rw [if_neg fun hopen => hd d' hd' ⟨⟨hf, hid⟩, hopen⟩]
      · simp only [settleFirst, hid, if_false, ih hrest, and_false]

theorem OnceEach.eq_of_trusted (H : OnceEach S trusted offered) {d' : OfferedDevice}
    (hd : d ∈ offered) (hd' : d' ∈ offered) (hc : d.isConsistent S = true)
    (hc' : d'.isConsistent S = true) (hid : d.deviceId = d'.deviceId) (ht : t ∈ trusted)
    (htd : t.deviceId = d.deviceId) : d = d' := by
  by_contra hne
  have hsymm : Std.Symm fun d d' : OfferedDevice => d.isConsistent S = true →
      d'.isConsistent S = true → d.deviceId = d'.deviceId → Untrusted trusted d.deviceId := by
    refine ⟨fun x y h hy hx hyx => ?_⟩
    rw [hyx]
    exact h hx hy hyx.symm
  exact H.offeredOnce.forall hd hd' hne hc hc' hid t ht htd

theorem OnceEach.init (H : OnceEach S (trusted ++ [t]) offered) :
    OnceEach S trusted offered := by
  refine ⟨?_, H.offeredOnce.imp fun h hc hc' hid t' ht' => h hc hc' hid t'
    (List.mem_append_left _ ht')⟩
  have hnd := H.trustedOnce
  rw [List.map_append] at hnd
  exact hnd.of_append_left

theorem OnceEach.last_untrusted (H : OnceEach S (trusted ++ [t]) offered) :
    Untrusted trusted t.deviceId := by
  intro u hu heq
  have hnd := H.trustedOnce
  rw [List.map_append, List.nodup_append] at hnd
  exact hnd.2.2 _ (List.mem_map_of_mem hu) _ (by simp) heq

theorem find?_concat (hnew : Untrusted trusted t.deviceId) (id : Bytes) :
    ((trusted ++ [t]).find? fun u => u.deviceId == id) =
      if id = t.deviceId then some t else trusted.find? fun u => u.deviceId == id := by
  rw [List.find?_append]
  by_cases hid : id = t.deviceId
  · rw [if_pos hid, hid, find?_trusted_eq_none.mpr hnew]
    simp
  · rw [if_neg hid]
    simp [Ne.symm hid]

theorem standing_of_new (hnew : Untrusted trusted t.deviceId) (hid : d.deviceId = t.deviceId) :
    standing S trusted d = none ↔ d.isConsistent S = true := by
  rw [standing_eq_none, hid]
  exact ⟨And.left, fun h => ⟨h, hnew⟩⟩

theorem standing_concat (hnew : Untrusted trusted t.deviceId) (d : OfferedDevice) :
    standing S (trusted ++ [t]) d =
      if standing S trusted d = none ∧ d.deviceId = t.deviceId then
        some (if t.refuses (d.presented S) then .keyChanged else .pinned)
      else standing S trusted d := by
  by_cases hid : d.deviceId = t.deviceId
  · cases hcons : d.isConsistent S with
    | false => simp [standing, hcons]
    | true =>
      rw [if_pos ⟨(standing_of_new hnew hid).mpr hcons, hid⟩]
      simp [standing, hcons, hid, find?_concat hnew]
  · rw [if_neg fun h => hid h.2]
    unfold standing
    rw [find?_concat hnew, if_neg hid]

theorem find?_standing (hnew : Untrusted trusted t.deviceId) :
    ((offered.map fun d => (d, standing S trusted d)).find? fun s =>
      s.2.isNone && s.1.deviceId == t.deviceId) =
      (offered.find? fun d => d.isConsistent S && d.deviceId == t.deviceId).map
        fun d => (d, standing S trusted d) := by
  rw [List.find?_map]
  congr 2
  funext d
  by_cases hid : d.deviceId = t.deviceId
  · simp only [Function.comp_apply, hid, beq_self_eq_true, Bool.and_true]
    rw [Bool.eq_iff_iff, Option.isNone_iff_eq_none]
    exact standing_of_new hnew hid
  · simp only [Function.comp_apply, beq_eq_false_iff_ne.mpr hid, Bool.and_false]

/-- The verdict a trusted device's first offered one gets is the standing it has from then on. -/
theorem settleFirst_standing (H : OnceEach S (trusted ++ [t]) offered) {found : OfferedDevice}
    (hfound : found ∈ offered) (hcons : found.isConsistent S = true)
    (hid : found.deviceId = t.deviceId) :
    settleFirst t.deviceId (if t.refuses (found.presented S) then .keyChanged else .pinned)
        (offered.map fun d => (d, standing S trusted d)) =
      offered.map fun d => (d, standing S (trusted ++ [t]) d) := by
  have hnew := H.last_untrusted
  rw [settleFirst_map]
  · refine List.map_congr_left fun d hd => ?_
    rw [standing_concat hnew]
    by_cases hopen : standing S trusted d = none ∧ d.deviceId = t.deviceId
    · have hd : d = found := H.eq_of_trusted hd hfound ((standing_of_new hnew hopen.2).mp hopen.1)
        hcons (hopen.2.trans hid.symm) (List.mem_append_right _ (by simp)) hopen.2.symm
      rw [if_pos hopen, if_pos hopen, hd]
    · rw [if_neg hopen, if_neg hopen]
  · refine H.offeredOnce.imp ?_
    rintro d d' h ⟨⟨hd, hid⟩, hd', hid'⟩
    exact h ((standing_of_new hnew hid).mp hd) ((standing_of_new hnew hid').mp hd')
      (hid.trans hid'.symm) t (by simp) hid.symm

theorem settleTrusted_standing (H : OnceEach S (trusted ++ [t]) offered)
    (hanchors : ∀ id, anchors[id]? =
      (trusted.find? fun u => u.deviceId == id).bind (anchorOf S offered)) :
    (settleTrusted S (offered.map fun d => (d, standing S trusted d), anchors) t).1 =
        offered.map (fun d => (d, standing S (trusted ++ [t]) d)) ∧
      ∀ id, (settleTrusted S (offered.map fun d => (d, standing S trusted d), anchors) t).2[id]? =
        ((trusted ++ [t]).find? fun u => u.deviceId == id).bind (anchorOf S offered) := by
  have hnew := H.last_untrusted
  have hlookup : ∀ id, ((trusted ++ [t]).find? fun u => u.deviceId == id).bind
      (anchorOf S offered) = if id = t.deviceId then anchorOf S offered t else anchors[id]? := by
    intro id
    rw [find?_concat hnew, hanchors]
    split <;> rfl
  have hfresh : anchors[t.deviceId]? = none := by
    rw [hanchors, find?_trusted_eq_none.mpr hnew]
    rfl
  have hkeep : ∀ id, anchorOf S offered t = none →
      anchors[id]? = if id = t.deviceId then anchorOf S offered t else anchors[id]? := by
    intro id hnone
    split
    · rename_i hid
      rw [hid, hnone, hfresh]
    · rfl
  simp only [hlookup]
  unfold settleTrusted
  simp only [find?_standing hnew]
  cases hfind : offered.find? fun d => d.isConsistent S && d.deviceId == t.deviceId with
  | some found =>
    have hmem := List.mem_of_find?_eq_some hfind
    have hprop := List.find?_some hfind
    rw [Bool.and_eq_true, beq_iff_eq] at hprop
    have hsettled := settleFirst_standing H hmem hprop.1 hprop.2
    simp only [Option.map_some]
    cases href : t.refuses (found.presented S) with
    | true =>
      rw [href] at hsettled
      refine ⟨hsettled, fun id => hkeep id ?_⟩
      simp [anchorOf, hfind, href]
    | false =>
      rw [href] at hsettled
      refine ⟨hsettled, fun id => ?_⟩
      have hanchor : anchorOf S offered t = some (found.presented S) := by
        simp [anchorOf, hfind, href]
      rw [hanchor]
      exact Table.lookup_insert _ _ _ _
  | none =>
    have hsame : offered.map (fun d => (d, standing S trusted d)) =
        offered.map fun d => (d, standing S (trusted ++ [t]) d) := by
      refine List.map_congr_left fun d hd => ?_
      have hnot := List.find?_eq_none.mp hfind d hd
      rw [standing_concat hnew, if_neg]
      rintro ⟨hopen, hid⟩
      rw [Bool.and_eq_true, beq_iff_eq] at hnot
      exact hnot ⟨(standing_of_new hnew hid).mp hopen, hid⟩
    have hanchor : anchorOf S offered t = t.hybridPin := by
      simp [anchorOf, hfind]
    simp only [Option.map_none]
    cases hpin : t.hybridPin with
    | some pin =>
      refine ⟨hsame, fun id => ?_⟩
      rw [hanchor, hpin]
      exact Table.lookup_insert _ _ _ _
    | none => exact ⟨hsame, fun id => hkeep id (hanchor.trans hpin)⟩

theorem settled_standing (H : OnceEach S trusted offered) :
    (trusted.foldl (settleTrusted S) (settleInvalid S offered, ∅)).1 =
        offered.map (fun d => (d, standing S trusted d)) ∧
      ∀ id, (trusted.foldl (settleTrusted S) (settleInvalid S offered, ∅)).2[id]? =
        (trusted.find? fun u => u.deviceId == id).bind (anchorOf S offered) := by
  induction trusted using List.reverseRecOn with
  | nil => exact ⟨rfl, fun id => by simp⟩
  | append_singleton trusted t ih =>
    obtain ⟨hslots, hanchors⟩ := ih H.init
    have hpair : trusted.foldl (settleTrusted S) (settleInvalid S offered, ∅) =
        (offered.map fun d => (d, standing S trusted d),
          (trusted.foldl (settleTrusted S) (settleInvalid S offered, ∅)).2) :=
      Prod.ext hslots rfl
    rw [List.foldl_append, List.foldl_cons, List.foldl_nil, hpair]
    exact settleTrusted_standing H hanchors

theorem find?_trusted_of_mem (hnd : (trusted.map TrustedDevice.deviceId).Nodup) (ht : t ∈ trusted) :
    (trusted.find? fun u => u.deviceId == t.deviceId) = some t := by
  cases hfind : trusted.find? fun u => u.deviceId == t.deviceId with
  | none => exact absurd rfl (find?_trusted_eq_none.mp hfind t ht)
  | some u =>
    have hid := List.find?_some hfind
    rw [beq_iff_eq] at hid
    rw [List.inj_on_of_nodup_map hnd (List.mem_of_find?_eq_some hfind) ht hid]

theorem refuses_eq_false {presented : Vector UInt8 32} :
    t.refuses presented = false ↔ ∀ pin, t.hybridPin = some pin → pin = presented := by
  unfold TrustedDevice.refuses
  cases t.hybridPin with
  | none => simp
  | some pin => simp

/-- The table the vouching starts from holds the anchors of the trusted devices. -/
theorem OnceEach.anchors_iff (H : OnceEach S trusted offered) :
    (trusted.find? fun u => u.deviceId == id).bind (anchorOf S offered) = some h ↔
      IsAnchor S trusted offered id h := by
  have hpresented : ∀ t ∈ trusted, ∀ d ∈ offered, d.isConsistent S = true →
      d.deviceId = t.deviceId →
      (offered.find? fun d => d.isConsistent S && d.deviceId == t.deviceId) = some d := by
    intro t ht d hd hcons hid
    cases hfind : offered.find? fun d => d.isConsistent S && d.deviceId == t.deviceId with
    | none => exact absurd (by simp [hcons, hid]) (List.find?_eq_none.mp hfind d hd)
    | some d' =>
      have hd' := List.find?_some hfind
      rw [Bool.and_eq_true, beq_iff_eq] at hd'
      rw [H.eq_of_trusted hd (List.mem_of_find?_eq_some hfind) hcons hd'.1
        (hid.trans hd'.2.symm) ht hid.symm]
  constructor
  · intro hbind
    obtain ⟨t, hfind, hanchor⟩ := Option.bind_eq_some_iff.mp hbind
    have ht := List.mem_of_find?_eq_some hfind
    have hid := List.find?_some hfind
    rw [beq_iff_eq] at hid
    refine ⟨t, ht, hid, ?_⟩
    subst hid
    unfold anchorOf at hanchor
    split at hanchor
    · rename_i d hd
      have hmem := List.mem_of_find?_eq_some hd
      have hprop := List.find?_some hd
      rw [Bool.and_eq_true, beq_iff_eq] at hprop
      split at hanchor
      · cases hanchor
      · rename_i hrefuses
        have hpins := refuses_eq_false.mp (Bool.eq_false_iff.mpr hrefuses)
        cases hanchor
        cases hpin : t.hybridPin with
        | none => exact ⟨d, hmem, hprop.1, hprop.2, rfl⟩
        | some pin =>
          refine ⟨(hpins pin hpin).symm, fun d' hd' hcons hid => ?_⟩
          have hsame := hpresented t ht d' hd' hcons hid
          rw [hd] at hsame
          cases hsame
          exact (hpins pin hpin).symm
    · rename_i hnone
      rw [hanchor]
      refine ⟨rfl, fun d hd hcons hid => ?_⟩
      rw [hpresented t ht d hd hcons hid] at hnone
      cases hnone
  · rintro ⟨t, ht, rfl, hanchor⟩
    rw [find?_trusted_of_mem H.trustedOnce ht, Option.bind_some]
    unfold anchorOf
    cases hpin : t.hybridPin with
    | none =>
      rw [hpin] at hanchor
      obtain ⟨d, hd, hcons, hid, rfl⟩ := hanchor
      rw [hpresented t ht d hd hcons hid]
      simp [TrustedDevice.refuses, hpin]
    | some pin =>
      rw [hpin] at hanchor
      obtain ⟨rfl, hall⟩ := hanchor
      cases hfind : offered.find? fun d => d.isConsistent S && d.deviceId == t.deviceId with
      | none => rfl
      | some d =>
        have hprop := List.find?_some hfind
        rw [Bool.and_eq_true, beq_iff_eq] at hprop
        have := hall d (List.mem_of_find?_eq_some hfind) hprop.1 hprop.2
        simp [TrustedDevice.refuses, hpin, this]

theorem Reached.last (hr : Reached S trusted offered id h) :
    IsAnchor S trusted offered id h ∨ ∃ d ∈ offered, d.deviceId = id ∧ Untrusted trusted id ∧
      ∃ signer h', Certifies S d signer h' ∧ Reached S trusted offered signer h' := by
  cases hr with
  | anchor ha => exact .inl ha
  | vouched hd hcons hun hcert hsigner => exact .inr ⟨_, hd, rfl, hun, _, _, hcert, hsigner⟩

theorem Reached.certified (hoffered : (offered.map OfferedDevice.deviceId).Nodup)
    (hd : d ∈ offered) (hun : Untrusted trusted d.deviceId)
    (hr : Reached S trusted offered d.deviceId h) :
    ∃ signer h', Certifies S d signer h' ∧ Reached S trusted offered signer h' := by
  rcases hr.last with ⟨t, ht, htid, -⟩ | ⟨d', hd', hid, -, hsigned⟩
  · exact absurd htid (hun t ht)
  · rwa [List.inj_on_of_nodup_map hoffered hd hd' hid.symm]

end

end Trust

end ConstructCore
