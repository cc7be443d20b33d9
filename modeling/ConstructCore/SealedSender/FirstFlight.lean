import ConstructCore.SealedSender.Envelope
import ConstructCore.Wire.Lossless

/-!
# First flights

`crypto/sealed_sender/first_flight.rs`: the first messages of a session sealed whole. The
handshake's ciphertext is lifted out of the wire payload, since the reader needs it to derive the
key, and put back when the box is opened.

| bytes | of the box |
|---|---|
| 4 | Kyber prekey id, big-endian |
| 1568 | ML-KEM ciphertext |
| 32 | ephemeral X25519 key |
| 12 | nonce |
| rest | certificate behind its length, wire payload without the ciphertext: sealed |

`Carries` says what `handshake_of_wire` reads of a payload, and `unpack` reads the same
(`carries_of_unpack`): the two parsers agree, so the payload put together again is the one that
was taken apart (`openFlight_sealed`).
-/

namespace ConstructCore

open Bytes

namespace FirstFlight

open Wire (headerSize dhKeySize packHeader)

def salt : Bytes := ofText "ConstructSEALED-first-v1"

def kemCiphertextLen : Nat := 1568

def idLen : Nat := 4
def ephLen : Nat := 32
def nonceLen : Nat := 12

def adLen : Nat := idLen + kemCiphertextLen + ephLen

def kyberPrekeyIdOffset : Nat := 4 + dhKeySize + 4
def kemLenOffset : Nat := kyberPrekeyIdOffset + 4

structure HandshakeRef where
  kyberPrekeyId : UInt32
  kemCiphertext : Bytes
deriving DecidableEq, Repr

def handshakeOfWire (wirePayload : Bytes) : Option HandshakeRef :=
  if wirePayload.length < headerSize then none
  else
    let kyberPrekeyId := u32OfLe ((wirePayload.drop kyberPrekeyIdOffset).take idLen)
    let kemLen := (u16OfLe ((wirePayload.drop kemLenOffset).take 2)).toNat
    if kemLen ≠ kemCiphertextLen ∨ wirePayload.length ≤ headerSize + kemLen then none
    else some { kyberPrekeyId, kemCiphertext := (wirePayload.drop headerSize).take kemLen }

def tooShort (size : Nat) : CryptoError :=
  .invalidInputError s!"first flight too short: {size} bytes"

def handshakeOfBox (firstFlight : Bytes) : Except CryptoError HandshakeRef :=
  if firstFlight.length < adLen + nonceLen + aeadTagLen then .error (tooShort firstFlight.length)
  else .ok {
    kyberPrekeyId := u32OfLe (firstFlight.take idLen).reverse
    kemCiphertext := (firstFlight.drop idLen).take kemCiphertextLen }

def key32 (bytes : Bytes) (what : String) : Except CryptoError Bytes :=
  let size := bytes.length
  if size = 32 then .ok bytes
  else .error (.invalidInputError s!"{what} must be 32 bytes, got {size}")

def certificateTooLarge (size : Nat) : CryptoError :=
  .invalidInputError s!"certificate too large: {size}"

def certLen (certificate : Bytes) : Except CryptoError UInt16 :=
  if certificate.length ≤ Wire.u16Max then .ok (UInt16.ofNat certificate.length)
  else .error (certificateTooLarge certificate.length)

/-- What the box is sealed with beside its body: all that comes before the nonce. -/
def adOf (handshake : HandshakeRef) (eph : Bytes) : Bytes :=
  u32ToBe handshake.kyberPrekeyId ++ handshake.kemCiphertext ++ eph

def bodyOf (len : UInt16) (certificate wirePayload : Bytes) : Bytes :=
  u16ToBe len ++ certificate ++ wirePayload.take headerSize ++
    wirePayload.drop (headerSize + kemCiphertextLen)

structure OpenedFirstFlight where
  certificate : Bytes
  wirePayload : Bytes
deriving DecidableEq, Repr

section

variable (S : SealedSuite)

/-- `box_key`: the HKDF here always succeeds. -/
def boxKey (dh ffKey eph kemCiphertext : Bytes) : Bytes :=
  (S.hkdfDeriveKey salt (dh ++ ffKey) (eph ++ (S.sha256 kemCiphertext).toList) 32).toOption.getD []

/-- `seal_with`; `ephSeed` and `nonce` are what was drawn. -/
def sealWith (ffKey recipientIdentity wirePayload certificate ephSeed nonce : Bytes) :
    Except CryptoError Bytes := do
  let handshake ← (handshakeOfWire wirePayload).okOr
    (.invalidInputError "not a first flight: no ML-KEM handshake")
  let len ← certLen certificate
  let recipient ← key32 recipientIdentity "recipient identity key"
  let eph := S.x25519Public ephSeed
  let key := boxKey S (S.diffieHellman ephSeed recipient) ffKey eph handshake.kemCiphertext
  let out := adOf handshake eph
  let sealed ← (S.chachaEncrypt key nonce (bodyOf len certificate wirePayload) out).okOr
    (.aeadEncryptionError "first-flight seal failed")
  return out ++ nonce ++ sealed

def readBody (handshake : HandshakeRef) (body : Bytes) : Except CryptoError OpenedFirstFlight :=
  if body.length < 2 then .error (.invalidInputError "first flight: no certificate length")
  else
    let wireStart := 2 + (u16OfLe (body.take 2).reverse).toNat
    if body.length < wireStart + headerSize then
      .error (.invalidInputError "first flight: body too short")
    else
      let header := (body.drop wireStart).take headerSize
      -- the header inside must name the handshake outside: the ciphertext is put back where it says
      let innerId := u32OfLe ((header.drop kyberPrekeyIdOffset).take idLen)
      let innerLen := (u16OfLe ((header.drop kemLenOffset).take 2)).toNat
      if innerId ≠ handshake.kyberPrekeyId ∨ innerLen ≠ kemCiphertextLen then
        .error (.invalidInputError "first flight: inner header names another handshake")
      else .ok {
        certificate := (body.take wireStart).drop 2
        wirePayload := header ++ handshake.kemCiphertext ++ body.drop (wireStart + headerSize) }

/-- `open`. -/
def openFlight (ffKey ourIdentitySecret firstFlight : Bytes) :
    Except CryptoError OpenedFirstFlight := do
  let handshake ← handshakeOfBox firstFlight
  let eph := (firstFlight.drop (idLen + kemCiphertextLen)).take ephLen
  let nonce := (firstFlight.drop adLen).take nonceLen
  let ours ← key32 ourIdentitySecret "identity secret"
  let eph ← key32 eph "ephemeral key"
  let key := boxKey S (S.diffieHellman ours eph) ffKey eph handshake.kemCiphertext
  let body ← (S.chachaDecrypt key nonce (firstFlight.drop (adLen + nonceLen))
    (firstFlight.take adLen)).okOr (.aeadDecryptionError "first flight does not open")
  readBody handshake body

end

/-! ## The two parsers -/

def kemLenField : UInt16 := UInt16.ofNat kemCiphertextLen

/-- A header that names a handshake: 40 bytes, the prekey id, the ciphertext's length, 6 bytes. -/
structure Names (header : Bytes) (id : UInt32) (before after : Bytes) : Prop where
  eq : header = before ++ (u32ToLe id ++ (u16ToLe kemLenField ++ after))
  before_length : before.length = kyberPrekeyIdOffset
  after_length : after.length = 6

/-- A payload that carries a handshake: a header that names it, the ciphertext, and more. -/
structure Carries (wirePayload : Bytes) (handshake : HandshakeRef) (header rest : Bytes) :
    Prop where
  eq : wirePayload = header ++ (handshake.kemCiphertext ++ rest)
  names : ∃ before after, Names header handshake.kyberPrekeyId before after
  kem_length : handshake.kemCiphertext.length = kemCiphertextLen
  rest_ne : rest ≠ []

section Parsers

variable {wirePayload header rest before after : Bytes} {handshake : HandshakeRef} {id : UInt32}

theorem Names.length (h : Names header id before after) : header.length = headerSize := by
  rw [h.eq]
  simp only [List.length_append, h.before_length, h.after_length, length_u32ToLe, length_u16ToLe]
  rfl

theorem Names.fields (h : Names header id before after) (more : Bytes) :
    u32OfLe (((header ++ more).drop kyberPrekeyIdOffset).take idLen) = id ∧
      (u16OfLe (((header ++ more).drop kemLenOffset).take 2)).toNat = kemCiphertextLen := by
  have hid : (header ++ more).drop kyberPrekeyIdOffset =
      u32ToLe id ++ (u16ToLe kemLenField ++ after ++ more) := by
    rw [h.eq]
    simp only [List.append_assoc]
    exact List.drop_left' h.before_length
  constructor
  · rw [hid, List.take_left' (show (u32ToLe id).length = idLen from length_u32ToLe id), u32OfLe_u32ToLe]
  · have hlen : (header ++ more).drop kemLenOffset =
        u16ToLe kemLenField ++ (after ++ more) := by
      unfold kemLenOffset
      rw [← List.drop_drop, hid, List.append_assoc]
      exact List.drop_left' (length_u32ToLe id)
    rw [hlen, List.take_left' (length_u16ToLe kemLenField), u16OfLe_u16ToLe]
    decide

theorem handshakeOfWire_of_carries (h : Carries wirePayload handshake header rest) :
    handshakeOfWire wirePayload = some handshake := by
  obtain ⟨before, after, hnames⟩ := h.names
  have hheader := hnames.length
  have hpos := List.length_pos_iff.mpr h.rest_ne
  have hlen : wirePayload.length = headerSize + (kemCiphertextLen + rest.length) := by
    rw [h.eq, List.length_append, List.length_append, hheader, h.kem_length]
  obtain ⟨hid, hkem⟩ := hnames.fields (handshake.kemCiphertext ++ rest)
  rw [← h.eq] at hid hkem
  have hct : (wirePayload.drop headerSize).take kemCiphertextLen = handshake.kemCiphertext := by
    rw [h.eq, List.drop_left' hheader, List.take_left' h.kem_length]
  unfold handshakeOfWire
  rw [if_neg (by omega)]
  dsimp only
  rw [hid, hkem, hct]
  refine if_neg ?_
  rintro (hne | hshort)
  · exact hne rfl
  · omega

/-- What `unpack` accepts with a ciphertext of that length carries the handshake it reads. -/
theorem carries_of_unpack {d : Wire.DecodedWirePayload} {kem : Bytes}
    (h : Wire.unpack wirePayload = .ok d) (hkem : d.kemCiphertext = some kem)
    (hlen : kem.length = kemCiphertextLen) :
    ∃ header rest, Carries wirePayload ⟨d.kyberOtpkId, kem⟩ header rest := by
  obtain ⟨n, dh, o, k, kemLen, p, wire, body, rest, hdh, hdata, hbody⟩ := Wire.unpack_eq_ok.mp h
  obtain ⟨-, -, -, hsealed, kem', kemIdentity, proof, epoch, index, field, pq, hkem', -, -, -, -,
    -, -, hparts, rfl⟩ := Wire.unpackBody_eq_ok.mp hbody
  -- there is a ciphertext, so it is the one read off the body, and its length is the header's
  have hsome : kemLen.toNat > 0 ∧ kem' = kem := by
    by_cases hpos : kemLen.toNat > 0
    · rw [if_pos hpos] at hkem
      exact ⟨hpos, Option.some.inj hkem⟩
    · rw [if_neg hpos] at hkem
      cases hkem
  obtain ⟨-, rfl⟩ := hsome
  have hfield : kemLen = kemLenField := by
    apply UInt16.toNat_inj.mp
    rw [← hkem', hlen]
    decide
  refine ⟨packHeader n dh o k kemLen p wire,
    Wire.packObject kemIdentity ++ (Wire.packObject proof ++ (pq ++ rest)), ?_, ?_, hlen, ?_⟩
  · rw [hdata, hparts]
  · refine ⟨u32ToLe n ++ dh ++ u32ToLe o, u32ToLe p ++ u16ToLe wire, ?_, ?_, ?_⟩
    · rw [hfield]
      unfold packHeader
      simp only [List.append_assoc]
    · rw [List.length_append, List.length_append, length_u32ToLe, length_u32ToLe, hdh]
      rfl
    · rw [List.length_append, length_u32ToLe, length_u16ToLe]
  · intro hnil
    simp only [List.append_eq_nil_iff] at hnil
    exact hsealed hnil.2.2.2

theorem kem_length_of_handshakeOfWire (h : handshakeOfWire wirePayload = some handshake) :
    handshake.kemCiphertext.length = kemCiphertextLen := by
  unfold handshakeOfWire at h
  split at h
  · cases h
  · dsimp only at h
    split at h
    · cases h
    · rename_i hok
      obtain ⟨hlen, hlong⟩ := not_or.mp hok
      cases h
      rw [List.length_take, List.length_drop]
      rw [Decidable.not_not] at hlen
      omega

end Parsers

/-! ## Opening what was sealed -/

section Opening

variable {S : SealedSuite}

/-- What a box was sealed from. -/
structure SealedFlight where
  ffKey : Bytes
  recipientIdentity : Bytes
  wirePayload : Bytes
  certificate : Bytes
  ephSeed : Bytes
  nonce : Bytes

def SealedFlight.output (S : SealedSuite) (f : SealedFlight) : Except CryptoError Bytes :=
  sealWith S f.ffKey f.recipientIdentity f.wirePayload f.certificate f.ephSeed f.nonce

def SealedFlight.key (S : SealedSuite) (f : SealedFlight) (handshake : HandshakeRef) : Bytes :=
  boxKey S (S.diffieHellman f.ephSeed f.recipientIdentity) f.ffKey (S.x25519Public f.ephSeed)
    handshake.kemCiphertext

def SealedFlight.call (S : SealedSuite) (f : SealedFlight) (handshake : HandshakeRef) : AeadCall :=
  ⟨f.key S handshake, f.nonce,
    bodyOf (UInt16.ofNat f.certificate.length) f.certificate f.wirePayload,
    adOf handshake (S.x25519Public f.ephSeed)⟩

theorem key32_eq_ok {bytes a : Bytes} {what : String} :
    key32 bytes what = .ok a ↔ bytes.length = 32 ∧ a = bytes := by
  unfold key32
  dsimp only
  split
  · rename_i h
    exact ⟨fun heq => ⟨h, (Except.ok.inj heq).symm⟩, fun ⟨_, heq⟩ => by rw [heq]⟩
  · rename_i h
    exact ⟨fun heq => (nomatch heq), fun heq => absurd heq.1 h⟩

variable {certificate box header rest secret : Bytes} {f : SealedFlight} {handshake : HandshakeRef}

theorem certLen_eq_ok {len : UInt16} :
    certLen certificate = .ok len ↔
      certificate.length ≤ Wire.u16Max ∧ len = UInt16.ofNat certificate.length := by
  unfold certLen
  split
  · rename_i h
    exact ⟨fun heq => ⟨h, (Except.ok.inj heq).symm⟩, fun ⟨_, heq⟩ => by rw [heq]⟩
  · rename_i h
    exact ⟨fun heq => (nomatch heq), fun heq => absurd heq.1 h⟩

/-- What is sealed has a handshake, a certificate that is not too large and a recipient's key; and
the box is its associated data, the nonce and what the AEAD made. -/
theorem SealedFlight.output_eq_ok :
    f.output S = .ok box ↔ ∃ handshake c, handshakeOfWire f.wirePayload = some handshake ∧
      f.certificate.length ≤ Wire.u16Max ∧ f.recipientIdentity.length = 32 ∧
      S.chachaEncrypt (f.call S handshake).key f.nonce (f.call S handshake).body
        (f.call S handshake).aad = some c ∧
      box = (f.call S handshake).aad ++ f.nonce ++ c := by
  unfold output sealWith
  constructor
  · intro h
    obtain ⟨handshake, hhandshake, h⟩ := Except.exists_of_bind_ok h
    obtain ⟨len, hlen, h⟩ := Except.exists_of_bind_ok h
    obtain ⟨recipient, hrecipient, h⟩ := Except.exists_of_bind_ok h
    obtain ⟨hcert, rfl⟩ := certLen_eq_ok.mp hlen
    obtain ⟨hsize, rfl⟩ := key32_eq_ok.mp hrecipient
    obtain ⟨c, hc, h⟩ := Except.exists_of_bind_ok h
    cases h
    exact ⟨handshake, c, Option.okOr_eq_ok.mp hhandshake, hcert, hsize, Option.okOr_eq_ok.mp hc,
      rfl⟩
  · rintro ⟨handshake, c, hhandshake, hcert, hsize, hc, rfl⟩
    rw [Option.okOr_eq_ok.mpr hhandshake, certLen_eq_ok.mpr ⟨hcert, rfl⟩,
      key32_eq_ok.mpr ⟨hsize, rfl⟩]
    show (S.chachaEncrypt (f.call S handshake).key f.nonce (f.call S handshake).body
      (f.call S handshake).aad).okOr _ >>= _ = _
    rw [hc]
    rfl

/-- With a handshake, a certificate that is not too large and a recipient's key, sealing fails only
if the AEAD does. -/
theorem SealedFlight.output_error (f : SealedFlight)
    (hhandshake : handshakeOfWire f.wirePayload = some handshake)
    (hcert : f.certificate.length ≤ Wire.u16Max) (hsize : f.recipientIdentity.length = 32)
    {e : CryptoError} (h : f.output S = .error e) :
    e = .aeadEncryptionError "first-flight seal failed" := by
  unfold output sealWith at h
  rw [Except.bind_of_ok (Option.okOr_eq_ok.mpr hhandshake),
    Except.bind_of_ok (certLen_eq_ok.mpr ⟨hcert, rfl⟩),
    Except.bind_of_ok (key32_eq_ok.mpr ⟨hsize, rfl⟩)] at h
  rcases Except.bind_eq_error h with h | ⟨c, -, h⟩
  · generalize S.chachaEncrypt _ _ _ _ = sealed at h
    cases sealed with
    | none =>
      cases h
      rfl
    | some c => cases h
  · cases h

/-- The parts of a box. -/
structure BoxOf (box : Bytes) (handshake : HandshakeRef) (eph nonce c : Bytes) : Prop where
  eq : box = adOf handshake eph ++ nonce ++ c
  kem_length : handshake.kemCiphertext.length = kemCiphertextLen
  eph_length : eph.length = ephLen
  nonce_length : nonce.length = nonceLen

section Box

variable {box eph nonce c : Bytes} {handshake : HandshakeRef}

theorem length_adOf (hkem : handshake.kemCiphertext.length = kemCiphertextLen)
    (heph : eph.length = ephLen) : (adOf handshake eph).length = adLen := by
  unfold adOf
  rw [List.length_append, List.length_append, length_u32ToBe, hkem, heph]
  rfl

theorem BoxOf.ad (h : BoxOf box handshake eph nonce c) :
    box.take adLen = adOf handshake eph := by
  rw [h.eq, List.append_assoc, List.take_left' (length_adOf h.kem_length h.eph_length)]

theorem BoxOf.nonce_eq (h : BoxOf box handshake eph nonce c) :
    (box.drop adLen).take nonceLen = nonce := by
  rw [h.eq, List.append_assoc, List.drop_left' (length_adOf h.kem_length h.eph_length),
    List.take_left' h.nonce_length]

theorem BoxOf.sealed_eq (h : BoxOf box handshake eph nonce c) :
    box.drop (adLen + nonceLen) = c := by
  rw [h.eq]
  apply List.drop_left'
  rw [List.length_append, length_adOf h.kem_length h.eph_length, h.nonce_length]

theorem BoxOf.eph_eq (h : BoxOf box handshake eph nonce c) :
    (box.drop (idLen + kemCiphertextLen)).take ephLen = eph := by
  have hbefore : (u32ToBe handshake.kyberPrekeyId ++ handshake.kemCiphertext).length =
      idLen + kemCiphertextLen := by
    rw [List.length_append, length_u32ToBe, h.kem_length]
    rfl
  rw [h.eq]
  unfold adOf
  rw [List.append_assoc, List.append_assoc, List.drop_left' hbefore, List.take_left' h.eph_length]

theorem BoxOf.handshake_eq (h : BoxOf box handshake eph nonce c) (hc : aeadTagLen ≤ c.length) :
    handshakeOfBox box = .ok handshake := by
  have hid : (u32ToBe handshake.kyberPrekeyId).length = idLen := length_u32ToBe _
  have hlen : ¬ box.length < adLen + nonceLen + aeadTagLen := by
    rw [h.eq, List.length_append, List.length_append, length_adOf h.kem_length h.eph_length,
      h.nonce_length]
    omega
  have hbox : box = u32ToBe handshake.kyberPrekeyId ++
      (handshake.kemCiphertext ++ (eph ++ (nonce ++ c))) := by
    rw [h.eq]
    unfold adOf
    simp only [List.append_assoc]
  unfold handshakeOfBox
  rw [if_neg hlen]
  have hfirst : u32OfLe (box.take idLen).reverse = handshake.kyberPrekeyId := by
    rw [hbox, List.take_left' hid]
    unfold u32ToBe
    rw [List.reverse_reverse, u32OfLe_u32ToLe]
  have hsecond : (box.drop idLen).take kemCiphertextLen = handshake.kemCiphertext := by
    rw [hbox, List.drop_left' hid, List.take_left' h.kem_length]
  rw [hfirst, hsecond]

end Box

/-- The body of a box is read as the certificate and the payload it was made of. -/
theorem readBody_bodyOf {wirePayload : Bytes} (h : Carries wirePayload handshake header rest)
    (hcert : certificate.length ≤ Wire.u16Max) :
    readBody handshake (bodyOf (UInt16.ofNat certificate.length) certificate wirePayload) =
      .ok ⟨certificate, wirePayload⟩ := by
  obtain ⟨before, after, hnames⟩ := h.names
  have hheader := hnames.length
  have hbody : bodyOf (UInt16.ofNat certificate.length) certificate wirePayload =
      u16ToBe (UInt16.ofNat certificate.length) ++ (certificate ++ (header ++ rest)) := by
    unfold bodyOf
    have hdrop : wirePayload.drop (headerSize + kemCiphertextLen) = rest := by
      rw [h.eq, ← List.append_assoc]
      apply List.drop_left'
      rw [List.length_append, hheader, h.kem_length]
    rw [hdrop, h.eq, List.take_left' hheader]
    simp only [List.append_assoc]
  rw [hbody]
  generalize hlen : u16ToBe (UInt16.ofNat certificate.length) = lenBytes
  have htwo : lenBytes.length = 2 := hlen ▸ length_u16ToBe _
  have hcertLen : (u16OfLe lenBytes.reverse).toNat = certificate.length := by
    rw [← hlen]
    unfold u16ToBe
    rw [List.reverse_reverse, u16OfLe_u16ToLe, UInt16.toNat_ofNat']
    exact Nat.mod_eq_of_lt (Nat.lt_succ_of_le hcert)
  have hstart : (lenBytes ++ certificate).length = 2 + certificate.length := by
    rw [List.length_append, htwo]
  obtain ⟨hid, hkem⟩ := hnames.fields []
  rw [List.append_nil] at hid hkem
  unfold readBody
  rw [if_neg (by rw [List.length_append, htwo]; omega)]
  dsimp only
  rw [List.take_left' htwo, hcertLen, ← List.append_assoc, List.drop_left' hstart,
    List.take_left' hheader, List.take_left' hstart, List.drop_left' htwo, hid, hkem,
    if_neg (by
      rw [List.length_append, hstart, List.length_append, hheader]
      omega),
    if_neg (by
      rintro (hne | hne)
      · exact hne rfl
      · exact hne rfl)]
  have hrest : (lenBytes ++ certificate ++ (header ++ rest)).drop
      (2 + certificate.length + headerSize) = rest := by
    rw [← List.append_assoc]
    apply List.drop_left'
    rw [List.length_append, hstart, hheader]
  rw [hrest, List.append_assoc, ← h.eq]

def openKey (S : SealedSuite) (ffKey secret box : Bytes) (handshake : HandshakeRef) : Bytes :=
  let eph := (box.drop (idLen + kemCiphertextLen)).take ephLen
  boxKey S (S.diffieHellman secret eph) ffKey eph handshake.kemCiphertext

theorem openFlight_eq_ok {ffKey : Bytes} {opened : OpenedFirstFlight} :
    openFlight S ffKey secret box = .ok opened ↔ ∃ handshake body,
      handshakeOfBox box = .ok handshake ∧ secret.length = 32 ∧
      S.chachaDecrypt (openKey S ffKey secret box handshake) ((box.drop adLen).take nonceLen)
        (box.drop (adLen + nonceLen)) (box.take adLen) = some body ∧
      readBody handshake body = .ok opened := by
  unfold openFlight
  constructor
  · intro h
    obtain ⟨handshake, hhandshake, hrest⟩ := Except.exists_of_bind_ok h
    obtain ⟨ours, hours, hkeyed⟩ := Except.exists_of_bind_ok hrest
    obtain ⟨eph, heph, hopened⟩ := Except.exists_of_bind_ok hkeyed
    obtain ⟨body, hbody, hread⟩ := Except.exists_of_bind_ok hopened
    obtain ⟨hsecret, rfl⟩ := key32_eq_ok.mp hours
    obtain ⟨-, rfl⟩ := key32_eq_ok.mp heph
    exact ⟨handshake, body, hhandshake, hsecret, Option.okOr_eq_ok.mp hbody, hread⟩
  · rintro ⟨handshake, body, hhandshake, hsecret, hbody, hread⟩
    -- a box that is long enough has a whole ephemeral key
    have heph : ((box.drop (idLen + kemCiphertextLen)).take ephLen).length = 32 := by
      unfold handshakeOfBox at hhandshake
      split at hhandshake
      · cases hhandshake
      · rename_i hlong
        have hsizes : adLen = idLen + kemCiphertextLen + ephLen := rfl
        rw [List.length_take, List.length_drop]
        show min ephLen _ = ephLen
        omega
    rw [Except.bind_of_ok hhandshake]
    dsimp only
    rw [Except.bind_of_ok (key32_eq_ok.mpr ⟨hsecret, rfl⟩),
      Except.bind_of_ok (key32_eq_ok.mpr ⟨heph, rfl⟩)]
    exact (Except.bind_of_ok (Option.okOr_eq_ok.mpr hbody) _).trans hread

/-- **A first flight opens to what was sealed**, with the key it was sealed with and the secret of
the identity it was sealed to. -/
theorem openFlight_sealed (hS : S.Lawful) (hopens : S.Opens)
    (hcarries : Carries f.wirePayload handshake header rest) (hnonce : f.nonce.length = nonceLen)
    (hsecret : secret.length = 32) (hrecipient : f.recipientIdentity = S.x25519Public secret)
    (h : f.output S = .ok box) :
    openFlight S f.ffKey secret box = .ok ⟨f.certificate, f.wirePayload⟩ := by
  obtain ⟨handshake', c, hhandshake, hcert, -, hc, hbox⟩ := SealedFlight.output_eq_ok.mp h
  rw [handshakeOfWire_of_carries hcarries] at hhandshake
  obtain rfl := Option.some.inj hhandshake
  have hparts : BoxOf box handshake (S.x25519Public f.ephSeed) f.nonce c :=
    ⟨hbox, hcarries.kem_length, hS.public_length f.ephSeed, hnonce⟩
  have hlong : aeadTagLen ≤ c.length := by
    rw [hS.overhead _ _ _ _ _ hc]
    omega
  have hkey : boxKey S (S.diffieHellman secret (S.x25519Public f.ephSeed)) f.ffKey
      (S.x25519Public f.ephSeed) handshake.kemCiphertext = f.key S handshake := by
    unfold SealedFlight.key
    rw [hrecipient, hS.agree secret f.ephSeed]
  refine openFlight_eq_ok.mpr ⟨handshake, _, hparts.handshake_eq hlong, hsecret, ?_,
    readBody_bodyOf hcarries hcert⟩
  unfold openKey
  rw [hparts.eph_eq, hkey, hparts.nonce_eq, hparts.sealed_eq, hparts.ad]
  exact hopens _ _ _ _ _ hc

end Opening

/-! ## What an ideal AEAD refuses -/

/-- What an envelope was sealed from. -/
structure SealedEnvelope where
  keys : DirectionKeys
  body : Bytes
  nonce : Bytes

def SealedEnvelope.output (S : SealedSuite) (s : SealedEnvelope) : Except CryptoError Bytes :=
  s.keys.sealWithNonce S s.body s.nonce

def SealedFlight.call? (S : SealedSuite) (f : SealedFlight) : Option AeadCall :=
  if f.certificate.length ≤ Wire.u16Max ∧ f.recipientIdentity.length = 32 then
    (handshakeOfWire f.wirePayload).map (f.call S)
  else none

def callsOf (S : SealedSuite) (envelopes : List SealedEnvelope) (flights : List SealedFlight) :
    List AeadCall :=
  envelopes.map (fun s => s.keys.call S s.body s.nonce) ++ flights.filterMap (·.call? S)

section Ideal

variable {S : SealedSuite} {envelopes : List SealedEnvelope} {flights : List SealedFlight}

variable {f : SealedFlight} {x : AeadCall} {ffKey secret box : Bytes}

theorem SealedFlight.call?_eq_some :
    f.call? S = some x ↔ ∃ handshake, f.certificate.length ≤ Wire.u16Max ∧
      f.recipientIdentity.length = 32 ∧ handshakeOfWire f.wirePayload = some handshake ∧
      x = f.call S handshake := by
  unfold call?
  split
  · rename_i hsizes
    rw [Option.map_eq_some_iff]
    exact ⟨fun ⟨handshake, h, heq⟩ => ⟨handshake, hsizes.1, hsizes.2, h, heq.symm⟩,
      fun ⟨handshake, _, _, h, heq⟩ => ⟨handshake, h, heq.symm⟩⟩
  · rename_i hsizes
    exact ⟨fun h => (nomatch h), fun ⟨_, hcert, hsize, _⟩ => absurd ⟨hcert, hsize⟩ hsizes⟩

theorem mem_callsOf_envelope (hS : S.Lawful) (h : x ∈ callsOf S envelopes flights)
    (haad : x.aad.length = envelopeTagLen) :
    ∃ s ∈ envelopes, x = s.keys.call S s.body s.nonce := by
  rcases List.mem_append.mp h with h | h
  · obtain ⟨s, hs, rfl⟩ := List.mem_map.mp h
    exact ⟨s, hs, rfl⟩
  · obtain ⟨f, -, hf⟩ := List.mem_filterMap.mp h
    obtain ⟨handshake, -, -, hhandshake, rfl⟩ := SealedFlight.call?_eq_some.mp hf
    have hlen := length_adOf (kem_length_of_handshakeOfWire hhandshake)
      (hS.public_length f.ephSeed)
    rw [show (f.call S handshake).aad.length = adLen from hlen] at haad
    cases haad

theorem mem_callsOf_flight (hS : S.Lawful) (h : x ∈ callsOf S envelopes flights)
    (haad : x.aad.length = adLen) : ∃ f ∈ flights, f.call? S = some x := by
  rcases List.mem_append.mp h with h | h
  · obtain ⟨s, -, rfl⟩ := List.mem_map.mp h
    rw [show (s.keys.call S s.body s.nonce).aad.length = envelopeTagLen from
      DirectionKeys.length_tagOf hS s.keys s.nonce] at haad
    cases haad
  · exact List.mem_filterMap.mp h

theorem openEnvelope_was_sealed (hS : S.Lawful) (hideal : S.Ideal (callsOf S envelopes flights))
    {b : EnvelopeBook} {bytes : Bytes} {o : OpenedEnvelope}
    (h : b.openEnvelope S bytes = some o) :
    ∃ s ∈ envelopes, s.output S = .ok bytes ∧ s.body = o.kind.toByte :: o.body := by
  obtain ⟨e, -, -, -, nonce, hcall, hseal⟩ := EnvelopeBook.openEnvelope_made hideal h
  obtain ⟨s, hs, heq⟩ := mem_callsOf_envelope hS hcall
    (DirectionKeys.length_tagOf hS e.keys.recv nonce)
  obtain ⟨henv, hnonce, hbody, htag⟩ := AeadCall.mk.inj heq
  refine ⟨s, hs, ?_, hbody.symm⟩
  -- the same key, nonce, body and tag make the same envelope
  obtain ⟨ct, hct, rfl⟩ := DirectionKeys.sealWithNonce_eq_ok.mp hseal
  refine DirectionKeys.sealWithNonce_eq_ok.mpr ⟨ct, ?_, ?_⟩
  · rw [← henv, ← hnonce, ← hbody]
    rw [← hnonce] at htag
    rw [← htag]
    exact hct
  · rw [← hnonce] at htag ⊢
    rw [← htag]

theorem openFlight_was_sealed (hS : S.Lawful) (hideal : S.Ideal (callsOf S envelopes flights))
    {opened : OpenedFirstFlight} (h : openFlight S ffKey secret box = .ok opened) :
    ∃ f ∈ flights, f.output S = .ok box := by
  obtain ⟨handshake, body, hhandshake, -, hopen, -⟩ := openFlight_eq_ok.mp h
  obtain ⟨hcall, hc⟩ := hideal.made _ _ _ _ _ hopen
  have hlen : (box.take adLen).length = adLen := by
    unfold handshakeOfBox at hhandshake
    split at hhandshake
    · cases hhandshake
    · rename_i hlong
      rw [List.length_take]
      omega
  have hbox : box = box.take adLen ++ (box.drop adLen).take nonceLen ++
      box.drop (adLen + nonceLen) := by
    rw [List.append_assoc, ← List.drop_drop, List.take_append_drop, List.take_append_drop]
  obtain ⟨f, hf, hfcall⟩ := mem_callsOf_flight hS hcall hlen
  obtain ⟨handshake', hcert, hsize, hhandshake', heq⟩ := SealedFlight.call?_eq_some.mp hfcall
  obtain ⟨hkey, hnonce, rfl, haad⟩ := AeadCall.mk.inj heq
  rw [hkey, hnonce, haad] at hc
  rw [hnonce, haad] at hbox
  exact ⟨f, hf, SealedFlight.output_eq_ok.mpr
    ⟨handshake', _, hhandshake', hcert, hsize, hc, hbox⟩⟩

theorem openFlight_of_other (hS : S.Lawful) (hideal : S.Ideal (callsOf S envelopes flights))
    (hf : f ∈ flights) (h : f.output S = .ok box) (hnonce : f.nonce.length = nonceLen)
    (hkey : ∀ handshake, handshakeOfWire f.wirePayload = some handshake →
      openKey S ffKey secret box handshake ≠ f.key S handshake) (opened : OpenedFirstFlight) :
    openFlight S ffKey secret box ≠ .ok opened := by
  intro hopen
  obtain ⟨handshake, c, hhandshake, hcert, hsize, hc, hbox⟩ := SealedFlight.output_eq_ok.mp h
  have hparts : BoxOf box handshake (S.x25519Public f.ephSeed) f.nonce c :=
    ⟨hbox, kem_length_of_handshakeOfWire hhandshake, hS.public_length f.ephSeed, hnonce⟩
  have hlong : aeadTagLen ≤ c.length := by
    rw [hS.overhead _ _ _ _ _ hc]
    omega
  obtain ⟨handshake', body, hhandshake', -, hopened, -⟩ := openFlight_eq_ok.mp hopen
  rw [hparts.handshake_eq hlong] at hhandshake'
  obtain rfl := Except.ok.inj hhandshake'
  rw [hparts.nonce_eq, hparts.sealed_eq, hparts.ad] at hopened
  obtain ⟨hcall, hc'⟩ := hideal.made _ _ _ _ _ hopened
  -- both calls made this box, under its nonce and its associated data
  have hown : f.call S handshake ∈ callsOf S envelopes flights :=
    List.mem_append_right _ (List.mem_filterMap.mpr
      ⟨f, hf, SealedFlight.call?_eq_some.mpr ⟨handshake, hcert, hsize, hhandshake, rfl⟩⟩)
  exact hkey handshake hhandshake (hideal.one_key _ hcall _ hown c rfl rfl hc' hc)

end Ideal

/-- **First flights and envelopes open to what was sealed.**

With an AEAD that opens what it sealed: of a payload that `unpack` accepts with a handshake's
ciphertext, `handshake_of_wire` reads what `unpack` does; sealing it fails only if the AEAD does;
and the box opens to the certificate and the payload. Of two books that filed a session's keys on
opposite sides, each opens what the other sealed, as that device's and that session's, also after
either was stored and loaded; no other session of the reader makes the envelope's tag.

With an ideal AEAD: what opens, as a first flight or as an envelope, is byte for byte something
that was sealed; and what was sealed under another session's keys does not open, where HKDF does
not make one box key of two, and no tag is made under two keys. -/
theorem first_flights_and_envelopes_open (S : SealedSuite) (hS : S.Lawful) :
    (S.Opens →
      (∀ (f : SealedFlight) (d : Wire.DecodedWirePayload) (kem secret : Bytes),
        Wire.unpack f.wirePayload = .ok d → d.kemCiphertext = some kem →
        kem.length = kemCiphertextLen → f.certificate.length ≤ 65535 → secret.length = 32 →
        f.recipientIdentity = S.x25519Public secret → f.nonce.length = nonceLen →
        handshakeOfWire f.wirePayload = some ⟨d.kyberOtpkId, kem⟩ ∧
        (∀ e, f.output S = .error e → e = .aeadEncryptionError "first-flight seal failed") ∧
        ∀ box, f.output S = .ok box →
          openFlight S f.ffKey secret box = .ok ⟨f.certificate, f.wirePayload⟩) ∧
      (∀ events events' : List EnvelopeBook.BookEvent, (∀ event ∈ events, event.Sized) →
        (∀ event ∈ events', event.Sized) →
        ∀ e ∈ (EnvelopeBook.run events).entries, ∀ e' ∈ (EnvelopeBook.run events').entries,
        EnvelopeBook.Opposite e e' →
        ∀ (kind : EnvelopeKind) (payload nonce envelope : Bytes),
        nonce.length = envelopeNonceLen →
        (∀ x ∈ (EnvelopeBook.run events').entries, x.sessionId ≠ e'.sessionId →
          x.keys.recv.tagOf S nonce ≠ e'.keys.recv.tagOf S nonce) →
        ∀ a ∈ [EnvelopeBook.run events, .fromCfe (EnvelopeBook.run events).toCfe],
        ∀ b ∈ [EnvelopeBook.run events', .fromCfe (EnvelopeBook.run events').toCfe],
        a.sealEnvelope S e.sessionId kind payload nonce = .ok envelope →
        b.openEnvelope S envelope =
          some ⟨e'.device, e'.sessionId, kind, payload, e'.retiredAt.isSome⟩)) ∧
    (∀ (envelopes : List SealedEnvelope) (flights : List SealedFlight),
      S.Ideal (callsOf S envelopes flights) →
      (∀ ffKey secret box opened, openFlight S ffKey secret box = .ok opened →
        ∃ f ∈ flights, f.output S = .ok box) ∧
      (∀ f ∈ flights, ∀ ffKey secret box, f.output S = .ok box → f.nonce.length = nonceLen →
        (∀ handshake, handshakeOfWire f.wirePayload = some handshake →
          openKey S ffKey secret box handshake = f.key S handshake → ffKey = f.ffKey) →
        ffKey ≠ f.ffKey → ∀ opened, openFlight S ffKey secret box ≠ .ok opened) ∧
      (∀ (b : EnvelopeBook) (bytes : Bytes) (o : OpenedEnvelope),
        b.openEnvelope S bytes = some o →
        ∃ s ∈ envelopes, s.output S = .ok bytes ∧ s.body = o.kind.toByte :: o.body) ∧
      ∀ s ∈ envelopes, ∀ (b : EnvelopeBook) (bytes : Bytes), s.output S = .ok bytes →
        s.nonce.length = envelopeNonceLen →
        (∀ x ∈ b.entries, x.keys.recv.tagOf S s.nonce = s.keys.tagOf S s.nonce →
          x.keys.recv = s.keys) →
        (∀ x ∈ b.entries, x.keys.recv ≠ s.keys) → b.openEnvelope S bytes = none) := by
  refine ⟨fun hopens => ⟨?_, ?_⟩, fun envelopes flights hideal => ⟨?_, ?_, ?_, ?_⟩⟩
  · intro f d kem secret hunpack hkem hlen hcert hsecret hrecipient hnonce
    obtain ⟨header, rest, hcarries⟩ := carries_of_unpack hunpack hkem hlen
    have hhandshake := handshakeOfWire_of_carries hcarries
    refine ⟨hhandshake, ?_, fun box hbox => ?_⟩
    · intro e he
      exact f.output_error hhandshake hcert (by rw [hrecipient, hS.public_length]) he
    · exact openFlight_sealed hS hopens hcarries hnonce hsecret hrecipient hbox
  · intro events events' hevents hevents' e he e' he' hsides kind payload nonce envelope hnonce
      htags a ha b hb hseal
    have hgood := EnvelopeBook.good_run hevents
    have hgood' := EnvelopeBook.good_run hevents'
    rw [EnvelopeBook.fromCfe_toCfe hgood] at ha
    rw [EnvelopeBook.fromCfe_toCfe hgood'] at hb
    obtain rfl : a = EnvelopeBook.run events := by simpa using ha
    obtain rfl : b = EnvelopeBook.run events' := by simpa using hb
    exact EnvelopeBook.openEnvelope_sealed hS hopens hgood hgood' he he' hsides hnonce htags hseal
  · intro ffKey secret box opened hopen
    exact openFlight_was_sealed hS hideal hopen
  · intro f hf ffKey secret box hbox hnonce hkey hne
    exact openFlight_of_other hS hideal hf hbox hnonce fun handshake hhandshake heq =>
      hne (hkey handshake hhandshake heq)
  · intro b bytes o hopen
    exact openEnvelope_was_sealed hS hideal hopen
  · intro s hs b bytes hseal hnonce htags hne
    exact EnvelopeBook.openEnvelope_of_other hS hnonce hseal fun x hx heq =>
      hne x hx (htags x hx heq)

/-! ## An AEAD that seals only what it is told to -/

/-- The primitives with an AEAD for given calls: it seals and opens nothing else. -/
def sealsOnly (S : SealedSuite) (calls : List AeadCall) : SealedSuite :=
  { S with
    chachaEncrypt := fun key nonce body aad =>
      if ⟨key, nonce, body, aad⟩ ∈ calls then some (body ++ List.replicate aeadTagLen 0) else none
    chachaDecrypt := fun key nonce c aad =>
      let body := c.take (c.length - aeadTagLen)
      if ⟨key, nonce, body, aad⟩ ∈ calls ∧ c = body ++ List.replicate aeadTagLen 0 then some body
      else none }

variable {S : SealedSuite} {calls : List AeadCall} {key nonce body aad c : Bytes}

theorem sealsOnly_encrypt :
    (sealsOnly S calls).chachaEncrypt key nonce body aad = some c ↔
      ⟨key, nonce, body, aad⟩ ∈ calls ∧ c = body ++ List.replicate aeadTagLen 0 := by
  show (if _ then some _ else none) = some c ↔ _
  rw [Option.ite_none_right_eq_some, Option.some.injEq]
  exact and_congr_right fun _ => eq_comm

theorem sealsOnly_decrypt :
    (sealsOnly S calls).chachaDecrypt key nonce c aad = some body ↔
      ⟨key, nonce, body, aad⟩ ∈ calls ∧ c = body ++ List.replicate aeadTagLen 0 := by
  show (if _ then some _ else none) = some body ↔ _
  rw [Option.ite_none_right_eq_some, Option.some.injEq]
  constructor
  · rintro ⟨⟨hcall, hc⟩, rfl⟩
    exact ⟨hcall, hc⟩
  · rintro ⟨hcall, rfl⟩
    have hbody : (body ++ List.replicate aeadTagLen 0).take
        ((body ++ List.replicate aeadTagLen 0).length - aeadTagLen) = body := by
      rw [List.length_append, List.length_replicate, Nat.add_sub_cancel, List.take_left]
    rw [hbody]
    exact ⟨⟨hcall, rfl⟩, rfl⟩

theorem sealsOnly_opens (S : SealedSuite) (calls : List AeadCall) : (sealsOnly S calls).Opens := by
  intro key nonce body aad c h
  exact sealsOnly_decrypt.mpr (sealsOnly_encrypt.mp h)

theorem sealsOnly_ideal (hnonces : ∀ x ∈ calls, ∀ y ∈ calls, x.nonce = y.nonce → x.key = y.key) :
    (sealsOnly S calls).Ideal calls where
  made key nonce c aad body h := by
    have hcall := sealsOnly_decrypt.mp h
    exact ⟨hcall.1, sealsOnly_encrypt.mpr hcall⟩
  one_key x hx y hy _ hnonce _ _ _ := hnonces x hx y hy hnonce

/-- Primitives to run: a public key is its secret, a tag is the start of its key. -/
def sampleSealing : SealedSuite :=
  { sizedSuite with
    chachaEncrypt := fun _ _ _ _ => none
    chachaDecrypt := fun _ _ _ _ => none
    hmacSha256 := fun key message => addBytes 32 key message
    x25519Public := fun secret => addBytes 32 secret []
    diffieHellman := fun secret their => addBytes 32 (addBytes 32 secret []) their }

theorem sealsOnly_lawful (calls : List AeadCall) : (sealsOnly sampleSealing calls).Lawful where
  overhead key nonce body aad c h := by
    rw [(sealsOnly_encrypt.mp h).2, List.length_append, List.length_replicate]
  hmac_length _ _ := length_addBytes 32 _ _
  public_length _ := length_addBytes 32 _ _
  agree _ _ := addBytes_comm 32 _ _

def sampleKem : Bytes := List.replicate kemCiphertextLen 5

theorem length_sampleKem : sampleKem.length = kemCiphertextLen := List.length_replicate

def sampleFields : Wire.WireFields :=
  { Wire.sampleFields with kemCiphertext := some sampleKem }

def sampleDecoded : Wire.DecodedWirePayload := { sampleFields with pqxdhV2 := true }

@[irreducible] def sampleWire : Bytes := (Wire.packMessage sampleFields).toOption.getD []

theorem unpack_sampleWire : Wire.unpack sampleWire = .ok sampleDecoded := by
  have hpack : ∃ data, Wire.packMessage sampleFields = .ok data :=
    ⟨_, Wire.packMessage_eq_ok.mpr ⟨by decide, by decide +kernel, by decide, fun k hk => (nomatch hk),
      fun k hk => (nomatch hk), _, rfl, rfl⟩⟩
  obtain ⟨data, hdata⟩ := hpack
  have hproducible : sampleFields.Producible :=
    ⟨⟨.pqRatchet, rfl⟩, .inr rfl, by decide +kernel, fun h => absurd h (by decide), by decide⟩
  have hwire : sampleWire = data := by
    unfold sampleWire
    rw [hdata]
    rfl
  rw [hwire]
  exact (Wire.unpack_eq_ok_iff rfl).mpr ⟨hproducible.canonical, hdata⟩

def sampleSecret : Bytes := List.replicate 32 7

def sampleFlight : SealedFlight where
  ffKey := List.replicate 32 3
  recipientIdentity := sampleSealing.x25519Public sampleSecret
  wirePayload := sampleWire
  certificate := [67]
  ephSeed := List.replicate 32 11
  nonce := List.replicate 12 22

def samplePair : EnvelopePair where
  send := ⟨List.replicate 32 1, List.replicate 32 2⟩
  recv := ⟨List.replicate 32 3, List.replicate 32 4⟩

def sampleBooks : List EnvelopeBook.BookEvent × List EnvelopeBook.BookEvent :=
  ([.register [20] [9] samplePair, .reload], [.register [1] [9] ⟨samplePair.recv, samplePair.send⟩])

def sampleEnvelope : SealedEnvelope where
  keys := samplePair.send
  body := EnvelopeKind.ratchet.toByte :: [65]
  nonce := List.replicate 12 8

def sampleIdeal : SealedSuite :=
  sealsOnly sampleSealing (callsOf sampleSealing [sampleEnvelope] [sampleFlight])

def sampleHandshake : HandshakeRef := ⟨sampleDecoded.kyberOtpkId, sampleKem⟩

theorem sampleFlight_call : sampleFlight.call? sampleSealing =
    some (sampleFlight.call sampleSealing sampleHandshake) := by
  obtain ⟨header, rest, hcarries⟩ : ∃ header rest, Carries sampleWire sampleHandshake header rest :=
    carries_of_unpack unpack_sampleWire rfl length_sampleKem
  exact SealedFlight.call?_eq_some.mpr ⟨sampleHandshake, by decide, by decide,
    handshakeOfWire_of_carries hcarries, rfl⟩

theorem sampleCalls : callsOf sampleSealing [sampleEnvelope] [sampleFlight] =
    [sampleEnvelope.keys.call sampleSealing sampleEnvelope.body sampleEnvelope.nonce,
      sampleFlight.call sampleSealing sampleHandshake] := by
  unfold callsOf
  rw [List.filterMap_cons, sampleFlight_call]
  rfl

theorem sampleIdeal_ideal :
    sampleIdeal.Ideal (callsOf sampleIdeal [sampleEnvelope] [sampleFlight]) := by
  show sampleIdeal.Ideal (callsOf sampleSealing [sampleEnvelope] [sampleFlight])
  refine sealsOnly_ideal ?_
  rw [sampleCalls]
  have hne : sampleEnvelope.nonce ≠ sampleFlight.nonce := by decide
  intro x hx y hy hnonce
  simp only [List.mem_cons, List.not_mem_nil, or_false] at hx hy
  rcases hx with rfl | rfl
  · rcases hy with rfl | rfl
    · rfl
    · exact absurd hnonce hne
  · rcases hy with rfl | rfl
    · exact absurd hnonce.symm hne
    · rfl

theorem first_flights_and_envelopes_open_sample :
    (∃ box, sampleFlight.output sampleIdeal = .ok box ∧
      openFlight sampleIdeal sampleFlight.ffKey sampleSecret box = .ok ⟨[67], sampleWire⟩ ∧
      ∀ opened, openFlight sampleIdeal sampleFlight.ffKey sampleSecret (0 :: box) ≠ .ok opened) ∧
    ∃ envelope, (EnvelopeBook.run sampleBooks.1).sealEnvelope sampleIdeal [9] .ratchet [65]
        (List.replicate 12 8) = .ok envelope ∧
      (EnvelopeBook.run sampleBooks.2).openEnvelope sampleIdeal envelope =
        some ⟨[1], [9], .ratchet, [65], false⟩ := by
  obtain ⟨hopens, hrefused⟩ := first_flights_and_envelopes_open sampleIdeal (sealsOnly_lawful _)
  obtain ⟨hflights, hbooks⟩ := hopens (sealsOnly_opens _ _)
  obtain ⟨hsealed, -⟩ := hrefused [sampleEnvelope] [sampleFlight] sampleIdeal_ideal
  constructor
  · obtain ⟨hhandshake, -, hopen⟩ := hflights sampleFlight sampleDecoded sampleKem
      sampleSecret unpack_sampleWire rfl length_sampleKem (by decide) (by decide) rfl
      (by decide)
    have hbox : ∃ box, sampleFlight.output sampleIdeal = .ok box := by
      refine ⟨_, SealedFlight.output_eq_ok.mpr ⟨_, _, hhandshake, by decide, by decide,
        sealsOnly_encrypt.mpr ⟨?_, rfl⟩, rfl⟩⟩
      rw [sampleCalls]
      exact List.mem_cons_of_mem _ (List.mem_cons_self ..)
    obtain ⟨box, hbox⟩ := hbox
    refine ⟨box, hbox, hopen box hbox, fun opened h => ?_⟩
    obtain ⟨f, hf, hother⟩ := hsealed _ _ _ _ h
    rw [List.mem_singleton.mp hf, hbox] at hother
    have := congrArg List.length (Except.ok.inj hother)
    rw [List.length_cons] at this
    omega
  · have henvelope : ∃ envelope, (EnvelopeBook.run sampleBooks.1).sealEnvelope sampleIdeal [9]
        .ratchet [65] (List.replicate 12 8) = .ok envelope := by
      have hentry : EnvelopeBook.entry? (EnvelopeBook.run sampleBooks.1) [9] =
          some ⟨[20], [9], samplePair, none, none⟩ := by decide +kernel
      unfold EnvelopeBook.sealEnvelope
      rw [hentry]
      refine ⟨_, DirectionKeys.sealWithNonce_eq_ok.mpr ⟨_, sealsOnly_encrypt.mpr ⟨?_, rfl⟩, rfl⟩⟩
      rw [sampleCalls]
      exact List.mem_cons_self ..
    obtain ⟨envelope, henvelope⟩ := henvelope
    refine ⟨envelope, henvelope, ?_⟩
    exact hbooks sampleBooks.1 sampleBooks.2 (by
        intro event hevent
        simp only [sampleBooks, List.mem_cons, List.not_mem_nil, or_false] at hevent
        rcases hevent with rfl | rfl
        · exact ⟨⟨rfl, rfl⟩, ⟨rfl, rfl⟩⟩
        · trivial)
      (by
        intro event hevent
        rw [List.mem_singleton.mp hevent]
        exact ⟨⟨rfl, rfl⟩, ⟨rfl, rfl⟩⟩)
      ⟨[20], [9], samplePair, none, none⟩ (by decide +kernel)
      ⟨[1], [9], ⟨samplePair.recv, samplePair.send⟩, none, none⟩ (by decide +kernel)
      ⟨rfl, rfl, rfl⟩ .ratchet [65] (List.replicate 12 8) envelope (by decide) (by
        intro x hx hne
        have hentries : (EnvelopeBook.run sampleBooks.2).entries =
          [⟨[1], [9], ⟨samplePair.recv, samplePair.send⟩, none, none⟩] := rfl
        rw [hentries, List.mem_singleton] at hx
        exact absurd (by rw [hx]) hne)
      _ (List.mem_cons_self ..) _ (List.mem_cons_self ..) henvelope

end FirstFlight

end ConstructCore
