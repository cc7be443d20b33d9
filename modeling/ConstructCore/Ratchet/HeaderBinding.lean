import ConstructCore.Ratchet.Run

/-!
# Header binding

Under version 4 the associated data determines the message header, apart from the PQ
position, which the data leaves out for a suite without the PQ ratchet
(`associatedData_pqPosition_unbound`). A session that has heard its peer at version 4
refuses version 3 from then on: `peer_ad_version` only grows, through failed decrypts and
through save and load (`step_adKept`). So a suite-4 session that has accepted a version-4
message accepts a message only with the header its peer sealed (`header_binding`).
-/

namespace ConstructCore

open Bytes Op

/-! ## The position a classical suite leaves out -/

/-- A header tagged with PQ epoch `epoch`. -/
def epochHeader (epoch : UInt32) : AdHeader where
  dhPublicKey := Vector.replicate 32 7
  messageNumber := 0
  pqMessageEpoch := epoch
  pqKeyIndex := 0
  previousChainLength := 0
  suiteId := 4
  pqRatchetField := none
  identityProofCiphertext := none

theorem epochHeader_bounded (epoch : UInt32) : (epochHeader epoch).Bounded where
  publicKey _ _ h := nomatch h
  ciphertext _ _ _ h := nomatch h
  proofLength _ h := nomatch h
  proofNonempty h := nomatch h

/-- In a session without the PQ ratchet, two headers that differ in their PQ epoch have the
same version-4 associated data. -/
theorem associatedData_pqPosition_unbound :
    (epochHeader 1).Bounded ∧ (epochHeader 2).Bounded ∧
      associatedData adVersionHeader [1] [2] [3] false (epochHeader 1) =
        associatedData adVersionHeader [1] [2] [3] false (epochHeader 2) ∧
      epochHeader 1 ≠ epochHeader 2 :=
  ⟨epochHeader_bounded 1, epochHeader_bounded 2, by decide +kernel, by decide +kernel⟩

/-! ## What a run keeps -/

namespace Session

variable {C : Crypto} {s t u : Session}

/-- What the associated data is built from stays, and the version heard only grows. -/
structure AdKept (s t : Session) : Prop where
  suiteId : t.suiteId = s.suiteId
  contactId : t.contactId = s.contactId
  localUserId : t.localUserId = s.localUserId
  sessionId : hexDecode t.sessionId = hexDecode s.sessionId
  peerAdVersion : s.peerAdVersion ≤ t.peerAdVersion

theorem AdKept.refl (s : Session) : AdKept s s := ⟨rfl, rfl, rfl, rfl, UInt8.le_refl _⟩

theorem AdKept.trans (h : AdKept s t) (h' : AdKept t u) : AdKept s u :=
  ⟨h'.suiteId.trans h.suiteId, h'.contactId.trans h.contactId,
    h'.localUserId.trans h.localUserId, h'.sessionId.trans h.sessionId,
    UInt8.le_trans h.peerAdVersion h'.peerAdVersion⟩

theorem SameIdentity.adKept (h : SameIdentity s t) (hadv : s.peerAdVersion ≤ t.peerAdVersion) :
    AdKept s t :=
  ⟨h.suiteId, h.contactId, h.localUserId, congrArg hexDecode h.sessionId, hadv⟩

theorem cleanupIfDue_adKept (s : Session) (now : Nat) : AdKept s (s.cleanupIfDue now) :=
  (cleanupIfDue_same s now).adKept (cleanupIfDue_peerAdVersion s now ▸ UInt8.le_refl _)

/-- An event keeps the identity of the session and never lowers the version heard. -/
theorem step_adKept (C : Crypto) (s : Session) (event : Event) :
    AdKept s (s.step C event).1 ∧
      ∀ m plaintext, Seen.accepted m plaintext ∈ (s.step C event).2 →
        m.adVersion ≤ (s.step C event).1.peerAdVersion := by
  have hcase := step_case C s event
  have hdraws : ∀ env m plaintext, Seen.accepted m plaintext ∉ drawn C env := by
    intro env m plaintext h
    unfold drawn at h
    split at h
    · simp at h
    · cases h
  generalize s.step C event = r at hcase ⊢
  cases hcase with
  | sent _ hstep _ =>
    refine ⟨?_, by simp⟩
    rw [hstep.rest]
    exact ⟨rfl, rfl, rfl, rfl, UInt8.le_refl _⟩
  | unsent hleft =>
    refine ⟨?_, by simp⟩
    rw [hleft.rest]
    exact ⟨rfl, rfl, rfl, rfl, UInt8.le_refl _⟩
  | @accepted env m _ _ plaintext stepped t pq hkey hopen =>
    have hframe := acceptFrame hkey hopen
    have hdue := cleanupIfDue_adKept s env.now
    refine ⟨hdue.trans (hframe.same.adKept ?_), ?_⟩
    · rw [hframe.peerAdVersion]
      exact UInt8.left_le_max _ _
    · intro m' plaintext' hmem
      rcases List.mem_append.mp hmem with hdrawn | hnew
      · exact absurd hdrawn (hdraws _ _ _)
      · obtain ⟨rfl, rfl⟩ := Seen.accepted.inj (List.mem_singleton.mp hnew)
        show m'.adVersion ≤ Session.peerAdVersion _
        rw [hframe.peerAdVersion]
        exact UInt8.right_le_max _ _
  | @refused env _ _ t hroll =>
    refine ⟨(cleanupIfDue_adKept s env.now).trans ?_, fun _ _ h => absurd h (hdraws _ _ _)⟩
    show AdKept _ t
    rw [hroll]
    exact ⟨rfl, rfl, rfl, rfl, UInt8.le_refl _⟩
  | answered _ _ _ | marked | headed | expecting =>
    exact ⟨⟨rfl, rfl, rfl, rfl, UInt8.le_refl _⟩, by simp⟩
  | unanswered | notLoaded => exact ⟨.refl s, by simp⟩
  | loaded _ hload =>
    obtain ⟨pq, sid, hsid, -, rfl⟩ := hload
    exact ⟨⟨rfl, rfl, rfl, hsid.hexDecode_eq, UInt8.left_le_max _ _⟩, by simp⟩

/-- The session is the one that started the run, and has heard every version it accepted. -/
structure Heard (s₀ s : Session) (log : List Seen) : Prop where
  kept : AdKept s₀ s
  accepted : ∀ m plaintext, Seen.accepted m plaintext ∈ log → m.adVersion ≤ s.peerAdVersion

theorem heard_run (C : Crypto) (s₀ : Session) (events : List Event) :
    Heard s₀ (Machine.run (step C) s₀ events) (Machine.log (step C) s₀ events) := by
  have hstep : ∀ s l event, True → Heard s₀ s l →
      Heard s₀ (s.step C event).1 (l ++ (s.step C event).2) := by
    intro s l event _ h
    obtain ⟨hkept, haccept⟩ := step_adKept C s event
    refine ⟨h.kept.trans hkept, ?_⟩
    intro m plaintext hmem
    rcases List.mem_append.mp hmem with hold | hnew
    · exact UInt8.le_trans (h.accepted m plaintext hold) hkept.peerAdVersion
    · exact haccept m plaintext hnew
  exact Machine.log_rule hstep (Machine.along_of_forall (fun _ _ => trivial) s₀ events)
    ⟨.refl s₀, fun _ _ h => nomatch h⟩

/-! ## The theorem -/

/-- The AEAD of an ideal world: what opens is a box the peer sealed, under the associated
data of the peer's own header. -/
def OpensOnlyPeer (C : Crypto) (peer : EncryptedRatchetMessage → Prop)
    (sender receiver sid : Bytes) (pqRatchetSuite : Bool) : Prop :=
  ∀ key nonce ciphertext ad padded, C.aeadDecrypt key nonce ciphertext (some ad) = .ok padded →
    ∃ m, peer m ∧ (AdHeader.ofMessage m).Bounded ∧ m.nonce = nonce ∧
      m.ciphertext = ciphertext ∧
      ad = associatedData m.adVersion sender receiver sid pqRatchetSuite (AdHeader.ofMessage m)

theorem AdHeader.eq_of_fields {h₁ h₂ : AdHeader}
    (h : h₁.dhPublicKey = h₂.dhPublicKey ∧ h₁.messageNumber = h₂.messageNumber ∧
      (true = true → h₁.pqMessageEpoch = h₂.pqMessageEpoch ∧ h₁.pqKeyIndex = h₂.pqKeyIndex) ∧
      h₁.previousChainLength = h₂.previousChainLength ∧ h₁.suiteId = h₂.suiteId ∧
      h₁.pqRatchetField = h₂.pqRatchetField ∧
      h₁.identityProofCiphertext = h₂.identityProofCiphertext) : h₁ = h₂ := by
  obtain ⟨hdh, hnum, hpos, hprev, hsuite, hfield, hproof⟩ := h
  obtain ⟨hepoch, hindex⟩ := hpos rfl
  exact AdHeader.ext hdh hnum hepoch hindex hprev hsuite hfield hproof

/-- A suite-4 session that has heard version 4 opens only what the peer sealed, header and
all. -/
theorem decrypt_header_of_heard {peer : EncryptedRatchetMessage → Prop} {sid : Bytes}
    (hsuite : s.suiteId = .pqRatchet) (hsid : hexDecode s.sessionId = some sid)
    (hideal : OpensOnlyPeer C peer s.contactId s.localUserId sid true)
    (hheard : adVersionHeader ≤ s.peerAdVersion) {env : Env} {m : EncryptedRatchetMessage}
    {secret : Option Bytes} {plaintext : Bytes} (hm : (AdHeader.ofMessage m).Bounded)
    (h : decryptWithIdentitySecret C env m secret s = .ok plaintext t) :
    ∃ m', peer m' ∧ m'.adVersion = m.adVersion ∧ AdHeader.ofMessage m' = AdHeader.ofMessage m ∧
      m'.nonce = m.nonce ∧ m'.ciphertext = m.ciphertext := by
  obtain ⟨key, stepped, t', pq, hkey, ⟨pqKey, messageKey, -, -, hopen⟩, -⟩ :=
    decryptWithIdentitySecret_ok h
  have hdue := cleanupIfDue_adKept s env.now
  obtain ⟨dr, proof, lastAt, rfl⟩ := hkey.frame
  obtain ⟨hversion, sid', padded, hsid', haead, -⟩ := tryAeadDecrypt_ok hopen
  have hsid' : hexDecode (s.cleanupIfDue env.now).sessionId = some sid' := hsid'
  rw [hdue.sessionId, hsid] at hsid'
  obtain rfl := Option.some.inj hsid'
  -- version 3 is refused, so the data covers the whole header
  have hfour : m.adVersion = adVersionHeader := by
    rcases checkAdVersion_ok hversion with hfour | ⟨-, hlow⟩
    · exact hfour
    · have hlow : (s.cleanupIfDue env.now).peerAdVersion < adVersionHeader := hlow
      rw [cleanupIfDue_peerAdVersion] at hlow
      exact absurd hheard (UInt8.not_le.mpr hlow)
  obtain ⟨m', hpeer, hbounded, hnonce, hct, had⟩ := hideal _ _ _ _ _ haead
  have had : associatedData m.adVersion (s.cleanupIfDue env.now).contactId
      (s.cleanupIfDue env.now).localUserId sid (s.cleanupIfDue env.now).suiteId.isPqRatchet
      (AdHeader.ofMessage m) = _ := had
  rw [hdue.contactId, hdue.localUserId, hdue.suiteId, hsuite] at had
  have hv := associatedData_version had
  rw [hfour] at had hv
  rw [← hv] at had
  have hheader := AdHeader.eq_of_fields (associatedData_header hm hbounded had)
  exact ⟨m', hpeer, hv.symm.trans hfour.symm, hheader.symm, hnonce, hct⟩

/-- **Header binding.** Version-4 data determines the header (the PQ position where the
suite has one), no version-3 data is version-4 data, and a suite-4 session that has
accepted a version-4 message accepts only what the peer sealed, header and all, in every
later state. -/
theorem header_binding (C : Crypto) (peer : EncryptedRatchetMessage → Prop) (s₀ : Session)
    (sid : Bytes) (hsuite : s₀.suiteId = .pqRatchet) (hsid : hexDecode s₀.sessionId = some sid)
    (hideal : OpensOnlyPeer C peer s₀.contactId s₀.localUserId sid true) :
    (∀ (sender receiver sid : Bytes) (flag : Bool) (h₁ h₂ : AdHeader), h₁.Bounded → h₂.Bounded →
      associatedData adVersionHeader sender receiver sid flag h₁ =
        associatedData adVersionHeader sender receiver sid flag h₂ →
      h₁.dhPublicKey = h₂.dhPublicKey ∧ h₁.messageNumber = h₂.messageNumber ∧
        (flag = true → h₁.pqMessageEpoch = h₂.pqMessageEpoch ∧ h₁.pqKeyIndex = h₂.pqKeyIndex) ∧
        h₁.previousChainLength = h₂.previousChainLength ∧ h₁.suiteId = h₂.suiteId ∧
        h₁.pqRatchetField = h₂.pqRatchetField ∧
        h₁.identityProofCiphertext = h₂.identityProofCiphertext) ∧
    (∀ (sender receiver sid : Bytes) (flag : Bool) (h₁ h₂ : AdHeader),
      associatedData adVersionLegacy sender receiver sid flag h₁ ≠
        associatedData adVersionHeader sender receiver sid flag h₂) ∧
    ∀ (events : List Event) (m₁ : EncryptedRatchetMessage) (plaintext₁ : Bytes),
      Seen.accepted m₁ plaintext₁ ∈ Machine.log (step C) s₀ events →
      m₁.adVersion = adVersionHeader →
      ∀ (env : Env) (m : EncryptedRatchetMessage) (secret : Option Bytes) (plaintext : Bytes)
        (t : Session), (AdHeader.ofMessage m).Bounded →
        decryptWithIdentitySecret C env m secret (Machine.run (step C) s₀ events) =
          .ok plaintext t →
        ∃ m', peer m' ∧ m'.adVersion = m.adVersion ∧
          AdHeader.ofMessage m' = AdHeader.ofMessage m ∧ m'.nonce = m.nonce ∧
          m'.ciphertext = m.ciphertext := by
  refine ⟨?_, ?_, ?_⟩
  · intro sender receiver sid flag h₁ h₂ b₁ b₂ h
    exact associatedData_header b₁ b₂ h
  · intro sender receiver sid flag h₁ h₂ h
    exact absurd (associatedData_version h) (by decide)
  · intro events m₁ plaintext₁ haccepted hfour env m secret plaintext t hm hdecrypt
    obtain ⟨hkept, hheard⟩ := heard_run C s₀ events
    refine decrypt_header_of_heard (hkept.suiteId.trans hsuite) (hkept.sessionId.trans hsid)
      ?_ (hfour ▸ hheard m₁ plaintext₁ haccepted) hm hdecrypt
    rw [hkept.contactId, hkept.localUserId]
    exact hideal

/-- A suite-4 session about to read the chain of the ratchet key `7…7`. -/
def listener : Session := .initial .pqRatchet
  { rootKey := leBytes 32 11
    sendingChainKey := leBytes 32 12
    sendingChainLength := 0
    receivingChainKey := leBytes 32 13
    receivingChainLength := 0
    dhRatchetPrivate := some (leBytes 32 6)
    dhRatchetPublic := leBytes 32 6
    remoteDhPublic := some (List.replicate 32 7)
    previousSendingLength := 0
    skippedMessageKeys := .empty }
  true (hexEncode (List.replicate 16 7)) (ofText "bob") (ofText "alice") 1000

/-- The message of position `number` on that chain, under version 4. -/
def heardMessage (number : UInt32) : EncryptedRatchetMessage where
  dhPublicKey := Vector.replicate 32 7
  messageNumber := number
  ciphertext := u32ToLe number
  nonce := [number.toUInt8]
  previousChainLength := 0
  suiteId := 4
  pqMessageEpoch := 0
  pqKeyIndex := 0
  pqRatchetField := none
  identityProofCiphertext := none
  adVersion := adVersionHeader

/-- The box the peer sealed for that position, under the key its chain names. -/
def heardBox (number : UInt32) : Box where
  key := 1 :: (List.replicate number.toNat 2 ++ leBytes 32 13)
  nonce := (heardMessage number).nonce
  ad := associatedData adVersionHeader (ofText "bob") (ofText "alice") (List.replicate 16 7) true
    (AdHeader.ofMessage (heardMessage number))
  ciphertext := (heardMessage number).ciphertext
  plaintext := (padMessageDefault [104, 105]).toOption.getD []

/-- The peer sealed the first two messages of the chain and nothing else. -/
def heardCrypto : Crypto := opensOnly symbolicCrypto [heardBox 0, heardBox 1]

theorem heardMessage_bounded (number : UInt32) :
    (AdHeader.ofMessage (heardMessage number)).Bounded where
  publicKey _ _ h := nomatch h
  ciphertext _ _ _ h := nomatch h
  proofLength _ h := nomatch h
  proofNonempty h := nomatch h

theorem heardCrypto_ideal :
    OpensOnlyPeer heardCrypto (fun m => m = heardMessage 0 ∨ m = heardMessage 1)
      listener.contactId listener.localUserId (List.replicate 16 7) true := by
  intro key nonce ciphertext ad padded h
  obtain ⟨b, hb, -, hnonce, hct, had⟩ := exists_box_of_opens h
  have hbox : ∃ n, (n = 0 ∨ n = 1) ∧ b = heardBox n := by
    rcases List.mem_cons.mp hb with rfl | hb
    · exact ⟨0, .inl rfl, rfl⟩
    · exact ⟨1, .inr rfl, List.mem_singleton.mp hb⟩
  obtain ⟨n, hn, rfl⟩ := hbox
  refine ⟨heardMessage n, ?_, heardMessage_bounded n, hnonce, hct, had.symm⟩
  rcases hn with rfl | rfl
  · exact .inl rfl
  · exact .inr rfl

/-- After the first message and a load, the second is read, with the header the peer
sealed. -/
theorem header_binding_second_message : ∃ (plaintext : Bytes) (t : Session),
    decryptWithIdentitySecret heardCrypto ⟨1002, 21, 22, 23, 24⟩ (heardMessage 1) none
        (Machine.run (step heardCrypto) listener
          [.decrypt ⟨1000, 11, 12, 13, 14⟩ (heardMessage 0) none, .reload 1001]) =
      .ok plaintext t ∧
    ∃ m', (m' = heardMessage 0 ∨ m' = heardMessage 1) ∧ m'.adVersion = adVersionHeader ∧
      AdHeader.ofMessage m' = AdHeader.ofMessage (heardMessage 1) ∧
      m'.nonce = (heardMessage 1).nonce ∧ m'.ciphertext = (heardMessage 1).ciphertext := by
  obtain ⟨plaintext, t, h⟩ := exists_ok_of_not_failed
    (r := decryptWithIdentitySecret heardCrypto ⟨1002, 21, 22, 23, 24⟩ (heardMessage 1) none
      (Machine.run (step heardCrypto) listener
        [.decrypt ⟨1000, 11, 12, 13, 14⟩ (heardMessage 0) none, .reload 1001]))
    (by decide +kernel)
  exact ⟨plaintext, t, h, (header_binding heardCrypto _ listener (List.replicate 16 7) rfl
    (by decide +kernel) heardCrypto_ideal).2.2 _ (heardMessage 0) [104, 105] (by decide +kernel)
    rfl _ _ _ _ _ (heardMessage_bounded 1) h⟩

end Session

end ConstructCore
