import ConstructCore.Lib.Chunks
import ConstructCore.Orchestration.Instances
import ConstructCore.Ratchet.Delivery
import ConstructCore.Trust.KeyTransparency

/-!
# The handshake: two sides, one root key

* **agreement** — on a bundle of its public keys the responder computes the initiator's root
  key (`performAsResponder_agrees`), so the two sessions are those of one conversation
  (`handshake_starts_talk`);
* **binding** — one root key has one list of DH outputs and one ML-KEM part (`rootKey_binds`).
-/

namespace ConstructCore

open Bytes

namespace X3dh

variable {S : Suite} {env : Env} {bundle : X3DHPublicKeyBundle} {pq pq' : Option PqxdhInput}
  {localIdentity identity signedPrekey remoteIdentity ephemeral remoteEphemeral rootKey : Bytes}
  {oneTimePrekey : Option Bytes}

/-! ## Agreement -/

/-- A bundle with the public halves of the responder's keys. -/
structure Offers (S : Suite) (identity signedPrekey : Bytes) (oneTimePrekey : Option Bytes)
    (bundle : X3DHPublicKeyBundle) : Prop where
  identity : S.fromPrivateKeyToPublicKey identity = .ok bundle.identityPublic
  signedPrekey : S.fromPrivateKeyToPublicKey signedPrekey = .ok bundle.signedPrekeyPublic
  oneTimePrekey : Option.Rel (fun priv pub => S.fromPrivateKeyToPublicKey priv = .ok pub)
    oneTimePrekey bundle.oneTimePrekeyPublic

section Agreement

variable (hS : S.Reliable)

include hS

theorem dh_agrees {step : DhStep} {a pubA b pubB out : Bytes}
    (ha : S.fromPrivateKeyToPublicKey a = .ok pubA) (hb : S.fromPrivateKeyToPublicKey b = .ok pubB)
    (h : dh S step a pubB = .ok out) : dh S step b pubA = .ok out := by
  obtain ⟨z, hz, hz'⟩ := hS.dh (.inr ha) (.inr hb)
  unfold dh at h ⊢
  rw [hz] at h
  rw [hz', ← h]

theorem dh4_agrees {oneTimePublic : Option Bytes} {out : Bytes}
    (hephemeral : S.fromPrivateKeyToPublicKey ephemeral = .ok remoteEphemeral)
    (hotpk : Option.Rel (fun priv pub => S.fromPrivateKeyToPublicKey priv = .ok pub) oneTimePrekey
      oneTimePublic)
    (h : initiatorDh4 S ephemeral oneTimePublic = .ok out) :
    responderDh4 S remoteEphemeral oneTimePrekey = .ok out := by
  cases hotpk with
  | none => exact h
  | some hkey =>
    rw [initiatorDh4] at h
    split at h
    · cases h
    · exact dh_agrees hS hephemeral hkey h

theorem performAsResponder_agrees (hoffers : Offers S identity signedPrekey oneTimePrekey bundle)
    (hlocal : S.fromPrivateKeyToPublicKey localIdentity = .ok remoteIdentity)
    (hephemeral : S.fromPrivateKeyToPublicKey ephemeral = .ok remoteEphemeral)
    (h : performAsInitiator S env localIdentity bundle pq = .ok (rootKey, ephemeral)) :
    performAsResponder S identity signedPrekey remoteIdentity remoteEphemeral oneTimePrekey pq =
      .ok rootKey := by
  unfold performAsInitiator at h
  obtain ⟨⟨_, _⟩, -, h⟩ := Except.exists_of_bind_ok h
  obtain ⟨_, -, h⟩ := Except.exists_of_bind_ok h
  obtain ⟨_, -, h⟩ := Except.exists_of_bind_ok h
  obtain ⟨dh1, hdh1, h⟩ := Except.exists_of_bind_ok h
  obtain ⟨dh2, hdh2, h⟩ := Except.exists_of_bind_ok h
  obtain ⟨dh3, hdh3, h⟩ := Except.exists_of_bind_ok h
  obtain ⟨dh4, hdh4, h⟩ := Except.exists_of_bind_ok h
  obtain ⟨_, hroot, h⟩ := Except.exists_of_bind_ok h
  cases h
  unfold performAsResponder
  rw [Except.bind_of_ok (dh_agrees hS hlocal hoffers.signedPrekey hdh1),
    Except.bind_of_ok (dh_agrees hS hephemeral hoffers.identity hdh2),
    Except.bind_of_ok (dh_agrees hS hephemeral hoffers.signedPrekey hdh3),
    Except.bind_of_ok (dh4_agrees hS hephemeral hoffers.oneTimePrekey hdh4)]
  exact hroot

end Agreement

/-- **A handshake sets up a conversation.** On a bundle with the responder's keys, the session
the initiator makes is the start of a conversation on one root key, and on every message under
its ratchet key the responder makes the session of that conversation, with the initiator's
envelope pair mirrored. -/
theorem handshake_starts_talk (S : Suite) (hS : S.Reliable) (env : Env)
    (localIdentity remoteIdentity identity signedPrekey : Bytes) (oneTimePrekey : Option Bytes)
    (bundle : X3DHPublicKeyBundle) (pq : Option PqxdhInput) (initiatorId responderId : Bytes)
    (made : MadeSession) (hlocal : S.fromPrivateKeyToPublicKey localIdentity = .ok remoteIdentity)
    (hoffers : Offers S identity signedPrekey oneTimePrekey bundle)
    (hmade : initAsInitiator S env localIdentity bundle bundle.identityPublic responderId
      initiatorId pq = .ok made) :
    ∃ setup : Setup, setup.identityPrivate = identity ∧
      setup.identityPublic = bundle.identityPublic ∧
      Talk.start S.toCrypto setup env = .ok ⟨made.session, none, none, [], []⟩ ∧
      ∀ env' (first : EncryptedRatchetMessage),
        first.dhPublicKey.toList = made.session.dr.dhRatchetPublic →
        initAsResponder S env' identity signedPrekey remoteIdentity first.dhPublicKey.toList first
            initiatorId responderId oneTimePrekey pq =
          ((newResponderSession S.toCrypto env' setup.rootKey identity first setup.initiatorId
            setup.responderId).mapError .ratchet).map fun out =>
              (⟨out.1, ⟨made.envelopeKeys.recv, made.envelopeKeys.send⟩⟩, out.2) := by
  unfold initAsInitiator at hmade
  obtain ⟨⟨rootKey, ephemeral⟩, hroot, hmade⟩ := Except.exists_of_bind_ok hmade
  obtain ⟨session, hsession, hmade⟩ := Except.exists_of_bind_ok hmade
  cases hmade
  have hnew := Except.mapError_eq_ok.mp hsession
  refine ⟨⟨.pqRatchet, rootKey, ephemeral, identity, bundle.identityPublic, initiatorId,
    responderId, none⟩, rfl, rfl, ?_, fun env' first hfirst => ?_⟩
  · unfold Talk.start
    rw [Except.bind_of_ok hnew]
    rfl
  · -- the initiator's first ratchet key is its ephemeral key
    obtain ⟨_, _, dhPublic, _, _, _, -, -, hpublic, -, -, rfl⟩ := newInitiatorSession_ok hnew
    have hephemeral : S.fromPrivateKeyToPublicKey ephemeral = .ok first.dhPublicKey.toList := by
      rw [hfirst]
      exact hpublic
    unfold initAsResponder
    rw [Except.bind_of_ok (performAsResponder_agrees hS hoffers hlocal hephemeral hroot)]
    cases newResponderSession S.toCrypto env' rootKey identity first initiatorId responderId with
    | ok out => rfl
    | error e => rfl

theorem handshake_starts_talk_sample : ∃ (made : MadeSession) (setup : Setup),
    setup.identityPrivate = List.replicate 32 2 ∧
      Talk.start symbolicSuite.toCrypto setup sampleMoment.env =
        .ok ⟨made.session, none, none, [], []⟩ := by
  have hoffers : Offers symbolicSuite (List.replicate 32 2) (List.replicate 32 3)
      (some (List.replicate 32 4))
      { sampleBundle 2 with oneTimePrekeyPublic := some (List.replicate 32 4) } :=
    ⟨rfl, rfl, .some rfl⟩
  obtain ⟨setup, hidentity, -, hstart, -⟩ := handshake_starts_talk symbolicSuite
    symbolicCrypto_reliable sampleMoment.env (List.replicate 32 1) _ _ _ _ _ none [1] [2] _ rfl
    hoffers rfl
  exact ⟨_, setup, hidentity, hstart⟩

/-! ## Binding -/

/-- What the info binds of the ML-KEM part. -/
def hashed (pq : PqxdhInput) : List Bytes :=
  [pq.kyberPublic, pq.kemCiphertext, pq.initiatorKemIdentity]

theorem rootInfo_inj (hcf : Trust.CollisionFree S.toSigning
      ((pq.toList ++ pq'.toList).flatMap hashed))
    (h : rootInfo S pq = rootInfo S pq') :
    Option.Rel (fun p p' => hashed p = hashed p') pq pq' := by
  -- the infos with and without an ML-KEM part differ in length
  have hclassic : ∀ p, rootInfo S (some p) ≠ rootInfo S none := by
    intro p heq
    have hlen := congrArg List.length heq
    simp only [rootInfo, List.length_append, Vector.length_toList] at hlen
    exact absurd hlen (by decide)
  cases pq with
  | none =>
    cases pq' with
    | none => exact .none
    | some p' => exact absurd h.symm (hclassic p')
  | some p =>
    cases pq' with
    | none => exact absurd h (hclassic p)
    | some p' =>
      obtain ⟨h, hidentity⟩ := List.append_inj' h (by simp)
      obtain ⟨h, hciphertext⟩ := List.append_inj' h (by simp)
      obtain ⟨-, hkey⟩ := List.append_inj' h (by simp)
      simp only [Option.toList_some, List.singleton_append, List.flatMap_cons, List.flatMap_nil,
        List.append_nil, hashed] at hcf
      refine .some ?_
      rw [hashed, hashed, hcf _ (by simp) _ (by simp) (Vector.toList_inj.mp hkey),
        hcf _ (by simp) _ (by simp) (Vector.toList_inj.mp hciphertext),
        hcf _ (by simp) _ (by simp) (Vector.toList_inj.mp hidentity)]

/-- **One root key, one handshake.** Whatever the number of DH outputs hashed, with or without
an ML-KEM part, the outputs, their order and that part are the same where the root key is. -/
theorem rootKey_binds (S : Suite) (hfree : S.FreeKdf) (outs outs' : List Bytes)
    (pq pq' : Option PqxdhInput) (rootKey : Bytes) (hdh : ∀ out ∈ outs ++ outs', out.length = 32)
    (hsecret : ∀ p ∈ pq.toList ++ pq'.toList, p.sharedSecret.length = 32)
    (hcf : Trust.CollisionFree S.toSigning ((pq.toList ++ pq'.toList).flatMap hashed))
    (h : deriveRootKey S outs.flatten pq = .ok rootKey)
    (h' : deriveRootKey S outs'.flatten pq' = .ok rootKey) : outs = outs' ∧ pq = pq' := by
  obtain ⟨-, hikm, hinfo⟩ :=
    hfree.hkdf (Except.mapError_eq_ok.mp h) (Except.mapError_eq_ok.mp h')
  have hhashed := rootInfo_inj hcf hinfo
  have hcut : ∀ l : List Bytes, (∀ x ∈ l, x.length = 32) → l.flatten.chunksOf 32 = l :=
    fun l hl => by simpa using List.chunksOf_flatten_append (by decide) hl []
  have houts : outs.flatten = outs'.flatten → outs = outs' := by
    intro hflat
    rw [← hcut outs fun x hx => hdh x (List.mem_append_left _ hx), hflat,
      hcut outs' fun x hx => hdh x (List.mem_append_right _ hx)]
  cases hhashed with
  | none => exact ⟨houts (by simpa using hikm), rfl⟩
  | @some p p' hsame =>
    obtain ⟨hflat, hshared⟩ := List.append_inj' hikm
      ((hsecret p (by simp)).trans (hsecret p' (by simp)).symm)
    simp only [hashed, List.cons.injEq] at hsame
    cases p
    cases p'
    simp_all

/-- Two sides with four outputs and an ML-KEM part each. -/
theorem rootKey_binds_sample : ∃ rootKey,
    deriveRootKey symbolicSuite (List.replicate 4 (List.replicate 32 1)).flatten
        (some ⟨List.replicate 32 5, [6], [7], [8]⟩) = .ok rootKey ∧
      List.replicate 4 (List.replicate 32 (1 : UInt8)) = List.replicate 4 (List.replicate 32 1) := by
  refine ⟨_, rfl, (rootKey_binds symbolicSuite symbolicCrypto_freeKdf _ _ _
    (some ⟨List.replicate 32 5, [6], [7], [8]⟩) _ ?_ ?_ ?_ rfl rfl).1⟩
  · decide
  · decide
  · decide

end X3dh

end ConstructCore
