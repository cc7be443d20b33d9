import ConstructCore.Orchestration.Book
import Mathlib.Data.List.Nodup

/-!
# Session envelopes

`crypto/sealed_sender/envelope.rs` and the sealing half of `book.rs`. An envelope is a nonce, a
tag under the session's tag key, and the body under its envelope key with the tag as associated
data. The reader looks the writer up by the tag: the first entry of the book whose receive key
makes it opens the body, whose first byte is its kind.

* `openEnvelope_sealed`: a book opens what the book of the other side sealed, as that device's and
  that session's.
* `openEnvelope_made`: of an AEAD that opens only what was sealed, a book opens nothing but an
  envelope made under the keys of one of its entries.
* `fromCfe_toCfe`: a book survives the state blob as it is.
-/

namespace ConstructCore

open Bytes

/-- What the sealed-sender boxes call beside the suite. -/
structure SealedSuite extends Suite where
  /-- ChaCha20-Poly1305; it refuses a body that is too long. -/
  chachaEncrypt : (key nonce body aad : Bytes) → Option Bytes
  chachaDecrypt : (key nonce ciphertext aad : Bytes) → Option Bytes
  hmacSha256 : (key message : Bytes) → Bytes
  /-- The public key of an X25519 secret. -/
  x25519Public : Bytes → Bytes
  diffieHellman : (secret their : Bytes) → Bytes

def aeadTagLen : Nat := 16

/-- What is used of the primitives of any input: lengths, and that the two sides of an X25519
exchange agree. -/
structure SealedSuite.Lawful (S : SealedSuite) : Prop where
  overhead : ∀ key nonce body aad c, S.chachaEncrypt key nonce body aad = some c →
    c.length = body.length + aeadTagLen
  hmac_length : ∀ key message, (S.hmacSha256 key message).length = 32
  public_length : ∀ secret, (S.x25519Public secret).length = 32
  agree : ∀ a b, S.diffieHellman a (S.x25519Public b) = S.diffieHellman b (S.x25519Public a)

def SealedSuite.Opens (S : SealedSuite) : Prop :=
  ∀ key nonce body aad c, S.chachaEncrypt key nonce body aad = some c →
    S.chachaDecrypt key nonce c aad = some body

/-- One call of the AEAD. -/
structure AeadCall where
  key : Bytes
  nonce : Bytes
  body : Bytes
  aad : Bytes
deriving DecidableEq

/-- The AEAD is ideal for the calls made: nothing opens that none of them sealed, and what one of
them sealed was not sealed under another key too. -/
structure SealedSuite.Ideal (S : SealedSuite) (calls : List AeadCall) : Prop where
  made : ∀ key nonce c aad body, S.chachaDecrypt key nonce c aad = some body →
    ⟨key, nonce, body, aad⟩ ∈ calls ∧ S.chachaEncrypt key nonce body aad = some c
  one_key : ∀ x ∈ calls, ∀ y ∈ calls, ∀ c, x.nonce = y.nonce → x.aad = y.aad →
    S.chachaEncrypt x.key x.nonce x.body x.aad = some c →
    S.chachaEncrypt y.key y.nonce y.body y.aad = some c → x.key = y.key

def envelopeNonceLen : Nat := 12
def envelopeTagLen : Nat := 16
def envelopeOverhead : Nat := envelopeNonceLen + envelopeTagLen + aeadTagLen

/-! ## One direction -/

namespace DirectionKeys

variable (S : SealedSuite)

def tagOf (k : DirectionKeys) (nonce : Bytes) : Bytes :=
  (S.hmacSha256 k.tag nonce).take envelopeTagLen

def sealWithNonce (k : DirectionKeys) (body nonce : Bytes) : Except CryptoError Bytes := do
  let tag := k.tagOf S nonce
  let ct ← (S.chachaEncrypt k.env nonce body tag).okOr
    (.aeadEncryptionError "envelope seal failed")
  return nonce ++ tag ++ ct

/-- `matches`. -/
def matchesTag (k : DirectionKeys) (envelope : Bytes) : Bool :=
  if envelope.length < envelopeOverhead then false
  else k.tagOf S (envelope.take envelopeNonceLen) ==
    (envelope.drop envelopeNonceLen).take envelopeTagLen

/-- `DirectionKeys::open`. -/
def openBody (k : DirectionKeys) (envelope : Bytes) : Except CryptoError Bytes :=
  if ! k.matchesTag S envelope then
    .error (.aeadDecryptionError "envelope tag does not match")
  else
    let nonce := envelope.take envelopeNonceLen
    let tag := (envelope.drop envelopeNonceLen).take envelopeTagLen
    let ct := envelope.drop (envelopeNonceLen + envelopeTagLen)
    (S.chachaDecrypt k.env nonce ct tag).okOr (.aeadDecryptionError "envelope body does not open")

def call (k : DirectionKeys) (body nonce : Bytes) : AeadCall :=
  ⟨k.env, nonce, body, k.tagOf S nonce⟩

variable {S} {k k' : DirectionKeys} {nonce body envelope : Bytes}

theorem length_tagOf (hS : S.Lawful) (k : DirectionKeys) (nonce : Bytes) :
    (k.tagOf S nonce).length = envelopeTagLen := by
  unfold tagOf
  rw [List.length_take, hS.hmac_length]
  rfl

theorem sealWithNonce_eq_ok :
    k.sealWithNonce S body nonce = .ok envelope ↔
      ∃ ct, S.chachaEncrypt k.env nonce body (k.tagOf S nonce) = some ct ∧
        envelope = nonce ++ k.tagOf S nonce ++ ct := by
  unfold sealWithNonce
  constructor
  · intro h
    obtain ⟨ct, hct, h⟩ := Except.exists_of_bind_ok h
    cases h
    exact ⟨ct, Option.okOr_eq_ok.mp hct, rfl⟩
  · rintro ⟨ct, hct, rfl⟩
    dsimp only
    rw [hct]
    rfl

theorem envelope_parts {tag : Bytes} (ct : Bytes) (hnonce : nonce.length = envelopeNonceLen)
    (htag : tag.length = envelopeTagLen) :
    (nonce ++ tag ++ ct).take envelopeNonceLen = nonce ∧
      ((nonce ++ tag ++ ct).drop envelopeNonceLen).take envelopeTagLen = tag ∧
      (nonce ++ tag ++ ct).drop (envelopeNonceLen + envelopeTagLen) = ct := by
  refine ⟨?_, ?_, ?_⟩
  · rw [List.append_assoc, List.take_left' hnonce]
  · rw [List.append_assoc, List.drop_left' hnonce, List.take_left' htag]
  · apply List.drop_left'
    rw [List.length_append, hnonce, htag]

/-- The tag of a sealed envelope matches the keys that make the same tag of its nonce. -/
theorem matchesTag_sealed (hS : S.Lawful) (hnonce : nonce.length = envelopeNonceLen)
    (h : k.sealWithNonce S body nonce = .ok envelope) :
    k'.matchesTag S envelope = (k'.tagOf S nonce == k.tagOf S nonce) := by
  obtain ⟨ct, hct, rfl⟩ := sealWithNonce_eq_ok.mp h
  obtain ⟨hfirst, hsecond, -⟩ := envelope_parts ct hnonce (length_tagOf hS k nonce)
  have hlong : ¬ (nonce ++ k.tagOf S nonce ++ ct).length < envelopeOverhead := by
    rw [List.length_append, List.length_append, hnonce, length_tagOf hS k nonce,
      hS.overhead _ _ _ _ _ hct]
    unfold envelopeOverhead
    omega
  unfold matchesTag
  rw [if_neg hlong, hfirst, hsecond]

theorem openBody_sealed (hS : S.Lawful) (hopens : S.Opens) (hnonce : nonce.length = envelopeNonceLen)
    (h : k.sealWithNonce S body nonce = .ok envelope) : k.openBody S envelope = .ok body := by
  have hmatches : k.matchesTag S envelope = true := by
    rw [matchesTag_sealed hS hnonce h]
    exact beq_self_eq_true _
  obtain ⟨ct, hct, rfl⟩ := sealWithNonce_eq_ok.mp h
  obtain ⟨hfirst, hsecond, hthird⟩ := envelope_parts ct hnonce (length_tagOf hS k nonce)
  unfold openBody
  rw [hmatches, hfirst, hsecond, hthird]
  dsimp only
  rw [hopens _ _ _ _ _ hct]
  rfl

theorem openBody_ok (h : k.openBody S envelope = .ok body) :
    ∃ nonce ct, nonce.length = envelopeNonceLen ∧
      envelope = nonce ++ k.tagOf S nonce ++ ct ∧
      S.chachaDecrypt k.env nonce ct (k.tagOf S nonce) = some body := by
  unfold openBody at h
  split at h
  · cases h
  · rename_i hmatches
    have hmatches : k.matchesTag S envelope = true := by simpa using hmatches
    unfold matchesTag at hmatches
    split at hmatches
    · cases hmatches
    · rename_i hlong
      have htag := eq_of_beq hmatches
      dsimp only at h
      rw [← htag] at h
      refine ⟨envelope.take envelopeNonceLen, _, ?_, ?_, Option.okOr_eq_ok.mp h⟩
      · unfold envelopeOverhead at hlong
        rw [List.length_take]
        omega
      · rw [htag, List.append_assoc, ← List.drop_drop, List.take_append_drop,
          List.take_append_drop]

/-- Of an ideal AEAD, what opens was sealed: it is the envelope of a call under the key. -/
theorem openBody_made {calls : List AeadCall} (hideal : S.Ideal calls)
    (h : k.openBody S envelope = .ok body) :
    ∃ nonce, nonce.length = envelopeNonceLen ∧ k.call S body nonce ∈ calls ∧
      k.sealWithNonce S body nonce = .ok envelope := by
  obtain ⟨nonce, ct, hnonce, rfl, hopen⟩ := openBody_ok h
  obtain ⟨hmade, hct⟩ := hideal.made _ _ _ _ _ hopen
  exact ⟨nonce, hnonce, hmade, sealWithNonce_eq_ok.mpr ⟨ct, hct, rfl⟩⟩

end DirectionKeys

/-! ## The book -/

/-- `EnvelopeKind`: what an envelope's body is. -/
inductive EnvelopeKind where
  | ratchet
  | decryptionError
deriving DecidableEq, Repr

def EnvelopeKind.toByte : EnvelopeKind → UInt8
  | .ratchet => 0x01
  | .decryptionError => 0x02

def EnvelopeKind.fromByte (b : UInt8) : Option EnvelopeKind :=
  if b = 0x01 then some .ratchet else if b = 0x02 then some .decryptionError else none

theorem EnvelopeKind.fromByte_toByte (kind : EnvelopeKind) :
    EnvelopeKind.fromByte kind.toByte = some kind := by
  cases kind with
  | ratchet => rfl
  | decryptionError => rfl

theorem EnvelopeKind.toByte_of_fromByte {b : UInt8} {kind : EnvelopeKind}
    (h : EnvelopeKind.fromByte b = some kind) : kind.toByte = b := by
  unfold fromByte at h
  split at h
  · rename_i hb
    cases h
    exact hb.symm
  · split at h
    · rename_i hb
      cases h
      exact hb.symm
    · cases h

structure OpenedEnvelope where
  /-- Who wrote it: the device of the pair whose tag matched. -/
  device : Bytes
  sessionId : Bytes
  kind : EnvelopeKind
  body : Bytes
  /-- The pair is retired: its ratchet state is gone here. -/
  retired : Bool
deriving DecidableEq, Repr

/-- `id_prefix`: what an error says of an id. -/
def idPrefix (id : Bytes) : String := String.ofList (((toText? id).getD "").toList.take 8)

namespace EnvelopeBook

variable (S : SealedSuite)

/-- `EnvelopeBook::seal`; `nonce` is what was drawn. -/
def sealEnvelope (b : EnvelopeBook) (sessionId : Bytes) (kind : EnvelopeKind) (payload nonce : Bytes) :
    Except CryptoError Bytes :=
  match b.entry? sessionId with
  | none => .error (.invalidInputError ("no envelope keys for session " ++ idPrefix sessionId))
  | some entry => entry.keys.send.sealWithNonce S (kind.toByte :: payload) nonce

/-- `EnvelopeBook::open`. -/
def openEnvelope (b : EnvelopeBook) (envelope : Bytes) : Option OpenedEnvelope := do
  let entry ← b.entries.find? fun e => e.keys.recv.matchesTag S envelope
  let body ← (entry.keys.recv.openBody S envelope).toOption
  match body with
  | [] => none
  | kind :: rest =>
    let kind ← EnvelopeKind.fromByte kind
    return {
      device := entry.device
      sessionId := entry.sessionId
      kind
      body := rest
      retired := entry.retiredAt.isSome }

variable {b : EnvelopeBook} {payload envelope : Bytes} {kind : EnvelopeKind}

theorem sealEnvelope_eq_ok {S : SealedSuite} {sessionId nonce : Bytes}
    (h : b.sealEnvelope S sessionId kind payload nonce = .ok envelope) :
    ∃ e, b.entry? sessionId = some e ∧
      e.keys.send.sealWithNonce S (kind.toByte :: payload) nonce = .ok envelope := by
  unfold sealEnvelope at h
  cases hentry : b.entry? sessionId with
  | none =>
    rw [hentry] at h
    cases h
  | some e =>
    rw [hentry] at h
    exact ⟨e, rfl, h⟩

theorem openEnvelope_eq_some {S : SealedSuite} {o : OpenedEnvelope}
    (h : b.openEnvelope S envelope = some o) :
    ∃ e ∈ b.entries, e.device = o.device ∧ e.sessionId = o.sessionId ∧
      e.keys.recv.openBody S envelope = .ok (o.kind.toByte :: o.body) := by
  unfold openEnvelope at h
  obtain ⟨e, hfind, h⟩ := Option.bind_eq_some_iff.mp h
  obtain ⟨body, hbody, h⟩ := Option.bind_eq_some_iff.mp h
  cases body with
  | nil => cases h
  | cons byte rest =>
    obtain ⟨kind, hkind, h⟩ := Option.bind_eq_some_iff.mp h
    cases h
    refine ⟨e, List.mem_of_find?_eq_some hfind, rfl, rfl, ?_⟩
    rw [EnvelopeKind.toByte_of_fromByte hkind]
    cases hopen : e.keys.recv.openBody S envelope with
    | error err =>
      rw [hopen] at hbody
      cases hbody
    | ok body =>
      rw [hopen] at hbody
      cases hbody
      rfl

theorem openEnvelope_of_find {S : SealedSuite} {e : BookEntry}
    (hfind : b.entries.find? (fun e => e.keys.recv.matchesTag S envelope) = some e)
    (hopen : e.keys.recv.openBody S envelope = .ok (kind.toByte :: payload)) :
    b.openEnvelope S envelope =
      some ⟨e.device, e.sessionId, kind, payload, e.retiredAt.isSome⟩ := by
  unfold openEnvelope
  rw [hfind, Option.bind_eq_bind, Option.bind_some, hopen]
  show (EnvelopeKind.fromByte kind.toByte).bind _ = _
  rw [EnvelopeKind.fromByte_toByte]
  rfl

/-! ## Runs of a book -/

/-- What changes a book. -/
inductive BookEvent where
  | register (device sessionId : Bytes) (keys : EnvelopePair)
  | setFirstFlight (sessionId : Bytes) (filed : FiledFirstFlightKey)
  | clearFirstFlight (sessionId : Bytes)
  | retireSession (sessionId : Bytes) (now : Nat)
  | retireDevice (device : Bytes) (now : Nat)
  | retireDeviceExcept (device : Bytes) (held : List Bytes) (now : Nat)
  | prune (now : Nat)
  /-- The state is stored, and loaded by another process. -/
  | reload

def step (b : EnvelopeBook) : BookEvent → EnvelopeBook
  | .register device sessionId keys => b.register device sessionId keys
  | .setFirstFlight sessionId filed => b.setFirstFlight sessionId filed
  | .clearFirstFlight sessionId => b.clearFirstFlight sessionId
  | .retireSession sessionId now => b.retireSession sessionId now
  | .retireDevice device now => b.retireDevice device now
  | .retireDeviceExcept device held now => b.retireDeviceExcept device held now
  | .prune now => b.prune now
  | .reload => fromCfe b.toCfe

def run (events : List BookEvent) : EnvelopeBook := events.foldl step empty

end EnvelopeBook

/-- The keys are of the length their type has. -/
structure DirectionKeys.Sized (k : DirectionKeys) : Prop where
  env : k.env.length = 32
  tag : k.tag.length = 32

structure EnvelopePair.Sized (p : EnvelopePair) : Prop where
  send : p.send.Sized
  recv : p.recv.Sized

/-- The key is of the length its type has, and the time is a `u64`. -/
structure FiledFirstFlightKey.Sized (f : FiledFirstFlightKey) : Prop where
  key : f.key.length = 32
  handshakeAt : f.handshakeAt < 2 ^ 64

structure BookEntry.Sized (e : BookEntry) : Prop where
  keys : e.keys.Sized
  firstFlight : ∀ f, e.firstFlight = some f → f.Sized

def EnvelopeBook.BookEvent.Sized : EnvelopeBook.BookEvent → Prop
  | .register _ _ keys => keys.Sized
  | .setFirstFlight _ filed => filed.Sized
  | _ => True

variable {k : DirectionKeys}

theorem DirectionKeys.ofBytes_toBytes (h : k.Sized) :
    DirectionKeys.ofBytes k.toBytes = k := by
  unfold ofBytes toBytes
  rw [List.take_left' h.env, List.drop_left' h.env]

theorem DirectionKeys.length_toBytes (h : k.Sized) :
    k.toBytes.length = 64 := by
  unfold toBytes
  rw [List.length_append, h.env, h.tag]

theorem FiledFirstFlightKey.ofBytes_toBytes {f : FiledFirstFlightKey} (h : f.Sized) :
    FiledFirstFlightKey.ofBytes f.toBytes = some f := by
  have hhash : f.ciphertextHash.toList.length = 32 := f.ciphertextHash.length_toList
  have htime : (leBytes 8 f.handshakeAt).reverse.length = 8 := by
    rw [List.length_reverse, length_leBytes]
  have hlen : f.toBytes.length = 72 := by
    unfold toBytes
    rw [List.length_append, List.length_append, hhash, h.key, htime]
  have hfirst : f.toBytes.take 32 = f.ciphertextHash.toList := by
    unfold toBytes
    rw [List.append_assoc, List.take_left' hhash]
  have hsecond : (f.toBytes.drop 32).take 32 = f.key := by
    unfold toBytes
    rw [List.append_assoc, List.drop_left' hhash, List.take_left' h.key]
  have hthird : f.toBytes.drop 64 = (leBytes 8 f.handshakeAt).reverse := by
    unfold toBytes
    apply List.drop_left'
    rw [List.length_append, hhash, h.key]
  have hvector : toVector? 32 f.ciphertextHash.toList = some f.ciphertextHash :=
    toVector?_eq_some.mpr rfl
  unfold ofBytes
  rw [if_pos hlen, hfirst, hvector, hsecond, hthird, List.reverse_reverse, ofLeBytes_leBytes,
    Nat.mod_eq_of_lt (show f.handshakeAt < 256 ^ 8 from h.handshakeAt)]
  rfl

theorem BookEntry.ofCfe_toCfe {e : BookEntry} (h : e.Sized) : BookEntry.ofCfe e.toCfe = some e := by
  have hsend := DirectionKeys.length_toBytes h.keys.send
  have hlen : e.toCfe.keys.length = 128 := by
    show (e.keys.send.toBytes ++ e.keys.recv.toBytes).length = 128
    rw [List.length_append, hsend, DirectionKeys.length_toBytes h.keys.recv]
  have hfirst : e.toCfe.keys.take 64 = e.keys.send.toBytes := List.take_left' hsend
  have hsecond : e.toCfe.keys.drop 64 = e.keys.recv.toBytes := List.drop_left' hsend
  have hflight : (e.toCfe.firstFlight.bind FiledFirstFlightKey.ofBytes) = e.firstFlight := by
    show (e.firstFlight.map (·.toBytes)).bind FiledFirstFlightKey.ofBytes = e.firstFlight
    cases hf : e.firstFlight with
    | none => rfl
    | some f => exact FiledFirstFlightKey.ofBytes_toBytes (h.firstFlight f hf)
  unfold ofCfe
  rw [if_pos hlen, hfirst, hsecond, hflight, DirectionKeys.ofBytes_toBytes h.keys.send,
    DirectionKeys.ofBytes_toBytes h.keys.recv]
  rfl

namespace EnvelopeBook

/-- A session has one entry, and every entry's fields are of the lengths their types have. -/
structure Good (b : EnvelopeBook) : Prop where
  nodup : (b.entries.map (·.sessionId)).Nodup
  sized : ∀ e ∈ b.entries, e.Sized

variable {b : EnvelopeBook} {sessionId nonce envelope : Bytes} {f : BookEntry → BookEntry}
  {e : BookEntry} {S : SealedSuite}

theorem fromCfe_toCfe (h : b.Good) : fromCfe b.toCfe = b := by
  have hall : ∀ es : List BookEntry, (∀ e ∈ es, e.Sized) →
      (es.map (·.toCfe)).filterMap BookEntry.ofCfe = es := by
    intro es
    induction es with
    | nil => exact fun _ => rfl
    | cons e es ih =>
      intro hsized
      rw [List.map_cons, List.filterMap_cons,
        BookEntry.ofCfe_toCfe (hsized e (List.mem_cons_self ..)),
        ih fun e' he' => hsized e' (List.mem_cons_of_mem _ he')]
  exact congrArg mk (hall b.entries h.sized)

theorem map_sessionId_onSession (hf : ∀ e, (f e).sessionId = e.sessionId) (es : List BookEntry) :
    (onSession sessionId f es).map (·.sessionId) = es.map (·.sessionId) := by
  induction es with
  | nil => rfl
  | cons e es ih =>
    unfold onSession
    split
    · rw [List.map_cons, List.map_cons, hf]
    · rw [List.map_cons, List.map_cons, ih]

theorem mem_onSession {es : List BookEntry} (h : e ∈ onSession sessionId f es) :
    e ∈ es ∨ ∃ e' ∈ es, e = f e' := by
  induction es with
  | nil => cases h
  | cons x es ih =>
    unfold onSession at h
    split at h
    · rcases List.mem_cons.mp h with rfl | h
      · exact .inr ⟨x, List.mem_cons_self .., rfl⟩
      · exact .inl (List.mem_cons_of_mem _ h)
    · rcases List.mem_cons.mp h with rfl | h
      · exact .inl (List.mem_cons_self ..)
      · rcases ih h with h | ⟨e', he', rfl⟩
        · exact .inl (List.mem_cons_of_mem _ h)
        · exact .inr ⟨e', List.mem_cons_of_mem _ he', rfl⟩

/-- A change of one session's entry that leaves its name, and keeps it well sized. -/
theorem Good.onSession (h : b.Good) (sessionId : Bytes) (hid : ∀ e, (f e).sessionId = e.sessionId)
    (hsized : ∀ e, e.Sized → (f e).Sized) : Good ⟨onSession sessionId f b.entries⟩ := by
  constructor
  · show ((EnvelopeBook.onSession sessionId f b.entries).map (·.sessionId)).Nodup
    rw [map_sessionId_onSession hid]
    exact h.nodup
  · intro e he
    rcases mem_onSession he with he | ⟨e', he', rfl⟩
    · exact h.sized e he
    · exact hsized e' (h.sized e' he')

theorem Good.retireWhere (h : b.Good) (p : BookEntry → Bool) (now : Nat) :
    (b.retireWhere p now).Good := by
  constructor
  · show ((b.entries.map fun e => if p e then e.retire now else e).map (·.sessionId)).Nodup
    have hids : ((·.sessionId) ∘ fun e => if p e then BookEntry.retire e now else e) =
        (·.sessionId) := by
      funext e
      show BookEntry.sessionId (if p e then e.retire now else e) = e.sessionId
      split
      · rfl
      · rfl
    rw [List.map_map, hids]
    exact h.nodup
  · intro e he
    obtain ⟨e', he', rfl⟩ := List.mem_map.mp he
    split
    · exact ⟨(h.sized e' he').keys, (h.sized e' he').firstFlight⟩
    · exact h.sized e' he'

theorem Good.step (h : b.Good) {event : BookEvent} (hevent : event.Sized) :
    (b.step event).Good := by
  cases event with
  | register device sessionId keys =>
    show (b.register device sessionId keys).Good
    unfold register
    split
    · exact h
    · rename_i hnew
      constructor
      · show (sessionId :: b.entries.map (·.sessionId)).Nodup
        refine List.nodup_cons.mpr ⟨fun hmem => hnew ?_, h.nodup⟩
        obtain ⟨e, he, hid⟩ := List.mem_map.mp hmem
        exact List.any_eq_true.mpr ⟨e, he, beq_iff_eq.mpr hid⟩
      · intro e he
        rcases List.mem_cons.mp he with rfl | he
        · exact ⟨hevent, fun f hf => (nomatch hf)⟩
        · exact h.sized e he
  | setFirstFlight sessionId filed =>
    refine h.onSession sessionId (fun _ => rfl) fun e he => ⟨he.keys, ?_⟩
    intro f hf
    cases hf
    exact hevent
  | clearFirstFlight sessionId =>
    exact h.onSession sessionId (fun _ => rfl) fun e he => ⟨he.keys, fun f hf => (nomatch hf)⟩
  | retireSession sessionId now => exact h.retireWhere _ now
  | retireDevice device now => exact h.retireWhere _ now
  | retireDeviceExcept device held now => exact h.retireWhere _ now
  | prune now =>
    refine ⟨h.nodup.sublist (List.filter_sublist.map _), ?_⟩
    intro e he
    exact h.sized e (List.mem_of_mem_filter he)
  | reload =>
    show (fromCfe b.toCfe).Good
    rw [fromCfe_toCfe h]
    exact h

theorem good_run {events : List BookEvent} (h : ∀ event ∈ events, event.Sized) :
    (run events).Good := by
  have hempty : empty.Good := ⟨List.nodup_nil, fun e he => (nomatch he)⟩
  have hfold : ∀ b : EnvelopeBook, b.Good → (events.foldl step b).Good := by
    induction events with
    | nil => exact fun b hb => hb
    | cons event events ih =>
      intro b hb
      exact ih (fun e he => h e (List.mem_cons_of_mem _ he)) _
        (hb.step (h event (List.mem_cons_self ..)))
  exact hfold empty hempty

theorem find?_eq_some_of_unique {α : Type} {p : α → Bool} {l : List α} {a : α} (ha : a ∈ l)
    (hp : p a = true) (hunique : ∀ x ∈ l, p x = true → x = a) : l.find? p = some a := by
  obtain ⟨x, hx⟩ := Option.isSome_iff_exists.mp (List.find?_isSome.mpr ⟨a, ha, hp⟩)
  rw [hx, hunique x (List.mem_of_find?_eq_some hx) (List.find?_some hx)]

theorem Good.entry?_eq (h : b.Good) (he : e ∈ b.entries) :
    b.entry? e.sessionId = some e := by
  refine find?_eq_some_of_unique he (beq_self_eq_true e.sessionId) fun x hx hid => ?_
  exact List.inj_on_of_nodup_map h.nodup hx he (eq_of_beq hid)

/-- The two sides of a session hold the same keys, each the other's in the other direction. -/
def Opposite (e e' : BookEntry) : Prop :=
  e'.sessionId = e.sessionId ∧ e'.keys.recv = e.keys.send ∧ e'.keys.send = e.keys.recv

/-- A book opens what the book of the other side sealed: it names the device and the session of
its own entry, and gives the kind and the payload back. No other session of the book makes the
envelope's tag. -/
theorem openEnvelope_sealed (hS : S.Lawful) (hopens : S.Opens) {a : EnvelopeBook} (ha : a.Good)
    (hb : b.Good) {e' : BookEntry} (he : e ∈ a.entries) (he' : e' ∈ b.entries)
    (hsides : Opposite e e') {kind : EnvelopeKind} {payload : Bytes}
    (hnonce : nonce.length = envelopeNonceLen)
    (htags : ∀ x ∈ b.entries, x.sessionId ≠ e'.sessionId →
      x.keys.recv.tagOf S nonce ≠ e'.keys.recv.tagOf S nonce)
    (h : a.sealEnvelope S e.sessionId kind payload nonce = .ok envelope) :
    b.openEnvelope S envelope =
      some ⟨e'.device, e'.sessionId, kind, payload, e'.retiredAt.isSome⟩ := by
  obtain ⟨x, hx, hseal⟩ := sealEnvelope_eq_ok h
  rw [ha.entry?_eq he] at hx
  obtain rfl := Option.some.inj hx
  rw [← hsides.2.1] at hseal
  have hmatch : ∀ x ∈ b.entries, x.keys.recv.matchesTag S envelope = true → x = e' := by
    intro x hx hmatches
    rw [DirectionKeys.matchesTag_sealed hS hnonce hseal] at hmatches
    by_contra hne
    refine htags x hx (fun hid => hne ?_) (eq_of_beq hmatches)
    exact List.inj_on_of_nodup_map hb.nodup hx he' hid
  have hown : e'.keys.recv.matchesTag S envelope = true := by
    rw [DirectionKeys.matchesTag_sealed hS hnonce hseal]
    exact beq_self_eq_true _
  exact openEnvelope_of_find (find?_eq_some_of_unique he' hown hmatch)
    (DirectionKeys.openBody_sealed hS hopens hnonce hseal)

/-- Of an ideal AEAD, what a book opens is an envelope sealed under the receive keys of one of its
entries, byte for byte. -/
theorem openEnvelope_made {calls : List AeadCall} (hideal : S.Ideal calls) {o : OpenedEnvelope}
    (h : b.openEnvelope S envelope = some o) :
    ∃ e ∈ b.entries, e.device = o.device ∧ e.sessionId = o.sessionId ∧
      ∃ nonce, e.keys.recv.call S (o.kind.toByte :: o.body) nonce ∈ calls ∧
        e.keys.recv.sealWithNonce S (o.kind.toByte :: o.body) nonce = .ok envelope := by
  obtain ⟨e, he, hdevice, hsession, hopen⟩ := openEnvelope_eq_some h
  obtain ⟨nonce, -, hmade, hseal⟩ := DirectionKeys.openBody_made hideal hopen
  exact ⟨e, he, hdevice, hsession, nonce, hmade, hseal⟩

theorem openEnvelope_of_other (hS : S.Lawful) {k : DirectionKeys} {body : Bytes}
    (hnonce : nonce.length = envelopeNonceLen) (hseal : k.sealWithNonce S body nonce = .ok envelope)
    (htags : ∀ x ∈ b.entries, x.keys.recv.tagOf S nonce ≠ k.tagOf S nonce) :
    b.openEnvelope S envelope = none := by
  have hfind : b.entries.find? (fun e => e.keys.recv.matchesTag S envelope) = none := by
    refine List.find?_eq_none.mpr fun x hx hmatches => htags x hx ?_
    rw [DirectionKeys.matchesTag_sealed hS hnonce hseal] at hmatches
    exact eq_of_beq hmatches
  unfold openEnvelope
  rw [hfind]
  rfl

end EnvelopeBook

end ConstructCore
