import Mathlib.Data.List.Sort
import ConstructCore.Lib.KeyChain
import ConstructCore.Ratchet.Error

/-!
# The sparse post-quantum ratchet of suite 4

The initiator proposes an epoch with a fresh ML-KEM-768 key, re-sent on every message
(`startPqExchange`); the responder answers with a ciphertext, re-sent on every message
(`ingestPublicKey`); the initiator decapsulates and starts to send on the epoch's chain
(`ingestCiphertext`); the responder promotes its provisional chains on the first message
tagged with the epoch (`promotePending`). Inside an epoch each direction has a symmetric
chain, one key a message (`pqSendKey`, `pqReceiveKey`).

The functions are those of `double_ratchet/internals.rs`, on the PQ half of the session.
-/

namespace ConstructCore

open Bytes

namespace PqRatchet

def initial (isPqInitiator : Bool) (now : Nat) : PqRatchet where
  pqTurnsSinceMix := 0
  isPqInitiator := isPqInitiator
  currentPqEpoch := 0
  pqChains := []
  pqSkippedKeys := .empty
  pendingPqExchange := none
  pendingPqCiphertext := none
  pqPendingSince := 0
  pqEpochSince := now

variable (C : Crypto)

/-! ## Starting an exchange -/

def pqEpochIsOld (pq : PqRatchet) (now : Nat) : Bool :=
  decide (Config.global.pqRatchetMaxAgeSeconds ≤ now - pq.pqEpochSince)

def abandonUnansweredPqExchange (pq : PqRatchet) (now : Nat) : PqRatchet :=
  let maxAge := (max Config.global.maxSkippedMessageAgeSeconds 0).toNat
  if pq.pqPendingSince ≠ 0 ∧ maxAge < now - pq.pqPendingSince ∧
      pq.pendingPqExchange.isSome then
    { pq with pendingPqExchange := none, pqPendingSince := 0 }
  else pq

/-- Propose epoch `current + 1` with a fresh key pair, unless one is in flight. -/
def startPqExchange (pq : PqRatchet) (env : Env) : PqRatchet :=
  if pq.pendingPqExchange.isSome then pq
  else
    let keypair := C.mlkem768Keygen env.kemSeed
    { pq with
      pendingPqExchange := some
        { epoch := pq.currentPqEpoch.satAdd 1
          keypair := { publicKey := keypair.1, secretKey := keypair.2 } }
      pqPendingSince := env.now
      pqTurnsSinceMix := 0 }

def maybeAdvancePqRatchet (suite : SuiteID) (pq : PqRatchet) (env : Env) : PqRatchet :=
  if !suite.isPqRatchet || !pq.isPqInitiator then pq
  else
    let pq := pq.abandonUnansweredPqExchange env.now
    let pq := { pq with pqTurnsSinceMix := pq.pqTurnsSinceMix.satAdd 1 }
    if pq.pqTurnsSinceMix < Config.global.pqRatchetInterval ∧ !pq.pqEpochIsOld env.now then pq
    else pq.startPqExchange C env

/-- On a send: start an exchange when the epoch has outlived its maximum age. -/
def maybeStartPqExchangeByAge (suite : SuiteID) (pq : PqRatchet) (env : Env) : PqRatchet :=
  if !suite.isPqRatchet || !pq.isPqInitiator then pq
  else
    let pq := pq.abandonUnansweredPqExchange env.now
    if !pq.pqEpochIsOld env.now then pq else pq.startPqExchange C env

/-! ## Epoch chains -/

/-- `pq_ek_hash`: the 8-byte identifier of an encapsulation key. -/
def pqEkHash (ek : Bytes) : Vector UInt8 8 :=
  match C.hkdfDeriveKey [] ek (ofText "construct-pqr-ekhash-v1") 8 with
  | .ok bytes => (toVector? 8 bytes).getD (Vector.replicate 8 0)
  | .error _ => Vector.replicate 8 0

/-- `pq_epoch_chains`: the two chains of an epoch, from its ML-KEM secret. -/
def pqEpochChains (secret : Bytes) (epoch : UInt32) (isPqInitiator : Bool) :
    Except RatchetError PqEpochChains :=
  match C.hkdfDeriveKey [] secret (ofText "construct-pqr-chains-v2" ++ u32ToBe epoch) 64 with
  | .error e => .error (.pqEpochChains e)
  | .ok out =>
    let initiatorSends : PqChain := { index := 0, key := out.take 32 }
    let responderSends : PqChain := { index := 0, key := out.drop 32 }
    if isPqInitiator then
      .ok { epoch := epoch, send := some initiatorSends, recv := responderSends }
    else
      .ok { epoch := epoch, send := some responderSends, recv := initiatorSends }

/-- One step of a PQ chain: the key for `chain.index` and the chain moved past it. -/
def pqChainStep (chain : PqChain) : Except RatchetError (Bytes × PqChain) :=
  match C.hkdfDeriveKey [] chain.key (ofText "construct-pqr-step-v2") 64 with
  | .error e => .error (.pqChainStep e)
  | .ok out =>
    match chain.index.checkedSucc with
    | none => .error .pqChainIndexOverflow
    | some next => .ok (out.drop 32, { index := next, key := out.take 32 })

/-- Apply `f` to the first entry of epoch `epoch`. -/
def modifyEpoch (epoch : UInt32) (f : PqEpochChains → PqEpochChains) :
    List PqEpochChains → List PqEpochChains
  | [] => []
  | c :: cs => if c.epoch = epoch then f c :: cs else c :: modifyEpoch epoch f cs

/-- `insert_pq_epoch_chains`: every older epoch stops sending, and beyond the retention
bound the oldest epoch goes entirely. -/
def insertPqEpochChains (pqChains : List PqEpochChains) (chains : PqEpochChains) :
    List PqEpochChains :=
  let others := pqChains.eraseP fun c => c.epoch == chains.epoch
  let others := others.map fun c => if c.epoch < chains.epoch then { c with send := none } else c
  let sorted := (others ++ [chains]).insertionSort fun a b => a.epoch ≤ b.epoch
  sorted.drop (sorted.length - pqChainRetention)

/-! ## Committing what an authenticated message carries -/

/-- A peer message tagged with the provisional epoch proves that the initiator
decapsulated its secret: the provisional chains become current. -/
def promotePending (pq : PqRatchet) (messageEpoch : UInt32) (now : Nat) : PqRatchet :=
  match pq.pendingPqCiphertext with
  | none => pq
  | some p =>
    if p.epoch ≤ messageEpoch then
      { pq with
        pendingPqCiphertext := none
        currentPqEpoch := max pq.currentPqEpoch p.epoch
        pqChains := insertPqEpochChains pq.pqChains p.chains
        pqEpochSince := now }
    else pq

/-- The responder meets a proposed key: encapsulate to it once, replacing any previous
provisional state, unless it is stale or already answered. -/
def ingestPublicKey (pq : PqRatchet) (env : Env) (epoch : UInt32) (key : Bytes) : PqRatchet :=
  if pq.isPqInitiator then pq
  else if epoch ≤ pq.currentPqEpoch then pq
  else
    let incomingHash := pqEkHash C key
    if pq.pendingPqCiphertext.any fun p => p.epoch == epoch && p.ekHash == incomingHash then pq
    else match C.mlkem768Encapsulate key env.encapSeed with
      | .error _ => pq
      | .ok enc => match pqEpochChains C enc.2 epoch pq.isPqInitiator with
        | .error _ => pq
        | .ok chains =>
          { pq with
            pendingPqCiphertext := some
              { epoch := epoch, ekHash := incomingHash, ciphertext := enc.1,
                chains := chains } }

/-- The initiator meets an answer: decapsulate it and send on the new epoch, unless it is
for another key than the one in flight. -/
def ingestCiphertext (pq : PqRatchet) (now : Nat) (epoch : UInt32) (ekHash : Vector UInt8 8)
    (ct : Bytes) : PqRatchet :=
  match pq.pendingPqExchange with
  | none => pq
  | some p =>
    if p.epoch ≠ epoch ∨ pqEkHash C p.keypair.publicKey ≠ ekHash then pq
    else match C.mlkem768Decapsulate p.keypair.secretKey ct with
      | .error _ => pq
      | .ok secret => match pqEpochChains C secret epoch pq.isPqInitiator with
        | .error _ => pq
        | .ok chains =>
          { pq with
            pendingPqExchange := none
            currentPqEpoch := epoch
            pqChains := insertPqEpochChains pq.pqChains chains
            pqPendingSince := 0
            pqEpochSince := now }

/-- `commit_pq_post_decrypt`: promotion first, then the field the message carries. -/
def commitPqPostDecrypt (suite : SuiteID) (pq : PqRatchet) (env : Env)
    (encrypted : EncryptedRatchetMessage) : PqRatchet :=
  if !suite.isPqRatchet then pq
  else
    let pq := pq.promotePending encrypted.pqMessageEpoch env.now
    match encrypted.pqRatchetField with
    | none => pq
    | some (.publicKey epoch key) => pq.ingestPublicKey C env epoch key
    | some (.ciphertext epoch ekHash ct) => pq.ingestCiphertext C env.now epoch ekHash ct

/-- `take_outgoing_pq_field`: what every outgoing message carries. -/
def takeOutgoingPqField (suite : SuiteID) (pq : PqRatchet) : Option PqRatchetWireField :=
  if !suite.isPqRatchet then none
  else match pq.pendingPqCiphertext with
    | some p => some (.ciphertext p.epoch p.ekHash p.ciphertext)
    | none => pq.pendingPqExchange.map fun ex => .publicKey ex.epoch ex.keypair.publicKey

/-! ## Message keys -/

/-- `pq_send_key`: epoch, index and key for the next outgoing message. -/
def pqSendKey (suite : SuiteID) : Op RatchetError PqRatchet (UInt32 × UInt32 × Option Bytes) :=
  do
    let pq ← get
    let epoch := pq.currentPqEpoch
    if !suite.isPqRatchet || epoch == 0 then
      return (0, 0, none)
    else
      match (pq.pqChains.find? fun c => c.epoch == epoch).bind fun c => c.send with
      | none => throw (.noSendChain epoch)
      | some chain =>
        let (key, next) ← Op.ofExcept id (pqChainStep C chain)
        set { pq with
          pqChains := modifyEpoch epoch (fun c => { c with send := some next }) pq.pqChains }
        return (epoch, chain.index, some key)

/-- The skipped-key store of the PQ chains. -/
abbrev PqSkipped := AgedStore (UInt32 × UInt32) Bytes

/-- The loop of `pq_receive_key`: the chain stands `n` keys short of the wanted one; the
`n` keys it passes are kept, up to the skipped-key bound. -/
def advancePqChain (now : Nat) (epoch : UInt32) :
    Nat → Op RatchetError (PqChain × PqSkipped) Bytes
  | 0 => do
      let (chain, skipped) ← get
      let (key, next) ← Op.ofExcept id (pqChainStep C chain)
      set (next, skipped)
      return key
  | n + 1 => do
      let (chain, skipped) ← get
      let (key, next) ← Op.ofExcept id (pqChainStep C chain)
      set (next, skipped)
      if Config.global.maxSkippedMessages ≤ skipped.size then
        throw .tooManySkippedPq
      else
        set (next, skipped.insert (epoch, chain.index) key now)
        advancePqChain now epoch n

/-- The receive chain of an epoch: a completed one, or the provisional one. -/
def recvChain? (pq : PqRatchet) (epoch : UInt32) : Option PqChain :=
  match pq.pqChains.find? fun c => c.epoch == epoch with
  | some c => some c.recv
  | none => (pq.pendingPqCiphertext.filter fun p => p.epoch == epoch).map fun p => p.chains.recv

/-- Put a receive chain back where `recvChain?` found it. -/
def setRecvChain (pq : PqRatchet) (epoch : UInt32) (chain : PqChain) : PqRatchet :=
  if (pq.pqChains.find? fun c => c.epoch == epoch).isSome then
    { pq with pqChains := modifyEpoch epoch (fun c => { c with recv := chain }) pq.pqChains }
  else
    { pq with
      pendingPqCiphertext := pq.pendingPqCiphertext.map fun p =>
        { p with chains := { p.chains with recv := chain } } }

/-- `pq_receive_key`: the key a received message names by `(epoch, index)`. -/
def pqReceiveKey (suite : SuiteID) (now : Nat) (epoch index : UInt32) :
    Op RatchetError PqRatchet (Option Bytes) := do
  let pq ← get
  if !suite.isPqRatchet || epoch == 0 then
    if index ≠ 0 then throw (.pqIndexWithoutEpoch index) else return none
  else
    match pq.pqSkippedKeys.get? (epoch, index) with
    | some key =>
      set { pq with pqSkippedKeys := pq.pqSkippedKeys.remove (epoch, index) }
      return some key
    | none =>
      match pq.recvChain? epoch with
      | none => throw (.pqUnknownEpoch epoch pq.currentPqEpoch)
      | some chain =>
        if index < chain.index then
          throw (.pqKeyConsumed epoch index chain.index)
        else if chain.index.satAdd Config.global.maxMessageJump < index then
          throw (.pqIndexJump chain.index index Config.global.maxMessageJump)
        else
          -- the chain yields its keys in order up to `index`
          let key ← Op.zoom (fun pq => (chain, pq.pqSkippedKeys))
            (fun (t : PqChain × PqSkipped) pq =>
              { pq.setRecvChain epoch t.1 with pqSkippedKeys := t.2 })
            (advancePqChain C now epoch (index.toNat - chain.index.toNat))
          return some key

/-! ## What they change -/

variable {C} {pq pq' : PqRatchet} {suite : SuiteID} {now : Nat} {epoch index : UInt32}

/-- The two differ in the exchange in flight alone. -/
def OtherExchange (pq pq' : PqRatchet) : Prop :=
  ∃ exchange since turns, pq' = { pq with
    pendingPqExchange := exchange, pqPendingSince := since, pqTurnsSinceMix := turns }

theorem abandon_otherExchange (pq : PqRatchet) (now : Nat) :
    OtherExchange pq (pq.abandonUnansweredPqExchange now) := by
  unfold abandonUnansweredPqExchange
  dsimp only
  split
  · exact ⟨_, _, _, rfl⟩
  · exact ⟨_, _, _, rfl⟩

theorem OtherExchange.start (h : OtherExchange pq pq') (env : Env) :
    OtherExchange pq (pq'.startPqExchange C env) := by
  obtain ⟨_, _, _, rfl⟩ := h
  unfold startPqExchange
  split
  · exact ⟨_, _, _, rfl⟩
  · exact ⟨_, _, _, rfl⟩

theorem maybeAdvance_otherExchange (suite : SuiteID) (pq : PqRatchet) (env : Env) :
    OtherExchange pq (pq.maybeAdvancePqRatchet C suite env) := by
  have hturn : OtherExchange pq { pq.abandonUnansweredPqExchange env.now with
      pqTurnsSinceMix := (pq.abandonUnansweredPqExchange env.now).pqTurnsSinceMix.satAdd 1 } := by
    obtain ⟨_, _, _, h⟩ := abandon_otherExchange pq env.now
    rw [h]
    exact ⟨_, _, _, rfl⟩
  unfold maybeAdvancePqRatchet
  dsimp only
  split
  · exact ⟨_, _, _, rfl⟩
  · split
    · exact hturn
    · exact hturn.start env

theorem maybeStartByAge_otherExchange (suite : SuiteID) (pq : PqRatchet) (env : Env) :
    OtherExchange pq (pq.maybeStartPqExchangeByAge C suite env) := by
  have habandon := abandon_otherExchange pq env.now
  unfold maybeStartPqExchangeByAge
  dsimp only
  split
  · exact ⟨_, _, _, rfl⟩
  · split
    · exact habandon
    · exact habandon.start env

/-- What `pq_receive_key` leaves, whatever it returns: the state as it was, without the key it
found, or with the chain advanced. -/
theorem pqReceiveKey_rule {P : PqRatchet → Prop} (hsame : P pq)
    (hfound : P { pq with pqSkippedKeys := pq.pqSkippedKeys.remove (epoch, index) })
    (hadvance : ∀ chain n, pq.recvChain? epoch = some chain →
      Op.Ensures (advancePqChain C now epoch n) (chain, pq.pqSkippedKeys)
        (fun _ t => P { pq.setRecvChain epoch t.1 with pqSkippedKeys := t.2 })
        (fun _ t => P { pq.setRecvChain epoch t.1 with pqSkippedKeys := t.2 })) :
    Op.Ensures (pqReceiveKey C suite now epoch index) pq (fun _ => P) (fun _ => P) := by
  simp only [pqReceiveKey, Op.ensures_bind, Op.ensures_get, Op.ensures_ite, Op.ensures_throw,
    Op.ensures_pure]
  refine ⟨fun _ => ⟨fun _ => hsame, fun _ => hsame⟩, fun _ => ?_⟩
  cases pq.pqSkippedKeys.get? (epoch, index) with
  | some key =>
    simp only [Op.ensures_bind, Op.ensures_set, Op.ensures_pure]
    exact hfound
  | none =>
    cases hchain : pq.recvChain? epoch with
    | none =>
      simp only [Op.ensures_throw]
      exact hsame
    | some chain =>
      simp only [Op.ensures_ite, Op.ensures_throw, Op.ensures_bind, Op.ensures_zoom,
        Op.ensures_pure]
      exact ⟨fun _ => hsame, fun _ => ⟨fun _ => hsame, fun _ => hadvance chain _ hchain⟩⟩

end PqRatchet

/-- `mix_pq_message_key`: the message key hybridized with the PQ chain key. -/
def mixPqMessageKey (C : Crypto) (drKey : Bytes) (pqKey : Option Bytes) :
    Except RatchetError Bytes :=
  match pqKey with
  | none => .ok drKey
  | some pqKey =>
    match C.hkdfDeriveKey pqKey drKey (ofText "construct-pqr-msg-v2") 32 with
    | .error e => .error (.pqMessageKeyMix e)
    | .ok mixed => .ok mixed

end ConstructCore
