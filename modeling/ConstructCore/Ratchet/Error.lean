import ConstructCore.Ratchet.State
import ConstructCore.Traffic.Padding

/-!
# The ratchet's refusals

The source returns its errors as text. `RatchetError` has one constructor for each
message of the source and `RatchetError.text` writes the message. The callers read one
thing off the text: whether it starts with `MESSAGE_KEY_CONSUMED`. That holds for
exactly the two refusals of a position whose key is gone.
-/

namespace ConstructCore

/-- The errors of the Double Ratchet. -/
inductive RatchetError where
  -- session creation
  | sessionIdDerivation (initiator : Bool) (e : CryptoError)
  | rootKeyDerivation (e : CryptoError)
  | publicKeyDerivation (e : CryptoError)
  | performDh (e : CryptoError)
  | invalidSuiteId (suiteId : UInt16)
  | identityAnswer
  -- encrypt
  | padding (e : PaddingError)
  | noSendChain (epoch : UInt32)
  | kdfCkSend (e : CryptoError)
  | sendingChainLengthOverflow
  | nonceGeneration (e : CryptoError)
  | publicKeyLength
  | encryptSessionId (sessionId : Bytes)
  | encryption (e : CryptoError)
  -- decrypt: the classical chain
  | jumpAfterDhStep (number limit : UInt32)
  | previousChainJump (length previous limit : UInt32)
  | messageNumberJump (length number limit : UInt32)
  | tooManySkipped
  | kdfCk (e : CryptoError)
  | receivingChainLengthOverflow
  | messageKeyConsumed (number length : UInt32)
  -- the DH step
  | noDhPrivateKey
  | dh (e : CryptoError)
  | kdfRk (e : CryptoError)
  | identityAnswerMissing
  | identityRootMix (e : CryptoError)
  | identityChainMix (e : CryptoError)
  | generateDhKeys (e : CryptoError)
  -- the PQ chains
  | pqEpochChains (e : CryptoError)
  | pqChainStep (e : CryptoError)
  | pqChainIndexOverflow
  | pqIndexWithoutEpoch (index : UInt32)
  | pqUnknownEpoch (epoch current : UInt32)
  | pqKeyConsumed (epoch index chainIndex : UInt32)
  | pqIndexJump (chainIndex index limit : UInt32)
  | tooManySkippedPq
  | pqMessageKeyMix (e : CryptoError)
  -- opening the sealed box
  | adDowngrade (peer : UInt8)
  | unknownAdVersion (version : UInt8)
  | decryptSessionId (sessionId : Bytes)
  | decryption (e : CryptoError)
  | unpadding (e : PaddingError)
deriving DecidableEq, Repr

/-- `MESSAGE_KEY_CONSUMED`. -/
def messageKeyConsumedPrefix : String := "MESSAGE_KEY_CONSUMED"

def idText (id : Bytes) : String := String.ofList (id.map fun b => Char.ofNat b.toNat)

namespace RatchetError

/-- The text the source formats. The appends are nested to the right: a text is its opening
words and the rest. -/
def text : RatchetError → String
  | sessionIdDerivation true e =>
    "INITIATOR: session_id derivation failed: Failed to derive shared session_id: " ++
      e.text
  | sessionIdDerivation false e =>
    "RESPONDER: session_id derivation failed: Failed to derive shared session_id: " ++
      e.text
  | rootKeyDerivation e => "Failed to derive root key: " ++ e.text
  | publicKeyDerivation e => "Failed to derive public key: " ++ e.text
  | performDh e => "Failed to perform DH: " ++ e.text
  | invalidSuiteId suiteId =>
    "Invalid suite_id in first message: Invalid suite ID: " ++ (toString suiteId ++
      ". Supported: 1 (CLASSIC), 2 (PQ_HYBRID), 4 (PQ_RATCHET); 3 is retired")
  | identityAnswer =>
    "KEM identity answer: the session has already sent or already answered"
  | padding e => "Padding failed: " ++ e.text
  | noSendChain epoch => "PQ epoch " ++ (toString epoch ++ " has no send chain")
  | kdfCkSend e => "KDF (CK) failed: " ++ e.text
  | sendingChainLengthOverflow =>
    "sending_chain_length overflow: session has exceeded u32::MAX messages"
  | nonceGeneration e => "Nonce generation failed: " ++ e.text
  | publicKeyLength => "Invalid public key length"
  | encryptSessionId sessionId =>
    "AEAD encrypt: session_id '" ++ (idText sessionId ++
      "' is not valid hex — session may be corrupt; re-initialise the session")
  | encryption e => "Encryption failed: " ++ e.text
  | jumpAfterDhStep number limit =>
    "Message number jump too large after DH step: " ++ (toString number ++
      (" (limit " ++ (toString limit ++ ")")))
  | previousChainJump length previous limit =>
    "Previous chain length jump too large: " ++ (toString length ++ (" -> " ++
      (toString previous ++ (" (limit +" ++ (toString limit ++ ")")))))
  | messageNumberJump length number limit =>
    "Message number jump too large: " ++ (toString length ++ (" -> " ++
      (toString number ++ (" (limit +" ++ (toString limit ++ ")")))))
  | tooManySkipped => "Too many skipped messages"
  | kdfCk e => "KDF_CK failed: " ++ e.text
  | receivingChainLengthOverflow => "receiving_chain_length overflow"
  | messageKeyConsumed number length =>
    messageKeyConsumedPrefix ++ (": message " ++ (toString number ++
      (" on the current receiving chain (now at " ++ (toString length ++
      ") has no key left"))))
  | noDhPrivateKey => "No DH private key"
  | dh e => "DH failed: " ++ e.text
  | kdfRk e => "KDF_RK failed: " ++ e.text
  | identityAnswerMissing =>
    "KEM identity answer missing: the responder's first reply carries no ciphertext"
  | identityRootMix e => "KEM identity root mix failed: " ++ e.debugText
  | identityChainMix e => "KEM identity chain mix failed: " ++ e.debugText
  | generateDhKeys e => "Failed to generate DH keys: " ++ e.text
  | pqEpochChains e => "PQ epoch chains: " ++ e.debugText
  | pqChainStep e => "PQ chain step: " ++ e.debugText
  | pqChainIndexOverflow =>
    "PQ chain index overflow: an epoch has exceeded u32::MAX messages"
  | pqIndexWithoutEpoch index =>
    "PQ key index " ++ (toString index ++ " without an epoch")
  | pqUnknownEpoch epoch current =>
    "PQ epoch " ++ (toString epoch ++ (" has no chain (current epoch " ++
      (toString current ++ ") — message tagged with an unknown/evicted epoch")))
  | pqKeyConsumed epoch index chainIndex =>
    messageKeyConsumedPrefix ++ (": PQ key " ++ (toString epoch ++ ("/" ++
      (toString index ++ (" already used (chain at " ++ (toString chainIndex ++
      ")"))))))
  | pqIndexJump chainIndex index limit =>
    "PQ key index jump too large: " ++ (toString chainIndex ++ (" -> " ++
      (toString index ++ (" (limit +" ++ (toString limit ++ ")")))))
  | tooManySkippedPq => "Too many skipped PQ keys"
  | pqMessageKeyMix e => "PQ message-key mix failed: " ++ e.debugText
  | adDowngrade peer =>
    "AD v" ++ (toString adVersionLegacy ++ (" after the peer sent v" ++
      (toString peer ++ ": a downgrade, refused")))
  | unknownAdVersion version => "unknown AD version " ++ toString version
  | decryptSessionId sessionId =>
    "AEAD decrypt: session_id '" ++ (idText sessionId ++
      "' is not valid hex — session may be corrupt; re-initialise the session")
  | decryption e => "Decryption failed: " ++ e.text
  | unpadding e => "Unpadding failed: " ++ e.text

/-- `e.starts_with(MESSAGE_KEY_CONSUMED)`. -/
def isConsumed (e : RatchetError) : Bool :=
  messageKeyConsumedPrefix.toList.isPrefixOf e.text.toList

end RatchetError

end ConstructCore
