import ConstructCore.Lib.Bytes

/-!
# The cryptographic primitives, as the ratchet sees them

`CryptoProvider` is the trait the ratchet is generic over, with the ML-KEM-768
crate beside it. Both providers of the repository represent every KEM and AEAD key
by its bytes, with identity conversions, so a key is a byte string here. A random
choice is an explicit argument (`Seed`): an operation that draws randomness is a
function of what it drew.
-/

namespace ConstructCore

/-- What a random draw yielded. -/
abbrev Seed := Nat

/-- The errors of the crypto providers. -/
inductive CryptoError where
  | keyGenerationError (msg : String)
  | signingError (msg : String)
  | signatureVerificationError (msg : String)
  | kemEncapsulationError (msg : String)
  | kemDecapsulationError (msg : String)
  | aeadEncryptionError (msg : String)
  | aeadDecryptionError (msg : String)
  | keyDerivationError (msg : String)
  | nonceGenerationError (msg : String)
  | invalidInputError (msg : String)
  | serializationError (msg : String)
  | deserializationError (msg : String)
  | invalidKeyData
  | invalidCiphertext
  | other (msg : String)
deriving DecidableEq, Repr

/-- The `Display` text of a provider error. -/
def CryptoError.text : CryptoError → String
  | keyGenerationError msg => "Failed to generate keys: " ++ msg
  | signingError msg => "Signing failed: " ++ msg
  | signatureVerificationError msg => "Signature verification failed: " ++ msg
  | kemEncapsulationError msg => "KEM encapsulation failed: " ++ msg
  | kemDecapsulationError msg => "KEM decapsulation failed: " ++ msg
  | aeadEncryptionError msg => "AEAD encryption failed: " ++ msg
  | aeadDecryptionError msg => "AEAD decryption failed: " ++ msg
  | keyDerivationError msg => "Key derivation failed: " ++ msg
  | nonceGenerationError msg => "Nonce generation failed: " ++ msg
  | invalidInputError msg => "Invalid input: " ++ msg
  | serializationError msg => "Serialization error: " ++ msg
  | deserializationError msg => "Deserialization error: " ++ msg
  | invalidKeyData => "Invalid key data"
  | invalidCiphertext => "Invalid ciphertext"
  | other msg => "Other crypto error: " ++ msg

/-- The `Debug` text of a provider error. -/
def CryptoError.debugText : CryptoError → String
  | keyGenerationError msg => "KeyGenerationError(" ++ msg.quote ++ ")"
  | signingError msg => "SigningError(" ++ msg.quote ++ ")"
  | signatureVerificationError msg => "SignatureVerificationError(" ++ msg.quote ++ ")"
  | kemEncapsulationError msg => "KemEncapsulationError(" ++ msg.quote ++ ")"
  | kemDecapsulationError msg => "KemDecapsulationError(" ++ msg.quote ++ ")"
  | aeadEncryptionError msg => "AeadEncryptionError(" ++ msg.quote ++ ")"
  | aeadDecryptionError msg => "AeadDecryptionError(" ++ msg.quote ++ ")"
  | keyDerivationError msg => "KeyDerivationError(" ++ msg.quote ++ ")"
  | nonceGenerationError msg => "NonceGenerationError(" ++ msg.quote ++ ")"
  | invalidInputError msg => "InvalidInputError(" ++ msg.quote ++ ")"
  | serializationError msg => "SerializationError(" ++ msg.quote ++ ")"
  | deserializationError msg => "DeserializationError(" ++ msg.quote ++ ")"
  | invalidKeyData => "InvalidKeyData"
  | invalidCiphertext => "InvalidCiphertext"
  | other msg => "Other(" ++ msg.quote ++ ")"

/-- The `CryptoProvider` trait: the functions the ratchet calls. -/
structure CryptoProvider where
  /-- A fresh key pair, private half first. -/
  generateKemKeys : Seed → Except CryptoError (Bytes × Bytes)
  fromPrivateKeyToPublicKey : Bytes → Except CryptoError Bytes
  /-- The Diffie-Hellman secret of a private key and a peer's public key. -/
  kemDecapsulate : Bytes → Bytes → Except CryptoError Bytes
  /-- Key, nonce, plaintext and associated data. -/
  aeadEncrypt : Bytes → Bytes → Bytes → Option Bytes → Except CryptoError Bytes
  /-- Key, nonce, ciphertext and associated data. -/
  aeadDecrypt : Bytes → Bytes → Bytes → Option Bytes → Except CryptoError Bytes
  /-- Salt, input key material, info and output length. -/
  hkdfDeriveKey : Bytes → Bytes → Bytes → Nat → Except CryptoError Bytes
  /-- Root key and DH output to the next root key and a chain key. -/
  kdfRk : Bytes → Bytes → Except CryptoError (Bytes × Bytes)
  /-- Chain key to a message key and the next chain key. -/
  kdfCk : Bytes → Except CryptoError (Bytes × Bytes)
  generateNonce : Nat → Seed → Except CryptoError Bytes

/-- `P::AeadKey::default()`: the empty key. -/
def defaultAeadKey : Bytes := []

/-! ## ML-KEM-768 -/

def mlkem768PkSize : Nat := 1184

def mlkem768SkSize : Nat := 2400

def mlkem768CtSize : Nat := 1088

/-- What the ML-KEM-768 wrappers refuse. -/
inductive MlKemError where
  | publicKeySize (got : Nat)
  | publicKey
  | secretKeySize (got : Nat)
  | ciphertextSize (got : Nat)
  | secretKey
  | decapsulation
deriving DecidableEq, Repr

/-- The provider and the ML-KEM-768 crate together. -/
structure Crypto extends CryptoProvider where
  /-- A fresh key pair, public half first. -/
  mlkemGenerate : Seed → Bytes × Bytes
  /-- Ciphertext and shared secret; `none` when the crate refuses the public key. -/
  mlkemEncapsulate : Bytes → Seed → Option (Bytes × Bytes)
  /-- Shared secret of a secret key and a ciphertext. -/
  mlkemDecapsulate : Bytes → Bytes → Except MlKemError Bytes

namespace Crypto

variable (C : Crypto)

/-- `mlkem768_keygen`: public and secret key. It never fails. -/
def mlkem768Keygen (seed : Seed) : Bytes × Bytes := C.mlkemGenerate seed

/-- `mlkem768_encapsulate`: ciphertext and shared secret. -/
def mlkem768Encapsulate (pk : Bytes) (seed : Seed) : Except MlKemError (Bytes × Bytes) :=
  if pk.length ≠ mlkem768PkSize then .error (.publicKeySize pk.length)
  else match C.mlkemEncapsulate pk seed with
    | some enc => .ok enc
    | none => .error .publicKey

/-- `mlkem768_decapsulate`: the shared secret. -/
def mlkem768Decapsulate (sk ct : Bytes) : Except MlKemError Bytes :=
  if sk.length ≠ mlkem768SkSize then .error (.secretKeySize sk.length)
  else if ct.length ≠ mlkem768CtSize then .error (.ciphertextSize ct.length)
  else C.mlkemDecapsulate sk ct

end Crypto

/-- The output lengths of HKDF and of ML-KEM-768. -/
structure Crypto.Sized (C : Crypto) : Prop where
  hkdf : ∀ salt ikm info len out, C.hkdfDeriveKey salt ikm info len = .ok out →
    out.length = len
  publicKey : ∀ seed, (C.mlkemGenerate seed).1.length = mlkem768PkSize
  secretKey : ∀ seed, (C.mlkemGenerate seed).2.length = mlkem768SkSize
  ciphertext : ∀ pk seed enc, C.mlkemEncapsulate pk seed = some enc →
    enc.1.length = mlkem768CtSize

def Crypto.HkdfTotal (C : Crypto) : Prop :=
  ∀ salt ikm info len, len ≤ 255 * 32 → ∃ out, C.hkdfDeriveKey salt ikm info len = .ok out

/-- Which function a value came out of. -/
inductive Crypto.Source where
  | messageKey
  | nextChain
  | root
  | chain
  | hkdf
  | other
deriving DecidableEq

/-- Key derivation of an ideal world: each output determines its input and the function it
came out of, and none is the empty key. -/
structure Crypto.FreeKdf (C : Crypto) : Prop where
  ckKey : ∀ {a b k n n'}, C.kdfCk a = .ok (k, n) → C.kdfCk b = .ok (k, n') → a = b
  ckNext : ∀ {a b k k' n}, C.kdfCk a = .ok (k, n) → C.kdfCk b = .ok (k', n) → a = b
  rkRoot : ∀ {r r' d d' x c c'}, C.kdfRk r d = .ok (x, c) → C.kdfRk r' d' = .ok (x, c') →
    r = r' ∧ d = d'
  rkChain : ∀ {r r' d d' x x' c}, C.kdfRk r d = .ok (x, c) → C.kdfRk r' d' = .ok (x', c) →
    r = r' ∧ d = d'
  hkdf : ∀ {salt salt' ikm ikm' info info' len len' out},
    C.hkdfDeriveKey salt ikm info len = .ok out → C.hkdfDeriveKey salt' ikm' info' len' = .ok out →
    salt = salt' ∧ ikm = ikm' ∧ info = info'
  disjoint : ∃ source : Bytes → Source,
    (∀ c k n, C.kdfCk c = .ok (k, n) → source k = .messageKey ∧ source n = .nextChain) ∧
    (∀ r d x c, C.kdfRk r d = .ok (x, c) → source x = .root ∧ source c = .chain) ∧
    (∀ salt ikm info len out, C.hkdfDeriveKey salt ikm info len = .ok out → source out = .hkdf) ∧
    source defaultAeadKey = .other

/-- A private key and its public key, as one of the two ways of making them gives them. -/
def Crypto.KeyPair (C : Crypto) (priv pub : Bytes) : Prop :=
  (∃ seed, C.generateKemKeys seed = .ok (priv, pub)) ∨ C.fromPrivateKeyToPublicKey priv = .ok pub

/-- Primitives that work: Diffie-Hellman commutes, keys can be drawn and derived, and the AEAD
opens what it sealed. -/
structure Crypto.Reliable (C : Crypto) : Prop where
  dh : ∀ {p P q Q}, C.KeyPair p P → C.KeyPair q Q →
    ∃ z, C.kemDecapsulate p Q = .ok z ∧ C.kemDecapsulate q P = .ok z
  keys : ∀ seed, ∃ priv pub, C.generateKemKeys seed = .ok (priv, pub)
  ck : ∀ chain, ∃ key next, C.kdfCk chain = .ok (key, next)
  rk : ∀ root dh, ∃ root' chain, C.kdfRk root dh = .ok (root', chain)
  opens : ∀ {key nonce plaintext ad ciphertext},
    C.aeadEncrypt key nonce plaintext ad = .ok ciphertext →
    C.aeadDecrypt key nonce ciphertext ad = .ok plaintext

def Crypto.Authentic (C : Crypto) : Prop :=
  ∀ {key nonce plaintext ad ciphertext key' nonce' ad' out},
    C.aeadEncrypt key nonce plaintext (some ad) = .ok ciphertext →
    C.aeadDecrypt key' nonce' ciphertext (some ad') = .ok out →
    key' = key ∧ nonce' = nonce ∧ ad' = ad

/-! ## What an operation finds when it runs -/

/-- The clock and the random draws of one operation. Each operation that reads the
clock more than once reads one value here. -/
structure Env where
  now : Nat
  dhSeed : Seed
  nonceSeed : Seed
  kemSeed : Seed
  encapSeed : Seed
deriving DecidableEq, Repr

end ConstructCore
