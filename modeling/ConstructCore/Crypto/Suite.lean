import ConstructCore.Crypto.Instances
import ConstructCore.Trust.Certificate

/-!
# The handshake's primitives

What a device calls beside the ratchet's provider: the hash and the signatures of
`Trust.Signing`, and the ML-KEM-1024 crate behind the wrappers of `crypto/pq_x3dh.rs`. A
Kyber secret is its 64-byte seed.
-/

namespace ConstructCore

def mlkem1024PkSize : Nat := 1568

def mlkem1024CtSize : Nat := 1568

def mlkemSeedSize : Nat := 64

/-- What the ML-KEM-1024 wrappers refuse. -/
inductive MlKem1024Error where
  | seedSize (got : Nat)
  | publicKeySize (got : Nat)
  | publicKey
  | ciphertextSize (got : Nat)
  | decapsulation
deriving DecidableEq, Repr

def MlKem1024Error.text : MlKem1024Error → String
  | seedSize got => s!"Invalid ML-KEM seed size: expected {mlkemSeedSize}, got {got}"
  | publicKeySize got =>
    s!"Invalid ML-KEM-1024 public key size: expected {mlkem1024PkSize}, got {got}"
  | publicKey => "Invalid ML-KEM-1024 public key"
  | ciphertextSize got =>
    s!"Invalid ML-KEM-1024 ciphertext size: expected {mlkem1024CtSize}, got {got}"
  | decapsulation => "ML-KEM-1024 decapsulation failed (bad ciphertext size)"

/-- The provider, the hash, the signatures and the ML-KEM-1024 crate together. -/
structure Suite extends Crypto, Trust.Signing where
  /-- What the provider says of an Ed25519 signature that does not verify. -/
  ed25519Refusal : Bytes → Bytes → Bytes → CryptoError
  /-- The seed of a fresh key. -/
  mlkem1024Seed : Seed → Bytes
  /-- The public key a seed expands to. -/
  mlkem1024Expand : Bytes → Bytes
  /-- Ciphertext and shared secret; `none` when the crate refuses the public key. -/
  mlkem1024Encaps : Bytes → Seed → Option (Bytes × Bytes)
  /-- Shared secret of a seed and a ciphertext. -/
  mlkem1024Decaps : Bytes → Bytes → Option Bytes

namespace Suite

variable (S : Suite)

/-- `P::verify`: key, message and signature. -/
def verify (key message signature : Bytes) : Except CryptoError Unit :=
  if S.ed25519Verify key message signature then .ok ()
  else .error (S.ed25519Refusal key message signature)

/-- `mlkem1024_generate`: seed and public key. -/
def mlkem1024Generate (seed : Seed) : Bytes × Bytes :=
  (S.mlkem1024Seed seed, S.mlkem1024Expand (S.mlkem1024Seed seed))

def mlkem1024PublicFromSeed (seed : Bytes) : Except MlKem1024Error Bytes :=
  if seed.length ≠ mlkemSeedSize then .error (.seedSize seed.length)
  else .ok (S.mlkem1024Expand seed)

/-- `mlkem1024_encapsulate`: ciphertext and shared secret. -/
def mlkem1024Encapsulate (pk : Bytes) (seed : Seed) : Except MlKem1024Error (Bytes × Bytes) :=
  if pk.length ≠ mlkem1024PkSize then .error (.publicKeySize pk.length)
  else match S.mlkem1024Encaps pk seed with
    | some enc => .ok enc
    | none => .error .publicKey

/-- `mlkem1024_decapsulate`: the shared secret. -/
def mlkem1024Decapsulate (seed ct : Bytes) : Except MlKem1024Error Bytes :=
  if ct.length ≠ mlkem1024CtSize then .error (.ciphertextSize ct.length)
  else if seed.length ≠ mlkemSeedSize then .error (.seedSize seed.length)
  else match S.mlkem1024Decaps seed ct with
    | some secret => .ok secret
    | none => .error .decapsulation

end Suite

/-- Primitives with a handshake's: a digest is the start of what was hashed, a signature starts
as the key that verifies it, and ML-KEM-1024 works as the ratchet's. -/
def handshakeOn (C : Crypto) : Suite :=
  { C with
    sha256 := fun b => Vector.ofFn fun i => b.getD i.val 0
    ed25519Verify := fun key _ signature => signature.take 32 == key
    ed25519Refusal := fun _ _ _ => .signatureVerificationError "signature error"
    hybridVerify := fun key _ signature => signature.take 32 == key.take 32
    mlkem1024Seed := fun draw => Bytes.leBytes mlkemSeedSize draw
    mlkem1024Expand := fun seed => seed ++ List.replicate (mlkem1024PkSize - mlkemSeedSize) 0
    mlkem1024Encaps := fun pk draw =>
      some (Bytes.leBytes mlkem1024CtSize draw, seedKem pk (Bytes.leBytes mlkem1024CtSize draw))
    mlkem1024Decaps := fun seed ct => some (seedKem seed ct) }

def symbolicSuite : Suite := handshakeOn symbolicCrypto

def sizedSuite : Suite := handshakeOn sizedCrypto

end ConstructCore
