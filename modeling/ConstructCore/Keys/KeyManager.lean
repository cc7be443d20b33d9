import ConstructCore.Keys.KyberPrekeys

/-!
# The long-term keys of a device

The part of `crypto/keys.rs` a handshake reads: the identity key, the signed prekeys with their
history, the two pools of one-time prekeys, and the device's ML-KEM identity, which is derived
from its hybrid signature key.
-/

namespace ConstructCore

open Bytes

/-- `PrekeyStore`: the fields a handshake reads. -/
structure PrekeyStore where
  keyId : UInt32
  keyPair : Bytes × Bytes
deriving DecidableEq, Repr

/-- `KeyManager`, without the signing key. -/
structure KeyManager where
  /-- Private half first. -/
  identityKey : Option (Bytes × Bytes)
  currentSignedPrekey : Option PrekeyStore
  oldPrekeys : Table UInt32 PrekeyStore
  oneTimePrekeys : Table UInt32 (Bytes × Bytes)
  nextOtpkId : UInt32
  hybridSigPriv : Option Bytes
  kyberPrekeys : KyberPrekeyStore

/-- Why the key manager has no key to give. -/
inductive KeyError where
  | identityKey
  | kemIdentityNoHybridKey
  | kemIdentityHybridKeyTooShort
  | crypto (e : CryptoError)
  | mlkem (e : MlKem1024Error)
deriving DecidableEq, Repr

/-- The provider error inside the `ConstructError`. -/
def KeyError.cryptoError : KeyError → CryptoError
  | identityKey => .other "Identity key not initialized"
  | kemIdentityNoHybridKey => .other "KEM identity: no hybrid signature key to derive it from"
  | kemIdentityHybridKeyTooShort => .other "KEM identity: hybrid signature key too short"
  | crypto e => e
  | mlkem e => .other e.text

/-- The `Display` text of a `ConstructError`. -/
def KeyError.text (e : KeyError) : String := "Cryptography error: " ++ e.cryptoError.text

/-- The `Debug` text of a `ConstructError`. -/
def KeyError.debugText (e : KeyError) : String := "Crypto(" ++ (e.cryptoError.debugText ++ ")")

def ed25519SecretKeySize : Nat := 32

def mlDsa65SecretKeySize : Nat := 32

namespace KeyManager

def identitySecretKey (k : KeyManager) : Except KeyError Bytes :=
  (k.identityKey.map (·.1)).okOr .identityKey

def peekOneTimePrekey (k : KeyManager) (keyId : UInt32) : Option Bytes :=
  k.oneTimePrekeys[keyId]?.map (·.1)

def consumeOneTimePrekey (k : KeyManager) (keyId : UInt32) : KeyManager :=
  { k with oneTimePrekeys := k.oneTimePrekeys.erase keyId }

/-- `generate_one_time_prekeys`: one key for each draw; a failing draw keeps what is stored. -/
def generateOneTimePrekeys (S : Suite) : List Seed → KeyManager → KeyManager
  | [], k => k
  | draw :: draws, k =>
    match S.generateKemKeys draw with
    | .error _ => k
    | .ok pair => generateOneTimePrekeys S draws
        { k with
          oneTimePrekeys := k.oneTimePrekeys.insert k.nextOtpkId pair
          nextOtpkId := k.nextOtpkId + 1 }

def pruneOneTimePrekeysBelow (k : KeyManager) (minKeepId : UInt32) : KeyManager :=
  { k with oneTimePrekeys := k.oneTimePrekeys.filter fun id _ => decide (minKeepId ≤ id) }

/-- `all_prekey_private_keys`: the current one, then the old ones, newest first. -/
def allPrekeyPrivateKeys (k : KeyManager) : List Bytes :=
  (k.currentSignedPrekey.toList ++ (k.oldPrekeys.toList.map (·.2)).mergeSort
    fun p q => decide (q.keyId ≤ p.keyId)).map (·.keyPair.1)

def kemIdentitySeed (S : Suite) (k : KeyManager) : Except KeyError Bytes := do
  let hybrid ← k.hybridSigPriv.okOr .kemIdentityNoHybridKey
  if hybrid.length < ed25519SecretKeySize + mlDsa65SecretKeySize then
    .error .kemIdentityHybridKeyTooShort
  else
    let mldsaSeed := (hybrid.drop ed25519SecretKeySize).take mlDsa65SecretKeySize
    (S.hkdfDeriveKey [] mldsaSeed (ofText "Construct-KEM-identity-v1") mlkemSeedSize).mapError
      .crypto

def kemIdentityPublic (S : Suite) (k : KeyManager) : Except KeyError Bytes := do
  let seed ← k.kemIdentitySeed S
  (S.mlkem1024PublicFromSeed seed).mapError .mlkem

def kemIdentityDecapsulate (S : Suite) (k : KeyManager) (ciphertext : Bytes) :
    Except KeyError Bytes := do
  let seed ← k.kemIdentitySeed S
  (S.mlkem1024Decapsulate seed ciphertext).mapError .mlkem

end KeyManager

end ConstructCore
