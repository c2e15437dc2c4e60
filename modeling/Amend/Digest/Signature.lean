/-
# Amend.Digest.Signature: digests that need a secret

The signature of a message under a secret: the digest of the message behind the secret, and again the
digest of that behind the secret, with the secret mixed with a different byte each time. A secret
longer than a block is replaced by its digest.
-/
import Amend.Digest.Sha256

namespace Amend.Signature

/-- The size of a block. -/
def blockSize : Nat := 64

/-- A secret as exactly one block. -/
def block (secret : Bytes) : Bytes :=
  let key := if secret.length ≤ blockSize then secret else Sha256.digest secret
  key ++ List.replicate (blockSize - key.length) 0

/-- The signature of a message. -/
def sign (secret message : Bytes) : Bytes :=
  let key := block secret
  let inner := Sha256.digest (key.map (· ^^^ 0x36) ++ message)
  Sha256.digest (key.map (· ^^^ 0x5C) ++ inner)

end Amend.Signature
