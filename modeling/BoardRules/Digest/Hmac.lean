import BoardRules.Digest.Sha256

/-!
# Keyed digests

The digest of a message under a key: the key is mixed into the message twice, around two runs of
SHA-256.
-/
namespace BoardRules.Digest

namespace Hmac

def blockSize : Nat := 64

/-- A key of one block. A longer key is replaced by its digest. -/
def blockKey (key : List UInt8) : List UInt8 :=
  let short := if key.length ≤ blockSize then key else sha256 key
  short ++ List.replicate (blockSize - short.length) 0

def innerPad : UInt8 := 0x36

def outerPad : UInt8 := 0x5c

end Hmac

open Hmac

def hmac (key message : List UInt8) : List UInt8 :=
  let inner := sha256 ((blockKey key).map (· ^^^ innerPad) ++ message)
  sha256 ((blockKey key).map (· ^^^ outerPad) ++ inner)

theorem length_hmac (key message : List UInt8) : (hmac key message).length = 32 :=
  length_sha256 _

end BoardRules.Digest
