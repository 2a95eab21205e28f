import BoardRules.Digest.Hmac
import BoardRules.Text.Blank
import BoardRules.Text.Hex
import BoardRules.Text.Pieces
import BoardRules.Text.Utf8

/-!
# Signatures of deliveries

A delivery is signed with the keyed digest of its body, under a secret that both sides share. Every
text can be a secret.
-/
namespace BoardRules.Signature

open Text

/-- Names the digest in front of its digits. -/
def scheme : List Char := "sha256=".toList

def digest (secret : String) (body : List UInt8) : List UInt8 :=
  Digest.hmac (Utf8.encode secret.toList) body

def sign (secret : String) (body : List UInt8) : List Char :=
  scheme ++ Hex.encode (digest secret body)

/-- The digest that a signature spells. Blanks around it do not count. -/
def digest? (signature : List Char) : Option (List UInt8) := do
  Hex.decode? (← after? scheme (trim signature))

/-- Whether a delivery came with the signature of its body. -/
def verify (secret : String) (signature : Option (List Char)) (body : List UInt8) : Bool :=
  signature.bind digest? == some (digest secret body)

end BoardRules.Signature
