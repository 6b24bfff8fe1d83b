import JointSpend.Hash.Sha256
import JointSpend.Hash.Ripemd160
import JointSpend.Text.Utf8

set_option autoImplicit false
set_option relaxedAutoImplicit false

/-!
# Digests built from SHA-256

## Main definitions

* `JointSpend.Hash.hash256` — SHA-256 twice.
* `JointSpend.Hash.hash160` — RIPEMD-160 of SHA-256.
* `JointSpend.Hash.tagged` — SHA-256 in the domain of a tag.
* `JointSpend.Hash.hmacSha256` — the keyed digest.
-/

namespace JointSpend.Hash

/-- SHA-256 twice. -/
def hash256 (message : Bytes) : Fixed 32 :=
  sha256 (sha256 message).bytes

/-- RIPEMD-160 of SHA-256. -/
def hash160 (message : Bytes) : Fixed 20 :=
  ripemd160 (sha256 message).bytes

/-- SHA-256 of the message behind the digest of the tag, written twice. -/
def tagged (tag : String) (message : Bytes) : Fixed 32 :=
  let t := (sha256 (Text.utf8 tag)).bytes
  sha256 (t ++ t ++ message)

/-- The keyed digest with SHA-256, for keys of at most 64 bytes. -/
def hmacSha256 (key message : Bytes) : Fixed 32 :=
  let k := (Fixed.ofPrefix 64 key).bytes
  let inner := sha256 (k.map (· ^^^ 0x36) ++ message)
  sha256 (k.map (· ^^^ 0x5c) ++ inner.bytes)

end JointSpend.Hash
