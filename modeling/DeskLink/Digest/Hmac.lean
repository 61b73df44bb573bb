import DeskLink.Digest.Sha256

/-!
# Keyed hashing

HMAC over SHA-256: the key, hashed first when it is longer than a block and padded with zeros to
one, is mixed into an inner and an outer hash with two different masks.
-/

namespace DeskLink.Hmac

def blockSize : Nat := 64

def blockKey (key : Bytes) : Bytes :=
  let short := if key.length > blockSize then Sha256.hash key else key
  short ++ List.replicate (blockSize - short.length) 0

/-- Every byte of the key under a mask. -/
def masked (key : Bytes) (mask : UInt8) : Bytes := key.map (· ^^^ mask)

/-- The authentication code of a message under a key: thirty-two bytes. -/
def code (key message : Bytes) : Bytes :=
  let key := blockKey key
  Sha256.hash (masked key 0x5c ++ Sha256.hash (masked key 0x36 ++ message))

@[simp] theorem length_code (key message : Bytes) : (code key message).length = 32 := by
  simp [code]

end DeskLink.Hmac
