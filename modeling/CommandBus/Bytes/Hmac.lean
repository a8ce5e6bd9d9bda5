import CommandBus.Bytes.Sha512

/-! # Keyed digests

The HMAC with SHA-512: the message is digested behind the key with one mask, and the result
behind the key with another.  A key longer than a block of 128 bytes is digested first. -/

namespace CommandBus.Bytes.Hmac

/-- The key with the length of a block. -/
def blockKey (key : List UInt8) : List UInt8 :=
  let key := if 128 < key.length then Sha512.digest key else key
  key ++ List.replicate (128 - key.length) 0

/-- The authentication code of a message under a key. -/
def sha512 (key message : List UInt8) : List UInt8 :=
  let key := blockKey key
  let inner := Sha512.digest (key.map (· ^^^ 0x36) ++ message)
  Sha512.digest (key.map (· ^^^ 0x5c) ++ inner)

end CommandBus.Bytes.Hmac
