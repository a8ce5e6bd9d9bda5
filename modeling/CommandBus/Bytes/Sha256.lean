import CommandBus.Bytes.Sha512

/-! # SHA-256

The digest of 32 bytes, with words of 32 bits and sixty-four rounds.  Its constants are parts of
the same roots as those of SHA-512, with half of the bits. -/

namespace CommandBus.Bytes.Sha256

open Sha2

instance : Word UInt32 where
  bits := 32
  ofNat := UInt32.ofNat
  toNat := UInt32.toNat

/-- The upper half of a word. -/
def upper (w : UInt64) : UInt32 := (w >>> 32).toUInt32

/-- The words before the first block. -/
def initial : Words UInt32 :=
  let w := Sha512.initial
  ⟨upper w.a, upper w.b, upper w.c, upper w.d, upper w.e, upper w.f, upper w.g, upper w.h⟩

def variant : Variant UInt32 where
  initial := initial
  constants := (Sha512.constants.take 64).map upper
  bigSigma0 x := rotateRight x 2 ^^^ rotateRight x 13 ^^^ rotateRight x 22
  bigSigma1 x := rotateRight x 6 ^^^ rotateRight x 11 ^^^ rotateRight x 25
  smallSigma0 x := rotateRight x 7 ^^^ rotateRight x 18 ^^^ (x >>> 3)
  smallSigma1 x := rotateRight x 17 ^^^ rotateRight x 19 ^^^ (x >>> 10)

/-- The digest of a message. -/
def digest (message : List UInt8) : List UInt8 := variant.digest message

example : digest [0x61, 0x62, 0x63] =
    [0xba, 0x78, 0x16, 0xbf, 0x8f, 0x01, 0xcf, 0xea, 0x41, 0x41, 0x40, 0xde, 0x5d, 0xae, 0x22, 0x23,
      0xb0, 0x03, 0x61, 0xa3, 0x96, 0x17, 0x7a, 0x9c, 0xb4, 0x10, 0xff, 0x61, 0xf2, 0x00, 0x15,
      0xad] := by decide +kernel

end CommandBus.Bytes.Sha256
