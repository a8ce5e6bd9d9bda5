/-! # The SHA-2 digests

A message is padded to whole blocks of sixteen words, and every block is mixed into eight working
words, in one round for each constant.  The digests of the family differ in the width of their
words and in what a `Variant` says.

The message schedule is a window of sixteen words that slides by one word in each round. -/

namespace CommandBus.Bytes.Sha2

/-- Words of a fixed width, whose arithmetic wraps; `ofNat` takes the lowest bits of a number. -/
class Word (W : Type) extends
    Add W, AndOp W, OrOp W, XorOp W, Complement W, ShiftLeft W, ShiftRight W where
  bits : Nat
  ofNat : Nat → W
  toNat : W → Nat

/-- The eight words that the rounds work on. -/
structure Words (W : Type) where
  a : W
  b : W
  c : W
  d : W
  e : W
  f : W
  g : W
  h : W
  deriving DecidableEq, Repr

/-- What one digest has of its own. -/
structure Variant (W : Type) where
  /-- The words before the first block. -/
  initial : Words W
  /-- The constants of the rounds. -/
  constants : List W
  bigSigma0 : W → W
  bigSigma1 : W → W
  smallSigma0 : W → W
  smallSigma1 : W → W

/-- The parts of a list that have `size` elements each, where its length is a multiple of it. -/
def parts {α : Type} (size : Nat) (xs : List α) : List (List α) :=
  xs.foldr (fun x parts =>
    match parts with
    | [] => [[x]]
    | part :: rest => if part.length < size then (x :: part) :: rest else [x] :: part :: rest) []

section Words

variable {W : Type} [Word W]

def rotateRight (x : W) (n : Nat) : W :=
  (x >>> Word.ofNat n) ||| (x <<< Word.ofNat (Word.bits W - n))

def choose (x y z : W) : W := (x &&& y) ^^^ (~~~x &&& z)

def majority (x y z : W) : W := (x &&& y) ^^^ (x &&& z) ^^^ (y &&& z)

/-- The word of bytes, the most significant byte first. -/
def wordOf (bytes : List UInt8) : W :=
  Word.ofNat (bytes.foldl (fun n b => n * 256 + b.toNat) 0)

/-- The bytes of a word, the most significant one first. -/
def bytesOf (w : W) : List UInt8 :=
  (List.range (Word.bits W / 8)).reverse.map fun i => UInt8.ofNat (Word.toNat w >>> (8 * i))

end Words

namespace Variant

variable {W : Type} [Word W] (v : Variant W)

/-- One round with its constant and its word of the schedule. -/
def round (ws : Words W) (k w : W) : Words W :=
  let t₁ := ws.h + v.bigSigma1 ws.e + choose ws.e ws.f ws.g + k + w
  let t₂ := v.bigSigma0 ws.a + majority ws.a ws.b ws.c
  ⟨t₁ + t₂, ws.a, ws.b, ws.c, ws.d + t₁, ws.e, ws.f, ws.g⟩

/-- The window of the schedule one word further. -/
def slide : List W → List W
  | [] => []
  | w :: rest =>
    let zero := Word.ofNat 0
    rest ++ [v.smallSigma1 (rest.getD 13 zero) + rest.getD 8 zero
      + v.smallSigma0 (rest.getD 0 zero) + w]

/-- The rounds of the given constants. -/
def rounds : (ks : List W) → (window : List W) → Words W → Words W
  | [], _, ws => ws
  | k :: ks, window, ws =>
    rounds ks (v.slide window) (v.round ws k (window.headD (Word.ofNat 0)))

/-- Mix a block into the words. -/
def compress (ws : Words W) (block : List W) : Words W :=
  let r := v.rounds v.constants block ws
  ⟨ws.a + r.a, ws.b + r.b, ws.c + r.c, ws.d + r.d, ws.e + r.e, ws.f + r.f, ws.g + r.g, ws.h + r.h⟩

/-- A message with a one bit, zeros, and its length in bits as the last two words. -/
def padded (W : Type) [Word W] (message : List UInt8) : List UInt8 :=
  let width := Word.bits W
  -- a block has sixteen words; one byte is for the bit and two words are for the length
  let block := 2 * width
  let zeros := (2 * block - (width / 4 + 1) - message.length % block) % block
  let bits := message.length * 8
  message ++ 0x80 :: List.replicate zeros 0 ++ bytesOf (Word.ofNat (bits >>> width) : W)
    ++ bytesOf (Word.ofNat bits : W)

/-- The digest of a message. -/
def digest (message : List UInt8) : List UInt8 :=
  let words := (parts (Word.bits W / 8) (padded W message)).map wordOf
  let ws := (parts 16 words).foldl v.compress v.initial
  [ws.a, ws.b, ws.c, ws.d, ws.e, ws.f, ws.g, ws.h].flatMap bytesOf

end Variant

end CommandBus.Bytes.Sha2
