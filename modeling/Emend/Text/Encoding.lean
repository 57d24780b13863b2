/-!
# Text as bytes

Texts are stored as UTF-8. Bytes that come from elsewhere need not be, so decoding divides them
into pieces: characters, and runs of bytes that begin no character. A run ends before the first
byte that cannot go on with what the run began, so what follows a broken character is still read.
From the pieces one sees whether all is well, and reads as much as can be read.
-/

namespace Emend

/-- A piece of a sequence of bytes. -/
inductive Utf8Piece where
  /-- The bytes of a character. -/
  | char (c : Char)
  /-- This many bytes that are no character. -/
  | broken (count : Nat)
  deriving DecidableEq, Repr

/-- The character that stands for bytes that are none. -/
def replacementChar : Char := '\uFFFD'

namespace Utf8

/-- What a byte that begins a character of several bytes tells: how many bytes follow, the bounds of
the first of them, and the bits of the code point that it holds. -/
def lead? (byte : UInt8) : Option (Nat × Nat × Nat × Nat) :=
  let b := byte.toNat
  if 0xc2 ≤ b && b ≤ 0xdf then some (1, 0x80, 0xbf, b - 0xc0)
  else if b = 0xe0 then some (2, 0xa0, 0xbf, 0)
  -- What lies above would be the code points of surrogates.
  else if b = 0xed then some (2, 0x80, 0x9f, 0xd)
  else if 0xe1 ≤ b && b ≤ 0xef then some (2, 0x80, 0xbf, b - 0xe0)
  else if b = 0xf0 then some (3, 0x90, 0xbf, 0)
  else if 0xf1 ≤ b && b ≤ 0xf3 then some (3, 0x80, 0xbf, b - 0xf0)
  else if b = 0xf4 then some (3, 0x80, 0x8f, 4)
  else none

/-- Reads the `missing` bytes that complete a character of which `taken` bytes are read. The next of
them must lie between `low` and `high`, and any after it between `0x80` and `0xbf`. -/
def complete (low high : Nat) : (missing taken code : Nat) → List UInt8 → Utf8Piece × List UInt8
  | 0, _, code, rest => (.char (Char.ofNat code), rest)
  | _ + 1, taken, _, [] => (.broken taken, [])
  | missing + 1, taken, code, byte :: rest =>
    if low ≤ byte.toNat && byte.toNat ≤ high then
      complete 0x80 0xbf missing (taken + 1) (64 * code + byte.toNat % 64) rest
    else (.broken taken, byte :: rest)

/-- The first piece of bytes that begin with `byte`, and what follows it. -/
def firstPiece (byte : UInt8) (rest : List UInt8) : Utf8Piece × List UInt8 :=
  if byte.toNat < 0x80 then (.char (Char.ofNat byte.toNat), rest)
  else
    match lead? byte with
    | some (missing, low, high, bits) => complete low high missing 1 bits rest
    | none => (.broken 1, rest)

/-- Completing a character puts no bytes back. -/
theorem length_complete_le (low high missing taken code : Nat) (bytes : List UInt8) :
    (complete low high missing taken code bytes).2.length ≤ bytes.length := by
  fun_induction complete low high missing taken code bytes with
  | case1 => exact Nat.le_refl _
  | case2 => exact Nat.le_refl _
  | case3 _ _ _ _ _ _ _ _ ih => exact Nat.le_succ_of_le ih
  | case4 => exact Nat.le_refl _

/-- Taking the first piece puts no bytes back. -/
theorem length_firstPiece_le (byte : UInt8) (rest : List UInt8) :
    (firstPiece byte rest).2.length ≤ rest.length := by
  unfold firstPiece
  split
  · exact Nat.le_refl _
  · split
    · exact length_complete_le _ _ _ _ _ _
    · exact Nat.le_refl _

/-- The pieces of a sequence of bytes. -/
def pieces : List UInt8 → List Utf8Piece
  | [] => []
  | byte :: rest =>
    have := length_firstPiece_le byte rest
    (firstPiece byte rest).1 :: pieces (firstPiece byte rest).2
termination_by bytes => bytes.length

/-- The bytes of a text. -/
def encode (text : List Char) : List UInt8 :=
  text.flatMap String.utf8EncodeChar

/-- The character of a piece that is one. -/
def charOf? : Utf8Piece → Option Char
  | .char c => some c
  | .broken _ => none

/-- The text of a sequence of bytes, if all of them belong to characters. -/
def decode? (bytes : List UInt8) : Option (List Char) :=
  (pieces bytes).mapM charOf?

/-- The text of a sequence of bytes, with a replacement character for each run of bytes that is
none. -/
def decodeLossy (bytes : List UInt8) : List Char :=
  (pieces bytes).map fun piece => (charOf? piece).getD replacementChar

end Utf8

end Emend
