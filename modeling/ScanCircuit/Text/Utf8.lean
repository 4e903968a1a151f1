/-!
# UTF-8

A text is encoded character by character. Bytes are decoded one at a time: between
bytes the decoder knows how many bytes the character it is reading still needs, in
which range the next one must lie, and the bits collected so far. A byte outside that
range ends the character before it is complete and is then read afresh.

One decoder serves two readers: `decode?` refuses ill-formed bytes, and `decodeLossy`
puts the replacement character in the place of each ill-formed sequence.
-/

namespace ScanCircuit.Text.Utf8

/-- The bytes of a text. -/
def encode (text : String) : List UInt8 :=
  text.toList.flatMap String.utf8EncodeChar

/-- What the decoder finds in the bytes. -/
inductive Piece where
  | char (char : Char)
  | illFormed
  deriving DecidableEq, Repr

/-- A character of which some bytes are still missing. -/
structure Unfinished where
  /-- The number of missing bytes. -/
  missing : Nat
  /-- The least value of the next byte. -/
  low : Nat
  /-- The greatest value of the next byte. -/
  high : Nat
  /-- The bits collected so far. -/
  bits : Nat
  deriving DecidableEq, Repr

/-- Read a byte between characters. -/
def first (byte : UInt8) : List Piece × Option Unfinished :=
  let value := byte.toNat
  if value < 0x80 then ([.char (Char.ofNat value)], none)
  else if value < 0xC2 then ([.illFormed], none)
  else if value < 0xE0 then ([], some ⟨1, 0x80, 0xBF, value - 0xC0⟩)
  else if value = 0xE0 then ([], some ⟨2, 0xA0, 0xBF, 0⟩)
  else if value = 0xED then ([], some ⟨2, 0x80, 0x9F, 0xD⟩)
  else if value < 0xF0 then ([], some ⟨2, 0x80, 0xBF, value - 0xE0⟩)
  else if value = 0xF0 then ([], some ⟨3, 0x90, 0xBF, 0⟩)
  else if value < 0xF4 then ([], some ⟨3, 0x80, 0xBF, value - 0xF0⟩)
  else if value = 0xF4 then ([], some ⟨3, 0x80, 0x8F, 4⟩)
  else ([.illFormed], none)

/-- Read a byte inside a character. -/
def next (started : Unfinished) (byte : UInt8) : List Piece × Option Unfinished :=
  let value := byte.toNat
  if started.low ≤ value ∧ value ≤ started.high then
    let bits := started.bits * 64 + (value - 0x80)
    if started.missing ≤ 1 then ([.char (Char.ofNat bits)], none)
    else ([], some ⟨started.missing - 1, 0x80, 0xBF, bits⟩)
  else
    let (pieces, state) := first byte
    (.illFormed :: pieces, state)

/-- The pieces of the remaining bytes. -/
def piecesFrom (state : Option Unfinished) : List UInt8 → List Piece
  | [] => if state.isSome then [.illFormed] else []
  | byte :: rest =>
      let (pieces, state) := state.elim (first byte) (next · byte)
      pieces ++ piecesFrom state rest

/-- The pieces of a byte sequence. -/
def pieces (bytes : List UInt8) : List Piece :=
  piecesFrom none bytes

/-- The character of a piece, if it is one. -/
def Piece.char? : Piece → Option Char
  | .char found => some found
  | .illFormed => none

/-- The character that stands for a piece. -/
def Piece.shown : Piece → Char
  | .char found => found
  | .illFormed => '\uFFFD'

/-- The text of well-formed bytes. -/
def decode? (bytes : List UInt8) : Option String :=
  ((pieces bytes).mapM Piece.char?).map String.ofList

/-- The text of any bytes, with a replacement character for each ill-formed sequence. -/
def decodeLossy (bytes : List UInt8) : String :=
  String.ofList ((pieces bytes).map Piece.shown)

end ScanCircuit.Text.Utf8
