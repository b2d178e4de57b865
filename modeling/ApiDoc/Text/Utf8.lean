import ApiDoc.Text

/-!
UTF-8.

The encoder writes each character in one to four bytes. The decoder is a state that one byte at a
time turns into the next: it is either between two characters or inside one, and inside it knows
which bytes may follow. A byte that may not follow closes the sequence before it as one ill-formed
piece and is then read afresh, so an ill-formed piece is always a longest beginning of a character
and never takes up a byte below 0x80.
-/

namespace ApiDoc

namespace Utf8

def encodeChar (char : Char) : Bytes :=
  let code := char.toNat
  if code < 0x80 then [UInt8.ofNat code]
  else if code < 0x800 then
    [UInt8.ofNat (0xC0 + code / 64), UInt8.ofNat (0x80 + code % 64)]
  else if code < 0x10000 then
    [UInt8.ofNat (0xE0 + code / 4096), UInt8.ofNat (0x80 + code / 64 % 64),
      UInt8.ofNat (0x80 + code % 64)]
  else
    [UInt8.ofNat (0xF0 + code / 262144), UInt8.ofNat (0x80 + code / 4096 % 64),
      UInt8.ofNat (0x80 + code / 64 % 64), UInt8.ofNat (0x80 + code % 64)]

def encode (text : Text) : Bytes :=
  text.flatMap encodeChar

inductive State
  | ready
  /-- Inside a character: its value so far, the least and the greatest byte that may come next, and
  how many bytes come after that one. -/
  | inside (value least greatest more : Nat)
  deriving DecidableEq, Repr

/-- A decoded piece: a character, or `none` for an ill-formed sequence. -/
abbrev Piece := Option Char

/-- Read the first byte of a character. Sequences that would spell a character in more bytes than it
needs, a surrogate, or a value beyond U+10FFFF are cut off by the range of the second byte. -/
def start (byte : Nat) : List Piece × State :=
  if byte < 0x80 then ([some (Char.ofNat byte)], .ready)
  else if byte < 0xC2 then ([none], .ready)
  else if byte < 0xE0 then ([], .inside (byte - 0xC0) 0x80 0xBF 0)
  else if byte = 0xE0 then ([], .inside 0 0xA0 0xBF 1)
  else if byte = 0xED then ([], .inside 0xD 0x80 0x9F 1)
  else if byte < 0xF0 then ([], .inside (byte - 0xE0) 0x80 0xBF 1)
  else if byte = 0xF0 then ([], .inside 0 0x90 0xBF 2)
  else if byte < 0xF4 then ([], .inside (byte - 0xF0) 0x80 0xBF 2)
  else if byte = 0xF4 then ([], .inside 4 0x80 0x8F 2)
  else ([none], .ready)

def State.step (state : State) (byte : Nat) : List Piece × State :=
  match state with
  | .ready => start byte
  | .inside value least greatest more =>
      if least ≤ byte ∧ byte ≤ greatest then
        let value := value * 64 + (byte - 0x80)
        match more with
        | 0 => ([some (Char.ofNat value)], .ready)
        | more + 1 => ([], .inside value 0x80 0xBF more)
      else
        (none :: (start byte).1, (start byte).2)

def State.finish : State → List Piece
  | .ready => []
  | .inside .. => [none]

def piecesFrom : State → Bytes → List Piece
  | state, [] => state.finish
  | state, byte :: rest =>
      let (done, next) := state.step byte.toNat
      done ++ piecesFrom next rest

def pieces (bytes : Bytes) : List Piece :=
  piecesFrom .ready bytes

def replacement : Char := '\uFFFD'

def decodeLossy (bytes : Bytes) : Text :=
  (pieces bytes).map fun piece => piece.getD replacement

def decode? (bytes : Bytes) : Option Text :=
  (pieces bytes).mapM id

end Utf8

end ApiDoc
