import ApiDoc.Text.Utf8

/-!
Texts that steer a terminal.

A terminal takes control characters as orders, and an escape character as the beginning of a longer
order, a sequence. The plain form of a text is what is left to read when all orders are taken out.
Blanks stay, even one that breaks into a sequence; what follows such a blank stays too, up to the next
control character, where the sequence goes on.

The character behind the escape tells the sequences apart. A short one ends with a letter or digit, and one with
parameters ends with a letter. An order to the system around the terminal ends with a bell, and an order to a
device has a head that a letter ends, and data that a terminator ends.
-/

namespace ApiDoc

namespace Terminal

inductive Mode
  | text
  | escape
  | short
  | parameters
  | system
  | device
  | deviceParameters
  | devicePunctuation
  | data
  deriving DecidableEq, Repr

structure State where
  mode : Mode := .text
  broken : Bool := false
  deriving DecidableEq, Repr

def isControl (char : Char) : Bool :=
  decide (char.toNat < 0x20) || char = '\x7f'

def isSpacing (char : Char) : Bool :=
  char = '\t' || char = '\n' || char = '\x0c' || char = '\r'

def reset? (char : Char) : Option Mode :=
  if char = '\x1b' then some .escape
  else if char = '\x18' ∨ char = '\x1a' then some .text
  else none

def between (first last char : Char) : Bool :=
  decide (first ≤ char ∧ char ≤ last)

def Mode.ofEscape (char : Char) : Mode :=
  if char = '[' then .parameters
  else if char = ']' then .system
  else if char = 'P' then .device
  else if char = 'X' ∨ char = '^' ∨ char = '_' then .data
  else if between ' ' '/' char then .short
  else if between '0' '~' char then .text
  else .escape

def holdsTerminator (char : Char) : Bool :=
  (Utf8.encodeChar char).contains 0x9C

def Mode.next (mode : Mode) (char : Char) : Mode :=
  match mode with
  | .text => .text
  | .escape => .ofEscape char
  | .short => if between '0' '~' char then .text else .short
  | .parameters => if between '@' '~' char then .text else .parameters
  | .system => if char = '\x07' then .text else .system
  | .device =>
      if between '@' '~' char then .data
      else if between ' ' '/' char then .devicePunctuation
      else if between '0' '?' char then .deviceParameters
      else .device
  | .deviceParameters =>
      if between '<' '~' char then .data
      else if between ' ' '/' char then .devicePunctuation
      else .deviceParameters
  | .devicePunctuation => if between '0' '~' char then .data else .devicePunctuation
  | .data => if holdsTerminator char then .text else .data

def Mode.breaks : Mode → Bool
  | .escape | .short | .parameters => true
  | .text | .system | .device | .deviceParameters | .devicePunctuation | .data => false

/-- Read one character: whether it stays, and the state behind it. -/
def State.step (state : State) (char : Char) : Bool × State :=
  match reset? char with
  | some mode => (false, ⟨mode, false⟩)
  | none =>
      if state.mode = .text ∨ state.broken then
        if isSpacing char then (true, state)
        else if isControl char then (false, ⟨state.mode, false⟩)
        else if char.toNat < 0x80 then (true, state)
        else (true, {})
      else if isSpacing char ∧ state.mode.breaks then (true, ⟨state.mode, true⟩)
      else (false, ⟨state.mode.next char, false⟩)

def plainFrom : State → Text → Text
  | _, [] => []
  | state, char :: rest =>
      let (stays, next) := state.step char
      if stays then char :: plainFrom next rest else plainFrom next rest

def plain (text : Text) : Text :=
  plainFrom {} text

example : plain "a\x1b[1;31mb\x1b[0mc".toList = "abc".toList := by decide +kernel

example : plain "\x1b]0;title\x07t".toList = "t".toList := by decide +kernel

example : plain "\x1bP1;2?“t".toList = "t".toList := by decide +kernel

example : plain "\x1b[3\t1mq\x07m".toList = "\t1mq".toList := by decide +kernel

end Terminal

end ApiDoc
