import ApiDoc.Json.Writer

/-!
Reading JSON.

The reader accepts exactly the texts of RFC 8259: one value with white space around it. Raw control
characters in a string, a surrogate without its other half and anything behind the value are refused.
-/

namespace ApiDoc

namespace Json

def isSpace (char : Char) : Bool :=
  char = ' ' || char = '\t' || char = '\n' || char = '\r'

def skip (text : Text) : Text :=
  text.dropWhile isSpace

def hexValue? (char : Char) : Option Nat :=
  if '0' ≤ char ∧ char ≤ '9' then some (char.toNat - 48)
  else if 'a' ≤ char ∧ char ≤ 'f' then some (char.toNat - 87)
  else if 'A' ≤ char ∧ char ≤ 'F' then some (char.toNat - 55)
  else none

def unit? (first second third fourth : Char) : Option Nat := do
  let a ← hexValue? first
  let b ← hexValue? second
  let c ← hexValue? third
  let d ← hexValue? fourth
  return ((a * 16 + b) * 16 + c) * 16 + d

def unescape? (letter : Char) : Option Char :=
  if letter = '"' then some '"'
  else if letter = '\\' then some '\\'
  else if letter = '/' then some '/'
  else if letter = 'b' then some '\x08'
  else if letter = 'f' then some '\x0c'
  else if letter = 'n' then some '\n'
  else if letter = 'r' then some '\r'
  else if letter = 't' then some '\t'
  else none

def content? : Text → Option (Text × Text)
  | [] => none
  | '"' :: rest => some ([], rest)
  | '\\' :: 'u' :: a :: b :: c :: d :: rest =>
      match unit? a b c d with
      | none => none
      | some unit =>
          if 0xDC00 ≤ unit ∧ unit < 0xE000 then none
          else if 0xD800 ≤ unit ∧ unit < 0xDC00 then
            match rest with
            | '\\' :: 'u' :: e :: f :: g :: h :: rest =>
                match unit? e f g h with
                | none => none
                | some low =>
                    if 0xDC00 ≤ low ∧ low < 0xE000 then
                      let char := Char.ofNat (0x10000 + (unit - 0xD800) * 0x400 + (low - 0xDC00))
                      (content? rest).map fun (content, rest) => (char :: content, rest)
                    else none
            | _ => none
          else (content? rest).map fun (content, rest) => (Char.ofNat unit :: content, rest)
  | '\\' :: letter :: rest =>
      match unescape? letter with
      | some char => (content? rest).map fun (content, rest) => (char :: content, rest)
      | none => none
  | char :: rest =>
      if char.toNat < 0x20 ∨ char = '\\' then none
      else (content? rest).map fun (content, rest) => (char :: content, rest)

def digits? (text : Text) : Option (Text × Text) :=
  match text.takeWhile Char.isDigit with
  | [] => none
  | digits => some (digits, text.dropWhile Char.isDigit)

def whole? (text : Text) : Option (Text × Text) :=
  match text with
  | '0' :: rest => some (['0'], rest)
  | text => digits? text

def fraction? (text : Text) : Option (Text × Text) :=
  match text with
  | '.' :: rest => (digits? rest).map fun (digits, rest) => ('.' :: digits, rest)
  | text => some ([], text)

def exponent? (text : Text) : Option (Text × Text) :=
  match text with
  | mark :: rest =>
      if mark = 'e' ∨ mark = 'E' then
        match rest with
        | sign :: more =>
            if sign = '+' ∨ sign = '-' then
              (digits? more).map fun (digits, rest) => (mark :: sign :: digits, rest)
            else (digits? rest).map fun (digits, rest) => (mark :: digits, rest)
        | [] => none
      else some ([], text)
  | [] => some ([], [])

def number? (text : Text) : Option (Json × Text) := do
  let (sign, text) := match text with
    | '-' :: rest => (['-'], rest)
    | text => ([], text)
  let (whole, text) ← whole? text
  let (fraction, text) ← fraction? text
  let (exponent, text) ← exponent? text
  return (.number (sign ++ whole ++ fraction ++ exponent), text)

mutual

def value? : Nat → Text → Option (Json × Text)
  | 0, _ => none
  | depth + 1, text =>
      match text with
      | '"' :: rest => (content? rest).map fun (content, rest) => (.string content, rest)
      | '[' :: rest =>
          match skip rest with
          | ']' :: rest => some (.array [], rest)
          | rest => (items? depth rest).map fun (items, rest) => (.array items, rest)
      | '{' :: rest =>
          match skip rest with
          | '}' :: rest => some (.object [], rest)
          | rest => (members? depth rest).map fun (members, rest) => (.object members, rest)
      | 'n' :: 'u' :: 'l' :: 'l' :: rest => some (.null, rest)
      | 't' :: 'r' :: 'u' :: 'e' :: rest => some (.bool true, rest)
      | 'f' :: 'a' :: 'l' :: 's' :: 'e' :: rest => some (.bool false, rest)
      | text => number? text

def items? : Nat → Text → Option (List Json × Text)
  | 0, _ => none
  | depth + 1, text =>
      match value? depth text with
      | none => none
      | some (item, rest) =>
          match skip rest with
          | ']' :: rest => some ([item], rest)
          | ',' :: rest =>
              (items? depth (skip rest)).map fun (items, rest) => (item :: items, rest)
          | _ => none

def members? : Nat → Text → Option (List (Text × Json) × Text)
  | 0, _ => none
  | depth + 1, text =>
      match text with
      | '"' :: rest =>
          match content? rest with
          | none => none
          | some (name, rest) =>
              match skip rest with
              | ':' :: rest =>
                  match value? depth (skip rest) with
                  | none => none
                  | some (value, rest) =>
                      match skip rest with
                      | '}' :: rest => some ([(name, value)], rest)
                      | ',' :: rest =>
                          (members? depth (skip rest)).map fun (members, rest) =>
                            ((name, value) :: members, rest)
                      | _ => none
              | _ => none
      | _ => none

end

/-- Read a text that holds one value. No value is nested deeper, and no list longer, than its text. -/
def parse? (text : Text) : Option Json :=
  match value? (2 * text.length + 1) (skip text) with
  | some (value, rest) => if skip rest = [] then some value else none
  | none => none

def member? (name : Text) : Json → Option Json
  | .object members => (members.find? fun member => member.1 = name).map (·.2)
  | _ => none

def text? : Json → Option Text
  | .string content => some content
  | _ => none

def array? : Json → Option (List Json)
  | .array items => some items
  | _ => none

def kindOfName? (name : Text) : Option Kind :=
  if name = kindName .function then some .function
  else if name = kindName .variable then some .variable
  else none

def toParameter? (value : Json) : Option Parameter := do
  let name ← (← value.member? "name".toList).text?
  let doc ← (← value.member? "doc".toList).text?
  return ⟨name, doc⟩

def toElement? (value : Json) : Option Element := do
  let kind ← kindOfName? (← (← value.member? "type".toList).text?)
  let name ← (← value.member? "name".toList).text?
  let description ← (← value.member? "description".toList).text?
  let result ← (← value.member? "return".toList).text?
  let parameters ← (← (← value.member? "parameters".toList).array?).mapM toParameter?
  return ⟨kind, name, description, result, parameters⟩

def toDocument? (value : Json) : Option Document := do
  let elements ← (← (← value.member? "elements".toList).array?).mapM toElement?
  return ⟨elements⟩

def decode? (bytes : Bytes) : Option Document :=
  (Utf8.decode? bytes).bind fun text => (parse? text).bind toDocument?

end Json

end ApiDoc
