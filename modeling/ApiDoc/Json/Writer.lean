import ApiDoc.Text
import ApiDoc.Element
import ApiDoc.Text.Utf8

/-!
JSON values, documents as JSON, and how they are written.

A value is written over several lines: each item of a list and each member of an object has its own
line, indented by two spaces for each level, and an empty list or object is written on one line.
-/

namespace ApiDoc

inductive Json
  | null
  | bool (value : Bool)
  | number (spelling : Text)
  | string (content : Text)
  | array (items : List Json)
  | object (members : List (Text × Json))
  deriving Repr

namespace Json

def hexDigit (digit : Nat) : Char :=
  if digit < 10 then Char.ofNat (digit + 48) else Char.ofNat (digit + 87)

def escape (char : Char) : Text :=
  if char = '"' then "\\\"".toList
  else if char = '\\' then "\\\\".toList
  else if char = '\x08' then "\\b".toList
  else if char = '\x0c' then "\\f".toList
  else if char = '\n' then "\\n".toList
  else if char = '\r' then "\\r".toList
  else if char = '\t' then "\\t".toList
  else if char.toNat < 0x20 then
    "\\u00".toList ++ [hexDigit (char.toNat / 16), hexDigit (char.toNat % 16)]
  else [char]

def quote (content : Text) : Text :=
  '"' :: content.flatMap escape ++ ['"']

def newline (level : Nat) : Text :=
  '\n' :: List.replicate (2 * level) ' '

def enclose (opening closing : Char) (level : Nat) (parts : List Text) : Text :=
  match parts with
  | [] => [opening, closing]
  | parts =>
      opening :: [','].intercalate (parts.map (newline (level + 1) ++ ·)) ++
        newline level ++ [closing]

mutual

def render (level : Nat) : Json → Text
  | .null => "null".toList
  | .bool true => "true".toList
  | .bool false => "false".toList
  | .number spelling => spelling
  | .string content => quote content
  | .array items => enclose '[' ']' level (renderItems (level + 1) items)
  | .object members => enclose '{' '}' level (renderMembers (level + 1) members)

def renderItems (level : Nat) : List Json → List Text
  | [] => []
  | item :: rest => item.render level :: renderItems level rest

def renderMembers (level : Nat) : List (Text × Json) → List Text
  | [] => []
  | (name, value) :: rest =>
      (quote name ++ ": ".toList ++ value.render level) :: renderMembers level rest

end

def kindName : Kind → Text
  | .function => "function".toList
  | .variable => "variable".toList

def ofParameter (parameter : Parameter) : Json :=
  .object [("name".toList, .string parameter.name), ("doc".toList, .string parameter.doc)]

def ofElement (element : Element) : Json :=
  .object [("type".toList, .string (kindName element.kind)),
    ("name".toList, .string element.name),
    ("description".toList, .string element.description),
    ("return".toList, .string element.result),
    ("parameters".toList, .array (element.parameters.map ofParameter))]

def ofDocument (document : Document) : Json :=
  .object [("elements".toList, .array (document.elements.map ofElement))]

def write (document : Document) : Text :=
  (ofDocument document).render 0 ++ ['\n']

def encode (document : Document) : Bytes :=
  Utf8.encode (write document)

end Json

end ApiDoc
