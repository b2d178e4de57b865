import ApiDoc.Text
import ApiDoc.Element
import ApiDoc.Text.Utf8

/-!
Documents as Protocol Buffers messages.

A message is a sequence of fields. Each field is written as a key, which holds its number and the
kind of its payload, and then the payload: a number, or a count of bytes and the bytes themselves.

A document holds its elements in field 1. An element holds its kind, name, description and result in
fields 1 to 4 and its parameters in field 5; a parameter holds its name and text in fields 1 and 2.
Fields are written in the order of their numbers, and those that are not repeated are always written.
-/

namespace ApiDoc

namespace Protobuf

/-- A number in base 128, least digit first. Every byte but the last has its high bit set. -/
def varint (value : Nat) : Bytes :=
  if value < 128 then [UInt8.ofNat value]
  else UInt8.ofNat (value % 128 + 128) :: varint (value / 128)

inductive Payload
  | number (value : Nat)
  | bytes (content : Bytes)
  deriving DecidableEq, Repr

structure Field where
  number : Nat
  payload : Payload
  deriving DecidableEq, Repr

abbrev Message := List Field

def Payload.wireType : Payload → Nat
  | .number _ => 0
  | .bytes _ => 2

def Payload.encode : Payload → Bytes
  | .number value => varint value
  | .bytes content => varint content.length ++ content

def Field.encode (field : Field) : Bytes :=
  varint (field.number * 8 + field.payload.wireType) ++ field.payload.encode

def Message.encode (message : Message) : Bytes :=
  message.flatMap Field.encode

def kindNumber : Kind → Nat
  | .function => 0
  | .variable => 1

def textField (number : Nat) (content : Text) : Field :=
  ⟨number, .bytes (Utf8.encode content)⟩

def messageField (number : Nat) (message : Message) : Field :=
  ⟨number, .bytes message.encode⟩

def ofParameter (parameter : Parameter) : Message :=
  [textField 1 parameter.name, textField 2 parameter.doc]

def ofElement (element : Element) : Message :=
  [⟨1, .number (kindNumber element.kind)⟩, textField 2 element.name,
    textField 3 element.description, textField 4 element.result] ++
    element.parameters.map fun parameter => messageField 5 (ofParameter parameter)

def ofDocument (document : Document) : Message :=
  document.elements.map fun element => messageField 1 (ofElement element)

def encode (document : Document) : Bytes :=
  (ofDocument document).encode

end Protobuf

end ApiDoc
