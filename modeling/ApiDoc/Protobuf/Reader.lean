import ApiDoc.Protobuf.Writer

/-!
Reading Protocol Buffers messages.

A message is read field by field until its bytes end. A document is read from its fields: those that
are not repeated have to stand in their message exactly once, and texts have to be well-formed UTF-8.
-/

namespace ApiDoc

namespace Protobuf

def readVarint : Bytes → Option (Nat × Bytes)
  | [] => none
  | byte :: rest =>
      if byte.toNat < 128 then some (byte.toNat, rest)
      else (readVarint rest).map fun (high, rest) => (byte.toNat - 128 + 128 * high, rest)

def readPayload (wireType : Nat) (bytes : Bytes) : Option (Payload × Bytes) :=
  match wireType with
  | 0 => (readVarint bytes).map fun (value, rest) => (.number value, rest)
  | 2 =>
      (readVarint bytes).bind fun (length, rest) =>
        if length ≤ rest.length then some (.bytes (rest.take length), rest.drop length) else none
  | _ => none

def readField (bytes : Bytes) : Option (Field × Bytes) :=
  (readVarint bytes).bind fun (key, rest) =>
    (readPayload (key % 8) rest).map fun (payload, rest) => (⟨key / 8, payload⟩, rest)

theorem length_of_readVarint {bytes rest : Bytes} {value : Nat}
    (found : readVarint bytes = some (value, rest)) : rest.length < bytes.length := by
  induction bytes generalizing value with
  | nil => simp [readVarint] at found
  | cons byte bytes ih =>
      simp only [readVarint] at found
      split at found
      · simp only [Option.some.injEq, Prod.mk.injEq] at found
        simp [found.2]
      · simp only [Option.map_eq_some_iff, Prod.mk.injEq, Prod.exists] at found
        obtain ⟨high, after, inner, _, rfl⟩ := found
        have shorter := ih inner
        simp only [List.length_cons]
        omega

theorem length_of_readPayload {bytes rest : Bytes} {wireType : Nat} {payload : Payload}
    (found : readPayload wireType bytes = some (payload, rest)) : rest.length < bytes.length := by
  unfold readPayload at found
  split at found
  · simp only [Option.map_eq_some_iff, Prod.mk.injEq, Prod.exists] at found
    obtain ⟨value, after, inner, _, rfl⟩ := found
    exact length_of_readVarint inner
  · simp only [Option.bind_eq_some_iff, Prod.exists] at found
    obtain ⟨length, after, inner, taken⟩ := found
    have shorter := length_of_readVarint inner
    split at taken
    · simp only [Option.some.injEq, Prod.mk.injEq] at taken
      rw [← taken.2, List.length_drop]
      omega
    · simp at taken
  · simp at found

theorem length_of_readField {bytes rest : Bytes} {field : Field}
    (found : readField bytes = some (field, rest)) : rest.length < bytes.length := by
  simp only [readField, Option.bind_eq_some_iff, Option.map_eq_some_iff, Prod.mk.injEq,
    Prod.exists] at found
  obtain ⟨key, middle, keyed, payload, after, filled, _, rfl⟩ := found
  have first := length_of_readVarint keyed
  have second := length_of_readPayload filled
  omega

def readMessage : Bytes → Option Message
  | [] => some []
  | byte :: bytes =>
      match _found : readField (byte :: bytes) with
      | none => none
      | some (field, rest) => (readMessage rest).map (field :: ·)
  termination_by bytes => bytes.length
  decreasing_by exact length_of_readField (by assumption)

namespace Message

/-- The payload of the field with a number, which has to stand in the message exactly once. -/
def required? (message : Message) (number : Nat) : Option Payload :=
  match message.filter fun field => field.number = number with
  | [field] => some field.payload
  | _ => none

def repeated (message : Message) (number : Nat) : List Payload :=
  (message.filter fun field => field.number = number).map Field.payload

end Message

def Payload.text? : Payload → Option Text
  | .bytes content => Utf8.decode? content
  | .number _ => none

def Payload.message? : Payload → Option Message
  | .bytes content => readMessage content
  | .number _ => none

def Payload.kind? : Payload → Option Kind
  | .number 0 => some .function
  | .number 1 => some .variable
  | _ => none

def toParameter? (message : Message) : Option Parameter := do
  let name ← (← message.required? 1).text?
  let doc ← (← message.required? 2).text?
  return ⟨name, doc⟩

def toElement? (message : Message) : Option Element := do
  let kind ← (← message.required? 1).kind?
  let name ← (← message.required? 2).text?
  let description ← (← message.required? 3).text?
  let result ← (← message.required? 4).text?
  let parameters ← (message.repeated 5).mapM fun payload => payload.message?.bind toParameter?
  return ⟨kind, name, description, result, parameters⟩

def toDocument? (message : Message) : Option Document := do
  let elements ← (message.repeated 1).mapM fun payload => payload.message?.bind toElement?
  return ⟨elements⟩

def decode? (bytes : Bytes) : Option Document :=
  (readMessage bytes).bind toDocument?

end Protobuf

end ApiDoc
