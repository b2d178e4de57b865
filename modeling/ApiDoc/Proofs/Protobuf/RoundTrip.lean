import ApiDoc.Proofs.Text.Utf8
import ApiDoc.Protobuf.Reader

/-!
Nothing is lost in a Protocol Buffers message.

Each part of a message is read back from its bytes whatever follows them, so a length that is written
before some bytes covers exactly these. From numbers to payloads, fields and messages this carries
over to documents.
-/

namespace ApiDoc

namespace Protobuf

theorem readVarint_varint (value : Nat) (rest : Bytes) :
    readVarint (varint value ++ rest) = some (value, rest) := by
  induction value using Nat.strongRecOn with
  | ind value ih =>
      rw [varint]
      split
      · next last =>
          rw [List.singleton_append, readVarint, Utf8.toNat_ofNat_of_lt (by omega), if_pos last]
      · next more =>
          have tail := ih (value / 128) (by omega)
          have whole : value % 128 + 128 - 128 + 128 * (value / 128) = value := by omega
          rw [List.cons_append, readVarint, Utf8.toNat_ofNat_of_lt (by omega),
            if_neg (by omega), tail, Option.map_some]
          simp only [whole]

theorem readPayload_encode (payload : Payload) (rest : Bytes) :
    readPayload payload.wireType (payload.encode ++ rest) = some (payload, rest) := by
  cases payload with
  | number value =>
      simp only [Payload.wireType, Payload.encode, readPayload, readVarint_varint,
        Option.map_some]
  | bytes content =>
      simp only [Payload.wireType, Payload.encode, readPayload, List.append_assoc,
        readVarint_varint, Option.bind_some]
      rw [if_pos (by simp), List.take_left, List.drop_left]

theorem wireType_lt (payload : Payload) : payload.wireType < 8 := by
  cases payload <;> simp [Payload.wireType]

theorem readField_encode (field : Field) (rest : Bytes) :
    readField (field.encode ++ rest) = some (field, rest) := by
  have small := wireType_lt field.payload
  have kind : (field.number * 8 + field.payload.wireType) % 8 = field.payload.wireType := by omega
  have number : (field.number * 8 + field.payload.wireType) / 8 = field.number := by omega
  rw [readField, Field.encode, List.append_assoc, readVarint_varint, Option.bind_some]
  simp only
  rw [kind, number, readPayload_encode, Option.map_some]

theorem readMessage_of_readField {bytes rest : Bytes} {field : Field}
    (found : readField bytes = some (field, rest)) :
    readMessage bytes = (readMessage rest).map (field :: ·) := by
  cases bytes with
  | nil => simp [readField, readVarint] at found
  | cons byte bytes =>
      rw [readMessage]
      split
      · simp_all
      · simp_all

theorem readMessage_encode (message : Message) : readMessage message.encode = some message := by
  induction message with
  | nil => rw [Message.encode, List.flatMap_nil, readMessage]
  | cons field message ih =>
      have first : readField (Message.encode (field :: message)) =
          some (field, Message.encode message) := by
        rw [Message.encode, List.flatMap_cons, readField_encode]
        rfl
      rw [readMessage_of_readField first, ih, Option.map_some]

theorem text?_textField (number : Nat) (content : Text) :
    (textField number content).payload.text? = some content :=
  Utf8.decode?_encode content

theorem message?_messageField (number : Nat) (message : Message) :
    (messageField number message).payload.message? = some message :=
  readMessage_encode message

theorem kind?_kindNumber (kind : Kind) : (Payload.number (kindNumber kind)).kind? = some kind := by
  cases kind <;> rfl

theorem toParameter?_ofParameter (parameter : Parameter) :
    toParameter? (ofParameter parameter) = some parameter := by
  have name : (ofParameter parameter).required? 1 =
      some (textField 1 parameter.name).payload := rfl
  have doc : (ofParameter parameter).required? 2 = some (textField 2 parameter.doc).payload := rfl
  simp [toParameter?, name, doc, text?_textField]

theorem filter_number_eq_nil {message : Message} {number : Nat}
    (others : ∀ field ∈ message, field.number ≠ number) :
    message.filter (fun field => field.number = number) = [] := by
  rw [List.filter_eq_nil_iff]
  intro field member
  simpa using others field member

theorem required?_append {first second : Message} {number : Nat}
    (others : ∀ field ∈ second, field.number ≠ number) :
    Message.required? (first ++ second) number = Message.required? first number := by
  rw [Message.required?, Message.required?, List.filter_append, filter_number_eq_nil others,
    List.append_nil]

theorem repeated_append {first second : Message} {number : Nat}
    (others : ∀ field ∈ first, field.number ≠ number) :
    Message.repeated (first ++ second) number = Message.repeated second number := by
  rw [Message.repeated, Message.repeated, List.filter_append, filter_number_eq_nil others,
    List.nil_append]

theorem mapM_repeated_messageFields {α : Type} {write : α → Message} {read : Message → Option α}
    (inverse : ∀ item, read (write item) = some item) (number : Nat) (items : List α) :
    (Message.repeated (items.map fun item => messageField number (write item)) number).mapM
      (fun payload => payload.message?.bind read) = some items := by
  have every : (items.map fun item => messageField number (write item)).filter
      (fun field => field.number = number) =
        items.map fun item => messageField number (write item) := by
    rw [List.filter_eq_self, List.forall_mem_map]
    intro item _
    simp [messageField]
  rw [Message.repeated, every, List.map_map]
  apply mapM_map_of_inverse
  intro item
  rw [Function.comp_apply, message?_messageField, Option.bind_some, inverse]

theorem toElement?_ofElement (element : Element) :
    toElement? (ofElement element) = some element := by
  have parameterField : ∀ field ∈ element.parameters.map fun parameter =>
      messageField 5 (ofParameter parameter), field.number = 5 := by
    rw [List.forall_mem_map]
    exact fun _ _ => rfl
  have required : ∀ number, number ≠ 5 → (ofElement element).required? number =
      Message.required? [⟨1, .number (kindNumber element.kind)⟩, textField 2 element.name,
        textField 3 element.description, textField 4 element.result] number := by
    intro number other
    apply required?_append
    intro field member
    rw [parameterField field member]
    exact other.symm
  have repeated : (ofElement element).repeated 5 = Message.repeated
      (element.parameters.map fun parameter => messageField 5 (ofParameter parameter)) 5 := by
    apply repeated_append
    simp [textField]
  have kind : (ofElement element).required? 1 = some (.number (kindNumber element.kind)) :=
    required 1 (by decide)
  have name : (ofElement element).required? 2 = some (textField 2 element.name).payload :=
    required 2 (by decide)
  have description : (ofElement element).required? 3 =
      some (textField 3 element.description).payload := required 3 (by decide)
  have result : (ofElement element).required? 4 = some (textField 4 element.result).payload :=
    required 4 (by decide)
  simp [toElement?, kind, name, description, result, repeated, kind?_kindNumber, text?_textField,
    mapM_repeated_messageFields toParameter?_ofParameter]

theorem toDocument?_ofDocument (document : Document) :
    toDocument? (ofDocument document) = some document := by
  rw [toDocument?, ofDocument, mapM_repeated_messageFields toElement?_ofElement]
  rfl

/-- A document is read back from its bytes, so different documents have different bytes. -/
theorem encode_lossless :
    (∀ document, decode? (encode document) = some document) ∧
      ∀ first second, encode first = encode second ↔ first = second := by
  have readBack : ∀ document, decode? (encode document) = some document := by
    intro document
    rw [decode?, encode, readMessage_encode, Option.bind_some, toDocument?_ofDocument]
  refine ⟨readBack, ?_⟩
  intro first second
  constructor
  · intro same
    have read := readBack first
    rw [same, readBack second] at read
    exact (Option.some.inj read).symm
  · rintro rfl
    rfl

end Protobuf

end ApiDoc
