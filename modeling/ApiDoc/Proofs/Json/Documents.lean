import ApiDoc.Proofs.Json.Literals

/-!
Nothing is lost in a JSON document.

The value of a document holds no number, so it is read back from its text, and the document from the
value. Since the text ends with a line break outside of all literals, the bytes below 0x20 are the line
breaks of the layout.
-/

namespace ApiDoc

namespace Json

theorem numberless_ofParameter (parameter : Parameter) : (ofParameter parameter).Numberless := by
  apply Numberless.object
  simp only [List.forall_mem_cons]
  exact ⟨.string _, .string _, List.forall_mem_nil _⟩

theorem numberless_ofElement (element : Element) : (ofElement element).Numberless := by
  have parameters : (array (element.parameters.map ofParameter)).Numberless := by
    apply Numberless.array
    rw [List.forall_mem_map]
    exact fun parameter _ => numberless_ofParameter parameter
  apply Numberless.object
  simp only [List.forall_mem_cons]
  exact ⟨.string _, .string _, .string _, .string _, parameters, List.forall_mem_nil _⟩

theorem numberless_ofDocument (document : Document) : (ofDocument document).Numberless := by
  have elements : (array (document.elements.map ofElement)).Numberless := by
    apply Numberless.array
    rw [List.forall_mem_map]
    exact fun element _ => numberless_ofElement element
  apply Numberless.object
  exact List.forall_mem_singleton.mpr elements

theorem kindOfName?_kindName (kind : Kind) : kindOfName? (kindName kind) = some kind := by
  cases kind <;> decide

theorem toParameter?_ofParameter (parameter : Parameter) :
    toParameter? (ofParameter parameter) = some parameter := by
  have name : (ofParameter parameter).member? "name".toList = some (.string parameter.name) := rfl
  have doc : (ofParameter parameter).member? "doc".toList = some (.string parameter.doc) := rfl
  simp only [toParameter?, name, doc, text?, bind, Option.bind_some, pure]

theorem toElement?_ofElement (element : Element) :
    toElement? (ofElement element) = some element := by
  have kind : (ofElement element).member? "type".toList =
      some (.string (kindName element.kind)) := rfl
  have name : (ofElement element).member? "name".toList = some (.string element.name) := rfl
  have description : (ofElement element).member? "description".toList =
      some (.string element.description) := rfl
  have result : (ofElement element).member? "return".toList = some (.string element.result) := rfl
  have parameters : (ofElement element).member? "parameters".toList =
      some (.array (element.parameters.map ofParameter)) := rfl
  simp only [toElement?, kind, name, description, result, parameters, text?, array?,
    kindOfName?_kindName, mapM_map_of_inverse toParameter?_ofParameter, bind, Option.bind_some, pure]

theorem toDocument?_ofDocument (document : Document) :
    toDocument? (ofDocument document) = some document := by
  have elements : (ofDocument document).member? "elements".toList =
      some (.array (document.elements.map ofElement)) := rfl
  simp only [toDocument?, elements, array?, mapM_map_of_inverse toElement?_ofElement, bind,
    Option.bind_some, pure]

theorem parse?_write_append (document : Document) (behind : Text) :
    parse? (write document ++ behind) =
      if skip behind = [] then some (ofDocument document) else none := by
  have ended : skip (['\n'] ++ behind) = skip behind := skip_newline_append 0 behind
  rw [write, List.append_assoc, (numberless_ofDocument document).parse?_render_append, ended]

theorem parse?_write (document : Document) : parse? (write document) = some (ofDocument document) := by
  have whole := parse?_write_append document []
  rwa [List.append_nil] at whole

theorem quiet_write (document : Document) : Quiet (write document) :=
  laid_quiet.write (fun word _ => quiet_quote word) fun text _ => quiet_quote text

/-- Whether every byte below 0x20 is a line feed outside of all literals. -/
def ControlsOutside (bytes : Bytes) : Prop :=
  ∀ before byte behind, bytes = before ++ byte :: behind → byte.toNat < 0x20 →
    byte = 0x0A ∧ Region.outside.after before = .outside

theorem controlsOutside_encode (document : Document) : ControlsOutside (encode document) := by
  intro before byte behind whole low
  have quiet : Leads .outside (encode document) .outside := quiet_write document
  rw [whole] at quiet
  exact quiet.control low

theorem decode?_encode (document : Document) : decode? (encode document) = some document := by
  rw [decode?, encode, Utf8.decode?_encode, Option.bind_some, parse?_write, Option.bind_some,
    toDocument?_ofDocument]

/-- The bytes of a document are the UTF-8 of a text that is read as one object with the elements, and as
nothing when more than spaces follow. The document is read back from them, so different documents have
different bytes, and their control bytes are the line breaks of the layout. -/
theorem encode_readable :
    (∀ document,
      Utf8.decode? (encode document) = some (write document) ∧
        (∀ behind, parse? (write document ++ behind) = if skip behind = [] then
          some (.object [("elements".toList, .array (document.elements.map ofElement))])
            else none) ∧
        decode? (encode document) = some document ∧
        ControlsOutside (encode document)) ∧
      ∀ first second, encode first = encode second ↔ first = second := by
  constructor
  · intro document
    exact ⟨Utf8.decode?_encode (write document), parse?_write_append document,
      decode?_encode document, controlsOutside_encode document⟩
  · intro first second
    constructor
    · intro same
      have read := decode?_encode first
      rw [same, decode?_encode second] at read
      exact (Option.some.inj read).symm
    · rintro rfl
      rfl

end Json

end ApiDoc
