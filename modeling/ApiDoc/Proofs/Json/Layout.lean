import ApiDoc.Proofs.Json.RoundTrip

/-!
What holds of every written document.

A document is written as literals and layout, one after another. A property that joined texts have whenever each
of them has it therefore holds of the whole, if it holds of the layout and of what is written in quotes.
-/

namespace ApiDoc

def Parameter.texts (parameter : Parameter) : List Text :=
  [parameter.name, parameter.doc]

def Element.texts (element : Element) : List Text :=
  [element.name, element.description, element.result] ++ element.parameters.flatMap Parameter.texts

def Document.texts (document : Document) : List Text :=
  document.elements.flatMap Element.texts

namespace Json

def layout : Text :=
  "\n ,:[]\x7b\x7d".toList

/-- A property of texts that the layout of a value has, and two joined texts have if both of them do. -/
structure Laid (holds : Text → Prop) : Prop where
  append {first second : Text} : holds first → holds second → holds (first ++ second)
  single : ∀ char ∈ layout, holds [char]

inductive Spelled (holds : Text → Prop) : Json → Prop
  | string {content : Text} : holds (quote content) → Spelled holds (.string content)
  | array {items : List Json} : (∀ item ∈ items, Spelled holds item) → Spelled holds (.array items)
  | object {members : List (Text × Json)} :
      (∀ member ∈ members, holds (quote member.1)) → (∀ member ∈ members, Spelled holds member.2) →
      Spelled holds (.object members)

section Laid

variable {holds : Text → Prop} (laid : Laid holds)

include laid

theorem Laid.newline (level : Nat) : holds (newline level) := by
  have lineFeed : holds ['\n'] := laid.single '\n' (by decide)
  have space : holds [' '] := laid.single ' ' (by decide)
  have spaces (count : Nat) : holds ('\n' :: List.replicate count ' ') := by
    induction count with
    | zero => exact lineFeed
    | succ count ih =>
        rw [List.replicate_succ', ← List.cons_append]
        exact laid.append ih space
  exact spaces (2 * level)

variable {opening closing : Char} {parts : List Text} (level : Nat)

theorem Laid.behindPart (closed : holds [closing]) (inside : ∀ part ∈ parts, holds part) :
    holds (behindPart closing level parts) := by
  induction parts with
  | nil => exact laid.append (laid.newline level) closed
  | cons part parts ih =>
      obtain ⟨first, others⟩ := List.forall_mem_cons.mp inside
      have comma : holds [','] := laid.single ',' (by decide)
      exact laid.append (laid.append (laid.append comma (laid.newline (level + 1))) first) (ih others)

theorem Laid.enclose (opened : holds [opening]) (closed : holds [closing])
    (inside : ∀ part ∈ parts, holds part) : holds (enclose opening closing level parts) := by
  cases parts with
  | nil => exact laid.append opened closed
  | cons part parts =>
      obtain ⟨first, others⟩ := List.forall_mem_cons.mp inside
      rw [enclose_cons]
      exact laid.append (laid.append (laid.append opened (laid.newline (level + 1))) first)
        (laid.behindPart level closed others)

theorem Laid.render {value : Json} (spelled : Spelled holds value) : holds (value.render level) := by
  induction spelled generalizing level with
  | string quoted =>
      rw [Json.render]
      exact quoted
  | array _ ih =>
      rw [Json.render, renderItems_eq_map]
      refine laid.enclose level (laid.single '[' (by decide)) (laid.single ']' (by decide)) ?_
      rw [List.forall_mem_map]
      exact fun item member => ih item member (level + 1)
  | object named _ ih =>
      rw [Json.render, renderMembers_eq_map]
      refine laid.enclose level (laid.single '{' (by decide)) (laid.single '}' (by decide)) ?_
      rw [List.forall_mem_map]
      intro member among
      have colon : holds ": ".toList := laid.append (laid.single ':' (by decide)) (laid.single ' ' (by decide))
      exact laid.append (laid.append (named member among) colon) (ih member among (level + 1))

end Laid

def words : List Text :=
  ["elements".toList, "type".toList, "name".toList, "description".toList, "return".toList,
    "parameters".toList, "doc".toList, "function".toList, "variable".toList]

section Spelled

variable {holds : Text → Prop} (known : ∀ word ∈ words, holds (quote word))

include known

theorem spelled_ofParameter {parameter : Parameter} (said : ∀ text ∈ parameter.texts, holds (quote text)) :
    Spelled holds (ofParameter parameter) := by
  apply Spelled.object
  · simp only [List.forall_mem_cons]
    exact ⟨known _ (by decide), known _ (by decide), List.forall_mem_nil _⟩
  · simp only [List.forall_mem_cons]
    exact ⟨.string (said _ (by simp [Parameter.texts])), .string (said _ (by simp [Parameter.texts])),
      List.forall_mem_nil _⟩

theorem spelled_ofElement {element : Element} (said : ∀ text ∈ element.texts, holds (quote text)) :
    Spelled holds (ofElement element) := by
  obtain ⟨own, others⟩ := List.forall_mem_append.mp said
  have parameters : Spelled holds (array (element.parameters.map ofParameter)) := by
    apply Spelled.array
    rw [List.forall_mem_map]
    exact fun parameter member => spelled_ofParameter known fun text among =>
      others text (List.mem_flatMap.mpr ⟨parameter, member, among⟩)
  have kind : Spelled holds (.string (kindName element.kind)) := by
    cases element.kind
    · exact .string (known _ (by decide))
    · exact .string (known _ (by decide))
  apply Spelled.object
  · simp only [List.forall_mem_cons]
    exact ⟨known _ (by decide), known _ (by decide), known _ (by decide), known _ (by decide),
      known _ (by decide), List.forall_mem_nil _⟩
  · simp only [List.forall_mem_cons]
    exact ⟨kind, .string (own _ (by simp)), .string (own _ (by simp)), .string (own _ (by simp)),
      parameters, List.forall_mem_nil _⟩

theorem spelled_ofDocument {document : Document} (said : ∀ text ∈ document.texts, holds (quote text)) :
    Spelled holds (ofDocument document) := by
  have elements : Spelled holds (array (document.elements.map ofElement)) := by
    apply Spelled.array
    rw [List.forall_mem_map]
    exact fun element member => spelled_ofElement known fun text among =>
      said text (List.mem_flatMap.mpr ⟨element, member, among⟩)
  apply Spelled.object
  · exact List.forall_mem_singleton.mpr (known "elements".toList (by decide))
  · exact List.forall_mem_singleton.mpr elements

end Spelled

theorem Laid.write {holds : Text → Prop} (laid : Laid holds) (known : ∀ word ∈ words, holds (quote word))
    {document : Document} (said : ∀ text ∈ document.texts, holds (quote text)) : holds (write document) :=
  laid.append (laid.render 0 (spelled_ofDocument known said)) (laid.single '\n' (by decide))

end Json

end ApiDoc
