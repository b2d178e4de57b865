import ApiDoc.Text

/-!
Documented elements.

A document lists the functions and variables that an interface offers, each with what its comment
says about it. An element that says nothing a comment cannot hold is well formed, and can be written as a
comment in many ways, which differ in the blank characters that frame its lines.
-/

namespace ApiDoc

inductive Kind
  | function
  | variable
  deriving DecidableEq, Repr

structure Parameter where
  name : Text
  doc : Text := []
  deriving DecidableEq, Repr

structure Element where
  kind : Kind := .function
  name : Text := []
  description : Text := []
  result : Text := []
  parameters : List Parameter := []
  deriving DecidableEq, Repr

structure Document where
  elements : List Element := []
  deriving DecidableEq, Repr

/-- Whether a text fits on one line of a comment: it neither ends the line nor the comment. -/
def Text.Inline (text : Text) : Prop :=
  '\n' ∉ text ∧ ¬ "*/".toList <:+: text

def Parameter.line (parameter : Parameter) : Text :=
  if parameter.doc = [] then parameter.name else parameter.name ++ ' ' :: parameter.doc

structure Parameter.WellFormed (parameter : Parameter) : Prop where
  line_trimmed : Text.Trimmed parameter.line
  space_notMem_name : ' ' ∉ parameter.name
  name_inline : Text.Inline parameter.name
  doc_inline : Text.Inline parameter.doc

namespace Element

structure WellFormed (element : Element) : Prop where
  name_ne_nil : element.name ≠ []
  name_trimmed : Text.Trimmed element.name
  result_trimmed : Text.Trimmed element.result
  description_trimmed : Text.Trimmed element.description
  at_notMem_description : '@' ∉ element.description
  name_inline : Text.Inline element.name
  result_inline : Text.Inline element.result
  description_inline : Text.Inline element.description
  parameters : ∀ parameter ∈ element.parameters, parameter.WellFormed

def lines (element : Element) : List Text :=
  (if element.description = [] then [] else [element.description]) ++
    (if element.kind = .variable then ["@variable".toList] else []) ++
    ["@name ".toList ++ element.name] ++
    (element.parameters.map fun parameter => "@param ".toList ++ parameter.line) ++
    (if element.result = [] then [] else ["@return ".toList ++ element.result])

end Element

namespace Comment

structure Decoration where
  before : Text
  behind : Text
  before_blank : ∀ char ∈ before, Text.isBlank char ∧ char ≠ '\n'
  behind_blank : ∀ char ∈ behind, Text.isBlank char ∧ char ≠ '\n'
  behind_ne_nil : behind ≠ []

def Decoration.frame (decoration : Decoration) (line : Text) : Text :=
  decoration.before ++ '*' :: decoration.behind ++ line ++ ['\n']

structure Layout where
  decoration : Nat → Decoration
  ending : Text
  ending_blank : ∀ char ∈ ending, Text.isBlank char

end Comment

def Element.render (element : Element) (layout : Comment.Layout) : Text :=
  "/*#\n".toList ++
    (element.lines.mapIdx fun index line => (layout.decoration index).frame line).flatten ++
    layout.ending ++ "*/".toList

end ApiDoc
