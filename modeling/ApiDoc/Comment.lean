import ApiDoc.Text
import ApiDoc.Text.Delimited
import ApiDoc.Element

/-!
Documentation comments.

A documentation comment stands between `/*#` and `*/`. Its block is what stands between the two
markers, and its plain text is the block without the decoration that frames it on the page. The plain text
holds tags, each an `@` with a name right behind it and a value up to the end of the line.

A block describes one element. `@name` and `@return` give its name and result, and the last of each
counts; `@param` adds a parameter; `@variable` anywhere makes it a variable. Other tags say nothing
here. A block whose element has no name is refused.
-/

namespace ApiDoc

namespace Comment

def markers : Delimiters Char where
  opening := "/*#".toList
  closing := "*/".toList

def blocks (source : Text) : List Text :=
  markers.bodies source

/-- What follows the last closed comment: the part of a source text whose meaning still depends on
what comes after it. -/
def tail (source : Text) : Text :=
  markers.tail source

/-- A line without its decoration: the line is trimmed, and if it holds a `*`, only what follows the
first one is kept, trimmed again. -/
def plainLine (line : Text) : Text :=
  match cutAt? ['*'] line.trim with
  | some (_, content) => Text.trim content
  | none => line.trim

def plain (block : Text) : Text :=
  .unlines (block.lines.map plainLine)

end Comment

structure Tag where
  name : Text
  value : Text
  deriving DecidableEq, Repr

namespace Tag

def inName (char : Char) : Bool :=
  char != ' ' && char != '\n'

def inValue (char : Char) : Bool :=
  char != '\n'

/-- Read the tag that an `@` begins, given what follows the `@`: the tag and the rest of the text
from the end of its line on. An `@` with no name behind it begins no tag. -/
def read? (text : Text) : Option (Tag × Text) :=
  match text.takeWhile inName with
  | [] => none
  | name =>
      let line := text.dropWhile inName
      some (⟨Text.trim name, Text.trim (line.takeWhile inValue)⟩, line.dropWhile inValue)

theorem length_of_read? {text rest : Text} {tag : Tag} (found : read? text = some (tag, rest)) :
    rest.length ≤ text.length := by
  simp only [read?] at found
  split at found
  · simp at found
  · simp only [Option.some.injEq, Prod.mk.injEq] at found
    obtain ⟨_, rfl⟩ := found
    exact Nat.le_trans (List.dropWhile_suffix _).length_le (List.dropWhile_suffix _).length_le

/-- The tags of a text, in order. The search goes on behind each tag it finds, so an `@` in a name
or a value begins no tag of its own. -/
def scan : Text → List Tag
  | [] => []
  | '@' :: rest =>
      match _found : read? rest with
      | some (tag, after) => tag :: scan after
      | none => scan rest
  | _ :: rest => scan rest
  termination_by text => text.length
  decreasing_by
    · have shorter := length_of_read? (by assumption)
      simp only [List.length_cons]
      omega
    · simp
    · simp

end Tag

namespace Comment

def description (text : Text) : Text :=
  (Text.trim (text.takeWhile (· != '@'))).map fun char => if char = '\n' then ' ' else char

inductive Error
  | missingName (text : Text)
  deriving DecidableEq, Repr

def Error.message : Error → Text
  | missingName text => "Missing tag name in \"".toList ++ text ++ "\"".toList

def parameter (value : Text) : Parameter :=
  match cutAt? [' '] value with
  | some (name, doc) => ⟨name, doc⟩
  | none => ⟨value, []⟩

end Comment

def Element.describe (element : Element) (tag : Tag) : Element :=
  if tag.name = "name".toList then { element with name := tag.value }
  else if tag.name = "return".toList then { element with result := tag.value }
  else if tag.name = "variable".toList then { element with kind := .variable }
  else if tag.name = "param".toList then
    { element with parameters := element.parameters ++ [Comment.parameter tag.value] }
  else element

namespace Comment

def element (text : Text) : Element :=
  (Tag.scan text).foldl Element.describe { description := description text }

def read (block : Text) : Except Error Element :=
  let text := plain block
  let found := element text
  if found.name = [] then .error (.missingName text) else .ok found

end Comment

end ApiDoc
