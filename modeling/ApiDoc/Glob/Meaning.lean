import ApiDoc.FileTree.Path
import ApiDoc.Glob.Pattern
import ApiDoc.Glob.Matching

/-!
What a pattern means.

A pattern is matched by a path whose components spell the parts of the pattern one by one. A `**` stands for
any number of directories. Components that stay in place, at the beginning `.` and elsewhere nothing at all, do
not show in the path.
-/

namespace ApiDoc

def Path.IsName (name : Text) : Prop :=
  name ≠ [] ∧ name ≠ here ∧ name ≠ above ∧ '/' ∉ name

instance (name : Text) : Decidable (Path.IsName name) :=
  inferInstanceAs (Decidable (name ≠ [] ∧ name ≠ here ∧ name ≠ above ∧ '/' ∉ name))

namespace Glob

inductive Spells : List Piece → Text → Prop
  | nil : Spells [] []
  | char {piece : Piece} {pieces : List Piece} {char : Char} {rest : Text} :
      piece.takes char → Spells pieces rest → Spells (piece :: pieces) (char :: rest)
  | run {pieces : List Piece} (run : Text) {rest : Text} :
      Spells pieces rest → Spells (.anyRun :: pieces) (run ++ rest)

/-- Whether pieces match a component. The components `.` and `..` are matched only by pieces that begin with a
dot. -/
structure Fits (pieces : List Piece) (component : Text) : Prop where
  spells : Spells pieces component
  ne_nil : component ≠ []
  dotted : component = here ∨ component = above → pieces.head? = some (.char '.')

/-- Whether parts match components, one by one. Between two slashes nothing need stand, and a `**` stands for
any directories before a component that is a name. -/
inductive Matches : List Part → List Component → Prop
  | nil : Matches [] []
  | name {pieces : List Piece} {parts : List Part} {text : Text} {rest : List Component} :
      Fits pieces text → Matches parts rest → Matches (.name pieces :: parts) (.ofPieces pieces text :: rest)
  | empty {parts : List Part} {rest : List Component} :
      rest ≠ [] → Matches parts rest → Matches (.name [] :: parts) (.ofPieces [] [] :: rest)
  | chain {parts : List Part} {directories : List Text} {component : Component} {rest : List Component} :
      (∀ directory ∈ directories, Path.IsName directory) → Path.IsName component.text →
      Matches parts (component :: rest) →
      Matches (.chain :: parts) (directories.map .found ++ component :: rest)

/-- Whether a pattern matches a path for a file, whose parts are those of the components joined one by one. -/
structure Admits (glob : Glob) (path : Text) : Prop where
  notDirectory : glob.directoriesOnly = false
  spelled : ∃ components, Matches glob.parts components ∧
    components.foldlM join? glob.base = some (Path.parts path)

end Glob

end ApiDoc
