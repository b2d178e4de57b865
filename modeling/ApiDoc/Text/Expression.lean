import ApiDoc.Text

/-!
Regular expressions.

At a place of a text an expression may match in several ways, which it lists in the order of preference. A
greedy repetition prefers to take many characters and a lazy one few, and in a sequence the first part
chooses first. A search takes the preferred way at the first place where there is one, and goes on behind
what it has taken.
-/

namespace ApiDoc

inductive Expression
  | one (inClass : Char → Bool)
  | greedy (inClass : Char → Bool)
  | lazy (inClass : Char → Bool)
  | lineEnd
  | group (inner : Expression)
  | seq (first second : Expression)

namespace Expression

structure Way where
  taken : Text
  groups : List Text
  rest : Text
  deriving DecidableEq, Repr

namespace Way

def take (char : Char) (way : Way) : Way :=
  { way with taken := char :: way.taken }

def captured (way : Way) : Way :=
  { way with groups := way.taken :: way.groups }

def append (first second : Way) : Way :=
  ⟨first.taken ++ second.taken, first.groups ++ second.groups, second.rest⟩

end Way

/-- The ways to take characters of a class from the beginning of a text, the shortest first. -/
def runs (inClass : Char → Bool) : Text → List Way
  | [] => [⟨[], [], []⟩]
  | char :: rest =>
      ⟨[], [], char :: rest⟩ :: if inClass char then (runs inClass rest).map (.take char) else []

def dot (char : Char) : Bool :=
  char != '\n'

def endsLine (text : Text) : Bool :=
  text.head?.all (· = '\n')

def ways : Expression → Text → List Way
  | one _, [] => []
  | one inClass, char :: rest => if inClass char then [⟨[char], [], rest⟩] else []
  | greedy inClass, text => (runs inClass text).reverse
  | lazy inClass, text => runs inClass text
  | lineEnd, text => if endsLine text then [⟨[], [], text⟩] else []
  | group inner, text => (ways inner text).map .captured
  | seq first second, text =>
      (ways first text).flatMap fun way => (ways second way.rest).map way.append

def first? (expression : Expression) : Text → Option (Text × Way)
  | [] => (expression.ways []).head?.map fun way => ([], way)
  | char :: rest =>
      match (expression.ways (char :: rest)).head? with
      | some way => some ([], way)
      | none => (expression.first? rest).map fun (before, way) => (char :: before, way)

inductive Found (expression : Expression) : Text → List Way → Prop
  | nil {text : Text} : expression.first? text = none → Found expression text []
  | cons {text before : Text} {way : Way} {ways : List Way} :
      expression.first? text = some (before, way) → Found expression way.rest ways →
        Found expression text (way :: ways)

end Expression

end ApiDoc
