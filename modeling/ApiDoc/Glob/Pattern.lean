import ApiDoc.Text

/-!
Glob patterns.

A pattern is a path whose parts may hold wildcards: `?` for one character, `*` for any run of them,
`[...]` and `[!...]` for one character in or out of a class, and `**` as a whole part for any chain
of directories. Nothing else is special.
-/

namespace ApiDoc

namespace Glob

inductive Fault
  | wildcards
  | recursiveWildcard
  | range
  deriving DecidableEq, Repr

def Fault.message : Fault → Text
  | wildcards => "wildcards are either regular `*` or recursive `**`".toList
  | recursiveWildcard => "recursive wildcards must form a single path component".toList
  | range => "invalid range pattern".toList

structure Error where
  position : Nat
  fault : Fault
  deriving DecidableEq, Repr

def Error.message (error : Error) : Text :=
  "Pattern syntax error near position ".toList ++ Nat.toDigits 10 error.position ++ ": ".toList ++
    error.fault.message

structure Range where
  first : Char
  last : Char
  deriving DecidableEq, Repr

def Range.holds (range : Range) (char : Char) : Bool :=
  decide (range.first.toNat ≤ char.toNat ∧ char.toNat ≤ range.last.toNat)

inductive Piece
  | char (char : Char)
  | anyChar
  | anyRun
  | anyChain
  | within (ranges : List Range)
  | except (ranges : List Range)
  deriving DecidableEq, Repr

/-- The ranges of a class. A `-` between two characters makes a range, and stands for itself at
either end. -/
def ranges : Text → List Range
  | first :: '-' :: last :: rest => ⟨first, last⟩ :: ranges rest
  | char :: rest => ⟨char, char⟩ :: ranges rest
  | [] => []

/-- The members of a class up to its `]`, and what follows it. The first member is taken whatever it
is, so a `]` can be one. -/
def members? : Text → Option (Text × Text)
  | [] => none
  | first :: rest =>
      match rest.dropWhile (· != ']') with
      | [] => none
      | _ :: after => some (first :: rest.takeWhile (· != ']'), after)

def class? : Text → Option (Piece × Nat × Text)
  | '!' :: rest =>
      (members? rest).map fun (members, after) =>
        (.except (ranges members), members.length + 3, after)
  | rest =>
      (members? rest).map fun (members, after) =>
        (.within (ranges members), members.length + 2, after)

theorem length_of_members? {text members after : Text}
    (found : members? text = some (members, after)) : after.length < text.length := by
  cases text with
  | nil => simp [members?] at found
  | cons first rest =>
      simp only [members?] at found
      split at found
      · simp at found
      · next remaining =>
          simp only [Option.some.injEq, Prod.mk.injEq] at found
          obtain ⟨_, rfl⟩ := found
          have shorter := (List.dropWhile_suffix (l := rest) (· != ']')).length_le
          rw [remaining] at shorter
          simp only [List.length_cons] at shorter ⊢
          omega

theorem length_of_class? {text after : Text} {piece : Piece} {width : Nat}
    (found : class? text = some (piece, width, after)) : after.length < text.length := by
  unfold class? at found
  split at found
  · simp only [Option.map_eq_some_iff, Prod.mk.injEq, Prod.exists] at found
    obtain ⟨members, rest, taken, _, _, rfl⟩ := found
    have shorter := length_of_members? taken
    simp only [List.length_cons]
    omega
  · simp only [Option.map_eq_some_iff, Prod.mk.injEq, Prod.exists] at found
    obtain ⟨members, rest, taken, _, _, rfl⟩ := found
    exact length_of_members? taken

def piecesFrom (before : Option Char) (position : Nat) : Text → Except Error (List Piece)
  | [] => .ok []
  | '?' :: rest => (piecesFrom (some '?') (position + 1) rest).map (.anyChar :: ·)
  | '*' :: '*' :: '*' :: _ => .error ⟨position + 2, .wildcards⟩
  | '*' :: '*' :: rest =>
      if before = none ∨ before = some '/' then
        match rest with
        | [] => .ok [.anyChain]
        | '/' :: after => (piecesFrom (some '/') (position + 3) after).map (.anyChain :: ·)
        | _ => .error ⟨position + 2, .recursiveWildcard⟩
      else .error ⟨position - 1, .recursiveWildcard⟩
  | '*' :: rest => (piecesFrom (some '*') (position + 1) rest).map (.anyRun :: ·)
  | '[' :: rest =>
      match _found : class? rest with
      | some (piece, width, after) =>
          (piecesFrom (some ']') (position + width) after).map (piece :: ·)
      | none => .error ⟨position, .range⟩
  | char :: rest => (piecesFrom (some char) (position + 1) rest).map (.char char :: ·)
  termination_by text => text.length
  decreasing_by
    all_goals simp only [List.length_cons]
    all_goals first
      | omega
      | have shorter := length_of_class? (by assumption)
        omega

def pieces (text : Text) : Except Error (List Piece) :=
  piecesFrom none 0 text

end Glob

inductive Glob.Part
  | chain
  | name (pieces : List Glob.Piece)
  deriving DecidableEq, Repr

/-- A pattern: its parts, whether it starts from the root, and whether it ends in `/` and so names directories
only. -/
structure Glob where
  rooted : Bool
  parts : List Glob.Part
  directoriesOnly : Bool
  deriving DecidableEq, Repr

namespace Glob

def Part.ofPieces (pieces : List Piece) : Part :=
  if pieces = [.anyChain] then .chain else .name pieces

def split (path : Text) : List Text :=
  let parts := path.splitOn '/'
  if parts.length > 1 ∧ parts.getLast? = some [] then parts.dropLast else parts

/-- Read a pattern. Errors of the whole text come before those of a single part, and positions are
counted within what was read. -/
def parse (text : Text) : Except Error Glob :=
  match pieces text with
  | .error error => .error error
  | .ok _ =>
      let unrooted := after? ['/'] text
      ((split (unrooted.getD text)).mapM pieces).map fun parts =>
        ⟨unrooted.isSome, parts.map Part.ofPieces, text.getLast? = some '/'⟩

end Glob

end ApiDoc
