import ApiDoc.Cli.Arguments

/-!
Command lines as they are meant.

A command line is a row of words. A word is a path or some settings, which can be spelled in many ways. Behind `--`
there are paths only, whatever they look like. A command line is proper if it gives no setting twice and no path
stands alone between settings.
-/

namespace ApiDoc

namespace Cli

/-- Whether an argument cannot be taken for a setting: it does not begin with a dash, or is nothing else. -/
def Plain (argument : Text) : Prop :=
  argument.head? = some '-' → argument = ['-']

instance (argument : Text) : Decidable (Plain argument) :=
  inferInstanceAs (Decidable (argument.head? = some '-' → argument = ['-']))

inductive Flag
  | verbose
  | quiet
  deriving DecidableEq, Repr

namespace Flag

def letter : Flag → Char
  | verbose => 'v'
  | quiet => 'q'

def long : Flag → Text
  | verbose => "--verbose".toList
  | quiet => "--quiet".toList

def setting : Flag → Setting
  | verbose => .verbose
  | quiet => .quiet

end Flag

inductive FormatName
  | long
  | short (flags : List Flag)
  deriving DecidableEq, Repr

namespace FormatName

def flags : FormatName → List Flag
  | long => []
  | short flags => flags

def spelled : FormatName → Text
  | long => "--format".toList
  | short flags => '-' :: flags.map Flag.letter ++ ['f']

end FormatName

inductive Choice
  | flag (flag : Flag)
  | format (value : Text)
  deriving DecidableEq, Repr

namespace Choice

def setting : Choice → Setting
  | flag given => given.setting
  | format _ => .format

def format? : Choice → Option Text
  | flag _ => none
  | format value => some value

end Choice

inductive Word
  | path (path : Text) (plain : Plain path)
  | flag (flag : Flag)
  /-- Flags behind one dash, as in `-vq`. -/
  | flags (first : Flag) (more : List Flag)
  /-- A format in the next argument, as in `--format json` or `-vf json`. -/
  | formatApart (name : FormatName) (value : Text) (plain : Plain value)
  /-- A format behind a sign, as in `--format=json` or `-vf=json`. -/
  | formatAssigned (name : FormatName) (value : Text)
  /-- A format directly behind its letter, as in `-vfjson`. -/
  | formatJoined (before : List Flag) (first : Char) (more : Text) (notSign : first ≠ '=')

namespace Word

def spelled : Word → List Text
  | path given _ => [given]
  | flag given => [given.long]
  | flags first more => ['-' :: (first :: more).map Flag.letter]
  | formatApart name value _ => [name.spelled, value]
  | formatAssigned name value => [name.spelled ++ '=' :: value]
  | formatJoined before first more _ => ['-' :: before.map Flag.letter ++ 'f' :: first :: more]

def path? : Word → Option Text
  | path given _ => some given
  | _ => none

def choices : Word → List Choice
  | path _ _ => []
  | flag given => [.flag given]
  | flags first more => (first :: more).map .flag
  | formatApart name value _ | formatAssigned name value => name.flags.map .flag ++ [.format value]
  | formatJoined before first more _ => before.map .flag ++ [.format (first :: more)]

end Word

structure CommandLine where
  words : List Word
  behind : Option (List Text) := none

namespace CommandLine

variable (line : CommandLine)

def spelled : List Text :=
  line.words.flatMap Word.spelled ++
    match line.behind with
    | none => []
    | some paths => "--".toList :: paths

def places : List (Option Text) :=
  line.words.map Word.path? ++ (line.behind.getD []).map some

def paths : List Text :=
  line.places.filterMap id

def choices : List Choice :=
  line.words.flatMap Word.choices

/-- Whether a command line gives each setting once at most, and never one path alone between settings. -/
structure Proper : Prop where
  once : (line.choices.map Choice.setting).Nodup
  accompanied : ∀ group ∈ line.places.splitOn none, group.length ≠ 1

structure Gives (arguments : Arguments) : Prop where
  paths : arguments.paths = line.paths
  format : arguments.format = (line.choices.findSome? Choice.format?).getD "protobuf".toList
  verbose : arguments.verbose = line.choices.contains (.flag .verbose)
  quiet : arguments.quiet = line.choices.contains (.flag .quiet)

end CommandLine

end Cli

end ApiDoc
