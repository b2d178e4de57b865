import ApiDoc.Text

/-!
Command line arguments.

Arguments are read from left to right. Paths are given in one or more uninterrupted groups, and each
group has to hold at least two of them; the last path of all is the output file. Settings may stand
between groups, each at most once, and short ones may share a dash. Everything after `--` is a path.

A group, or a format whose value may still follow, is pending until something else begins. Only then
it is checked, so what is wrong with it is found before what is wrong with the next setting.
-/

namespace ApiDoc

namespace Cli

inductive Setting
  | format
  | verbose
  | quiet
  | help
  deriving DecidableEq, Repr

structure Arguments where
  inputs : List Text
  output : Text
  format : Text
  verbose : Bool
  quiet : Bool
  deriving DecidableEq, Repr

def Arguments.paths (arguments : Arguments) : List Text :=
  arguments.inputs ++ [arguments.output]

inductive UsageError
  | noPaths
  | lonePath
  | noFormat
  | unexpectedArgument (argument : Text)
  | unexpectedValue (setting : Setting) (value : Text)
  | repeated (setting : Setting)
  deriving DecidableEq, Repr

inductive Stop
  | help
  | usage (error : UsageError)
  deriving DecidableEq, Repr

namespace Setting

def name : Setting → Text
  | format => "format".toList
  | verbose => "verbose".toList
  | quiet => "quiet".toList
  | help => "help".toList

def letter : Setting → Char
  | format => 'f'
  | verbose => 'v'
  | quiet => 'q'
  | help => 'h'

def all : List Setting :=
  [format, verbose, quiet, help]

def ofName? (name : Text) : Option Setting :=
  all.find? fun setting => setting.name = name

def ofLetter? (letter : Char) : Option Setting :=
  all.find? fun setting => setting.letter = letter

def shown : Setting → Text
  | format => "--format <FORMAT>".toList
  | setting => "--".toList ++ setting.name

end Setting

inductive Pending
  | nothing
  | group (paths : List Text)
  /-- A format whose value may still follow, or has just followed. -/
  | format (value : Option Text)
  deriving DecidableEq, Repr

structure Progress where
  paths : List Text := []
  format : Option Text := none
  verbose : Bool := false
  quiet : Bool := false
  pending : Pending := .nothing
  deriving DecidableEq, Repr

namespace Progress

def setFormat (progress : Progress) (value : Text) : Except Stop Progress :=
  if progress.format.isSome then .error (.usage (.repeated .format))
  else .ok { progress with format := some value }

def settle (progress : Progress) : Except Stop Progress :=
  let settled := { progress with pending := .nothing }
  match progress.pending with
  | .nothing => .ok settled
  | .group paths =>
      if paths.length < 2 then .error (.usage .lonePath)
      else .ok { settled with paths := progress.paths ++ paths }
  | .format none => .error (.usage .noFormat)
  | .format (some value) => settled.setFormat value

/-- Read a setting that is given without a value. A format then takes the next argument. -/
def set (progress : Progress) (setting : Setting) : Except Stop Progress :=
  match progress.settle with
  | .error stop => .error stop
  | .ok settled =>
      match setting with
      | .help => .error .help
      | .format => .ok { settled with pending := .format none }
      | .verbose =>
          if settled.verbose then .error (.usage (.repeated .verbose))
          else .ok { settled with verbose := true }
      | .quiet =>
          if settled.quiet then .error (.usage (.repeated .quiet))
          else .ok { settled with quiet := true }

def assignFormat (progress : Progress) (value : Text) : Except Stop Progress :=
  progress.settle.bind fun settled => settled.setFormat value

def long (progress : Progress) (argument : Text) : Except Stop Progress :=
  let (name, value) := match cutAt? ['='] argument with
    | some (name, value) => (name, some value)
    | none => (argument, none)
  match Setting.ofName? name, value with
  | none, _ => .error (.usage (.unexpectedArgument ('-' :: '-' :: name)))
  | some setting, none => progress.set setting
  | some .format, some value => progress.assignFormat value
  | some setting, some value => .error (.usage (.unexpectedValue setting value))

/-- Read an argument that begins with one dash, given the letters behind it. The letter of the format
ends them: what follows it, less a `=`, is the value. -/
def short (progress : Progress) : Text → Except Stop Progress
  | [] => .ok progress
  | letter :: rest =>
      match Setting.ofLetter? letter, rest with
      | none, _ => .error (.usage (.unexpectedArgument ['-', letter]))
      | some .format, [] => progress.set .format
      | some .format, '=' :: value => progress.assignFormat value
      | some .format, value => progress.assignFormat value
      | some setting, rest =>
          match progress.set setting with
          | .error stop => .error stop
          | .ok next => next.short rest

def path (progress : Progress) (path : Text) : Except Stop Progress :=
  match progress.pending with
  | .group paths => .ok { progress with pending := .group (paths ++ [path]) }
  | _ => progress.settle.map fun settled => { settled with pending := .group [path] }

def argument (progress : Progress) (argument : Text) : Except Stop Progress :=
  match argument, progress.pending with
  | '-' :: '-' :: rest, _ => progress.long rest
  | '-' :: letter :: rest, _ => progress.short (letter :: rest)
  | value, .format none => .ok { progress with pending := .format (some value) }
  | value, _ => progress.path value

def takePaths (progress : Progress) : List Text → Except Stop Progress
  | [] => .ok progress
  | path :: rest =>
      match progress.path path with
      | .error stop => .error stop
      | .ok next => next.takePaths rest

def take (progress : Progress) : List Text → Except Stop Progress
  | [] => .ok progress
  | argument :: rest =>
      if argument = "--".toList then progress.takePaths rest
      else
        match progress.argument argument with
        | .error stop => .error stop
        | .ok next => next.take rest

end Progress

def Arguments.parse (arguments : List Text) : Except Stop Arguments :=
  match (Progress.take {} arguments).bind Progress.settle with
  | .error stop => .error stop
  | .ok progress =>
      match progress.paths.getLast? with
      | none => .error (.usage .noPaths)
      | some output => .ok {
          inputs := progress.paths.dropLast
          output := output
          format := progress.format.getD "protobuf".toList
          verbose := progress.verbose
          quiet := progress.quiet }

end Cli

end ApiDoc
