import Workflow.Text.Natural

/-! Commands, and the arguments that ask for them. Arguments are read in order, so a plea for help
is heard unless something before it is wrong. -/

namespace Workflow

structure SimulateOptions where
  file : String
  data : String := "\x7b\x7d"
  principal : String
  directory : Option String := none
  completions : List String := []
  maxSteps : Nat := 100
deriving DecidableEq, Repr

inductive Command where
  | validate (files : List String)
  | simulate (options : SimulateOptions)
deriving DecidableEq, Repr

def Command.paths : Command → List String
  | validate files => files
  | simulate options => options.file :: options.directory.toList

inductive Topic where
  | program
  | validate
  | simulate
  | help
deriving DecidableEq, Repr

inductive Invocation where
  | run (command : Command)
  | help (topic : Topic)
  | version
  | misuse
deriving DecidableEq, Repr

/-- An argument by its shape. A hyphen alone is plain. -/
inductive Argument where
  | separator
  | long (name : String) (value : Option String)
  | short (letters : List Char)
  | plain (text : String)
deriving DecidableEq, Repr

namespace Argument

def ofText (text : String) : Argument :=
  match text.toList with
  | ['-', '-'] => separator
  | '-' :: '-' :: rest =>
    let name := String.ofList (rest.takeWhile (· ≠ '='))
    match rest.dropWhile (· ≠ '=') with
    | _ :: value => long name (some (String.ofList value))
    | [] => long name none
  | '-' :: letter :: rest => short (letter :: rest)
  | _ => plain text

def isPlain : Argument → Bool
  | plain _ => true
  | _ => false

def asksForHelp : Argument → Bool
  | long "help" none => true
  | short ('h' :: _) => true
  | _ => false

def asksForVersion : Argument → Bool
  | long "version" none => true
  | short ('V' :: _) => true
  | _ => false

end Argument

/-- Options as far as they are read. Those that are read twice, all but completions, are wrong. -/
structure SimulateArguments where
  file : Option String := none
  data : Option String := none
  principal : Option String := none
  directory : Option String := none
  completions : List String := []
  maxSteps : Option Nat := none
deriving DecidableEq, Repr

namespace SimulateArguments

def withFile (given : SimulateArguments) (path : String) : Option SimulateArguments :=
  if given.file.isSome ∨ path.isEmpty then none else some { given with file := some path }

/-- The largest number of steps that can be asked for. -/
def mostSteps : Nat := 0xFFFFFFFFFFFFFFFF

def withOption (given : SimulateArguments) (name value : String) : Option SimulateArguments :=
  match name with
  | "data" => if given.data.isSome then none else some { given with data := some value }
  | "as" => if given.principal.isSome then none else some { given with principal := some value }
  | "directory" =>
    if given.directory.isSome ∨ value.isEmpty then none
    else some { given with directory := some value }
  | "complete" => some { given with completions := given.completions ++ [value] }
  | "max-steps" =>
    match given.maxSteps, Text.readNatural mostSteps value with
    | none, .ok count => some { given with maxSteps := some count }
    | _, _ => none
  | _ => none

def options? (given : SimulateArguments) : Option SimulateOptions := do
  let defaults : SimulateOptions := { file := ← given.file, principal := ← given.principal }
  return { defaults with
    data := given.data.getD defaults.data
    directory := given.directory
    completions := given.completions
    maxSteps := given.maxSteps.getD defaults.maxSteps }

end SimulateArguments

namespace Invocation

/-- Reads the files to validate; behind a separator every argument is a file. -/
def ofFiles (files : List String) (separated : Bool) : List String → Invocation
  | [] => if files.isEmpty then misuse else run (.validate files)
  | text :: rest =>
    let argument := Argument.ofText text
    if separated || argument.isPlain then
      if text.isEmpty then misuse else ofFiles (files ++ [text]) separated rest
    else if argument = .separator then ofFiles files true rest
    else if argument.asksForHelp then help .validate
    else misuse

/-- Reads options and the file to simulate; behind a separator there are no options. -/
def ofOptions (given : SimulateArguments) (separated : Bool) : List String → Invocation
  | [] =>
    match given.options? with
    | some options => run (.simulate options)
    | none => misuse
  | text :: rest =>
    let argument := Argument.ofText text
    if separated || argument.isPlain then
      match given.withFile text with
      | some given => ofOptions given separated rest
      | none => misuse
    else if argument.asksForHelp then help .simulate
    else
      match argument, rest with
      | .separator, rest => ofOptions given true rest
      | .long name (some value), rest =>
        match given.withOption name value with
        | some given => ofOptions given separated rest
        | none => misuse
      | .long name none, value :: rest =>
        match (Argument.ofText value).isPlain, given.withOption name value with
        | true, some given => ofOptions given separated rest
        | _, _ => misuse
      | _, _ => misuse

def ofHelp : List String → Invocation
  | [] => help .program
  | ["validate"] => help .validate
  | ["simulate"] => help .simulate
  | ["help"] => help .help
  | _ => misuse

def ofArguments : List String → Invocation
  | [] => misuse
  | "validate" :: rest => ofFiles [] false rest
  | "simulate" :: rest => ofOptions {} false rest
  | "help" :: rest => ofHelp rest
  | text :: _ =>
    let argument := Argument.ofText text
    if argument.asksForHelp then help .program
    else if argument.asksForVersion then version
    else misuse

end Invocation

end Workflow
