import PropertyDelete.Options

/-!
The arguments of the command line: one scenario, and switches anywhere around it. Arguments
are read from left to right; the first one that asks for the version or the help text, or
that cannot be read, settles the matter.
-/
namespace PropertyDelete.CommandLine

inductive Scenario where
  | example
  | megamorphic
  | foreign
  deriving DecidableEq, Repr

def Scenario.named? : String → Option Scenario
  | "example" => some .example
  | "megamorphic" => some .megamorphic
  | "foreign" => some .foreign
  | _ => none

/-- Why no scenario is run. -/
inductive Stop where
  | version
  | help
  /-- The arguments are not what they should be. -/
  | misuse
  deriving DecidableEq, Repr

/-- What the arguments read so far have set. -/
structure Settings where
  scenario : Option Scenario := none
  strict : Bool := false
  limit : Option Nat := none
  foreignHash : Bool := false
  verbosity : Nat := 0
  deriving DecidableEq, Repr

structure Request where
  scenario : Scenario
  strict : Bool
  limit : Option Nat
  foreignHash : Bool
  deriving DecidableEq, Repr

namespace Settings

/-- A scenario given by name. Only one may be given. -/
def setScenario (s : Settings) (name : String) : Except Stop Settings :=
  match s.scenario, Scenario.named? name with
  | none, some scenario => .ok { s with scenario := some scenario }
  | _, _ => .error .misuse

/-- A limit given as text. Only one may be given. -/
def setLimit (s : Settings) (text : String) : Except Stop Settings :=
  match s.limit, Options.readLimit? text.toList with
  | none, some n => .ok { s with limit := some n }
  | _, _ => .error .misuse

def setShort (s : Settings) : Char → Except Stop Settings
  | 'v' => .ok { s with verbosity := s.verbosity + 1 }
  | 'V' => .error .version
  | 'h' => .error .help
  | _ => .error .misuse

/-- A switch given by its long name. Only the verbose switch may be repeated. -/
def setLong (s : Settings) (name : String) : Except Stop Settings :=
  match name with
  | "strict" => if s.strict then .error .misuse else .ok { s with strict := true }
  | "foreign-hash-properties" =>
    if s.foreignHash then .error .misuse else .ok { s with foreignHash := true }
  | "verbose" => .ok { s with verbosity := s.verbosity + 1 }
  | "version" => .error .version
  | "help" => .error .help
  | _ => .error .misuse

/-- The request that the settings amount to. The scenario must have been given. -/
def request (s : Settings) : Except Stop Request :=
  match s.scenario with
  | some scenario => .ok ⟨scenario, s.strict, s.limit, s.foreignHash⟩
  | none => .error .misuse

end Settings

def limitOption : String := "polymorphism-limit"

inductive Argument where
  /-- The mark after which no argument is a switch. -/
  | separator
  | long (name : String)
  | longWith (name value : String)
  | short (letters : List Char)
  | plain (text : String)
  deriving DecidableEq, Repr

namespace Argument

/-- The long switch of some characters: up to an equals sign the name, after it the value. -/
def ofLong (cs : List Char) : Argument :=
  match cs.dropWhile (· ≠ '=') with
  | [] => .long (String.ofList cs)
  | _ :: value => .longWith (String.ofList (cs.takeWhile (· ≠ '='))) (String.ofList value)

/-- The kind of an argument. A single dash is plain text. -/
def ofString (arg : String) : Argument :=
  match arg.toList with
  | ['-', '-'] => .separator
  | '-' :: '-' :: cs => ofLong cs
  | ['-'] => .plain arg
  | '-' :: letters => .short letters
  | _ => .plain arg

end Argument

/-- Reads arguments after the separator: all are plain. -/
def readPlain : List String → Settings → Except Stop Settings
  | [], s => .ok s
  | arg :: rest, s => (s.setScenario arg).bind (readPlain rest)

/-- Reads arguments. The value of the limit may follow as the next argument, if that is not
itself a switch. -/
def read : List String → Settings → Except Stop Settings
  | [], s => .ok s
  | arg :: rest, s =>
    match Argument.ofString arg with
    | .separator => readPlain rest s
    | .plain text => (s.setScenario text).bind (read rest)
    | .short letters => (letters.foldlM Settings.setShort s).bind (read rest)
    | .longWith name value =>
      if name = limitOption then (s.setLimit value).bind (read rest) else .error .misuse
    | .long name =>
      if name = limitOption then
        match rest with
        | [] => .error .misuse
        | value :: rest =>
          match Argument.ofString value with
          | .plain text => (s.setLimit text).bind (read rest)
          | _ => .error .misuse
      else (s.setLong name).bind (read rest)

def parse (args : List String) : Except Stop Request := (read args {}).bind Settings.request

end PropertyDelete.CommandLine
