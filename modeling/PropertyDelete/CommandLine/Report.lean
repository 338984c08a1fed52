import PropertyDelete.CommandLine.Scenario

/-!
What a run of the command line comes to: an exit code, the printed text, and the line about
a failure, if there was one.
-/
namespace PropertyDelete.CommandLine

structure Report where
  code : Nat
  output : String
  failure : Option String
  deriving DecidableEq, Repr

def versionText : String := "jsnode 0.1.0\n"

def helpText : String :=
  "Usage: jsnode [--strict] [--polymorphism-limit N] [--foreign-hash-properties] [-v] SCENARIO\n"

/-- The options of a request: those of the environment, changed by what was asked for. -/
def Request.options (r : Request) (lookup : String → Option String) : Options :=
  let o := Options.ofEnvironment lookup
  let o := match r.limit with
    | some n => o.withLimit n
    | none => o
  if r.foreignHash then o.withForeignHash true else o

/-- A session of a new interpreter on an empty heap. -/
def Session.start (options : Options) : Session :=
  let answer := (Interpreter.new options).run {}
  { machine := ⟨answer.1, answer.2⟩ }

def unlines (lines : List String) : String := String.join (lines.map (· ++ "\n"))

def report (args : List String) (lookup : String → Option String) : Report :=
  match parse args with
  | .error .version => ⟨0, versionText, none⟩
  | .error .help => ⟨0, helpText, none⟩
  | .error .misuse => ⟨2, "", none⟩
  | .ok request =>
    let start := Session.start (request.options lookup)
    match (Scenario.run request.scenario request.strict).result start with
    | (.ok (), session) => ⟨0, unlines session.lines, none⟩
    | (.error failure, session) => ⟨1, unlines session.lines, some failure.message⟩

end PropertyDelete.CommandLine
