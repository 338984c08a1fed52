import PropertyDelete.Delete.Description
import PropertyDelete.Program.Evaluate
import PropertyDelete.CommandLine.Arguments

/-!
Sessions: scenarios run on one interpreter, with the lines they have printed so far. A
scenario ends early when a program does not compile or throws.
-/
namespace PropertyDelete.CommandLine

inductive Failure where
  | early (error : CompileError)
  | uncaught (message : String)
  deriving DecidableEq, Repr

def Failure.message : Failure → String
  | .early e => "SyntaxError: " ++ e.message
  | .uncaught m => "Uncaught " ++ m

/-- An interpreter at work and the lines it has printed. -/
structure Session where
  machine : Machine
  lines : List String := []
  deriving Inhabited

/-- A part of a scenario. -/
abbrev Routine := ExceptT Failure (StateM Session)

namespace Routine

def print (line : String) : Routine Unit :=
  modify fun s => { s with lines := s.lines ++ [line] }

def define (name : String) (v : Value) : Routine Unit :=
  modify fun s =>
    { s with machine.interpreter := s.machine.interpreter.define name v }

def allocate (obj : NativeObject) : Routine Value :=
  modifyGet fun s =>
    let answer := s.machine.store.allocate obj
    (.object answer.1, { s with machine.store := answer.2 })

def allocateForeign (obj : ForeignObject) : Routine Value :=
  modifyGet fun s =>
    let foreigns := s.machine.store.heap.foreigns
    (.foreign ⟨foreigns.length⟩,
      { s with machine.store.heap.foreigns := foreigns ++ [obj] })

def compile (e : Expression) (strict : Bool) : Routine Script := do
  let s ← get
  match s.machine.interpreter.compile e strict with
  | (.ok script, interpreter) =>
    set { s with machine.interpreter := interpreter }
    return script
  | (.error err, _) => throw (.early err)

/-- Evaluates a script and prints what it comes to under a label. -/
def evaluate (label : String) (script : Script) : Routine Unit := do
  let s ← get
  let answer := s.machine.evaluate script
  set { s with machine := answer.2 }
  let heap := answer.2.store.heap
  match answer.1 with
  | .ok v => print (label ++ " => " ++ heap.display v)
  | .error thrown => throw (.uncaught (heap.errorMessage thrown))

/-- Compiles a program, evaluates it, and prints what it comes to under a label. -/
def perform (label : String) (e : Expression) (strict : Bool) : Routine Unit := do
  evaluate label (← compile e strict)

def printSite (i : Nat) (site : DeleteSite) : Routine Unit :=
  let shown := if site.cache.generalized then "generalized"
    else DeleteVariant.describeAll site.cache.entries
  print ("  site " ++ Decimal.text i ++ " " ++ shown ++ " (v" ++
    Decimal.text site.cache.version ++ ")")

/-- Prints the states of some sites, numbered from `i` on. -/
def printSitesFrom : (i : Nat) → List DeleteSite → Routine Unit
  | _, [] => return
  | i, site :: rest => do
    printSite i site
    printSitesFrom (i + 1) rest

def printSites : Routine Unit := do
  printSitesFrom 0 (← get).machine.interpreter.arena.sites

/-- The result of an action in a session, and the session afterwards. -/
def result (act : Routine Unit) (s : Session) : Except Failure Unit × Session :=
  (ExceptT.run act).run s

end Routine
end PropertyDelete.CommandLine
