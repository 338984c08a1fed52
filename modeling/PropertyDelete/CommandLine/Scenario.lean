import PropertyDelete.CommandLine.Session

/-!
The three scenarios: deletes of a fixed and of an absent property, one site that is driven
through more shapes than it can hold, and deletes on foreign objects.
-/
namespace PropertyDelete.CommandLine.Scenario

open Routine

def quoted (s : String) : Expression := .literal (.string s)

def numeral (n : Nat) : Expression := .literal (.number (.ofNat n))

def numberValue (n : Nat) : Value := .number (.ofNat n)

/-- The delete of a computed member of a variable. -/
def deleteOf (name : String) (key : Expression) : Expression :=
  .delete (.index (.ident name) key)

def runExample (strict : Bool) : Routine Unit := do
  define "o" (← allocate
    (NativeObject.insert {} "x" (.data (numberValue 1) true true false)))
  perform "delete o.y" (.delete (.member (.ident "o") "y")) strict
  perform "delete o.x" (.delete (.member (.ident "o") "x")) strict

/-- The targets that the megamorphic scenario meets, with a name and a key for each. -/
def operands : Routine (List (String × Value × Value)) := do
  let record ← allocate (NativeObject.insert {} "a" (.plain .null))
  let array ← allocate (.array [.null])
  let list ← allocateForeign (.list ⟨[.null]⟩)
  return [("object", record, .ofString "a"), ("array", array, numberValue 0),
    ("string", .ofString "abc", .ofString "foo"), ("number", numberValue 42, .ofString "x"),
    ("symbol", .symbol ⟨1, some (Utf16.ofString "s")⟩, .ofString "x"),
    ("boolean", .boolean true, .ofString "x"), ("foreign", list, numberValue 5)]

/-- Evaluates a script for each of some targets and prints the sites after each. -/
def visit (script : Script) : List (String × Value × Value) → Routine Unit
  | [] => return
  | (name, target, key) :: rest => do
    define "t" target
    define "k" key
    evaluate ("delete t[k] (" ++ name ++ ")") script
    printSites
    visit script rest

/-- Drives one site through seven target shapes. -/
def runMegamorphic (strict : Bool) : Routine Unit := do
  let script ← compile (deleteOf "t" (.ident "k")) strict
  visit script (← operands)

def runForeign (strict : Bool) : Routine Unit := do
  let map : EntryMap := { entries := ⟨[("a", numberValue 1), ("b", numberValue 2)]⟩ }
  let record : MemberRecord :=
    (MemberRecord.withMember {} "tmp" .null true).withMember "id" (numberValue 7) false
  define "m" (← allocateForeign (.map map))
  define "r" (← allocateForeign (.record record))
  define "l" (← allocateForeign (.list ⟨[.boolean true, .boolean false]⟩))
  perform "delete m.a" (deleteOf "m" (quoted "a")) strict
  perform "delete m.zz" (deleteOf "m" (quoted "zz")) strict
  perform "delete r.tmp" (deleteOf "r" (quoted "tmp")) strict
  perform "delete l[9]" (deleteOf "l" (numeral 9)) strict
  perform "delete l[0]" (deleteOf "l" (numeral 0)) strict
  perform "delete r.id" (deleteOf "r" (quoted "id")) strict

def run (scenario : Scenario) (strict : Bool) : Routine Unit :=
  match scenario with
  | .example => runExample strict
  | .megamorphic => runMegamorphic strict
  | .foreign => runForeign strict

end PropertyDelete.CommandLine.Scenario
