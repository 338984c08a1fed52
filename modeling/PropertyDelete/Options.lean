import PropertyDelete.Text.Blank
import PropertyDelete.Text.Decimal

/-!
The options of an engine, settled once before any delete site exists: how many entries a
site may hold, and whether the hash entries of foreign objects count as properties.
A variable that cannot be read leaves the option as it is.
-/
namespace PropertyDelete

structure Options where
  /-- The number of entries a site holds before it generalizes; never zero. -/
  limit : Nat := 4
  /-- Whether hash entries of foreign objects are deleted like properties. -/
  foreignHash : Bool := false
  deriving DecidableEq, Repr, Inhabited

namespace Options

def limitVariable : String := "JSNODE_POLYMORPHISM_LIMIT"

def foreignHashVariable : String := "JSNODE_FOREIGN_HASH_PROPERTIES"

/-- The same options with another limit; zero counts as one. -/
def withLimit (o : Options) (limit : Nat) : Options := { o with limit := max limit 1 }

def withForeignHash (o : Options) (enabled : Bool) : Options := { o with foreignHash := enabled }

/-- The size of the range that a limit is read in. -/
def limitBound : Nat := Nat.pow 2 64

/-- A limit as it is written: an unsigned number of 64 bits. -/
def readLimit? (cs : List Char) : Option Nat := Decimal.readUnsigned? limitBound cs

/-- A switch as it is written, in any case of ASCII letters. -/
def readSwitch? (cs : List Char) : Option Bool :=
  let word := String.ofList (cs.map Char.toLower)
  if ["1", "true", "yes", "on"].contains word then some true
  else if ["", "0", "false", "no", "off"].contains word then some false
  else none

/-- The default options, changed by those variables of the environment that can be read.
Blanks around a value do not count. -/
def ofEnvironment (lookup : String → Option String) : Options :=
  let o : Options := {}
  let o := match (lookup limitVariable).bind fun raw => readLimit? (Blank.trim raw.toList) with
    | some limit => o.withLimit limit
    | none => o
  match (lookup foreignHashVariable).bind fun raw => readSwitch? (Blank.trim raw.toList) with
  | some enabled => o.withForeignHash enabled
  | none => o

end Options
end PropertyDelete
