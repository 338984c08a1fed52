import PropertyDelete.Delete.Operation

/-!
The descriptions of delete sites: what they are set to and what they remember, as one line.
-/
namespace PropertyDelete

def describeFlag (b : Bool) : String := if b then "true" else "false"

/-- The entries of a site as they are shown in descriptions. -/
def DeleteVariant.describeAll (vs : List DeleteVariant) : String :=
  "[" ++ String.intercalate ", " (vs.map DeleteVariant.name) ++ "]"

/-- The description of a delete site, where `interrupted` tells which flags are set. -/
def DeleteSite.describe (s : DeleteSite) (interrupted : Flags) : String :=
  let interrupt :=
    if s.policy.interruptible then
      "Some(" ++ describeFlag (interrupted.isSet s.policy.flag) ++ ")"
    else "None"
  String.join
    ["ExecutionSite \x7b config: DeleteConfig \x7b strict: ", describeFlag s.policy.strict,
      ", foreign_hash_properties: ", describeFlag s.policy.foreignHash,
      ", interrupt: ", interrupt, " \x7d, limit: ", Decimal.text s.limit,
      ", entries: ", DeleteVariant.describeAll s.cache.entries,
      ", generalized: ", describeFlag s.cache.generalized,
      ", version: ", Decimal.text s.cache.version, " \x7d"]

end PropertyDelete
