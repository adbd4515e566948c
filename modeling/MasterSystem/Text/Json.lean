/-! # JSON values

The documents that the program exchanges with its host: settings that it reads, and snapshots of
its registers and summaries of a run that it writes.  A number is either an integer or a decimal
kept as it is written. -/

namespace MasterSystem.Text

/-- A JSON value.  The fields of an object keep their order. -/
inductive Json where
  | null
  | bool (b : Bool)
  | int (n : Int)
  | decimal (text : String)
  | string (s : String)
  | array (items : List Json)
  | object (fields : List (String × Json))
deriving Inhabited

namespace Json

/-- A natural number. -/
def nat (n : Nat) : Json := .int n

end Json

end MasterSystem.Text
