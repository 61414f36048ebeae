import WebAudit.Number.Double
import WebAudit.Table

/-!
# JSON values

Whole numbers and numbers with a point or an exponent are kept apart. An object keeps the order in
which its keys came first.
-/

namespace WebAudit.Json

inductive Value where
  | null
  | bool (b : Bool)
  | int (n : Int)
  | real (x : Number.Double)
  | str (s : String)
  | arr (items : List Value)
  | obj (fields : List (String × Value))
deriving Repr, Inhabited

namespace Value

def field? (v : Value) (key : String) : Option Value :=
  match v with
  | obj fields => fields.lookup key
  | _ => none

def str? : Value → Option String
  | str s => some s
  | _ => none

end Value

end WebAudit.Json
