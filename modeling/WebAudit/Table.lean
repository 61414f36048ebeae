/-!
# Tables

A table lists keys with their values. Putting a value under a key that is there replaces the old
value in its place; a new key goes to the end.
-/

namespace WebAudit.Table

variable {α : Type}

def put (key : String) (value : α) : List (String × α) → List (String × α)
  | [] => [(key, value)]
  | (k, v) :: rest => if k = key then (k, value) :: rest else (k, v) :: put key value rest

def keys (table : List (String × α)) : List String :=
  table.map (·.1)

end WebAudit.Table
