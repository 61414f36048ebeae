import WebAudit.Json.Value
import WebAudit.Text.Quoted

/-!
# Values in messages

How a value reads inside a message: texts stand as they are, or in quotation marks where they are
part of something else.
-/

namespace WebAudit.Json

def Value.form : Value → String
  | .null => "NoneType"
  | .bool _ => "bool"
  | .int _ => "int"
  | .real _ => "float"
  | .str _ => "str"
  | .arr _ => "list"
  | .obj _ => "dict"

mutual

def Value.literal : Value → List Char
  | .null => "None".toList
  | .bool true => "True".toList
  | .bool false => "False".toList
  | .int n => (toString n).toList
  | .real x => (x.text "inf" "nan").toList
  | .str s => (Text.quote s).toList
  | .arr items => '[' :: literalItems items ++ [']']
  | .obj fields => '{' :: literalFields fields ++ ['}']

def literalItems : List Value → List Char
  | [] => []
  | [v] => v.literal
  | v :: w :: rest => v.literal ++ ',' :: ' ' :: literalItems (w :: rest)

def literalFields : List (String × Value) → List Char
  | [] => []
  | [(k, v)] => (Text.quote k).toList ++ ':' :: ' ' :: v.literal
  | (k, v) :: f :: rest =>
    (Text.quote k).toList ++ ':' :: ' ' :: v.literal ++ ',' :: ' ' :: literalFields (f :: rest)

end

def Value.wording : Value → List Char
  | .str s => s.toList
  | v => v.literal

end WebAudit.Json
