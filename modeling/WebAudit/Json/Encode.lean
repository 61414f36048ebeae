import WebAudit.Json.Value
import WebAudit.Text.Quoted

/-!
# Writing JSON

Only printable ASCII is written as it is. Characters beyond the first plane take two escapes. Items
are separated by a comma and a blank, a key and its value by a colon and a blank.
-/

namespace WebAudit.Json

def unitEscape (unit : Nat) : List Char :=
  '\\' :: 'u' :: Text.hexDigits 4 unit

def escapeChar (c : Char) : List Char :=
  let n := c.toNat
  if c == '"' then ['\\', '"']
  else if c == '\\' then ['\\', '\\']
  else if 0x20 ≤ n && n ≤ 0x7E then [c]
  else if c == '\n' then ['\\', 'n']
  else if c == '\r' then ['\\', 'r']
  else if c == '\t' then ['\\', 't']
  else if n == 8 then ['\\', 'b']
  else if n == 12 then ['\\', 'f']
  else if n < 0x10000 then unitEscape n
  else unitEscape (0xD800 + (n - 0x10000) / 0x400) ++ unitEscape (0xDC00 + (n - 0x10000) % 0x400)

def encodeString (s : String) : List Char :=
  '"' :: s.toList.flatMap escapeChar ++ ['"']

mutual
def Value.encodeChars : Value → List Char
  | .null => "null".toList
  | .bool true => "true".toList
  | .bool false => "false".toList
  | .int n => (toString n).toList
  | .real x => (x.text "Infinity" "NaN").toList
  | .str s => encodeString s
  | .arr items => '[' :: encodeItems items ++ [']']
  | .obj fields => '{' :: encodeFields fields ++ ['}']

def encodeItems : List Value → List Char
  | [] => []
  | [v] => v.encodeChars
  | v :: w :: rest => v.encodeChars ++ ',' :: ' ' :: encodeItems (w :: rest)

def encodeFields : List (String × Value) → List Char
  | [] => []
  | [(k, v)] => encodeString k ++ ':' :: ' ' :: v.encodeChars
  | (k, v) :: f :: rest =>
    encodeString k ++ ':' :: ' ' :: v.encodeChars ++ ',' :: ' ' :: encodeFields (f :: rest)
end

theorem encodeChars_int (n : Int) : (Value.int n).encodeChars = (toString n).toList := rfl

theorem encodeChars_real (x : Number.Double) :
    (Value.real x).encodeChars = (x.text "Infinity" "NaN").toList := rfl

theorem encodeChars_str (s : String) : (Value.str s).encodeChars = encodeString s := rfl

theorem encodeChars_arr (items : List Value) :
    (Value.arr items).encodeChars = '[' :: encodeItems items ++ [']'] := rfl

theorem encodeChars_obj (fields : List (String × Value)) :
    (Value.obj fields).encodeChars = '{' :: encodeFields fields ++ ['}'] := rfl

theorem encodeItems_singleton (v : Value) : encodeItems [v] = v.encodeChars := rfl

theorem encodeItems_cons_cons (v w : Value) (rest : List Value) :
    encodeItems (v :: w :: rest) = v.encodeChars ++ ',' :: ' ' :: encodeItems (w :: rest) := rfl

theorem encodeFields_singleton (f : String × Value) :
    encodeFields [f] = encodeString f.1 ++ ':' :: ' ' :: f.2.encodeChars := rfl

theorem encodeFields_cons_cons (f g : String × Value) (rest : List (String × Value)) :
    encodeFields (f :: g :: rest) =
      encodeString f.1 ++ ':' :: ' ' :: f.2.encodeChars ++ ',' :: ' ' :: encodeFields (g :: rest) := rfl

def Value.encode (v : Value) : String :=
  String.ofList v.encodeChars

end WebAudit.Json
