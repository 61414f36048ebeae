import WebAudit.Record
import WebAudit.Script.Kind
import WebAudit.Text.FileName

/-!
# Content kinds by extension
-/

namespace WebAudit

abbrev KindTable := List (String × ContentKind)

def defaultKinds : KindTable :=
  [(".js", .script), (".jsx", .script), (".mjs", .script), (".cjs", .script), (".ts", .script),
   (".tsx", .script), (".css", .stylesheet), (".scss", .stylesheet), (".sass", .stylesheet),
   (".less", .stylesheet), (".html", .markup), (".htm", .markup), (".json", .structuredData),
   (".md", .prose), (".txt", .plainText)]

/-- The kind of the file at a path; only its extension counts. -/
def classify (path : String) (table : KindTable := defaultKinds) : ContentKind :=
  let ext := Text.extension path
  if ext.isEmpty then .unsupported else (table.lookup ext).getD .unsupported

def scriptDialect (path : String) : Script.Dialect :=
  match Text.extension path with
  | ".ts" => .typescript
  | ".tsx" => .tsx
  | _ => .javascript

end WebAudit
