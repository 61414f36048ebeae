/-!
# Code page 437

Every byte is one character: those below 128 are ASCII, the others are listed.
-/

namespace WebAudit.Text.CodePage437

def upper : Array Char :=
  ("ÇüéâäàåçêëèïîìÄÅ" ++
  "ÉæÆôöòûùÿÖÜ¢£¥₧ƒ" ++
  "áíóúñÑªº¿⌐¬½¼¡«»" ++
  "░▒▓│┤╡╢╖╕╣║╗╝╜╛┐" ++
  "└┴┬├─┼╞╟╚╔╩╦╠═╬╧" ++
  "╨╤╥╙╘╒╓╫╪┘┌█▄▌▐▀" ++
  "αßΓπΣσµτΦΘΩδ∞φε∩" ++
  "≡±≥≤⌠⌡÷≈°∙·√ⁿ²■\u00a0").toList.toArray

def decodeByte (b : UInt8) : Char :=
  if b < 0x80 then Char.ofNat b.toNat else upper.getD (b.toNat - 128) ' '

def decode (bytes : List UInt8) : String :=
  String.ofList (bytes.map decodeByte)

end WebAudit.Text.CodePage437
