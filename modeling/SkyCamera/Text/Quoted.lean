import SkyCamera.Text.Hidden

/-!
Texts in double quotes, with escapes for what would not show.
-/
namespace SkyCamera.Text

def escape (c : Char) : String :=
  match c with
  | '\x00' => "\\0"
  | '\t' => "\\t"
  | '\r' => "\\r"
  | '\n' => "\\n"
  | '"' => "\\\""
  | '\\' => "\\\\"
  | c =>
    if isHidden c then "\\u\x7b" ++ String.ofList (Nat.toDigits 16 c.toNat) ++ "\x7d"
    else String.singleton c

def quoted (cs : List Char) : String := "\"" ++ String.join (cs.map escape) ++ "\""

end SkyCamera.Text
