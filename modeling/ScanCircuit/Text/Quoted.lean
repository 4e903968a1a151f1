import ScanCircuit.Text.Shapeless

/-!
# Quoted characters and texts

The form in which messages show a character or a text: inside quotes, with a
backslash escape for the quote itself, the backslash, the usual control
characters, and every character that has no shape of its own.
-/

namespace ScanCircuit.Text

/-- A number in lowercase hexadecimal without leading zeros. -/
def hex (number : Nat) : String :=
  String.ofList (Nat.toDigits 16 number)

/-- The escape that names a character by its code point. -/
def codePointEscape (char : Char) : String :=
  "\\u\x7b" ++ hex char.toNat ++ "\x7d"

/-- Whether a character can stand for itself between quotes. -/
def isPlain (char : Char) : Bool :=
  let code := char.toNat
  if code < 0x20 then false
  else if code < 0x7F then true
  else if code < 0xA0 then false
  else !isShapeless char

/-- One character as it stands between two quotes of the given kind. -/
def quotedChar (quote : Char) (char : Char) : String :=
  if char = quote then String.ofList ['\\', char]
  else if char = '\\' then "\\\\"
  else if char = '\x00' then "\\0"
  else if char = '\t' then "\\t"
  else if char = '\r' then "\\r"
  else if char = '\n' then "\\n"
  else if isPlain char then String.singleton char
  else codePointEscape char

/-- A character between single quotes. -/
def quoteChar (char : Char) : String :=
  "'" ++ quotedChar '\'' char ++ "'"

/-- A text between double quotes. -/
def quote (text : String) : String :=
  "\"" ++ String.join (text.toList.map (quotedChar '"')) ++ "\""

/-- Items between square brackets, separated by a comma and a blank. -/
def bracketed (items : List String) : String :=
  "[" ++ ", ".intercalate items ++ "]"

end ScanCircuit.Text
