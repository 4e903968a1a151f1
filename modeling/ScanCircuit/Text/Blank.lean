/-!
# Blank characters

The characters of the Unicode property `White_Space`, and the three ways text is
cut at them: dropping them from the end, dropping them from both ends, and
splitting into the words between them.
-/

namespace ScanCircuit.Text

/-- Whether a character has the Unicode property `White_Space`. -/
def isBlank (char : Char) : Bool :=
  let code := char.toNat
  (0x9 ≤ code && code ≤ 0xD) || code == 0x20 || code == 0x85 || code == 0xA0 ||
    code == 0x1680 || (0x2000 ≤ code && code ≤ 0x200A) || code == 0x2028 ||
    code == 0x2029 || code == 0x202F || code == 0x205F || code == 0x3000

/-- The characters without the blanks at their end. -/
def dropBlankEnd (chars : List Char) : List Char :=
  (chars.reverse.dropWhile isBlank).reverse

/-- The text without the blanks at either end. -/
def trim (text : String) : String :=
  String.ofList (dropBlankEnd (text.toList.dropWhile isBlank))

/-- The word collected so far, last character first, as zero or one words. -/
def pendingWord : List Char → List String
  | [] => []
  | collected => [String.ofList collected.reverse]

/-- The words of the remaining characters, given the word being collected. -/
def wordsFrom (collected : List Char) : List Char → List String
  | [] => pendingWord collected
  | char :: rest =>
      if isBlank char then pendingWord collected ++ wordsFrom [] rest
      else wordsFrom (char :: collected) rest

/-- The maximal runs of characters that are not blank, in order. -/
def words (text : String) : List String :=
  wordsFrom [] text.toList

end ScanCircuit.Text
