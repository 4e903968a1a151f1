import ScanCircuit.Files.Tree
import ScanCircuit.Shell.World

/-!
# Conditions

The conditions of `test`: words, comparisons, questions about files, and what is made of
them by `!`, `-a`, `-o` and parentheses. A word that looks like an operator is one only
where an operator can stand.

This is a part of the shell that a generator may run in. It serves to run generators from
the command line only; no theorem depends on it.
-/

namespace ScanCircuit.Shell.Condition

/-- The words that are not operands. -/
inductive Operator where
  /-- A question about one word. -/
  | unary (letter : Char)
  /-- A question about two words. -/
  | binary (name : Bytes)
  | negation
  | conjunction
  | disjunction
  | opening
  | closing
  deriving DecidableEq, Repr

/-- The questions about two words. -/
def comparisons : List Bytes :=
  ["=", "!=", "<", ">", "-eq", "-ne", "-ge", "-gt", "-le", "-lt", "-nt", "-ot", "-ef"].map
    String.toList

/-- The operator that a word may be. -/
def operator? (word : Bytes) : Option Operator :=
  match word with
  | ['!'] => some .negation
  | ['('] => some .opening
  | [')'] => some .closing
  | ['-', 'a'] => some .conjunction
  | ['-', 'o'] => some .disjunction
  | ['-', letter] =>
      if "rwxefdcbpugkstznhLSOG".toList.contains letter then some (.unary letter)
      else none
  | _ => if comparisons.contains word then some (.binary word) else none

/-- Whether a word is a question about two words. -/
def isComparison (word : Bytes) : Bool :=
  match operator? word with
  | some (.binary _) => true
  | _ => false

/-- What the first of some words is. -/
inductive Look where
  | ended
  | operand
  | operator (op : Operator)
  deriving DecidableEq, Repr

/-- Whether a question about one word is only a word itself, by the words after it. -/
def isOperand : List Bytes → Bool
  | [] => true
  | [_] => false
  | word :: _ => isComparison word

/-- Look at the first of some words. -/
def look : List Bytes → Look
  | [] => .ended
  | word :: rest =>
      match operator? word with
      | some (.unary letter) => if isOperand rest then .operand else .operator (.unary letter)
      | some .opening => if rest = [] then .operand else .operator .opening
      | some op => .operator op
      | none => .operand

/-- The number that a word spells. -/
def number (word : Bytes) : Except Bytes Int :=
  match Numeral.read? false word with
  | some numeral =>
      if numeral.rest.all Bytes.isSpace ∧ numeral.fits then .ok numeral.signed
      else .error ("Illegal number: ".toList ++ word)
  | none => .error ("Illegal number: ".toList ++ word)

section Answers

variable (found? : Bytes → Option (Location × Entry))

/-- Answer a question about a file. -/
def askFile (letter : Char) (entry : Entry) : Bool :=
  match letter, entry with
  | 'e', _ | 'r', _ | 'w', _ | 'O', _ | 'G', _ => true
  | 'x', .directory | 'x', .program => true
  | 'f', .file _ | 'f', .program => true
  | 'd', .directory => true
  | 'p', .device (.stream _) => true
  | 'c', .device .null | 'c', .device .full => true
  | 's', .file content => !content.isEmpty
  | 's', .directory | 's', .program => true
  | _, _ => false

/-- Answer a question about one word. -/
def askOne (letter : Char) (word : Bytes) : Except Bytes Bool :=
  match letter with
  | 'z' => .ok word.isEmpty
  | 'n' => .ok !word.isEmpty
  | 't' => do
      let _ ← number word
      return false
  | _ => .ok ((found? word).any fun (_, entry) => askFile letter entry)

/-- Answer a question about two words. -/
def askTwo (op first second : Bytes) : Except Bytes Bool :=
  match Bytes.key op with
  | "=" => .ok (first = second)
  | "!=" => .ok (first ≠ second)
  | "<" => .ok (Bytes.precedes first second)
  | ">" => .ok (Bytes.precedes second first)
  | "-nt" | "-ot" => .ok false
  | "-ef" =>
      .ok ((found? first).isSome &&
        (found? first).map Prod.fst = (found? second).map Prod.fst)
  | name => do
      let left ← number first
      let right ← number second
      return match name with
        | "-eq" => left = right
        | "-ne" => left ≠ right
        | "-ge" => left ≥ right
        | "-gt" => left > right
        | "-le" => left ≤ right
        | _ => left < right

/-- An answer, and the words from the last one that belongs to it on. -/
abbrev Answer := Except Bytes (Bool × List Bytes)

/-- What is said about a word that does not fit. -/
def unexpected (word : Bytes) (reason : String) : Bytes :=
  if word = [] then reason.toList else word ++ ": ".toList ++ reason.toList

mutual

/-- Answers joined by `-o`. -/
def disjunction : Nat → Look → List Bytes → Answer
  | 0, _, _ => .error "too many arguments".toList
  | fuel + 1, found, words => do
      let (first, words) ← conjunction fuel found words
      if look (words.drop 1) = .operator .disjunction then
        let words := words.drop 2
        let (second, words) ← disjunction fuel (look words) words
        return (first || second, words)
      else return (first, words)

/-- Answers joined by `-a`. -/
def conjunction : Nat → Look → List Bytes → Answer
  | 0, _, _ => .error "too many arguments".toList
  | fuel + 1, found, words => do
      let (first, words) ← negation fuel found words
      if look (words.drop 1) = .operator .conjunction then
        let words := words.drop 2
        let (second, words) ← conjunction fuel (look words) words
        return (first && second, words)
      else return (first, words)

/-- An answer with `!` in front of it. -/
def negation : Nat → Look → List Bytes → Answer
  | 0, _, _ => .error "too many arguments".toList
  | fuel + 1, found, words =>
      if found = .operator .negation then do
        let found := look (words.drop 1)
        let words := if found = .ended then words else words.drop 1
        let (answer, words) ← negation fuel found words
        return (!answer, words)
      else primary fuel found words

/-- A question, or an answer in parentheses. -/
def primary : Nat → Look → List Bytes → Answer
  | 0, _, _ => .error "too many arguments".toList
  | fuel + 1, found, words =>
      match found with
      | .ended => .ok (false, words)
      | .operator .opening => do
          let words := words.drop 1
          let found := look words
          if found = .operator .closing then return (false, words)
          else
            let (answer, words) ← disjunction fuel found words
            let words := words.drop 1
            if look words = .operator .closing then return (answer, words)
            else .error "closing paren expected".toList
      | .operator (.unary letter) =>
          match words.drop 1 with
          | [] => .error (unexpected ['-', letter] "argument expected")
          | word :: rest => do
              let answer ← askOne found? letter word
              return (answer, word :: rest)
      | _ =>
          match words, look (words.drop 1) with
          | first :: _ :: rest, .operator (.binary op) =>
              match rest with
              | [] => .error (unexpected op "argument expected")
              | second :: rest => do
                  let answer ← askTwo found? op first second
                  return (answer, second :: rest)
          | word :: _, _ => .ok (!word.isEmpty, words)
          | [], _ => .ok (false, words)

end

/-- Answer words from the left. All of them have to be used. -/
def answerFrom (found : Look) (words : List Bytes) : Except Bytes Bool := do
  let (answer, rest) ← disjunction found? (4 * words.length + 8) found words
  match rest with
  | word :: _ :: _ => .error (unexpected word "unexpected operator")
  | _ => return answer

/-- Deny an answer, or leave it. -/
def denying (denied : Bool) (answer : Except Bytes Bool) : Except Bytes Bool :=
  if denied then answer.map (!·) else answer

/-- Whether words stand in parentheses. -/
def isGrouped (words : List Bytes) : Bool :=
  words.head? = some ['('] && words.getLast? = some [')']

/-- Answer three words. A comparison in the middle counts before anything else. -/
def answerThree (denied : Bool) (words : List Bytes) : Except Bytes Bool :=
  if words[1]?.any isComparison then denying denied (answerFrom found? .operand words)
  else if isGrouped words then
    let inner := (words.drop 1).dropLast
    denying denied (answerFrom found? (look inner) inner)
  else if words.head? = some ['!'] then
    denying true (answerFrom found? (look (words.drop 1)) (words.drop 1))
  else denying denied (answerFrom found? (look words) words)

/-- Answer the words of a condition, told what paths lead to. -/
def answer (words : List Bytes) : Except Bytes Bool :=
  match words.length with
  | 0 => .ok false
  | 3 => answerThree found? false words
  | 4 =>
      if isGrouped words then
        let inner := (words.drop 1).dropLast
        answerFrom found? (look inner) inner
      else if words.head? = some ['!'] then answerThree found? true (words.drop 1)
      else answerFrom found? (look words) words
  | _ => answerFrom found? (look words) words

end Answers

end ScanCircuit.Shell.Condition
