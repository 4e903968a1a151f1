import ScanCircuit.Shell.Arguments

/-!
# The mask of new files

The permissions that new files do not get, as three octal digits for the owner, the group and
the others.

This is a part of the shell that a generator may run in. It serves to run generators from
the command line only; no theorem depends on it.
-/

namespace ScanCircuit.Shell

/-- The letters of permissions, with their values in a digit. -/
def permissionLetters : List (Char × Nat) :=
  [('r', 4), ('w', 2), ('x', 1)]

/-- The digits of the owner, the group and the others in a mask. -/
def maskDigits (mask : Nat) : List Nat :=
  [mask / 64 % 8, mask / 8 % 8, mask % 8]

/-- The permissions that a mask leaves, by letters. -/
def maskLetters (mask : Nat) : Bytes :=
  Bytes.join [','] <| (['u', 'g', 'o'].zip (maskDigits mask)).map fun (who, digit) =>
    who :: '=' :: permissionLetters.filterMap fun (letter, value) =>
      if digit / value % 2 = 0 then some letter else none

/-- A mask by digits. -/
def maskNumber (mask : Nat) : Bytes :=
  '0' :: (maskDigits mask).map Nat.digitChar

/-- One of the changes that make a new mask. -/
structure MaskChange where
  /-- Which digits change. -/
  who : List Bool
  sign : Char
  /-- The value that is set, added or taken away. -/
  value : Nat
  deriving DecidableEq, Repr

/-- The value of letters of permissions. Some letters refer to what is left by the old mask. -/
def permissionValue (left : List Nat) (letters : Bytes) : Nat :=
  letters.foldl (fun value letter => value ||| valueOf letter) 0
where
  /-- The value of a letter. -/
  valueOf (letter : Char) : Nat :=
    match letter, left with
    | 'r', _ => 4
    | 'w', _ => 2
    | 'x', _ => 1
    | 'u', owner :: _ => owner
    | 'g', [_, group, _] => group
    | 'o', [_, _, others] => others
    | 'X', _ => if left.any (· % 2 = 1) then 1 else 0
    | _, _ => 0

/-- Read signs and the letters after them. -/
def MaskChange.readFrom (left : List Nat) (who : List Bool) :
    Nat → Bytes → Option (List MaskChange)
  | 0, _ | _ + 1, [] => some []
  | fuel + 1, sign :: rest =>
      let letters := rest.takeWhile "rwxugoXs".toList.contains
      if "=+-".toList.contains sign then do
        let more ← MaskChange.readFrom left who fuel (rest.drop letters.length)
        return { who, sign, value := permissionValue left letters } :: more
      else none

/-- Read changes for the same digits. -/
def MaskChange.read? (left : List Nat) (text : Bytes) : Option (List MaskChange) :=
  let letters := text.takeWhile "augo".toList.contains
  let all := letters = [] || letters.contains 'a'
  let who := ['u', 'g', 'o'].map fun letter => all || letters.contains letter
  if text = [] then none
  else MaskChange.readFrom left who text.length (text.drop letters.length)

/-- Read changes between commas. A comma may stand at the end. -/
def MaskChange.readAll? (left : List Nat) (text : Bytes) : Option (List MaskChange) :=
  let pieces := Bytes.splitAt ',' [] text
  let pieces := if pieces.getLast? = some [] then pieces.dropLast else pieces
  (pieces.mapM (MaskChange.read? left)).map List.flatten

/-- Change the permissions that are left. -/
def MaskChange.apply (left : List Nat) (change : MaskChange) : List Nat :=
  (left.zip change.who).map fun (digit, changes) =>
    if ¬changes then digit
    else if change.sign = '=' then change.value
    else if change.sign = '+' then digit ||| change.value
    else digit - (digit &&& change.value)

/-- The mask that a word spells. -/
def readMask (mask : Nat) (word : Bytes) : Step Nat :=
  if word.head?.any Char.isDigit then
    if word.all fun char => '0' ≤ char && char < '8' then
      return word.foldl (fun total char => total * 8 + (char.toNat - 48)) 0 % 512
    else fault ("Illegal number: ".toList ++ word)
  else
    let left := (maskDigits mask).map (7 - ·)
    match if word = [','] then none else MaskChange.readAll? left word with
    | some changes =>
        let left := changes.foldl MaskChange.apply left
        return left.foldl (fun total digit => total * 8 + (7 - digit)) 0
    | none => fault ("Illegal mode: ".toList ++ word)

/-- Print the mask of new files, or change it. -/
def maskBuiltin (args : List Bytes) : Step Nat := do
  let (letter, args) ← lettersFrom ['S'] none args
  let mask := (← get).mask
  match args with
  | [] => output ((if letter.isSome then maskLetters mask else maskNumber mask) ++ ['\n'])
  | word :: _ =>
      let mask ← readMask mask word
      modify ({ · with mask })
      return 0

end ScanCircuit.Shell
