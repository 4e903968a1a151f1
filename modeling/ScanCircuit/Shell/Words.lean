import ScanCircuit.Shell.Scanner

/-!
# Reading words

A word ends before a blank or an operator that stands outside quotes. Inside double
quotes, braces and here-documents parameters and substitutions keep their meaning.

This is a part of the shell that a generator may run in. It serves to run generators from
the command line only; no theorem depends on it.
-/

namespace ScanCircuit.Shell

/-- Text of a zone. -/
def Zone.text (zone : Zone) (text : Bytes) : Part :=
  if zone.isQuoted then .quoted text else .plain text

/-- Whether a backslash quotes this byte inside double quotes and the like. -/
def Zone.escapes (zone : Zone) (char : Char) : Bool :=
  char = '\\' || char = '\x60' || char = '$' ||
    (char = '"' && zone ≠ .document) || (char = '\x7d' && zone = .quotedBraces)

/-- A backslash and the byte after it. -/
def readEscape (zone : Zone) : Reading Part := do
  advance
  match (← get).rest with
  | [] => return .quoted ['\\']
  | char :: _ =>
      advance
      if zone.isQuoted ∧ ¬zone.escapes char then return .quoted ['\\', char]
      else return .quoted [char]

/-- The text up to a single quote, which is taken. -/
def readSingle : Reading Part := do
  advance
  let scanner ← get
  let text := scanner.rest.takeWhile (· ≠ '\'')
  let line := scanner.line + text.count '\n'
  match scanner.rest.drop text.length with
  | [] =>
      set { scanner with rest := [], line }
      refuse "Unterminated quoted string"
  | _ :: rest =>
      set { scanner with rest, line }
      return .quoted text

/-- The name of a parameter that starts here. -/
def readName (first : Char) : Reading Bytes :=
  if Bytes.startsName first then takeRun Bytes.continuesName plenty
  else takeRun Char.isDigit plenty

/-- Take a byte that has no meaning where it stands. Lines are not counted then. -/
def drop : Reading Unit :=
  modify fun scanner => { scanner with rest := scanner.rest.drop 1 }

/-- What stands after the name of a parameter in braces. -/
def readUse (nested : Nested) (quoted : Bool) : Reading Use := do
  let zone := if quoted then Zone.quotedBraces else .braces
  let broken : Reading Use := do
    drop
    let _ ← nested.parts zone
    return .broken
  match ← peek with
  | some '\x7d' =>
      advance
      return .value
  | some '%' => trimmed '%' true
  | some '#' => trimmed '#' false
  | some ':' =>
      advance
      match ← peek with
      | some '\x7d' =>
          advance
          let _ ← nested.parts zone
          return .value
      | some char =>
          match unset? char with
          | some how =>
              advance
              return .unless how true (← nested.parts zone)
          | none => broken
      | none => broken
  | some char =>
      match unset? char with
      | some how =>
          advance
          return .unless how false (← nested.parts zone)
      | none => broken
  | none => broken
where
  /-- The sign of what to do with a parameter that has no value. -/
  unset? (char : Char) : Option OnUnset :=
    if char = '-' then some .supply
    else if char = '=' then some .assign
    else if char = '?' then some .fail
    else if char = '+' then some .replace
    else none
  /-- A sign once or twice, and the pattern after it. -/
  trimmed (sign : Char) (fromEnd : Bool) : Reading Use := do
    advance
    let longest ← accept sign
    return .trim fromEnd longest (← nested.parts .braces)

/-- What stands in braces after a dollar sign. -/
def readBraced (nested : Nested) (quoted : Bool) : Reading Part := do
  let zone := if quoted then Zone.quotedBraces else .braces
  let broken : Reading Part := do
    let _ ← nested.parts zone
    return .parameter [] .broken quoted
  match ← peek with
  | none => broken
  | some first =>
      if Bytes.startsName first ∨ first.isDigit then
        let name ← readName first
        return .parameter name (← readUse nested quoted) quoted
      else if first = '#' then
        advance
        match ← peek with
        | none => broken
        | some second =>
            if Bytes.continuesName second then
              let name ← readName second
              if ← accept '\x7d' then return .parameter name .length quoted else broken
            else if second ≠ '\x7d' ∧ (← get).rest[1]? = some '\x7d' then
              drop
              if isSpecial second then
                advance
                return .parameter [second] .length quoted
              else broken
            else return .parameter ['#'] (← readUse nested quoted) quoted
      else if isSpecial first then
        advance
        return .parameter [first] (← readUse nested quoted) quoted
      else
        if first ≠ '\x7d' then drop
        broken

/-- A script inside a word, up to the parenthesis that closes it. -/
def readScript (nested : Nested) : Reading Command := do
  let outside ← get
  set { outside with pushed := none, awaited := [], document := none }
  let body ← nested.list .loose
  let inside ← get
  match inside.pushed with
  | some .closing =>
      set { inside with
        pushed := outside.pushed, awaited := outside.awaited, document := outside.document }
      return body
  | token => unexpected (token.getD .eof) (some "\")\"")

/-- What a dollar sign stands for. -/
def readDollar (nested : Nested) (zone : Zone) : Reading Part := do
  advance
  let quoted := zone.isQuoted
  match ← peek with
  | some '(' =>
      advance
      if ← accept '(' then return .arithmetic (← nested.parts .arithmetic) quoted
      else
        let body ← readScript nested
        return .substitution body quoted
  | some '\x7b' =>
      advance
      readBraced nested quoted
  | some char =>
      if Bytes.startsName char then
        return .parameter (← readName char) .value quoted
      else if isSpecial char then
        advance
        return .parameter [char] .value quoted
      else return zone.text ['$']
  | none => return zone.text ['$']

/-- The script between backquotes, whose first has been taken. -/
def backquoted (quoted : Bool) : Nat → Reading Bytes
  | 0 => return []
  | fuel + 1 => do
      match ← peek with
      | none => refuse "EOF in backquote substitution"
      | some '\x60' =>
          advance
          return []
      | some '\\' =>
          advance
          match (← get).rest with
          | [] => refuse "EOF in backquote substitution"
          | char :: _ =>
              advance
              let more ← backquoted quoted fuel
              let kept := char = '\\' || char = '\x60' || char = '$' || (quoted && char = '"')
              return if kept then char :: more else '\\' :: char :: more
      | some char =>
          advance
          let more ← backquoted quoted fuel
          return char :: more

/-- The commands between backquotes. -/
def readBackquotes (nested : Nested) (zone : Zone) : Reading Part := do
  advance
  let script ← backquoted zone.isQuoted plenty
  let outside ← get
  set { outside with
    rest := script, line := 1, pushed := none, awaited := [], expansions := [],
    document := none }
  let body ← readingInside outside.rest.length (nested.list .loose)
  let inside ← get
  set { outside with documents := inside.documents, nextDocument := inside.nextDocument }
  return .substitution body zone.isQuoted

/-- The parts between double quotes, last first. A mark stands for the quotes themselves,
except around all the arguments alone, which leave nothing if there are none. -/
def inQuotes (inside : Word) : Word :=
  match inside with
  | [.parameter ['@'] .value _] => inside
  | _ => inside.reverse ++ [.quoted []]

/-- Give up because the text has ended inside a zone. -/
def unended {α : Type} (zone : Zone) : Reading α := do
  let isDocument := (← get).document.isSome
  match zone with
  | .arithmetic => refuse "Missing '))'"
  | .quotes | .quotedBraces =>
      refuse (if isDocument then "Missing '\x7d'" else "Unterminated quoted string")
  | _ => refuse "Missing '\x7d'"

/-- Read parts up to the end of a zone. The parts so far are held last first; `depth` counts
open parentheses of an arithmetic expression. -/
def readParts (nested : Nested) (zone : Zone) (depth : Nat) (parts : Word) : Nat → Reading Word
  | 0 => return mergeParts parts.reverse
  | fuel + 1 => do
      let finish : Reading Word := return mergeParts parts.reverse
      let goOn (part : Part) : Reading Word :=
        readParts nested zone depth (part :: parts) fuel
      match ← peek with
      | none =>
          match zone with
          | .bare | .mark | .document => finish
          | _ => unended zone
      | some '\\' =>
          let part ← readEscape zone
          goOn part
      | some '$' =>
          if zone = .mark then
            advance
            goOn (.plain ['$'])
          else
            let part ← readDollar nested zone
            goOn part
      | some '\x60' =>
          if zone = .mark then
            advance
            goOn (.plain ['\x60'])
          else
            let part ← readBackquotes nested zone
            goOn part
      | some '\'' =>
          match zone with
          | .bare | .mark | .braces =>
              let part ← readSingle
              goOn part
          | _ =>
              advance
              goOn (zone.text ['\''])
      | some '"' =>
          match zone with
          | .bare | .mark | .braces | .quotedBraces =>
              advance
              let inside ← nested.parts .quotes
              readParts nested zone depth (inQuotes inside ++ parts) fuel
          | .quotes =>
              advance
              finish
          | .document | .arithmetic =>
              advance
              goOn (zone.text ['"'])
      | some '\x7d' =>
          advance
          match zone with
          | .braces | .quotedBraces => finish
          | _ => goOn (zone.text ['\x7d'])
      | some ')' =>
          match zone with
          | .bare | .mark => finish
          | .arithmetic =>
              advance
              match depth with
              | 0 => if ← accept ')' then finish else goOn (zone.text [')'])
              | depth + 1 => readParts nested zone depth (zone.text [')'] :: parts) fuel
          | _ =>
              advance
              goOn (zone.text [')'])
      | some char =>
          match zone with
          | .bare | .mark =>
              if endsWord char then finish
              else
                advance
                goOn (.plain [char])
          | _ =>
              advance
              let depth := if zone = .arithmetic ∧ char = '(' then depth + 1 else depth
              let parts := zone.text [char] :: parts
              if char ≠ '\n' then readParts nested zone depth parts fuel
              else
                match ← lineStart with
                | .text bytes => readParts nested zone depth (zone.text bytes :: parts) fuel
                | .mark =>
                    if zone = .document then return mergeParts parts.reverse else unended zone

/-- The lines of a here-document that is taken as it is up to its mark, what is left after
them, and how many lines have been taken. -/
def verbatimLines (doc : Awaited) : Nat → Bytes → Bytes × Bytes × Nat
  | 0, rest => ([], rest, 0)
  | fuel + 1, rest =>
      let rest := if doc.strip then rest.dropWhile (· = '\t') else rest
      let line := rest.takeWhile (· ≠ '\n')
      let after := rest.drop line.length
      if line = doc.mark then ([], after.drop 1, after.length.min 1)
      else
        match after with
        | [] => (line, [], 0)
        | _ :: after =>
            let (more, left, count) := verbatimLines doc fuel after
            (line ++ '\n' :: more, left, count + 1)

/-- Read the text of a here-document. -/
def readDocument (nested : Nested) (doc : Awaited) : Reading Word := do
  let outside ← get
  if doc.verbatim then
    let (text, rest, count) := verbatimLines doc plenty outside.rest
    set { outside with rest, line := outside.line + count }
    return [.quoted text]
  else
    set { outside with pushed := none, document := some doc }
    let word ←
      match ← lineStart with
      | .mark => pure []
      | .text bytes => do
          let word ← nested.parts .document
          pure (if bytes = [] then word else .quoted bytes :: word)
    modify ({ · with pushed := outside.pushed, document := outside.document })
    return word

/-- Read the texts of the here-documents that are awaited. -/
def readDocuments (nested : Nested) : List Awaited → Reading Unit
  | [] => modify ({ · with awaited := [] })
  | doc :: rest => do
      let word ← readDocument nested doc
      modify fun scanner => { scanner with documents := (doc.id, word) :: scanner.documents }
      readDocuments nested rest

/-- A redirection sign after a descriptor. -/
def readSign (fd : Option Nat) : Reading Token := do
  let first ← peek
  advance
  if first = some '>' then
    let fd := fd.getD 1
    if ← accept '>' then return .redirect (.file fd .append)
    else if ← accept '|' then return .redirect (.file fd .clobber)
    else if ← accept '&' then return .redirect (.duplicate fd)
    else return .redirect (.file fd .write)
  else
    let fd := fd.getD 0
    if ← accept '<' then
      let strip ← accept '-'
      return .redirect (.document fd strip)
    else if ← accept '&' then return .redirect (.duplicate fd)
    else if ← accept '>' then return .redirect (.file fd .update)
    else return .redirect (.file fd .read)

/-- Read a word, or a redirection sign with a digit in front of it. -/
def readWord (nested : Nested) (zone : Zone) : Reading Token := do
  let word ← readParts nested zone 0 [] plenty
  let quoted := word.any Part.isQuoted
  let atSign := (← peek) = some '<' || (← peek) = some '>'
  match plainText? word with
  | some [] => if atSign then readSign none else return .word word quoted
  | some [digit] =>
      if atSign ∧ digit.isDigit then readSign (some (digit.toNat - '0'.toNat))
      else return .word word quoted
  | _ => return .word word quoted

/-- Skip a comment up to the end of its line. -/
def skipComment : Reading Unit :=
  modify fun scanner => { scanner with rest := scanner.rest.dropWhile (· ≠ '\n') }

/-- Read a token. -/
def readPlain (nested : Nested) (zone : Zone) : Nat → Reading Token
  | 0 => return .eof
  | fuel + 1 => do
      match ← peek with
      | none => return .eof
      | some ' ' | some '\t' =>
          advance
          readPlain nested zone fuel
      | some '#' =>
          skipComment
          readPlain nested zone fuel
      | some '\n' =>
          advance
          return .newline
      | some '&' =>
          advance
          return if ← accept '&' then .andIf else .ampersand
      | some '|' =>
          advance
          return if ← accept '|' then .orIf else .pipe
      | some ';' =>
          advance
          return if ← accept ';' then .endCase else .semicolon
      | some '(' =>
          advance
          return .opening
      | some ')' =>
          advance
          return .closing
      | some _ => readWord nested zone

/-- How the next token is looked at. -/
inductive Look where
  /-- Words are only words. -/
  | words
  /-- Words may be aliases. -/
  | aliases
  /-- Words may be keywords or aliases. -/
  | keywords
  /-- Words may be keywords or aliases, and line ends before them are skipped. -/
  | commands
  /-- Words may be keywords, and line ends before them are skipped. -/
  | arms
  /-- The word that ends a here-document. -/
  | mark
  deriving DecidableEq, Repr

namespace Look

/-- Whether a word may be a keyword. -/
def seesKeywords (look : Look) : Bool :=
  look = keywords || look = commands || look = arms

/-- Whether a word may be an alias. -/
def seesAliases (look : Look) : Bool :=
  look = aliases || look = keywords || look = commands

/-- Whether line ends are skipped. -/
def skipsLines (look : Look) : Bool :=
  look = commands || look = arms

end Look

/-- Put the text of an alias in its place, and say whether there was one. An alias does not
stand for its text inside that text. -/
def expandAlias (name : Bytes) : Reading Bool := do
  let scanner ← get
  match scanner.aliases.lookup name with
  | none => return false
  | some text =>
      let left := scanner.rest.length
      let expansions := scanner.expansions.filter (·.left ≤ left)
      if expansions.any (·.name = name) then return false
      else
        let blank := text.getLast? = some ' ' || text.getLast? = some '\t'
        set { scanner with
          rest := text ++ scanner.rest
          expansions := { name, left, blank } :: expansions }
        return true

/-- Whether the text of an alias with a blank at its end has been left between two states. -/
def Scanner.leftBlank (before after : Scanner) : Bool :=
  before.expansions.any fun expansion =>
    expansion.blank && before.rest.length > expansion.left &&
      after.rest.length ≤ expansion.left

/-- Read the next token, or the one that was put back. `aliasing` says whether a word may be an
alias in any case. -/
def readToken (nested : Nested) (look : Look) (aliasing : Bool) : Nat → Reading Token
  | 0 => return .eof
  | fuel + 1 => do
      let scanner ← get
      let token ←
        match scanner.pushed with
        | some token => do
            set { scanner with pushed := none }
            pure token
        | none =>
            readPlain nested (if look = .mark then .mark else .bare) plenty
      match token with
      | .newline =>
          if look.skipsLines then
            readDocuments nested (← get).awaited
            readToken nested look aliasing fuel
          else return token
      | .word word false =>
          match plainText? word with
          | some text =>
              if look.seesKeywords ∧ keywords.contains text then return .keyword text
              else
                let after ← get
                if aliasing || scanner.leftBlank after then
                  if ← expandAlias text then readToken nested look true fuel else return token
                else return token
          | none => return token
      | _ => return token

/-- Read the next token. -/
def next (nested : Nested) (look : Look) : Reading Token := do
  readToken nested look look.seesAliases plenty

end ScanCircuit.Shell
