import ScanCircuit.Shell.Bytes

/-!
# Arithmetic

Expressions over signed 64-bit words with the operators of C, assignments included.
Variables stand for the numbers that they spell.

This is a part of the shell that a generator may run in. It serves to run generators from
the command line only; no theorem depends on it.
-/

namespace ScanCircuit.Shell.Arithmetic

/-- Operators on two numbers. -/
inductive Operator where
  | mul | div | mod | add | sub | shiftLeft | shiftRight
  | less | lessEq | greater | greaterEq | equal | unequal
  | bitAnd | bitXor | bitOr
  deriving DecidableEq, Repr

/-- Operators on one number. -/
inductive Sign where
  | plus | minus | logicalNot | bitNot
  deriving DecidableEq, Repr

/-- Why there is no value. -/
inductive Failure where
  | expectingPrimary
  | expectingEnd
  | expectingColon
  | expectingClosing
  | divisionByZero
  /-- A variable that does not spell a number. -/
  | illegalNumber (text : Bytes)
  deriving DecidableEq, Repr

/-- An expression. -/
inductive Expr where
  | number (value : Int)
  | named (name : Bytes)
  | signed (sign : Sign) (expr : Expr)
  | binary (op : Operator) (left right : Expr)
  | both (left right : Expr)
  | either (left right : Expr)
  | choice (condition positive negative : Expr)
  | assign (name : Bytes) (op : Option Operator) (expr : Expr)
  /-- An expression that cannot be read any further. -/
  | cut (expr : Expr) (failure : Failure)
  deriving DecidableEq, Repr

/-- The tokens of an expression. -/
inductive Token where
  | number (value : Int)
  | name (name : Bytes)
  | operator (op : Operator)
  | assign (op : Option Operator)
  | logicalNot | bitNot | andIf | orIf | question | colon | opening | closing
  /-- Something that has no place in an expression. -/
  | unknown
  deriving DecidableEq, Repr

/-- The signs, longest first. -/
def signs : List (Bytes × Token) :=
  [("<<=", .assign (some .shiftLeft)), (">>=", .assign (some .shiftRight)),
   ("&&", .andIf), ("||", .orIf), ("==", .operator .equal), ("!=", .operator .unequal),
   ("<=", .operator .lessEq), (">=", .operator .greaterEq), ("<<", .operator .shiftLeft),
   (">>", .operator .shiftRight), ("+=", .assign (some .add)), ("-=", .assign (some .sub)),
   ("*=", .assign (some .mul)), ("/=", .assign (some .div)), ("%=", .assign (some .mod)),
   ("&=", .assign (some .bitAnd)), ("^=", .assign (some .bitXor)),
   ("|=", .assign (some .bitOr)), ("=", .assign none), ("<", .operator .less),
   (">", .operator .greater), ("+", .operator .add), ("-", .operator .sub),
   ("*", .operator .mul), ("/", .operator .div), ("%", .operator .mod),
   ("&", .operator .bitAnd), ("^", .operator .bitXor), ("|", .operator .bitOr),
   ("!", .logicalNot), ("~", .bitNot), ("?", .question), (":", .colon), ("(", .opening),
   (")", .closing)].map fun (sign, token) => (sign.toList, token)

/-- The tokens of a text. -/
def tokens : Nat → Bytes → List Token
  | 0, _ => []
  | _ + 1, [] => []
  | fuel + 1, char :: rest =>
      let text := char :: rest
      if Bytes.isSpace char then tokens fuel rest
      else if char.isDigit then
        match Numeral.read? true text with
        | some numeral => .number numeral.signed :: tokens fuel numeral.rest
        | none => [.unknown]
      else if Bytes.startsName char then
        .name (text.takeWhile Bytes.continuesName) ::
          tokens fuel (text.dropWhile Bytes.continuesName)
      else
        match signs.find? fun (sign, _) => sign.isPrefixOf text with
        | some (sign, token) => token :: tokens fuel (text.drop sign.length)
        | none => [.unknown]

/-- How tightly an operator binds; small numbers bind first. -/
def Operator.level : Operator → Nat
  | mul | div | mod => 0
  | add | sub => 1
  | shiftLeft | shiftRight => 2
  | less | lessEq | greater | greaterEq => 3
  | equal | unequal => 4
  | bitAnd => 5
  | bitXor => 6
  | bitOr => 7

/-- A read expression and the tokens after it, unless it has been cut. What has been read
counts also then, because it is evaluated before it is found that the rest makes no sense. -/
abbrev Parsed := Expr × Option (List Token)

/-- Nothing can be read here. -/
def nothing (failure : Failure) : Parsed := (.cut (.number 0) failure, none)

/-- Read on behind an expression, unless it has been cut. -/
def Parsed.andThen (parsed : Parsed) (wrap : Expr → Expr)
    (next : Expr → List Token → Parsed) : Parsed :=
  match parsed with
  | (expr, none) => (wrap expr, none)
  | (expr, some rest) => next expr rest

/-- Operators of a level or below, after their left side. -/
def climb (operand : List Token → Parsed) (level : Nat) :
    Nat → Expr → List Token → Parsed
  | 0, left, tokens => (left, some tokens)
  | fuel + 1, left, tokens =>
      match tokens with
      | .operator op :: rest =>
          if op.level ≤ level then
            (operand rest).andThen (.binary op left) fun first rest =>
              let right : Parsed :=
                match op.level with
                | 0 => (first, some rest)
                | below + 1 => climb operand below fuel first rest
              right.andThen (.binary op left) fun right rest =>
                climb operand level fuel (.binary op left right) rest
          else (left, some tokens)
      | _ => (left, some tokens)

/-- Operands joined by a logical operator. -/
def chain (operand : List Token → Parsed) (sign : Token) (join : Expr → Expr → Expr) :
    Nat → List Token → Parsed
  | 0, tokens => operand tokens
  | fuel + 1, tokens =>
      (operand tokens).andThen id fun left rest =>
        match rest with
        | token :: more =>
            if token = sign then
              (chain operand sign join fuel more).andThen (join left) fun right rest =>
                (join left right, some rest)
            else (left, some rest)
        | [] => (left, some rest)

/-- The forms of an expression from a reader of what stands in it, one level down. -/
structure Readers where
  assignment : List Token → Parsed
  primary : List Token → Parsed
  conditional : List Token → Parsed

/-- The readers with so many levels inside them. -/
def readers : Nat → Readers
  | 0 =>
      { assignment := fun _ => nothing .expectingPrimary
        primary := fun _ => nothing .expectingPrimary
        conditional := fun _ => nothing .expectingPrimary }
  | depth + 1 =>
      let inner := readers depth
      let signed (sign : Sign) (rest : List Token) : Parsed :=
        (inner.primary rest).andThen (.signed sign) fun expr rest =>
          (.signed sign expr, some rest)
      let primary (tokens : List Token) : Parsed :=
        match tokens with
        | .number value :: rest => (.number value, some rest)
        | .name name :: rest => (.named name, some rest)
        | .opening :: rest =>
            (inner.assignment rest).andThen id fun expr rest =>
              match rest with
              | .closing :: rest => (expr, some rest)
              | _ => (.cut expr .expectingClosing, none)
        | .operator .add :: rest => signed .plus rest
        | .operator .sub :: rest => signed .minus rest
        | .logicalNot :: rest => signed .logicalNot rest
        | .bitNot :: rest => signed .bitNot rest
        | _ => nothing .expectingPrimary
      let arithmetic (tokens : List Token) : Parsed :=
        (primary tokens).andThen id (climb primary 7 tokens.length)
      let conjunction (tokens : List Token) : Parsed :=
        chain arithmetic .andIf .both tokens.length tokens
      let conditional (tokens : List Token) : Parsed :=
        (chain conjunction .orIf .either tokens.length tokens).andThen id fun condition rest =>
          let choice (positive : Expr) : Expr := .choice condition positive (.number 0)
          match rest with
          | .question :: rest =>
              (inner.assignment rest).andThen choice fun positive rest =>
                match rest with
                | .colon :: rest =>
                    (inner.conditional rest).andThen (.choice condition positive)
                      fun negative rest => (.choice condition positive negative, some rest)
                | _ => (.cut (choice positive) .expectingColon, none)
          | _ => (condition, some rest)
      let assignment (tokens : List Token) : Parsed :=
        match tokens with
        | .name name :: .assign op :: rest =>
            (inner.assignment rest).andThen (.assign name op) fun expr rest =>
              (.assign name op expr, some rest)
        | _ => conditional tokens
      { assignment, primary, conditional }

/-- The expression that a text spells. -/
def parse (text : Bytes) : Expr :=
  let found := tokens (text.length + 1) text
  match (readers (min found.length 200 + 2)).assignment found with
  | (expr, none) | (expr, some []) => expr
  | (expr, some _) => .cut expr .expectingEnd

/-- Why an expression cannot be read any further, if it cannot. -/
def Expr.failure? : Expr → Option Failure
  | number _ | named _ => none
  | signed _ expr | assign _ _ expr => expr.failure?
  | binary _ left right | both left right | either left right =>
      left.failure?.or right.failure?
  | choice condition positive negative =>
      (condition.failure?.or positive.failure?).or negative.failure?
  | cut expr failure => expr.failure?.or (some failure)

/-- Pass over an expression. It has to make sense all the same. -/
def Expr.skip (expr : Expr) : Except Failure Unit :=
  match expr.failure? with
  | some failure => .error failure
  | none => .ok ()

/-- A truth value as a number. -/
def truth (value : Bool) : Int := if value then 1 else 0

/-- A power of two. -/
def twoTo (exponent : Nat) : Nat := Nat.pow 2 exponent

/-- The value of an operator on two words. -/
def Operator.apply (op : Operator) (left right : Int) : Except Failure Int :=
  let shift := (right % 64).toNat
  match op with
  | mul => .ok (wrapSigned (left * right))
  | div => if right = 0 then .error .divisionByZero else .ok (wrapSigned (Int.tdiv left right))
  | mod => if right = 0 then .error .divisionByZero else .ok (Int.tmod left right)
  | add => .ok (wrapSigned (left + right))
  | sub => .ok (wrapSigned (left - right))
  | shiftLeft => .ok (wrapSigned (left * twoTo shift))
  | shiftRight => .ok (Int.fdiv left (twoTo shift))
  | less => .ok (truth (left < right))
  | lessEq => .ok (truth (left ≤ right))
  | greater => .ok (truth (left > right))
  | greaterEq => .ok (truth (left ≥ right))
  | equal => .ok (truth (left = right))
  | unequal => .ok (truth (left ≠ right))
  | bitAnd => .ok (wrapSigned (Nat.land (wordBits left) (wordBits right)))
  | bitXor => .ok (wrapSigned (Nat.xor (wordBits left) (wordBits right)))
  | bitOr => .ok (wrapSigned (Nat.lor (wordBits left) (wordBits right)))

/-- The value of a sign on a word. -/
def Sign.apply (sign : Sign) (value : Int) : Int :=
  match sign with
  | plus => value
  | minus => wrapSigned (-value)
  | logicalNot => truth (value = 0)
  | bitNot => wrapSigned (-value - 1)

/-- The number that the value of a variable spells. An empty value counts as zero. -/
def variableValue (text : Bytes) : Except Failure Int :=
  if text.all Bytes.isSpace then .ok 0
  else
    match Numeral.read? true text with
    | some numeral =>
        if numeral.rest.all Bytes.isSpace ∧ numeral.fits then .ok numeral.signed
        else .error (.illegalNumber text)
    | none => .error (.illegalNumber text)

/-- Evaluate an expression, given how variables are read and set. -/
def Expr.eval {σ : Type} (get : σ → Bytes → Bytes) (set : σ → Bytes → Bytes → σ) :
    Expr → σ → Except Failure (Int × σ)
  | number value, state => .ok (value, state)
  | named name, state => do return (← variableValue (get state name), state)
  | signed sign expr, state => do
      let (value, state) ← expr.eval get set state
      return (sign.apply value, state)
  | binary op left right, state => do
      let (first, state) ← left.eval get set state
      let (second, state) ← right.eval get set state
      return (← op.apply first second, state)
  | both left right, state => do
      let (first, state) ← left.eval get set state
      if first = 0 then
        right.skip
        return (0, state)
      else
        let (second, state) ← right.eval get set state
        return (truth (second ≠ 0), state)
  | either left right, state => do
      let (first, state) ← left.eval get set state
      if first ≠ 0 then
        right.skip
        return (1, state)
      else
        let (second, state) ← right.eval get set state
        return (truth (second ≠ 0), state)
  | choice condition positive negative, state => do
      let (value, state) ← condition.eval get set state
      if value ≠ 0 then
        let chosen ← positive.eval get set state
        negative.skip
        return chosen
      else
        positive.skip
        negative.eval get set state
  | assign name op expr, state => do
      let (value, state) ← expr.eval get set state
      let value ←
        match op with
        | none => pure value
        | some op => op.apply (← variableValue (get state name)) value
      return (value, set state name (Bytes.ofInt value))
  | cut expr failure, state => do
      let _ ← expr.eval get set state
      .error failure

/-- What is said about a failure in a text. -/
def Failure.message (text : Bytes) : Failure → Bytes
  | expectingPrimary => complaint "expecting primary"
  | expectingEnd => complaint "expecting EOF"
  | expectingColon => complaint "expecting ':'"
  | expectingClosing => complaint "expecting ')'"
  | divisionByZero => complaint "division by zero"
  | illegalNumber value => "Illegal number: ".toList ++ value
where
  /-- A complaint about the text as a whole. -/
  complaint (reason : String) : Bytes :=
    "arithmetic expression: ".toList ++ reason.toList ++ ": \"".toList ++ text ++ ['"']

end ScanCircuit.Shell.Arithmetic
