import ScanCircuit.Tool.Escape

/-!
# `echo`

Print the arguments with single blanks between them, and a line end. As a program of its
own `echo` counts escapes only on demand; inside a script it always does.

This is a part of the tools that a generator may call. They serve to run generators from
the command line only; no theorem depends on them.
-/

namespace ScanCircuit.Tool

open Shell

/-- The escapes of the program. -/
def echoDialect : Dialect :=
  { afterZero := 3, bareOctal := true, hexadecimal := true, stops := true, doubleQuote := false }

/-- The escapes inside a script. -/
def scriptDialect : Dialect :=
  { afterZero := 3, bareOctal := true, hexadecimal := false, stops := true, doubleQuote := false }

/-- What the options of `echo` ask for. -/
structure EchoStyle where
  /-- Whether backslash escapes count. -/
  escapes : Bool := false
  /-- Whether the line end is left out. -/
  unended : Bool := false
  deriving DecidableEq, Repr

/-- Take the options in front of the arguments. -/
def echoOptions (style : EchoStyle) : List Bytes → EchoStyle × List Bytes
  | [] => (style, [])
  | arg :: rest =>
      match arg with
      | '-' :: letter :: letters =>
          if (letter :: letters).all ['n', 'e', 'E'].contains then
            let style := (letter :: letters).foldl
              (fun style letter =>
                if letter = 'n' then { style with unended := true }
                else { style with escapes := letter = 'e' })
              style
            echoOptions style rest
          else (style, arg :: rest)
      | _ => (style, arg :: rest)

/-- The output of `echo` in a style. -/
def echoText (dialect : Dialect) (style : EchoStyle) (words : List Bytes) : Bytes :=
  let text := Bytes.join [' '] words
  let (text, stopped) := if style.escapes then dialect.unescape text else (text, false)
  if style.unended ∨ stopped then text else text ++ ['\n']

/-- The program `echo`. -/
def echo (start : Start) : Ran :=
  if start.args = ["--help".toList] then start.help
  else if start.args = ["--version".toList] then version "echo"
  else
    let (style, words) := echoOptions {} start.args
    printing (echoText echoDialect style words)

/-- `echo` inside a script, which knows one option. -/
def scriptEcho (args : List Bytes) : Bytes :=
  match args with
  | ['-', 'n'] :: words => echoText scriptDialect { escapes := true, unended := true } words
  | words => echoText scriptDialect { escapes := true } words

end ScanCircuit.Tool
