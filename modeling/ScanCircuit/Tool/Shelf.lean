import ScanCircuit.Shell.Condition
import ScanCircuit.Tool.Cat
import ScanCircuit.Tool.Cut
import ScanCircuit.Tool.Echo
import ScanCircuit.Tool.Printf

/-!
# The tools of a system

All tools by their names.

This is a part of the tools that a generator may call. They serve to run generators from
the command line only; no theorem depends on them.
-/

namespace ScanCircuit.Tool

open Shell

/-- Answer a condition. -/
def test (start : Start) (words : List Bytes) : Ran :=
  match Condition.answer start.entry words with
  | .ok answer => { status := if answer then 0 else 1 }
  | .error message => failing (start.complaint message) 2

/-- Answer a condition in brackets. -/
def bracket (start : Start) : Ran :=
  if start.args.getLast? = some [']'] then test start start.args.dropLast
  else failing (start.complaint "missing ']'".toList) 2

/-- The tools by their names. -/
def shelf : List (String × (Start → Ran)) :=
  [("[", bracket), ("cat", cat), ("cut", cut), ("echo", echo), ("false", fun _ => { status := 1 }),
   ("printf", printf), ("sleep", fun _ => {}), ("test", fun start => test start start.args),
   ("true", fun _ => {})]

end ScanCircuit.Tool
