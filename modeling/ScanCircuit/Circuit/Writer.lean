import ScanCircuit.Text.Blank

/-!
# Writing lines

A writer lays a text out line by line. It counts the blocks that are open: a header
opens one, and the end of a block closes the innermost. The count is the depth of the
next line, and nothing else of what was written has an effect on it.
-/

namespace ScanCircuit.Circuit

/-- A line of text at a nesting depth. -/
structure Line where
  depth : Nat
  text : String
  deriving DecidableEq, Repr

/-- The characters of a line with its indentation and its end. -/
def Line.chars (indent : String) (line : Line) : List Char :=
  if line.text = "" then ['\n']
  else (List.replicate line.depth indent.toList).flatten ++ line.text.toList ++ ['\n']

/-- The characters of lines one after another. -/
def joinLines (indent : String) (lines : List Line) : List Char :=
  lines.flatMap (Line.chars indent)

/-- The header of a block. -/
def opening (header : String) : String := header ++ " \x7b"

/-- The end of a block. -/
def closing : String := "\x7d"

/-- A call of a writer. -/
inductive Call where
  | line (text : String)
  /-- Write the header of a block, and open the block. -/
  | enter (header : String)
  /-- Close the innermost block, and write its end. -/
  | leave
  deriving DecidableEq, Repr

/-- How many blocks are open, and the lines so far. -/
structure Writer where
  depth : Nat := 0
  lines : Array Line := #[]

namespace Writer

/-- Write a line at the depth of the writer. -/
def write (writer : Writer) (text : String) : Writer :=
  { writer with lines := writer.lines.push ⟨writer.depth, text⟩ }

/-- Carry out a call. Where no block is open, none is closed. -/
def call (writer : Writer) : Call → Writer
  | .line text => writer.write text
  | .enter header =>
      let written := writer.write (opening header)
      { written with depth := written.depth + 1 }
  | .leave =>
      let closed := { writer with depth := writer.depth - 1 }
      closed.write closing

/-- Carry out calls one after another. -/
def run (writer : Writer) (calls : List Call) : Writer :=
  calls.foldl call writer

end Writer

/-- The lines that calls write from a depth on. -/
def linesOf (depth : Nat) (calls : List Call) : List Line :=
  (Writer.run { depth } calls).lines.toList

end ScanCircuit.Circuit
