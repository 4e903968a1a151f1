/-!
# JSON values

The values that a text in JSON denotes. Members of an object keep their order and
their repetitions, because both matter to the readers of a value. Of the numbers
only naturals below `2 ^ 64` are told apart.
-/

namespace ScanCircuit.Json

/-- Naturals below this bound, `2 ^ 64`, are kept exactly. -/
def naturalBound : Nat := 0x10000000000000000

/-- A JSON value. -/
inductive Value where
  | null
  | bool (value : Bool)
  /-- A natural number below `2 ^ 64`, written with digits only. -/
  | natural (value : Nat)
  /-- Any other number: signed, with a fraction, with an exponent, or too long. -/
  | number
  | string (text : String)
  | array (elements : List Value)
  | object (members : List (String × Value))
  deriving Repr

end ScanCircuit.Json
