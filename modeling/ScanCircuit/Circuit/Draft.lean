import ScanCircuit.Circuit.Program

/-!
# Drafts

A draft writes statements and numbers the components it creates. It is a function
from the counts so far to a result, the statements written and the counts
afterwards, so the counts are all that one draft can tell the next.
-/

namespace ScanCircuit.Circuit

/-- What a draft leaves behind. -/
structure Drafted (α : Type) where
  result : α
  body : List Stmt
  counts : Counts
  deriving Repr

/-- Statements to be written, given the counts so far. -/
def Draft (α : Type) : Type := Counts → Drafted α

namespace Draft

variable {α β : Type}

instance : Monad Draft where
  pure result := fun counts => ⟨result, [], counts⟩
  bind first next := fun counts =>
    let before := first counts
    let after := next before.result before.counts
    ⟨after.result, before.body ++ after.body, after.counts⟩

@[simp] theorem run_pure (result : α) (counts : Counts) :
    (pure result : Draft α) counts = ⟨result, [], counts⟩ := rfl

@[simp] theorem run_bind (first : Draft α) (next : α → Draft β) (counts : Counts) :
    (first >>= next) counts =
      let before := first counts
      let after := next before.result before.counts
      ⟨after.result, before.body ++ after.body, after.counts⟩ := rfl

/-- Write a statement. -/
def write (stmt : Stmt) : Draft Unit := fun counts => ⟨(), [stmt], counts⟩

/-- Create the next component of a kind. -/
def instantiate (kind : Kind) (template : Template) : Draft Component := fun counts =>
  let component : Component := ⟨kind, counts.get kind⟩
  ⟨component, [.instantiate component template], counts.bump kind⟩

/-- Wire an input of a component. -/
def wire (component : Component) (pin : Pin) (value : Expr) : Draft Unit :=
  write (.wire component pin value)

/-- Constrain a signal. -/
def constrain (target : Signal) (value : Expr) : Draft Unit :=
  write (.constrain target value)

end Draft

end ScanCircuit.Circuit
