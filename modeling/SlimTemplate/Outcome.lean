import SlimTemplate.Text.Basic

/-!
# Outcomes

Tools that run unattended over many sources give no errors. They give an outcome, which holds
either what was made or the wording of what went wrong.

## Main definitions

* `Outcome`: a value, or the wording of an error.
* `Outcome.ofExcept`: the outcome of something that may fail.
-/

namespace SlimTemplate

/-- What was made, or the wording of what went wrong. -/
structure Outcome (α : Type) where
  success : Bool
  value : Option α
  error : Option Text
  isSome_value : value.isSome = success
  isSome_error : error.isSome = !success
  deriving DecidableEq, Repr

namespace Outcome

variable {ε α : Type}

/-- The outcome that holds a value. -/
def ok (value : α) : Outcome α :=
  ⟨true, some value, none, rfl, rfl⟩

/-- The outcome that holds the wording of an error. -/
def failed (message : Text) : Outcome α :=
  ⟨false, none, some message, rfl, rfl⟩

/-- The outcome of something that may fail. -/
def ofExcept (message : ε → Text) : Except ε α → Outcome α
  | .ok value => ok value
  | .error e => failed (message e)

end Outcome

end SlimTemplate
