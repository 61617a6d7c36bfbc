/-!
# Cursors with look-ahead

A cursor delivers values one after the other, shows values ahead of their delivery, and can be taken back
to a marker. Markers nest. Giving a marker up without going back is a commit.

A call that fails leaves the cursor as the failure found it, so every call gives an outcome and the next
state.
-/

namespace JavaSource

/-- Why a call on a cursor failed. -/
inductive CursorFailure where
  | exhausted
  /-- There is no value, or no marker, where one is asked for. -/
  | outOfRange
  deriving DecidableEq, Repr

abbrev Stepped (σ β : Type) := Except CursorFailure β × σ

/-- The calls on a cursor of type `σ` over values of type `α`. -/
class LookAhead (σ : Type) (α : outParam Type) where
  next : σ → Stepped σ α
  /-- Shows the value that lies ahead by some number of values, or the default. -/
  look : Int → σ → Stepped σ (Option α)
  last : σ → Option α
  push : σ → σ
  /-- Gives up the last marker, going back to it if asked to. -/
  pop : Bool → σ → Stepped σ Unit
  setDefault : Option α → σ → σ

/-- The item of a list at an index; negative indexes count from the end. -/
def indexed? {α : Type} (items : List α) (i : Int) : Option α :=
  if 0 ≤ i then items[i.toNat]?
  else if 0 ≤ i + items.length then items[(i + items.length).toNat]?
  else none

end JavaSource
