import JavaSource.Cursor.Basic

/-!
# Cursors over a list

A cursor that holds all its values and an index into them. Its markers are earlier indexes. A commit hands
the index of the marker given up on to the marker below it.
-/

namespace JavaSource

/-- A cursor over values that are all known. -/
structure Cursor (α : Type) where
  values : Array α
  marker : Nat := 0
  /-- The saved indexes, the last one first. -/
  saved : List Nat := []
  default : Option α := none
  last : Option α := none

namespace Cursor

variable {α : Type}

def ofList (values : List α) : Cursor α := { values := values.toArray }

def remaining (c : Cursor α) : Nat := c.values.size - c.marker

/-- The value at an index; negative indexes count from the end. -/
def value? (c : Cursor α) (i : Int) : Option α :=
  if 0 ≤ i then c.values[i.toNat]?
  else if 0 ≤ i + c.values.size then c.values[(i + c.values.size).toNat]?
  else none

def next (c : Cursor α) : Stepped (Cursor α) α :=
  match c.values[c.marker]? with
  | some v => (.ok v, { c with marker := c.marker + 1, last := some v })
  | none => (.error .exhausted, c)

/-- Shows the value `i` ahead, or the default where there is none. -/
def look (i : Int) (c : Cursor α) : Option α × Cursor α :=
  match c.value? (c.marker + i) with
  | some v => (some v, { c with last := some v })
  | none => (c.default, c)

def push (c : Cursor α) : Cursor α := { c with saved := c.marker :: c.saved }

/-- The saved indexes after a commit of the index `m`: it takes the place of the one below it. -/
def commit (m : Nat) : List Nat → List Nat
  | [] => []
  | _ :: rest => m :: rest

/-- Gives up the last marker, going back to it if asked to. -/
def pop (reset : Bool) (c : Cursor α) : Stepped (Cursor α) Unit :=
  match c.saved with
  | [] => (.error .outOfRange, c)
  | m :: rest =>
    (.ok (), if reset then { c with marker := m, saved := rest }
      else { c with saved := commit m rest })

instance : LookAhead (Cursor α) α where
  next := next
  look i c := let (v, c) := c.look i; (.ok v, c)
  last := Cursor.last
  push := push
  pop := pop
  setDefault v c := { c with default := v }

end Cursor

end JavaSource
