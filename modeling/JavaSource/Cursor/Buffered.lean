import JavaSource.Cursor.Basic

/-!
# Cursors over a stream

A cursor that draws values from a stream when it needs them. What was looked at is kept ahead, and each
marker keeps what was delivered since it was set. Looking past the end of the stream draws the rest of it
and keeps none of it.
-/

namespace JavaSource

/-- A cursor over values that are drawn one after the other. -/
structure BufferedCursor (α : Type) where
  stream : List α
  /-- What was drawn and not yet delivered. -/
  ahead : List α := []
  /-- What was delivered since each marker, the last marker first. -/
  markers : List (List α) := []
  default : Option α := none
  last : Option α := none

namespace BufferedCursor

variable {α : Type}

def ofList (values : List α) : BufferedCursor α := { stream := values }

/-- Adds delivered values to those of the last marker, if there is one. -/
def record (values : List α) : List (List α) → List (List α)
  | [] => []
  | m :: rest => (m ++ values) :: rest

def next (c : BufferedCursor α) : Stepped (BufferedCursor α) α :=
  match c.ahead, c.stream with
  | v :: ahead, _ =>
    (.ok v, { c with ahead, last := some v, markers := record [v] c.markers })
  | [], v :: stream =>
    (.ok v, { c with stream, last := some v, markers := record [v] c.markers })
  | [], [] => (.error .exhausted, c)

def lookDrawn (i : Int) (c : BufferedCursor α) : Stepped (BufferedCursor α) (Option α) :=
  match indexed? c.ahead i with
  | some v => (.ok (some v), { c with last := some v })
  | none => (.error .outOfRange, c)

/-- Shows the value `i` ahead, or the default where there is none. -/
def look (i : Int) (c : BufferedCursor α) : Stepped (BufferedCursor α) (Option α) :=
  if i < c.ahead.length then c.lookDrawn i
  else
    let needed := i.toNat + 1 - c.ahead.length
    if needed ≤ c.stream.length then
      { c with ahead := c.ahead ++ c.stream.take needed, stream := c.stream.drop needed }.lookDrawn i
    else (.ok c.default, { c with stream := [] })

def push (c : BufferedCursor α) : BufferedCursor α := { c with markers := [] :: c.markers }

/-- Gives up the last marker, going back to it if asked to. -/
def pop (reset : Bool) (c : BufferedCursor α) : Stepped (BufferedCursor α) Unit :=
  match c.markers with
  | [] => (.error .outOfRange, c)
  | m :: rest =>
    (.ok (), if reset then { c with ahead := m ++ c.ahead, markers := rest }
      else { c with markers := record m rest })

instance : LookAhead (BufferedCursor α) α where
  next := next
  look := look
  last := BufferedCursor.last
  push := push
  pop := pop
  setDefault v c := { c with default := v }

end BufferedCursor

end JavaSource
