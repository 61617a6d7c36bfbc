import JavaSource.Cursor.Buffered
import JavaSource.Cursor.Indexed
import JavaSource.Cursor.Script

/-!
# A workload on cursors

Both kinds of cursors are run over the same numbers.
-/

namespace JavaSource.Workload

/-- Every `step`-th item of a list, the last one of each group. -/
def everyNth {α : Type} (step : Nat) (items : List α) : List α :=
  (items.zipIdx 1).filterMap fun (x, i) => if i % step = 0 then some x else none

structure CursorRun where
  delivered : List Nat
  misses : Nat
  rounds : Nat

/-- Runs both cursors over the numbers below `n`. -/
def runCursors (n : Int) : CursorRun :=
  let count := n.toNat
  let values := List.range count
  let step := max 1 (count / 20)
  let buffered := (Cursor.takeValues count (BufferedCursor.ofList values)).1
  let indexed := (Cursor.takeValues count (Cursor.ofList values)).1
  let looks := [0, 1, 2, count].map fun (i : Nat) => ((Cursor.ofList values).look i).1
  let block : Cursor.Call Nat := .guarded [.take 5] true
  { delivered := everyNth step buffered ++ everyNth step indexed
    misses := looks.countP Option.isNone
    rounds := (Cursor.runScript (List.replicate (max 4 (count / 5)) block)
      (BufferedCursor.ofList values)).length }

end JavaSource.Workload
