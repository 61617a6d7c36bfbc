import JavaSource.Cursor.Basic

/-!
# Scripts of calls

A script is a list of calls made on one cursor, some of them inside a guarded block: a block sets a marker,
goes back to it if one of its calls fails or if it is told to, and commits otherwise.
-/

namespace JavaSource.Cursor

inductive Call (α : Type) where
  | next
  | look (i : Int)
  | last
  | push
  | pop (reset : Bool)
  | setDefault (value : Option α)
  /-- Calls in a guarded block, which is left by going back if `goBack` is set. -/
  | guarded (calls : List (Call α)) (goBack : Bool)
  /-- Delivers up to `n` values. -/
  | take (n : Nat)

inductive Yield (α : Type) where
  | nothing
  | value (v : α)
  | many (items : List (Yield α))

namespace Yield

def ofOption {α : Type} : Option α → Yield α
  | some v => value v
  | none => nothing

end Yield

variable {σ α : Type} [LookAhead σ α]

def takeValues : Nat → σ → List α × σ
  | 0, c => ([], c)
  | n + 1, c =>
    match LookAhead.next c with
    | (.ok v, c) => let (vs, c) := takeValues n c; (v :: vs, c)
    | (.error _, c) => ([], c)

mutual

def Call.run : Call α → σ → Stepped σ (Yield α)
  | .next, c => let (v, c) := LookAhead.next c; (v.map .value, c)
  | .look i, c => let (v, c) := LookAhead.look i c; (v.map .ofOption, c)
  | .last, c => (.ok (.ofOption (LookAhead.last c)), c)
  | .push, c => (.ok .nothing, LookAhead.push c)
  | .pop reset, c => let (v, c) := LookAhead.pop reset c; (v.map fun _ => .nothing, c)
  | .setDefault v, c => (.ok .nothing, LookAhead.setDefault v c)
  | .guarded calls goBack, c =>
    match Call.runBlock calls (LookAhead.push c) with
    | (.ok ys, c) =>
      let (left, c) := LookAhead.pop goBack c
      (left.map fun _ => .many ys, c)
    | (.error f, c) =>
      let (left, c) := LookAhead.pop true c
      (left.bind fun _ => .error f, c)
  | .take n, c => let (vs, c) := takeValues n c; (.ok (.many (vs.map .value)), c)

/-- Makes the calls of a block, up to the first that fails. -/
def Call.runBlock : List (Call α) → σ → Stepped σ (List (Yield α))
  | [], c => (.ok [], c)
  | call :: rest, c =>
    match Call.run call c with
    | (.ok y, c) => let (ys, c) := Call.runBlock rest c; (ys.map (y :: ·), c)
    | (.error f, c) => (.error f, c)

end

/-- The outcome of each call of a script and the state after it. A failed call does not end the script. -/
def runScript : List (Call α) → σ → List (Stepped σ (Yield α))
  | [], _ => []
  | call :: rest, c =>
    let step := call.run c
    step :: runScript rest step.2

end JavaSource.Cursor
