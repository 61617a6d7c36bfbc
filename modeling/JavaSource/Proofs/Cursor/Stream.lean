import JavaSource.Cursor.Buffered
import JavaSource.Proofs.Cursor.Reset
import Mathlib.Data.List.Forall2

/-!
# Going back in a stream

A cursor over a stream cannot go back in the stream itself. What it has delivered since each marker it keeps with
that marker, what it was asked to show it keeps ahead, and going back puts the one in front of the other.

`Bookmarks` is what this amounts to: a place in the list of all values, and the places at which the markers were
set. `runScript_bookmarks` says that a cursor over a stream and bookmarks over its values cannot be told apart, as
long as nothing is asked for behind the end, and so that going back leads to the place of the marker, whatever was
committed in between.
-/

namespace JavaSource

open List

open Cursor

/-- The calls that read a stream and go back in it. -/
inductive Move where
  | next
  | look (i : Nat)
  | push
  | pop (reset : Bool)
  deriving DecidableEq, Repr

variable {α : Type}

def Move.call : Move → Call α
  | next => .next
  | look i => .look i
  | push => .push
  | pop reset => .pop reset

/-- The moves of a run in which every marker that is set is given up again. -/
def Cursor.Nested.moves : Nested → List Move
  | done => []
  | next rest => .next :: rest.moves
  | look i rest => .look i :: rest.moves
  | block inner reset rest => .push :: (inner.moves ++ .pop reset :: rest.moves)

/-! ## Bookmarks -/

/-- A place in a list of values, and the places of the markers, the last marker first. -/
structure Bookmarks where
  place : Nat := 0
  marks : List Nat := []
  deriving DecidableEq, Repr

namespace Bookmarks

def yield (values : List α) (b : Bookmarks) : Move → Except CursorFailure (Yield α)
  | .next => (values[b.place]?.map .value).elim (.error .exhausted) .ok
  | .look i => .ok (.ofOption values[b.place + i]?)
  | .push => .ok .nothing
  | .pop _ => if b.marks.isEmpty then .error .outOfRange else .ok .nothing

def move (values : List α) (b : Bookmarks) : Move → Bookmarks
  | .next => if b.place < values.length then { b with place := b.place + 1 } else b
  | .look _ => b
  | .push => { b with marks := b.place :: b.marks }
  | .pop reset => { place := if reset then b.marks.headD b.place else b.place, marks := b.marks.tail }

/-- Whether a move asks for nothing behind the end, and gives up no marker where there is none. -/
def allows (values : List α) (b : Bookmarks) : Move → Bool
  | .next => true
  | .look i => b.place + i < values.length
  | .push => true
  | .pop _ => !b.marks.isEmpty

def after (values : List α) (b : Bookmarks) (moves : List Move) : Bookmarks := moves.foldl (move values) b

/-- Whether each of the moves is allowed where it is made. -/
def allowsAll (values : List α) : Bookmarks → List Move → Bool
  | _, [] => true
  | b, m :: moves => b.allows values m && (b.move values m).allowsAll values moves

/-- What each of the moves gives, and the bookmarks after it. -/
def run (values : List α) : Bookmarks → List Move → List (Except CursorFailure (Yield α) × Bookmarks)
  | _, [] => []
  | b, m :: moves => (b.yield values m, b.move values m) :: (b.move values m).run values moves

end Bookmarks

/-! ## What a cursor over a stream holds -/

namespace BufferedCursor

def remaining (c : BufferedCursor α) : List α := c.ahead ++ c.stream

/-- What is still to be delivered after going back to each of some markers, the last marker first, where `rest` is
still to be delivered now. -/
def restored (rest : List α) : List (List α) → List (List α)
  | [] => []
  | m :: markers => (m ++ rest) :: restored (m ++ rest) markers

/-- What has been delivered since the last marker is what going back to it adds. -/
theorem restored_record (delivered rest : List α) (markers : List (List α)) :
    restored rest (record delivered markers) = restored (delivered ++ rest) markers := by
  cases markers with
  | nil => rfl
  | cons m markers => rw [record, restored, restored, append_assoc]

variable {c : BufferedCursor α} {values : List α} {b : Bookmarks} {moves : List Move}

theorem next_of_remaining {v : α} {rest : List α} (holds : c.remaining = v :: rest) :
    c.next.1 = .ok v ∧ c.next.2.remaining = rest ∧ c.next.2.markers = record [v] c.markers := by
  unfold next
  split
  · rename_i w ahead starts
    rw [remaining, starts, cons_append] at holds
    injection holds with same behind
    exact ⟨by rw [same], behind, by rw [same]⟩
  · rename_i w stream starts streams
    rw [remaining, starts, streams, nil_append] at holds
    injection holds with same behind
    refine ⟨by rw [same], ?_, by rw [same]⟩
    rw [remaining, starts]
    exact behind
  · rename_i starts streams
    rw [remaining, starts, streams] at holds
    cases holds

theorem next_of_exhausted (holds : c.remaining = []) : c.next = (.error .exhausted, c) := by
  obtain ⟨starts, streams⟩ := append_eq_nil_iff.1 holds
  rw [next, starts, streams]

variable {i : Nat}

theorem lookDrawn_of_lt (drawn : i < c.ahead.length) :
    c.lookDrawn i = (.ok c.ahead[i]?, { c with last := c.ahead[i]? }) := by
  have found : indexed? c.ahead i = some c.ahead[i] := by
    rw [indexed?, if_pos (Int.natCast_nonneg i), Int.toNat_natCast, getElem?_eq_getElem drawn]
  rw [lookDrawn, found, getElem?_eq_getElem drawn]

/-- Looking at a value that is still to be delivered shows it, and changes nothing about what is delivered. -/
theorem look_of_lt (within : i < c.remaining.length) :
    (c.look i).1 = .ok c.remaining[i]? ∧ (c.look i).2.remaining = c.remaining ∧ (c.look i).2.markers = c.markers := by
  unfold look
  split
  · rename_i drawn
    have drawn : i < c.ahead.length := Int.ofNat_lt.1 drawn
    rw [lookDrawn_of_lt drawn, remaining, getElem?_append_left drawn]
    exact ⟨rfl, rfl, rfl⟩
  · rename_i undrawn
    have undrawn : c.ahead.length ≤ i := Nat.le_of_not_lt fun drawn => undrawn (Int.ofNat_lt.2 drawn)
    rw [remaining, length_append] at within
    rw [Int.toNat_natCast, if_pos (by omega)]
    have drawn : i < (c.ahead ++ c.stream.take (i + 1 - c.ahead.length)).length := by
      rw [length_append, length_take]
      omega
    rw [lookDrawn_of_lt drawn]
    refine ⟨?_, ?_, rfl⟩
    · have split : c.remaining = (c.ahead ++ c.stream.take (i + 1 - c.ahead.length)) ++
          c.stream.drop (i + 1 - c.ahead.length) := by
        rw [append_assoc, take_append_drop, remaining]
      rw [split, getElem?_append_left drawn]
    · simp [remaining]

/-! ## Cursors over streams and bookmarks -/

/-- The cursor delivers the values from the place on, and going back to a marker leads to its place. -/
structure At (values : List α) (b : Bookmarks) (c : BufferedCursor α) : Prop where
  remaining : c.remaining = values.drop b.place
  restored : BufferedCursor.restored c.remaining c.markers = b.marks.map values.drop

namespace At

variable {values : List α} {b : Bookmarks} {c : BufferedCursor α}

theorem start (values : List α) : At values {} (ofList values) := ⟨rfl, rfl⟩

theorem next (stands : At values b c) :
    (Call.next.run c).1 = b.yield values .next ∧ At values (b.move values .next) (Call.next.run c).2 := by
  rw [Bookmarks.yield, Bookmarks.move]
  by_cases within : b.place < values.length
  · have holds : c.remaining = values[b.place] :: values.drop (b.place + 1) := by
      rw [stands.remaining, drop_eq_getElem_cons within]
    obtain ⟨given, behind, recorded⟩ := next_of_remaining holds
    rw [if_pos within, getElem?_eq_getElem within]
    refine ⟨congrArg (Except.map Yield.value) given, behind, ?_⟩
    change BufferedCursor.restored c.next.2.remaining c.next.2.markers = _
    rw [recorded, restored_record, behind, singleton_append, ← holds]
    exact stands.restored
  · have holds : c.remaining = [] := by
      rw [stands.remaining, drop_eq_nil_iff]
      omega
    have same : Call.next.run c = (.error .exhausted, c) := by
      simp only [Call.run, LookAhead.next, next_of_exhausted holds, Except.map]
    rw [if_neg within, getElem?_eq_none (by omega), same]
    exact ⟨rfl, stands⟩

theorem look (stands : At values b c) (within : b.place + i < values.length) :
    ((Call.look i).run c).1 = b.yield values (.look i) ∧ At values b ((Call.look i).run c).2 := by
  have holds : i < c.remaining.length := by
    rw [stands.remaining, length_drop]
    omega
  obtain ⟨given, kept, markers⟩ := look_of_lt holds
  refine ⟨?_, ?_, ?_⟩
  · refine (congrArg (Except.map Yield.ofOption) given).trans ?_
    rw [stands.remaining, getElem?_drop]
    rfl
  · exact kept.trans stands.remaining
  · change BufferedCursor.restored (c.look i).2.remaining (c.look i).2.markers = _
    rw [kept, markers]
    exact stands.restored

theorem push (stands : At values b c) : At values (b.move values .push) c.push where
  remaining := stands.remaining
  restored := congrArg₂ List.cons stands.remaining stands.restored

/-- Going back puts what was delivered since the marker in front of the rest. A commit hands it down to the marker
below, which then has all that was delivered since it was set. -/
theorem pop (stands : At values b c) (reset : Bool) (marked : b.marks ≠ []) :
    (c.pop reset).1 = .ok () ∧ At values (b.move values (.pop reset)) (c.pop reset).2 := by
  obtain ⟨place, marks⟩ := b
  have restored := stands.restored
  cases marks with
  | nil => exact absurd rfl marked
  | cons k marks =>
    cases holds : c.markers with
    | nil =>
      rw [holds] at restored
      cases restored
    | cons m markers =>
      rw [holds, map_cons, BufferedCursor.restored] at restored
      injection restored with back below
      rw [BufferedCursor.pop, holds]
      cases reset with
      | true =>
        have returned : m ++ c.ahead ++ c.stream = m ++ c.remaining := append_assoc _ _ _
        refine ⟨rfl, returned.trans back, ?_⟩
        exact (congrArg (BufferedCursor.restored · markers) returned).trans below
      | false => exact ⟨rfl, stands.remaining, (restored_record m c.remaining markers).trans below⟩

end At

/-- One move: the cursor gives what the bookmarks say and stands where they say. -/
theorem At.move (stands : At values b c) {m : Move} (allowed : b.allows values m = true) :
    (m.call.run c).1 = b.yield values m ∧ At values (b.move values m) (m.call.run c).2 := by
  cases m with
  | next => exact stands.next
  | look i => exact stands.look (of_decide_eq_true allowed)
  | push => exact ⟨rfl, stands.push⟩
  | pop reset =>
    have marked : b.marks.isEmpty = false := by simpa [Bookmarks.allows] using allowed
    obtain ⟨given, behind⟩ := stands.pop reset (by simpa using marked)
    refine ⟨(congrArg (Except.map _) given).trans ?_, behind⟩
    rw [Bookmarks.yield, marked]
    rfl

/-- What is still to be delivered is what is delivered. -/
theorem takeValues_eq (n : Nat) (c : BufferedCursor α) : (takeValues n c).1 = c.remaining.take n := by
  induction n generalizing c with
  | zero => rfl
  | succ n ih =>
    rw [takeValues]
    cases holds : c.remaining with
    | nil =>
      have same : LookAhead.next c = (.error .exhausted, c) := next_of_exhausted holds
      rw [same]
      rfl
    | cons v rest =>
      obtain ⟨given, behind, -⟩ := next_of_remaining holds
      have same : LookAhead.next c = (.ok v, c.next.2) := Prod.ext given rfl
      rw [same, take_succ_cons, ← behind, ← ih]

def afterMoves (values : List α) (moves : List Move) : BufferedCursor α :=
  moves.foldl (fun c m => (m.call.run c).2) (ofList values)

/-- The next values, as many as asked for, that a cursor over a stream delivers after some moves. -/
def upcoming (values : List α) (moves : List Move) (n : Nat) : List α := (takeValues n (afterMoves values moves)).1

/-- Any run of moves: by induction on it, the cursor stands where the bookmarks say. -/
theorem At.foldl (stands : At values b c) (allowed : b.allowsAll values moves = true) :
    At values (b.after values moves) (moves.foldl (fun c m => (m.call.run c).2) c) := by
  induction moves generalizing b c with
  | nil => exact stands
  | cons m moves ih =>
    obtain ⟨first, later⟩ := Bool.and_eq_true_iff.1 allowed
    exact ih (stands.move first).2 later

/-- A step of a cursor and a step of bookmarks agree if they give the same, and if from then on the cursor delivers
the values from the place on. -/
def Agree (values : List α) (step : Stepped (BufferedCursor α) (Yield α))
    (marked : Except CursorFailure (Yield α) × Bookmarks) : Prop :=
  step.1 = marked.1 ∧ ∀ n, (takeValues n step.2).1 = (values.drop marked.2.place).take n

theorem At.runScript (stands : At values b c) (allowed : b.allowsAll values moves = true) :
    List.Forall₂ (Agree values) (runScript (moves.map Move.call) c) (b.run values moves) := by
  induction moves generalizing b c with
  | nil => exact .nil
  | cons m moves ih =>
    obtain ⟨first, later⟩ := Bool.and_eq_true_iff.1 allowed
    obtain ⟨given, behind⟩ := stands.move first
    refine .cons ⟨given, fun n => ?_⟩ (ih behind later)
    rw [takeValues_eq, behind.remaining]

theorem upcoming_eq (allowed : ({} : Bookmarks).allowsAll values moves = true)
    (n : Nat) : upcoming values moves n = (values.drop (({} : Bookmarks).after values moves).place).take n := by
  rw [upcoming, takeValues_eq, afterMoves, ((At.start values).foldl allowed).remaining]

end BufferedCursor

/-! ## Nested moves -/

namespace Bookmarks

theorem after_append (values : List α) (b : Bookmarks) (moves more : List Move) :
    b.after values (moves ++ more) = (b.after values moves).after values more :=
  foldl_append

theorem allowsAll_append (values : List α) (b : Bookmarks) (moves more : List Move) :
    b.allowsAll values (moves ++ more) = (b.allowsAll values moves && (b.after values moves).allowsAll values more) := by
  induction moves generalizing b with
  | nil => rfl
  | cons m moves ih =>
    rw [cons_append, allowsAll, allowsAll, ih, Bool.and_assoc]
    rfl

theorem after_block (values : List α) (b : Bookmarks) (moves : List Move) (reset : Bool) :
    b.after values (.push :: (moves ++ [.pop reset])) =
      ((b.move values .push).after values moves).move values (.pop reset) :=
  after_append values (b.move values .push) moves [.pop reset]

/-- Nested moves give up the markers that they set and no other. -/
theorem marks_nested (values : List α) (run : Nested) (b : Bookmarks) : (b.after values run.moves).marks = b.marks :=
    by
  induction run generalizing b with
  | done => rfl
  | next rest ih =>
    refine (ih (b.move values .next)).trans ?_
    rw [move]
    split <;> rfl
  | look i rest ih => exact ih b
  | block inner reset rest ihInner ihRest =>
    have inside := ihInner (b.move values .push)
    have split : (Nested.block inner reset rest).moves = (.push :: (inner.moves ++ [.pop reset])) ++ rest.moves := by
      rw [Nested.moves, cons_append, append_assoc, singleton_append]
    rw [split, after_append, ihRest, after_block]
    exact congrArg List.tail inside

/-- After nested moves, going back to the marker around them leads to its place, and giving it up leads nowhere. -/
theorem place_block (values : List α) (run : Nested) (reset : Bool) (b : Bookmarks) :
    (b.after values (.push :: (run.moves ++ [.pop reset]))).place =
      if reset then b.place else (b.after values (.push :: run.moves)).place := by
  have inside := marks_nested values run (b.move values .push)
  rw [after_block]
  cases reset with
  | true => exact congrArg (List.headD · _) inside
  | false => rfl

end Bookmarks

namespace BufferedCursor

/-- **Going back in a stream.** A cursor over a stream gives at each move what bookmarks over its values give, and
from then on delivers the values from their place on, each once and in order. So after going back to a marker it
delivers what it would have delivered when the marker was set, whatever moves, commits and returns came in between,
and giving the marker up changes nothing about what it delivers. -/
theorem runScript_bookmarks (values : List α) (moves : List Move)
    (allowed : ({} : Bookmarks).allowsAll values moves = true) :
    List.Forall₂ (Agree values) (runScript (moves.map Move.call) (ofList values)) (({} : Bookmarks).run values moves) ∧
    ∀ before (inner : Nested) reset later, moves = before ++ (.push :: (inner.moves ++ [.pop reset])) ++ later →
      upcoming values (before ++ (.push :: (inner.moves ++ [.pop reset]))) =
        if reset then upcoming values before else upcoming values (before ++ .push :: inner.moves) := by
  refine ⟨(At.start values).runScript allowed, ?_⟩
  rintro before inner reset later rfl
  have whole := (Bool.and_eq_true_iff.1 ((Bookmarks.allowsAll_append _ _ _ _).symm.trans allowed)).1
  have atPush := (Bool.and_eq_true_iff.1 ((Bookmarks.allowsAll_append _ _ _ _).symm.trans whole)).1
  have atPop : ({} : Bookmarks).allowsAll values (before ++ .push :: inner.moves) = true := by
    rw [← cons_append, ← append_assoc] at whole
    exact (Bool.and_eq_true_iff.1 ((Bookmarks.allowsAll_append _ _ _ _).symm.trans whole)).1
  funext n
  rw [upcoming_eq whole, Bookmarks.after_append, Bookmarks.place_block]
  cases reset with
  | true => exact (upcoming_eq atPush n).symm
  | false =>
    rw [← Bookmarks.after_append]
    exact (upcoming_eq atPop n).symm

/-- A commit inside of a block does not move the place to which the block goes back. -/
theorem runScript_bookmarks_commit : ({} : Bookmarks).allowsAll [7, 8, 9, 10]
        [.next, .push, .next, .push, .look 1, .next, .pop false, .pop true, .next] = true ∧
      upcoming [7, 8, 9, 10] [.next, .push, .next, .push, .look 1, .next, .pop false, .pop true] =
        upcoming [7, 8, 9, 10] [.next] := by
  refine ⟨by decide, ?_⟩
  exact (runScript_bookmarks [7, 8, 9, 10]
    [.next, .push, .next, .push, .look 1, .next, .pop false, .pop true, .next] (by decide)).2
    [.next] (.next (.block (.look 1 (.next .done)) false .done)) true [.next] rfl

end BufferedCursor

end JavaSource
