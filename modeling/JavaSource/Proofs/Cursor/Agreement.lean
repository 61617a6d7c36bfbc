import JavaSource.Proofs.Cursor.Stream

/-!
# Two cursors, one behaviour

A cursor over a list and a cursor over a stream keep their markers in different ways: the one as earlier indexes, the
other as what was delivered since. Bookmarks are what both amount to, as long as nothing is asked for behind the end
and no commit hands a marker down to another one. `runScript_agree` says that under these conditions the two give the
same at every call, failures included, and have the same value as their last one.
-/

namespace JavaSource

open List

open Cursor

variable {α : Type}

/-! ## A cursor over a list and its bookmarks -/

variable {i : Nat}

namespace Cursor

def bookmarks (c : Cursor α) : Bookmarks := ⟨c.marker, c.saved⟩

/-- Whether a call asks for nothing behind the end, and commits no marker that stands on another one. -/
def permits (c : Cursor α) : Call α → Bool
  | .next | .last | .push | .setDefault _ => true
  | .look i => decide (0 ≤ i) && decide (i < c.remaining)
  | .pop reset => reset || decide (c.saved.length ≤ 1)
  | .guarded .. | .take _ => false

/-- Whether each call of a script is permitted where it is made. -/
def permitsAll : Cursor α → List (Call α) → Bool
  | _, [] => true
  | c, call :: calls => c.permits call && (call.run c).2.permitsAll calls

variable {c : Cursor α}

theorem next_of_lt (within : c.marker < c.values.size) :
    c.next = (.ok c.values[c.marker], { c with marker := c.marker + 1, last := some c.values[c.marker] }) := by
  rw [next, Array.getElem?_eq_getElem within]

theorem next_of_ge (behind : c.values.size ≤ c.marker) : c.next = (.error .exhausted, c) := by
  rw [next, Array.getElem?_eq_none behind]

theorem look_of_lt (within : c.marker + i < c.values.size) :
    c.look i = (some c.values[c.marker + i], { c with last := some c.values[c.marker + i] }) := by
  have found : c.value? (c.marker + i) = some c.values[c.marker + i] := by
    rw [value?, if_pos (by omega), ← Int.natCast_add, Int.toNat_natCast, Array.getElem?_eq_getElem within]
  rw [look, found]

/-- A commit of the only marker hands it down to none. -/
theorem pop_of_cons {m : Nat} {rest : List Nat} (saved : c.saved = m :: rest) {reset : Bool}
    (alone : reset = true ∨ rest = []) :
    c.pop reset = (.ok (), { c with marker := if reset then m else c.marker, saved := rest }) := by
  rw [pop, saved]
  cases reset with
  | true => rfl
  | false =>
    obtain rfl := alone.resolve_left Bool.false_ne_true
    rfl

theorem pop_of_nil (saved : c.saved = []) (reset : Bool) : c.pop reset = (.error .outOfRange, c) := by
  rw [pop, saved]

end Cursor

/-! ## A cursor over a stream: its last value and its default -/

namespace BufferedCursor

theorem default_next (b : BufferedCursor α) : b.next.2.default = b.default := by
  unfold next
  split <;> rfl

variable {b : BufferedCursor α}

theorem last_next {v : α} (given : b.next.1 = .ok v) : b.next.2.last = some v := by
  unfold next at given ⊢
  split
  · rename_i ahead starts
    rw [starts] at given
    exact congrArg some (Except.ok.inj given)
  · rename_i starts streams
    rw [starts, streams] at given
    exact congrArg some (Except.ok.inj given)
  · rename_i starts streams
    rw [starts, streams] at given
    cases given

/-- What is shown is the last value, and the default stays what it is. -/
theorem look_keeps (within : i < b.remaining.length) :
    (b.look i).2.last = b.remaining[i]? ∧ (b.look i).2.default = b.default := by
  unfold look
  split
  · rename_i drawn
    have drawn : i < b.ahead.length := Int.ofNat_lt.1 drawn
    rw [lookDrawn_of_lt drawn, remaining, getElem?_append_left drawn]
    exact ⟨rfl, rfl⟩
  · rename_i undrawn
    have undrawn : b.ahead.length ≤ i := Nat.le_of_not_lt fun drawn => undrawn (Int.ofNat_lt.2 drawn)
    have enough : i + 1 - b.ahead.length ≤ b.stream.length := by
      rw [remaining, length_append] at within
      omega
    rw [Int.toNat_natCast, if_pos enough]
    have drawn : i < (b.ahead ++ b.stream.take (i + 1 - b.ahead.length)).length := by
      rw [length_append, length_take]
      omega
    have whole : b.remaining =
        b.ahead ++ b.stream.take (i + 1 - b.ahead.length) ++ b.stream.drop (i + 1 - b.ahead.length) := by
      rw [append_assoc, take_append_drop, remaining]
    rw [lookDrawn_of_lt drawn, whole, getElem?_append_left drawn]
    exact ⟨rfl, rfl⟩

theorem pop_keeps (b : BufferedCursor α) (reset : Bool) :
    (b.pop reset).2.last = b.last ∧ (b.pop reset).2.default = b.default := by
  unfold pop
  split
  · exact ⟨rfl, rfl⟩
  · cases reset <;> exact ⟨rfl, rfl⟩

/-! ## Cursors that cannot be told apart -/

/-- The cursor over a stream stands where the cursor over a list does, and both have the same last value and the same
default. -/
structure Alike (b : BufferedCursor α) (c : Cursor α) : Prop where
  stands : At c.values.toList c.bookmarks b
  default : b.default = c.default
  last : b.last = c.last

/-- Two steps that give the same and lead to cursors that cannot be told apart. -/
def AlikeAfter (step : Stepped (BufferedCursor α) (Yield α)) (other : Stepped (Cursor α) (Yield α)) : Prop :=
  step.1 = other.1 ∧ Alike step.2 other.2

namespace Alike

variable {b : BufferedCursor α} {c : Cursor α}

theorem start (values : List α) (default : Option α) :
    Alike { ofList values with default } { Cursor.ofList values with default } :=
  ⟨⟨rfl, rfl⟩, rfl, rfl⟩

theorem remaining (alike : Alike b c) : b.remaining = c.values.toList.drop c.marker := alike.stands.remaining

/-- Both deliver the value at the place, or have none left. -/
theorem next (alike : Alike b c) : AlikeAfter (Call.next.run b) (Call.next.run c) := by
  rcases Nat.lt_or_ge c.marker c.values.size with within | behind
  · have holds : b.remaining = c.values[c.marker] :: c.values.toList.drop (c.marker + 1) := by
      rw [alike.remaining, drop_eq_getElem_cons within, Array.getElem_toList]
    obtain ⟨given, -, -⟩ := next_of_remaining holds
    have stands := alike.stands.next.2
    rw [Bookmarks.move, if_pos (show c.bookmarks.place < c.values.toList.length from within)] at stands
    have stepped : Call.next.run c =
        (.ok (.value c.values[c.marker]), { c with marker := c.marker + 1, last := some c.values[c.marker] }) := by
      simp only [Call.run, LookAhead.next, next_of_lt within, Except.map]
    rw [stepped]
    refine ⟨congrArg (Except.map Yield.value) given, stands, ?_, last_next given⟩
    exact (default_next b).trans alike.default
  · have holds : b.remaining = [] := by
      rw [alike.remaining, drop_eq_nil_iff]
      exact behind
    have ended : Call.next.run b = (.error .exhausted, b) := by
      simp only [Call.run, LookAhead.next, next_of_exhausted holds, Except.map]
    have ended' : Call.next.run c = (.error .exhausted, c) := by
      simp only [Call.run, LookAhead.next, next_of_ge behind, Except.map]
    rw [ended, ended']
    exact ⟨rfl, alike⟩

/-- Both show the value that lies ahead, if there is one. -/
theorem look (alike : Alike b c) (within : c.marker + i < c.values.size) :
    AlikeAfter ((Call.look i).run b) ((Call.look i).run c) := by
  have inside : i < b.remaining.length := by
    rw [alike.remaining, length_drop, Array.length_toList]
    omega
  have ahead : b.remaining[i]? = some c.values[c.marker + i] := by
    rw [alike.remaining, getElem?_drop, Array.getElem?_toList, Array.getElem?_eq_getElem within]
  obtain ⟨given, stands⟩ := alike.stands.look (i := i) within
  obtain ⟨last, default⟩ := look_keeps inside
  have stepped : (Call.look i).run c =
      (.ok (.value c.values[c.marker + i]), { c with last := some c.values[c.marker + i] }) := by
    simp only [Call.run, LookAhead.look, Cursor.look_of_lt within, Except.map, Yield.ofOption]
  rw [stepped]
  refine ⟨?_, stands, default.trans alike.default, last.trans ahead⟩
  refine (congrArg (Except.map Yield.ofOption) (look_of_lt inside).1).trans ?_
  rw [ahead]
  rfl

theorem push (alike : Alike b c) : Alike b.push c.push := ⟨alike.stands.push, alike.default, alike.last⟩

/-- A cursor over a stream has a marker exactly if the other one has. -/
theorem markers_nil (alike : Alike b c) (saved : c.saved = []) : b.markers = [] := by
  have restored := alike.stands.restored
  rw [bookmarks, saved] at restored
  cases markers : b.markers with
  | nil => rfl
  | cons m rest =>
    rw [markers] at restored
    cases restored

/-- Both give up the last marker. Without a marker both fail and stay as they are. -/
theorem pop (alike : Alike b c) (reset : Bool) (alone : reset = true ∨ c.saved.length ≤ 1) :
    AlikeAfter ((Call.pop reset).run b) ((Call.pop reset).run c) := by
  cases saved : c.saved with
  | nil =>
    have failed : (Call.pop reset).run b = (.error .outOfRange, b) := by
      simp only [Call.run, LookAhead.pop, BufferedCursor.pop, alike.markers_nil saved, Except.map]
    have failed' : (Call.pop reset).run c = (.error .outOfRange, c) := by
      simp only [Call.run, LookAhead.pop, pop_of_nil saved, Except.map]
    rw [failed, failed']
    exact ⟨rfl, alike⟩
  | cons m rest =>
    have below : reset = true ∨ rest = [] := by
      rw [saved, length_cons] at alone
      exact alone.imp_right fun le => length_eq_zero_iff.1 (Nat.le_zero.1 (Nat.le_of_succ_le_succ le))
    obtain ⟨given, stands⟩ := alike.stands.pop reset (by rw [bookmarks, saved]; exact cons_ne_nil m rest)
    obtain ⟨last, default⟩ := pop_keeps b reset
    have stepped : (Call.pop reset).run c =
        (.ok .nothing, { c with marker := if reset then m else c.marker, saved := rest }) := by
      simp only [Call.run, LookAhead.pop, pop_of_cons saved below, Except.map]
    rw [stepped]
    refine ⟨congrArg (Except.map _) given, ?_, default.trans alike.default, last.trans alike.last⟩
    rw [Bookmarks.move, bookmarks, saved] at stands
    exact stands

/-- **One call**: both give the same, and cannot be told apart afterwards. -/
theorem step (alike : Alike b c) {call : Call α} (permitted : c.permits call = true) :
    AlikeAfter (call.run b) (call.run c) := by
  cases call with
  | next => exact alike.next
  | look i =>
    obtain ⟨positive, within⟩ := Bool.and_eq_true_iff.1 permitted
    obtain ⟨k, rfl⟩ := Int.eq_ofNat_of_zero_le (of_decide_eq_true positive)
    refine alike.look ?_
    have within : k < c.values.size - c.marker := Int.ofNat_lt.1 (of_decide_eq_true within)
    omega
  | last => exact ⟨congrArg (fun v => Except.ok (Yield.ofOption v)) alike.last, alike⟩
  | push => exact ⟨rfl, alike.push⟩
  | pop reset => exact alike.pop reset ((Bool.or_eq_true_iff.1 permitted).imp_right of_decide_eq_true)
  | setDefault value => exact ⟨rfl, ⟨alike.stands.remaining, alike.stands.restored⟩, rfl, alike.last⟩
  | guarded calls goBack => cases permitted
  | take n => cases permitted

/-- Any run of calls: by induction on it, the two cannot be told apart after any of them. -/
theorem runScript (alike : Alike b c) {calls : List (Call α)} (permitted : c.permitsAll calls = true) :
    List.Forall₂ AlikeAfter (runScript calls b) (runScript calls c) := by
  induction calls generalizing b c with
  | nil => exact .nil
  | cons call calls ih =>
    obtain ⟨first, later⟩ := Bool.and_eq_true_iff.1 permitted
    have stepped := alike.step first
    exact .cons stepped (ih stepped.2 later)

end Alike

end BufferedCursor

/-- **The two cursors agree.** Over the same values, and with the same default, a cursor over a stream and a cursor over
a list give the same value or the same failure at every call, and have the same last value after it, if no look goes
behind the end and no marker is committed while another one is set below it. -/
theorem runScript_agree (values : List α) (default : Option α) (calls : List (Call α))
    (permitted : ({ Cursor.ofList values with default } : Cursor α).permitsAll calls = true) :
    List.Forall₂ (fun step other => step.1 = other.1 ∧ step.2.last = other.2.last)
      (runScript calls { BufferedCursor.ofList values with default })
      (runScript calls { Cursor.ofList values with default }) := by
  refine ((BufferedCursor.Alike.start values default).runScript permitted).imp ?_
  intro step other stepped
  exact ⟨stepped.1, stepped.2.last⟩

/-- Looks, a commit, a way back over both of two markers, and failures of two kinds. -/
def detours : List (Call Nat) :=
  [.look 2, .push, .next, .pop false, .push, .next, .look 0, .push, .next, .last, .next, .pop true, .next, .pop true,
    .pop false, .setDefault none, .next, .next, .next]

theorem runScript_agree_detours :
    ({ Cursor.ofList [7, 8, 9] with default := some 0 } : Cursor Nat).permitsAll detours = true ∧
      List.Forall₂ (fun step other => step.1 = other.1 ∧ step.2.last = other.2.last)
        (runScript detours { BufferedCursor.ofList [7, 8, 9] with default := some 0 })
        (runScript detours { Cursor.ofList [7, 8, 9] with default := some 0 }) :=
  ⟨by decide, runScript_agree [7, 8, 9] (some 0) detours (by decide)⟩

end JavaSource
