import JavaSource.Proofs.Cursor.Stream

/-!
# Looking ahead in a stream

A look is to show what is still to come and to leave it to come. It does show it, however far ahead and in whatever
state the cursor is: `look_shows`. But a look behind the end has drawn all that the stream held before it finds out,
and what it drew is lost: `remaining_look`. So a look leaves the later deliveries alone if and only if it stays within
them, or the stream was drawn to its end already: `look_delivers_iff`.
-/

namespace JavaSource.BufferedCursor

open Cursor List

variable {α : Type}

/-- Behind the end, a look gives the default and keeps of what is to come only what was drawn before. -/
theorem look_of_le {c : BufferedCursor α} {i : Nat} (beyond : c.remaining.length ≤ i) :
    c.look i = (.ok c.default, { c with stream := [] }) := by
  rw [remaining, length_append] at beyond
  have undrawn : ¬ (i : Int) < c.ahead.length := by omega
  have few : ¬ i + 1 - c.ahead.length ≤ c.stream.length := by omega
  rw [look, if_neg undrawn, Int.toNat_natCast]
  exact if_neg few

theorem look_shows (c : BufferedCursor α) (i : Nat) :
    (c.look i).1 = .ok (if i < c.remaining.length then c.remaining[i]? else c.default) := by
  split
  · rename_i within
    exact (look_of_lt within).1
  · rename_i beyond
    rw [look_of_le (Nat.le_of_not_lt beyond)]

/-- What is still to come after a look. -/
theorem remaining_look (c : BufferedCursor α) (i : Nat) :
    (c.look i).2.remaining = if i < c.remaining.length then c.remaining else c.ahead := by
  split
  · rename_i within
    exact (look_of_lt within).2.1
  · rename_i beyond
    rw [look_of_le (Nat.le_of_not_lt beyond)]
    exact append_nil _

/-- Two cursors deliver the same values if and only if the same are still to come. -/
theorem takeValues_eq_iff (c d : BufferedCursor α) :
    (∀ n, (takeValues n c).1 = (takeValues n d).1) ↔ c.remaining = d.remaining := by
  simp only [takeValues_eq]
  refine ⟨fun same => ?_, fun same n => by rw [same]⟩
  have long := same (c.remaining.length + d.remaining.length)
  rwa [take_of_length_le (Nat.le_add_right _ _), take_of_length_le (Nat.le_add_left _ _)] at long

/-- **Looking ahead.** In every state, a look shows the value that lies so far ahead among those that will be
delivered, or the default if there are not that many, and moves no marker. It leaves what will be delivered as it was
if and only if it stays within that or nothing is left in the stream; otherwise only what was drawn before will be
delivered. -/
theorem look_delivers_iff (c : BufferedCursor α) (i : Nat) :
    (c.look i).1 = .ok (if i < c.remaining.length then (takeValues (i + 1) c).1[i]? else c.default) ∧
    (c.look i).2.markers = c.markers ∧
    ((∀ n, (takeValues n (c.look i).2).1 = (takeValues n c).1) ↔ i < c.remaining.length ∨ c.stream = []) ∧
    (c.remaining.length ≤ i → ∀ n, (takeValues n (c.look i).2).1 = c.ahead.take n) := by
  refine ⟨?_, ?_, ?_, fun beyond n => ?_⟩
  · rw [look_shows, takeValues_eq, List.getElem?_take_of_lt (Nat.lt_succ_self i)]
  · rcases Nat.lt_or_ge i c.remaining.length with within | beyond
    · exact (look_of_lt within).2.2
    · rw [look_of_le beyond]
  · rw [takeValues_eq_iff, remaining_look]
    split
    · rename_i within
      exact ⟨fun _ => .inl within, fun _ => rfl⟩
    · rename_i beyond
      have kept : c.ahead = c.remaining ↔ c.stream = [] := self_eq_append_right
      rw [kept, or_iff_right beyond]
  · rw [takeValues_eq, remaining_look, if_neg (Nat.not_lt.2 beyond)]

/-- A look at the second of one value loses the first. -/
theorem look_loses_value : (takeValues 1 (ofList [7])).1 = [7] ∧ (takeValues 1 ((ofList [7]).look 1).2).1 = [] := by
  decide

end JavaSource.BufferedCursor
