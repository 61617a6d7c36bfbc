import JavaSource.Cursor.Indexed
import JavaSource.Cursor.Script

/-!
# Going back to a marker

A cursor over a list keeps its markers as earlier indexes, and a commit hands the index of the marker given
up on to the marker below it. So the marker below no longer says where it was set, and going back to it
afterwards does not lead there.

`Nested` are the runs of calls in which each marker that is set is given up again, and `Nested.handedDown`
lists the indexes that the commits of such a run hand down to the marker around it. `reset_returns_iff` says
where going back to that marker leads: to the last of them, and to the place of the marker itself only if
that is the same. The markers below are never touched.
-/

namespace JavaSource.Cursor

open List

/-- Calls in which every marker that is set is given up again. -/
inductive Nested where
  | done
  | next (rest : Nested)
  | look (i : Nat) (rest : Nested)
  /-- Sets a marker, makes the calls of `inner`, and gives the marker up. -/
  | block (inner : Nested) (reset : Bool) (rest : Nested)

variable {α : Type}

def Nested.calls : Nested → List (Call α)
  | done => []
  | next rest => .next :: rest.calls
  | look i rest => .look i :: rest.calls
  | block inner reset rest => .push :: (inner.calls ++ .pop reset :: rest.calls)

def after (script : List (Call α)) (c : Cursor α) : Cursor α :=
  script.foldl (fun c call => (call.run c).2) c

/-- The indexes that the commits of a run hand down to the marker around it: those at which a marker was set
that is given up by a commit, as are all markers set around it during the run. -/
def Nested.handedDown : Nested → Cursor α → List Nat
  | done, _ => []
  | next rest, c => rest.handedDown c.next.2
  | look i rest, c => rest.handedDown (c.look i).2
  | block inner reset rest, c => (if reset then [] else c.marker :: inner.handedDown c.push) ++
      rest.handedDown ((after inner.calls c.push).pop reset).2

/-! ## What single calls do -/

@[simp] theorem after_nil (c : Cursor α) : after [] c = c := rfl

@[simp] theorem after_next (script : List (Call α)) (c : Cursor α) :
    after (.next :: script) c = after script c.next.2 := rfl

@[simp] theorem after_look (i : Int) (script : List (Call α)) (c : Cursor α) :
    after (.look i :: script) c = after script (c.look i).2 := rfl

@[simp] theorem after_push (script : List (Call α)) (c : Cursor α) :
    after (.push :: script) c = after script c.push := rfl

@[simp] theorem after_pop (reset : Bool) (script : List (Call α)) (c : Cursor α) :
    after (.pop reset :: script) c = after script (c.pop reset).2 := rfl

theorem after_append (script more : List (Call α)) (c : Cursor α) :
    after (script ++ more) c = after more (after script c) :=
  foldl_append

theorem runScript_concat (script : List (Call α)) (call : Call α) (c : Cursor α) :
    runScript (script ++ [call]) c = runScript script c ++ [call.run (after script c)] := by
  induction script generalizing c with
  | nil => rfl
  | cons first rest ih => simp only [cons_append, runScript, ih, after, foldl_cons]

theorem next_after (c : Cursor α) :
    c.next.2.values = c.values ∧ c.next.2.saved = c.saved ∧ c.marker ≤ c.next.2.marker := by
  unfold next
  split
  · exact ⟨rfl, rfl, Nat.le_succ _⟩
  · exact ⟨rfl, rfl, Nat.le_refl _⟩

theorem look_after (i : Int) (c : Cursor α) : (c.look i).2.values = c.values ∧ (c.look i).2.saved = c.saved ∧
      (c.look i).2.marker = c.marker := by
  unfold look
  split
  · exact ⟨rfl, rfl, rfl⟩
  · exact ⟨rfl, rfl, rfl⟩

/-! ## What a run of nested calls does -/

/-- What a run leaves of the cursor `c` it started from, where `m` was the last marker of `c`: the marker is
replaced by the last index handed down, and the cursor moves past all of these indexes, which come in
order. -/
structure Leaves (handed : List Nat) (m : Nat) (below : List Nat) (c d : Cursor α) : Prop where
  saved : d.saved = handed.getLastD m :: below
  forward : c.marker ≤ d.marker
  handed_ge : ∀ k ∈ handed, c.marker ≤ k
  handed_le : ∀ k ∈ handed, k ≤ d.marker
  ordered : handed.Pairwise (· ≤ ·)

variable {m : Nat} {handed below inner : List Nat} {d c : Cursor α}

/-- The last of some indexes that come after an index, or that index if there are none, comes after it. -/
theorem le_getLastD (ge : ∀ k ∈ handed, m ≤ k) : m ≤ handed.getLastD m := by
  rcases handed.eq_nil_or_concat with rfl | ⟨front, last, rfl⟩
  · exact Nat.le_refl m
  · have last_ge := ge last (by simp)
    simpa using last_ge

theorem getLastD_append (left right : List Nat) (m : Nat) :
    (left ++ right).getLastD m = right.getLastD (left.getLastD m) := by
  induction left generalizing m with
  | nil => rfl
  | cons k rest ih => rw [cons_append, getLastD_cons, getLastD_cons, ih]

/-- Indexes in order end where they would start exactly if all of them are equal to the start. -/
theorem getLastD_eq_iff (ge : ∀ k ∈ handed, m ≤ k) (ordered : handed.Pairwise (· ≤ ·)) :
    handed.getLastD m = m ↔ ∀ k ∈ handed, k = m := by
  rcases handed.eq_nil_or_concat with rfl | ⟨front, last, rfl⟩
  · simp
  · rw [concat_eq_append] at ge ordered ⊢
    have front_le : ∀ k ∈ front, k ≤ last := by
      intro k mem
      exact (pairwise_append.1 ordered).2.2 k mem last (by simp)
    constructor
    · intro last_eq k mem
      have last_eq : last = m := by simpa using last_eq
      have k_ge := ge k mem
      rcases mem_append.1 mem with mem | mem
      · have k_le := front_le k mem
        omega
      · have k_eq : k = last := by simpa using mem
        omega
    · intro all
      have last_eq := all last (by simp)
      simpa using last_eq

theorem Leaves.of_le {c' : Cursor α} (forward : c.marker ≤ c'.marker) (leaves : Leaves handed m below c' d) :
    Leaves handed m below c d where
  saved := leaves.saved
  forward := Nat.le_trans forward leaves.forward
  handed_ge k mem := Nat.le_trans forward (leaves.handed_ge k mem)
  handed_le := leaves.handed_le
  ordered := leaves.ordered

/-- After a block that is left by going back, the cursor stands where the marker leads then. -/
theorem Leaves.pop_reset (block : Leaves inner m below c d) :
    d.pop true = (.ok (), { d with marker := inner.getLastD m, saved := below }) := by
  simp only [pop, block.saved, if_pos]

variable {m' : Nat}

/-- After a block that is left by a commit, the marker around it is where the marker of the block leads. -/
theorem Leaves.pop_commit (block : Leaves inner m (m' :: below) c d) :
    d.pop false = (.ok (), { d with saved := inner.getLastD m :: below }) := by
  simp [pop, block.saved, commit]

/-- A block that is left by a commit, and the calls after it. -/
theorem Leaves.commit {e : Cursor α} (block : Leaves inner c.marker (m' :: below) c.push d)
    (rest : Leaves handed (inner.getLastD c.marker) below (d.pop false).2 e) :
    Leaves (c.marker :: inner ++ handed) m below c e := by
  have marker_eq : (d.pop false).2.marker = d.marker := by rw [block.pop_commit]
  have forward : d.marker ≤ e.marker := marker_eq ▸ rest.forward
  have handed_ge : ∀ k ∈ handed, d.marker ≤ k := marker_eq ▸ rest.handed_ge
  have start_le : c.marker ≤ d.marker := block.forward
  have inner_ge : ∀ k ∈ c.marker :: inner, c.marker ≤ k := by
    intro k mem
    rcases mem_cons.1 mem with rfl | mem
    · exact Nat.le_refl _
    · exact block.handed_ge k mem
  have inner_le : ∀ k ∈ c.marker :: inner, k ≤ d.marker := by
    intro k mem
    rcases mem_cons.1 mem with rfl | mem
    · exact start_le
    · exact block.handed_le k mem
  refine ⟨?_, Nat.le_trans start_le forward, ?_, ?_, ?_⟩
  · rw [rest.saved, getLastD_append, getLastD_cons]
  · intro k mem
    rcases mem_append.1 mem with mem | mem
    · exact inner_ge k mem
    · exact Nat.le_trans start_le (handed_ge k mem)
  · intro k mem
    rcases mem_append.1 mem with mem | mem
    · exact Nat.le_trans (inner_le k mem) forward
    · exact rest.handed_le k mem
  · refine pairwise_append.2 ⟨?_, rest.ordered, ?_⟩
    · exact pairwise_cons.2 ⟨fun k mem => block.handed_ge k mem, block.ordered⟩
    · intro k mem l mem'
      exact Nat.le_trans (inner_le k mem) (handed_ge l mem')

/-- The run of nested calls, by induction on them. A block runs over a marker of its own, and the one below
it is the marker of the calls around the block. -/
theorem Nested.leaves (run : Nested) (c : Cursor α) (m : Nat) (below : List Nat)
    (saved : c.saved = m :: below) : Leaves (run.handedDown c) m below c (after run.calls c) := by
  induction run generalizing c m below with
  | done =>
    exact ⟨saved, Nat.le_refl _, by simp [handedDown], by simp [handedDown], List.Pairwise.nil⟩
  | next rest ih =>
    obtain ⟨-, saved_eq, forward⟩ := next_after c
    exact (ih c.next.2 m below (saved_eq.trans saved)).of_le forward
  | look i rest ih =>
    obtain ⟨-, saved_eq, marker_eq⟩ := look_after i c
    exact (ih (c.look i).2 m below (saved_eq.trans saved)).of_le (Nat.le_of_eq marker_eq.symm)
  | block inner reset rest ihInner ihRest =>
    have pushed : c.push.saved = c.marker :: m :: below := by rw [push, saved]
    have inside := ihInner c.push c.marker (m :: below) pushed
    simp only [calls, after_push, after_append, after_pop, handedDown]
    cases reset with
    | true =>
      have rest := ihRest ((after inner.calls c.push).pop true).2 m below
        (by rw [inside.pop_reset])
      refine rest.of_le ?_
      rw [inside.pop_reset]
      exact le_getLastD inside.handed_ge
    | false =>
      have rest := ihRest ((after inner.calls c.push).pop false).2
        ((inner.handedDown c.push).getLastD c.marker) below (by rw [inside.pop_commit])
      exact inside.commit rest

/-! ## Where going back leads -/

/-- **Going back to a marker** after nested calls gives the marker up, keeps the markers below it, and leads
to the last index that was handed down to it. That is the place of the marker exactly if every index handed
down is. -/
theorem reset_returns_iff (c : Cursor α) (run : Nested) : ∃ d : Cursor α,
      (runScript (.push :: (run.calls ++ [.pop true])) c).getLast? = some (.ok .nothing, d) ∧
        d.saved = c.saved ∧
        d.marker = (run.handedDown c.push).getLastD c.marker ∧
        (d.marker = c.marker ↔ ∀ m ∈ run.handedDown c.push, m = c.marker) := by
  have leaves := run.leaves c.push c.marker c.saved rfl
  have popped := leaves.pop_reset
  refine ⟨{ after run.calls c.push with
    marker := (run.handedDown c.push).getLastD c.marker, saved := c.saved }, ?_, rfl, rfl,
    getLastD_eq_iff leaves.handed_ge leaves.ordered⟩
  rw [← cons_append, runScript_concat, after_push, getLast?_concat]
  simp only [Call.run, LookAhead.pop, popped, Except.map]

/-- A commit inside of a block moves the place to which the block goes back: here a value is delivered, and
then a marker is set and given up. -/
theorem reset_misses_marker : ¬ ∀ (c : Cursor Nat) (run : Nested),
      ((after run.calls c.push).pop true).2.marker = c.marker := by
  intro returns
  have at_start := returns (Cursor.ofList [7, 8, 9]) (.next (.block .done false .done))
  revert at_start
  decide

end JavaSource.Cursor
