import JavaSource.Proofs.Javadoc.Tags

/-!
# When a comment is not read

`Javadoc.parse?` gives nothing for what is no documentation comment. The steps behind that first test take the first of
several things, of the indents of the lines and of the pieces between the tags, and there has to be one. `read` goes
through the same steps and fails where there is none. It never does: if there are lines at all, the last one has more
than white space, `exists_visible_line`, so `read` fails exactly where `parse?` gives nothing, `read_eq`.
-/

namespace JavaSource

open List Text

/-- What a text ends with, its last line ends with. -/
theorem Text.getLast?_linesFrom {current text : Text} {c : CodePoint} (inLine : isLineBreak c = false)
    (last : (current.reverse ++ text).getLast? = some c) :
    ∃ l, (linesFrom current text).getLast? = some l ∧ l.getLast? = some c := by
  have later (front : Text) {rest : Text} {d : CodePoint} (isBreak : isLineBreak d = true)
      (last : (front ++ d :: rest).getLast? = some c) : rest.getLast? = some c := by
    rw [getLast?_append, getLast?_cons] at last
    cases left : rest.getLast? with
    | some e => simpa [left] using last
    | none =>
      have same : d = c := by simpa [left] using last
      cases inLine.symm.trans (same ▸ isBreak)
  fun_induction linesFrom current text with
  | case1 current nothing =>
    rw [isEmpty_iff.1 nothing] at last
    cases last
  | case2 current _ => exact ⟨_, rfl, by simpa using last⟩
  | case3 current rest ih =>
    obtain ⟨l, isLast, ends⟩ := ih (later [] rfl (later _ rfl last))
    exact ⟨l, by simp [getLast?_cons, isLast], ends⟩
  | case4 current d rest _ isBreak ih =>
    obtain ⟨l, isLast, ends⟩ := ih (later _ isBreak last)
    exact ⟨l, by simp [getLast?_cons, isLast], ends⟩
  | case5 current d rest _ _ ih => exact ih (by simpa using last)

/-- If white space is cut off the end and there are lines left, the last of them does not end with white space. -/
theorem Text.exists_visible_line {text : Text} (visible : ¬ text.Blank) :
    ∃ l c, (lines (trimRight text)).getLast? = some l ∧ l.getLast? = some c ∧ isBlank c = false := by
  have breaks : ∀ c ∈ lineBreaks, isBlank c = true := by decide
  cases ends : text.reverse.dropWhile isBlank with
  | nil => exact absurd (trimRight_eq_nil_iff.1 (congrArg List.reverse ends)) visible
  | cons c rest =>
    have visible : isBlank c = false := of_dropWhile_cons ends
    have inLine : isLineBreak c = false := Bool.eq_false_iff.2 fun isBreak =>
      Bool.false_ne_true (visible.symm.trans (breaks c (contains_iff_mem.1 isBreak)))
    have last : (trimRight text).getLast? = some c := by
      rw [trimRight, ends, reverse_cons, getLast?_concat]
    obtain ⟨l, isLast, lineEnds⟩ := @getLast?_linesFrom [] _ _ inLine last
    exact ⟨l, c, isLast, lineEnds, visible⟩

namespace Javadoc

inductive Failure where
  | invalid
  /-- There is no first item where it is asked for. -/
  | outOfRange
  deriving DecidableEq

def Failure.message : Failure → Text
  | invalid => "not a valid Javadoc comment"
  | outOfRange => "list index out of range"

def first {α : Type} : List α → Except Failure α
  | [] => .error .outOfRange
  | x :: _ => .ok x

/-- The text without its margin, which is the first of the sorted indents of the lines that are not blank. -/
def justify (s : Text) : Except Failure Text := do
  let lines := lines (trimRight s)
  if lines.isEmpty then return []
  let margin ← first ((lines.filter fun line => !(trim line).isEmpty).map indentLevel).mergeSort
  return if margin = 0 then s else join [newline] (lines.map (·.drop margin))

def read (raw : Text) : Except Failure DocBlock := do
  let s ← (sanitize? raw).elim (.error .invalid) .ok
  let pieces := pieces (tagsToLeft (← justify (uncomment s)))
  let description ← first pieces
  return pieces.tail.foldl (fun d piece => d.addBlock (tagOf piece).1 (tagOf piece).2)
    { description := trim description }

theorem first_mergeSort {ns : List Nat} (nonempty : ns ≠ []) : first ns.mergeSort = .ok (least ns) := by
  have sorted := @pairwise_mergeSort Nat (fun a b => decide (a ≤ b)) (by simp; omega) (by simp; omega) ns
  cases inOrder : ns.mergeSort with
  | nil => exact absurd (length_eq_zero_iff.1 ((length_mergeSort ns).symm.trans (congrArg length inOrder))) nonempty
  | cons m rest =>
    rw [inOrder] at sorted
    have mem : m ∈ ns := mem_mergeSort.1 (inOrder ▸ mem_cons_self)
    have below : ∀ n ∈ ns, m ≤ n := fun n isOne => by
      rcases mem_cons.1 (inOrder ▸ mem_mergeSort.2 isOne : n ∈ m :: rest) with rfl | later
      · exact Nat.le_refl _
      · exact of_decide_eq_true (pairwise_cons.1 sorted |>.1 n later)
    exact congrArg Except.ok (Nat.le_antisymm (below _ (least_spec nonempty).1) ((least_spec nonempty).2 m mem))

theorem justify_eq (s : Text) : justify s = .ok (leftJustify s) := by
  rw [justify, leftJustify]
  by_cases nothing : (lines (trimRight s)).isEmpty = true
  · simp only [nothing, if_true]
    rfl
  · obtain ⟨l, c, isLast, ends, visible⟩ := exists_visible_line fun blank => nothing (by
      rw [trimRight_eq_nil_iff.2 blank]
      rfl)
    have nonempty : ((lines (trimRight s)).filter fun line => !(trim line).isEmpty).map indentLevel ≠ [] := by
      refine ne_nil_of_mem (mem_map_of_mem (mem_filter.2 ⟨mem_of_getLast? isLast, ?_⟩))
      rw [Bool.not_eq_true', Bool.eq_false_iff, Ne, trim_isEmpty_iff]
      exact fun blank => Bool.false_ne_true (visible.symm.trans (blank c (mem_of_getLast? ends)))
    simp only [nothing, first_mergeSort nonempty]
    rfl

/-- Behind the first test nothing fails. -/
theorem read_eq (raw : Text) : read raw = (parse? raw).elim (.error .invalid) .ok := by
  rw [read, parse?]
  cases sanitize? raw with
  | none => rfl
  | some s =>
    simp only [Option.elim, Option.map_some, justify_eq, bind, Except.bind, ofPrepared]
    cases parts : pieces (tagsToLeft (leftJustify (uncomment s))) with
    | nil => exact absurd parts (piecesFrom_ne_nil _ _ _)
    | cons start tags => rfl

theorem sanitize?_eq_none_iff (raw : Text) :
    sanitize? raw = none ↔ ¬ (ofString "/**" <+: trim raw ∧ ofString "*/" <:+ trim raw) := by
  have marks : (ofString "/**" == (trim raw).take 3 && ofString "*/" == (trim raw).drop ((trim raw).length - 2)) = true ↔
      ofString "/**" <+: trim raw ∧ ofString "*/" <:+ trim raw := by
    rw [Bool.and_eq_true_iff, beq_iff_eq, beq_iff_eq, prefix_iff_eq_take, suffix_iff_eq_drop]
    rfl
  rw [← marks]
  exact ite_eq_right_iff.trans (by simp)

/-- **What is not read.** A text is a documentation comment if it starts and ends with the marks of one, apart from
white space around it. Then it is read, whatever stands between the marks, and what is read is what it says. Every other
text fails, and with the words for that. -/
theorem read_documentation (raw : Text) :
    (ofString "/**" <+: trim raw ∧ ofString "*/" <:+ trim raw → ∃ d, read raw = .ok d ∧ parse? raw = some d) ∧
    (¬ (ofString "/**" <+: trim raw ∧ ofString "*/" <:+ trim raw) →
      parse? raw = none ∧ ∃ failure, read raw = .error failure ∧ failure = .invalid ∧
        failure.message = ofString "not a valid Javadoc comment") := by
  have documentation := sanitize?_eq_none_iff raw
  rw [read_eq, parse?]
  refine ⟨fun marked => ?_, fun unmarked => ?_⟩
  · cases accepted : sanitize? raw with
    | none => exact absurd marked (documentation.1 accepted)
    | some s => exact ⟨_, rfl, rfl⟩
  · rw [documentation.2 unmarked]
    exact ⟨rfl, _, rfl, rfl, rfl⟩

end Javadoc

end JavaSource
