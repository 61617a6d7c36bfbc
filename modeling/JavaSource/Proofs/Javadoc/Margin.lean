import JavaSource.Proofs.Javadoc.Failures

/-!
# The margin of a text

`leftJustify` cuts the same number of characters off every line, the least indent of the lines that are not blank. So
only white space is lost, and what is left has no margin any more: `leftJustify_margin`.
-/

namespace JavaSource.Javadoc

open List Text

variable {s l : Text} {ls : List Text}

/-- White space at the end of a text is no part of its margin. -/
theorem indents_trimRight (s : Text) : (lines (trimRight s)).flatMap indents = (lines s).flatMap indents := by
  rw [flatMap_lines_trimRight (fun l w blank => indents_append blank l) rfl, lines,
    flatMap_linesFrom rfl (forall_mem_nil _), reverse_nil, nil_append]

theorem within_margin (mem : l ∈ lines (trimRight s)) : margin (lines s) ≤ indentLevel l ∨ l.Blank := by
  rw [margin, ← indents_trimRight]
  exact margin_le mem

/-- The margin is the indent of a line. -/
theorem exists_margin (some_left : ls.flatMap indents ≠ []) : ∃ l ∈ ls, ¬ l.Blank ∧ indentLevel l = margin ls := by
  obtain ⟨l, isLine, indent⟩ := mem_flatMap.1 (least_spec some_left).1
  exact ⟨l, isLine, mem_indents_iff.1 indent⟩

/-- Without the margin a line is indented by so much less. -/
theorem indentLevel_drop {n : Nat} (indented : n ≤ indentLevel l ∨ l.Blank) (visible : ¬ l.Blank) :
    ¬ Blank (l.drop n) ∧ indentLevel (l.drop n) + n = indentLevel l := by
  have blank := blank_take indented
  have left : trimLeft (l.drop n) = trimLeft l := by
    conv_rhs => rw [← take_append_drop n l]
    exact (dropWhile_append_of_pos blank).symm
  refine ⟨fun blank_drop => visible ?_, ?_⟩
  · rw [← take_append_drop n l]
    exact blank.append blank_drop
  · have le := indented.resolve_right visible
    have shorter : (trimLeft (l.drop n)).length ≤ (l.drop n).length := (dropWhile_sublist _).length_le
    rw [left, length_drop] at shorter
    rw [indentLevel] at le ⊢
    rw [left, length_drop, indentLevel]
    omega

theorem filter_eq_nil_iff_blank : s.filter (!isBlank ·) = [] ↔ s.Blank := by
  rw [filter_eq_nil_iff]
  exact forall₂_congr fun c _ => by simp

/-- Without the white space a text is its lines without theirs. -/
theorem filter_lines (s : Text) : (lines (trimRight s)).flatMap (·.filter (!isBlank ·)) = s.filter (!isBlank ·) := by
  have ignores (l w : Text) (blank : w.Blank) : (l ++ w).filter (!isBlank ·) = l.filter (!isBlank ·) := by
    rw [filter_append, filter_eq_nil_iff_blank.2 blank, append_nil]
  rw [flatMap_lines_trimRight ignores rfl]
  induction s using piece_induction isLineBreak with
  | last l others => rw [splitOnP_eq_singleton others, flatMap_singleton]
  | piece l c rest others separator ih =>
    have breaks : ∀ c ∈ lineBreaks, isBlank c = true := by decide
    rw [splitOnP_append_cons _ _ separator, flatMap_append, ih, splitOnP_eq_singleton others, flatMap_singleton,
      filter_append, filter_cons_of_neg (by simp [breaks c (contains_iff_mem.1 separator)])]

theorem filter_join (ls : List Text) :
    (join [newline] ls).filter (!isBlank ·) = ls.flatMap (·.filter (!isBlank ·)) := by
  induction ls with
  | nil => rfl
  | cons l ls ih =>
    cases ls with
    | nil => simp [join]
    | cons l' ls =>
      rw [join_cons (cons_ne_nil l' ls), filter_append, filter_cons_of_neg (by decide), ih]
      rfl

theorem leftJustify_eq (visible : ¬ s.Blank) : leftJustify s = if margin (lines s) = 0 then s
      else join [newline] ((lines (trimRight s)).map (·.drop (margin (lines s)))) := by
  have some_left : ¬ (lines (trimRight s)).isEmpty = true := fun none_left =>
    visible (trimRight_eq_nil_iff.1 (linesFrom_eq_nil (isEmpty_iff.1 none_left)).2)
  rw [leftJustify, if_neg some_left, filter_indents, indents_trimRight]
  rfl

/-- Only white space is lost with the margin. -/
theorem filter_leftJustify (visible : ¬ s.Blank) : (leftJustify s).filter (!isBlank ·) = s.filter (!isBlank ·) := by
  rw [leftJustify_eq visible]
  split
  · rfl
  · rw [filter_join, flatMap_map, ← filter_lines s]
    refine flatMap_congr fun l mem => ?_
    conv_rhs => rw [← take_append_drop (margin (lines s)) l]
    rw [filter_append, filter_eq_nil_iff_blank.2 (blank_take (within_margin mem)), nil_append]

/-- Some line is not blank, and the last one without its margin is not empty. -/
theorem visible_lines (visible : ¬ s.Blank) : (lines s).flatMap indents ≠ [] ∧
    ((lines (trimRight s)).map (·.drop (margin (lines s)))).getLast? ≠ some [] := by
  obtain ⟨l, c, isLast, ends, visible⟩ := exists_visible_line visible
  have mem := mem_of_getLast? isLast
  have not_blank : ¬ l.Blank := fun blank => Bool.false_ne_true (visible.symm.trans (blank c (mem_of_getLast? ends)))
  refine ⟨?_, fun nothing => (indentLevel_drop (within_margin mem) not_blank).1 ?_⟩
  · rw [← indents_trimRight]
    exact ne_nil_of_mem (mem_flatMap.2 ⟨l, mem, mem_indents_iff.2 ⟨not_blank, rfl⟩⟩)
  · rw [getLast?_map, isLast] at nothing
    exact (Option.some.inj nothing : l.drop _ = []) ▸ forall_mem_nil _

/-- Where the margin is cut off, the lines are those that were cut. -/
theorem lines_justified (visible : ¬ s.Blank) :
    lines (join [newline] ((lines (trimRight s)).map (·.drop (margin (lines s))))) =
      (lines (trimRight s)).map (·.drop (margin (lines s))) := by
  refine lines_join (forall_mem_map.2 fun l mem c inside => ?_) (visible_lines visible).2
  exact plain_of_mem_linesFrom (forall_mem_nil _) l mem c (mem_of_mem_drop inside)

theorem exists_flush (visible : ¬ s.Blank) : ∃ l ∈ lines (leftJustify s), ¬ l.Blank ∧ indentLevel l = 0 := by
  have some_left := (visible_lines visible).1
  rw [leftJustify_eq visible]
  split
  · rename_i flush
    exact flush ▸ exists_margin some_left
  · rw [← indents_trimRight] at some_left
    obtain ⟨l, mem, visible_l, indent⟩ := exists_margin some_left
    obtain ⟨left, less⟩ := indentLevel_drop (within_margin mem) visible_l
    rw [lines_justified visible]
    refine ⟨_, mem_map_of_mem mem, left, ?_⟩
    rw [margin, indents_trimRight, ← margin] at indent
    omega

/-- **The margin.** A text with nothing but white space is cut down to nothing. Of every other text the least indent of
its lines, blank ones aside, is cut off all lines up to the last that is not blank. If that is none, the text stays as it
is; otherwise its lines stand in one text again, with newlines between them. Only white space is lost, what is left of a
line is indented by so much less, and one of the lines is not indented any more. To do it once more changes nothing. -/
theorem leftJustify_margin (s : Text) : leftJustify (leftJustify s) = leftJustify s ∧
    (s.Blank → leftJustify s = []) ∧
    (¬ s.Blank → ∃ m, (∀ l ∈ lines s, ¬ l.Blank → m ≤ indentLevel l) ∧ (∃ l ∈ lines s, ¬ l.Blank ∧ indentLevel l = m) ∧
      (m = 0 → leftJustify s = s) ∧
      (0 < m → leftJustify s = join [newline] ((lines (trimRight s)).map (·.drop m)) ∧
        lines (leftJustify s) = (lines (trimRight s)).map (·.drop m)) ∧
      (∀ l ∈ lines (trimRight s), Blank (l.take m) ∧
        (¬ l.Blank → ¬ Blank (l.drop m) ∧ indentLevel (l.drop m) + m = indentLevel l)) ∧
      (leftJustify s).filter (!isBlank ·) = s.filter (!isBlank ·) ∧
      ∃ l ∈ lines (leftJustify s), ¬ l.Blank ∧ indentLevel l = 0) := by
  by_cases blank : s.Blank
  · have nothing : leftJustify s = [] := by
      rw [leftJustify, trimRight_eq_nil_iff.2 blank]
      rfl
    rw [nothing]
    exact ⟨rfl, fun _ => rfl, absurd blank⟩
  have flush := exists_flush blank
  have kept := filter_leftJustify blank
  have justified := leftJustify_eq blank
  refine ⟨?_, fun nothing => absurd nothing blank, fun _ => ⟨margin (lines s), ?_, exists_margin (visible_lines blank).1,
    ?_, ?_, ?_, kept, flush⟩⟩
  · obtain ⟨l, mem, visible, indent⟩ := flush
    have some_left : ¬ (leftJustify s).Blank := fun nothing =>
      blank (filter_eq_nil_iff_blank.1 (kept.symm.trans (filter_eq_nil_iff_blank.2 nothing)))
    have none_left : margin (lines (leftJustify s)) = 0 :=
      Nat.le_zero.1 (indent ▸ (margin_le mem).resolve_right visible)
    rw [leftJustify_eq some_left, if_pos none_left]
  · exact fun l mem visible => (margin_le mem).resolve_right visible
  · exact fun none_cut => justified.trans (if_pos none_cut)
  · intro some_cut
    rw [if_neg (Nat.ne_of_gt some_cut)] at justified
    exact ⟨justified, justified ▸ lines_justified blank⟩
  · exact fun l mem => ⟨blank_take (within_margin mem), indentLevel_drop (within_margin mem)⟩

end JavaSource.Javadoc
