import Mathlib
import JavaSource.Javadoc.Block

/-!
# Documentation comments line by line

The passes over a comment go over its characters, and white space before a mark may go over several lines. What they do
is still a matter of lines: a line with a mark is rewritten, blank lines before it are dropped, and all other lines
stay: `replaceMarks_line` and `replaceMarks_blank`. The pieces between the tags follow from that, `tagPieces_tag`,
`tagPieces_other` and `tagPieces_blank`.
-/

namespace JavaSource

open List Text

namespace Text

def Blank (text : Text) : Prop := ∀ c ∈ text, isBlank c = true

theorem blank_newline : Blank [newline] := forall_mem_singleton.2 rfl

variable {w l : Text} {ls : List Text}

theorem Blank.append {v : Text} (first : v.Blank) (second : w.Blank) : Blank (v ++ w) :=
  forall_mem_append.2 ⟨first, second⟩

theorem dropWhile_isBlank_eq_nil {text : Text} : text.dropWhile isBlank = [] ↔ text.Blank :=
  dropWhile_eq_nil_iff

theorem of_dropWhile_cons {p : CodePoint → Bool} {text rest : Text} {c : CodePoint}
    (left : text.dropWhile p = c :: rest) : p c = false := by
  have stop := head?_dropWhile_not p text
  rw [left] at stop
  simpa using stop

variable {P : Text → Prop}

theorem piece_induction (p : CodePoint → Bool) (last : ∀ l, (∀ c ∈ l, p c = false) → P l)
    (piece : ∀ l c rest, (∀ c ∈ l, p c = false) → p c = true → P rest → P (l ++ c :: rest)) (text : Text) : P text := by
  have split := takeWhile_append_dropWhile (p := (!p ·)) (l := text)
  have others : ∀ c ∈ text.takeWhile (!p ·), p c = false := fun c mem => by simpa using mem_takeWhile_imp mem
  cases left : text.dropWhile (!p ·) with
  | nil =>
    rw [left, append_nil] at split
    exact split ▸ last _ others
  | cons c rest =>
    have separator : p c = true := by simpa using of_dropWhile_cons left
    rw [left] at split
    have shorter : rest.length < text.length := by
      rw [← split, length_append, length_cons]
      omega
    exact split ▸ piece _ c rest others separator (piece_induction p last piece rest)
termination_by text.length

theorem line_induction (last : ∀ l, newline ∉ l → P l)
    (line : ∀ l rest, newline ∉ l → P rest → P (l ++ newline :: rest)) (text : Text) : P text :=
  piece_induction (· == newline) (fun l others => last l fun mem => by simpa using others _ mem)
    (fun l _ rest others separator ih =>
      eq_of_beq separator ▸ line l rest (fun mem => by simpa using others _ mem) ih) text

theorem join_cons (more : ls ≠ []) : join [newline] (l :: ls) = l ++ newline :: join [newline] ls := by
  cases ls with
  | nil => exact absurd rfl more
  | cons l' ls => simp [join]

/-- All lines but the last few end with a newline. -/
theorem join_append (ls : List Text) {ls' : List Text} (more : ls' ≠ []) :
    join [newline] (ls ++ ls') = ls.flatMap (· ++ [newline]) ++ join [newline] ls' := by
  induction ls with
  | nil => rfl
  | cons l ls ih =>
    rw [cons_append, join_cons (append_ne_nil_of_right_ne_nil ls more), ih]
    simp

theorem flatMap_lines (nonempty : ls ≠ []) : ls.flatMap (· ++ [newline]) = join [newline] ls ++ [newline] := by
  rcases eq_nil_or_concat' ls with rfl | ⟨front, l, rfl⟩
  · exact absurd rfl nonempty
  · rw [join_append front (cons_ne_nil l [])]
    simp [join]

/-! ## White space at the ends -/

theorem trimRight_append (blank : w.Blank) (text : Text) : trimRight (text ++ w) = trimRight text := by
  rw [trimRight, trimRight, reverse_append, dropWhile_append_of_pos]
  exact fun c mem => blank c (mem_reverse.1 mem)

theorem trimRight_eq_nil_iff {text : Text} : trimRight text = [] ↔ text.Blank := by
  rw [trimRight, reverse_eq_nil_iff, dropWhile_isBlank_eq_nil]
  exact forall_congr' fun c => imp_congr_left mem_reverse

theorem trimRight_of_last {text : Text} {c : CodePoint} (last : text.getLast? = some c) (visible : isBlank c = false)
    : trimRight text = text := by
  obtain ⟨front, rfl⟩ := getLast?_eq_some_iff.1 last
  rw [trimRight, reverse_append, reverse_singleton, singleton_append,
    dropWhile_cons_of_neg (by simp [visible]), reverse_cons, reverse_reverse]

theorem trim_append (blank : w.Blank) (text : Text) : trim (text ++ w) = trim text := by
  rw [trim, trim, trimLeft, trimLeft, dropWhile_append]
  split
  · rename_i nothing
    have left : text.dropWhile isBlank = [] := isEmpty_iff.1 nothing
    rw [left, dropWhile_isBlank_eq_nil.2 blank]
  · exact trimRight_append blank _

/-- A word, a blank behind it, and more. -/
theorem firstWord?_eq_some {name value : Text} (nonempty : name ≠ []) (clean : ∀ c ∈ name, (!isBlank c) = true)
    (more : value.head?.any (!isBlank ·) = true) : firstWord? (name ++ ' '.toNat :: value) = some (name, value) := by
  obtain ⟨c, name, rfl⟩ := exists_cons_of_ne_nil nonempty
  obtain ⟨d, start, visible⟩ := (Option.any_eq_true _ _).1 more
  obtain ⟨value, rfl⟩ := head?_eq_some_iff.1 start
  have body : trimLeft (c :: name ++ ' '.toNat :: d :: value) = c :: name ++ ' '.toNat :: d :: value :=
    dropWhile_cons_of_neg (by simpa using clean c mem_cons_self)
  have word : (c :: name ++ ' '.toNat :: d :: value).takeWhile (!isBlank ·) = c :: name := by
    rw [takeWhile_append_of_pos clean, takeWhile_cons_of_neg (by decide), append_nil]
  have rest : trimLeft ((c :: name ++ ' '.toNat :: d :: value).dropWhile (!isBlank ·)) = d :: value := by
    rw [dropWhile_append_of_pos clean, dropWhile_cons_of_neg (by decide), trimLeft, dropWhile_cons_of_pos rfl]
    exact dropWhile_cons_of_neg (by simpa using visible)
  rw [firstWord?, body]
  simp only [word, rest]
  rfl

/-! ## Lines -/

theorem linesFrom_append (plain : ∀ c ∈ l, isLineBreak c = false) (current rest : Text) :
    linesFrom current (l ++ rest) = linesFrom (l.reverse ++ current) rest := by
  induction l generalizing current with
  | nil => rfl
  | cons c l ih =>
    obtain ⟨here, later⟩ := forall_mem_cons.1 plain
    have step : linesFrom current (c :: (l ++ rest)) = linesFrom (c :: current) (l ++ rest) := by
      rw [linesFrom]
      · rw [if_neg (Bool.eq_false_iff.1 here)]
      · rintro _ rfl
        cases here
    rw [cons_append, step, ih later, reverse_cons, append_assoc, singleton_append]

theorem lines_line (plain : ∀ c ∈ l, isLineBreak c = false) (rest : Text) :
    lines (l ++ newline :: rest) = l :: lines rest := by
  rw [lines, linesFrom_append plain, append_nil]
  exact congrArg (· :: lines rest) (reverse_reverse l)

theorem lines_last (plain : ∀ c ∈ l, isLineBreak c = false) (nonempty : l ≠ []) : lines l = [l] := by
  have whole := linesFrom_append plain [] []
  rw [append_nil, append_nil] at whole
  rw [lines, whole]
  exact (if_neg (by simpa using nonempty)).trans (congrArg (fun l => [l]) (reverse_reverse l))

theorem lines_join (plain : ∀ l ∈ ls, ∀ c ∈ l, isLineBreak c = false) (last : ls.getLast? ≠ some []) :
    lines (join [newline] ls) = ls := by
  induction ls with
  | nil => rfl
  | cons l ls ih =>
    obtain ⟨here, later⟩ := forall_mem_cons.1 plain
    cases ls with
    | nil =>
      rw [join, intersperse_singleton, flatten_singleton]
      exact lines_last here fun nothing => last (congrArg some nothing)
    | cons l' ls => rw [join_cons (cons_ne_nil l' ls), lines_line here, ih later last]

end Text

namespace Javadoc

/-- A comment between its marks has no blanks around it. -/
theorem sanitize?_of_marks {raw : Text} (starts : ofString "/**" <+: raw) (ends : ofString "*/" <:+ raw) :
    sanitize? raw = some (raw.flatMap fun c => if c == '\t'.toNat then ofString "    " else [c]) := by
  have left : trimLeft raw = raw := by
    obtain ⟨rest, rfl⟩ := starts
    exact dropWhile_cons_of_neg (by decide)
  have right : trimRight raw = raw := by
    obtain ⟨front, rfl⟩ := ends
    exact @trimRight_of_last _ '/'.toNat (by simp [ofString]) (by decide)
  have first : ofString "/**" = raw.take 3 := prefix_iff_eq_take.1 starts
  have last : ofString "*/" = raw.drop (raw.length - 2) := suffix_iff_eq_drop.1 ends
  have marked : (ofString "/**" == raw.take 3 && ofString "*/" == raw.drop (raw.length - 2)) = true :=
    Bool.and_eq_true_iff.2 ⟨beq_iff_eq.2 first, beq_iff_eq.2 last⟩
  rw [sanitize?, trim, left, right]
  exact if_pos marked

theorem least_spec {ns : List Nat} (nonempty : ns ≠ []) : least ns ∈ ns ∧ ∀ n ∈ ns, least ns ≤ n := by
  fun_induction least ns with
  | case1 => exact absurd rfl nonempty
  | case2 n => exact ⟨mem_singleton_self n, forall_mem_singleton.2 (Nat.le_refl n)⟩
  | case3 n ns more ih =>
    obtain ⟨mem, le⟩ := ih fun none_left => more none_left
    rcases Nat.le_total n (least ns) with first | later
    · rw [Nat.min_eq_left first]
      exact ⟨mem_cons_self, forall_mem_cons.2 ⟨Nat.le_refl n, fun m mem => first.trans (le m mem)⟩⟩
    · rw [Nat.min_eq_right later]
      exact ⟨mem_cons_of_mem _ mem, forall_mem_cons.2 ⟨later, le⟩⟩

/-! ## Marks -/

section

variable {mark : CodePoint} {replacement l w rest tail r : Text}

theorem afterMark?_of_cons {c : CodePoint} (left : l.dropWhile isBlank = c :: rest) :
    afterMark? mark l = if c == mark then some rest else none := by
  rw [afterMark?, left]

theorem afterMark?_of_blank (blank : l.Blank) : afterMark? mark l = none := by
  rw [afterMark?, dropWhile_isBlank_eq_nil.2 blank]

theorem afterMark?_append_blank (blank : w.Blank) (rest : Text) :
    afterMark? mark (w ++ rest) = afterMark? mark rest := by
  rw [afterMark?, afterMark?, dropWhile_append_of_pos blank]

theorem afterMark?_append (visible : ¬ l.Blank) (rest : Text) :
    afterMark? mark (l ++ rest) = (afterMark? mark l).map (· ++ rest) := by
  have some_left : l.dropWhile isBlank ≠ [] := fun none_left => visible (dropWhile_isBlank_eq_nil.1 none_left)
  obtain ⟨c, left, split⟩ := exists_cons_of_ne_nil some_left
  have behind : (l ++ rest).dropWhile isBlank = c :: (left ++ rest) := by
    rw [dropWhile_append, if_neg (by simpa using some_left), split, cons_append]
  rw [afterMark?_of_cons behind, afterMark?_of_cons split]
  split
  · rfl
  · rfl

theorem afterMark?_split (found : afterMark? mark l = some r) : ∃ w, Blank w ∧ l = w ++ mark :: r := by
  cases left : l.dropWhile isBlank with
  | nil =>
    rw [afterMark?_of_blank (dropWhile_isBlank_eq_nil.1 left)] at found
    cases found
  | cons c rest =>
    rw [afterMark?_of_cons left] at found
    split at found
    · rename_i isMark
      cases found
      refine ⟨l.takeWhile isBlank, fun c mem => mem_takeWhile_imp mem, ?_⟩
      rw [← eq_of_beq isMark, ← left, takeWhile_append_dropWhile]
    · cases found

theorem newline_notMem_of_afterMark? (found : afterMark? mark l = some r) (single : newline ∉ l) : newline ∉ r := by
  obtain ⟨w, -, rfl⟩ := afterMark?_split found
  exact fun mem => single (mem_append_right _ (mem_cons_of_mem _ mem))

theorem afterMark?_append_none (noMark : afterMark? mark l = none) (stays : l.Blank → afterMark? mark rest = none) :
    afterMark? mark (l ++ rest) = none := by
  by_cases blank : l.Blank
  · rw [afterMark?_append_blank blank, stays blank]
  · rw [afterMark?_append blank, noMark, Option.map_none]

/-- A blank line stands before a mark, or there is no mark behind it. -/
theorem blank_line_cases (mark : CodePoint) (l rest : Text) : (l.Blank ∧ ∃ r, afterMark? mark rest = some r) ∨
      (l.Blank → afterMark? mark (newline :: rest) = none) := by
  by_cases marked : l.Blank ∧ (afterMark? mark rest).isSome = true
  · exact .inl ⟨marked.1, Option.isSome_iff_exists.1 marked.2⟩
  · refine .inr fun blank => ?_
    rw [← singleton_append, afterMark?_append_blank blank_newline]
    exact Option.not_isSome_iff_eq_none.1 fun next => marked ⟨blank, next⟩

theorem not_blank_of_afterMark? (found : afterMark? mark l = some r) : ¬ l.Blank := fun blank => by
  rw [afterMark?_of_blank blank] at found
  cases found

/-- A line with its mark replaced, if it has one. -/
def markLine (mark : CodePoint) (replacement l : Text) : Text :=
  ((afterMark? mark l).map (replacement ++ ·)).getD l

theorem replaceMarks_nil (atStart : Bool) : replaceMarks mark replacement atStart [] = [] := by
  rw [replaceMarks]

theorem replaceMarks_cons (atStart : Bool) (c : CodePoint) (l : Text) :
    replaceMarks mark replacement atStart (c :: l) = ((if atStart then afterMark? mark (c :: l) else none).map
      (replacement ++ replaceMarks mark replacement false ·)).getD
        (c :: replaceMarks mark replacement (c == newline) l) := by
  rw [replaceMarks]
  split
  · rename_i found
    rw [found]
    rfl
  · rename_i none_found
    rw [none_found]
    rfl

theorem replaceMarks_of_some (found : afterMark? mark l = some tail) :
    replaceMarks mark replacement true l = replacement ++ replaceMarks mark replacement false tail := by
  cases l with
  | nil => cases found
  | cons c l =>
    rw [replaceMarks_cons, if_pos rfl, found]
    rfl

theorem replaceMarks_of_none {c : CodePoint} {atStart : Bool}
    (none_found : (if atStart then afterMark? mark (c :: l) else none) = none) :
    replaceMarks mark replacement atStart (c :: l) = c :: replaceMarks mark replacement (c == newline) l := by
  rw [replaceMarks_cons, none_found]
  rfl

/-- Within a line there are no marks. -/
theorem replaceMarks_append (single : newline ∉ l) (rest : Text) :
    replaceMarks mark replacement false (l ++ rest) = l ++ replaceMarks mark replacement false rest := by
  induction l with
  | nil => rfl
  | cons c l ih =>
    rw [mem_cons, not_or] at single
    rw [cons_append, replaceMarks_of_none rfl, beq_false_of_ne (Ne.symm single.1), ih single.2, cons_append]

/-- A line stays, apart from its mark, unless it is blank and a mark follows. -/
theorem replaceMarks_line (single : newline ∉ l) (stays : l.Blank → afterMark? mark rest = none) :
    replaceMarks mark replacement true (l ++ rest) =
      markLine mark replacement l ++ replaceMarks mark replacement false rest := by
  rw [markLine]
  cases found : afterMark? mark l with
  | some r =>
    have behind : afterMark? mark (l ++ rest) = some (r ++ rest) := by
      rw [afterMark?_append (not_blank_of_afterMark? found), found, Option.map_some]
    rw [replaceMarks_of_some behind, replaceMarks_append (newline_notMem_of_afterMark? found single), Option.map_some,
      Option.getD_some, append_assoc]
  | none =>
    have nothing := afterMark?_append_none found stays
    have same : replaceMarks mark replacement true (l ++ rest) = replaceMarks mark replacement false (l ++ rest) := by
      cases text_eq : l ++ rest with
      | nil => rw [replaceMarks_nil, replaceMarks_nil]
      | cons c text =>
        rw [replaceMarks_of_none (text_eq ▸ nothing), replaceMarks_of_none rfl]
    rw [same, replaceMarks_append single, Option.map_none, Option.getD_none]

/-- Blank lines before a mark are dropped. -/
theorem replaceMarks_blank (blank : w.Blank) (found : afterMark? mark rest = some tail) :
    replaceMarks mark replacement true (w ++ rest) = replaceMarks mark replacement true rest := by
  rw [replaceMarks_of_some ((afterMark?_append_blank blank rest).trans found), replaceMarks_of_some found]

end

/-! ## Pieces -/

/-- The pieces of a text with its tags to the left, where `current` is what the first of them starts with, reversed. -/
def tagPieces (atStart : Bool) (current text : Text) : List Text :=
  piecesFrom current atStart (replaceMarks '@'.toNat (ofString "@") atStart text)

section

theorem piecesFrom_cons (current : Text) (atStart : Bool) (c : CodePoint) (s : Text) :
    piecesFrom current atStart (c :: s) = if atStart && c == '@'.toNat then current.reverse :: piecesFrom [] false s
      else piecesFrom (c :: current) (c == newline) s := rfl

theorem piecesFrom_ne_nil (current : Text) (atStart : Bool) (s : Text) : piecesFrom current atStart s ≠ [] := by
  induction s generalizing current atStart with
  | nil => exact cons_ne_nil _ _
  | cons c s ih =>
    rw [piecesFrom_cons]
    split
    · exact cons_ne_nil _ _
    · exact ih _ _

variable {current l w rest r : Text}

theorem tagPieces_nil : tagPieces false current [] = [current.reverse] := by
  rw [tagPieces, replaceMarks_nil]
  rfl

theorem tagPieces_newline : tagPieces false current (newline :: rest) = tagPieces true (newline :: current) rest := by
  rw [tagPieces, replaceMarks_of_none rfl]
  rfl

theorem piecesFrom_append (single : newline ∉ l) (rest : Text) :
    piecesFrom current false (l ++ rest) = piecesFrom (l.reverse ++ current) false rest := by
  induction l generalizing current with
  | nil => rfl
  | cons c l ih =>
    rw [mem_cons, not_or] at single
    rw [cons_append, piecesFrom_cons, Bool.false_and, if_neg Bool.false_ne_true, beq_false_of_ne (Ne.symm single.1),
      ih single.2, reverse_cons, append_assoc, singleton_append]

theorem tagPieces_tag (single : newline ∉ l) (tag : afterMark? '@'.toNat l = some r) (rest : Text) :
    tagPieces true current (l ++ rest) = current.reverse :: tagPieces false r.reverse rest := by
  rw [tagPieces, replaceMarks_line single fun blank => absurd blank (not_blank_of_afterMark? tag), markLine, tag]
  show current.reverse :: piecesFrom [] false (r ++ _) = _
  rw [piecesFrom_append (newline_notMem_of_afterMark? tag single), append_nil]
  rfl

theorem tagPieces_other (single : newline ∉ l) (noTag : afterMark? '@'.toNat l = none)
    (stays : l.Blank → afterMark? '@'.toNat rest = none) :
    tagPieces true current (l ++ rest) = tagPieces false (l.reverse ++ current) rest := by
  rw [tagPieces, replaceMarks_line single stays, markLine, noTag, Option.map_none, Option.getD_none, tagPieces,
    ← piecesFrom_append single, ← replaceMarks_append single]
  have nothing := afterMark?_append_none noTag stays
  cases text_eq : l ++ rest with
  | nil =>
    rw [replaceMarks_nil]
    rfl
  | cons c text =>
    have noMark : (c == '@'.toNat) = false := beq_false_of_ne fun same => by
      rw [text_eq, same] at nothing
      cases nothing
    rw [replaceMarks_of_none rfl, piecesFrom_cons, piecesFrom_cons, noMark]
    rfl

theorem tagPieces_blank (blank : w.Blank) (next : afterMark? '@'.toNat rest = some r) :
    tagPieces true current (w ++ rest) = tagPieces true current rest := by
  rw [tagPieces, replaceMarks_blank blank next, tagPieces]

end

end Javadoc

end JavaSource
