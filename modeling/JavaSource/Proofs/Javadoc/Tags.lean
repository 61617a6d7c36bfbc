import JavaSource.Proofs.Javadoc.Block

/-!
# The names of tags

A tag goes from its mark at the start of a line to the next tag. Its name is the first word, if there is another word
behind it. If not, all of its text is taken for the name, and behind every tag but the last there is a line break. So
names are clean, and `@deprecated` is recognized, where tags have more than one word or are the last thing in the
comment: `parse?_names`.
-/

namespace JavaSource

open List Text

variable {name : Text}

namespace Text

def words (text : Text) : List Text := (text.splitOnP isBlank).filter (!·.isEmpty)

variable {c : CodePoint}

theorem words_append_cons (blank : isBlank c = true) (x y : Text) :
    words (x ++ c :: y) = words x ++ words y := by
  rw [words, splitOnP_append_cons x y blank, filter_append]
  rfl

variable {w : Text}

theorem words_append_left (blank : w.Blank) (x : Text) : words (w ++ x) = words x := by
  induction w with
  | nil => rfl
  | cons c w ih =>
    obtain ⟨here, later⟩ := forall_mem_cons.1 blank
    exact (words_append_cons here [] (w ++ x)).trans (ih later)

theorem words_of_blank (blank : w.Blank) : words w = [] :=
  (congrArg words (append_nil w)).symm.trans (words_append_left blank [])

theorem words_append_right (blank : w.Blank) (x : Text) : words (x ++ w) = words x := by
  cases w with
  | nil => rw [append_nil]
  | cons c w =>
    obtain ⟨here, later⟩ := forall_mem_cons.1 blank
    rw [words_append_cons here, words_of_blank later, append_nil]

theorem words_trimLeft (x : Text) : words (trimLeft x) = words x := by
  have split := takeWhile_append_dropWhile (p := isBlank) (l := x)
  exact ((congrArg words split).symm.trans (words_append_left (fun c mem => mem_takeWhile_imp mem) _)).symm

theorem words_of_clean (nonempty : name ≠ []) (clean : ∀ c ∈ name, isBlank c = false) :
    words name = [name] := by
  obtain ⟨c, rest, rfl⟩ := exists_cons_of_ne_nil nonempty
  rw [words, splitOnP_eq_singleton clean, filter_singleton]
  rfl

/-- The first word is what stands before white space or the end. -/
theorem words_eq_cons (visible : isBlank c = false) (text : Text) :
    words (c :: text) = (c :: text).takeWhile (!isBlank ·) :: words ((c :: text).dropWhile (!isBlank ·)) := by
  have clean : ∀ d ∈ (c :: text).takeWhile (!isBlank ·), isBlank d = false := fun d mem => by
    simpa using mem_takeWhile_imp mem
  have nonempty : (c :: text).takeWhile (!isBlank ·) ≠ [] := by simp [visible]
  have split := takeWhile_append_dropWhile (p := (!isBlank ·)) (l := c :: text)
  cases left : (c :: text).dropWhile (!isBlank ·) with
  | nil =>
    rw [left, append_nil] at split
    rw [split] at clean ⊢
    exact words_of_clean (cons_ne_nil c text) clean
  | cons b rest =>
    have blank : isBlank b = true := by simpa using of_dropWhile_cons left
    have behind : words (b :: rest) = words rest := words_append_cons blank [] rest
    conv_lhs => rw [← split, left]
    rw [words_append_cons blank, words_of_clean nonempty clean, behind]
    rfl

/-- A text has two words, or it has no first one to be parted from the rest. -/
theorem firstWord?_cases (p : Text) : firstWord? p = none ∧ (words p).length ≤ 1 ∨
      ∃ name value w rest, firstWord? p = some (name, value) ∧ (∀ c ∈ name, isBlank c = false) ∧
        words p = name :: w :: rest := by
  rw [← words_trimLeft p, firstWord?]
  cases body : trimLeft p with
  | nil => exact .inl ⟨rfl, Nat.zero_le 1⟩
  | cons c text =>
    rw [words_eq_cons (of_dropWhile_cons body), ← words_trimLeft ((c :: text).dropWhile _)]
    have word : ((c :: text).takeWhile (!isBlank ·)).isEmpty = false := by simp [of_dropWhile_cons body]
    rw [word, Bool.false_or]
    cases rest_eq : trimLeft ((c :: text).dropWhile (!isBlank ·)) with
    | nil => exact .inl ⟨rfl, Nat.le_refl 1⟩
    | cons d rest =>
      rw [words_eq_cons (of_dropWhile_cons rest_eq)]
      exact .inr ⟨_, _, _, _, rfl, fun e mem => by simpa using mem_takeWhile_imp mem, rfl⟩

end Text

namespace Javadoc

/-! ## Names -/

theorem tagOf_clean_iff (p : Text) :
    (∀ c ∈ (tagOf p).1, isBlank c = false) ↔ 2 ≤ (words p).length ∨ ∀ c ∈ p, isBlank c = false := by
  rw [tagOf]
  rcases firstWord?_cases p with ⟨none_found, short⟩ | ⟨name, value, w, rest, found, clean, words_eq⟩
  · rw [none_found]
    exact ⟨.inr, fun either => either.resolve_left (by omega)⟩
  · rw [found, words_eq]
    exact iff_of_true clean (.inl (by simp))

theorem tagOf_eq_iff (nonempty : name ≠ []) (clean : ∀ c ∈ name, isBlank c = false) (p : Text) :
    (tagOf p).1 = name ↔ p = name ∨ ∃ w rest, words p = name :: w :: rest := by
  have single := words_of_clean nonempty clean
  rw [tagOf]
  rcases firstWord?_cases p with ⟨none_found, short⟩ | ⟨first, value, w, rest, found, -, words_eq⟩
  · rw [none_found]
    refine ⟨.inl, fun either => either.resolve_right ?_⟩
    rintro ⟨w, rest, several⟩
    rw [several] at short
    simp at short
  · rw [found]
    constructor
    · rintro rfl
      exact .inr ⟨w, rest, words_eq⟩
    · rintro (rfl | ⟨w', rest', same⟩)
      · cases single.symm.trans words_eq
      · cases words_eq.symm.trans same
        rfl

/-! ## Blocks of tags -/

/-- The description has no part in the tags. -/
theorem foldl_addBlock (tags : List (Text × Text)) (s : Text) :
    tags.foldl (fun d tag => d.addBlock tag.1 tag.2) { description := s } =
      { DocBlock.ofTags tags with description := s } := by
  induction tags using reverseRecOn with
  | nil => rfl
  | append_singleton tags tag ih =>
    rw [foldl_concat, ih, DocBlock.ofTags_concat, DocBlock.addBlock_eq, DocBlock.addBlock_eq]

variable (ps : List Text)

theorem mem_keys_ofTags (key : Text) :
    key ∈ (DocBlock.ofTags (ps.map tagOf)).tags.map Prod.fst ↔ ∃ p ∈ ps, (tagOf p).1 = key := by
  rw [DocBlock.ofTags_eq, DocBlock.keys_record, mem_eraseDups]
  simp

theorem deprecated_ofTags :
    (DocBlock.ofTags (ps.map tagOf)).deprecated = true ↔ ∃ p ∈ ps, (tagOf p).1 = ofString "deprecated" := by
  rw [DocBlock.ofTags_eq, contains_iff_mem]
  simp

/-! ## Lines -/

/-- The words of a line, with a mark before them if a tag starts there. -/
def lineItems (l : Text) : List (Option Text) :=
  (afterMark? '@'.toNat l).elim ((words l).map some) fun r => none :: (words r).map some

/-- The indentation of a line, unless it is blank. -/
def indents (l : Text) : List Nat := if (trim l).isEmpty then [] else [indentLevel l]

/-- The least indentation of lines, blank ones aside. -/
def margin (ls : List Text) : Nat := least (ls.flatMap indents)

/-- The lines of a comment where tags are looked for. The stars are left out. A line ends with a newline, and where all
lines are indented it ends with any other line break too. -/
def rows (s : Text) : List Text :=
  let stripped := ((trim ((s.take (s.length - 2)).drop 3)).splitOn newline).map (markLine '*'.toNat [])
  let broken := stripped.flatMap (·.splitOnP isLineBreak)
  if margin broken = 0 then stripped else broken

/-- The words of each tag of a comment: those behind its mark at the start of a line, and those of the lines up to the
next tag. -/
def tagWords (s : Text) : List (List Text) :=
  (((rows s).flatMap lineItems).splitOnP Option.isNone).tail.map List.reduceOption

/-- The texts of the tags of a comment. All but the last end with a line. The last is all that stands behind its mark,
without the stars and the margin. -/
structure AreTags (s : Text) (pieces : List Text) : Prop where
  words : pieces.map Text.words = tagWords s
  ends : ∀ p ∈ pieces.dropLast, p.getLast? = some newline
  last : ∀ p ∈ pieces.getLast?, '@'.toNat :: p <:+ leftJustify (uncomment s)

section

variable {l w rest : Text} {β : Type} {f : Text → List β}

theorem lineItems_append (blank : w.Blank) (l : Text) : lineItems (l ++ w) = lineItems l := by
  by_cases nothing : l.Blank
  · rw [lineItems, lineItems, afterMark?_of_blank nothing, afterMark?_of_blank (nothing.append blank),
      words_append_right blank]
  · rw [lineItems, lineItems, afterMark?_append nothing, words_append_right blank]
    cases afterMark? '@'.toNat l with
    | none => rfl
    | some r => exact congrArg (fun ws => none :: ws.map some) (words_append_right blank r)

/-- What is cut off a line that is indented far enough, or blank, is white space. -/
theorem blank_take {n : Nat} (indented : n ≤ indentLevel l ∨ l.Blank) : Blank (l.take n) := by
  rcases indented with le | blank
  · have split := takeWhile_append_dropWhile (p := isBlank) (l := l)
    have length := congrArg List.length split
    rw [length_append] at length
    have within : n ≤ (l.takeWhile isBlank).length := by
      rw [indentLevel, trimLeft] at le
      omega
    rw [← split, take_append_of_le_length within]
    exact fun c mem => mem_takeWhile_imp (mem_of_mem_take mem)
  · exact fun c mem => blank c (mem_of_mem_take mem)

theorem lineItems_drop {n : Nat} (indented : n ≤ indentLevel l ∨ l.Blank) : lineItems (l.drop n) = lineItems l := by
  have blank := blank_take indented
  conv_rhs => rw [← take_append_drop n l]
  rw [lineItems, lineItems, afterMark?_append_blank blank, words_append_left blank]

theorem trim_isEmpty_iff : (trim l).isEmpty = true ↔ l.Blank := by
  rw [List.isEmpty_iff, trim, trimRight_eq_nil_iff, ← dropWhile_isBlank_eq_nil, trimLeft, dropWhile_idempotent,
    dropWhile_isBlank_eq_nil]

theorem indents_append (blank : w.Blank) (l : Text) : indents (l ++ w) = indents l := by
  rw [indents, indents, trim_append blank]
  split
  · rfl
  · rename_i visible
    have some_left : ¬ (trimLeft l).isEmpty = true := fun none_left =>
      visible (trim_isEmpty_iff.2 (dropWhile_isBlank_eq_nil.1 (isEmpty_iff.1 none_left)))
    have left : trimLeft (l ++ w) = trimLeft l ++ w := (dropWhile_append).trans (if_neg some_left)
    rw [indentLevel, left, length_append, length_append, Nat.add_sub_add_right, indentLevel]

/-- White space at the end of a text has no part in what its pieces say. -/
theorem flatMap_splitOnP_append (p : CodePoint → Bool) (ignores : ∀ l w, Blank w → f (l ++ w) = f l)
    (nothing : f [] = []) (blank : w.Blank) (text : Text) :
    ((text ++ w).splitOnP p).flatMap f = (text.splitOnP p).flatMap f := by
  induction text using piece_induction p with
  | last l others =>
    rw [splitOnP_eq_singleton others, flatMap_singleton]
    induction w using piece_induction p generalizing l with
    | last w others' =>
      rw [splitOnP_eq_singleton (forall_mem_append.2 ⟨others, others'⟩), flatMap_singleton,
        ignores l w blank]
    | piece w c rest others' separator ih =>
      obtain ⟨first, later⟩ := forall_mem_append.1 blank
      have none_left := ih (forall_mem_cons.1 later).2 [] (forall_mem_nil _)
      rw [nil_append, nothing] at none_left
      rw [← append_assoc, splitOnP_append_cons _ _ separator, flatMap_append, none_left, append_nil,
        splitOnP_eq_singleton (forall_mem_append.2 ⟨others, others'⟩), flatMap_singleton,
        ignores l w first]
  | piece l c rest others separator ih =>
    rw [append_assoc, cons_append, splitOnP_append_cons _ _ separator,
      splitOnP_append_cons _ _ separator, flatMap_append, ih, flatMap_append]

/-- Without the stars the lines say the same. -/
theorem flatMap_splitOn_replaceMarks (drops : ∀ l, Blank l → f l = []) (text : Text) :
    ((replaceMarks '*'.toNat [] true text).splitOn newline).flatMap f =
      ((text.splitOn newline).map (markLine '*'.toNat [])).flatMap f := by
  have single_markLine {l : Text} (single : newline ∉ l) : newline ∉ markLine '*'.toNat [] l := by
    rw [markLine]
    cases found : afterMark? '*'.toNat l with
    | none => exact single
    | some r => exact newline_notMem_of_afterMark? found single
  induction text using line_induction with
  | last l single =>
    have whole := @replaceMarks_line '*'.toNat [] l [] single fun _ => rfl
    rw [append_nil, replaceMarks, append_nil] at whole
    rw [whole, splitOn_eq_singleton single, splitOn_eq_singleton (single_markLine single), map_singleton]
  | line l rest single ih =>
    rw [splitOn_append_cons_self_of_not_mem single, map_cons, flatMap_cons, ← ih]
    rcases blank_line_cases '*'.toNat l rest with ⟨blank, tail, found⟩ | stays
    · have same := @replaceMarks_blank _ [] _ _ _ (blank.append blank_newline) found
      rw [append_assoc, singleton_append] at same
      have stays : markLine '*'.toNat [] l = l := by rw [markLine, afterMark?_of_blank blank]; rfl
      rw [same, stays, drops l blank, nil_append]
    · rw [replaceMarks_line single stays, replaceMarks_of_none rfl, beq_self_eq_true,
        splitOn_append_cons_self_of_not_mem (single_markLine single), flatMap_cons]

theorem splitOnP_isLineBreak (text : Text) :
    text.splitOnP isLineBreak = (text.splitOn newline).flatMap (·.splitOnP isLineBreak) := by
  induction text using line_induction with
  | last l single => rw [splitOn_eq_singleton single, flatMap_singleton]
  | line l rest single ih =>
    rw [splitOnP_append_cons _ _ rfl, ih, splitOn_append_cons_self_of_not_mem single, flatMap_cons]

variable {current : Text}

/-- The lines of a text are its pieces between line breaks, apart from empty ones. -/
theorem flatMap_linesFrom (nothing : f [] = []) (plain : ∀ c ∈ current, isLineBreak c = false)
    (text : Text) :
    (linesFrom current text).flatMap f = ((current.reverse ++ text).splitOnP isLineBreak).flatMap f := by
  have whole {current : Text} (plain : ∀ c ∈ current, isLineBreak c = false) :
      current.reverse.splitOnP isLineBreak = [current.reverse] :=
    splitOnP_eq_singleton fun c mem => plain c (mem_reverse.1 mem)
  fun_induction linesFrom current text with
  | case1 current none_left =>
    rw [isEmpty_iff.1 none_left]
    simp [nothing]
  | case2 current _ => rw [append_nil, whole plain]
  | case3 current rest ih =>
    rw [splitOnP_append_cons _ _ rfl, ← nil_append (10 :: rest), splitOnP_append_cons _ _ rfl, whole plain,
      splitOnP_nil]
    simp [nothing, ih (forall_mem_nil _)]
  | case4 current c rest _ isBreak ih =>
    rw [splitOnP_append_cons _ _ isBreak, whole plain]
    simp [ih (forall_mem_nil _)]
  | case5 current c rest _ noBreak ih =>
    rw [ih (forall_mem_cons.2 ⟨Bool.eq_false_iff.2 noBreak, plain⟩), reverse_cons, append_assoc,
      singleton_append]

theorem plain_of_mem_linesFrom {text : Text} (plain : ∀ c ∈ current, isLineBreak c = false) :
    ∀ l ∈ linesFrom current text, ∀ c ∈ l, isLineBreak c = false := by
  have here {current : Text} (plain : ∀ c ∈ current, isLineBreak c = false) : ∀ c ∈ current.reverse, isLineBreak c = false :=
    fun c mem => plain c (mem_reverse.1 mem)
  fun_induction linesFrom current text with
  | case1 => exact forall_mem_nil _
  | case2 current _ => exact forall_mem_singleton.2 (here plain)
  | case3 current rest ih => exact forall_mem_cons.2 ⟨here plain, ih (forall_mem_nil _)⟩
  | case4 current c rest _ isBreak ih => exact forall_mem_cons.2 ⟨here plain, ih (forall_mem_nil _)⟩
  | case5 current c rest _ noBreak ih => exact ih (forall_mem_cons.2 ⟨Bool.eq_false_iff.2 noBreak, plain⟩)

/-- What the lines of a text say, blanks at its end aside. -/
theorem flatMap_lines_trimRight (ignores : ∀ l w, Blank w → f (l ++ w) = f l) (nothing : f [] = []) (text : Text) :
    (lines (trimRight text)).flatMap f = (text.splitOnP isLineBreak).flatMap f := by
  have split := congrArg List.reverse (takeWhile_append_dropWhile (p := isBlank) (l := text.reverse))
  rw [reverse_append, reverse_reverse] at split
  have blank : Blank (text.reverse.takeWhile isBlank).reverse := fun c mem =>
    mem_takeWhile_imp (mem_reverse.1 mem)
  rw [lines, flatMap_linesFrom nothing (forall_mem_nil _), reverse_nil, nil_append]
  conv_rhs => rw [← split, flatMap_splitOnP_append isLineBreak ignores nothing blank]
  rfl

theorem filter_indents (ls : List Text) :
    (ls.filter fun l => !(trim l).isEmpty).map indentLevel = ls.flatMap indents := by
  induction ls with
  | nil => rfl
  | cons l ls ih =>
    rw [flatMap_cons, ← ih, indents]
    cases blank : (trim l).isEmpty <;> simp [blank]

theorem mem_indents_iff {n : Nat} : n ∈ indents l ↔ ¬ l.Blank ∧ indentLevel l = n := by
  by_cases blank : (trim l).isEmpty = true
  · rw [indents, if_pos blank]
    exact iff_of_false not_mem_nil fun found => found.1 (trim_isEmpty_iff.1 blank)
  · rw [indents, if_neg blank, mem_singleton, eq_comm, ← trim_isEmpty_iff]
    exact (and_iff_right blank).symm

theorem margin_le {ls : List Text} (mem : l ∈ ls) : margin ls ≤ indentLevel l ∨ l.Blank :=
  or_iff_not_imp_right.2 fun visible => by
    have indent := mem_flatMap.2 ⟨l, mem, mem_indents_iff.2 ⟨visible, rfl⟩⟩
    exact (least_spec (ne_nil_of_mem indent)).2 _ indent

theorem linesFrom_eq_nil {text : Text} (nothing : linesFrom current text = []) : current = [] ∧ text = [] :=
    by
  fun_induction linesFrom current text with
  | case1 current none_left => exact ⟨isEmpty_iff.1 none_left, rfl⟩
  | case2 => cases nothing
  | case3 => cases nothing
  | case4 => cases nothing
  | case5 current c rest _ _ ih => cases (ih nothing).1

/-- Without the margin the lines say the same. -/
theorem splitOn_leftJustify (text : Text) : ((leftJustify text).splitOn newline).flatMap lineItems =
      (if margin (text.splitOnP isLineBreak) = 0 then text.splitOn newline
        else text.splitOnP isLineBreak).flatMap lineItems := by
  have said := flatMap_lines_trimRight (fun l w blank => lineItems_append blank l) rfl text
  have indented := flatMap_lines_trimRight (fun l w blank => indents_append blank l) rfl text
  rw [margin, ← indented, leftJustify]
  by_cases empty : lines (trimRight text) = []
  · have blank : text.Blank := trimRight_eq_nil_iff.1 (linesFrom_eq_nil empty).2
    have silent := flatMap_splitOnP_append (· == newline) (fun l w blank => lineItems_append blank l) rfl blank []
    rw [empty]
    exact silent.symm
  · rw [if_neg fun none_left => empty (isEmpty_iff.1 none_left), filter_indents]
    by_cases flush : least ((lines (trimRight text)).flatMap indents) = 0
    · rw [if_pos flush, if_pos flush]
    · have single : ∀ l ∈ (lines (trimRight text)).map (·.drop (margin (lines (trimRight text)))), newline ∉ l := by
        refine forall_mem_map.2 fun l mem has => ?_
        cases plain_of_mem_linesFrom (forall_mem_nil _) l mem newline (mem_of_mem_drop has)
      rw [if_neg flush, if_neg flush, ← said]
      refine (congrArg (List.flatMap lineItems) (splitOn_intercalate newline single (by simpa using empty))).trans ?_
      rw [flatMap_map]
      exact flatMap_congr fun l mem => lineItems_drop (margin_le mem)

/-- The words and marks that are left are those in the rows of the comment. -/
theorem splitOn_prepared (s : Text) :
    ((leftJustify (uncomment s)).splitOn newline).flatMap lineItems = (rows s).flatMap lineItems := by
  have stars {β : Type} {f : Text → List β} (ignores : ∀ l w, Blank w → f (l ++ w) = f l) (nothing : f [] = []) :
      ((uncomment s).splitOn newline).flatMap f = _ :=
    flatMap_splitOn_replaceMarks (fun l blank => (ignores [] l blank).trans nothing) _
  have broken {β : Type} {f : Text → List β} (ignores : ∀ l w, Blank w → f (l ++ w) = f l) (nothing : f [] = []) :
      ((uncomment s).splitOnP isLineBreak).flatMap f =
        ((((trim ((s.take (s.length - 2)).drop 3)).splitOn newline).map (markLine '*'.toNat [])).flatMap
          (·.splitOnP isLineBreak)).flatMap f := by
    rw [splitOnP_isLineBreak, flatMap_assoc, flatMap_assoc]
    exact stars (fun l w blank => flatMap_splitOnP_append isLineBreak ignores nothing blank l)
      ((flatMap_singleton f []).trans nothing)
  rw [splitOn_leftJustify, rows, margin, margin, broken (fun l w blank => indents_append blank l) rfl]
  split
  · exact stars (fun l w blank => lineItems_append blank l) rfl
  · exact broken (fun l w blank => lineItems_append blank l) rfl

/-! ## Pieces -/

theorem words_newline (current : Text) : words (newline :: current).reverse = words current.reverse := by
  rw [reverse_cons, words_append_right blank_newline]

theorem words_newline_append (current x : Text) :
    words ((newline :: current).reverse ++ x) = words (newline :: current).reverse ++ words x := by
  rw [words_newline, reverse_cons, append_assoc, singleton_append, words_append_cons rfl]

theorem splitOnP_isNone (first : List Text) (items : List (Option Text)) :
    List.splitOnP Option.isNone (first.map some ++ none :: items) =
      first.map some :: List.splitOnP Option.isNone items :=
  splitOnP_append_cons_of_forall_mem (forall_mem_map.2 fun _ _ => rfl) none rfl items

theorem splitOnP_isNone_last (last : List Text) : List.splitOnP Option.isNone (last.map some) = [last.map some] :=
  splitOnP_eq_singleton (forall_mem_map.2 fun _ _ => rfl)

/-- A line starts a piece, or it goes on with the last one, or it is dropped. -/
theorem tagPieces_line (single : newline ∉ l) (current rest : Text) : (∃ r, afterMark? '@'.toNat l = some r ∧
        tagPieces true current (l ++ newline :: rest) = current.reverse :: tagPieces true (newline :: r.reverse) rest) ∨
      (afterMark? '@'.toNat l = none ∧
        tagPieces true current (l ++ newline :: rest) = tagPieces true (newline :: (l.reverse ++ current)) rest) ∨
      (l.Blank ∧ ∃ r, afterMark? '@'.toNat rest = some r ∧
        tagPieces true current (l ++ newline :: rest) = tagPieces true current rest) := by
  cases tag : afterMark? '@'.toNat l with
  | some r => exact .inl ⟨r, rfl, (tagPieces_tag single tag _).trans (congrArg _ tagPieces_newline)⟩
  | none =>
    refine .inr ?_
    rcases blank_line_cases '@'.toNat l rest with ⟨blank, r, found⟩ | stays
    · have same := @tagPieces_blank current _ _ _ (blank.append blank_newline) found
      rw [append_assoc, singleton_append] at same
      exact .inr ⟨blank, r, found, same⟩
    · exact .inl ⟨rfl, (tagPieces_other single tag stays).trans tagPieces_newline⟩

theorem tagPieces_lastLine (single : newline ∉ l) (current : Text) : tagPieces true current l =
      (afterMark? '@'.toNat l).elim [current.reverse ++ l] fun r => [current.reverse, r] := by
  rw [← append_nil l]
  cases tag : afterMark? '@'.toNat l with
  | some r => rw [tagPieces_tag single tag, tagPieces_nil, append_nil, tag, reverse_reverse, Option.elim_some]
  | none =>
    rw [tagPieces_other single tag fun _ => rfl, tagPieces_nil, append_nil, tag, reverse_append,
      reverse_reverse, Option.elim_none]

/-- The pieces have the words between the marks, and all but the last end with a line, the first only if it starts
with one. -/
theorem tagPieces_items (text current : Text)
    (apart : ∀ x, words (current.reverse ++ x) = words current.reverse ++ words x) :
    (tagPieces true current text).map (fun p => (words p).map some) =
        List.splitOnP Option.isNone ((words current.reverse).map some ++ (text.splitOn newline).flatMap lineItems) ∧
      (∀ p ∈ (tagPieces true current text).tail.dropLast, p.getLast? = some newline) ∧
      (current.head? = some newline → ∀ p ∈ (tagPieces true current text).dropLast, p.getLast? = some newline) := by
  induction text using line_induction generalizing current with
  | last l single =>
    rw [splitOn_eq_singleton single, flatMap_singleton, tagPieces_lastLine single, lineItems]
    cases afterMark? '@'.toNat l with
    | some r =>
      rw [Option.elim_some, Option.elim_some, splitOnP_isNone, splitOnP_isNone_last]
      exact ⟨rfl, forall_mem_nil _, fun ends => by simpa using ends⟩
    | none =>
      rw [Option.elim_none, Option.elim_none, ← map_append, ← apart, splitOnP_isNone_last]
      exact ⟨rfl, forall_mem_nil _, fun _ => forall_mem_nil _⟩
  | line l rest single ih =>
    rw [splitOn_append_cons_self_of_not_mem single, flatMap_cons]
    rcases tagPieces_line single current rest with ⟨r, tag, step⟩ | ⟨noTag, step⟩ | ⟨blank, -, -, step⟩
    · obtain ⟨same, -, ends⟩ := ih (newline :: r.reverse) (words_newline_append r.reverse)
      rw [words_newline, reverse_reverse] at same
      rw [step, lineItems, tag, Option.elim_some, cons_append, splitOnP_isNone, map_cons, same]
      refine ⟨rfl, ends rfl, fun first => ?_⟩
      rw [tagPieces, dropLast_cons_of_ne_nil (piecesFrom_ne_nil _ _ _)]
      refine forall_mem_cons.2 ⟨?_, ends rfl⟩
      rw [getLast?_reverse, first]
    · obtain ⟨same, tails, ends⟩ := ih (newline :: (l.reverse ++ current)) (words_newline_append _)
      rw [words_newline, reverse_append, reverse_reverse, apart, map_append, append_assoc] at same
      rw [step, lineItems, noTag]
      exact ⟨same, tails, fun _ => ends rfl⟩
    · rw [step, lineItems, afterMark?_of_blank blank, words_of_blank blank]
      exact ih current apart

/-- The last piece is all that stands behind the last mark. -/
theorem tagPieces_last (text current : Text) : tagPieces true current text = [current.reverse ++ text] ∨
      ∃ front p, tagPieces true current text = front ++ [p] ∧ front ≠ [] ∧ '@'.toNat :: p <:+ text := by
  induction text using line_induction generalizing current with
  | last l single =>
    rw [tagPieces_lastLine single]
    cases tag : afterMark? '@'.toNat l with
    | some r =>
      obtain ⟨w, -, split⟩ := afterMark?_split tag
      exact .inr ⟨[current.reverse], r, rfl, cons_ne_nil _ _, w, split.symm⟩
    | none => exact .inl rfl
  | line l rest single ih =>
    have later {p : Text} (behind : '@'.toNat :: p <:+ rest) : '@'.toNat :: p <:+ l ++ newline :: rest :=
      behind.trans ((suffix_cons newline rest).trans (suffix_append l _))
    rcases tagPieces_line single current rest with ⟨r, tag, step⟩ | ⟨noTag, step⟩ | ⟨blank, r, next, step⟩
    · rcases ih (newline :: r.reverse) with whole | ⟨front, p, pieces, -, behind⟩
      · obtain ⟨w, -, rfl⟩ := afterMark?_split tag
        rw [step, whole]
        exact .inr ⟨[current.reverse], _, rfl, cons_ne_nil _ _, w, by simp⟩
      · rw [step, pieces]
        exact .inr ⟨current.reverse :: front, p, rfl, cons_ne_nil _ _, later behind⟩
    · rw [step]
      rcases ih (newline :: (l.reverse ++ current)) with whole | ⟨front, p, pieces, more, behind⟩
      · exact .inl (by simp [whole])
      · exact .inr ⟨front, p, pieces, more, later behind⟩
    · rw [step]
      rcases ih current with whole | ⟨front, p, pieces, more, behind⟩
      · -- There is a mark in the rest, so it is more than one piece.
        rw [tagPieces, replaceMarks_of_some next] at whole
        have nothing : rest = [] := self_eq_append_right.1 (cons_eq_cons.1 whole).1
        rw [nothing] at next
        cases next
      · exact .inr ⟨front, p, pieces, more, later behind⟩

end

/-- **The names of tags.** The names are clean where each tag has a second word or nothing at all around its only one.
A comment tells that the use is discouraged where the first word of such a tag is `deprecated`. -/
theorem parse?_names {raw : Text} {d : DocBlock} (parsed : parse? raw = some d) :
    ∃ s pieces, sanitize? raw = some s ∧ AreTags s pieces ∧
      ((∀ key ∈ d.tags.map Prod.fst, ∀ c ∈ key, isBlank c = false) ↔
        ∀ p ∈ pieces, 2 ≤ (words p).length ∨ ∀ c ∈ p, isBlank c = false) ∧
      (d.deprecated = true ↔ ∃ p ∈ pieces, p = Text.ofString "deprecated" ∨
        ∃ w rest, words p = Text.ofString "deprecated" :: w :: rest) := by
  obtain ⟨s, sanitized, rfl⟩ := Option.map_eq_some_iff.1 parsed
  obtain ⟨same, ends, -⟩ := tagPieces_items (leftJustify (uncomment s)) [] fun x => rfl
  have last := tagPieces_last (leftJustify (uncomment s)) []
  rw [splitOn_prepared, reverse_nil, words_of_blank (forall_mem_nil _), map_nil, nil_append] at same
  obtain ⟨first, pieces, pieces_eq⟩ : ∃ first pieces, tagPieces true [] (leftJustify (uncomment s)) = first :: pieces :=
    exists_cons_of_ne_nil (piecesFrom_ne_nil _ _ _)
  rw [pieces_eq] at same ends last
  have block : ofPrepared (tagsToLeft (leftJustify (uncomment s))) =
      { DocBlock.ofTags (pieces.map tagOf) with description := trim first } := by
    have split : Javadoc.pieces (tagsToLeft (leftJustify (uncomment s))) = first :: pieces := pieces_eq
    rw [ofPrepared, split, ← foldl_addBlock, foldl_map]
  rw [block]
  have areTags : AreTags s pieces := by
    refine ⟨?_, ends, ?_⟩
    · have tails : pieces.map (fun p => (words p).map some) =
          (((rows s).flatMap lineItems).splitOnP Option.isNone).tail := congrArg List.tail same
      rw [tagWords, ← tails, map_map]
      exact map_congr_left fun p _ => by simp [List.reduceOption]
    · rcases last with whole | ⟨front, p, split, more, behind⟩
      · rw [(cons_eq_cons.1 whole).2]
        simp
      · obtain ⟨_, front, rfl⟩ := exists_cons_of_ne_nil more
        rw [(cons_eq_cons.1 split).2]
        simpa using behind
  refine ⟨s, pieces, sanitized, areTags, ?_, ?_⟩
  · simp only [← tagOf_clean_iff, mem_keys_ofTags]
    constructor
    · exact fun clean p mem => clean _ ⟨p, mem, rfl⟩
    · rintro clean _ ⟨p, mem, rfl⟩
      exact clean p mem
  · rw [deprecated_ofTags]
    simp only [tagOf_eq_iff (show ofString "deprecated" ≠ [] by decide)
      (show ∀ c ∈ ofString "deprecated", isBlank c = false by decide)]

theorem parse?_names_crlf :
    ∃ d, parse? (Text.ofString "/** Old.\r\n * @see\r\n *  Other\r\n * @deprecated */") = some d ∧
      d.deprecated = true ∧ ∃ s pieces, AreTags s pieces ∧ ∃ p ∈ pieces, p = Text.ofString "deprecated" ∨
        ∃ w rest, words p = Text.ofString "deprecated" :: w :: rest := by
  obtain ⟨d, parsed, deprecated⟩ := Option.map_eq_some_iff.1
    (show (parse? (ofString "/** Old.\r\n * @see\r\n *  Other\r\n * @deprecated */")).map (·.deprecated) = some true by
      decide +kernel)
  obtain ⟨s, pieces, -, areTags, -, iff⟩ := parse?_names parsed
  exact ⟨d, parsed, deprecated, s, pieces, areTags, iff.1 deprecated⟩

/-- Without a value the name of a tag has the line break in it, and `@deprecated` is not recognized. -/
theorem parse?_deprecated_before_tag :
    (parse? (Text.ofString "/**\n * @deprecated\n * @see x\n */")).map (fun d => (d.tags.map Prod.fst, d.deprecated)) =
      some ([Text.ofString "deprecated\n", Text.ofString "see"], false) := by
  decide +kernel

end Javadoc

end JavaSource
