import JavaSource.Proofs.Javadoc.Lines

/-!
# Comments in canonical form

A comment with a star before every line is read back as what it was written from, whatever its lines are: blank lines
before a tag are dropped, but only white space is lost with them. See `parse?_canonical`.
-/

namespace JavaSource.Javadoc

open List Text

/-- A line of a comment holds no tab and no line break. -/
def IsLine (l : Text) : Prop := ∀ c ∈ l, c ≠ '\t'.toNat ∧ isLineBreak c = false

/-- The text is not empty, and there is no white space around it. -/
def IsTrimmed (text : Text) : Prop := text.head?.any (!isBlank ·) = true ∧ text.getLast?.any (!isBlank ·) = true

/-- A tag has a name without white space, and a value on one line. -/
structure IsTag (tag : Text × Text) : Prop where
  name_nonempty : tag.1 ≠ []
  name : ∀ c ∈ tag.1, isBlank c = false
  value : IsLine tag.2
  trimmed : IsTrimmed tag.2

def tagLine (tag : Text × Text) : Text := '@'.toNat :: (tag.1 ++ ' '.toNat :: tag.2)

def canonical (description : List Text) (tags : List (Text × Text)) : Text :=
  join [newline] (ofString "/**" :: ((description ++ tags.map tagLine).map (ofString " * " ++ ·) ++
    [ofString " */"]))

/-! ## The lines of the comment -/

variable {l : Text}

theorem IsLine.single (line : IsLine l) : newline ∉ l := fun mem =>
  Bool.false_ne_true ((line _ mem).2.symm.trans rfl)

variable {tag : Text × Text}

theorem IsTag.line (isTag : IsTag tag) : IsLine (tagLine tag) := by
  have breaks : ∀ c ∈ '\t'.toNat :: lineBreaks, isBlank c = true := by decide
  refine forall_mem_cons.2 ⟨by decide, forall_mem_append.2 ⟨fun c mem => ?_, ?_⟩⟩
  · have other {d : CodePoint} (isBreak : d ∈ '\t'.toNat :: lineBreaks) : c ≠ d := by
      rintro rfl
      exact Bool.false_ne_true ((isTag.name c mem).symm.trans (breaks c isBreak))
    refine ⟨other mem_cons_self, Bool.eq_false_iff.2 fun isBreak => ?_⟩
    exact other (mem_cons_of_mem _ (contains_iff_mem.1 isBreak)) rfl
  · exact forall_mem_cons.2 ⟨by decide, isTag.value⟩

theorem IsTag.trimmed_line (isTag : IsTag tag) : IsTrimmed (tagLine tag) := by
  obtain ⟨c, last, visible⟩ := (Option.any_eq_true _ _).1 isTag.trimmed.2
  obtain ⟨value, same⟩ := getLast?_eq_some_iff.1 last
  refine ⟨rfl, (Option.any_eq_true _ _).2 ⟨c, ?_, visible⟩⟩
  rw [tagLine, same]
  exact getLast?_eq_some_iff.2 ⟨'@'.toNat :: (tag.1 ++ ' '.toNat :: value), by simp⟩

/-- The lines of a comment, the last of which has white space neither before nor behind it. -/
structure IsBody (ls : List Text) : Prop where
  line : ∀ l ∈ ls, IsLine l
  last : ∃ l, ls.getLast? = some l ∧ IsTrimmed l

section

variable {ls : List Text} (body : IsBody ls)

include body

theorem IsBody.nonempty : ls ≠ [] := by
  rintro rfl
  obtain ⟨l, ⟨⟩, -⟩ := body.last

theorem IsBody.ends (front : Text) :
    ∃ c, (join [newline] (ls.map (front ++ ·))).getLast? = some c ∧ isBlank c = false := by
  obtain ⟨l, mem, -, ends⟩ := body.last
  obtain ⟨others, rfl⟩ := getLast?_eq_some_iff.1 mem
  obtain ⟨c, last, visible⟩ := (Option.any_eq_true _ _).1 ends
  obtain ⟨l, rfl⟩ := getLast?_eq_some_iff.1 last
  refine ⟨c, getLast?_eq_some_iff.2 ⟨(others.map (front ++ ·)).flatMap (· ++ [newline]) ++ (front ++ l), ?_⟩,
    by simpa using visible⟩
  rw [map_append, join_append _ (by simp)]
  simp [join]

/-- The stars are removed from the lines of the comment. -/
theorem IsBody.replaceMarks_stars :
    replaceMarks '*'.toNat [] true (join [newline] (ls.map (ofString " * " ++ ·))) =
      join [newline] (ls.map ([' '.toNat] ++ ·)) := by
  have single : ∀ l ∈ ls, newline ∉ l := fun l mem => (body.line l mem).single
  clear body
  induction ls with
  | nil => exact replaceMarks.eq_def _ _ _ _
  | cons l ls ih =>
    obtain ⟨here, later⟩ := forall_mem_cons.1 single
    have star : afterMark? '*'.toNat (ofString " * " ++ l) = some ([' '.toNat] ++ l) := rfl
    have line (rest : Text) : replaceMarks '*'.toNat [] true (ofString " * " ++ l ++ rest) =
        [' '.toNat] ++ l ++ replaceMarks '*'.toNat [] false rest := by
      rw [replaceMarks_line (by simpa [ofString, newline] using here)
        fun blank => absurd blank (not_blank_of_afterMark? star), markLine, star]
      rfl
    cases ls with
    | nil =>
      have last := line []
      rw [append_nil, replaceMarks, append_nil] at last
      simpa [join] using last
    | cons l' ls =>
      have stars (front : Text) : join [newline] ((l :: l' :: ls).map (front ++ ·)) =
          front ++ l ++ newline :: join [newline] ((l' :: ls).map (front ++ ·)) := join_cons (by simp)
      rw [stars, line, replaceMarks_of_none rfl, stars]
      exact congrArg ([' '.toNat] ++ l ++ newline :: ·) (ih later)

theorem IsBody.uncomment_eq :
    uncomment (ofString "/**" ++ (newline :: (join [newline] (ls.map (ofString " * " ++ ·)) ++
      [newline, ' '.toNat]) ++ ofString "*/")) = join [newline] (ls.map ([' '.toNat] ++ ·)) := by
  obtain ⟨c, last, visible⟩ := body.ends (ofString " * ")
  have inner (text : Text) : ((ofString "/**" ++ (text ++ ofString "*/")).take
      ((ofString "/**" ++ (text ++ ofString "*/")).length - 2)).drop 3 = text := by
    simp [ofString]
  rw [uncomment, inner, ← body.replaceMarks_stars, ← cons_append,
    trim_append (forall_mem_cons.2 ⟨rfl, forall_mem_singleton.2 rfl⟩)]
  obtain ⟨more, starts⟩ : ∃ more, join [newline] (ls.map (ofString " * " ++ ·)) = ' '.toNat :: '*'.toNat :: more := by
    rcases ls with _ | ⟨l, _ | ⟨l', ls⟩⟩
    · exact absurd rfl body.nonempty
    · exact ⟨_, rfl⟩
    · exact ⟨_, rfl⟩
  rw [starts] at last ⊢
  have trimmed : trim (newline :: ' '.toNat :: '*'.toNat :: more) = '*'.toNat :: more := trimRight_of_last last visible
  rw [trimmed]
  exact (replaceMarks_blank (forall_mem_singleton.2 rfl) rfl).symm

/-- The margin of the lines is the blank behind the stars, since the last line has no other. -/
theorem IsBody.leftJustify_eq : leftJustify (join [newline] (ls.map ([' '.toNat] ++ ·))) = join [newline] ls := by
  obtain ⟨c, last, visible⟩ := body.ends [' '.toNat]
  have found : lines (join [newline] (ls.map ([' '.toNat] ++ ·))) = ls.map ([' '.toNat] ++ ·) := by
    refine lines_join (forall_mem_map.2 fun l mem => forall_mem_cons.2 ⟨rfl, fun c inside => ?_⟩) ?_
    · exact (body.line l mem c inside).2
    · simp
  have margin : least (((ls.map ([' '.toNat] ++ ·)).filter fun line => !(trim line).isEmpty).map indentLevel) = 1 := by
    obtain ⟨l, mem, starts, ends⟩ := body.last
    obtain ⟨c, first, visible⟩ := (Option.any_eq_true _ _).1 starts
    obtain ⟨d, final, visible'⟩ := (Option.any_eq_true _ _).1 ends
    obtain ⟨l, rfl⟩ := head?_eq_some_iff.1 first
    have left : trimLeft ([' '.toNat] ++ c :: l) = c :: l :=
      (dropWhile_cons_of_pos rfl).trans (dropWhile_cons_of_neg (by simpa using visible))
    have one : 1 ∈ ((ls.map ([' '.toNat] ++ ·)).filter fun line => !(trim line).isEmpty).map indentLevel := by
      refine mem_map.2 ⟨_, mem_filter.2 ⟨mem_map_of_mem (mem_of_getLast? mem), ?_⟩, ?_⟩
      · rw [trim, left, trimRight_of_last final (by simpa using visible')]
        rfl
      · rw [indentLevel, left]
        simp
    obtain ⟨least, le⟩ := least_spec (ne_nil_of_mem one)
    obtain ⟨_, mem, indent⟩ := mem_map.1 least
    obtain ⟨l, -, rfl⟩ := mem_map.1 (mem_filter.1 mem).1
    refine Nat.le_antisymm (le 1 one) (indent ▸ ?_)
    have shorter : (trimLeft l).length ≤ l.length := (dropWhile_sublist _).length_le
    show 1 ≤ l.length + 1 - (trimLeft l).length
    omega
  rw [leftJustify, trimRight_of_last last visible, found]
  simp only [margin]
  simp [body.nonempty, Function.comp_def]

end

/-! ## The pieces of the comment -/

variable {mark : CodePoint}

theorem afterMark?_eq_none (other : (trimLeft l).head? ≠ some mark) :
    afterMark? mark l = none := by
  unfold afterMark?
  split
  · rfl
  · rename_i c rest left
    refine if_neg fun same => other ?_
    rw [trimLeft, left, eq_of_beq same, head?_cons]

variable {ls : List Text}

theorem afterMark?_lines (noMark : ∀ l ∈ ls, afterMark? mark l = none) :
    afterMark? mark (ls.flatMap (· ++ [newline])) = none := by
  induction ls with
  | nil => rfl
  | cons l ls ih =>
    obtain ⟨here, later⟩ := forall_mem_cons.1 noMark
    rw [flatMap_cons, append_assoc]
    exact afterMark?_append_none here fun _ => (afterMark?_append_blank blank_newline _).trans (ih later)

/-- Of the lines of the description only blank ones before the first tag are lost. -/
theorem tagPieces_description (single : ∀ l ∈ ls, newline ∉ l)
    (noTag : ∀ l ∈ ls, afterMark? '@'.toNat l = none) {rest r : Text} (tag : afterMark? '@'.toNat rest = some r)
    (current : Text) :
    ∃ current' w, Blank w ∧ List.reverse current' ++ w = current.reverse ++ ls.flatMap (· ++ [newline]) ∧
      tagPieces true current (ls.flatMap (· ++ [newline]) ++ rest) = tagPieces true current' rest := by
  induction ls generalizing current with
  | nil => exact ⟨current, [], forall_mem_nil _, rfl, rfl⟩
  | cons l ls ih =>
    by_cases blank : Blank ((l :: ls).flatMap (· ++ [newline]))
    · exact ⟨current, _, blank, rfl, tagPieces_blank blank tag⟩
    · obtain ⟨single, laterSingle⟩ := forall_mem_cons.1 single
      obtain ⟨noTag, later⟩ := forall_mem_cons.1 noTag
      have stays (blank_l : l.Blank) : afterMark? '@'.toNat ([newline] ++ (ls.flatMap (· ++ [newline]) ++ rest)) = none := by
        have visible : ¬ Blank (ls.flatMap (· ++ [newline])) := fun blank_ls =>
          blank ((blank_l.append blank_newline).append blank_ls)
        rw [afterMark?_append_blank blank_newline, afterMark?_append visible, afterMark?_lines later, Option.map_none]
      obtain ⟨current', w, blank_w, same, pieces_eq⟩ := ih laterSingle later (newline :: (l.reverse ++ current))
      refine ⟨current', w, blank_w, ?_, ?_⟩
      · rw [same]
        simp
      · rw [← pieces_eq, ← tagPieces_newline, flatMap_cons, append_assoc, append_assoc]
        exact tagPieces_other single noTag stays

/-- The name and the value of a tag are found again, with what stands behind the value. -/
theorem tagOf_tagLine (isTag : IsTag tag) (w : Text) :
    tagOf (tag.1 ++ ' '.toNat :: tag.2 ++ w) = (tag.1, tag.2 ++ w) := by
  have clean : ∀ c ∈ tag.1, (!isBlank c) = true := fun c mem => by rw [isTag.name c mem, Bool.not_false]
  have more : (tag.2 ++ w).head?.any (!isBlank ·) = true := by
    obtain ⟨c, start, visible⟩ := (Option.any_eq_true _ _).1 isTag.trimmed.1
    rw [head?_append, start]
    exact visible
  rw [tagOf, append_assoc, cons_append, firstWord?_eq_some isTag.name_nonempty clean more, Option.getD_some]

/-- The pieces of the tags make the block as the tags do. -/
theorem tagPieces_tags {tags : List (Text × Text)} (nonempty : tags ≠ []) (isTag : ∀ tag ∈ tags, IsTag tag) :
    ∃ ps, (∀ current, tagPieces true current (join [newline] (tags.map tagLine)) = current.reverse :: ps) ∧
      ∀ d : DocBlock, ps.foldl (fun d piece => d.addBlock (tagOf piece).1 (tagOf piece).2) d =
        tags.foldl (fun d tag => d.addBlock tag.1 tag.2) d := by
  induction tags with
  | nil => exact absurd rfl nonempty
  | cons tag tags ih =>
    obtain ⟨here, later⟩ := forall_mem_cons.1 isTag
    have line (current : Text) := @tagPieces_tag current (tagLine tag) _ here.line.single rfl
    have step {w : Text} (blank : w.Blank) (d : DocBlock) :
        d.addBlock (tagOf (tag.1 ++ ' '.toNat :: tag.2 ++ w)).1 (tagOf (tag.1 ++ ' '.toNat :: tag.2 ++ w)).2 =
          d.addBlock tag.1 tag.2 := by
      rw [tagOf_tagLine here, DocBlock.addBlock, DocBlock.addBlock, trim_append blank]
    cases tags with
    | nil =>
      refine ⟨[tag.1 ++ ' '.toNat :: tag.2 ++ []], fun current => ?_, fun d => step (forall_mem_nil _) d⟩
      have last := line current []
      rw [tagPieces_nil, reverse_reverse, append_nil] at last
      simpa [join] using last
    | cons tag' tags =>
      obtain ⟨ps, pieces_eq, folded⟩ := ih (cons_ne_nil tag' tags) later
      refine ⟨(tag.1 ++ ' '.toNat :: tag.2 ++ [newline]) :: ps, fun current => ?_, fun d => ?_⟩
      · rw [map_cons, join_cons (by simp), line, tagPieces_newline, pieces_eq]
        simp
      · rw [foldl_cons, step blank_newline, folded]
        rfl

/-- **Canonical comments** are read back as they were written. -/
theorem parse?_canonical {description : List Text} {tags : List (Text × Text)} (isLine : ∀ l ∈ description, IsLine l)
    (noTag : ∀ l ∈ description, (trimLeft l).head? ≠ some '@'.toNat) (nonempty : tags ≠ [])
    (isTag : ∀ tag ∈ tags, IsTag tag) : parse? (canonical description tags) =
      some (tags.foldl (fun d tag => d.addBlock tag.1 tag.2)
        { description := trim (join [newline] description) }) := by
  have body : IsBody (description ++ tags.map tagLine) := by
    refine ⟨forall_mem_append.2 ⟨isLine, forall_mem_map.2 fun tag mem => (isTag tag mem).line⟩, ?_⟩
    obtain ⟨tag, last⟩ := Option.isSome_iff_exists.1 (getLast?_isSome.2 nonempty)
    refine ⟨tagLine tag, ?_, (isTag tag (mem_of_getLast? last)).trimmed_line⟩
    rw [getLast?_append, getLast?_map, last]
    rfl
  have raw_eq : canonical description tags = ofString "/**" ++ (newline :: (join [newline]
      ((description ++ tags.map tagLine).map (ofString " * " ++ ·)) ++ [newline, ' '.toNat]) ++
      ofString "*/") := by
    rw [canonical, join_cons (by simp), join_append _ (by simp), flatMap_lines (by simpa using body.nonempty)]
    simp [join, ofString]
  have sane : sanitize? (canonical description tags) = some (canonical description tags) := by
    have untabbed : ∀ c ∈ canonical description tags, c ≠ '\t'.toNat := by
      rw [canonical, ← cons_append, join_append _ (by simp), forall_mem_append, forall_mem_flatMap]
      refine ⟨forall_mem_cons.2 ⟨by decide, forall_mem_map.2 fun l mem => ?_⟩, by decide⟩
      exact forall_mem_append.2 ⟨forall_mem_append.2 ⟨by decide, fun c inside => (body.line l mem c inside).1⟩,
        by decide⟩
    have starts : ofString "/**" <+: canonical description tags := raw_eq ▸ prefix_append _ _
    have ends : ofString "*/" <:+ canonical description tags :=
      raw_eq ▸ (suffix_append _ _).trans (suffix_append _ _)
    rw [sanitize?_of_marks starts ends, flatMap_congr fun c mem => if_neg (by simpa using untabbed c mem),
      flatMap_singleton']
  obtain ⟨r, first⟩ : ∃ r, afterMark? '@'.toNat (join [newline] (tags.map tagLine)) = some r := by
    rcases tags with _ | ⟨tag, _ | ⟨tag', tags⟩⟩
    · exact absurd rfl nonempty
    · exact ⟨_, rfl⟩
    · exact ⟨_, rfl⟩
  obtain ⟨ps, pieces_eq, folded⟩ := tagPieces_tags nonempty isTag
  obtain ⟨current, w, blank, same, described⟩ := tagPieces_description (fun l mem => (isLine l mem).single)
    (fun l mem => afterMark?_eq_none (noTag l mem)) first []
  have trimmed : trim current.reverse = trim (join [newline] description) := by
    rw [← trim_append blank, same]
    cases description with
    | nil => rfl
    | cons l ls => rw [reverse_nil, nil_append, flatMap_lines (cons_ne_nil l ls), trim_append blank_newline]
  have cut : pieces (tagsToLeft (join [newline] (description ++ tags.map tagLine))) = current.reverse :: ps := by
    rw [join_append _ (by simpa using nonempty)]
    exact described.trans (pieces_eq current)
  rw [parse?, sane, Option.map_some, raw_eq, body.uncomment_eq, body.leftJustify_eq, ofPrepared, cut, ← trimmed]
  exact congrArg some (folded _)

/-- A line with a star of its own, a blank line that is lost, and a tag mark that is not at the start of its line. -/
theorem parse?_canonical_stars :
    parse? (canonical [Text.ofString "* a", []] [(Text.ofString "see", Text.ofString "@B c")]) =
      some { description := Text.ofString "* a", tags := [(Text.ofString "see", [Text.ofString "@B c"])] } := by
  refine (parse?_canonical ?_ (by decide) (by decide) ?_).trans rfl
  · exact forall_mem_cons.2 ⟨by unfold IsLine; decide, forall_mem_singleton.2 (forall_mem_nil _)⟩
  · exact forall_mem_singleton.2 ⟨by decide, by decide, by unfold IsLine; decide, rfl, rfl⟩

end JavaSource.Javadoc
