import JavaSource.Proofs.Lexer.LexemeSpacing
import JavaSource.Proofs.Lexer.Unchanged

/-!
# Blanks between tokens

Blanks right behind a token change the positions of later tokens, and nothing else. `Reads` is a reading without
complaint that keeps no account of positions, and `CutsBehind` says where a token ends in its text. Up to there the
readers see a blank where other text stood, or the end of it, and from there on they see what they saw.
`tokenize_spacing` says so for every text in which the decoding of escapes changes nothing, and whose numbers do not
end with an underscore.
-/

namespace JavaSource

open List Text

/-- What a token says apart from where it stands. -/
def Token.content (t : Token) : TokenClass × Text × Option Text := (t.cls, t.value, t.javadoc)

namespace Lexer

/-! ## Readings without positions -/

/-- `Reads pending text contents`: with a documentation comment pending, the text is read to its end, without
complaint, as tokens with these contents. -/
inductive Reads : Option Text → Text → List (TokenClass × Text × Option Text) → Prop where
  | done {pending : Option Text} : Reads pending [] []
  | blank {pending : Option Text} {c : CodePoint} {rest : Text} {contents : List (TokenClass × Text × Option Text)} :
    Text.isBlank c = true → Reads pending rest contents → Reads pending (c :: rest) contents
  | comment {pending : Option Text} {c : CodePoint} {rest : Text} {n : Nat}
    {contents : List (TokenClass × Text × Option Text)} : Text.isBlank c = false →
    comment? (c :: rest) = some (.closed n) →
    Reads (if isJavadoc (c :: rest.take n) then some (c :: rest.take n) else pending) (rest.drop n) contents →
    Reads pending (c :: rest) contents
  | lexeme {pending : Option Text} {c : CodePoint} {rest : Text} {lexeme : Lexeme}
    {contents : List (TokenClass × Text × Option Text)} : Text.isBlank c = false →
    comment? (c :: rest) = none → lexeme? c rest = some { outcome := .ok lexeme } →
    Reads none (rest.drop lexeme.further) contents →
    Reads pending (c :: rest) ((lexeme.cls, c :: rest.take lexeme.further, pending) :: contents)

theorem Reads.blanks {pending : Option Text} {blanks rest : Text} {contents : List (TokenClass × Text × Option Text)}
    (all : ∀ c ∈ blanks, isBlank c = true) (reads : Reads pending rest contents) :
    Reads pending (blanks ++ rest) contents := by
  induction blanks with
  | nil => exact reads
  | cons c blanks ih => exact .blank (all c mem_cons_self) (ih fun d mem => all d (mem_cons_of_mem c mem))

variable {p : Place}

theorem Scans.reads {tokens : List Token} (scans : Scans p tokens) :
    Reads p.pending p.rest (tokens.map Token.content) := by
  induction scans with
  | done ended =>
    rw [ended]
    exact .done
  | @blanks p c rest tokens starts blank _ ih =>
    rw [Place.rest_skip, starts, drop_succ_cons] at ih
    rw [starts]
    rw [drop_takeWhile] at ih
    have later := Reads.blanks (fun d mem => mem_takeWhile_imp (p := isBlank) (l := rest) mem) ih
    rw [takeWhile_append_dropWhile] at later
    exact .blank blank later
  | @comment p c rest n tokens starts visible commented _ ih =>
    rw [Place.rest_skipComment, starts, drop_succ_cons] at ih
    rw [starts]
    refine .comment visible commented ?_
    simpa only [Place.skipComment, Place.skip, Place.advance, starts, take_succ_cons] using ih
  | @lexeme p c rest lexeme tokens starts visible uncommented read _ ih =>
    rw [Place.rest_afterToken, starts, drop_succ_cons] at ih
    rw [map_cons, Token.content, Place.token, starts, take_succ_cons]
    exact .lexeme visible uncommented read ih

variable {contents : List (TokenClass × Text × Option Text)} {text rest front back first second word : Text}
  {pending : Option Text} {k : Nat} {c : CodePoint} {cls : TokenClass}

/-- Blanks in front of a place need no more than to be skipped. -/
theorem exists_scans_of_dropWhile
    (later : ∀ q : Place, q.pending = p.pending → q.rest = p.rest.dropWhile isBlank →
      ∃ tokens, Scans q tokens ∧ tokens.map Token.content = contents) :
    ∃ tokens, Scans p tokens ∧ tokens.map Token.content = contents := by
  cases starts : p.rest with
  | nil => exact later p rfl (by rw [starts]; rfl)
  | cons c rest =>
    cases blank : isBlank c with
    | false => exact later p rfl (by rw [starts, dropWhile_cons_of_neg (by simp [blank])])
    | true =>
      obtain ⟨tokens, scans, same⟩ := later (p.skip ((rest.takeWhile isBlank).length + 1)) rfl (by
        rw [Place.rest_skip, starts, drop_succ_cons, dropWhile_cons_of_pos blank, drop_takeWhile])
      exact ⟨tokens, .blanks starts blank scans, same⟩

/-- A reading is a chain of steps from every place with its text in front. -/
theorem Reads.exists_scans
    (reads : Reads pending text contents) (p : Place) (same : p.pending = pending) (starts : p.rest = text) :
    ∃ tokens, Scans p tokens ∧ tokens.map Token.content = contents := by
  -- chains skip all blanks at once, so the induction is about places behind them
  suffices behind : ∀ q : Place, q.pending = pending → q.rest = text.dropWhile isBlank →
      ∃ tokens, Scans q tokens ∧ tokens.map Token.content = contents by
    refine exists_scans_of_dropWhile fun q same' starts' => behind q (same'.trans same) ?_
    rw [starts', starts]
  clear same starts p
  intro q same starts
  induction reads generalizing q with
  | done => exact ⟨[], .done starts, rfl⟩
  | blank blank _ ih =>
    rw [dropWhile_cons_of_pos blank] at starts
    exact ih q same starts
  | @comment pending c rest n contents visible commented _ ih =>
    rw [dropWhile_cons_of_neg (by simp [visible])] at starts
    obtain ⟨tokens, scans, contents⟩ := exists_scans_of_dropWhile (p := q.skipComment (n + 1)) fun q' same' starts' => by
      refine ih q' ?_ ?_
      · rw [same', Place.skipComment, starts, take_succ_cons, same]
      · rw [starts', Place.rest_skipComment, starts, drop_succ_cons]
    exact ⟨tokens, .comment starts visible commented scans, contents⟩
  | @lexeme pending c rest lexeme contents visible uncommented read _ ih =>
    rw [dropWhile_cons_of_neg (by simp [visible])] at starts
    obtain ⟨tokens, scans, contents⟩ := exists_scans_of_dropWhile (p := q.afterToken lexeme) fun q' same' starts' => by
      refine ih q' same' ?_
      rw [starts', Place.rest_afterToken, starts, drop_succ_cons]
    refine ⟨_, .lexeme starts visible uncommented read scans, ?_⟩
    rw [map_cons, contents, Token.content, Place.token, starts, take_succ_cons, same]

variable {d : CodePoint}

/-- A digit that starts what can be read is one of the ten: those of other scripts start nothing. -/
theorem Reads.isDecimal_of_isDigit (reads : Reads pending (d :: rest) contents)
    (digit : isDigit d = true) : Number.isDecimal d = true := by
  cases other : Number.isDecimal d with
  | true => rfl
  | false =>
    obtain ⟨visible, uncommented, unread⟩ := nothing_of_isDigit digit other rest
    cases reads with
    | blank blank _ => cases visible.symm.trans blank
    | comment _ commented _ => cases uncommented.symm.trans commented
    | lexeme _ _ read _ => cases unread.symm.trans read

/-! ## Where a token ends -/

/-- `CutsBehind k front back`: where `front ++ back` is read, the token with index `k` ends where `front` does. -/
inductive CutsBehind : Nat → Text → Text → Prop where
  | here {c : CodePoint} {word back : Text} {cls : TokenClass} : Text.isBlank c = false →
    comment? (c :: (word ++ back)) = none → lexeme? c (word ++ back) = some { outcome := .ok ⟨cls, word.length⟩ } →
    CutsBehind 0 (c :: word) back
  | lexeme {k : Nat} {c : CodePoint} {word front back : Text} {cls : TokenClass} : Text.isBlank c = false →
    comment? (c :: (word ++ (front ++ back))) = none →
    lexeme? c (word ++ (front ++ back)) = some { outcome := .ok ⟨cls, word.length⟩ } →
    CutsBehind k front back → CutsBehind (k + 1) (c :: (word ++ front)) back
  | blank {k : Nat} {c : CodePoint} {front back : Text} : Text.isBlank c = true →
    CutsBehind k front back → CutsBehind k (c :: front) back
  | comment {k : Nat} {c : CodePoint} {word front back : Text} : Text.isBlank c = false →
    comment? (c :: (word ++ (front ++ back))) = some (.closed word.length) →
    CutsBehind k front back → CutsBehind k (c :: (word ++ front)) back

theorem CutsBehind.nonempty (cut : CutsBehind k front back) : front ≠ [] := by
  cases cut <;> exact cons_ne_nil _ _

variable {n : Nat}

theorem exists_append_of_le (le : n ≤ text.length) : ∃ word rest, text = word ++ rest ∧ word.length = n :=
  ⟨text.take n, text.drop n, (take_append_drop n text).symm, length_take_of_le le⟩

theorem le_of_comment? (commented : comment? (c :: rest) = some (.closed n)) : n ≤ rest.length := by
  rcases comment?_closed commented with ⟨comment, rest', split, length, -⟩ | ⟨body, -, length, -⟩
  · have whole := congrArg List.length split
    rw [length_append, length_cons] at whole
    omega
  · exact Nat.le_of_eq (Nat.succ.inj length).symm

/-- Every token that is read ends somewhere, and its value stands before that. -/
theorem Reads.exists_cutsBehind (reads : Reads pending text contents) {value : Text} {javadoc : Option Text}
    (found : contents[k]? = some (cls, value, javadoc)) :
    ∃ front back, text = front ++ value ++ back ∧ CutsBehind k (front ++ value) back := by
  induction reads generalizing k with
  | done => cases found
  | @blank pending c rest contents blank _ ih =>
    obtain ⟨front, back, rfl, cut⟩ := ih found
    exact ⟨c :: front, back, rfl, .blank blank cut⟩
  | @comment pending c rest n contents visible commented later ih =>
    obtain ⟨word, rest, rfl, rfl⟩ := exists_append_of_le (le_of_comment? commented)
    rw [drop_left] at ih
    obtain ⟨front, back, rfl, cut⟩ := ih found
    refine ⟨c :: (word ++ front), back, by simp, ?_⟩
    rw [cons_append, append_assoc]
    exact .comment visible commented cut
  | @lexeme pending c rest lexeme contents visible uncommented read later ih =>
    obtain ⟨cls', n⟩ := lexeme
    obtain ⟨word, rest, rfl, rfl⟩ := exists_append_of_le (lexeme?_le_length read)
    rw [drop_left] at ih
    rw [take_left] at found
    cases k with
    | zero =>
      cases found
      exact ⟨[], rest, rfl, .here visible uncommented read⟩
    | succ k =>
      obtain ⟨front, back, rfl, cut⟩ := ih found
      refine ⟨c :: (word ++ front), back, by simp, ?_⟩
      rw [cons_append, append_assoc]
      exact .lexeme visible uncommented read cut

section

variable {pending : Option Text} {c : CodePoint} {word rest : Text} {cls : TokenClass}
  {contents : List (TokenClass × Text × Option Text)}

/-- What is read where a lexeme stands in front. -/
theorem Reads.of_lexeme (reads : Reads pending (c :: (word ++ rest)) contents) (visible : isBlank c = false)
    (uncommented : comment? (c :: (word ++ rest)) = none)
    (read : lexeme? c (word ++ rest) = some { outcome := .ok ⟨cls, word.length⟩ }) :
    ∃ later, contents = (cls, c :: word, pending) :: later ∧ Reads none rest later := by
  cases reads with
  | blank blank _ => cases visible.symm.trans blank
  | comment _ commented _ => cases uncommented.symm.trans commented
  | lexeme _ _ read' later =>
    obtain rfl := Except.ok.inj (congrArg Reading.outcome (Option.some.inj (read.symm.trans read')))
    rw [drop_left] at later
    rw [take_left]
    exact ⟨_, rfl, later⟩

/-- What is read where a comment stands in front. -/
theorem Reads.of_comment (reads : Reads pending (c :: (word ++ rest)) contents) (visible : isBlank c = false)
    (commented : comment? (c :: (word ++ rest)) = some (.closed word.length)) :
    Reads (if isJavadoc (c :: word) then some (c :: word) else pending) rest contents := by
  cases reads with
  | blank blank _ => cases visible.symm.trans blank
  | comment _ commented' later =>
    obtain rfl := Comment.closed.inj (Option.some.inj (commented.symm.trans commented'))
    rwa [drop_left, take_left] at later
  | lexeme _ uncommented _ _ => cases uncommented.symm.trans commented

theorem Reads.of_blank (reads : Reads pending (c :: rest) contents) (blank : isBlank c = true) :
    Reads pending rest contents := by
  cases reads with
  | blank _ later => exact later
  | comment visible _ _ => cases visible.symm.trans blank
  | lexeme visible _ _ _ => cases visible.symm.trans blank

/-- A reading goes over a lexeme in front. -/
theorem Reads.lexeme_append (visible : isBlank c = false) (uncommented : comment? (c :: (word ++ rest)) = none)
    (read : lexeme? c (word ++ rest) = some { outcome := .ok ⟨cls, word.length⟩ }) (later : Reads none rest contents) :
    Reads pending (c :: (word ++ rest)) ((cls, c :: word, pending) :: contents) := by
  have behind : Reads none ((word ++ rest).drop word.length) contents := by rwa [drop_left]
  have reads : Reads pending (c :: (word ++ rest)) _ := .lexeme visible uncommented read behind
  rwa [take_left] at reads

/-- A reading goes over a comment in front. -/
theorem Reads.comment_append (visible : isBlank c = false)
    (commented : comment? (c :: (word ++ rest)) = some (.closed word.length))
    (later : Reads (if isJavadoc (c :: word) then some (c :: word) else pending) rest contents) :
    Reads pending (c :: (word ++ rest)) contents :=
  .comment visible commented (by rwa [drop_left, take_left])

end

/-- What stands behind a token is read too. -/
theorem CutsBehind.reads_behind (cut : CutsBehind k front back) (reads : Reads pending (front ++ back) contents) :
    ∃ pending' contents', Reads pending' back contents' := by
  induction cut generalizing pending contents with
  | here visible uncommented read =>
    obtain ⟨later, -, reads⟩ := reads.of_lexeme visible uncommented read
    exact ⟨_, _, reads⟩
  | lexeme visible uncommented read _ ih =>
    rw [cons_append, append_assoc] at reads
    obtain ⟨later, -, reads⟩ := reads.of_lexeme visible uncommented read
    exact ih reads
  | blank blank _ ih => exact ih (reads.of_blank blank)
  | comment visible commented _ ih =>
    rw [cons_append, append_assoc] at reads
    exact ih (reads.of_comment visible commented)

/-- No number of these contents ends with an underscore. -/
def NoOpenNumber (contents : List (TokenClass × Text × Option Text)) : Prop :=
  ∀ content ∈ contents, content.1 ∈ Number.classes → content.2.1.getLast? ≠ some '_'.toNat

/-- **Blanks behind a token** do not change what is read. The induction is on the way to the end of the token, and
each step up to there sees a blank at the same place. -/
theorem CutsBehind.reads_insert (cut : CutsBehind k front back) (reads : Reads pending (front ++ back) contents)
    (closed : NoOpenNumber contents) {b : CodePoint} {blanks : Text} (blank : isBlank b = true)
    (all : ∀ c ∈ blanks, isBlank c = true) : Reads pending (front ++ (b :: blanks ++ back)) contents := by
  induction cut generalizing pending contents with
  | @here c word back cls visible uncommented read =>
    obtain ⟨later, rfl, behind⟩ := reads.of_lexeme visible uncommented read
    refine .lexeme_append visible (comment?_insert (a := c :: word) (notMem_of_blank blank) uncommented _) ?_
      (.blank blank (.blanks all behind))
    refine lexeme?_insert (foreign_of_blank blank) (isDigit_of_blank blank) read (Nat.le_refl _) ?_ ?_ _
    · rintro isNumber ⟨last, -⟩
      rw [cons_append, take_succ_cons, take_left] at last
      exact closed _ mem_cons_self isNumber last
    · intro _ _ d head digit
      obtain ⟨rest, rfl⟩ := head?_eq_some_iff.1 head
      exact behind.isDecimal_of_isDigit digit
  | @lexeme k c word front back cls visible uncommented read cut ih =>
    rw [cons_append, append_assoc] at reads ⊢
    obtain ⟨later, rfl, behind⟩ := reads.of_lexeme visible uncommented read
    rw [← append_assoc] at uncommented read
    refine .lexeme_append visible ?_ ?_ (ih behind fun content mem => closed content (mem_cons_of_mem _ mem))
    · rw [← append_assoc]
      exact comment?_insert (a := c :: (word ++ front)) (notMem_of_blank blank) uncommented _
    · rw [← append_assoc]
      refine lexeme?_insert (foreign_of_blank blank) (isDigit_of_blank blank) read ?_ ?_ ?_ _
      · rw [length_append]
        exact Nat.le_add_right _ _
      · rintro isNumber ⟨last, -⟩
        rw [cons_append, append_assoc, take_succ_cons, take_left] at last
        exact closed _ mem_cons_self isNumber last
      · intro empty
        exact absurd (append_eq_nil_iff.1 empty).2 cut.nonempty
  | blank isBlank _ ih => exact .blank isBlank (ih (reads.of_blank isBlank) closed)
  | @comment k c word front back visible commented cut ih =>
    rw [cons_append, append_assoc] at reads ⊢
    refine .comment_append visible ?_ (ih (reads.of_comment visible commented) closed)
    refine comment?_append (x := c :: word) commented (Nat.le_refl _) ?_ _
    exact fun empty => cut.nonempty (append_eq_nil_iff.1 empty).1

/-! ## Backslashes -/

/-- What ends a literal or a comment. -/
def closers : Text := Text.ofString "'\"/\n"

/-- Behind each backslash of the text there is something that ends a literal or a comment. -/
def Shut (text : Text) : Prop :=
  ∀ front back, text = front ++ '\\'.toNat :: back → ∃ d ∈ back, d ∈ closers

theorem shut_of_notMem (clean : '\\'.toNat ∉ text) : Shut text := by
  rintro front back rfl
  exact absurd (mem_append_right front mem_cons_self) clean

theorem shut_concat (closer : d ∈ closers) : Shut (text ++ [d]) := by
  intro front back same
  rcases append_eq_append_cons same with ⟨middle, -, rfl⟩ | ⟨middle, -, last⟩
  · exact ⟨d, by simp, closer⟩
  · cases middle with
    | nil =>
      obtain ⟨rfl, -⟩ := List.cons.inj last
      exact absurd closer (by decide)
    | cons e middle =>
      obtain ⟨-, last⟩ := List.cons.inj last
      exact absurd last.symm (by simp)

theorem Shut.append (isFirst : Shut first) (isSecond : Shut second) : Shut (first ++ second) := by
  intro front back same
  rcases append_eq_append_cons same with ⟨middle, first_eq, rfl⟩ | ⟨middle, -, second_eq⟩
  · obtain ⟨d, mem, closer⟩ := isFirst front middle first_eq
    exact ⟨d, mem_append_left second mem, closer⟩
  · exact isSecond middle back second_eq

theorem shut_of_blank (blank : isBlank c = true) : Shut [c] := by
  refine shut_of_notMem fun mem => ?_
  rw [← mem_singleton.1 mem] at blank
  exact absurd blank (by decide)

/-- A backslash behind which nothing is closed stands behind what is shut. -/
theorem Shut.behind (shut : Shut first)
    (split : first ++ second = front ++ '\\'.toNat :: back) (unclosed : ∀ d ∈ back, d ∉ closers) :
    ∃ middle, front = first ++ middle ∧ second = middle ++ '\\'.toNat :: back := by
  rcases append_eq_append_cons split with ⟨middle, first_eq, rfl⟩ | behind
  · obtain ⟨d, mem, closer⟩ := shut front middle first_eq
    exact absurd closer (unclosed d (mem_append_left second mem))
  · exact behind

/-- There are no backslashes outside literals. -/
theorem notMem_of_lexeme? (noQuote : (c == '\''.toNat || c == '"'.toNat) = false)
    (read : lexeme? c (word ++ rest) = some { outcome := .ok ⟨cls, word.length⟩ }) : '\\'.toNat ∉ c :: word := by
  have ne : c ≠ '\\'.toNat := by
    rintro rfl
    rw [lexeme?_eq_none (by decide) (by decide) (by decide) (by decide) (by decide)] at read
    cases read
  have foreign : Foreign '\\'.toNat := ⟨by decide, by decide, by decide⟩
  have clean := free_of_lexeme? foreign ne read rfl fun quote => absurd (noQuote.symm.trans quote) (by decide)
  rwa [take_succ_cons, take_left] at clean

/-- A backslash in a token belongs to a literal, which its quote ends. -/
theorem shut_of_lexeme?
    (read : lexeme? c (word ++ rest) = some { outcome := .ok ⟨cls, word.length⟩ }) : Shut (c :: word) := by
  cases quote : c == '\''.toNat || c == '"'.toNat with
  | false => exact shut_of_notMem (notMem_of_lexeme? quote read)
  | true =>
    rw [lexeme?_of_quote quote] at read
    replace read := Option.some.inj read
    unfold Quotation.read at read
    split at read
    · rename_i n closed
      have length : n = word.length := congrArg Lexeme.further (Except.ok.inj (congrArg Reading.outcome read))
      obtain ⟨k, n_eq, found⟩ := scan_closed (congrArg Prod.snd closed)
      rw [Nat.zero_add] at n_eq
      have last : word.getLast? = some c := by
        rw [getLast?_eq_getElem?, ← length, n_eq, Nat.add_sub_cancel, ← found,
          getElem?_append_left (by omega)]
      obtain ⟨front, rfl⟩ := getLast?_eq_some_iff.1 last
      have closer : c ∈ closers := by
        rcases Bool.or_eq_true_iff.1 quote with single | double
        · rw [eq_of_beq single]
          decide
        · rw [eq_of_beq double]
          decide
      rw [← cons_append]
      exact shut_concat closer
    · have remarks := congrArg Reading.remarks read
      simp at remarks

/-- A comment ends with a slash or a newline, except where the text ends. -/
theorem shut_of_comment?
    (commented : comment? (c :: (word ++ rest)) = some (.closed word.length)) (nonempty : rest ≠ []) :
    Shut (c :: word) := by
  rcases comment?_closed commented with ⟨comment, rest', split, length, complete⟩ | ⟨body, -, length, -⟩
  · obtain ⟨rfl, -⟩ := append_inj (split.symm.trans (cons_append ..).symm) length
    rcases complete with ⟨body, same, -⟩ | ⟨body, same, -⟩
    · rw [same, show ofString "*/" = ['*'.toNat] ++ ['/'.toNat] from rfl, ← append_assoc]
      exact shut_concat (by decide)
    · rw [same]
      exact shut_concat (by decide)
  · rw [length_cons, length_append] at length
    exact absurd (length_eq_zero_iff.1 (by omega)) nonempty

/-- Up to the end of a token all backslashes are behind closed quotes or in comments that have ended. -/
theorem CutsBehind.shut (cut : CutsBehind k front back) : Shut front := by
  induction cut with
  | here _ _ read => exact shut_of_lexeme? read
  | lexeme _ _ read _ ih => exact (shut_of_lexeme? read).append ih
  | @blank k c front back blank _ ih =>
    exact (shut_of_blank blank).append ih
  | comment _ commented cut ih =>
    exact (shut_of_comment? commented fun empty => cut.nonempty (append_eq_nil_iff.1 empty).1).append ih

/-- In a text that is read, a backslash with nothing behind it that ends a literal or a comment is in a comment that
the end of the text ends. -/
theorem Reads.slash_of_open (reads : Reads pending text contents) (split : text = front ++ '\\'.toNat :: back)
    (unclosed : ∀ d ∈ back, d ∉ closers) : '/'.toNat ∈ front := by
  have behind {first second : Text} {front : Text} (shut : Shut first)
      (split : first ++ second = front ++ '\\'.toNat :: back)
      (ih : ∀ {front}, second = front ++ '\\'.toNat :: back → '/'.toNat ∈ front) : '/'.toNat ∈ front := by
    obtain ⟨middle, rfl, later⟩ := shut.behind split unclosed
    exact mem_append_right first (ih later)
  induction reads generalizing front with
  | done => exact absurd split.symm (by simp)
  | blank blank _ ih => exact behind (shut_of_blank blank) split ih
  | @comment pending c rest n contents visible commented _ ih =>
    obtain ⟨word, rest, rfl, rfl⟩ := exists_append_of_le (le_of_comment? commented)
    rw [drop_left] at ih
    cases rest with
    | cons d rest => exact behind (shut_of_comment? commented (cons_ne_nil d rest)) split ih
    | nil =>
      obtain rfl : c = '/'.toNat := by
        by_contra ne
        rw [comment?_of_ne ne] at commented
        cases commented
      cases front with
      | nil => exact absurd (List.cons.inj split).1 (by decide)
      | cons e front =>
        rw [(List.cons.inj split).1]
        exact mem_cons_self
  | @lexeme pending c rest lexeme contents _ _ read _ ih =>
    obtain ⟨cls, n⟩ := lexeme
    obtain ⟨word, rest, rfl, rfl⟩ := exists_append_of_le (lexeme?_le_length read)
    rw [drop_left] at ih
    exact behind (shut_of_lexeme? read) split ih

/-- Up to the end of a token all characters are copied, if the decoding of escapes changes nothing. -/
theorem CutsBehind.copied (cut : CutsBehind k front back) (reads : Reads pending (front ++ back) contents)
    (decodes : Decodes (front ++ back) (front ++ back)) : Copied front := by
  have noCloser (us : Nat) : ∀ d ∈ copies us 'u', d ∉ closers := by
    intro d mem
    rw [eq_of_mem_replicate mem]
    decide
  obtain ⟨since, tail, rfl, copied, rfl | rfl | ⟨us, after, rfl, pos, whole⟩⟩ := exists_segment front
  · rwa [append_nil]
  · obtain ⟨d, mem, -⟩ := cut.shut since [] rfl
    cases mem
  cases after with
  | nil =>
    obtain ⟨d, mem, closer⟩ := cut.shut since _ rfl
    exact absurd closer (noCloser us d (by simpa using mem))
  | cons c after =>
    -- the backslash at the end of the text would be in a comment, with a slash between the escape and it
    have whole' : (c :: after ++ back).head? ≠ some 'u'.toNat := whole
    obtain ⟨escape, us', split, noSlash⟩ := decodes.unchanged_escape copied pos whole' (by simp) (by simp)
    have split' : since ++ '\\'.toNat :: (copies us 'u' ++ c :: after) ++ back =
        (since ++ '\\'.toNat :: (escape ++ escape)) ++ '\\'.toNat :: copies us' 'u' := by
      rw [split]
      simp
    obtain ⟨middle, front_eq, back_eq⟩ := cut.shut.behind split' (noCloser us')
    obtain ⟨_, _, reads⟩ := cut.reads_behind reads
    have slash := reads.slash_of_open back_eq (noCloser us')
    rw [append_assoc] at front_eq
    obtain ⟨-, escapes_eq⟩ := List.cons.inj (append_cancel_left front_eq)
    have among : '/'.toNat ∈ escape ++ escape := escapes_eq ▸ mem_append_right _ slash
    exact absurd ((mem_append.1 among).elim id id) noSlash

end Lexer

variable {text decoded : Text}

/-- Where a text is read strictly and without failure, its escapes are valid. -/
theorem decodes_of_strict (ok : (tokenize .strict (.text text)).failure = none)
    (unescaped : (Lexer.unescape text).outcome = .ok decoded) : Lexer.Decodes text decoded :=
  Lexer.decodes_of_unescapeFrom unescaped (map_eq_nil_iff.1 (Lexed.afterComplaints_strict ok).1)

/-- What is read strictly and without failure is read without account of positions. -/
theorem reads_of_strict (ok : (tokenize .strict (.text text)).failure = none)
    (decodes : Lexer.Decodes text decoded) :
    Lexer.Reads none decoded ((tokenize .strict (.text text)).tokens.map Token.content) := by
  rw [decodes.tokenize_eq] at ok ⊢
  exact (Lexer.scans_of_ok _ ok).reads

/-- **Spacing.** In a text that is read without failure, that the decoding of escapes leaves as it is, and of whose
numbers none ends with an underscore, every token has an end, with its value before it, and blanks put there change no
class, no value and no documentation comment of any token. -/
theorem tokenize_spacing (text : Text) (ok : (tokenize .strict (.text text)).failure = none)
    (unchanged : (Lexer.unescape text).outcome = .ok text)
    (closed : ∀ t ∈ (tokenize .strict (.text text)).tokens, t.cls ∈ Lexer.Number.classes →
      t.value.getLast? ≠ some '_'.toNat)
    (k : Nat) (t : Token) (found : (tokenize .strict (.text text)).tokens[k]? = some t) :
    (∃ front back, text = front ++ t.value ++ back ∧ Lexer.CutsBehind k (front ++ t.value) back) ∧
      ∀ front back, text = front ++ back → Lexer.CutsBehind k front back →
        ∀ blanks, (∀ c ∈ blanks, Text.isBlank c = true) →
          (tokenize .strict (.text (front ++ blanks ++ back))).failure = none ∧
            (tokenize .strict (.text (front ++ blanks ++ back))).tokens.map Token.content =
              (tokenize .strict (.text text)).tokens.map Token.content := by
  have decodes := decodes_of_strict ok unchanged
  have reads := reads_of_strict ok decodes
  constructor
  · have content : ((tokenize .strict (.text text)).tokens.map Token.content)[k]? = some t.content := by
      rw [getElem?_map, found]
      rfl
    exact reads.exists_cutsBehind content
  rintro front back rfl cut blanks all
  cases blanks with
  | nil =>
    rw [append_nil]
    exact ⟨ok, rfl⟩
  | cons b blanks =>
    have blank := all b mem_cons_self
    have clean : '\\'.toNat ∉ b :: blanks := fun mem => absurd (all _ mem) (by decide)
    have decodes' := decodes.insert (cut.copied reads decodes) cut.nonempty clean
    have inserted := cut.reads_insert reads (by
        rintro _ mem isNumber
        obtain ⟨u, among, rfl⟩ := mem_map.1 mem
        exact closed u among isNumber) blank fun c mem => all c (mem_cons_of_mem b mem)
    obtain ⟨tokens, scans, contents⟩ := inserted.exists_scans (Lexer.Place.start _) rfl rfl
    rw [append_assoc, decodes'.tokenize_eq, scans.tokensFrom_eq]
    exact ⟨rfl, contents⟩

theorem tokenize_spacing_shift : (tokenize .strict (.text "/** d */ a>>>=.5f//b")).failure = none ∧
      (tokenize .strict (.text "/** d */ a>>>=\n .5f//b")).failure = none ∧
        (tokenize .strict (.text "/** d */ a>>>=\n .5f//b")).tokens.map Token.content =
          (tokenize .strict (.text "/** d */ a>>>=.5f//b")).tokens.map Token.content := by
  obtain ⟨ok, unchanged, closed, found⟩ : (tokenize .strict (.text "/** d */ a>>>=.5f//b")).failure = none ∧
      (Lexer.unescape "/** d */ a>>>=.5f//b").outcome = .ok "/** d */ a>>>=.5f//b" ∧
      (∀ t ∈ (tokenize .strict (.text "/** d */ a>>>=.5f//b")).tokens, t.cls ∈ Lexer.Number.classes →
        t.value.getLast? ≠ some '_'.toNat) ∧
      (tokenize .strict (.text "/** d */ a>>>=.5f//b")).tokens[1]? =
        some { cls := .operator, value := ">>>=", position := some ⟨1, 11⟩, javadoc := none } := by decide +kernel
  have cut : Lexer.CutsBehind 1
      ('/'.toNat :: (ofString "** d */" ++ ' '.toNat :: 'a'.toNat :: ([] ++ '>'.toNat :: ofString ">>=")))
      (ofString ".5f//b") :=
    .comment (by decide) (by decide) <| .blank (by decide) <|
      .lexeme (by decide) (by decide) rfl <| .here (by decide) (by decide) rfl
  obtain ⟨-, spacing⟩ := tokenize_spacing "/** d */ a>>>=.5f//b" ok unchanged closed 1 _ found
  exact ⟨ok, spacing _ _ rfl cut (ofString "\n ") (by decide)⟩

end JavaSource
