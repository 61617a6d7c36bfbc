import JavaSource.Proofs.Javadoc.Lines
import JavaSource.Proofs.Lexer.Coverage

/-!
# Which token a documentation comment belongs to

While blanks and comments are passed over, the last documentation comment is kept for the token that follows them.
`HasComments` lists the comments of a gap, and `Documented` says that a text is a gap, a token that carries the last
documentation comment of the gap, another gap, and so on. `tokenize_javadoc` says so for every source text: no comment
is carried past a token, and none is given to two of them. All that is carried is a documentation comment indeed.
-/

open List JavaSource.Text

namespace JavaSource.Lexer

/-! ## The comments of a gap -/

def IsComment (comment : Text) : Prop := IsBlockComment comment ∨ IsLineComment comment

/-- A gap and its comments in order. -/
inductive HasComments : Text → List Text → Prop where
  | nil : HasComments [] []
  | blank {c : CodePoint} {gap : Text} {comments : List Text} : Text.isBlank c = true → HasComments gap comments →
    HasComments (c :: gap) comments
  | comment {comment gap : Text} {comments : List Text} : IsComment comment → HasComments gap comments →
    HasComments (comment ++ gap) (comment :: comments)

def lastJavadoc (comments : List Text) : Option Text := (comments.filter isJavadoc).getLast?

theorem lastJavadoc_cons (comment : Text) (comments : List Text) (pending : Option Text) :
    (lastJavadoc (comment :: comments)).or pending =
      (lastJavadoc comments).or (if isJavadoc comment then some comment else pending) := by
  rw [lastJavadoc, lastJavadoc, filter_cons]
  split
  · rw [getLast?_cons]
    cases (comments.filter isJavadoc).getLast? <;> rfl
  · rfl

/-- Where the first `*/` stands, a block comment ends. -/
theorem block_inj {body body' gap gap' : Text} (clean : ¬ ofString "*/" <:+: body)
    (clean' : ¬ ofString "*/" <:+: body')
    (same : body ++ ofString "*/" ++ gap = body' ++ ofString "*/" ++ gap') : body = body' ∧ gap = gap' := by
  -- one body cannot go on where the other one ends: the star is its last character, and then no star follows
  have ends {c : CodePoint} {body gap gap' : Text} (clean : ¬ ofString "*/" <:+: c :: body) :
      '*'.toNat :: '/'.toNat :: gap' ≠ c :: (body ++ ofString "*/" ++ gap) := by
    intro same
    injection same with star behind
    subst star
    cases body with
    | nil =>
      injection behind with slash _
      exact absurd slash (by decide)
    | cons d body =>
      injection behind with slash _
      subst slash
      exact clean ⟨[], body, rfl⟩
  induction body generalizing body' with
  | nil =>
    cases body' with
    | nil =>
      injection same with _ same
      injection same with _ same
      exact ⟨rfl, same⟩
    | cons c body' => exact absurd same (ends clean')
  | cons c body ih =>
    cases body' with
    | nil => exact absurd same.symm (ends clean)
    | cons d body' =>
      injection same with head same
      have shorter {c : CodePoint} {body : Text} (clean : ¬ ofString "*/" <:+: c :: body) :
          ¬ ofString "*/" <:+: body := fun inside => clean (inside.trans (suffix_cons c body).isInfix)
      obtain ⟨rfl, rfl⟩ := ih (shorter clean) (shorter clean') same
      exact ⟨by rw [head], rfl⟩

/-- Where the first newline stands, a line comment ends. -/
theorem line_inj {body body' gap gap' : Text} (clean : newline ∉ body) (clean' : newline ∉ body')
    (same : body ++ newline :: gap = body' ++ newline :: gap') : body = body' ∧ gap = gap' := by
  have upTo {body gap : Text} (clean : newline ∉ body) :
      (body ++ newline :: gap).takeWhile (· != newline) = body := by
    rw [takeWhile_append_of_pos, takeWhile_cons, if_neg (by simp), append_nil]
    intro c mem
    exact bne_iff_ne.2 fun newline => clean (newline ▸ mem)
  have bodies := congrArg (List.takeWhile (· != newline)) same
  rw [upTo clean, upTo clean'] at bodies
  subst bodies
  have behind := append_cancel_left same
  injection behind with _ behind
  exact ⟨rfl, behind⟩

/-- A comment in front of a text can be told from what follows it. -/
theorem IsComment.inj {comment comment' gap gap' : Text} (isComment : IsComment comment)
    (isComment' : IsComment comment') (same : comment ++ gap = comment' ++ gap') : comment = comment' ∧ gap = gap' := by
  rcases isComment with ⟨body, rfl, clean⟩ | ⟨body, rfl, clean⟩
  · rcases isComment' with ⟨body', rfl, clean'⟩ | ⟨body', rfl, -⟩
    · simp only [append_assoc] at same
      rw [append_right_inj, ← append_assoc, ← append_assoc] at same
      obtain ⟨rfl, rfl⟩ := block_inj clean clean' same
      exact ⟨rfl, rfl⟩
    · injection same with _ same
      injection same with second _
      exact absurd second (by decide)
  · rcases isComment' with ⟨body', rfl, -⟩ | ⟨body', rfl, clean'⟩
    · injection same with _ same
      injection same with second _
      exact absurd second (by decide)
    · simp only [append_assoc, singleton_append] at same
      obtain ⟨rfl, rfl⟩ := line_inj clean clean' (append_cancel_left same)
      exact ⟨rfl, rfl⟩

theorem IsComment.head {comment : Text} (isComment : IsComment comment) : ∃ rest, comment = '/'.toNat :: rest := by
  rcases isComment with ⟨body, rfl, -⟩ | ⟨body, rfl, -⟩
  · exact ⟨_, rfl⟩
  · exact ⟨_, rfl⟩

theorem IsComment.not_blank {comment gap gap' : Text} {c : CodePoint} (isComment : IsComment comment)
    (blank : isBlank c = true) : comment ++ gap ≠ c :: gap' := by
  obtain ⟨rest, rfl⟩ := isComment.head
  intro same
  injection same with head _
  rw [← head] at blank
  exact absurd blank (by decide)

/-- The comments of a gap are determined by it. -/
theorem HasComments.unique {gap : Text} {comments comments' : List Text} (has : HasComments gap comments)
    (has' : HasComments gap comments') : comments = comments' := by
  induction has generalizing comments' with
  | nil =>
    generalize empty : ([] : Text) = gap at has'
    cases has' with
    | nil => rfl
    | blank _ _ => cases empty
    | comment isComment _ =>
      obtain ⟨rest, rfl⟩ := isComment.head
      cases empty
  | @blank c gap comments blank _ ih =>
    generalize whole : c :: gap = text at has'
    cases has' with
    | nil => cases whole
    | blank _ later =>
      cases whole
      exact ih later
    | comment isComment _ => exact absurd whole.symm (isComment.not_blank blank)
  | @comment first gap comments isComment _ ih =>
    generalize whole : first ++ gap = text at has'
    cases has' with
    | nil =>
      obtain ⟨rest, rfl⟩ := isComment.head
      cases whole
    | blank blank _ => exact absurd whole (isComment.not_blank blank)
    | comment isComment' later =>
      obtain ⟨rfl, rfl⟩ := isComment.inj isComment' whole
      rw [ih later]

theorem HasComments.append {front back : Text} {first second : List Text} (isFront : HasComments front first)
    (isBack : HasComments back second) : HasComments (front ++ back) (first ++ second) := by
  induction isFront with
  | nil => exact isBack
  | blank blank _ ih => exact .blank blank ih
  | comment isComment _ ih =>
    rw [append_assoc]
    exact .comment isComment ih

theorem HasComments.blanks {blanks : Text} (all : ∀ c ∈ blanks, isBlank c = true) : HasComments blanks [] := by
  induction blanks with
  | nil => exact .nil
  | cons c rest ih =>
    obtain ⟨blank, all⟩ := forall_mem_cons.1 all
    exact .blank blank (ih all)

theorem HasComments.isComment {gap : Text} {comments : List Text} (has : HasComments gap comments) :
    ∀ comment ∈ comments, IsComment comment := by
  induction has with
  | nil => exact forall_mem_nil _
  | blank _ _ ih => exact ih
  | comment isComment _ ih => exact forall_mem_cons.2 ⟨isComment, ih⟩

/-! ## Documented tokens -/

/-- A text is a gap, a token, a gap, and so on, up to the last gap, where each token carries the last documentation
comment of the gap in front of it. Without such a comment the first token carries `pending`, and the others carry
nothing. The last list holds the comments of the gaps in front of tokens, in order. -/
inductive Documented : Option Text → Text → List Token → List Text → Prop where
  | last {pending : Option Text} {gap : Text} : IsLastGap gap → Documented pending gap [] []
  | token {pending : Option Text} {gap rest : Text} {t : Token} {tokens : List Token} {comments later : List Text} :
    HasComments gap comments → t.javadoc = (lastJavadoc comments).or pending → t.value ≠ [] →
    Documented none rest tokens later → Documented pending (gap ++ (t.value ++ rest)) (t :: tokens) (comments ++ later)

theorem HasComments.isGap {gap : Text} {comments : List Text} (has : HasComments gap comments) : IsGap gap := by
  induction has with
  | nil => exact .nil
  | blank blank _ ih => exact .blank blank ih
  | comment isComment _ ih => exact isComment.elim (.block · ih) (.line · ih)

namespace Documented

variable {pending : Option Text} {text : Text} {tokens : List Token} {comments : List Text}

/-- Blanks in front of the text change nothing. -/
theorem blanks {blanks : Text} (all : ∀ c ∈ blanks, isBlank c = true)
    (documented : Documented pending text tokens comments) : Documented pending (blanks ++ text) tokens comments := by
  cases documented with
  | last isLast => exact .last (isLast.after (.blanks all))
  | token has carried value later =>
    rw [← append_assoc]
    exact .token ((HasComments.blanks all).append has) carried value later

/-- A comment in front of the text is pending for the first token if it is a documentation comment. -/
theorem comment {comment : Text} (isComment : IsComment comment)
    (documented : Documented (if isJavadoc comment then some comment else pending) text tokens comments) :
    ∃ comments, Documented pending (comment ++ text) tokens comments := by
  have has : HasComments (comment ++ []) [comment] := .comment isComment .nil
  rw [append_nil] at has
  cases documented with
  | last isLast => exact ⟨_, .last (isLast.after has.isGap)⟩
  | token has' carried value later =>
    rw [← append_assoc]
    refine ⟨_, .token (has.append has') ?_ value later⟩
    rw [carried, singleton_append, lastJavadoc_cons]

/-- The documentation comments that tokens carry are comments of the text, in the same order, and each of them is
carried at most once. -/
theorem sublist (documented : Documented pending text tokens comments) :
    (tokens.filterMap Token.javadoc).Sublist (pending.toList ++ comments.filter isJavadoc) := by
  induction documented with
  | last _ => exact nil_sublist _
  | @token pending gap rest t tokens comments later _ carried _ _ ih =>
    have one : t.javadoc.toList.Sublist (pending.toList ++ comments.filter isJavadoc) := by
      rw [carried, lastJavadoc]
      cases found : (comments.filter isJavadoc).getLast? with
      | none => exact sublist_append_left _ _
      | some doc =>
        refine List.Sublist.trans ?_ (sublist_append_right _ _)
        exact singleton_sublist.2 (mem_of_getLast? found)
    have whole := one.append ih
    rw [Option.toList_none, nil_append, append_assoc, ← filter_append] at whole
    rw [filterMap_cons]
    cases doc_eq : t.javadoc with
    | none =>
      rw [doc_eq] at whole
      exact whole
    | some doc =>
      rw [doc_eq] at whole
      exact whole

theorem isComment (documented : Documented pending text tokens comments) : ∀ comment ∈ comments, IsComment comment :=
    by
  induction documented with
  | last _ => exact forall_mem_nil _
  | token has _ _ _ ih => exact forall_mem_append.2 ⟨has.isComment, ih⟩

end Documented

/-- A chain of steps carries the last documentation comment on to the next token, by induction on the chain. -/
theorem Scans.documented {p : Place} {tokens : List Token} (scans : Scans p tokens) :
    ∃ comments, Documented p.pending p.rest tokens comments := by
  induction scans with
  | done ended =>
    rw [ended]
    exact ⟨_, .last (.inl .nil)⟩
  | @blanks p c rest tokens starts blank _ ih =>
    obtain ⟨comments, documented⟩ := ih
    have run_eq : p.rest = (c :: rest.takeWhile isBlank) ++
        p.rest.drop ((rest.takeWhile isBlank).length + 1) := by
      rw [starts, drop_succ_cons, drop_takeWhile, cons_append, takeWhile_append_dropWhile]
    refine ⟨comments, ?_⟩
    rw [run_eq]
    refine .blanks ?_ documented
    exact forall_mem_cons.2 ⟨blank, fun d mem => mem_takeWhile_imp mem⟩
  | @comment p c rest n tokens starts _ commented later ih =>
    obtain ⟨comments, documented⟩ := ih
    rw [← starts] at commented
    rcases comment?_closed commented with ⟨comment, rest', text_eq, length_eq, complete⟩ |
      ⟨body, text_eq, length_eq, noNewline⟩
    · have pending_eq : (p.skipComment (n + 1)).pending = if isJavadoc comment then some comment else p.pending := by
        rw [Place.skipComment, text_eq, ← length_eq, take_left]
      rw [pending_eq, Place.rest_skipComment, text_eq, ← length_eq, drop_left] at documented
      rw [text_eq]
      exact documented.comment complete
    · have ended : (p.skipComment (n + 1)).rest = [] := by
        rw [Place.rest_skipComment, ← length_eq, drop_length]
      have no_tokens := later.tokens_eq_nil ended
      subst no_tokens
      exact ⟨_, .last (.inr ⟨[], body, text_eq, .nil, noNewline⟩)⟩
  | @lexeme p c rest lexeme tokens starts _ _ _ _ ih =>
    obtain ⟨comments, documented⟩ := ih
    have value_ne : (p.token lexeme).value ≠ [] := by simp [Place.token, starts]
    have split : p.rest = [] ++ ((p.token lexeme).value ++ p.rest.drop (lexeme.further + 1)) :=
      (take_append_drop _ _).symm
    rw [split]
    exact ⟨_, .token .nil rfl value_ne documented⟩

/-! ## Documentation comments can be read -/

/-- A comment that starts like a documentation comment goes to the mark of its end. -/
theorem IsComment.marks {comment : Text} (isComment : IsComment comment) (javadoc : isJavadoc comment = true) :
    ofString "/**" <+: comment ∧ ofString "*/" <:+ comment := by
  have starts : ofString "/**" <+: comment := isPrefixOf_iff_prefix.1 javadoc
  rcases isComment with ⟨body, rfl, -⟩ | ⟨body, rfl, -⟩
  · exact ⟨starts, suffix_append _ _⟩
  · obtain ⟨rest, split⟩ := starts
    injection split with _ split
    injection split with second _
    exact absurd second (by decide)

/-- A text between the marks of a documentation comment has no blanks around it, so it is read. -/
theorem isSome_parse? {comment : Text} (starts : ofString "/**" <+: comment)
    (ends : ofString "*/" <:+ comment) : (Javadoc.parse? comment).isSome = true := by
  rw [Javadoc.parse?, Option.isSome_map, Javadoc.sanitize?_of_marks starts ends, Option.isSome_some]

end JavaSource.Lexer

namespace JavaSource

open Lexer

/-- **Documentation.** In a source that is read without failure, each token carries the last documentation comment
between the token before it, or the start of the decoded text, and itself, exactly as it stands there, and nothing if
there is none. The comments of a gap are determined by the gap. No comment is carried by two tokens, and every comment
that is carried has the marks of a documentation comment at its ends and can be read as one. -/
theorem tokenize_javadoc (source : Source) (ok : (tokenize .strict source).failure = none) :
    ∃ text comments, (unescape source.decoded).outcome = .ok text ∧
      Documented none text (tokenize .strict source).tokens comments ∧
      ((tokenize .strict source).tokens.filterMap Token.javadoc).Sublist (comments.filter isJavadoc) ∧
      (∀ t ∈ (tokenize .strict source).tokens, ∀ doc ∈ t.javadoc,
        Text.ofString "/**" <+: doc ∧ Text.ofString "*/" <:+ doc ∧ (Javadoc.parse? doc).isSome = true) ∧
      ∀ gap inside inside', HasComments gap inside → HasComments gap inside' → inside = inside' := by
  obtain ⟨text, unescaped, read⟩ := tokenize_strict_ok ok
  rw [read] at ok ⊢
  obtain ⟨comments, documented⟩ := (scans_of_ok _ ok).documented
  have attached := documented.sublist
  refine ⟨text, comments, unescaped, documented, attached, ?_, fun _ _ _ => HasComments.unique⟩
  intro t mem doc carried
  have listed : doc ∈ comments.filter isJavadoc := attached.subset (mem_filterMap.2 ⟨t, mem, carried⟩)
  obtain ⟨among, javadoc⟩ := mem_filter.1 listed
  obtain ⟨starts, ends⟩ := (documented.isComment doc among).marks javadoc
  exact ⟨starts, ends, isSome_parse? starts ends⟩

theorem tokenize_javadoc_comments :
    (tokenize .strict (.text "/** a */ // b\n /** c */ /* d */ x /**/ y")).failure = none ∧
      ∃ text comments, (unescape "/** a */ // b\n /** c */ /* d */ x /**/ y").outcome = .ok text ∧
        Documented none text (tokenize .strict (.text "/** a */ // b\n /** c */ /* d */ x /**/ y")).tokens comments := by
  have ok : (tokenize .strict (.text "/** a */ // b\n /** c */ /* d */ x /**/ y")).failure = none := by
    decide +kernel
  obtain ⟨text, comments, unescaped, documented, -⟩ :=
    tokenize_javadoc (.text "/** a */ // b\n /** c */ /* d */ x /**/ y") ok
  exact ⟨ok, text, comments, unescaped, documented⟩

/-- The last of two documentation comments is carried, and a comment behind it changes nothing. -/
example : (tokenize .strict (.text "/** a */ // b\n /** c */ /* d */ x /**/ y")).tokens.map Token.javadoc =
    [some (ofString "/** c */"), some (ofString "/**/")] := by
  decide +kernel

end JavaSource
