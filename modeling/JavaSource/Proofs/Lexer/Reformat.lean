import JavaSource.Proofs.Lexer.Neighbours
import JavaSource.Token.Layout
import Mathlib.Data.List.Chain

/-!
# Tokens that are laid out are read again

Laying tokens out writes their values with blanks between some of them. `Renders` says that a text does that and leaves
out no blank that is needed, and `renders_write` that the layout does, from every state and also where braces do not
match. A closing brace that waits in the state counts as a token before the others. Such a text is read as the tokens
it renders, and the decoding of escapes changes nothing in it: `tokenize_reformat`.
-/

namespace JavaSource

open List Text

variable {c : CodePoint} {text : Text}

namespace Lexer

/-! ## Escapes in the values of tokens -/

/-- Copied characters stay so without what stands before one of them that is no backslash. -/
theorem Copied.of_append {front rest : Text} (copied : Copied (front ++ c :: rest)) (noSlash : c ≠ '\\'.toNat) :
    Copied (c :: rest) := by
  generalize same : front ++ c :: rest = text at copied
  induction copied generalizing front with
  | nil => simp at same
  | char ne later ih =>
    cases front with
    | nil =>
      obtain ⟨rfl, rfl⟩ := List.cons.inj same
      exact .char ne later
    | cons d front => exact ih (List.cons.inj same).2
  | pair ne later ih =>
    rcases front with _ | ⟨d, _ | ⟨e, front⟩⟩
    · exact absurd (List.cons.inj same).1 noSlash
    · obtain ⟨rfl, rfl⟩ := List.cons.inj (List.cons.inj same).2
      exact .char noSlash later
    · exact ih (List.cons.inj (List.cons.inj same).2).2

/-- The characters of a token are copied alone as they are where the token stands. -/
theorem Attested.copied {cls : TokenClass} {value front : Text} (attested : Attested (cls, value))
    (copied : Copied (front ++ value)) : Copied value := by
  obtain ⟨-, -, read, -, -⟩ := attested
  rename_i c word back
  cases quote : c == '\''.toNat || c == '"'.toNat with
  | false => exact copied_of_notMem (notMem_of_lexeme? quote read)
  | true =>
    refine copied.of_append ?_
    rintro rfl
    cases quote

theorem Reads.copied {pending : Option Text} {contents : List (TokenClass × Text × Option Text)}
    (reads : Reads pending text contents) (closed : NoOpenNumber contents) (decodes : Decodes text text) :
    ∀ content ∈ contents, Copied content.2.1 := by
  rintro ⟨cls, value, javadoc⟩ mem
  obtain ⟨k, found⟩ := getElem?_of_mem mem
  obtain ⟨front, back, rfl, cut⟩ := reads.exists_cutsBehind found
  exact (reads.attested closed _ mem).copied (cut.copied reads decodes)

/-! ## Texts that spell tokens -/

/-- `Renders tokens text`: the text is made of blanks and of the values of the tokens, each before a character that
leaves it alone. -/
inductive Renders : List (TokenClass × Text) → Text → Prop where
  | done : Renders [] []
  | blank {tokens : List (TokenClass × Text)} {b : CodePoint} {text : Text} : Text.isBlank b = true →
    Renders tokens text → Renders tokens (b :: text)
  | token {t : TokenClass × Text} {tokens : List (TokenClass × Text)} {b : CodePoint} {text : Text} :
    text.head? = some b → KeptBefore b t → Renders tokens text → Renders (t :: tokens) (t.2 ++ text)

namespace Renders

variable {tokens : List (TokenClass × Text)} {text : Text}

theorem blanks {blanks : Text} (all : ∀ c ∈ blanks, isBlank c = true) (renders : Renders tokens text) :
    Renders tokens (blanks ++ text) := by
  induction blanks with
  | nil => exact renders
  | cons b blanks ih => exact .blank (all b mem_cons_self) (ih fun c mem => all c (mem_cons_of_mem b mem))

/-- What a text renders is read in it. -/
theorem reads (renders : Renders tokens text) : Reads none text (tokens.map fun t => (t.1, t.2, none)) := by
  induction renders with
  | done => exact .done
  | blank isBlank _ ih => exact .blank isBlank ih
  | token starts kept _ ih =>
    obtain ⟨more, rfl⟩ := head?_eq_some_iff.1 starts
    exact kept _ _ ih

/-- A text is copied as the values in it are. -/
theorem copied (renders : Renders tokens text) (values : ∀ t ∈ tokens, Copied t.2) : Copied text := by
  induction renders with
  | done => exact .nil
  | @blank tokens b text isBlank _ ih =>
    refine .char ?_ (ih values)
    rintro rfl
    exact absurd isBlank (by decide)
  | token _ _ _ ih => exact (values _ mem_cons_self).append (ih fun t mem => values t (mem_cons_of_mem _ mem))

end Renders

end Lexer

/-! ## What the layout writes -/

namespace Layout

open Lexer

def closingBrace : TokenClass × Text := (.separator, "\x7d")

def State.waiting (s : State) : List (TokenClass × Text) := if s.closing then [closingBrace] else []

theorem blank_margin (s : State) : ∀ c ∈ s.margin, isBlank c = true := by
  intro c mem
  rw [eq_of_mem_replicate mem]
  decide

theorem blank_newline_margin (s : State) : ∀ c ∈ newline :: s.margin, isBlank c = true :=
  forall_mem_cons.2 ⟨by decide, blank_margin s⟩

theorem keptBefore_closingBrace (b : CodePoint) : KeptBefore b closingBrace :=
  keptBefore_separator (by decide) fun isPoint => absurd isPoint (by decide)

theorem write_cons (s : State) (t : Token) (rest : List Token) :
    write s (t :: rest) = (writeClosing s t).2 ++ (writeToken (writeClosing s t).1 t).2 ++
      write { (writeToken (writeClosing s t).1 t).1 with afterWord := t.cls.isWord } rest := rfl

variable {s : State} {t : Token} {tokens : List Token}

/-- Where no brace waits, a token is written at once. -/
theorem write_cons_open (opened : s.closing = false) (t : Token) (rest : List Token) :
    write s (t :: rest) = (writeToken s t).2 ++ write { (writeToken s t).1 with afterWord := t.cls.isWord } rest := by
  rw [write_cons, writeClosing, if_neg (by simp [opened])]
  rfl

/-- A brace that waits is written on a line of its own, and the rest as if it had not waited. -/
theorem write_cons_closing (closing : s.closing = true) (t : Token) (rest : List Token) :
    ∃ s' : State, ∃ gap, s'.closing = false ∧ (∀ c ∈ gap, isBlank c = true) ∧
      write s (t :: rest) = newline :: s'.margin ++ (closingBrace.2 ++ (gap ++ write s' (t :: rest))) := by
  obtain ⟨s', eq_s'⟩ : ∃ s' : State, s' = { s with closing := false, indent := s.indent - 4 } := ⟨_, rfl⟩
  have opened : s'.closing = false := by rw [eq_s']
  obtain ⟨gap, blank, written⟩ : ∃ gap, (∀ c ∈ gap, isBlank c = true) ∧
      writeClosing s t = (s', newline :: s'.margin ++ (closingBrace.2 ++ gap)) := by
    rw [writeClosing, if_pos closing, ← eq_s']
    split
    · exact ⟨_, blank_newline_margin s', by simp [closingBrace, ofString, newline]⟩
    · exact ⟨[], by simp, by simp [closingBrace, ofString, newline]⟩
  refine ⟨s', gap, opened, blank, ?_⟩
  rw [write_cons, written, write_cons_open opened]
  simp only [append_assoc]

/-- Of the tokens with the value of a separator other than the point, only separators are read. -/
theorem cls_of_separator (attested : Attested t.spelling)
    (separator : c ∈ Vocabulary.separators) (noPoint : c ≠ '.'.toNat) (value : t.value = [c]) :
    t.cls = .separator := by
  generalize spelling_eq : t.spelling = spelling at attested
  obtain ⟨-, -, read, -, -⟩ := attested
  rename_i d word back cls
  obtain ⟨rfl, same⟩ := Prod.mk.inj spelling_eq
  obtain ⟨rfl, rfl⟩ := List.cons.inj (value.symm.trans same)
  rw [lexeme?_of_separator separator noPoint] at read
  exact (congrArg Lexeme.cls (Except.ok.inj (congrArg Reading.outcome (Option.some.inj read)))).symm

/-- What is written for a token is its value between blanks. An operator has some on both sides, and a word that comes
after another has some in front. -/
structure Framed (s : State) (t : Token) (written : State × Text) (front behind : Text) : Prop where
  text : written.2 = front ++ t.value ++ behind
  closing : written.1.closing = s.closing
  blankFront : ∀ c ∈ front, Text.isBlank c = true
  blankBehind : ∀ c ∈ behind, Text.isBlank c = true
  starts : front = [] → t.cls ≠ .operator ∧ (s.afterWord = true → t.cls.isWord = false)
  ends : behind = [] → t.cls ≠ .operator

theorem exists_framed (s : State) (attested : Attested t.spelling) (other : t.value ≠ closingBrace.2) :
    ∃ front behind, Framed s t (writeToken s t) front behind := by
  unfold writeToken
  split
  · rename_i opening
    exact ⟨[' '.toNat], newline :: State.margin { s with indent := s.indent + 4 }, by rw [eq_of_beq opening]; rfl,
      rfl, by decide, blank_newline_margin _, by simp, by simp⟩
  split
  · rename_i isBrace
    exact absurd (eq_of_beq isBrace) other
  split
  · rename_i comma
    -- a comma is written without a look at its class
    have separator := cls_of_separator attested (by decide) (by decide) (eq_of_beq comma)
    exact ⟨[], [' '.toNat], by rw [eq_of_beq comma]; rfl, rfl, by simp, by decide,
      fun _ => separator ▸ ⟨by decide, fun _ => rfl⟩, by simp⟩
  split
  · rename_i isWord
    have noOperator : t.cls ≠ .operator := fun same => by
      rw [same] at isWord
      cases isWord
    cases after : s.afterWord with
    | true => exact ⟨[' '.toNat], [], by simp [ofString], rfl, by decide, by simp, by simp, fun _ => noOperator⟩
    | false =>
      have starts : t.cls ≠ .operator ∧ (s.afterWord = true → t.cls.isWord = false) :=
        ⟨noOperator, fun same => absurd (after.symm.trans same) (by decide)⟩
      exact ⟨[], [], by simp, rfl, by simp, by simp, fun _ => starts, fun _ => noOperator⟩
  rename_i noWord
  split
  · exact ⟨[' '.toNat], [' '.toNat], by simp [ofString], rfl, by decide, by decide, by simp, by simp⟩
  rename_i notOperator
  have noOperator : t.cls ≠ .operator := fun same => notOperator (by rw [same]; rfl)
  have starts : t.cls ≠ .operator ∧ (s.afterWord = true → t.cls.isWord = false) :=
    ⟨noOperator, fun _ => Bool.eq_false_iff.2 noWord⟩
  split
  · rename_i semicolon
    exact ⟨[], newline :: s.margin, by rw [eq_of_beq semicolon]; rfl, rfl, by simp, blank_newline_margin s,
      fun _ => starts, by simp⟩
  · exact ⟨[], [], by simp, rfl, by simp, by simp, fun _ => starts, fun _ => noOperator⟩

/-- A brace that waits starts a new line. -/
theorem write_starts_closing (closing : s.closing = true) (tokens : List Token) :
    (write s tokens).head? = some newline := by
  cases tokens with
  | nil =>
    rw [write, if_pos closing]
    rfl
  | cons t rest =>
    obtain ⟨s', gap, -, -, written⟩ := write_cons_closing closing t rest
    rw [written]
    rfl

theorem write_closingBrace (opened : s.closing = false) (isBrace : t.value = closingBrace.2) (rest : List Token) :
    write s (t :: rest) = write { s with closing := true, afterWord := t.cls.isWord } rest := by
  have written : writeToken s t = ({ s with closing := true }, []) := by
    rw [writeToken, isBrace]
    rfl
  rw [write_cons_open opened, written]
  rfl

/-- What is written starts with a blank, or with a token that does not need one before it. -/
theorem write_starts (s : State) (attested : ∀ t ∈ tokens, Attested t.spelling) :
    ∃ b, (write s tokens).head? = some b ∧ (isBlank b = true ∨ ∃ u rest, tokens = u :: rest ∧
      u.value.head? = some b ∧ u.cls ≠ .operator ∧ (s.afterWord = true → u.cls.isWord = false)) := by
  have newline : isBlank newline = true := by decide
  cases closing : s.closing with
  | true => exact ⟨_, write_starts_closing closing tokens, .inl newline⟩
  | false =>
    cases tokens with
    | nil =>
      refine ⟨Text.newline, ?_, .inl newline⟩
      rw [write, if_neg (by simp [closing])]
      rfl
    | cons t rest =>
      by_cases isBrace : t.value = closingBrace.2
      · rw [write_closingBrace closing isBrace]
        exact ⟨_, write_starts_closing rfl rest, .inl newline⟩
      · have isAttested := attested t mem_cons_self
        obtain ⟨front, behind, framed⟩ := exists_framed s isAttested isBrace
        rw [write_cons_open closing, framed.text]
        cases front with
        | cons b front =>
          exact ⟨b, rfl, .inl (framed.blankFront b mem_cons_self)⟩
        | nil =>
          obtain ⟨b, word, value⟩ := isAttested.exists_cons
          replace value : t.value = b :: word := value
          refine ⟨b, ?_, .inr ⟨t, rest, rfl, ?_, framed.starts rfl⟩⟩
          · rw [value]
            rfl
          · rw [value]
            rfl

section

variable {t : Token} {rest : List Token} (attested : ∀ u ∈ t :: rest, Attested u.spelling)
  (apart : ((t :: rest).map Token.spelling).IsChain PointsApart)
  (later : ∀ s : State, Renders (s.waiting ++ rest.map Token.spelling) (write s rest))

include attested apart later

/-- A token is rendered where no brace waits, if what comes later is, whatever state it is written from. -/
theorem renders_cons_open (opened : s.closing = false) :
    Renders ((t :: rest).map Token.spelling) (write s (t :: rest)) := by
  obtain ⟨isAttested, restAttested⟩ := forall_mem_cons.1 attested
  by_cases isBrace : t.value = closingBrace.2
  · have spelling : t.spelling = closingBrace :=
      Prod.ext (cls_of_separator isAttested (by decide) (by decide) isBrace) isBrace
    rw [write_closingBrace opened isBrace, map_cons, spelling]
    exact later { s with closing := true, afterWord := t.cls.isWord }
  obtain ⟨front, behind, framed⟩ := exists_framed s isAttested isBrace
  rw [write_cons_open opened, framed.text, append_assoc, append_assoc]
  generalize next_eq : { (writeToken s t).1 with afterWord := t.cls.isWord } = next
  have nothing : next.waiting = [] := by
    rw [← next_eq, State.waiting, if_neg (by simp [framed.closing, opened])]
  have renders := (later next).blanks framed.blankBehind
  rw [nothing, nil_append] at renders
  refine .blanks framed.blankFront ?_
  cases behind with
  | cons b behind =>
    exact .token rfl (isAttested.keptBefore_of_blank (framed.blankBehind b mem_cons_self)) renders
  | nil =>
    obtain ⟨b, starts, isBlank | ⟨u, more, rfl, value, noOperator, words⟩⟩ := write_starts next restAttested
    · exact .token starts (isAttested.keptBefore_of_blank isBlank) renders
    · have afterWord : next.afterWord = t.cls.isWord := by rw [← next_eq]
      have kept : KeptBefore b t.spelling := isAttested.keptBefore_next (restAttested u mem_cons_self)
        (apart.rel_head? rfl) ⟨framed.ends rfl, noOperator⟩ (fun isWord => words (afterWord.trans isWord)) value
      exact .token starts kept renders

/-- A brace that waits is rendered before the next token. -/
theorem renders_cons (s : State) : Renders (s.waiting ++ (t :: rest).map Token.spelling) (write s (t :: rest)) := by
  cases closing : s.closing with
  | false =>
    rw [State.waiting, if_neg (by simp [closing])]
    exact renders_cons_open attested apart later closing
  | true =>
    obtain ⟨s', gap, opened, blank, written⟩ := write_cons_closing closing t rest
    obtain ⟨b, starts⟩ : ∃ b, (gap ++ write s' (t :: rest)).head? = some b := by
      cases gap with
      | cons b gap => exact ⟨b, rfl⟩
      | nil =>
        obtain ⟨b, starts, -⟩ := write_starts s' attested
        exact ⟨b, starts⟩
    rw [State.waiting, if_pos closing, written]
    refine .blanks (blank_newline_margin s') (.token starts (keptBefore_closingBrace b) ?_)
    exact .blanks blank (renders_cons_open attested apart later opened)

end

/-- **The layout renders its tokens**, the brace that waits before the others. The induction is on the tokens, for all
states at once, since every token may change the state. -/
theorem renders_write (attested : ∀ t ∈ tokens, Attested t.spelling)
    (apart : (tokens.map Token.spelling).IsChain PointsApart) (s : State) :
    Renders (s.waiting ++ tokens.map Token.spelling) (write s tokens) := by
  induction tokens generalizing s with
  | nil =>
    have newline : Renders [] [newline] := .blank (by decide) .done
    cases closing : s.closing with
    | false =>
      rw [write, State.waiting, if_neg (by simp [closing]), if_neg (by simp [closing])]
      exact newline
    | true =>
      rw [write, State.waiting, if_pos closing, if_pos closing]
      exact .blank (by decide) (.token rfl (keptBefore_closingBrace _) newline)
  | cons t rest ih =>
    exact renders_cons attested apart (ih (fun u mem => attested u (mem_cons_of_mem t mem)) apart.tail) s

/-- The layout asks for the classes and the values of the tokens only. -/
theorem write_congr {others : List Token} (same : tokens.map Token.spelling = others.map Token.spelling)
    (s : State) : write s tokens = write s others := by
  induction tokens generalizing others s with
  | nil =>
    rw [map_eq_nil_iff.1 same.symm]
  | cons t tokens ih =>
    obtain ⟨u, others, rfl, spelling, later⟩ := map_eq_cons_iff.1 same.symm
    obtain ⟨cls, value⟩ := Prod.mk.inj spelling
    have closing : writeClosing s u = writeClosing s t := by rw [writeClosing, writeClosing, cls]
    have body (s : State) : writeToken s u = writeToken s t := by rw [writeToken, writeToken, cls, value]
    rw [write_cons, write_cons, closing, body, cls, ih later.symm]

end Layout

/-- A text that renders tokens is read as tokens of their classes and values. -/
theorem tokenize_of_renders {tokens : List (TokenClass × Text)} (renders : Lexer.Renders tokens text)
    (copied : ∀ t ∈ tokens, Lexer.Copied t.2) :
    ∃ read, tokenize .strict (.text text) = { tokens := read } ∧ read.map Token.spelling = tokens := by
  obtain ⟨read, scans, contents⟩ := renders.reads.exists_scans (Lexer.Place.start text) rfl rfl
  refine ⟨read, ?_, ?_⟩
  · rw [(Lexer.Decodes.last (renders.copied copied)).tokenize_eq]
    exact scans.tokensFrom_eq
  · have spellings := congrArg (List.map fun content => (content.1, content.2.1)) contents
    rw [map_map, map_map] at spellings
    exact spellings.trans (map_id tokens)

/-- **Reformatting.** In a text that is read without failure, that the decoding of escapes leaves as it is, where no
point stands beside a number or another point and no number ends with an underscore, the tokens are laid out as a text
that is read without failure as tokens of the same classes and values. So laying these out gives the same text again. -/
theorem tokenize_reformat (text : Text) (ok : (tokenize .strict (.text text)).failure = none)
    (unchanged : (Lexer.unescape text).outcome = .ok text)
    (apart : ((tokenize .strict (.text text)).tokens.map Token.spelling).IsChain Lexer.PointsApart)
    (closed : ∀ t ∈ (tokenize .strict (.text text)).tokens, t.cls ∈ Lexer.Number.classes →
      t.value.getLast? ≠ some '_'.toNat) :
    (tokenize .strict (.text (reformat (tokenize .strict (.text text)).tokens))).failure = none ∧
      (tokenize .strict (.text (reformat (tokenize .strict (.text text)).tokens))).tokens.map Token.spelling =
        (tokenize .strict (.text text)).tokens.map Token.spelling ∧
      reformat (tokenize .strict (.text (reformat (tokenize .strict (.text text)).tokens))).tokens =
        reformat (tokenize .strict (.text text)).tokens := by
  have decodes := decodes_of_strict ok unchanged
  have reads := reads_of_strict ok decodes
  generalize (tokenize .strict (.text text)).tokens = tokens at apart closed reads ⊢
  have noOpen : Lexer.NoOpenNumber (tokens.map Token.content) := by
    intro content mem isNumber
    obtain ⟨t, among, rfl⟩ := mem_map.1 mem
    exact closed t among isNumber
  have attested : ∀ t ∈ tokens, Lexer.Attested t.spelling :=
    fun t mem => reads.attested noOpen _ (mem_map_of_mem mem)
  have copied : ∀ spelling ∈ tokens.map Token.spelling, Lexer.Copied spelling.2 := by
    intro spelling mem
    obtain ⟨t, among, rfl⟩ := mem_map.1 mem
    exact reads.copied noOpen decodes _ (mem_map_of_mem among)
  obtain ⟨read, lexed, same⟩ := tokenize_of_renders (Layout.renders_write attested apart {}) copied
  have lexed : tokenize .strict (.text (reformat tokens)) = { tokens := read } := lexed
  rw [lexed]
  exact ⟨rfl, same, Layout.write_congr same {}⟩

def strayBrace : Text := "A\x7b/** d */x=a[.5],b;\x7d\x7d(\"\\\\u0041\").c..."

def strayBraceLaidOut : Text := "A \x7b\n    x = a[.5], b;\n    \n\x7d\n\x7d(\"\\\\u0041\").c ... \n"

theorem tokenize_reformat_strayBrace : (tokenize .strict (.text strayBrace)).failure = none ∧
      reformat (tokenize .strict (.text strayBrace)).tokens = strayBraceLaidOut ∧
      (tokenize .strict (.text strayBraceLaidOut)).failure = none ∧
      (tokenize .strict (.text strayBraceLaidOut)).tokens.map Token.spelling =
        (tokenize .strict (.text strayBrace)).tokens.map Token.spelling ∧
      reformat (tokenize .strict (.text strayBraceLaidOut)).tokens = strayBraceLaidOut := by
  obtain ⟨ok, written, unchanged, apart, closed⟩ : (tokenize .strict (.text strayBrace)).failure = none ∧
      reformat (tokenize .strict (.text strayBrace)).tokens = strayBraceLaidOut ∧
      (Lexer.unescape strayBrace).outcome = .ok strayBrace ∧
      ((tokenize .strict (.text strayBrace)).tokens.map Token.spelling).IsChain Lexer.PointsApart ∧
      ∀ t ∈ (tokenize .strict (.text strayBrace)).tokens, t.cls ∈ Lexer.Number.classes →
        t.value.getLast? ≠ some '_'.toNat := by decide +kernel
  have again := tokenize_reformat strayBrace ok unchanged apart closed
  rw [written] at again
  exact ⟨ok, written, again⟩

end JavaSource
