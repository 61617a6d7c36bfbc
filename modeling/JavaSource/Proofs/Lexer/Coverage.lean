import JavaSource.Proofs.Lexer.Scan
import Mathlib.Data.List.TakeWhile

/-!
# Nothing of a text is lost

A text that is read without complaint consists of the values of its tokens, in order, and of gaps between
them. A gap holds nothing but blanks and complete comments. `tokenize_covers` says so for every source text:
no character is lost, none is read twice, and none belongs to two tokens.
-/

namespace JavaSource

open List Text

/-! ## Searching a text -/

variable {n : Nat}

namespace Text

variable {part text : Text}

theorem find?_some (found : find? part text = some n) :
    ∃ before after, text = before ++ part ++ after ∧ before.length = n ∧
      ∀ k < n, ¬ part <+: text.drop k := by
  induction text generalizing n with
  | nil =>
    simp only [find?] at found
    split at found
    · rename_i empty
      cases found
      exact ⟨[], [], by simpa using empty, rfl, fun k lt => absurd lt (Nat.not_lt_zero k)⟩
    · cases found
  | cons c rest ih =>
    simp only [find?] at found
    split at found
    · rename_i starts
      cases found
      obtain ⟨after, text_eq⟩ := isPrefixOf_iff_prefix.1 starts
      exact ⟨[], after, by simpa using text_eq.symm, rfl, fun k lt => absurd lt (Nat.not_lt_zero k)⟩
    · rename_i starts
      obtain ⟨m, later, rfl⟩ := Option.map_eq_some_iff.1 found
      obtain ⟨before, after, rest_eq, length_eq, first⟩ := ih later
      refine ⟨c :: before, after, by simp [rest_eq], by simp [length_eq], ?_⟩
      intro k lt
      cases k with
      | zero => exact fun starts' => starts (List.isPrefixOf_iff_prefix.2 starts')
      | succ k => exact first k (by omega)

theorem find?_none (nonempty : part ≠ []) (missing : find? part text = none) : ¬ part <:+: text := by
  induction text with
  | nil =>
    intro inside
    exact nonempty (infix_nil.1 inside)
  | cons c rest ih =>
    simp only [find?] at missing
    split at missing
    · cases missing
    · rename_i starts
      intro inside
      rcases infix_cons_iff.1 inside with starts' | inside
      · exact starts (List.isPrefixOf_iff_prefix.2 starts')
      · exact ih (by simpa using missing) inside

/-- What stands before the first place of `part` does not hold `part`. -/
theorem find?_before {before after : Text} (split : text = before ++ part ++ after)
    (first : ∀ k < before.length, ¬ part <+: text.drop k) (nonempty : part ≠ []) : ¬ part <:+: before := by
  rintro ⟨front, back, before_eq⟩
  have front_lt : front.length < before.length := by
    have positive : 0 < part.length := length_pos_iff.2 nonempty
    rw [← before_eq]
    simp only [length_append]
    omega
  refine first front.length front_lt ⟨back ++ part ++ after, ?_⟩
  rw [split, ← before_eq]
  simp [append_assoc]

theorem singleton_infix_of_mem {c : CodePoint} (mem : c ∈ text) : [c] <:+: text := by
  obtain ⟨front, back, text_eq⟩ := append_of_mem mem
  exact ⟨front, back, by simp [text_eq]⟩

end Text

namespace Lexer

/-! ## Gaps -/

/-- A comment between `/*` and the first `*/` after it. -/
def IsBlockComment (comment : Text) : Prop :=
  ∃ body, comment = ofString "/*" ++ body ++ ofString "*/" ∧ ¬ ofString "*/" <:+: body

/-- A comment from `//` to the end of its line, newline included. -/
def IsLineComment (comment : Text) : Prop :=
  ∃ body, comment = ofString "//" ++ body ++ [Text.newline] ∧ Text.newline ∉ body

/-- What may stand between two tokens: blanks and complete comments. -/
inductive IsGap : Text → Prop where
  | nil : IsGap []
  | blank {c : CodePoint} {gap : Text} : Text.isBlank c = true → IsGap gap → IsGap (c :: gap)
  | block {comment gap : Text} : IsBlockComment comment → IsGap gap → IsGap (comment ++ gap)
  | line {comment gap : Text} : IsLineComment comment → IsGap gap → IsGap (comment ++ gap)

/-- What may stand after the last token: a gap, and then a comment that the end of the text ends. -/
def IsLastGap (gap : Text) : Prop :=
  IsGap gap ∨ ∃ front body, gap = front ++ ofString "//" ++ body ∧ IsGap front ∧ Text.newline ∉ body

/-- The text is a gap, a token, a gap, and so on, up to the last gap. -/
def Covers (text : Text) (tokens : List Token) : Prop :=
  ∃ (gaps : List Text) (last : Text), gaps.length = tokens.length ∧
    text = (List.zipWith (fun gap t => gap ++ t.value) gaps tokens).flatten ++ last ∧
    (∀ t ∈ tokens, t.value ≠ []) ∧ (∀ gap ∈ gaps, IsGap gap) ∧ IsLastGap last

theorem IsGap.append {front back : Text} (isFront : IsGap front) (isBack : IsGap back) : IsGap (front ++ back) := by
  induction isFront with
  | nil => exact isBack
  | blank isBlank _ ih => exact .blank isBlank ih
  | block isComment _ ih =>
    rw [append_assoc]
    exact .block isComment ih
  | line isComment _ ih =>
    rw [append_assoc]
    exact .line isComment ih

theorem IsGap.blanks {blanks : Text} (all : ∀ c ∈ blanks, isBlank c = true) : IsGap blanks := by
  induction blanks with
  | nil => exact .nil
  | cons c rest ih => exact .blank (all c (by simp)) (ih fun d mem => all d (by simp [mem]))

theorem IsLastGap.after {front back : Text} (isFront : IsGap front) (isBack : IsLastGap back) :
    IsLastGap (front ++ back) := by
  rcases isBack with isBack | ⟨front', body, rfl, isFront', noNewline⟩
  · exact Or.inl (isFront.append isBack)
  · exact Or.inr ⟨front ++ front', body, by simp, isFront.append isFront', noNewline⟩

variable {tokens : List Token} {text : Text} {P : Token → Text → Prop}

/-- The text is a gap, a token, a gap, and so on, where each token is right for the text from its start on. -/
inductive Laid (P : Token → Text → Prop) : Text → List Token → Prop where
  | done {last : Text} : IsLastGap last → Laid P last []
  | token {gap rest : Text} {t : Token} {tokens : List Token} : IsGap gap → t.value ≠ [] → P t (t.value ++ rest) →
    Laid P rest tokens → Laid P (gap ++ (t.value ++ rest)) (t :: tokens)

/-- A gap in front of a text belongs to its first gap. -/
theorem Laid.after {gap : Text} (isGap : IsGap gap) (laid : Laid P text tokens) : Laid P (gap ++ text) tokens := by
  cases laid with
  | done isLast => exact .done (isLast.after isGap)
  | token isGap' value right later =>
    rw [← append_assoc]
    exact .token (isGap.append isGap') value right later

theorem Laid.covers (laid : Laid P text tokens) : Covers text tokens := by
  induction laid with
  | done isLast => exact ⟨[], _, rfl, rfl, by simp, by simp, isLast⟩
  | @token gap rest t tokens isGap value _ _ ih =>
    obtain ⟨gaps, last, length_eq, rfl, values, areGaps, isLast⟩ := ih
    exact ⟨gap :: gaps, last, by simp [length_eq], by simp, forall_mem_cons.2 ⟨value, values⟩,
      forall_mem_cons.2 ⟨isGap, areGaps⟩, isLast⟩

/-! ## Comments -/

/-- A comment that is closed is complete, or the end of the text ends it. -/
theorem comment?_closed (commented : comment? text = some (.closed n)) :
    (∃ comment rest, text = comment ++ rest ∧ comment.length = n + 1 ∧
      (IsBlockComment comment ∨ IsLineComment comment)) ∨
    (∃ body, text = ofString "//" ++ body ∧ text.length = n + 1 ∧ newline ∉ body) := by
  unfold comment? at commented
  split at commented
  · rename_i starts
    obtain ⟨body, rfl⟩ := isPrefixOf_iff_prefix.1 starts
    have body_eq : (ofString "//" ++ body).drop 2 = body := rfl
    rw [body_eq] at commented
    split at commented
    · rename_i m found
      cases commented
      obtain ⟨before, after, rfl, rfl, first⟩ := find?_some found
      refine Or.inl ⟨ofString "//" ++ before ++ [newline], after, by simp, ?_, Or.inr ?_⟩
      · simp only [length_append, length_singleton]
        have two : (ofString "//").length = 2 := rfl
        omega
      · refine ⟨before, rfl, fun mem => ?_⟩
        exact find?_before rfl first (by simp) (singleton_infix_of_mem mem)
    · rename_i missing
      cases commented
      refine Or.inr ⟨body, rfl, ?_, fun mem => ?_⟩
      · simp only [length_append]
        have two : (ofString "//").length = 2 := rfl
        omega
      · exact find?_none (by simp) missing (singleton_infix_of_mem mem)
  · split at commented
    · rename_i starts
      obtain ⟨body, rfl⟩ := isPrefixOf_iff_prefix.1 starts
      have body_eq : (ofString "/*" ++ body).drop 2 = body := rfl
      rw [body_eq] at commented
      split at commented
      · rename_i m found
        cases commented
        obtain ⟨before, after, rfl, rfl, first⟩ := find?_some found
        refine Or.inl ⟨ofString "/*" ++ before ++ ofString "*/", after, by simp, ?_, Or.inl ?_⟩
        · simp only [length_append]
          have two : (ofString "/*").length = 2 := rfl
          have two' : (ofString "*/").length = 2 := rfl
          omega
        · exact ⟨before, rfl, find?_before rfl first (by decide)⟩
      · cases commented
    · cases commented

/-! ## Coverage -/

variable {p : Place}

/-- Nothing follows the end of the text. -/
theorem Scans.tokens_eq_nil (scans : Scans p tokens) (ended : p.rest = []) : tokens = [] := by
  cases scans with
  | done _ => rfl
  | blanks starts _ _ => cases ended.symm.trans starts
  | comment starts _ _ _ => cases ended.symm.trans starts
  | lexeme starts _ _ _ _ => cases ended.symm.trans starts

/-- A chain of steps lays out the text that it reads. The induction is on the steps. -/
theorem Scans.laid (scans : Scans p tokens)
    (right : ∀ {p : Place} {c : CodePoint} {rest : Text} {lexeme : Lexeme} {tokens : List Token}, p.rest = c :: rest →
      lexeme? c rest = some { outcome := .ok lexeme } → Scans (p.afterToken lexeme) tokens →
      P (p.token lexeme) p.rest) : Laid P p.rest tokens := by
  induction scans with
  | done ended =>
    rw [ended]
    exact .done (Or.inl .nil)
  | @blanks p c rest tokens starts blank _ ih =>
    have run_eq : p.rest = (c :: rest.takeWhile isBlank) ++ rest.dropWhile isBlank := by
      rw [starts, cons_append, takeWhile_append_dropWhile]
    have rest_eq : p.rest.drop ((rest.takeWhile isBlank).length + 1) =
        rest.dropWhile isBlank := by
      rw [run_eq, ← length_cons, drop_left]
    rw [Place.rest_skip, rest_eq] at ih
    rw [run_eq]
    refine ih.after (.blanks ?_)
    intro d mem
    rcases mem_cons.1 mem with rfl | mem
    · exact blank
    · exact mem_takeWhile_imp mem
  | @comment p c rest n tokens starts _ commented later ih =>
    rw [Place.rest_skipComment] at ih
    rw [← starts] at commented
    rcases comment?_closed commented with ⟨comment, rest', text_eq, length_eq, complete⟩ |
      ⟨body, text_eq, length_eq, noNewline⟩
    · rw [text_eq, ← length_eq, drop_left] at ih
      have isGap : IsGap (comment ++ []) := by
        rcases complete with isBlock | isLine
        · exact .block isBlock .nil
        · exact .line isLine .nil
      rw [append_nil] at isGap
      rw [text_eq]
      exact ih.after isGap
    · have ended : (p.skipComment (n + 1)).rest = [] := by
        rw [Place.rest_skipComment, ← length_eq, drop_length]
      have no_tokens := later.tokens_eq_nil ended
      subst no_tokens
      exact .done (Or.inr ⟨[], body, text_eq, .nil, noNewline⟩)
  | @lexeme p c rest lexeme tokens starts _ _ read later ih =>
    have value_ne : (p.token lexeme).value ≠ [] := by
      simp [Place.token, starts]
    have split : p.rest = (p.token lexeme).value ++ p.rest.drop (lexeme.further + 1) :=
      (take_append_drop _ _).symm
    have here := right starts read later
    rw [split] at here ⊢
    exact .token .nil value_ne here ih

theorem Scans.covers (scans : Scans p tokens) : Covers p.rest tokens :=
  (scans.laid (P := fun _ _ => True) fun _ _ _ => trivial).covers

end Lexer

/-- The text that a source holds, before its escapes are decoded. -/
def Source.decoded : Source → Text
  | .text s => s
  | .bytes bs => Text.ofBytes bs

/-- A strict reading without failure reads a text whose escapes were all decoded. -/
theorem tokenize_strict_ok {source : Source} (ok : (tokenize .strict source).failure = none) :
    ∃ text, (Lexer.unescape source.decoded).outcome = .ok text ∧
      tokenize .strict source = Lexer.tokensFrom .strict text (Lexer.Place.start text) := by
  have unescaped_ok : ∀ unescaped : Lexer.Unescaped,
      (Lexer.tokenizeUnescaped .strict unescaped).failure = none →
      ∃ text, unescaped.outcome = .ok text ∧
        Lexer.tokenizeUnescaped .strict unescaped =
          Lexer.tokensFrom .strict text (Lexer.Place.start text) := by
    intro unescaped ok
    unfold Lexer.tokenizeUnescaped at ok ⊢
    cases outcome : unescaped.outcome with
    | error f =>
      rw [outcome] at ok
      cases ok
    | ok text => exact ⟨text, rfl, rfl⟩
  cases source with
  | text text =>
    simp only [tokenize, Lexer.tokenizeText] at ok ⊢
    obtain ⟨-, later_eq⟩ := Lexed.afterComplaints_strict ok
    rw [later_eq] at ok ⊢
    exact unescaped_ok _ ok
  | bytes bytes =>
    simp only [tokenize, Lexer.tokenizeBytes] at ok ⊢
    split at ok
    · rename_i valid
      rw [if_pos valid]
      exact unescaped_ok _ ok
    · cases ok

/-- A source whose escapes can all be decoded is read as the text that they give. -/
theorem tokenize_of_unescape {source : Source} {text : Text}
    (decodes : Lexer.unescape source.decoded = { outcome := .ok text }) (mode : Mode) :
    tokenize mode source = Lexer.tokensFrom mode text (.start text) := by
  have whole (mode : Mode) (later : Lexed) : Lexed.afterComplaints mode [] later = later := by
    cases mode <;> rfl
  cases source with
  | text source =>
    have decodes : Lexer.unescape source = { outcome := .ok text } := decodes
    rw [tokenize, Lexer.tokenizeText, decodes]
    exact whole mode _
  | bytes bytes =>
    have decodes : Lexer.unescape (ofBytes bytes) = { outcome := .ok text } := decodes
    rw [tokenize, Lexer.tokenizeBytes, decodes]
    rfl

/-- **Coverage.** A source that is read without failure is, after its escapes are decoded, a gap, the value
of the first token, a gap, and so on: the values of all tokens in order with gaps between them. -/
theorem tokenize_covers (source : Source) (ok : (tokenize .strict source).failure = none) :
    ∃ text, (Lexer.unescape source.decoded).outcome = .ok text ∧
      Lexer.Covers text (tokenize .strict source).tokens := by
  obtain ⟨text, unescaped, read⟩ := tokenize_strict_ok ok
  rw [read] at ok ⊢
  exact ⟨text, unescaped, (Lexer.scans_of_ok _ ok).covers⟩

theorem tokenize_covers_comments : (tokenize .strict (.text "/* a */ x /**/ += 0x1.p2 // end")).failure = none ∧
      ∃ text, (Lexer.unescape "/* a */ x /**/ += 0x1.p2 // end").outcome = .ok text ∧
        Lexer.Covers text (tokenize .strict (.text "/* a */ x /**/ += 0x1.p2 // end")).tokens := by
  have ok : (tokenize .strict (.text "/* a */ x /**/ += 0x1.p2 // end")).failure = none := by
    decide +kernel
  exact ⟨ok, tokenize_covers (.text "/* a */ x /**/ += 0x1.p2 // end") ok⟩

end JavaSource
