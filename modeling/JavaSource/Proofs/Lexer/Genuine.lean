import Mathlib
import JavaSource.Proofs.Lexer.Words

/-!
# Reserved words and separators have their own class

Every token that is read from a source is `Genuine`: where its value is a reserved word, or a separator other
than the dot, its class is that of the word or separator. A dot before a digit of another script is read as a
number, so nothing is said of dots.
-/

namespace JavaSource

open List Text Vocabulary

def Vocabulary.punctuation : List Text := texts ["(", ")", "\x7b", "\x7d", "[", "]", ";", ","]

/-- The class of a reserved word, or of a separator other than the dot. -/
def Vocabulary.fixedClass? (value : Text) : Option TokenClass :=
  if keywords.contains value then some (classOfWord value)
  else if punctuation.contains value then some .separator
  else none

/-- A reserved word, or a separator other than the dot, has its own class. -/
def Token.Genuine (t : Token) : Prop := ∀ c ∈ Vocabulary.fixedClass? t.value, t.cls = c

instance (t : Token) : Decidable t.Genuine :=
  inferInstanceAs (Decidable (∀ c ∈ Vocabulary.fixedClass? t.value, t.cls = c))

namespace Lexer

variable {c : CodePoint}

/-- Reserved words and separators start as such. -/
theorem fixedClass?_of_head (word : Text) (noStart : isIdentifierStart c = false)
    (noSeparator : [c] ∉ punctuation) : fixedClass? (c :: word) = none := by
  have starts : ∀ w ∈ keywords, w.head?.any isIdentifierStart = true := by decide
  have single : ∀ w ∈ punctuation, w.tail = [] := by decide
  rw [fixedClass?, if_neg, if_neg]
  · intro contained
    have mem := contains_iff_mem.1 contained
    have alone : word = [] := single _ mem
    exact noSeparator (alone ▸ mem)
  · intro contained
    have start := starts _ (contains_iff_mem.1 contained)
    rw [head?_cons, Option.any_some, noStart] at start
    cases start

theorem fixedClass?_operator : ∀ op ∈ operators, fixedClass? op = none := by decide

def Reading.Genuine (r : Reading) (text : Text) : Prop :=
  ∀ lexeme, r.outcome = .ok lexeme →
    ∀ c ∈ Vocabulary.fixedClass? (text.take (lexeme.further + 1)), lexeme.cls = c

theorem genuine_of_head (rest : Text) (noStart : isIdentifierStart c = false)
    (noSeparator : [c] ∉ punctuation) (r : Reading) : r.Genuine (c :: rest) := by
  intro lexeme _ cls fixed
  rw [take_succ_cons, fixedClass?_of_head _ noStart noSeparator] at fixed
  cases fixed

variable {r : Reading}

theorem operatorReading?_genuine {text : Text} (read : operatorReading? text = some r) :
    r.Genuine text := by
  obtain ⟨op, found, rfl⟩ := Option.map_eq_some_iff.1 read
  have mem : op ∈ operators := mem_of_find?_eq_some found
  have starts : op <+: text := by
    rw [leadingOperator?] at found
    have starts := find?_some found
    exact isPrefixOf_iff_prefix.1 starts
  have nonempty : ∀ op ∈ operators, op.length - 1 + 1 = op.length := by decide
  rintro lexeme ⟨⟩ cls fixed
  rw [Lexeme.ofLength, nonempty op mem, ← prefix_iff_eq_take.1 starts,
    fixedClass?_operator op mem] at fixed
  cases fixed

/-- A word is as long as it can be, and has its class. -/
theorem wordReading_outcome {rest : Text} {lexeme : Lexeme} (start : isIdentifierStart c = true)
    (read : (wordReading (c :: rest)).outcome = .ok lexeme) :
    (c :: rest).take (lexeme.further + 1) = c :: rest.takeWhile isIdentifierPart ∧
      lexeme.cls = classOfWord (c :: rest.takeWhile isIdentifierPart) := by
  have part : isIdentifierPart c = true := by
    rw [isIdentifierPart, start, Bool.true_or]
  have word_eq : (c :: rest).takeWhile isIdentifierPart = c :: rest.takeWhile isIdentifierPart :=
    takeWhile_cons_of_pos part
  rw [wordReading, word_eq] at read
  cases read
  rw [Lexeme.ofLength, length_cons, Nat.add_sub_cancel, take_succ_cons,
    ← prefix_iff_eq_take.1 (List.takeWhile_prefix _)]
  exact ⟨rfl, rfl⟩

theorem wordReading_genuine (rest : Text) (start : isIdentifierStart c = true) :
    (wordReading (c :: rest)).Genuine (c :: rest) := by
  have separators : ∀ w ∈ punctuation, w.head?.any isIdentifierStart = false := by
    decide
  rintro lexeme outcome cls fixed
  obtain ⟨value, is⟩ := wordReading_outcome start outcome
  rw [value, fixedClass?] at fixed
  split at fixed
  · exact is.trans (Option.some.inj fixed)
  · split at fixed
    · rename_i contained
      have none := separators _ (contains_iff_mem.1 contained)
      rw [head?_cons, Option.any_some, start] at none
      cases none
    · cases fixed

theorem separator_genuine (rest : Text) (separator : c ∈ separators) :
    (Reading.plain .separator 1).Genuine (c :: rest) := by
  have noWord : ∀ d ∈ separators, [d] ∉ keywords := by decide
  rintro lexeme ⟨⟩ cls fixed
  rw [Lexeme.ofLength, take_succ_cons, take_zero, fixedClass?,
    if_neg fun contained => noWord c separator (contains_iff_mem.1 contained)] at fixed
  split at fixed
  · exact Option.some.inj fixed
  · cases fixed

/-- Every reader gives tokens of the right class. -/
theorem lexeme?_genuine {rest : Text} (read : lexeme? c rest = some r) :
    r.Genuine (c :: rest) := by
  have digits : ∀ d ∈ ofString "0123456789",
      isIdentifierStart d = false ∧ [d] ∉ punctuation := by decide
  have marks : ∀ d ∈ ofString "@.'\"",
      isIdentifierStart d = false ∧ [d] ∉ punctuation := by decide
  have of_mark (mem : c ∈ ofString "@.'\"") : r.Genuine (c :: rest) :=
    genuine_of_head rest (marks c mem).1 (marks c mem).2 r
  cases lexeme?_readBy read with
  | operator found => exact operatorReading?_genuine found
  | atSign isSign => exact of_mark (isSign ▸ by decide)
  | point isPoint => exact of_mark (isPoint ▸ by decide)
  | separator separator => exact separator_genuine rest separator
  | quotation quote =>
    rcases Bool.or_eq_true_iff.1 quote with quote | quote
    · exact of_mark (eq_of_beq quote ▸ by decide)
    · exact of_mark (eq_of_beq quote ▸ by decide)
  | digit digit =>
    have mem := mem_digits digit
    exact genuine_of_head rest (digits c mem).1 (digits c mem).2 _
  | word start => exact wordReading_genuine rest start

/-! ## All tokens of a text -/

theorem mem_of_afterComplaints {mode : Mode} {complaints : List Complaint} {later : Lexed} {t : Token}
    (mem : t ∈ (Lexed.afterComplaints mode complaints later).tokens) : t ∈ later.tokens := by
  unfold Lexed.afterComplaints at mem
  split at mem
  · cases mem
  · exact mem

variable {P : Token → Prop}

/-- What holds of the tokens of all lexemes holds of all tokens of a text. -/
theorem forall_tokensFrom
    (lexemes : ∀ (p : Place) c rest r lexeme, p.rest = c :: rest → lexeme? c rest = some r →
      r.outcome = .ok lexeme → P (p.token lexeme)) (mode : Mode) (text : Text) (p : Place) :
    ∀ t ∈ (tokensFrom mode text p).tokens, P t := by
  intro t mem
  fun_induction tokensFrom mode text p with
  | case1 p ended => cases mem
  | case2 p c rest starts blank ih => exact ih mem
  | case3 p c rest starts visible n commented ih => exact ih mem
  | case4 p c rest starts visible commented => cases mem_of_afterComplaints mem
  | case5 p c rest starts visible uncommented unread ih => exact ih (mem_of_afterComplaints mem)
  | case6 p c rest starts visible uncommented reading read complaints =>
    rename_i ih
    have mem := mem_of_afterComplaints mem
    split at mem
    · cases mem
    · rename_i lexeme outcome
      rcases mem_cons.1 mem with rfl | mem
      · exact lexemes p c rest reading lexeme starts read outcome
      · exact ih lexeme mem

/-- What holds of the tokens of all lexemes holds of all tokens of a source. -/
theorem forall_tokenize
    (lexemes : ∀ (p : Place) c rest r lexeme, p.rest = c :: rest → lexeme? c rest = some r →
      r.outcome = .ok lexeme → P (p.token lexeme)) (mode : Mode) (source : Source) :
    ∀ t ∈ (tokenize mode source).tokens, P t := by
  have of_unescaped (unescaped : Unescaped) :
      ∀ t ∈ (tokenizeUnescaped mode unescaped).tokens, P t := by
    intro t mem
    unfold tokenizeUnescaped at mem
    split at mem
    · cases mem
    · exact forall_tokensFrom lexemes mode _ _ t mem
  intro t mem
  cases source with
  | text text => exact of_unescaped _ t (mem_of_afterComplaints mem)
  | bytes bytes =>
    rw [tokenize, tokenizeBytes] at mem
    split at mem
    · exact of_unescaped _ t mem
    · cases mem

/-- **Every token of a source** is genuine. -/
theorem tokenize_genuine (mode : Mode) (source : Source) : ∀ t ∈ (tokenize mode source).tokens, t.Genuine := by
  refine forall_tokenize (fun p c rest r lexeme starts read outcome => ?_) mode source
  have genuine := lexeme?_genuine read lexeme outcome
  rw [← starts] at genuine
  exact genuine

end Lexer

end JavaSource
