import JavaSource.Proofs.Lexer.Escapes
import JavaSource.Proofs.Lexer.Unfinished
import Mathlib.Logic.Relation

/-!
# Where a lenient reading fails

A lenient reading keeps what it has to complain about and goes on. What it cannot get over are faults: an escape
without a code, and a number at which the text is cut off. `Step` is one step of such a reading, and
`tokenize_lenient_failure_iff` says that it comes to the end of every text, except for these two.
-/

namespace JavaSource

namespace Lexer

/-- One step of a lenient reading: over blanks, a comment or a lexeme, whatever its reader remarks, over a character
that starts no lexeme, or over all the rest if it is a comment without an end. -/
inductive Step : Text → Text → Prop where
  | blanks {c : CodePoint} {rest : Text} : Text.isBlank c = true → Step (c :: rest) (rest.dropWhile Text.isBlank)
  | comment {c : CodePoint} {rest : Text} {n : Nat} : Text.isBlank c = false →
    comment? (c :: rest) = some (.closed n) → Step (c :: rest) (rest.drop n)
  | unterminated {c : CodePoint} {rest : Text} : Text.isBlank c = false →
    comment? (c :: rest) = some .unterminated → Step (c :: rest) []
  | unknown {c : CodePoint} {rest : Text} : Text.isBlank c = false → comment? (c :: rest) = none →
    lexeme? c rest = none → Step (c :: rest) rest
  | lexeme {c : CodePoint} {rest : Text} {reading : Reading} {lexeme : Lexeme} : Text.isBlank c = false →
    comment? (c :: rest) = none → lexeme? c rest = some reading → reading.outcome = .ok lexeme →
    Step (c :: rest) (rest.drop lexeme.further)

/-- A lenient reading of the first text comes to the second. -/
def ComesTo : Text → Text → Prop := Relation.ReflTransGen Step

variable {next text : Text} {f : Fault} {failure : Option Failure}

theorem Step.unique {next' : Text} (step : Step text next) (step' : Step text next') : next = next' := by
  cases step <;> cases step' <;> simp_all

theorem Unfinished.not_step (unfinished : Unfinished f text) : ¬ Step text next := by
  intro step
  cases step with
  | blanks blank =>
    rw [unfinished.visible.1] at blank
    cases blank
  | comment _ commented =>
    rw [unfinished.visible.2] at commented
    cases commented
  | unterminated _ commented =>
    rw [unfinished.visible.2] at commented
    cases commented
  | unknown _ _ noLexeme =>
    obtain ⟨reading, read, -⟩ := lexeme?_error_iff.2 unfinished
    cases noLexeme.symm.trans read
  | lexeme _ _ read ok =>
    obtain ⟨reading, read', failed⟩ := lexeme?_error_iff.2 unfinished
    obtain rfl := Option.some.inj (read.symm.trans read')
    cases ok.symm.trans failed

theorem not_unfinished_nil : ¬ Unfinished f [] := by
  intro unfinished
  generalize empty : ([] : Text) = text at unfinished
  cases unfinished with
  | zero => cases empty
  | binary _ => cases empty
  | hex _ _ => cases empty
  | decimal _ cut _ =>
    obtain ⟨c, rest, rfl, -⟩ := cut.head
    exact List.cons_ne_nil c rest (List.append_eq_nil_iff.1 empty.symm).2

/-- How a lenient reading ends that has come to a text: at its end, or with a fault in front of it. -/
def Finishes (failure : Option Failure) (text : Text) : Prop :=
  failure = none ∧ text = [] ∨ ∃ f, failure = some (.fault f) ∧ Unfinished f text

theorem finishes_nil_iff : Finishes failure [] ↔ none = failure := by
  constructor
  · rintro (⟨rfl, -⟩ | ⟨f, -, unfinished⟩)
    · rfl
    · exact absurd unfinished not_unfinished_nil
  · rintro rfl
    exact .inl ⟨rfl, rfl⟩

theorem Unfinished.finishes_iff {c : CodePoint} {rest : Text}
    (unfinished : Unfinished f (c :: rest)) : Finishes failure (c :: rest) ↔ some (.fault f) = failure := by
  constructor
  · rintro (⟨-, ⟨⟩⟩ | ⟨g, rfl, other⟩)
    obtain ⟨reading, read, failed⟩ := lexeme?_error_iff.2 unfinished
    obtain ⟨reading', read', failed'⟩ := lexeme?_error_iff.2 other
    obtain rfl := Option.some.inj (read.symm.trans read')
    rw [Except.error.inj (failed.symm.trans failed')]
  · rintro rfl
    exact .inr ⟨f, rfl, unfinished⟩

/-- A step leaves no doubt about what the reading comes to. -/
theorem exists_finishes_step (step : Step text next) :
    (∃ rest, ComesTo text rest ∧ Finishes failure rest) ↔ ∃ rest, ComesTo next rest ∧ Finishes failure rest := by
  constructor
  · rintro ⟨rest, comes, finishes⟩
    rcases Relation.ReflTransGen.cases_head comes with rfl | ⟨next', step', later⟩
    · rcases finishes with ⟨-, rfl⟩ | ⟨f, -, unfinished⟩
      · cases step
      · exact absurd step unfinished.not_step
    · rw [step.unique step']
      exact ⟨rest, later, finishes⟩
  · rintro ⟨rest, comes, finishes⟩
    exact ⟨rest, .head step comes, finishes⟩

/-- Where no step can be made, the reading has come as far as it can. -/
theorem exists_finishes_of_stuck (stuck : ∀ next, ¬ Step text next) :
    (∃ rest, ComesTo text rest ∧ Finishes failure rest) ↔ Finishes failure text := by
  constructor
  · rintro ⟨rest, comes, finishes⟩
    rcases Relation.ReflTransGen.cases_head comes with rfl | ⟨next, step, -⟩
    · exact finishes
    · exact absurd step (stuck next)
  · exact fun finishes => ⟨text, .refl, finishes⟩

theorem not_step_nil (next : Text) : ¬ Step [] next := by
  intro step
  cases step

/-- **A lenient reading** ends as what it comes to says. -/
theorem tokensFrom_lenient_iff (text : Text) (p : Place) (failure : Option Failure) :
    (tokensFrom .lenient text p).failure = failure ↔ ∃ rest, ComesTo p.rest rest ∧ Finishes failure rest := by
  fun_induction tokensFrom .lenient text p with
  | case1 p ended => rw [ended, exists_finishes_of_stuck not_step_nil, finishes_nil_iff]
  | case2 p c rest starts blank ih =>
    rw [ih, Place.rest_skip, starts, List.drop_succ_cons, Text.drop_takeWhile, exists_finishes_step (.blanks blank)]
  | case3 p c rest starts visible n commented ih =>
    rw [ih, Place.rest_skipComment, starts, List.drop_succ_cons,
      exists_finishes_step (.comment (Bool.eq_false_iff.2 visible) commented)]
  | case4 p c rest starts visible commented =>
    rw [starts, exists_finishes_step (.unterminated (Bool.eq_false_iff.2 visible) commented),
      exists_finishes_of_stuck not_step_nil, finishes_nil_iff]
    rfl
  | case5 p c rest starts visible uncommented unread ih =>
    rw [starts, exists_finishes_step (.unknown (Bool.eq_false_iff.2 visible) uncommented unread)]
    rwa [Place.rest_advance, starts] at ih
  | case6 p c rest starts visible uncommented reading read complaints =>
    rename_i ih
    rw [starts]
    cases outcome : reading.outcome with
    | ok lexeme =>
      rw [exists_finishes_step (.lexeme (Bool.eq_false_iff.2 visible) uncommented read outcome)]
      have later := ih lexeme
      rwa [Place.rest_afterToken, starts] at later
    | error f =>
      have unfinished := lexeme?_error_iff.1 ⟨reading, read, outcome⟩
      rw [exists_finishes_of_stuck fun _ => unfinished.not_step, unfinished.finishes_iff]
      rfl

end Lexer

/-- **Lenient readings.** A lenient reading of a text comes to its end, and then without failure, exactly if its
escapes can be decoded and steps over blanks, comments, lexemes and unknown characters lead to the end of the decoded
text. It never fails because of a complaint. It fails with a fault exactly if the escapes cannot be decoded for it, or
if the steps lead to a number that is cut off with it: a lone zero, the mark of a base without digits, a point or an
exponent without digits at the end of the text, or a hexadecimal fraction without an exponent there. -/
theorem tokenize_lenient_failure_iff (text : Text) : ((tokenize .lenient (.text text)).failure = none ↔
      ∃ decoded, (Lexer.unescape text).outcome = .ok decoded ∧ Lexer.ComesTo decoded []) ∧
    (∀ c, (tokenize .lenient (.text text)).failure ≠ some (.complaint c)) ∧
    ∀ f, (tokenize .lenient (.text text)).failure = some (.fault f) ↔
      Lexer.Undecodable none (Lexer.escapes text) f ∨
        ∃ decoded rest, (Lexer.unescape text).outcome = .ok decoded ∧ Lexer.ComesTo decoded rest ∧
          Lexer.Unfinished f rest := by
  have whole : (tokenize .lenient (.text text)).failure =
      (Lexer.tokenizeUnescaped .lenient (Lexer.unescape text)).failure := rfl
  simp only [whole, ← Lexer.unescape_error_iff, Lexer.tokenizeUnescaped]
  cases outcome : (Lexer.unescape text).outcome with
  | error g => simp [Lexed.faulty]
  | ok decoded =>
    have read := Lexer.tokensFrom_lenient_iff decoded (Lexer.Place.start decoded)
    refine ⟨(read none).trans ⟨?_, ?_⟩, fun c failed => ?_, fun f => (read _).trans ⟨?_, ?_⟩⟩
    · rintro ⟨rest, comes, ⟨-, rfl⟩ | ⟨f, ⟨⟩, -⟩⟩
      exact ⟨decoded, rfl, comes⟩
    · rintro ⟨_, ⟨⟩, comes⟩
      exact ⟨[], comes, .inl ⟨rfl, rfl⟩⟩
    · obtain ⟨rest, -, ⟨⟨⟩, -⟩ | ⟨f, ⟨⟩, -⟩⟩ := (read _).1 failed
    · rintro ⟨rest, comes, ⟨⟨⟩, -⟩ | ⟨_, ⟨⟩, unfinished⟩⟩
      exact .inr ⟨decoded, rest, rfl, comes, unfinished⟩
    · rintro (⟨⟨⟩⟩ | ⟨_, rest, ⟨⟩, comes, unfinished⟩)
      exact ⟨rest, comes, .inr ⟨f, rfl, unfinished⟩⟩

/-- A lenient reading does not get over a lone zero, and does not complain about it either. -/
theorem tokenize_lenient_zero : (tokenize .lenient (.text "0")).failure = some (.fault .numberAtEnd) ∧
      (tokenize .lenient (.text "0")).complaints = [] := by
  decide +kernel

end JavaSource
