import JavaSource.Lexer.Escapes
import Mathlib.Data.List.Basic

/-!
# When the escapes of a text cannot be decoded

Where the escapes of a text stand does not depend on their codes, so they can be listed first: `escapes`. Decoding
then fails for two reasons only. An invalid escape takes the code of the one before it, so the first must be valid;
and no code may be negative, which a sign among the four characters can make it. `unescape_error_iff` says that
nothing else is in the way.
-/

namespace JavaSource.Lexer

/-- The characters that the escapes of a text give as their codes, four for each or what is left of the text. -/
def escapesFrom : EscapeState → Text → List Text
  | _, [] => []
  | .plain, c :: rest => if c == '\\'.toNat then escapesFrom .backslash rest else escapesFrom .plain rest
  | .backslash, c :: rest => if c == 'u'.toNat then escapesFrom (.marker 1) rest else escapesFrom .plain rest
  | .marker us, c :: rest => if c == 'u'.toNat then escapesFrom (.marker (us + 1)) rest
    else (c :: rest).take 4 :: escapesFrom .plain (rest.drop 3)
termination_by _ text => text.length

def escapes (text : Text) : List Text := escapesFrom .plain text

/-- The escapes after one with the code `earlier`, if there is one, do not all have a code. -/
inductive Undecodable : Option Int → List Text → Fault → Prop where
  /-- The first escape is invalid. -/
  | noEarlierCode {digits : Text} {later : List Text} :
    Text.hexNumber? digits = none → Undecodable none (digits :: later) .noEarlierCode
  /-- An escape has a negative code, and no escape in front of all codes is invalid. -/
  | negativeCode {earlier : Option Int} {codes : List Text} {digits : Text} {code : Int} :
    digits ∈ codes → Text.hexNumber? digits = some code → code < 0 →
    (earlier = none → ∀ first ∈ codes.head?, (Text.hexNumber? first).isSome = true) →
    Undecodable earlier codes .negativeCode

variable {earlier : Option Int} {f : Fault}

theorem not_undecodable_nil : ¬ Undecodable earlier [] f := by
  intro undecodable
  cases undecodable with
  | negativeCode mem _ _ _ => cases mem

/-- Behind an escape that has a code of its own or an earlier one, the others decide. -/
theorem undecodable_cons {digits : Text} {later : List Text} {code : Int}
    (has : (Text.hexNumber? digits).or earlier = some code) (nonneg : 0 ≤ code) :
    Undecodable earlier (digits :: later) f ↔ Undecodable (some code) later f := by
  constructor
  · intro undecodable
    cases undecodable with
    | noEarlierCode invalid =>
      rw [invalid] at has
      cases has
    | negativeCode mem isCode negative _ =>
      rcases List.mem_cons.1 mem with rfl | mem
      · rw [isCode, Option.some_or, Option.some.injEq] at has
        omega
      · refine .negativeCode mem isCode negative ?_
        rintro ⟨⟩
  · intro undecodable
    cases undecodable with
    | negativeCode mem isCode negative _ =>
      refine .negativeCode (List.mem_cons_of_mem _ mem) isCode negative ?_
      rintro rfl first ⟨⟩
      rw [Option.or_none] at has
      rw [has]
      rfl

/-- Decoding fails exactly if the escapes do not all have a code. The induction is that of the decoding, and the
code that is lent to invalid escapes is never negative. -/
theorem unescapeFrom_error_iff (copied : Text) (earlier : Option Int) (state : EscapeState) (text : Text) (f : Fault)
    (nonneg : ∀ code ∈ earlier, 0 ≤ code) : (unescapeFrom copied earlier state text).outcome = .error f ↔
      Undecodable earlier (escapesFrom state text) f := by
  fun_induction unescapeFrom copied earlier state text with
  | case1 | case2 | case3 => simp [escapesFrom, not_undecodable_nil]
  | case4 _ _ _ _ slash ih => rw [ih nonneg, escapesFrom, if_pos slash]
  | case5 _ _ _ _ noSlash ih => rw [ih nonneg, escapesFrom, if_neg noSlash]
  | case6 _ _ _ _ isU ih => rw [ih nonneg, escapesFrom, if_pos isU]
  | case7 _ _ _ _ noU ih => rw [ih nonneg, escapesFrom, if_neg noU]
  | case8 _ _ _ _ _ isU ih => rw [ih nonneg, escapesFrom, if_pos isU]
  | case9 copied earlier us c rest noU digits code invalid none_left =>
    obtain ⟨isInvalid, rfl⟩ := Option.or_eq_none_iff.1 none_left
    rw [escapesFrom, if_neg noU]
    constructor
    · rintro ⟨⟩
      exact .noEarlierCode isInvalid
    · intro undecodable
      cases undecodable with
      | noEarlierCode _ => rfl
      | negativeCode _ _ _ valid =>
        have isValid : code.isSome = true := valid rfl digits rfl
        rw [isInvalid] at isValid
        cases isValid
  | case10 copied earlier us c rest noU digits code invalid taken has negative =>
    have own : code = some taken := by
      cases isCode : code with
      | some own =>
        rw [isCode, Option.some_or] at has
        exact has
      | none =>
        rw [isCode, Option.none_or] at has
        exact absurd (nonneg taken has) (by omega)
    rw [escapesFrom, if_neg noU]
    constructor
    · rintro ⟨⟩
      refine .negativeCode List.mem_cons_self own negative ?_
      rintro - first ⟨⟩
      exact (congrArg Option.isSome own).trans rfl
    · intro undecodable
      cases undecodable with
      | noEarlierCode isInvalid => cases isInvalid.symm.trans own
      | negativeCode _ _ _ _ => rfl
  | case11 copied earlier us c rest noU digits code invalid taken has noNegative ih =>
    have kept : ∀ later ∈ some taken, 0 ≤ later := by
      rintro later ⟨⟩
      omega
    rw [escapesFrom, if_neg noU, undecodable_cons has (by omega), ← ih kept, Unescaped.after]
    cases (unescapeFrom [] (some taken) .plain (rest.drop 3)).outcome <;> simp [Except.map]

/-- **Decoding fails** exactly if the first escape is invalid, or an escape has a negative code. -/
theorem unescape_error_iff (text : Text) (f : Fault) :
    (unescape text).outcome = .error f ↔ Undecodable none (escapes text) f :=
  unescapeFrom_error_iff [] none .plain text f (by simp)

end JavaSource.Lexer
