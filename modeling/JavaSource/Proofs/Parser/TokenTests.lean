import JavaSource.Proofs.Parser.Simulation
import JavaSource.Proofs.Parser.Tokens

/-!
# The three tests of the next tokens

A parser asks in three ways whether the next tokens fit some patterns: it looks at them, it looks at them and takes
them if all of them fit, and it takes them one by one as long as they fit. `tokenTests_agree` says that all three come
to the same, and where each of them leaves the parser. What stands behind the last token must fit none of the patterns:
there is nothing there to take.
-/

namespace JavaSource

namespace Grammar

open List Routine

/-- The first `n` of the patterns fit the first tokens, each its own. -/
def Pattern.FitUpTo (patterns : List Pattern) (ahead : List Token) (n : Nat) : Prop :=
  ∀ i < n, ∀ p ∈ patterns[i]?, p.fits ahead[i]? = true

variable {follow : Reader} {p : Pattern} {patterns : List Pattern} {ahead : List Token} {t : Token} {n : Nat}

theorem Pattern.fitUpTo_cons : FitUpTo (p :: patterns) (t :: ahead) (n + 1) ↔
    p.fits (some t) = true ∧ FitUpTo patterns ahead n := by
  refine ⟨fun fit => ⟨fit 0 (Nat.succ_pos n) p rfl, fun i lt => fit (i + 1) (Nat.succ_lt_succ lt)⟩, ?_⟩
  rintro ⟨first, later⟩ (_ | i) lt q isPattern
  · cases isPattern
    exact first
  · exact later i (Nat.lt_of_succ_lt_succ lt) q isPattern

theorem Pattern.fitAll_iff : fitAll patterns ahead = true ↔ FitUpTo patterns ahead patterns.length := by
  induction patterns generalizing ahead with
  | nil => exact iff_of_true rfl fun i lt => absurd lt (Nat.not_lt_zero i)
  | cons p patterns ih =>
    rw [fitAll, Bool.and_eq_true_iff, ih]
    constructor
    · rintro ⟨first, later⟩ (_ | i) lt q isPattern
      · cases isPattern
        exact first
      · rw [← getElem?_tail]
        exact later i (Nat.lt_of_succ_lt_succ lt) q isPattern
    · refine fun fit => ⟨fit 0 (Nat.succ_pos _) p rfl, fun i lt q isPattern => ?_⟩
      rw [getElem?_tail]
      exact fit (i + 1) (Nat.succ_lt_succ lt) q isPattern

/-- Where nothing fits behind the last token, there are as many tokens as patterns that fit. -/
theorem Pattern.FitUpTo.length_le (fit : FitUpTo patterns ahead patterns.length)
    (demand : ∀ q ∈ patterns, q.fits none = false) : patterns.length ≤ ahead.length := by
  by_contra short
  have lt : ahead.length < patterns.length := Nat.lt_of_not_le short
  have here := fit ahead.length lt _ (getElem?_eq_getElem lt)
  rw [getElem?_eq_none (Nat.le_refl _), demand _ (getElem_mem lt)] at here
  cases here

theorem read_takeMany_drop (enough : n ≤ ahead.length) :
    (takeMany n).read follow ahead = .ok () (ahead.drop n) := by
  induction n generalizing ahead with
  | zero => rfl
  | succ n ih =>
    cases ahead with
    | nil => cases enough
    | cons t ahead => exact ih (Nat.le_of_succ_le_succ enough)

/-- Tokens are taken where they all fit, and not at all where one does not. -/
theorem read_tryAccept (nonempty : patterns ≠ []) (demand : ∀ q ∈ patterns, q.fits none = false) :
    (tryAccept patterns).read follow ahead = .ok (Pattern.fitAll patterns ahead)
      (ahead.drop (if Pattern.fitAll patterns ahead then patterns.length else 0)) := by
  rw [tryAccept, read_bind_ok (read_wouldAccept nonempty ahead)]
  cases fits : Pattern.fitAll patterns ahead with
  | false => rfl
  | true =>
    rw [if_pos rfl, read_bind_ok (read_takeMany_drop ((Pattern.fitAll_iff.1 fits).length_le demand))]
    rfl

/-- Taking tokens one by one ends behind the last pattern, behind the first token that does not fit, or at the end of
the tokens. The induction is on the patterns, and `value` is that of the token before them. -/
theorem read_acceptFrom (patterns : List Pattern) (value : Text) (ahead : List Token) :
    (∃ taken rest, ahead = taken ++ rest ∧ taken.length = patterns.length ∧
      Pattern.FitUpTo patterns ahead patterns.length ∧
      (acceptFrom value patterns).read follow ahead = .ok ((taken.map (·.value)).getLastD value) rest) ∨
    (∃ i p t, patterns[i]? = some p ∧ ahead[i]? = some t ∧ p.fits (some t) = false ∧
      Pattern.FitUpTo patterns ahead i ∧ (acceptFrom value patterns).read follow ahead =
        { result := .error (.illegal p.expected ahead[i + 1]?), ahead := ahead.drop (i + 1) }) ∨
    (ahead.length < patterns.length ∧ Pattern.FitUpTo patterns ahead ahead.length ∧
      (acceptFrom value patterns).read follow ahead = { result := .error .endOfInput, ahead := [] }) := by
  induction patterns generalizing value ahead with
  | nil => exact .inl ⟨[], ahead, rfl, rfl, fun i lt => absurd lt (Nat.not_lt_zero i), rfl⟩
  | cons p patterns ih =>
    cases ahead with
    | nil => exact .inr (.inr ⟨Nat.succ_pos _, fun i lt => absurd lt (Nat.not_lt_zero i), rfl⟩)
    | cons t ahead =>
      have step : (acceptFrom value (p :: patterns)).read follow (t :: ahead) =
        (if p.fits (some t) then acceptFrom t.value patterns else illegal p.expected).read follow ahead := rfl
      rw [step]
      cases fits : p.fits (some t) with
      | false => exact .inr (.inl ⟨0, p, t, rfl, rfl, fits, fun i lt => absurd lt (Nat.not_lt_zero i), rfl⟩)
      | true =>
        rcases ih t.value ahead with ⟨taken, rest, rfl, length, fit, read⟩ | ⟨i, q, u, isPattern, isToken, unfit, fit,
          read⟩ | ⟨short, fit, read⟩
        · refine .inl ⟨t :: taken, rest, rfl, congrArg (· + 1) length, Pattern.fitUpTo_cons.2 ⟨fits, fit⟩, ?_⟩
          rw [map_cons, getLastD_cons]
          exact read
        · exact .inr (.inl ⟨i + 1, q, u, isPattern, isToken, unfit, Pattern.fitUpTo_cons.2 ⟨fits, fit⟩, read⟩)
        · exact .inr (.inr ⟨Nat.succ_lt_succ short, Pattern.fitUpTo_cons.2 ⟨fits, fit⟩, read⟩)

end Grammar

namespace Parser

open Grammar List

variable {α : Type} {p : Parser} {ahead : List Token} {routine : Routine α} {result : Except ParseFailure α} {n : Nat}

/-- The routine comes to the result, and the parser has taken some number of tokens. -/
def Takes (p : Parser) (routine : Routine α) (result : Except ParseFailure α) (count : Nat) : Prop :=
  (p.run (exec plainly routine)).1 = result ∧
    (p.run (exec plainly routine)).2.tokens.marker = p.tokens.marker + count

theorem takes_of_read (facing : p.Facing ahead) (orderly : routine.Orderly) (enough : n ≤ ahead.length)
    (read : routine.read Rule.reads ahead = { result, ahead := ahead.drop n }) : p.Takes routine result n := by
  obtain ⟨is, moved⟩ := exec_does orderly facing
  rw [read] at is moved
  refine ⟨is, ?_⟩
  have before := facing.length
  have after := moved.facing.length
  have inside := moved.facing.marker
  have inside' := facing.marker
  rw [moved.values] at after inside
  rw [length_drop] at after
  omega

/-- **The three tests agree**, in every state of a parser. Looking says whether each of the next tokens fits its
pattern, and takes none. Taking them together says the same, and takes as many as there are patterns or none. Taking
them one by one gives the value of the last if all of them fit; otherwise it fails, with a syntax error one behind the
first that does not fit, or at the end if the tokens run out before. -/
theorem tokenTests_agree {patterns : List Pattern} (facing : p.Facing ahead) (nonempty : patterns ≠ [])
    (demand : ∀ q ∈ patterns, q.fits none = false) :
    ∃ fit : Bool, (fit = true ↔ Pattern.FitUpTo patterns ahead patterns.length) ∧
      p.Takes (wouldAccept patterns) (.ok fit) 0 ∧
      p.Takes (tryAccept patterns) (.ok fit) (if fit then patterns.length else 0) ∧
      (fit = true → ∃ last, ahead[patterns.length - 1]? = some last ∧
        p.Takes (accept patterns) (.ok last.value) patterns.length) ∧
      (fit = false →
        (∃ i q t, patterns[i]? = some q ∧ ahead[i]? = some t ∧ q.fits (some t) = false ∧
          Pattern.FitUpTo patterns ahead i ∧
          p.Takes (accept patterns) (.error (.illegal q.expected ahead[i + 1]?)) (i + 1)) ∨
        (ahead.length < patterns.length ∧ Pattern.FitUpTo patterns ahead ahead.length ∧
          p.Takes (accept patterns) (.error .endOfInput) ahead.length ∧
          (p.run (exec plainly (accept patterns))).2.tokens.marker = p.tokens.values.size)) := by
  have accepts : accept patterns = acceptFrom [] patterns := if_neg (mt List.isEmpty_iff.1 nonempty)
  have cases := @read_acceptFrom Rule.reads patterns [] ahead
  rw [← accepts] at cases
  have enough (fits : Pattern.fitAll patterns ahead = true) := (Pattern.fitAll_iff.1 fits).length_le demand
  refine ⟨Pattern.fitAll patterns ahead, Pattern.fitAll_iff, ?_, ?_, fun fits => ?_, fun unfits => ?_⟩
  · exact takes_of_read facing (orderly_wouldAccept patterns) (Nat.zero_le _) (read_wouldAccept nonempty ahead)
  · refine takes_of_read facing (orderly_tryAccept patterns) ?_ (read_tryAccept nonempty demand)
    split
    · exact enough ‹_›
    · exact Nat.zero_le _
  · rcases cases with ⟨taken, rest, rfl, length, -, read⟩ | ⟨i, q, t, isPattern, isToken, unfit, -⟩ | ⟨short, -⟩
    · have some_taken : taken ≠ [] := fun none => nonempty (length_eq_zero_iff.1 (by rw [← length, none]; rfl))
      refine ⟨taken.getLast some_taken, ?_, ?_⟩
      · have pos := length_pos_iff.2 some_taken
        rw [← length, getElem?_append_left (by omega), ← getLast?_eq_getElem?, getLast?_eq_some_getLast]
      · refine takes_of_read facing (orderly_accept patterns) (enough fits) ?_
        rw [read, ← length, drop_left, getLastD_eq_getLast?, getLast?_map, getLast?_eq_some_getLast some_taken]
        rfl
    · have fit := Pattern.fitAll_iff.1 fits i (List.getElem?_eq_some_iff.1 isPattern).1 q isPattern
      rw [isToken, unfit] at fit
      cases fit
    · exact absurd (enough fits) (Nat.not_le.2 short)
  · rcases cases with ⟨taken, rest, rfl, -, fit, -⟩ | ⟨i, q, t, isPattern, isToken, unfit, fit, read⟩ | ⟨short, fit, read⟩
    · rw [Pattern.fitAll_iff.2 fit] at unfits
      cases unfits
    · refine .inl ⟨i, q, t, isPattern, isToken, unfit, fit, ?_⟩
      exact takes_of_read facing (orderly_accept patterns) (List.getElem?_eq_some_iff.1 isToken).1 read
    · have takes : p.Takes (accept patterns) (.error .endOfInput) ahead.length :=
        takes_of_read facing (orderly_accept patterns) (Nat.le_refl _) (by rw [read, drop_length])
      refine .inr ⟨short, fit, takes, ?_⟩
      rw [takes.2, facing.length]
      exact Nat.add_sub_cancel' facing.marker

/-- The start of a declaration that goes on with a value in place of its end: the third pattern does not fit, and only
taking the tokens one by one moves the parser, behind the token that does not fit. -/
theorem tokenTests_agree_declaration :
    let p := ofTokens [.spelled .basicType "int", .spelled .identifier "x", .spelled .operator "="]
    let patterns : List Pattern := ["int", .cls .identifier, ";"]
    p.Takes (wouldAccept patterns) (.ok false) 0 ∧ p.Takes (tryAccept patterns) (.ok false) 0 ∧
      p.Takes (accept patterns) (.error (.illegal (Pattern.expected ";") none)) 3 := by
  intro p patterns
  obtain ⟨fit, iff, would, tries, -, accepts⟩ :=
    @tokenTests_agree p _ patterns (facing_ofTokens _) (by decide) (by decide)
  have unfit : fit = false :=
    Bool.eq_false_iff.2 fun fits => absurd (iff.1 fits 2 (by decide) ";" rfl) (by decide)
  subst unfit
  refine ⟨would, tries, ?_⟩
  rcases accepts rfl with ⟨i, q, t, isPattern, isToken, unfit, -, takes⟩ | ⟨short, -⟩
  · rcases i with _ | _ | _ | i
    · cases isPattern
      cases isToken
      exact absurd unfit (by decide)
    · cases isPattern
      cases isToken
      exact absurd unfit (by decide)
    · cases isPattern
      exact takes
    · cases isPattern
  · exact absurd short (by decide)

end Parser

end JavaSource
