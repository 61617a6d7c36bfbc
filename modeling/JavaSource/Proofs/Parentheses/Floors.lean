import JavaSource.Proofs.Lexer.Genuine
import JavaSource.Proofs.Parser.Tokens
import JavaSource.Proofs.Termination.Pace

/-!
# How many parentheses a routine closes

While a routine reads, the tokens that are left close some number of parentheses more than they open: their surplus.
It grows with each parenthesis that the routine opens and falls with each that it closes. `Routine.ClosesAtMost` bounds
how far it falls. After a syntax error the parser may return to a marker that an inner attempt has moved; the bound
holds for the tokens behind such markers too.
-/

namespace JavaSource.Grammar

open List Outcome Text Pattern
open Routine (read_bind_ok read_monad_bind)

/-- How many more parentheses the tokens close than they open. -/
def surplus (tokens : List Token) : Int := countOf ")" tokens - countOf "(" tokens

/-- From the tokens `start` on to the tokens `ahead`, the surplus of what is left does not fall below the floor. -/
structure Above (floor : Int) (start ahead : List Token) : Prop where
  suffix : ahead <:+ start
  floor_le : ∀ between, between <:+ start → ahead <:+ between → floor ≤ surplus between

/-- The reading does not come below the floor, and hands down no marker below it. -/
structure Outcome.Above {α : Type} (o : Outcome α) (floor : Int) (start : List Token) : Prop where
  ok : ∀ a, o.result = .ok a → Grammar.Above floor start o.ahead
  handed : ∀ mark ∈ o.handed, Grammar.Above floor start mark

/-- **The condition** on a routine: it closes at most so many parentheses that it has not opened. -/
def Routine.ClosesAtMost (follow : Reader) (depth : Nat) {α : Type} (routine : Routine α) : Prop :=
  ∀ start : List Token, (∀ t ∈ start, t.Genuine) → (routine.read follow start).Above (surplus start - depth) start

/-! ## Tokens -/

variable {c : TokenClass}

section

variable {t : Token} {tokens front back : List Token}

theorem countOf_append (word : String) (front back : List Token) :
    countOf word (front ++ back) = countOf word front + countOf word back :=
  countP_append

variable {word : String}

theorem countOf_hit (is : isWord (some t) word = true) (tokens : List Token) :
    countOf word (t :: tokens) = countOf word tokens + 1 :=
  countP_cons_of_pos is

theorem countOf_miss (other : isWord (some t) word = false) (tokens : List Token) :
    countOf word (t :: tokens) = countOf word tokens :=
  countP_cons_of_neg (by simp [other])

theorem surplus_append (front back : List Token) : surplus (front ++ back) = surplus front + surplus back := by
  rw [surplus, surplus, surplus, countOf_append, countOf_append]
  omega

theorem surplus_opening (opens : t.value = ofString "(") (tokens : List Token) :
    surplus (t :: tokens) = surplus tokens - 1 := by
  have noClosing : isWord (some t) ")" = false := isWord_ne (isWord_some.2 opens) (by decide)
  rw [surplus, surplus, countOf_miss noClosing, countOf_hit (isWord_some.2 opens)]
  omega

theorem surplus_closing (closes : t.value = ofString ")") (tokens : List Token) :
    surplus (t :: tokens) = surplus tokens + 1 := by
  have noOpening : isWord (some t) "(" = false := isWord_ne (isWord_some.2 closes) (by decide)
  rw [surplus, surplus, countOf_miss noOpening, countOf_hit (isWord_some.2 closes)]
  omega

theorem surplus_other (noOpening : t.value ≠ ofString "(") (noClosing : t.value ≠ ofString ")")
    (tokens : List Token) : surplus (t :: tokens) = surplus tokens := by
  have opening : isWord (some t) "(" = false := Bool.eq_false_iff.2 (mt isWord_some.1 noOpening)
  have closing : isWord (some t) ")" = false := Bool.eq_false_iff.2 (mt isWord_some.1 noClosing)
  rw [surplus, surplus, countOf_miss opening, countOf_miss closing]

/-- A token of another class than the separators is no parenthesis. -/
theorem surplus_of_cls (genuine : t.Genuine) (isC : isOf (some t) c = true)
    (noSeparator : TokenClass.separator.isA c = false) (tokens : List Token) :
    surplus (t :: tokens) = surplus tokens := by
  have other {w : String} (fixed : Vocabulary.fixedClass? (ofString w) = some .separator) :
      t.value ≠ ofString w := by
    intro same
    have cls : t.cls = .separator := genuine _ (same ▸ fixed)
    have isSeparator : TokenClass.separator.isA c = true := by
      rw [← cls]
      exact isC
    exact Bool.false_ne_true (noSeparator.symm.trans isSeparator)
  exact surplus_other (other (by decide)) (other (by decide)) tokens

end

/-! ## Floors -/

namespace Above

variable {floor floor' : Int} {start middle ahead : List Token} {t : Token}

theorem here (le : floor ≤ surplus start) : Above floor start start := by
  refine ⟨suffix_rfl, fun between inner outer => ?_⟩
  rwa [inner.sublist.antisymm outer.sublist]

theorem mono (above : Above floor start ahead) (le : floor' ≤ floor) : Above floor' start ahead :=
  ⟨above.suffix, fun between inner outer => Int.le_trans le (above.floor_le between inner outer)⟩

theorem trans (first : Above floor start middle) (second : Above floor middle ahead) : Above floor start ahead := by
  refine ⟨second.suffix.trans first.suffix, fun between inner outer => ?_⟩
  rcases suffix_or_suffix_of_suffix inner first.suffix with inside | outside
  · exact second.floor_le between inside outer
  · exact first.floor_le between inner outside

theorem le (above : Above floor start ahead) : floor ≤ surplus ahead :=
  above.floor_le ahead above.suffix suffix_rfl

/-- One token further. -/
theorem behind (here : floor ≤ surplus (t :: ahead)) (there : floor ≤ surplus ahead) :
    Above floor (t :: ahead) ahead := by
  refine ⟨suffix_cons t ahead, fun between inner outer => ?_⟩
  rcases suffix_cons_iff.1 inner with rfl | inside
  · exact here
  · rwa [inside.sublist.antisymm outer.sublist]

/-- Down to what is left, the first tokens close no more than they open. -/
theorem take_le {taken rest : List Token} (above : Above (surplus (taken ++ rest)) (taken ++ rest) rest) (m : Nat) :
    countOf ")" (taken.take m) ≤ countOf "(" (taken.take m) := by
  have parts : taken ++ rest = taken.take m ++ (taken.drop m ++ rest) := by
    rw [← append_assoc, take_append_drop]
  have le := above.floor_le (taken.drop m ++ rest) (parts ▸ suffix_append _ _) (suffix_append _ _)
  rw [parts, surplus_append (taken.take m)] at le
  rw [surplus] at le
  omega

end Above

namespace Outcome.Above

variable {α β : Type} {o : Outcome α} {floor floor' : Int} {start middle : List Token}

theorem mono (above : o.Above floor start) (le : floor' ≤ floor) : o.Above floor' start :=
  ⟨fun a ok => (above.ok a ok).mono le, fun mark mem => (above.handed mark mem).mono le⟩

theorem from_start (above : o.Above floor middle) (reached : Grammar.Above floor start middle) : o.Above floor start
    :=
  ⟨fun a ok => reached.trans (above.ok a ok), fun mark mem => reached.trans (above.handed mark mem)⟩

theorem here (result : Except ParseFailure α) (le : floor ≤ surplus start) :
    Outcome.Above { result, ahead := start } floor start :=
  ⟨fun _ _ => .here le, fun _ mem => absurd mem (Option.not_mem_none _)⟩

theorem failed (failure : ParseFailure) (ahead : List Token) :
    ({ result := .error failure, ahead } : Outcome α).Above floor start := by
  refine ⟨fun a ok => ?_, fun _ mem => absurd mem (Option.not_mem_none _)⟩
  cases ok

theorem andThen {f : α → List Token → Outcome β} (above : o.Above floor start)
    (later : ∀ a, o.result = .ok a → (f a o.ahead).Above floor o.ahead) : (o.andThen f).Above floor start := by
  cases result : o.result with
  | error failure =>
    rw [andThen_error result]
    refine ⟨fun a ok => ?_, above.handed⟩
    cases ok
  | ok a =>
    have second := (later a result).from_start (above.ok a result)
    rw [andThen_ok result]
    refine ⟨second.ok, fun mark mem => ?_⟩
    rcases Option.or_eq_some_iff.1 mem with mem | ⟨-, mem⟩
    · exact second.handed mark mem
    · exact above.handed mark mem

theorem mark (above : o.Above floor start) (le : floor ≤ surplus start) : Grammar.Above floor start (o.mark start) :=
    by
  unfold Outcome.mark
  cases handed : o.handed with
  | none => exact .here le
  | some mark => exact above.handed mark handed

end Outcome.Above

variable {floor : Int} {start ahead : List Token}

theorem genuine_of_above (genuine : ∀ t ∈ start, t.Genuine)
    (above : Above floor start ahead) : ∀ t ∈ ahead, t.Genuine :=
  fun t mem => genuine t (above.suffix.subset mem)

/-! ## Patterns -/

/-- How many parentheses are open behind a token that fits the pattern, of those that may be closed. It is not known
where the token may be a parenthesis that was not opened. -/
def Pattern.behind (depth : Nat) : Pattern → Option Nat
  | .word value => if value = ofString "(" then some (depth + 1) else if value = ofString ")" then
      match depth with
      | 0 => none
      | depth + 1 => some depth else some depth
  | .cls c => if TokenClass.separator.isA c || TokenClass.endOfInput.isA c then none else some depth
  | .any => none

/-- How many parentheses are open behind tokens that fit the patterns one by one. -/
def Pattern.behindAll : Nat → List Pattern → Option Nat
  | depth, [] => some depth
  | depth, p :: patterns => (p.behind depth).bind fun depth => behindAll depth patterns

variable {p : Pattern} {t : Token}

/-- A token that fits a pattern changes the surplus as the pattern tells. -/
theorem Pattern.surplus_behind {depth depth' : Nat} (known : p.behind depth = some depth')
    (genuine : t.Genuine) (fits : p.fits (some t) = true) (tokens : List Token) :
    surplus (t :: tokens) + depth' = surplus tokens + depth := by
  cases p with
  | word value =>
    obtain rfl : t.value = value := Option.some.inj (eq_of_beq fits)
    rw [Pattern.behind.eq_def] at known
    dsimp only at known
    split at known
    · rename_i opens
      cases known
      rw [surplus_opening opens]
      omega
    · rename_i noOpening
      split at known
      · rename_i closes
        rw [surplus_closing closes]
        split at known
        · cases known
        · cases known
          omega
      · rename_i noClosing
        cases known
        rw [surplus_other noOpening noClosing]
  | cls c =>
    rw [Pattern.behind] at known
    split at known
    · cases known
    · rename_i allowed
      cases known
      rw [Bool.or_eq_true, not_or, Bool.not_eq_true] at allowed
      rw [surplus_of_cls genuine fits allowed.1]
  | any => cases known

/-- Behind the last token nothing fits a pattern of which the depth is known. -/
theorem Pattern.unfit_none {depth depth' : Nat} (known : p.behind depth = some depth') :
    p.fits none = false := by
  cases p with
  | word value => rfl
  | cls c =>
    rw [Pattern.behind] at known
    split at known
    · cases known
    · rename_i allowed
      rw [Bool.or_eq_true, not_or, Bool.not_eq_true, Bool.not_eq_true] at allowed
      exact allowed.2
  | any => cases known

/-! ## Steps -/

section

variable {follow : Reader} {α β : Type} {depth depth' : Nat}

variable {routine no yes : Routine α} {σ : Type} {p : Pattern} {patterns : List Pattern} {item : Routine β}

theorem atMost_mono (closes : routine.ClosesAtMost follow depth) (le : depth ≤ depth') :
    routine.ClosesAtMost follow depth' :=
  fun start genuine => (closes start genuine).mono (by omega)

theorem atMost_pure (a : α) : (pure a : Routine α).ClosesAtMost follow depth := fun _ _ => .here _ (by omega)

theorem atMost_fail (failure : ParseFailure) : (Routine.fail failure : Routine α).ClosesAtMost follow depth :=
  fun _ _ => .here _ (by omega)

theorem atMost_illegal (description : Text) : (illegal description : Routine α).ClosesAtMost follow depth :=
  fun _ _ => .here _ (by omega)

theorem atMost_bind {f : α → Routine β} (first : routine.ClosesAtMost follow 0)
    (rest : ∀ a, (f a).ClosesAtMost follow depth) : (routine >>= f).ClosesAtMost follow depth := by
  intro start genuine
  have above := first start genuine
  rw [read_monad_bind]
  refine (above.mono (by omega)).andThen fun a ok => ?_
  have reached := above.ok a ok
  have le := reached.le
  exact (rest a _ (genuine_of_above genuine reached)).mono (by omega)

theorem atMost_ite {c : Prop} {_ : Decidable c} (holds : yes.ClosesAtMost follow depth)
    (fails : no.ClosesAtMost follow depth) : (if c then yes else no).ClosesAtMost follow depth := by
  split
  · exact holds
  · exact fails

theorem atMost_map {f : α → β} (first : routine.ClosesAtMost follow 0) : (f <$> routine).ClosesAtMost follow depth :=
  atMost_bind first fun a => atMost_pure (f a)

theorem atMost_discard (first : routine.ClosesAtMost follow 0) : (discard routine).ClosesAtMost follow depth :=
  atMost_map first

/-- What is read otherwise starts no further out than the attempt. -/
theorem atMost_attempt {body otherwise : Routine α} (tried : body.ClosesAtMost follow 0)
    (other : otherwise.ClosesAtMost follow 0) : (Routine.attempt body .pure otherwise).ClosesAtMost follow depth := by
  refine atMost_mono (fun start genuine => ?_) (Nat.zero_le depth)
  have above := tried start genuine
  have back := above.mark (by omega)
  have le := back.le
  simp only [Routine.read]
  split
  · rename_i x result
    exact ⟨fun _ _ => above.ok x result, fun mark mem => Option.mem_some_iff.1 mem ▸ back⟩
  · split
    · exact ((other _ (genuine_of_above genuine back)).mono (by omega)).from_start back
    · exact .failed _ _

/-! ## Looks -/

variable {step : σ → List Token → Outcome (σ × Bool)}

theorem repeated_still
    (turn : ∀ s, ∃ result, step s ahead = { result, ahead }) (n : Nat) (s : σ) :
    ∃ result, repeated step n s ahead = { result, ahead } := by
  induction n generalizing s with
  | zero => exact ⟨_, rfl⟩
  | succ n ih =>
    obtain ⟨result, read⟩ := turn s
    rw [repeated, read]
    cases result with
    | error failure => exact ⟨_, rfl⟩
    | ok x =>
      obtain ⟨s, more⟩ := x
      rw [andThen_pure]
      cases more with
      | true => exact ih s
      | false => exact ⟨_, rfl⟩

/-- A routine that only looks leaves the tokens as they are. -/
theorem Routine.Quiet.read_still {routine : Routine α} (quiet : routine.Quiet) (ahead : List Token) :
    ∃ result, routine.read follow ahead = { result, ahead } := by
  induction routine with
  | pure a => exact ⟨_, rfl⟩
  | look i k ih => exact ih _ (quiet _)
  | loop s body k ihBody ihRest =>
    obtain ⟨result, read⟩ := repeated_still (fun s => ihBody s (quiet.1 s)) (ahead.length + 2) s
    rw [Routine.read, read]
    cases result with
    | error failure => exact ⟨_, rfl⟩
    | ok s =>
      rw [andThen_pure]
      exact ihRest s (quiet.2 s)
  | _ => exact quiet.elim

theorem atMost_quiet (quiet : routine.Quiet) : routine.ClosesAtMost follow depth := by
  intro start genuine
  obtain ⟨result, read⟩ := @Routine.Quiet.read_still follow _ _ quiet start
  rw [read]
  exact .here _ (by omega)

theorem atMost_peek : peek.ClosesAtMost follow depth := atMost_quiet (quiet_lookAt 0)

/-! ## Tokens that are taken -/

theorem above_behind (known : p.behind depth = some depth') (genuine : t.Genuine)
    (fits : p.fits (some t) = true) (ahead : List Token) :
    Above (surplus (t :: ahead) - depth) (t :: ahead) ahead := by
  have change := surplus_behind known genuine fits ahead
  exact .behind (by omega) (by omega)

variable {f : Text → Routine β}

theorem atMost_acceptFrom
    (known : Pattern.behindAll depth patterns = some depth') (rest : ∀ value, (f value).ClosesAtMost follow depth')
    (value : Text) : (acceptFrom value patterns >>= f).ClosesAtMost follow depth := by
  induction patterns generalizing depth value with
  | nil =>
    cases known
    exact rest value
  | cons p patterns ih =>
    obtain ⟨middle, here, known⟩ := Option.bind_eq_some_iff.1 known
    intro start genuine
    cases start with
    | nil => exact .failed _ _
    | cons t ahead =>
      have genuine := forall_mem_cons.1 genuine
      change (((if p.fits (some t) then acceptFrom t.value patterns else illegal p.expected) >>= f).read
        follow ahead).Above _ _
      cases fits : p.fits (some t) with
      | false => exact .failed _ _
      | true =>
        have change := surplus_behind here genuine.1 fits ahead
        exact ((ih known t.value ahead genuine.2).mono (by omega)).from_start (above_behind here genuine.1 fits ahead)

/-- Tokens are taken that fit patterns. -/
theorem atMost_accept (known : Pattern.behindAll depth (p :: patterns) = some depth')
    (rest : ∀ value, (f value).ClosesAtMost follow depth') : (accept (p :: patterns) >>= f).ClosesAtMost follow depth :=
  atMost_acceptFrom known rest []

theorem atMost_discardAccept {f : PUnit → Routine β}
    (known : Pattern.behindAll depth (p :: patterns) = some depth') (rest : ∀ u, (f u).ClosesAtMost follow depth') :
    (discard (accept (p :: patterns)) >>= f).ClosesAtMost follow depth := by
  intro start genuine
  have same : (discard (accept (p :: patterns)) >>= f).read follow start =
      (accept (p :: patterns) >>= fun _ => f ⟨⟩).read follow start := by
    simp only [read_monad_bind, read_discard, andThen_assoc, andThen_pure]
  rw [same]
  exact atMost_accept known (fun _ => rest ⟨⟩) start genuine

/-- Tokens are taken that are no parentheses. -/
theorem atMost_acceptPlain
    (known : Pattern.behindAll 0 (p :: patterns) = some 0) : (accept (p :: patterns)).ClosesAtMost follow depth := by
  refine atMost_mono (fun start genuine => ?_) (Nat.zero_le depth)
  have same : (accept (p :: patterns)).read follow start = (accept (p :: patterns) >>= pure).read follow start := by
    rw [read_monad_bind]
    exact (andThen_result _).symm
  rw [same]
  exact atMost_accept known (fun value => atMost_pure value) start genuine

/-- Tokens that fit patterns change the surplus as the patterns tell. -/
theorem Pattern.above_fitAll
    (known : Pattern.behindAll depth patterns = some depth') (genuine : ∀ t ∈ start, t.Genuine)
    (fit : fitAll patterns start = true) :
    ∃ taken ahead, start = taken ++ ahead ∧ taken.length = patterns.length ∧
      Above (surplus start - depth) start ahead ∧ surplus start + depth' = surplus ahead + depth := by
  induction patterns generalizing start depth with
  | nil =>
    cases known
    exact ⟨[], start, rfl, rfl, .here (by omega), rfl⟩
  | cons p patterns ih =>
    obtain ⟨middle, here, known⟩ := Option.bind_eq_some_iff.1 known
    rw [fitAll, Bool.and_eq_true] at fit
    cases start with
    | nil => exact absurd ((unfit_none here).symm.trans fit.1) Bool.false_ne_true
    | cons t ahead =>
      have genuine := forall_mem_cons.1 genuine
      have change := surplus_behind here genuine.1 fit.1 ahead
      obtain ⟨taken, later, rfl, length, above, total⟩ := ih known genuine.2 fit.2
      refine ⟨t :: taken, later, rfl, congrArg Nat.succ length, ?_, by omega⟩
      exact (above_behind here genuine.1 fit.1 _).trans (above.mono (by omega))

theorem read_takeMany_append {taken : List Token} :
    (takeMany taken.length).read follow (taken ++ ahead) = .ok () ahead := by
  induction taken with
  | nil => rfl
  | cons t taken ih => exact ih

/-- Tokens are taken if they fit patterns. -/
theorem atMost_tryAccept {f : Bool → Routine β}
    (known : Pattern.behindAll depth (p :: patterns) = some depth') (yes : (f true).ClosesAtMost follow depth')
    (no : (f false).ClosesAtMost follow depth) : (tryAccept (p :: patterns) >>= f).ClosesAtMost follow depth := by
  intro start genuine
  cases fit : fitAll (p :: patterns) start with
  | false =>
    rw [read_bind_ok (read_tryAccept_apart (cons_ne_nil _ _) fit ..)]
    exact no start genuine
  | true =>
    obtain ⟨taken, ahead, rfl, length, above, total⟩ := above_fitAll known genuine fit
    have read : (tryAccept (p :: patterns)).read follow (taken ++ ahead) = .ok true ahead := by
      rw [tryAccept, read_bind_ok (read_wouldAccept (cons_ne_nil _ _) ..), fit,
        if_pos rfl, read_monad_bind, ← length, read_takeMany_append, andThen_pure]
      rfl
    rw [read_bind_ok read]
    exact ((yes ahead (genuine_of_above genuine above)).mono (by omega)).from_start above

theorem atMost_tryPlain (known : Pattern.behindAll 0 (p :: patterns) = some 0) :
    (tryAccept (p :: patterns)).ClosesAtMost follow depth := by
  refine atMost_mono (fun start genuine => ?_) (Nat.zero_le depth)
  have same : (tryAccept (p :: patterns)).read follow start =
      (tryAccept (p :: patterns) >>= pure).read follow start := by
    rw [read_monad_bind]
    exact (andThen_result _).symm
  rw [same]
  exact atMost_tryAccept known (atMost_pure true) (atMost_pure false) start genuine

/-- A test of the next token that no parenthesis passes. -/
def Plain (test : Option Token → Bool) : Prop :=
  ∀ t : Token, t.Genuine → test (some t) = true → ∀ tokens, surplus (t :: tokens) = surplus tokens

theorem plain_isAmong {texts : List Text}
    (known : texts.all (fun value => Pattern.behind 0 (.word value) = some 0) = true) : Plain (isAmong · texts) := by
  intro t genuine among tokens
  have keeps := of_decide_eq_true (all_eq_true.1 known _ (isAmong_some.1 among))
  have change := surplus_behind keeps genuine (beq_self_eq_true _) tokens
  omega

theorem plain_isOf (noSeparator : TokenClass.separator.isA c = false) : Plain (isOf · c) :=
  fun _ genuine isC tokens => surplus_of_cls genuine isC noSeparator tokens

/-- A token is taken after a test of it. -/
theorem atMost_peekTake {test : Option Token → Bool} {f : Token → Routine α} {g : Option Token → Routine α}
    (plain : Plain test) (yes : ∀ t, (f t).ClosesAtMost follow depth) (no : ∀ t, (g t).ClosesAtMost follow depth) :
    (peek >>= fun t => if test t = true then take >>= f else g t).ClosesAtMost follow depth := by
  intro start genuine
  rw [read_bind_ok (read_peek ..)]
  cases passes : test start[0]? with
  | false => exact no _ start genuine
  | true =>
    cases start with
    | nil => exact .failed _ _
    | cons t ahead =>
      have genuine := forall_mem_cons.1 genuine
      have same := plain t genuine.1 passes ahead
      have above : Above (surplus (t :: ahead) - depth) (t :: ahead) ahead := .behind (by omega) (by omega)
      exact ((yes t ahead genuine.2).mono (by omega)).from_start above

/-- A token is taken after a look at it and at those behind it. -/
theorem atMost_wouldTake (known : p.behind depth = some depth') (holds : yes.ClosesAtMost follow depth')
    (fails : no.ClosesAtMost follow depth) : (wouldAccept (p :: patterns) >>= fun fits =>
      if fits = true then discard take >>= fun _ => yes else no).ClosesAtMost follow depth := by
  intro start genuine
  rw [read_bind_ok (read_wouldAccept (cons_ne_nil _ _) ..)]
  cases fits : fitAll (p :: patterns) start with
  | false => exact fails start genuine
  | true =>
    cases start with
    | nil => exact .failed _ _
    | cons t ahead =>
      have genuine := forall_mem_cons.1 genuine
      rw [fitAll, Bool.and_eq_true] at fits
      have change := surplus_behind known genuine.1 fits.1 ahead
      exact ((holds ahead genuine.2).mono (by omega)).from_start (above_behind known genuine.1 fits.1 ahead)

/-- A token is taken that is no parenthesis, or there is a syntax error. -/
theorem atMost_take {f : Token → Routine α} (rest : ∀ t,
      (∃ p : Pattern, p.fits (some t) = true ∧ p.behind depth = some depth) ∧ (f t).ClosesAtMost follow depth ∨
        ∃ description, f t = illegal description) : (take >>= f).ClosesAtMost follow depth := by
  intro start genuine
  cases start with
  | nil => exact .failed _ _
  | cons t ahead =>
    have genuine := forall_mem_cons.1 genuine
    change ((f t).read follow ahead).Above _ _
    rcases rest t with ⟨⟨p, fits, known⟩, closes⟩ | ⟨description, fails⟩
    · have change := surplus_behind known genuine.1 fits ahead
      exact ((closes ahead genuine.2).mono (by omega)).from_start (above_behind known genuine.1 fits ahead)
    · rw [fails]
      exact .failed _ _

/-! ## Repetition -/

/-- A loop does not come below the floor, if at the start of each turn so many parentheses more may be closed. -/
theorem repeated_above (spare : Nat)
    (turn : ∀ s start, (∀ t ∈ start, t.Genuine) → floor + spare ≤ surplus start → (step s start).Above floor start ∧
      ∀ s', (step s start).result = .ok (s', true) → floor + spare ≤ surplus (step s start).ahead)
    (n : Nat) (s : σ) (genuine : ∀ t ∈ start, t.Genuine) (le : floor + spare ≤ surplus start) :
    (repeated step n s start).Above floor start := by
  induction n generalizing s start with
  | zero => exact .failed _ _
  | succ n ih =>
    obtain ⟨above, goes⟩ := turn s start genuine le
    refine above.andThen fun (s', more) ok => ?_
    cases more with
    | true => exact ih s' (genuine_of_above genuine (above.ok _ ok)) (goes s' ok)
    | false => exact .here _ (above.ok _ ok).le

theorem atMost_loop {s : σ} {body : σ → Routine (σ × Bool)} {k : σ → Routine α}
    (turn : ∀ s, (body s).ClosesAtMost follow 0) (rest : ∀ s, (k s).ClosesAtMost follow depth) :
    (Routine.loop s body k).ClosesAtMost follow depth := by
  intro start genuine
  have turns : (repeated (fun s ahead => (body s).read follow ahead) (start.length + 2) s start).Above
      (surplus start) start := by
    refine repeated_above 0 (fun s later genuine le => ?_) _ s genuine (by omega)
    have above : ((body s).read follow later).Above (surplus start) later := (turn s later genuine).mono (by omega)
    refine ⟨above, fun s' ok => ?_⟩
    have le := (above.ok _ ok).le
    omega
  refine (turns.mono (by omega)).andThen fun s' ok => ?_
  have reached := turns.ok s' ok
  have le := reached.le
  exact (rest s' _ (genuine_of_above genuine reached)).mono (by omega)

theorem atMost_many {item : Routine (β × Bool)} (turn : item.ClosesAtMost follow 0) :
    (many item).ClosesAtMost follow depth :=
  atMost_loop (fun _ => atMost_bind turn fun _ => atMost_pure _) fun _ => atMost_pure _

theorem atMost_separated (known : Pattern.behindAll 0 [p] = some 0)
    (turn : item.ClosesAtMost follow 0) : (separated p item).ClosesAtMost follow depth :=
  atMost_many (atMost_bind turn fun _ => atMost_tryAccept known (atMost_pure _) (atMost_pure _))

theorem atMost_whileTrue {test : Routine Bool} (tests : test.ClosesAtMost follow 0)
    (turn : item.ClosesAtMost follow 0) : (whileTrue test item).ClosesAtMost follow depth := by
  refine atMost_loop (fun _ => atMost_bind tests fun _ => ?_) fun _ => atMost_pure _
  exact atMost_ite (atMost_bind turn fun _ => atMost_pure _) (atMost_pure _)

theorem atMost_manyUntil {stop : Pattern} (turn : item.ClosesAtMost follow 0) :
    (manyUntil stop item).ClosesAtMost follow depth :=
  atMost_whileTrue (atMost_bind (atMost_quiet (looks_wouldAccept _ _).quiet) fun _ => atMost_pure _) turn

theorem atMost_then {_ : Decidable (true = true)} (closes : yes.ClosesAtMost follow depth) :
    (if true = true then yes else no).ClosesAtMost follow depth := by
  rwa [if_pos rfl]

theorem atMost_else {_ : Decidable (false = true)} (closes : no.ClosesAtMost follow depth) :
    (if false = true then yes else no).ClosesAtMost follow depth := by
  rwa [if_neg Bool.false_ne_true]

end

end JavaSource.Grammar
