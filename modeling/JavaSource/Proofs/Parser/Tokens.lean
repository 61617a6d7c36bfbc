import JavaSource.Proofs.Parser.Reading

/-!
# What simple routines read

The tests and the taking of single tokens, as readings of the tokens ahead.
-/

namespace JavaSource.Grammar

open List Routine Outcome Pattern

/-- Whether the tokens fit the patterns one by one. -/
def Pattern.fitAll : List Pattern → List Token → Bool
  | [], _ => true
  | p :: rest, ahead => p.fits ahead[0]? && fitAll rest ahead.tail

/-! ## Single tokens -/

variable {t : Token}

/-- The class of a token decides what it is. -/
theorem isOf_of_cls {c d : TokenClass} {b : Bool} (cls : t.cls = c) (is : c.isA d = b) : isOf (some t) d = b := by
  rw [isOf, classOf, Option.map_some, cls]
  exact is

variable {word : Text}

theorem Pattern.unfit_word (ne : t.value ≠ word) : fits (some t) (.word word) = false := by
  rw [fits, valueOf, Option.map_some]
  exact beq_false_of_ne fun same => ne (Option.some.inj same)

theorem Pattern.unfit_first (ne : t.value ≠ word) (patterns : List Pattern)
    (ahead : List Token) : fitAll (.word word :: patterns) (t :: ahead) = false := by
  rw [fitAll, getElem?_cons_zero, unfit_word ne, Bool.false_and]

theorem isWord_some {s : String} : isWord (some t) s = true ↔ t.value = Text.ofString s := by
  simp [isWord, valueOf]

/-- A token is one word only. -/
theorem isWord_ne {found : Option Token} {v w : String} (is : isWord found v = true)
    (ne : Text.ofString v ≠ Text.ofString w) : isWord found w = false := by
  cases found with
  | none => cases is
  | some t =>
    rw [isWord_some] at is
    rw [Bool.eq_false_iff, Ne, isWord_some, is]
    exact ne

variable {texts : List Text}

theorem isAmong_some : isAmong (some t) texts = true ↔ t.value ∈ texts := by
  simp [isAmong, valueOf]

theorem not_isAmong (apart : t.value ∉ texts) : isAmong (some t) texts = false := by
  rw [Bool.eq_false_iff, ne_eq, isAmong_some]
  exact apart

/-! ## Routines -/

theorem Outcome.andThen_result {α : Type} (o : Outcome α) :
    (o.andThen fun a ahead => { result := .ok a, ahead }) = o := by
  cases result : o.result with
  | error failure => rw [andThen_error result, ← result]
  | ok a =>
    rw [andThen_ok result, ← result]
    simp only [Option.none_or]

section

variable {follow : Reader} {α β : Type}

@[simp] theorem read_parse (r : Rule) (ahead : List Token) : (parse r).read follow ahead = follow r ahead :=
  (follow r ahead).andThen_result

@[simp] theorem read_peek (ahead : List Token) : peek.read follow ahead = .ok ahead[0]? ahead := rfl

@[simp] theorem read_illegal (description : Text) (ahead : List Token) :
    (illegal description : Routine α).read follow ahead =
      { result := .error (.illegal description ahead[0]?), ahead } := rfl

@[simp] theorem read_map (f : α → β) (routine : Routine α) (ahead : List Token) : (f <$> routine).read follow ahead =
      (routine.read follow ahead).andThen fun a ahead => .ok (f a) ahead :=
  read_bind routine _ ahead

@[simp] theorem read_discard (routine : Routine α) (ahead : List Token) : (discard routine).read follow ahead =
      (routine.read follow ahead).andThen fun _ ahead => .ok ⟨⟩ ahead :=
  read_bind routine _ ahead

theorem read_wouldAcceptFrom (patterns : List Pattern) (i : Nat) (ahead : List Token) :
    (wouldAcceptFrom i patterns).read follow ahead = .ok (fitAll patterns (ahead.drop i)) ahead := by
  induction patterns generalizing i with
  | nil => rfl
  | cons p rest ih =>
    have look : (lookAt i).read follow ahead = .ok ((ahead.drop i)[0]?) ahead := by
      rw [getElem?_drop, Nat.add_zero]
      rfl
    rw [wouldAcceptFrom, Routine.read_bind_ok look, fitAll]
    cases p.fits (ahead.drop i)[0]? with
    | false => rfl
    | true =>
      have later := ih (i + 1)
      rw [Int.natCast_add, Int.natCast_one] at later
      rw [if_pos rfl, later, Bool.true_and, tail_drop]

/-- A test of the next tokens tells whether they fit, and takes none. -/
theorem read_wouldAccept {patterns : List Pattern} (nonempty : patterns ≠ []) (ahead : List Token) :
    (wouldAccept patterns).read follow ahead = .ok (fitAll patterns ahead) ahead := by
  rw [wouldAccept, if_neg (by simp [nonempty])]
  exact read_wouldAcceptFrom patterns 0 ahead

@[simp] theorem read_wouldAccept_one (p : Pattern) (ahead : List Token) :
    (wouldAccept [p]).read follow ahead = .ok (p.fits ahead[0]?) ahead := by
  rw [read_wouldAccept (cons_ne_nil _ _), fitAll, fitAll, Bool.and_true]

@[simp] theorem read_tryAccept_cons (p : Pattern) (t : Token) (ahead : List Token) :
    (tryAccept [p]).read follow (t :: ahead) =
      if p.fits (some t) then .ok true ahead
      else .ok false (t :: ahead) := by
  rw [tryAccept, read_bind_ok (read_wouldAccept_one ..), getElem?_cons_zero]
  cases fits : p.fits (some t) <;> rfl

variable {ahead : List Token}

/-- Tokens that do not fit are not taken. -/
theorem read_tryAccept_apart {patterns : List Pattern} (nonempty : patterns ≠ [])
    (unfit : fitAll patterns ahead = false) :
    (tryAccept patterns).read follow ahead = .ok false ahead := by
  rw [tryAccept, read_bind_ok (read_wouldAccept nonempty ..), unfit]
  rfl

variable {p : Pattern}

theorem read_tryAccept_unfit (unfit : p.fits ahead[0]? = false) :
    (tryAccept [p]).read follow ahead = .ok false ahead := by
  refine read_tryAccept_apart (cons_ne_nil _ _) ?_
  rw [fitAll, unfit, Bool.false_and]

@[simp] theorem read_accept_cons (p : Pattern) (t : Token) (ahead : List Token) :
    (accept [p]).read follow (t :: ahead) =
      if p.fits (some t) then .ok t.value ahead
      else { result := .error (.illegal p.expected ahead[0]?), ahead } := by
  change (if p.fits (some t) then _ else _ : Routine Text).read follow ahead = _
  cases fits : p.fits (some t) <;> rfl

@[simp] theorem read_annotationAt (ahead : List Token) : (annotationAt 0).read follow ahead =
      .ok (isOf ahead[0]? .atSign && !isWord ahead[1]? "interface") ahead := by
  change (if isOf ahead[0]? .atSign then _ else _ : Routine Bool).read follow ahead = _
  cases isOf ahead[0]? .atSign <;> rfl

@[simp] theorem read_annotationDeclarationAt (ahead : List Token) : (annotationDeclarationAt 0).read follow ahead =
      .ok (isOf ahead[0]? .atSign && isWord ahead[1]? "interface") ahead := by
  change (if isOf ahead[0]? .atSign then _ else _ : Routine Bool).read follow ahead = _
  cases isOf ahead[0]? .atSign <;> rfl

/-- What is taken fits. -/
theorem fits_of_accept {value : Text}
    (ok : ((accept [p]).read follow ahead).result = .ok value) : p.fits ahead[0]? = true := by
  cases ahead with
  | nil => cases ok
  | cons t rest =>
    rw [read_accept_cons] at ok
    cases fits : p.fits (some t) with
    | true => exact fits
    | false =>
      rw [fits] at ok
      cases ok

theorem read_loop_done {σ : Type} {s : σ} {body : σ → Routine (σ × Bool)}
    (stops : (body s).read follow ahead = .ok (s, false) ahead) :
    (Routine.loop s body .pure).read follow ahead = .ok s ahead := by
  rw [Routine.read, repeated_done stops, andThen_pure, Routine.read]

/-- `Turns test item ahead xs last`: as long as the test holds, from `ahead` on, the items `xs` are read, up
to the tokens `last`. -/
inductive Turns (follow : Reader) (test : Routine Bool)
    (item : Routine β) : List Token → List β → List Token → Prop where
  | done {ahead : List Token} : test.read follow ahead = { result := .ok false, ahead } →
    Turns follow test item ahead [] ahead
  | more {ahead later last : List Token} {x : β} {xs : List β} :
    test.read follow ahead = { result := .ok true, ahead } →
    item.read follow ahead = { result := .ok x, ahead := later } →
    Turns follow test item later xs last → Turns follow test item ahead (x :: xs) last

variable {test : Routine Bool}

/-- A loop gives the items that are read turn by turn, if there are turns enough. -/
theorem Turns.read_whileTrue {item : Routine β} {last : List Token}
    {xs : List β} (turns : Turns follow test item ahead xs last) (enough : xs.length ≤ ahead.length + 1) :
    (whileTrue test item).read follow ahead = .ok xs last := by
  have run (n : Nat) (bound : xs.length < n) (acc : List β) :
      repeated (fun acc ahead => Routine.read follow (do
        if ← test then
          let x ← item
          return (x :: acc, true)
        else return (acc, false)) ahead) n acc ahead = .ok (xs.reverse ++ acc) last := by
    clear enough
    induction turns generalizing n acc with
    | done stops =>
      obtain ⟨m, rfl⟩ : ∃ m, n = m + 1 := ⟨n - 1, by simp at bound; omega⟩
      refine repeated_done ?_ m
      simp only [read_monad_bind, stops, andThen_pure, Bool.false_eq_true, if_false,
        read_monad_pure, reverse_nil, nil_append]
    | @more _ _ _ x _ goes reads _ ih =>
      obtain ⟨m, rfl⟩ : ∃ m, n = m + 1 := ⟨n - 1, by simp at bound; omega⟩
      rw [reverse_cons, append_assoc]
      refine (repeated_more ?_ m).trans (ih m (Nat.lt_of_succ_lt_succ bound) (x :: acc))
      simp only [read_monad_bind, goes, andThen_pure, if_true, reads,
        read_monad_pure]
  rw [whileTrue, Routine.read, run _ (by omega), andThen_pure, Routine.read, append_nil, reverse_reverse]

theorem read_whileTrue_done
    (stops : test.read follow ahead = .ok false ahead) (item : Routine β) :
    (whileTrue test item).read follow ahead = .ok [] ahead :=
  Turns.read_whileTrue (.done stops) (Nat.zero_le _)

end

end JavaSource.Grammar
