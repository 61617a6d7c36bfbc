import JavaSource.Proofs.Layout.Routines

/-!
# Combinators and layout

What each combinator of the grammar needs of its parts to go through the tokens of two parsers in the same way.
Tokens are tested by their classes and values only, and these are the same for tokens that are paired.
-/

namespace JavaSource.Grammar

open Routine

variable {docs : Bool} {T : Token → Token → Prop} {α β : Type}

/-! ## Tokens -/

section Tokens

variable {t u : Option Token}

theorem valueOf_same (same : Same docs t u) : valueOf t = valueOf u := by
  have plain : valueOf t = valueOf (Laid.plain docs t) := by cases t <;> rfl
  rw [plain, same]
  cases u <;> rfl

theorem classOf_same (same : Same docs t u) : classOf t = classOf u := by
  have plain : classOf t = classOf (Laid.plain docs t) := by cases t <;> rfl
  rw [plain, same]
  cases u <;> rfl

theorem isOf_same (same : Same docs t u) (c : TokenClass) : isOf t c = isOf u c := by
  rw [isOf, isOf, classOf_same same]

theorem isWord_same (same : Same docs t u) (s : String) : isWord t s = isWord u s := by
  rw [isWord, isWord, valueOf_same same]

theorem isAmong_same (same : Same docs t u) (texts : List Text) : isAmong t texts = isAmong u texts := by
  rw [isAmong, isAmong, valueOf_same same]

theorem fits_same (same : Same docs t u) (p : Pattern) : p.fits t = p.fits u := by
  cases p with
  | word value => rw [Pattern.fits, Pattern.fits, valueOf_same same]
  | cls c => exact isOf_same same c
  | any => rfl

/-- The documentation before tokens is the same, if it is not left aside. -/
theorem javadocOf_same (same : Same docs t u) :
    (if docs then javadocOf t else none) = if docs then javadocOf u else none := by
  have plain (t : Option Token) : (if docs then javadocOf t else none) = javadocOf (Laid.plain docs t) := by
    cases t with
    | none => exact ite_self none
    | some t => rfl
  rw [plain, plain, same]

theorem value_same {t u : Token} (same : Same docs t u) : t.value = u.value := by
  have plain : Laid.plain docs t = Laid.plain docs u := same
  have values := congrArg Token.value plain
  exact values

theorem same_some [Laid α] {x y : α} (same : Same docs x y) : Same docs (some x) (some y) :=
  congrArg some same

end Tokens

/-! ## Simple routines -/

section Simple

variable {R : α → α → Prop} {S : β → β → Prop}

variable {routine' routine : Routine β}

theorem alike_bind {f f' : β → Routine α} (first : routine.Alike docs T S routine')
    (rest : ∀ x y, S x y → (f x).Alike docs T R (f' y)) : (routine >>= f).Alike docs T R (routine' >>= f') := by
  change (routine.bind f).Alike docs T R (routine'.bind f')
  induction first with
  | pure same => exact rest _ _ same
  | fail same => exact .fail same
  | next _ ih => exact .next fun t u same => ih t u same rest
  | look _ ih => exact .look fun t u same => ih t u same rest
  | call _ ih => exact .call fun x y same => ih x y same rest
  | attempt S tried _ _ _ ihRest ihOther =>
    exact .attempt S tried (fun x y same => ihRest x y same rest) (ihOther rest)
  | loop S start turn _ _ ihRest => exact .loop S start turn fun s s' same => ihRest s s' same rest

theorem Routine.Alike.mono {R' : α → α → Prop} {routine routine' : Routine α}
    (alike : routine.Alike docs T R routine')
    (weaker : ∀ x y, R x y → R' x y) : routine.Alike docs T R' routine' := by
  induction alike with
  | pure same => exact .pure (weaker _ _ same)
  | fail same => exact .fail same
  | next _ ih => exact .next fun t u same => ih t u same weaker
  | look _ ih => exact .look fun t u same => ih t u same weaker
  | call _ ih => exact .call fun x y same => ih x y same weaker
  | attempt S tried _ _ _ ihRest ihOther =>
    exact .attempt S tried (fun x y same => ihRest x y same weaker) (ihOther weaker)
  | loop S start turn _ _ ihRest => exact .loop S start turn fun s s' same => ihRest s s' same weaker

/-- One routine after the other, where the first gives values that are the same up to layout. -/
theorem alike_bind_same [Laid β] {f f' : β → Routine α} (first : routine.Alike docs T (Same docs) routine')
    (rest : ∀ x y, Same docs x y → (f x).Alike docs T R (f' y)) : (routine >>= f).Alike docs T R (routine' >>= f') :=
  alike_bind first rest

/-- One routine after the other, where the first gives the same value. -/
theorem alike_bind_eq {f f' : β → Routine α} (first : routine.Alike docs T Eq routine')
    (rest : ∀ x, (f x).Alike docs T R (f' x)) : (routine >>= f).Alike docs T R (routine' >>= f') := by
  refine alike_bind first ?_
  rintro x _ rfl
  exact rest x

theorem alike_ite {c c' : Prop} {_ : Decidable c} {_ : Decidable c'} {yes yes' no no' : Routine α} (test : c ↔ c')
    (yes_alike : yes.Alike docs T R yes') (no_alike : no.Alike docs T R no') :
    (if c then yes else no).Alike docs T R (if c' then yes' else no') := by
  by_cases holds : c
  · rw [if_pos holds, if_pos (test.1 holds)]
    exact yes_alike
  · rw [if_neg holds, if_neg fun holds' => holds (test.2 holds')]
    exact no_alike

theorem alike_attempt {body body' otherwise otherwise' : Routine α}
    (tried : body.Alike docs T R body') (other : otherwise.Alike docs T R otherwise') :
    (Routine.attempt body .pure otherwise).Alike docs T R (.attempt body' .pure otherwise') :=
  .attempt R tried (fun _ _ same => .pure same) other

theorem alike_illegal (description : Text) : (illegal description).Alike docs T R (illegal description) :=
  .look fun _ _ same => .fail (.illegal description same)

theorem alike_pure {x y : α} (same : R x y) : (Pure.pure x : Routine α).Alike docs T R (Pure.pure y) := .pure same

theorem alike_parse_of {r : Rule} {R : r.Result → r.Result → Prop} (same : ∀ x y, r.Same docs x y → R x y) :
    (parse r).Alike docs T R (parse r) :=
  .call fun x y alike => .pure (same x y alike)

theorem alike_parse (r : Rule) : (parse r).Alike docs T (r.Same docs) (parse r) :=
  alike_parse_of fun _ _ same => same

theorem alike_map_same [Laid β] {f f' : β → α}
    (first : routine.Alike docs T (Same docs) routine') (maps : ∀ x y, Same docs x y → R (f x) (f' y)) :
    (f <$> routine).Alike docs T R (f' <$> routine') :=
  alike_bind first fun x y same => .pure (maps x y same)

theorem alike_discard [Laid β] (first : routine.Alike docs T (Same docs) routine') :
    (discard routine).Alike docs T (Same docs) (discard routine') :=
  alike_bind first fun _ _ _ => .pure rfl

theorem alike_takeMany (n : Nat) : (takeMany n).Alike docs T (Same docs) (takeMany n) := by
  induction n with
  | zero => exact .pure rfl
  | succ n ih => exact .next fun _ _ _ => ih

/-- Tokens that are paired are the same up to layout. -/
class Pairs (docs : outParam Bool) (T : Token → Token → Prop) : Prop where
  same : ∀ t u, T t u → Same docs t u

variable [Pairs docs T]

theorem alike_take : take.Alike docs T (Same docs) take :=
  .next fun t u same => .pure (Pairs.same t u same)

theorem same_of_rel {t u : Option Token} (paired : Option.Rel T t u) : Same docs t u := by
  cases paired with
  | none => rfl
  | some same => exact same_some (Pairs.same _ _ same)

theorem alike_lookAt (i : Int) : (lookAt i).Alike docs T (Same docs) (lookAt i) :=
  .look fun _ _ paired => .pure (same_of_rel paired)

theorem alike_peek : peek.Alike docs T (Same docs) peek := alike_lookAt 0

theorem alike_acceptFrom (value : Text) (patterns : List Pattern) :
    (acceptFrom value patterns).Alike docs T (Same docs) (acceptFrom value patterns) := by
  induction patterns generalizing value with
  | nil => exact .pure rfl
  | cons p rest ih =>
    apply alike_bind_same alike_take
    intro t u same
    apply alike_ite (by rw [fits_same (same_some same)]) _ (alike_illegal _)
    rw [value_same same]
    exact ih _

theorem alike_accept (patterns : List Pattern) : (accept patterns).Alike docs T (Same docs) (accept patterns) :=
  alike_ite Iff.rfl (.fail (.other _ rfl)) (alike_acceptFrom [] patterns)

theorem alike_wouldAcceptFrom (i : Int) (patterns : List Pattern) :
    (wouldAcceptFrom i patterns).Alike docs T (Same docs) (wouldAcceptFrom i patterns) := by
  induction patterns generalizing i with
  | nil => exact .pure rfl
  | cons p rest ih =>
    apply alike_bind_same (alike_lookAt i)
    intro t u same
    exact alike_ite (by rw [fits_same same]) (ih _) (.pure rfl)

theorem alike_wouldAccept (patterns : List Pattern) :
    (wouldAccept patterns).Alike docs T (Same docs) (wouldAccept patterns) :=
  alike_ite Iff.rfl (.fail (.other _ rfl)) (alike_wouldAcceptFrom 0 patterns)

theorem alike_tryAccept (patterns : List Pattern) :
    (tryAccept patterns).Alike docs T (Same docs) (tryAccept patterns) := by
  refine alike_bind_eq (alike_wouldAccept patterns) fun fits => ?_
  exact alike_ite Iff.rfl (alike_bind_same (alike_takeMany _) fun _ _ _ => .pure rfl) (.pure rfl)

theorem alike_annotationAt (i : Int) : (annotationAt i).Alike docs T (Same docs) (annotationAt i) := by
  apply alike_bind_same (alike_lookAt i)
  intro t u same
  apply alike_ite (by rw [isOf_same same]) _ (.pure rfl)
  apply alike_bind_same (alike_lookAt _)
  intro v w same
  exact .pure (congrArg not (isWord_same same _))

theorem alike_annotationDeclarationAt (i : Int) :
    (annotationDeclarationAt i).Alike docs T (Same docs) (annotationDeclarationAt i) := by
  apply alike_bind_same (alike_lookAt i)
  intro t u same
  apply alike_ite (by rw [isOf_same same]) _ (.pure rfl)
  apply alike_bind_same (alike_lookAt _)
  intro v w same
  exact .pure (isWord_same same _)

end Simple

/-! ## Repetition -/

section Repetition

variable [Laid β] {item item' : Routine β}

theorem same_refl (x : β) : Same docs x x := rfl

theorem same_cons {x y : β} {xs ys : List β} (head : Same docs x y) (tail : Same docs xs ys) :
    Same docs (x :: xs) (y :: ys) :=
  congrArg₂ List.cons head tail

theorem same_reverse {xs ys : List β} (same : Same docs xs ys) : Same docs xs.reverse ys.reverse := by
  change xs.reverse.map _ = ys.reverse.map _
  rw [List.map_reverse, List.map_reverse, show xs.map _ = ys.map _ from same]

theorem alike_many {item item' : Routine (β × Bool)} (items : item.Alike docs T (Same docs) item') :
    (many item).Alike docs T (Same docs) (many item') := by
  refine .loop (Same docs) rfl ?_ fun acc acc' same => .pure (same_reverse same)
  intro acc acc' same
  apply alike_bind items
  rintro ⟨x, more⟩ ⟨y, more'⟩ pair
  obtain ⟨head, rfl⟩ := Prod.mk.inj pair
  exact .pure ⟨same_cons head same, rfl⟩

theorem alike_whileTrue {test test' : Routine Bool} (tests : test.Alike docs T (Same docs) test')
    (items : item.Alike docs T (Same docs) item') :
    (whileTrue test item).Alike docs T (Same docs) (whileTrue test' item') := by
  refine .loop (Same docs) rfl ?_ fun acc acc' same => .pure (same_reverse same)
  intro acc acc' same
  refine alike_bind_eq tests fun more => ?_
  apply alike_ite Iff.rfl
  · apply alike_bind items
    intro x y head
    exact .pure ⟨same_cons head same, rfl⟩
  · exact .pure ⟨same, rfl⟩

/-- A loop, whose turns leave the same state up to layout and go on together. -/
theorem alike_loop_same {R : α → α → Prop} {s s' : β} {body body' : β → Routine (β × Bool)} {k k' : β → Routine α}
    (start : Same docs s s') (turn : ∀ s s', Same docs s s' → (body s).Alike docs T (Same docs) (body' s'))
    (rest : ∀ s s', Same docs s s' → (k s).Alike docs T R (k' s')) :
    (Routine.loop s body k).Alike docs T R (.loop s' body' k') := by
  refine .loop (Same docs) start (fun s s' same => ?_) rest
  exact (turn s s' same).mono fun x y pair => Prod.mk.inj pair

variable [Pairs docs T]

theorem alike_separated {separator : Pattern} (items : item.Alike docs T (Same docs) item') :
    (separated separator item).Alike docs T (Same docs) (separated separator item') := by
  apply alike_many
  apply alike_bind items
  intro x y head
  apply alike_bind (alike_tryAccept _)
  intro more more' together
  exact .pure (congrArg₂ Prod.mk head together)

theorem alike_manyUntil {stop : Pattern} (items : item.Alike docs T (Same docs) item') :
    (manyUntil stop item).Alike docs T (Same docs) (manyUntil stop item') := by
  apply alike_whileTrue _ items
  apply alike_bind (alike_wouldAccept _)
  intro stop stop' together
  exact .pure (congrArg not together)

end Repetition

/-! ## Values without layout -/

section Values

@[simp] theorem laid_tree : (Laid.plain docs : Tree → Tree) = Tree.plain docs := rfl

@[simp] theorem laid_text : (Laid.plain docs : Text → Text) = id := rfl

@[simp] theorem laid_nat : (Laid.plain docs : Nat → Nat) = id := rfl

@[simp] theorem laid_bool : (Laid.plain docs : Bool → Bool) = id := rfl

@[simp] theorem laid_unit : (Laid.plain docs : Unit → Unit) = id := rfl

@[simp] theorem laid_list [Laid β] : (Laid.plain docs : List β → List β) = List.map (Laid.plain docs) := rfl

@[simp] theorem laid_option [Laid β] : (Laid.plain docs : Option β → Option β) = Option.map (Laid.plain docs) := rfl

@[simp] theorem laid_prod [Laid α] [Laid β] :
    (Laid.plain docs : α × β → α × β) = Prod.map (Laid.plain docs) (Laid.plain docs) := rfl

@[simp] theorem laid_modifiers (found : Modifiers) : Laid.plain docs found =
    ⟨found.modifiers, found.annotations.map (Tree.plain docs), if docs then found.javadoc else none⟩ := rfl

@[simp] theorem laid_variableModifiers (found : VariableModifiers) :
    Laid.plain docs found = ⟨found.modifiers, found.annotations.map (Tree.plain docs)⟩ := rfl

@[simp] theorem laid_declaratorRest (rest : DeclaratorRest) :
    Laid.plain docs rest = ⟨rest.dimensions, rest.initializer.plain docs⟩ := rfl

@[simp] theorem laid_each (iterable : Tree) :
    Laid.plain docs (ForRest.each iterable) = .each (iterable.plain docs) := rfl

@[simp] theorem laid_counted (declarators : List Tree) (condition update : Tree) :
    Laid.plain docs (ForRest.counted declarators condition update) =
      .counted (declarators.map (Tree.plain docs)) (condition.plain docs) (update.plain docs) := rfl

@[simp] theorem plain_on (found : Modifiers) (t : Tree) :
    (found.on t).plain docs = (Laid.plain docs found).on (t.plain docs) := by
  have documented (s : Option Text) : Tree.plain true (Tree.ofText? s) = Tree.ofText? s := by cases s <;> rfl
  cases docs with
  | true => simp [Modifiers.on, Tree.kept, documented]
  | false =>
    have undocumented : Tree.ofText? none = .null := rfl
    simp [Modifiers.on, Tree.kept, undocumented]

end Values

end JavaSource.Grammar
