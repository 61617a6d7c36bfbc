import JavaSource.Proofs.Rules.Contract

/-!
# Contracts of simple routines

The condition of `Routine.Ensures` for the routines from which the rules are put together. Each lemma leaves what
has to hold after the routine, so the condition for a rule is found by going through its routine once.
-/

namespace JavaSource.Grammar

open List

section

variable {α β : Type} {terms : Terms} {free moved : Bool} {p : Pattern} {patterns : List Pattern}

/-! ## Values and choices -/

variable {Q : Bool → α → Prop}

theorem ensures_pure {a : α} (holds : Q moved a) :
    (pure a : Routine α).Ensures terms free moved Q :=
  holds

theorem ensures_fail : (Routine.fail .endInText : Routine α).Ensures terms free moved Q :=
  terms.endInText

theorem ensures_illegal (description : Text) :
    (illegal description : Routine α).Ensures terms free moved Q :=
  ⟨fun _ => terms.illegal rfl, .inl (terms.illegal rfl)⟩

variable {c : Prop}

theorem ensures_ite {_ : Decidable c} {yes no : Routine α}
    (holds : c → yes.Ensures terms free moved Q) (fails : ¬ c → no.Ensures terms free moved Q) :
    (if c then yes else no).Ensures terms free moved Q := by
  split
  · exact holds ‹c›
  · exact fails ‹¬ c›

theorem ensures_then {_ : Decidable (true = true)} {yes no : Routine α}
    (ensures : yes.Ensures terms free moved Q) : (if true = true then yes else no).Ensures terms free moved Q :=
  ensures_ite (fun _ => ensures) fun fails => absurd rfl fails

theorem ensures_else {_ : Decidable (false = true)} {yes no : Routine α}
    (ensures : no.Ensures terms free moved Q) : (if false = true then yes else no).Ensures terms free moved Q :=
  ensures_ite (absurd · Bool.false_ne_true) fun _ => ensures

variable {routine : Routine α}

theorem ensures_map {Q : Bool → β → Prop} {f : α → β}
    (ensures : routine.Ensures terms free moved fun moved a => Q moved (f a)) :
    (f <$> routine).Ensures terms free moved Q :=
  ensures_bind (ensures.mono fun _ _ holds => ensures_pure holds)

theorem ensures_discard {Q : Bool → Unit → Prop}
    (ensures : routine.Ensures terms free moved fun moved _ => Q moved ()) :
    (discard routine).Ensures terms free moved Q :=
  ensures_map ensures

theorem ensures_attempt {body otherwise : Routine α}
    (tried : body.Ensures terms free moved Q) (other : otherwise.Ensures terms free moved Q) :
    (Routine.attempt body .pure otherwise).Ensures terms free moved Q :=
  ⟨tried.mono fun _ _ holds => ensures_pure holds, other⟩

/-! ## Tokens -/

theorem ensures_parse {called : Rule} {Q : Bool → called.Result → Prop} (may : terms.mayFollow called (free || moved))
    (rest : ∀ x, terms.shaped called x → Q (moved || called.takes) x) : (parse called).Ensures terms free moved Q :=
  ⟨may, fun x shaped => ensures_pure (rest x shaped)⟩

theorem ensures_take {Q : Bool → Token → Prop} (rest : ∀ t, Q true t) : take.Ensures terms free moved Q :=
  fun t => ensures_pure (rest t)

variable {i : Int}

theorem ensures_lookAt {Q : Bool → Option Token → Prop} (rest : ∀ t, Q moved t) :
    (lookAt i).Ensures terms free moved Q :=
  ⟨fun t => rest (some t), .inl (rest none)⟩

theorem ensures_peek {Q : Bool → Option Token → Prop} (rest : ∀ t, Q moved t) : peek.Ensures terms free moved Q :=
  ensures_lookAt rest

/-- The next token, where the routine after it is stuck without one. -/
theorem ensures_peek_some {f : Option Token → Routine α}
    (rest : ∀ t, (f (some t)).Ensures terms free moved Q) (stuck : (f none).Stuck) :
    (peek >>= f).Ensures terms free moved Q :=
  ⟨rest, .inr ⟨rfl, stuck⟩⟩

theorem ensures_acceptFrom {Q : Bool → Text → Prop} (rest : ∀ value, Q true value) (value : Text)
    (patterns : List Pattern) : (acceptFrom value patterns).Ensures terms free true Q := by
  induction patterns generalizing value with
  | nil => exact ensures_pure (rest value)
  | cons p patterns ih =>
    refine ensures_bind (ensures_take fun t => ?_)
    exact ensures_ite (fun _ => ih _) fun _ => ensures_illegal _

theorem ensures_accept {Q : Bool → Text → Prop} (rest : ∀ value, Q true value) : (accept (p :: patterns)).Ensures terms free moved Q := by
  refine ensures_bind (ensures_take fun t => ?_)
  exact ensures_ite (fun _ => ensures_acceptFrom rest _ _) fun _ => ensures_illegal _

/-- The routine looks at some tokens and takes none. -/
def Routine.Looks : {α : Type} → Routine α → Prop
  | _, .pure _ => True
  | _, .look _ k => ∀ t, (k t).Looks
  | _, _ => False

theorem looks_bind {f : α → Routine β} (looks : routine.Looks) (rest : ∀ a, (f a).Looks) :
    (routine >>= f).Looks := by
  change (routine.bind f).Looks
  induction routine with
  | pure a => exact rest a
  | look i k ih => exact fun t => ih t (looks t) rest
  | _ => exact looks.elim

theorem looks_ite {_ : Decidable c} {yes no : Routine α} (holds : yes.Looks) (fails : no.Looks) :
    (if c then yes else no).Looks := by
  split
  · exact holds
  · exact fails

theorem looks_peek (test : Option Token → Bool) : (peek >>= fun t => pure (test t)).Looks := fun _ => trivial

theorem looks_wouldAccept (p : Pattern) (patterns : List Pattern) : (wouldAccept (p :: patterns)).Looks := by
  have from_ (i : Int) (patterns : List Pattern) : (wouldAcceptFrom i patterns).Looks := by
    induction patterns generalizing i with
    | nil => trivial
    | cons p patterns ih => exact fun t => looks_ite (ih _) trivial
  exact from_ 0 (p :: patterns)

theorem looks_annotationAt (i : Int) : (annotationAt i).Looks :=
  fun _ => looks_ite (fun _ => trivial) trivial

theorem looks_annotationDeclarationAt (i : Int) : (annotationDeclarationAt i).Looks :=
  fun _ => looks_ite (fun _ => trivial) trivial

theorem Routine.Looks.ensures_all (looks : routine.Looks)
    (rest : ∀ a, Q moved a) : routine.Ensures terms free moved Q := by
  induction routine with
  | pure a => exact rest a
  | look i k ih => exact ⟨fun t => ih _ (looks _) rest, .inl (ih _ (looks _) rest)⟩
  | _ => exact looks.elim

variable {test : Routine Bool}

theorem Routine.Looks.ensures {Q : Bool → Bool → Prop} (looks : test.Looks) (yes : Q moved true)
    (no : Q moved false) : test.Ensures terms free moved Q :=
  looks.ensures_all (Bool.forall_bool.2 ⟨no, yes⟩)

theorem ensures_wouldAccept {Q : Bool → Bool → Prop} (yes : Q moved true) (no : Q moved false) :
    (wouldAccept (p :: patterns)).Ensures terms free moved Q :=
  (looks_wouldAccept p patterns).ensures yes no

theorem ensures_annotationAt {Q : Bool → Bool → Prop} (yes : Q moved true) (no : Q moved false) :
    (annotationAt i).Ensures terms free moved Q :=
  (looks_annotationAt i).ensures yes no

theorem ensures_annotationDeclarationAt {Q : Bool → Bool → Prop} (yes : Q moved true) (no : Q moved false) :
    (annotationDeclarationAt i).Ensures terms free moved Q :=
  (looks_annotationDeclarationAt i).ensures yes no

theorem ensures_takeMany {Q : Bool → Unit → Prop} (rest : Q true ()) (n : Nat) :
    (takeMany n).Ensures terms free true Q := by
  induction n with
  | zero => exact ensures_pure rest
  | succ n ih => exact fun _ => ih

theorem ensures_tryAccept {Q : Bool → Bool → Prop} (yes : Q true true)
    (no : Q moved false) : (tryAccept (p :: patterns)).Ensures terms free moved Q := by
  refine ensures_bind (ensures_wouldAccept ?_ ?_)
  · exact ensures_bind fun _ => ensures_takeMany (ensures_pure yes) patterns.length
  · exact ensures_pure no

/-! ## Repetition -/

variable {s : α}

theorem ensures_loop {body : α → Routine (α × Bool)}
    (turn : ∀ s, (body s).Ensures terms (free || moved) false fun turned x =>
      (x.2 = true → turned = true) ∧ (x.2 = false → Q (moved || turned) x.1)) :
    (Routine.loop s body .pure).Ensures terms free moved Q := by
  refine .inl ⟨fun _ => True, trivial, fun s _ => (turn s).mono fun turned x ⟨goes, ends⟩ => ?_⟩
  exact ⟨fun more => ⟨goes more, trivial⟩, fun done => ensures_pure (ends done)⟩

variable {turned : Bool} {R : Prop}

theorem turn_goes (took : turned = true) :
    ((s, true).2 = true → turned = true) ∧ ((s, true).2 = false → R) :=
  ⟨fun _ => took, (absurd ·.symm Bool.false_ne_true)⟩

theorem turn_ends (rest : R) :
    ((s, false).2 = true → turned = true) ∧ ((s, false).2 = false → R) :=
  ⟨(absurd · Bool.false_ne_true), fun _ => rest⟩

variable {P : β → Prop}

theorem ensures_many {Q : Bool → List β → Prop} {item : Routine (β × Bool)}
    (turn : item.Ensures terms (free || moved) false fun turned x => turned = true ∧ P x.1)
    (rest : ∀ xs, xs ≠ [] → (∀ x ∈ xs, P x) → Q true xs) : (many item).Ensures terms free moved Q := by
  refine .inl ⟨fun acc => ∀ x ∈ acc, P x, forall_mem_nil P, fun acc all => ?_⟩
  refine ensures_bind (turn.mono fun turned x ⟨took, holds⟩ => ?_)
  subst took
  have all : ∀ y ∈ x.1 :: acc, P y := forall_mem_cons.2 ⟨holds, all⟩
  refine ensures_pure ⟨fun _ => ⟨rfl, all⟩, fun _ => ?_⟩
  rw [Bool.or_true]
  refine ensures_pure (rest _ (by simp) fun y mem => all y (mem_reverse.1 mem))

variable {item : Routine β}

theorem ensures_separated {Q : Bool → List β → Prop}
    (turn : item.Ensures terms (free || moved) false fun turned x => turned = true ∧ P x)
    (rest : ∀ xs, xs ≠ [] → (∀ x ∈ xs, P x) → Q true xs) : (separated p item).Ensures terms free moved Q := by
  refine ensures_many (P := P) (ensures_bind (turn.mono fun turned x ⟨took, holds⟩ => ?_)) rest
  subst took
  exact ensures_bind (ensures_tryAccept (ensures_pure ⟨rfl, holds⟩) (ensures_pure ⟨rfl, holds⟩))

/-- A loop with a test: after a test that holds an item is read, and then a token was taken. -/
theorem ensures_whileTrue_of {Q : Bool → List β → Prop}
    (turn : test.Ensures terms (free || moved) false fun tested more =>
      (more = true → item.Ensures terms (free || moved) tested fun turned x => turned = true ∧ P x) ∧
      (more = false → ∀ xs, (∀ x ∈ xs, P x) → Q (moved || tested) xs)) :
    (whileTrue test item).Ensures terms free moved Q := by
  refine .inl ⟨fun acc => ∀ x ∈ acc, P x, forall_mem_nil P, fun acc all => ?_⟩
  refine ensures_bind (turn.mono fun tested more ⟨goes, ends⟩ => ensures_ite (fun yes => ?_) fun no => ?_)
  · refine ensures_bind ((goes yes).mono fun turned x ⟨took, holds⟩ => ?_)
    have all : ∀ y ∈ x :: acc, P y := forall_mem_cons.2 ⟨holds, all⟩
    exact ensures_pure ⟨fun _ => ⟨took, all⟩, (absurd ·.symm Bool.false_ne_true)⟩
  · refine ensures_pure ⟨(absurd · Bool.false_ne_true), fun _ => ensures_pure ?_⟩
    exact ends (Bool.eq_false_iff.2 no) _ fun x mem => all x (mem_reverse.1 mem)

/-- A loop with a test that only looks. -/
theorem ensures_whileTrue {Q : Bool → List β → Prop}
    (looks : test.Looks) (turn : item.Ensures terms (free || moved) false fun turned x => turned = true ∧ P x)
    (rest : ∀ xs, (∀ x ∈ xs, P x) → Q moved xs) : (whileTrue test item).Ensures terms free moved Q := by
  refine ensures_whileTrue_of (P := P)
    (looks.ensures ⟨fun _ => turn, (absurd ·.symm Bool.false_ne_true)⟩ ⟨(absurd · Bool.false_ne_true), ?_⟩)
  rw [Bool.or_false]
  exact fun _ => rest

theorem ensures_manyUntil {Q : Bool → List β → Prop} {stop : Pattern}
    (turn : item.Ensures terms (free || moved) false fun turned x => turned = true ∧ P x)
    (rest : ∀ xs, (∀ x ∈ xs, P x) → Q moved xs) : (manyUntil stop item).Ensures terms free moved Q :=
  ensures_whileTrue (looks_bind (looks_wouldAccept stop []) fun _ => trivial) turn rest

/-- A loop whose test takes tokens if it holds. -/
theorem ensures_whileAccept {Q : Bool → List β → Prop}
    (turn : item.Ensures terms (free || moved) true fun turned x => turned = true ∧ P x)
    (rest : ∀ xs, (∀ x ∈ xs, P x) → Q moved xs) :
    (whileTrue (tryAccept (p :: patterns)) item).Ensures terms free moved Q := by
  refine ensures_whileTrue_of (P := P)
    (ensures_tryAccept ⟨fun _ => turn, (absurd ·.symm Bool.false_ne_true)⟩ ⟨(absurd · Bool.false_ne_true), ?_⟩)
  rw [Bool.or_false]
  exact fun _ => rest

end

end JavaSource.Grammar
