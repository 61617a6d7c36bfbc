import JavaSource.Proofs.Parser.Tokens

/-!
# Modifiers and annotations as readings

Three rules read annotations before a declaration: that for annotations alone, that for the modifiers of a
variable and that for the modifiers of any declaration. Where one of the first two goes, the third goes too,
as long as it ends.
-/

namespace JavaSource.Grammar

open Routine Outcome Body

def Outcome.Fails {α : Type} (o : Outcome α) : Prop := ∃ failure, o.result = .error failure

namespace Outcome

variable {α β : Type} {o : Outcome α}

theorem Fails.andThen (fails : o.Fails) (f : α → List Token → Outcome β) : (o.andThen f).Fails := by
  obtain ⟨failure, failed⟩ := fails
  rw [andThen_error failed]
  exact ⟨failure, rfl⟩

variable {f : α → List Token → Outcome β}

theorem andThen_fails
    (then_ : ∀ a, o.result = .ok a → (f a o.ahead).Fails) : (o.andThen f).Fails := by
  cases result : o.result with
  | error failure => exact Fails.andThen ⟨failure, result⟩ f
  | ok a =>
    obtain ⟨failure, failed⟩ := then_ a result
    rw [andThen_ok result]
    exact ⟨failure, failed⟩

theorem Fails.of_map {f : α → β}
    (fails : (o.andThen fun a ahead => .ok (f a) ahead).Fails) : o.Fails := by
  cases result : o.result with
  | error failure => exact ⟨failure, result⟩
  | ok a =>
    rw [andThen_ok result] at fails
    obtain ⟨failure, failed⟩ := fails
    cases failed

theorem ok_of_andThen {b : β} (ok : (o.andThen f).result = .ok b) :
    ∃ a, o.result = .ok a ∧ (f a o.ahead).result = .ok b ∧
      (o.andThen f).ahead = (f a o.ahead).ahead := by
  cases result : o.result with
  | error failure =>
    rw [andThen_error result] at ok
    cases ok
  | ok a =>
    rw [andThen_ok result] at ok ⊢
    exact ⟨a, rfl, ok, rfl⟩

end Outcome

variable {ahead : List Token}

theorem Routine.ok_of_bind {follow : Reader} {α β : Type}
    {routine : Routine α} {f : α → Routine β} {b : β}
    (ok : ((routine >>= f).read follow ahead).result = .ok b) : ∃ a, (routine.read follow ahead).result = .ok a ∧
      ((f a).read follow (routine.read follow ahead).ahead).result = .ok b := by
  rw [read_monad_bind] at ok
  obtain ⟨a, first, second, -⟩ := ok_of_andThen ok
  exact ⟨a, first, second⟩

def annotated (ahead : List Token) : Bool :=
  isOf ahead[0]? .atSign && !isWord ahead[1]? "interface"

section

variable {follow : Reader}

theorem read_anyModifier_some {t : Token} (isModifier : isOf (some t) .modifier = true) (rest : List Token) :
    anyModifier.read follow (t :: rest) = .ok (some t.value) rest := by
  simp only [anyModifier, read_monad_bind, read_wouldAccept_one, andThen_pure,
    List.getElem?_cons_zero, Pattern.fits, isModifier, if_true, read_accept_cons,
    read_monad_pure]

theorem read_anyModifier_none {ahead : List Token} (other : isOf ahead[0]? .modifier = false) :
    anyModifier.read follow ahead = .ok none ahead := by
  simp only [anyModifier, read_monad_bind, read_wouldAccept_one, andThen_pure,
    Pattern.fits, other, Bool.false_eq_true, if_false, read_monad_pure]

theorem read_finalModifier_some {t : Token} (isFinal : isWord (some t) "final" = true) (rest : List Token) :
    finalModifier.read follow (t :: rest) = .ok (some "final") rest := by
  have fits : Pattern.fits (some t) (.word "final") = true := isFinal
  simp only [finalModifier, read_monad_bind, read_tryAccept_cons, fits, if_true,
    andThen_pure, read_monad_pure]

theorem read_finalModifier_none (other : isWord ahead[0]? "final" = false) :
    finalModifier.read follow ahead = .ok none ahead := by
  have unfit : Pattern.fits ahead[0]? (.word "final") = false := other
  simp only [finalModifier, Routine.read_bind_ok (read_tryAccept_unfit unfit), Bool.false_eq_true, if_false, read_monad_pure]

/-- One step of the modifiers before a declaration. -/
theorem read_modifierNext (modifier : Routine (Option Text)) (acc : VariableModifiers) (ahead : List Token) :
    (modifierNext modifier acc).read follow ahead =
      (modifier.read follow ahead).andThen fun found rest =>
        match found with
        | some m => .ok ({ acc with modifiers := addModifier m acc.modifiers }, true) rest
        | none =>
          if annotated rest then
            (follow .annotationUse rest).andThen fun a rest =>
              { result := .ok ({ acc with
                  annotations := acc.annotations ++ [a.placeAt (positionOf ahead[0]?)] }, true),
                ahead := rest }
          else .ok (acc, false) rest := by
  simp only [modifierNext, read_monad_bind, read_peek, andThen_pure]
  congr 1
  funext found rest
  cases found with
  | some m => rfl
  | none =>
    simp only [read_monad_bind, read_annotationAt, andThen_pure]
    rw [annotated]
    split
    · simp only [Body.placedAnnotation, read_monad_bind, read_monad_pure,
        andThen_assoc, andThen_pure]
      rw [read_parse]
    · rfl

/-- A token of one class is none of another, where no class lies in both. -/
theorem isOf_apart {t : Option Token} {c d : TokenClass} (isC : isOf t c = true)
    (apart : TokenClass.all.all fun k => !(k.isA c && k.isA d)) : isOf t d = false := by
  have mem (k : TokenClass) : k ∈ TokenClass.all := by cases k <;> decide
  have both := List.all_eq_true.1 apart _ (mem (classOf t))
  rw [show (classOf t).isA c = true from isC, Bool.true_and, Bool.not_eq_true'] at both
  exact both

/-- Modifiers, taken by a routine, and annotations, in at most `n` steps. -/
def readModifiers (modifier : Routine (Option Text)) (follow : Reader) :
    Nat → VariableModifiers → List Token → Outcome VariableModifiers :=
  repeated fun acc => (Body.modifierNext modifier acc).read follow

theorem read_modifiersBy (modifier : Routine (Option Text)) (ahead : List Token) :
    (modifiersBy modifier).read follow ahead =
      readModifiers modifier follow (ahead.length + 2) ⟨[], []⟩ ahead :=
  andThen_result _

section Step

variable {modifier : Routine (Option Text)} {ahead rest : List Token}

theorem readModifiers_taken {m : Text}
    (taken : modifier.read follow ahead = .ok (some m) rest) (n : Nat)
    (acc : VariableModifiers) :
    ∃ acc', readModifiers modifier follow (n + 1) acc ahead =
      readModifiers modifier follow n acc' rest := by
  refine ⟨{ acc with modifiers := addModifier m acc.modifiers }, repeated_more ?_ n⟩
  rw [read_modifierNext, taken, andThen_pure]

theorem readModifiers_annotated (not_taken : modifier.read follow ahead = .ok none ahead)
    (starts : annotated ahead = true) (n : Nat) (acc : VariableModifiers) :
    ∃ next : Tree → VariableModifiers, readModifiers modifier follow (n + 1) acc ahead =
      (follow .annotationUse ahead).andThen fun a rest =>
        readModifiers modifier follow n (next a) rest := by
  refine ⟨fun a => { acc with
    annotations := acc.annotations ++ [a.placeAt (positionOf ahead[0]?)] }, repeated_andThen ?_ n⟩
  rw [read_modifierNext, not_taken, andThen_pure]
  exact if_pos starts

theorem readModifiers_ended (not_taken : modifier.read follow ahead = .ok none ahead)
    (ends : annotated ahead = false) (n : Nat) (acc : VariableModifiers) :
    readModifiers modifier follow (n + 1) acc ahead = .ok acc ahead := by
  refine repeated_done ?_ n
  rw [read_modifierNext, not_taken, andThen_pure]
  exact if_neg (by simp [ends])

end Step

theorem read_modifiers (ahead : List Token) : modifiers.read follow ahead =
      (readModifiers anyModifier follow (ahead.length + 2) ⟨[], []⟩ ahead).andThen
        fun found rest => .ok ⟨found.modifiers, found.annotations, javadocOf ahead[0]?⟩ rest := by
  simp only [modifiers, read_monad_bind, read_peek, andThen_pure, read_modifiersBy,
    read_monad_pure]

/-! ## One rule along another -/

/-- The readings of annotations end at the same place, if both end. -/
def SameAnnotations (follow follow' : Reader) : Prop :=
  ∀ ahead, (follow .annotationUse ahead).Fails ∨ (follow' .annotationUse ahead).Fails ∨
    (follow .annotationUse ahead).ahead = (follow' .annotationUse ahead).ahead

variable {follow' : Reader} {n : Nat}

/-- The modifiers of any declaration are read along those of a variable, which end before something that is
no modifier. -/
theorem modifiers_along_variable (same : SameAnnotations follow follow')
    (within : ∀ ahead, (follow' .annotationUse ahead).ahead <:+ ahead)
    {acc' found : VariableModifiers}
    (finals : ∀ t ∈ ahead, isWord (some t) "final" = true → isOf (some t) .modifier = true)
    (ok : (readModifiers finalModifier follow' n acc' ahead).result = .ok found)
    (stop : isOf (readModifiers finalModifier follow' n acc' ahead).ahead[0]? .modifier = false)
    (acc : VariableModifiers) : (readModifiers anyModifier follow n acc ahead).Fails ∨
      (readModifiers anyModifier follow n acc ahead).ahead =
        (readModifiers finalModifier follow' n acc' ahead).ahead := by
  induction n generalizing acc acc' ahead with
  | zero => cases ok
  | succ n ih =>
    cases isFinal : isWord ahead[0]? "final" with
    | true =>
      cases ahead with
      | nil => cases isFinal
      | cons t rest =>
        have isModifier := finals t List.mem_cons_self isFinal
        obtain ⟨acc₁, one⟩ : ∃ acc₁, readModifiers anyModifier follow (n + 1) acc (t :: rest) =
            readModifiers anyModifier follow n acc₁ rest :=
          readModifiers_taken (read_anyModifier_some isModifier rest) n acc
        obtain ⟨acc₂, other⟩ : ∃ acc₂, readModifiers finalModifier follow' (n + 1) acc' (t :: rest) =
            readModifiers finalModifier follow' n acc₂ rest :=
          readModifiers_taken (read_finalModifier_some isFinal rest) n acc'
        rw [other] at ok stop ⊢
        rw [one]
        exact ih (fun t mem => finals t (List.mem_cons_of_mem _ mem)) ok stop acc₁
    | false =>
      have not_final : finalModifier.read follow' ahead = .ok none ahead :=
        read_finalModifier_none isFinal
      cases starts : annotated ahead with
      | true =>
        have isAnnotation : isOf ahead[0]? .atSign = true := (Bool.and_eq_true_iff.1 starts).1
        have not_modifier : anyModifier.read follow ahead = .ok none ahead :=
          read_anyModifier_none (isOf_apart isAnnotation (by decide))
        obtain ⟨next, one⟩ := readModifiers_annotated not_modifier starts n acc
        obtain ⟨next', other⟩ := readModifiers_annotated not_final starts n acc'
        rw [other] at ok stop
        rw [one, other]
        obtain ⟨a, ok_a, ok_later, ahead_eq⟩ := ok_of_andThen ok
        rw [ahead_eq] at stop ⊢
        rcases same ahead with fails | ⟨_, failed⟩ | ends
        · exact .inl (fails.andThen _)
        · cases ok_a.symm.trans failed
        · cases result : (follow .annotationUse ahead).result with
          | error failure => exact .inl (Outcome.Fails.andThen ⟨failure, result⟩ _)
          | ok b =>
            have later := ih (fun t mem => finals t ((within ahead).subset mem)) ok_later stop (next b)
            rw [andThen_ok result, ends]
            exact later
      | false =>
        have stopped := readModifiers_ended not_final starts n acc'
        rw [stopped] at stop ⊢
        have not_modifier : anyModifier.read follow ahead = .ok none ahead :=
          read_anyModifier_none stop
        rw [readModifiers_ended not_modifier starts]
        exact .inr rfl

/-- Annotations alone, in at most `n` steps. -/
def readAnnotations (follow : Reader) : Nat → List Tree → List Token → Outcome (List Tree) :=
  repeated fun acc ahead => (follow .annotationUse ahead).andThen fun a rest =>
    { result := .ok (a.placeAt (positionOf ahead[0]?) :: acc, annotated rest), ahead := rest }

theorem read_annotations (ahead : List Token) : annotations.read follow ahead =
      (readAnnotations follow (ahead.length + 2) [] ahead).andThen fun acc rest => .ok acc.reverse rest := by
  simp only [annotations, many, Routine.read, readAnnotations, read_monad_bind, read_peek,
    andThen_pure, placedAnnotation, read_monad_pure, read_annotationAt,
    andThen_assoc]
  congr 1
  congr 1
  funext acc ahead
  rw [read_parse]
  rfl

/-- Where annotations cannot be read, modifiers cannot be read either. -/
theorem modifiers_along_annotations
    (upTo : ∀ ahead, (follow .annotationUse ahead).UpTo (follow' .annotationUse ahead))
    {acc : VariableModifiers} {acc' : List Tree}
    (starts : annotated ahead = true) (fails : (readAnnotations follow' n acc' ahead).Fails) :
    (readModifiers anyModifier follow n acc ahead).Fails := by
  induction n generalizing acc acc' ahead with
  | zero => exact ⟨_, rfl⟩
  | succ n ih =>
    have isAnnotation : isOf ahead[0]? .atSign = true := (Bool.and_eq_true_iff.1 starts).1
    have not_modifier : anyModifier.read follow ahead = .ok none ahead :=
      read_anyModifier_none (isOf_apart isAnnotation (by decide))
    obtain ⟨next, one⟩ := readModifiers_annotated not_modifier starts n acc
    rw [one]
    rcases upTo ahead with endless | same
    · exact Outcome.Fails.andThen ⟨_, endless⟩ _
    · refine andThen_fails fun a ok => ?_
      rw [readAnnotations, repeated, andThen_assoc, ← same, andThen_ok ok] at fails
      simp only [andThen_pure] at fails
      cases more : annotated (follow .annotationUse ahead).ahead with
      | true =>
        rw [more] at fails
        exact ih more fails
      | false =>
        rw [more] at fails
        obtain ⟨failure, failed⟩ := fails
        cases failed

end

end JavaSource.Grammar
