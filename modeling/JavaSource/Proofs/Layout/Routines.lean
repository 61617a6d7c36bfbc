import JavaSource.Proofs.Layout.Trees
import JavaSource.Proofs.Parser.Reading
import Mathlib.Data.List.Forall2

/-!
# Two readings side by side

Two lists of tokens that agree in class and value, one by one, are read by a routine step by step together:
`Routine.Alike.read_beside`. `Routine.Alike` relates the routines that read them. These need not be the same, since
what a routine does next may contain the trees of what was read before, and trees have places.

Tokens are paired by a relation that can tell where they stand, so the tokens at which both readings fail are seen
to stand at one index.
-/

namespace JavaSource

/-- Values that may have layout in them. -/
class Laid (α : Type) where
  /-- The value without its layout; the documentation stays if the flag is set. -/
  plain : Bool → α → α

/-- The values are the same, up to layout. -/
def Same (docs : Bool) {α : Type} [Laid α] (x y : α) : Prop := Laid.plain docs x = Laid.plain docs y

theorem same_of_plain {docs : Bool} {α : Type} [Laid α] {x y : α} (same : Laid.plain docs x = Laid.plain docs y) :
    Same docs x y := same

namespace Laid

variable {α β : Type}

instance [Laid α] : Laid (Option α) := ⟨fun docs => Option.map (plain docs)⟩

instance [Laid α] : Laid (List α) := ⟨fun docs => List.map (plain docs)⟩

instance [Laid α] [Laid β] : Laid (α × β) := ⟨fun docs => Prod.map (plain docs) (plain docs)⟩

instance : Laid Unit := ⟨fun _ x => x⟩

instance : Laid Bool := ⟨fun _ x => x⟩

instance : Laid Nat := ⟨fun _ x => x⟩

instance (priority := high) : Laid Text := ⟨fun _ x => x⟩

instance : Laid Tree := ⟨Tree.plain⟩

instance : Laid Token :=
  ⟨fun docs t => { t with position := none, javadoc := if docs then t.javadoc else none }⟩

instance : Laid Grammar.Modifiers :=
  ⟨fun docs m => ⟨m.modifiers, plain docs m.annotations, if docs then m.javadoc else none⟩⟩

instance : Laid Grammar.VariableModifiers := ⟨fun docs m => ⟨m.modifiers, plain docs m.annotations⟩⟩

instance : Laid Grammar.DeclaratorRest := ⟨fun docs rest => ⟨rest.dimensions, plain docs rest.initializer⟩⟩

instance : Laid Grammar.ForRest :=
  ⟨fun docs rest => match rest with
    | .each iterable => .each (plain docs iterable)
    | .counted declarators condition update =>
      .counted (plain docs declarators) (plain docs condition) (plain docs update)⟩

instance : Laid Grammar.Body.Lead :=
  ⟨fun docs lead => match lead with
    | .declaration => .declaration
    | .passed next annotated => .passed (plain docs next) annotated⟩

end Laid

namespace Grammar

/-- The failures are the same, but for a token that was found. -/
inductive SameFailure (T : Token → Token → Prop) : ParseFailure → ParseFailure → Prop where
  | illegal (description : Text) {found found' : Option Token} (same : Option.Rel T found found') :
    SameFailure T (.illegal description found) (.illegal description found')
  | other (failure : ParseFailure) (notIllegal : failure.isIllegal = false) : SameFailure T failure failure

theorem SameFailure.isIllegal {T : Token → Token → Prop} {failure failure' : ParseFailure}
    (same : SameFailure T failure failure') : failure.isIllegal = failure'.isIllegal := by
  cases same <;> rfl

/-- What two outcomes have in common: the values are related, or the failures are the same. -/
inductive SameResult (T : Token → Token → Prop) {α : Type} (R : α → α → Prop) :
    Except ParseFailure α → Except ParseFailure α → Prop where
  | ok {a b : α} (same : R a b) : SameResult T R (.ok a) (.ok b)
  | error {failure failure' : ParseFailure} (same : SameFailure T failure failure') :
    SameResult T R (.error failure) (.error failure')

def Rule.plain (docs : Bool) (r : Rule) : r.Result → r.Result := by
  cases r <;> exact Laid.plain docs

/-- What a rule gives in two readings is the same, up to layout. -/
def Rule.Same (docs : Bool) (r : Rule) (x y : r.Result) : Prop := r.plain docs x = r.plain docs y

/-- **Routines side by side**: whatever related tokens they meet, and whatever the rules that they follow give
them, they take the same steps and give related values. -/
inductive Routine.Alike (docs : Bool) (T : Token → Token → Prop) :
    {α : Type} → (α → α → Prop) → Routine α → Routine α → Prop where
  | pure {α : Type} {R : α → α → Prop} {a b : α} (same : R a b) : Alike docs T R (.pure a) (.pure b)
  | fail {α : Type} {R : α → α → Prop} {failure failure' : ParseFailure} (same : SameFailure T failure failure') :
    Alike docs T R (.fail failure) (.fail failure')
  | next {α : Type} {R : α → α → Prop} {k k' : Token → Routine α}
    (rest : ∀ t u, T t u → Alike docs T R (k t) (k' u)) : Alike docs T R (.next k) (.next k')
  | look {α : Type} {R : α → α → Prop} {i : Int} {k k' : Option Token → Routine α}
    (rest : ∀ t u, Option.Rel T t u → Alike docs T R (k t) (k' u)) : Alike docs T R (.look i k) (.look i k')
  | call {α : Type} {R : α → α → Prop} {r : Rule} {k k' : r.Result → Routine α}
    (rest : ∀ x y, r.Same docs x y → Alike docs T R (k x) (k' y)) : Alike docs T R (.call r k) (.call r k')
  | attempt {α β : Type} {R : α → α → Prop} (S : β → β → Prop) {body body' : Routine β} {k k' : β → Routine α}
    {otherwise otherwise' : Routine α} (tried : Alike docs T S body body')
    (rest : ∀ x y, S x y → Alike docs T R (k x) (k' y)) (other : Alike docs T R otherwise otherwise') :
    Alike docs T R (.attempt body k otherwise) (.attempt body' k' otherwise')
  | loop {α σ : Type} {R : α → α → Prop} (S : σ → σ → Prop) {s s' : σ} {body body' : σ → Routine (σ × Bool)}
    {k k' : σ → Routine α} (start : S s s')
    (turn : ∀ s s', S s s' → Alike docs T (fun x y => S x.1 y.1 ∧ x.2 = y.2) (body s) (body' s'))
    (rest : ∀ s s', S s s' → Alike docs T R (k s) (k' s')) : Alike docs T R (.loop s body k) (.loop s' body' k')

/-! ## Readings -/

variable {T : Token → Token → Prop} {α β σ : Type} {R : α → α → Prop} {S : β → β → Prop} {ts us : List Token}

theorem rel_getElem? (paired : List.Forall₂ T ts us) (i : Nat) : Option.Rel T ts[i]? us[i]? := by
  induction paired generalizing i with
  | nil => exact .none
  | cons same _ ih =>
    cases i with
    | zero => exact .some same
    | succ i => exact ih i

namespace Outcome

/-- The readings end in the same way, in front of tokens that are related one by one. -/
structure Beside (T : Token → Token → Prop) {α : Type} (R : α → α → Prop) (o o' : Outcome α) : Prop where
  result : SameResult T R o.result o'.result
  ahead : List.Forall₂ T o.ahead o'.ahead
  handed : Option.Rel (List.Forall₂ T) o.handed o'.handed

theorem beside_ok {a b : α} (same : R a b) (paired : List.Forall₂ T ts us) : (ok a ts).Beside T R (ok b us) :=
  ⟨.ok same, paired, .none⟩

theorem beside_error {failure failure' : ParseFailure} (same : SameFailure T failure failure')
    (paired : List.Forall₂ T ts us) :
    Beside T R { result := .error failure, ahead := ts } { result := .error failure', ahead := us } :=
  ⟨.error same, paired, .none⟩

namespace Beside

theorem mark {o o' : Outcome α} (beside : o.Beside T R o') (paired : List.Forall₂ T ts us) :
    List.Forall₂ T (o.mark ts) (o'.mark us) := by
  have handed := beside.handed
  unfold Outcome.mark
  generalize o.handed = mark, o'.handed = mark' at handed
  cases handed with
  | none => exact paired
  | some marked => exact marked

theorem andThen {o o' : Outcome β} {f f' : β → List Token → Outcome α} (first : o.Beside T S o')
    (second : ∀ x y ts us, S x y → List.Forall₂ T ts us → (f x ts).Beside T R (f' y us)) :
    (o.andThen f).Beside T R (o'.andThen f') := by
  obtain ⟨result, ahead, handed⟩ := o
  obtain ⟨result', ahead', handed'⟩ := o'
  obtain ⟨same, paired, marked⟩ := first
  cases same with
  | error same => exact ⟨.error same, paired, marked⟩
  | ok same =>
    have after := second _ _ _ _ same paired
    refine ⟨after.result, after.ahead, ?_⟩
    have later := after.handed
    simp only [Outcome.andThen]
    generalize (f _ ahead).handed = mark, (f' _ ahead').handed = mark' at later
    cases later with
    | none => exact marked
    | some later => exact .some later

end Beside

end Outcome

open Outcome

/-- A loop is gone through turn by turn. -/
theorem repeated_beside {S : σ → σ → Prop} {step step' : σ → List Token → Outcome (σ × Bool)}
    (turn : ∀ s s' ts us, S s s' → List.Forall₂ T ts us →
      (step s ts).Beside T (fun x y => S x.1 y.1 ∧ x.2 = y.2) (step' s' us)) (n : Nat) {s s' : σ} (start : S s s')
    (paired : List.Forall₂ T ts us) : (repeated step n s ts).Beside T S (repeated step' n s' us) := by
  induction n generalizing s s' ts us with
  | zero => exact beside_error (.other _ rfl) paired
  | succ n ih =>
    refine (turn s s' ts us start paired).andThen ?_
    rintro ⟨s, more⟩ ⟨s', _⟩ ts us ⟨same, rfl⟩ paired
    cases more with
    | true => exact ih same paired
    | false => exact beside_ok same paired

variable {docs : Bool}

/-- **Routines that are alike** read together, if rules are read together. -/
theorem Routine.Alike.read_beside {follow : Reader}
    (follows : ∀ r ts us, List.Forall₂ T ts us → (follow r ts).Beside T (r.Same docs) (follow r us))
    {routine routine' : Routine α} (alike : routine.Alike docs T R routine') (paired : List.Forall₂ T ts us) :
    (routine.read follow ts).Beside T R (routine'.read follow us) := by
  induction alike generalizing ts us with
  | pure same => exact beside_ok same paired
  | fail same => exact beside_error same paired
  | next _ ih =>
    cases paired with
    | nil => exact beside_error (.other _ rfl) .nil
    | cons same paired => exact ih _ _ same paired
  | look _ ih => exact ih _ _ (rel_getElem? paired _) paired
  | call _ ih => exact (follows _ _ _ paired).andThen fun x y _ _ same => ih x y same
  | @attempt _ _ _ S body body' _ _ _ _ _ _ _ ihTried ihRest ihOther =>
    have tried := ihTried paired
    have marked := tried.mark paired
    rw [read, read]
    obtain ⟨same, ahead, -⟩ := tried
    generalize (body.read follow ts).result = result, (body'.read follow us).result = result' at same
    cases same with
    | ok same => exact Beside.andThen ⟨.ok same, ahead, .some marked⟩ fun x y _ _ same => ihRest x y same
    | error same =>
      dsimp only
      rw [same.isIllegal]
      split
      · exact ihOther marked
      · exact beside_error same marked
  | loop S start _ _ ihTurn ihRest =>
    rw [read, read, paired.length_eq]
    exact (repeated_beside (fun s s' _ _ same => ihTurn s s' same) _ start paired).andThen fun s s' _ _ same =>
      ihRest s s' same

/-- Rules whose routines are alike are read together. -/
theorem Rule.reads_beside (bodies : ∀ r : Rule, r.body.Alike docs T (r.Same docs) r.body) (r : Rule)
    (paired : List.Forall₂ T ts us) : (r.reads ts).Beside T (r.Same docs) (r.reads us) := by
  have within (n : Nat) : ∀ (r : Rule) ts us, List.Forall₂ T ts us →
      (r.readWithin n ts).Beside T (r.Same docs) (r.readWithin n us) := by
    induction n with
    | zero => exact fun r ts us paired => beside_error (.other _ rfl) paired
    | succ n ih => exact fun r ts us paired => (bodies r).read_beside ih paired
  rw [reads, reads, paired.length_eq]
  exact within _ r ts us paired

end Grammar

end JavaSource
