import JavaSource.Parser.Run

/-!
# Routines as readings of tokens

What a routine does depends on the tokens ahead alone: not on how many were taken before, and not on the
markers that are set. `Routine.read` says what it does to a list of tokens, and `Rule.readWithin` what a rule
does. A reading leaves the tokens that are still ahead, and, where an attempt inside of it succeeded, the
tokens ahead of the marker that this attempt hands down to the marker below.

A reading that ends is the same to every depth to which rules may nest beyond the one that it needs:
`Rule.readWithin_upTo`.
-/

namespace JavaSource

namespace Grammar

/-- What a reading comes to. -/
structure Outcome (α : Type) where
  result : Except ParseFailure α
  ahead : List Token
  /-- The tokens ahead of the marker that was handed down last, if one was. -/
  handed : Option (List Token) := none

/-- A value is given, and no marker handed down. -/
abbrev Outcome.ok {α : Type} (a : α) (ahead : List Token) : Outcome α := { result := .ok a, ahead }

/-- What following each rule comes to, in front of the tokens that are ahead. -/
abbrev Reader := (r : Rule) → List Token → Outcome r.Result

namespace Outcome

variable {α β γ : Type}

def andThen (o : Outcome α) (f : α → List Token → Outcome β) : Outcome β :=
  match o.result with
  | .ok a =>
    let later := f a o.ahead
    { later with handed := later.handed.or o.handed }
  | .error failure => { result := .error failure, ahead := o.ahead, handed := o.handed }

/-- The tokens to which a marker leads that was set before them. -/
def mark (o : Outcome α) (start : List Token) : List Token := o.handed.getD start

theorem andThen_ok {o : Outcome α} {a : α} (ok : o.result = .ok a) (f : α → List Token → Outcome β) :
    o.andThen f = { f a o.ahead with handed := (f a o.ahead).handed.or o.handed } := by
  simp only [andThen, ok]

theorem andThen_error {o : Outcome α} {failure : ParseFailure} (failed : o.result = .error failure)
    (f : α → List Token → Outcome β) :
    o.andThen f = { result := .error failure, ahead := o.ahead, handed := o.handed } := by
  simp only [andThen, failed]

@[simp] theorem andThen_pure (a : α) (ahead : List Token) (f : α → List Token → Outcome β) :
    andThen (.ok a ahead) f = f a ahead := by
  simp [andThen]

theorem andThen_assoc (o : Outcome α) (f : α → List Token → Outcome β) (g : β → List Token → Outcome γ) :
    (o.andThen f).andThen g = o.andThen fun a ahead => (f a ahead).andThen g := by
  cases result : o.result with
  | error failure =>
    simp only [andThen, result]
  | ok a =>
    simp only [andThen_ok result]
    cases later : (f a o.ahead).result with
    | error failure => simp only [andThen, later]
    | ok b => simp only [andThen, later, Option.or_assoc]

end Outcome

def repeated {σ : Type} (step : σ → List Token → Outcome (σ × Bool)) : Nat → σ → List Token → Outcome σ
  | 0, _, ahead => { result := .error .endless, ahead }
  | n + 1, s, ahead =>
    (step s ahead).andThen fun (s, more) ahead =>
      if more then repeated step n s ahead else { result := .ok s, ahead }

section

variable {σ β : Type} {step : σ → List Token → Outcome (σ × Bool)} {s s' : σ} {ahead rest : List Token}

theorem repeated_done (stops : step s ahead = .ok (s', false) rest) (n : Nat) :
    repeated step (n + 1) s ahead = .ok s' rest := by
  rw [repeated, stops, Outcome.andThen_pure]
  rfl

theorem repeated_more (goes : step s ahead = .ok (s', true) rest) (n : Nat) :
    repeated step (n + 1) s ahead = repeated step n s' rest := by
  rw [repeated, goes, Outcome.andThen_pure]
  rfl

theorem repeated_andThen {o : Outcome β} {next : β → σ}
    (goes : step s ahead = o.andThen fun b rest => .ok (next b, true) rest) (n : Nat) :
    repeated step (n + 1) s ahead = o.andThen fun b rest => repeated step n (next b) rest := by
  rw [repeated, goes, Outcome.andThen_assoc]
  simp only [Outcome.andThen_pure, if_true]

end

/-- What a routine does to the tokens ahead, where `follow` says what rules do. -/
def Routine.read (follow : (r : Rule) → List Token → Outcome r.Result) {α : Type} : Routine α → List Token → Outcome α
  | .pure a, ahead => { result := .ok a, ahead }
  | .fail failure, ahead => { result := .error failure, ahead }
  | .next k, ahead =>
    match ahead with
    | [] => { result := .error .endOfInput, ahead := [] }
    | t :: ahead => read follow (k t) ahead
  | .look i k, ahead => read follow (k ahead[i.toNat]?) ahead
  | .call r k, ahead => (follow r ahead).andThen fun x ahead => read follow (k x) ahead
  | .attempt body k otherwise, ahead =>
    let tried := read follow body ahead
    match tried.result with
    | .ok x =>
      Outcome.andThen { tried with result := .ok x, handed := some (tried.mark ahead) }
        fun x ahead => read follow (k x) ahead
    | .error failure =>
      if failure.isIllegal then read follow otherwise (tried.mark ahead)
      else { result := .error failure, ahead := tried.mark ahead }
  | .loop s body k, ahead =>
    (repeated (fun s ahead => read follow (body s) ahead) (ahead.length + 2) s ahead).andThen
      fun s ahead => read follow (k s) ahead

def Rule.readWithin : Nat → (r : Rule) → List Token → Outcome r.Result
  | 0, _, ahead => { result := .error .endless, ahead }
  | n + 1, r, ahead => r.body.read (readWithin n) ahead

/-- The depth to which rules may nest in front of some number of tokens. -/
def nestingOf (count : Nat) : Nat := Rule.all.length * (count + 1) + 1

def Rule.reads (r : Rule) (ahead : List Token) : Outcome r.Result :=
  r.readWithin (nestingOf ahead.length) ahead

/-- A few levels down, rules may still nest as deep as in front of fewer tokens. -/
theorem exists_nesting (count : Nat) {k : Nat} (few : k ≤ 100) :
    ∃ n, nestingOf count = n + k ∧ (∀ m < count, nestingOf m ≤ n) ∧ 2 * count + 2 ≤ n := by
  have rules : Rule.all.length = 104 := rfl
  refine ⟨nestingOf count - k, ?_, fun m less => ?_, ?_⟩
  all_goals
    simp only [nestingOf, rules]
    omega

namespace Routine

variable {follow : Reader} {α β : Type}

/-- One routine after the other is one reading after the other. -/
theorem read_bind (routine : Routine α) (f : α → Routine β) (ahead : List Token) :
    (routine.bind f).read follow ahead =
      (routine.read follow ahead).andThen fun a ahead => (f a).read follow ahead := by
  induction routine generalizing ahead with
  | pure a => simp only [bind, read, Outcome.andThen_pure]
  | fail failure => rfl
  | next k ih =>
    cases ahead with
    | nil => rfl
    | cons t ahead => exact ih t f ahead
  | look i k ih => exact ih _ f ahead
  | call r k ih =>
    simp only [bind, read, Outcome.andThen_assoc, ih]
  | attempt body k otherwise _ ihRest ihOtherwise =>
    simp only [bind, read]
    cases tried : (body.read follow ahead).result with
    | ok x => simp only [Outcome.andThen_assoc, ihRest]
    | error failure =>
      by_cases illegal : failure.isIllegal = true
      · simp only [if_pos illegal, ihOtherwise]
      · simp only [if_neg illegal, Outcome.andThen]
  | loop s body k _ ihRest =>
    simp only [bind, read, Outcome.andThen_assoc, ihRest]

@[simp] theorem read_monad_bind (routine : Routine α) (f : α → Routine β) (ahead : List Token) :
    (routine >>= f).read follow ahead =
      (routine.read follow ahead).andThen fun a ahead => (f a).read follow ahead :=
  read_bind routine f ahead

/-- What follows a routine that gives a value goes on with it. -/
theorem read_bind_ok {routine : Routine α} {f : α → Routine β} {a : α} {ahead rest : List Token}
    (first : routine.read follow ahead = .ok a rest) :
    (routine >>= f).read follow ahead = (f a).read follow rest := by
  rw [read_monad_bind, first, Outcome.andThen_pure]

@[simp] theorem read_monad_pure (a : α) (ahead : List Token) :
    (Pure.pure a : Routine α).read follow ahead = .ok a ahead := rfl

end Routine

/-! ## Readings only move ahead -/

/-- The tokens that a reading leaves are the last ones of those it started with, and the marker that it hands
down lies between the two. -/
structure Outcome.Within {α : Type} (o : Outcome α) (start : List Token) : Prop where
  ahead : o.ahead <:+ start
  handed : ∀ mark ∈ o.handed, mark <:+ start
  behind : ∀ mark ∈ o.handed, o.ahead <:+ mark

namespace Outcome.Within

variable {α β : Type} {o : Outcome α} {start : List Token}

theorem here (result : Except ParseFailure α) (start : List Token) : Within { result, ahead := start } start :=
  ⟨List.suffix_rfl, fun _ mem => (nomatch mem), fun _ mem => (nomatch mem)⟩

theorem of_suffix {later : List Token} (within : o.Within later) (suffix : later <:+ start) : o.Within start :=
  ⟨within.ahead.trans suffix, fun mark mem => (within.handed mark mem).trans suffix, within.behind⟩

theorem mark (within : o.Within start) : o.mark start <:+ start := by
  unfold Outcome.mark
  cases handed : o.handed with
  | none => exact List.suffix_rfl
  | some mark => exact within.handed mark handed

theorem ahead_mark (within : o.Within start) : o.ahead <:+ o.mark start := by
  unfold Outcome.mark
  cases handed : o.handed with
  | none => exact within.ahead
  | some mark => exact within.behind mark handed

theorem andThen {f : α → List Token → Outcome β} (within : o.Within start)
    (later : ∀ a, (f a o.ahead).Within o.ahead) : (o.andThen f).Within start := by
  cases result : o.result with
  | error failure =>
    rw [andThen_error result]
    exact ⟨within.ahead, within.handed, within.behind⟩
  | ok a =>
    rw [andThen_ok result]
    have after := later a
    refine ⟨after.ahead.trans within.ahead, fun mark mem => ?_, fun mark mem => ?_⟩
    · rcases Option.or_eq_some_iff.1 mem with mem | ⟨-, mem⟩
      · exact (after.handed mark mem).trans within.ahead
      · exact within.handed mark mem
    · rcases Option.or_eq_some_iff.1 mem with mem | ⟨-, mem⟩
      · exact after.behind mark mem
      · exact after.ahead.trans (within.behind mark mem)

end Outcome.Within

variable {σ : Type}

theorem repeated_within {step : σ → List Token → Outcome (σ × Bool)}
    (step_within : ∀ s ahead, (step s ahead).Within ahead) (n : Nat) (s : σ) (ahead : List Token) :
    (repeated step n s ahead).Within ahead := by
  induction n generalizing s ahead with
  | zero => exact .here _ _
  | succ n ih =>
    refine (step_within s ahead).andThen fun (s, more) => ?_
    dsimp only
    split
    · exact ih _ _
    · exact .here _ _

variable {follow : Reader} {α : Type}

theorem Routine.read_within
    (follow_within : ∀ r ahead, (follow r ahead).Within ahead) (routine : Routine α)
    (ahead : List Token) : (routine.read follow ahead).Within ahead := by
  induction routine generalizing ahead with
  | pure a => exact .here _ _
  | fail failure => exact .here _ _
  | next k ih =>
    cases ahead with
    | nil => exact .here _ _
    | cons t ahead => exact (ih t ahead).of_suffix (List.suffix_cons t ahead)
  | look i k ih => exact ih _ ahead
  | call r k ih => exact (follow_within r ahead).andThen fun x => ih x _
  | attempt body k otherwise ihBody ihRest ihOtherwise =>
    have tried := ihBody ahead
    simp only [read]
    split
    · rename_i x _
      refine Outcome.Within.andThen ⟨tried.ahead, fun mark mem => ?_, fun mark mem => ?_⟩
        fun x => ihRest x _
      · cases mem
        exact tried.mark
      · cases mem
        exact tried.ahead_mark
    · split
      · exact (ihOtherwise _).of_suffix tried.mark
      · exact (Outcome.Within.here _ _).of_suffix tried.mark
  | loop s body k ihBody ihRest =>
    exact (repeated_within ihBody _ s ahead).andThen fun s => ihRest s _

theorem Rule.readWithin_within (n : Nat) (r : Rule) (ahead : List Token) : (r.readWithin n ahead).Within ahead := by
  induction n generalizing r ahead with
  | zero => exact .here _ _
  | succ n ih => exact r.body.read_within ih ahead

theorem Routine.reads_within (routine : Routine α) (ahead : List Token) :
    (routine.read Rule.reads ahead).Within ahead :=
  routine.read_within (fun r ahead => r.readWithin_within _ ahead) ahead

/-! ## Deeper nesting -/

/-- The first outcome is the second one, unless the first ran out of depth or of turns. -/
def Outcome.UpTo {α : Type} (o o' : Outcome α) : Prop := o.result = .error .endless ∨ o = o'

namespace Outcome.UpTo

variable {α β : Type} {o o' : Outcome α}

theorem refl (o : Outcome α) : o.UpTo o := .inr rfl

theorem andThen {f g : α → List Token → Outcome β} (first : o.UpTo o')
    (then_ : ∀ a ahead, (f a ahead).UpTo (g a ahead)) : (o.andThen f).UpTo (o'.andThen g) := by
  rcases first with endless | rfl
  · rw [andThen_error endless]
    exact .inl rfl
  · cases result : o.result with
    | error failure =>
      rw [andThen_error result, andThen_error result]
      exact refl _
    | ok a =>
      rw [andThen_ok result, andThen_ok result]
      rcases then_ a o.ahead with endless | same
      · exact .inl endless
      · rw [same]
        exact refl _

end Outcome.UpTo

theorem repeated_upTo {step step' : σ → List Token → Outcome (σ × Bool)}
    (steps : ∀ s ahead, (step s ahead).UpTo (step' s ahead)) (n : Nat) (s : σ) (ahead : List Token) :
    (repeated step n s ahead).UpTo (repeated step' n s ahead) := by
  induction n generalizing s ahead with
  | zero => exact .refl _
  | succ n ih =>
    refine (steps s ahead).andThen fun (s, more) ahead => ?_
    cases more with
    | true => exact ih s ahead
    | false => exact .refl _

theorem Routine.read_upTo {follow' : Reader}
    (follows : ∀ r ahead, (follow r ahead).UpTo (follow' r ahead)) (routine : Routine α)
    (ahead : List Token) : (routine.read follow ahead).UpTo (routine.read follow' ahead) := by
  induction routine generalizing ahead with
  | pure a => exact .refl _
  | fail failure => exact .refl _
  | next k ih =>
    cases ahead with
    | nil => exact .refl _
    | cons t ahead => exact ih t ahead
  | look i k ih => exact ih _ ahead
  | call r k ih => exact (follows r ahead).andThen fun x ahead => ih x ahead
  | attempt body k otherwise ihBody ihRest ihOtherwise =>
    simp only [read]
    rcases ihBody ahead with endless | same
    · simp only [endless]
      exact .inl rfl
    · simp only [same]
      split
      · exact (Outcome.UpTo.refl _).andThen fun x ahead => ihRest x ahead
      · split
        · exact ihOtherwise _
        · exact .refl _
  | loop s body k ihBody ihRest =>
    exact (repeated_upTo ihBody _ s ahead).andThen fun s ahead => ihRest s ahead

/-- **Depth does not matter**, once it suffices. -/
theorem Rule.readWithin_upTo {n m : Nat} (le : n ≤ m) (r : Rule) (ahead : List Token) :
    (r.readWithin n ahead).UpTo (r.readWithin m ahead) := by
  induction n generalizing m r ahead with
  | zero => exact .inl rfl
  | succ n ih =>
    obtain ⟨m, rfl⟩ : ∃ k, m = k + 1 := ⟨m - 1, by omega⟩
    exact r.body.read_upTo (ih (Nat.le_of_succ_le_succ le)) ahead

end Grammar

end JavaSource
