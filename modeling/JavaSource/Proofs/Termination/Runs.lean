import JavaSource.Proofs.Parser.Simulation

/-!
# Runs without bounds

A parser follows rules to a bounded depth and goes through loops a bounded number of times, so that it is total.
`Routine.Runs` says what a routine comes to without any bounds, by a derivation for each run that ends, and
`Routine.Reaches` which rules a run comes to follow on its way, whether it ends or not. What a parser does is the
run without bounds, unless it meets a bound: `Rule.runs_of_run`.
-/

namespace JavaSource.Grammar

open Routine

open JavaSource.Parser (run_bind run_pop run_pop_saved does_run does_exec follow_does iterate)

/-- **What a routine comes to** from a parser: how it ends, and the parser that it leaves. A routine that goes on
forever comes to nothing. -/
inductive Routine.Runs : {α : Type} → Routine α → Parser → Except ParseFailure α → Parser → Prop where
  | pure {α : Type} (a : α) (p : Parser) : Runs (.pure a) p (.ok a) p
  | fail {α : Type} (failure : ParseFailure) (p : Parser) : Runs (.fail failure : Routine α) p (.error failure) p
  | next {α : Type} {k : Token → Routine α} {p p' q : Parser} {t : Token} {result : Except ParseFailure α}
    (taken : p.run Parser.next = (.ok t, p')) (rest : Runs (k t) p' result q) : Runs (.next k) p result q
  | nextFails {α : Type} {k : Token → Routine α} {p q : Parser} {failure : ParseFailure}
    (ended : p.run Parser.next = (.error failure, q)) : Runs (.next k) p (.error failure) q
  | look {α : Type} {i : Int} {k : Option Token → Routine α} {p p' q : Parser} {t : Option Token}
    {result : Except ParseFailure α} (looked : p.run (Parser.look i) = (.ok t, p')) (rest : Runs (k t) p' result q) :
    Runs (.look i k) p result q
  | call {α : Type} {r : Rule} {k : r.Result → Routine α} {p p' q : Parser} {x : r.Result}
    {result : Except ParseFailure α} (followed : Runs r.body p (.ok x) p') (rest : Runs (k x) p' result q) :
    Runs (.call r k) p result q
  | callFails {α : Type} {r : Rule} {k : r.Result → Routine α} {p q : Parser} {failure : ParseFailure}
    (followed : Runs r.body p (.error failure) q) : Runs (.call r k) p (.error failure) q
  | attempt {α β : Type} {body : Routine β} {k : β → Routine α} {otherwise : Routine α} {p p' p'' q : Parser} {x : β}
    {result : Except ParseFailure α} (tried : Runs body p.marked (.ok x) p')
    (popped : p'.run (Parser.pop false) = (.ok (), p'')) (rest : Runs (k x) p'' result q) :
    Runs (.attempt body k otherwise) p result q
  | otherwise {α β : Type} {body : Routine β} {k : β → Routine α} {otherwise : Routine α} {p p' p'' q : Parser}
    {failure : ParseFailure} {result : Except ParseFailure α} (tried : Runs body p.marked (.error failure) p')
    (illegal : failure.isIllegal = true) (popped : p'.run (Parser.pop true) = (.ok (), p''))
    (rest : Runs otherwise p'' result q) : Runs (.attempt body k otherwise) p result q
  | attemptFails {α β : Type} {body : Routine β} {k : β → Routine α} {otherwise : Routine α} {p p' q : Parser}
    {failure : ParseFailure} (tried : Runs body p.marked (.error failure) p') (other : failure.isIllegal = false)
    (popped : p'.run (Parser.pop true) = (.ok (), q)) : Runs (.attempt body k otherwise) p (.error failure) q
  | again {α σ : Type} {s s' : σ} {body : σ → Routine (σ × Bool)} {k : σ → Routine α} {p p' q : Parser}
    {result : Except ParseFailure α} (turn : Runs (body s) p (.ok (s', true)) p')
    (rest : Runs (.loop s' body k) p' result q) : Runs (.loop s body k) p result q
  | done {α σ : Type} {s s' : σ} {body : σ → Routine (σ × Bool)} {k : σ → Routine α} {p p' q : Parser}
    {result : Except ParseFailure α} (turn : Runs (body s) p (.ok (s', false)) p') (rest : Runs (k s') p' result q) :
    Runs (.loop s body k) p result q
  | turnFails {α σ : Type} {s : σ} {body : σ → Routine (σ × Bool)} {k : σ → Routine α} {p q : Parser}
    {failure : ParseFailure} (turn : Runs (body s) p (.error failure) q) : Runs (.loop s body k) p (.error failure) q

/-- **What a run comes to on its way**: `Reaches routine p d r q` says that the parser `q` is about to follow the
rule `r`, as the innermost of `d` rules that it is following, when the routine is gone through from `p` on. The
run need not end. -/
inductive Routine.Reaches : {α : Type} → Routine α → Parser → Nat → Rule → Parser → Prop where
  | next {α : Type} {k : Token → Routine α} {p p' q : Parser} {t : Token} {d : Nat} {r : Rule}
    (taken : p.run Parser.next = (.ok t, p')) (rest : Reaches (k t) p' d r q) : Reaches (.next k) p d r q
  | look {α : Type} {i : Int} {k : Option Token → Routine α} {p p' q : Parser} {t : Option Token} {d : Nat} {r : Rule}
    (looked : p.run (Parser.look i) = (.ok t, p')) (rest : Reaches (k t) p' d r q) : Reaches (.look i k) p d r q
  | call {α : Type} (r : Rule) (k : r.Result → Routine α) (p : Parser) : Reaches (.call r k) p 1 r p
  | inside {α : Type} {called : Rule} {k : called.Result → Routine α} {p q : Parser} {d : Nat} {r : Rule}
    (within : Reaches called.body p d r q) : Reaches (.call called k) p (d + 1) r q
  | after {α : Type} {called : Rule} {k : called.Result → Routine α} {p p' q : Parser} {x : called.Result} {d : Nat}
    {r : Rule} (followed : called.body.Runs p (.ok x) p') (rest : Reaches (k x) p' d r q) :
    Reaches (.call called k) p d r q
  | tried {α β : Type} {body : Routine β} {k : β → Routine α} {otherwise : Routine α} {p q : Parser} {d : Nat}
    {r : Rule} (within : Reaches body p.marked d r q) : Reaches (.attempt body k otherwise) p d r q
  | attempt {α β : Type} {body : Routine β} {k : β → Routine α} {otherwise : Routine α} {p p' p'' q : Parser} {x : β}
    {d : Nat} {r : Rule} (tried : body.Runs p.marked (.ok x) p') (popped : p'.run (Parser.pop false) = (.ok (), p''))
    (rest : Reaches (k x) p'' d r q) : Reaches (.attempt body k otherwise) p d r q
  | otherwise {α β : Type} {body : Routine β} {k : β → Routine α} {otherwise : Routine α} {p p' p'' q : Parser}
    {failure : ParseFailure} {d : Nat} {r : Rule} (tried : body.Runs p.marked (.error failure) p')
    (illegal : failure.isIllegal = true) (popped : p'.run (Parser.pop true) = (.ok (), p''))
    (rest : Reaches otherwise p'' d r q) : Reaches (.attempt body k otherwise) p d r q
  | turn {α σ : Type} {s : σ} {body : σ → Routine (σ × Bool)} {k : σ → Routine α} {p q : Parser} {d : Nat} {r : Rule}
    (within : Reaches (body s) p d r q) : Reaches (.loop s body k) p d r q
  | again {α σ : Type} {s s' : σ} {body : σ → Routine (σ × Bool)} {k : σ → Routine α} {p p' q : Parser} {d : Nat}
    {r : Rule} (turn : (body s).Runs p (.ok (s', true)) p') (rest : Reaches (.loop s' body k) p' d r q) :
    Reaches (.loop s body k) p d r q
  | done {α σ : Type} {s s' : σ} {body : σ → Routine (σ × Bool)} {k : σ → Routine α} {p p' q : Parser} {d : Nat}
    {r : Rule} (turn : (body s).Runs p (.ok (s', false)) p') (rest : Reaches (k s') p' d r q) :
    Reaches (.loop s body k) p d r q

/-- What a rule comes to does not depend on what is done after it. -/
theorem Routine.Reaches.of_parse {α : Type} {called : Rule} {p q : Parser} {d : Nat} {r : Rule}
    (reaches : (parse called).Reaches p d r q) (k : called.Result → Routine α) :
    (Routine.call called k).Reaches p d r q := by
  cases reaches with
  | call => exact .call called k p
  | inside within => exact .inside within
  | after followed rest => cases rest

variable {β : Type}

/-- What is reached after a routine is reached from its start on. -/
theorem Routine.Runs.reaches_bind {α : Type} {routine : Routine α} {p p' q : Parser} {a : α} {d : Nat} {r : Rule}
    {f : α → Routine β} (runs : routine.Runs p (.ok a) p') (later : (f a).Reaches p' d r q) :
    (routine >>= f).Reaches p d r q := by
  change (routine.bind f).Reaches p d r q
  generalize given : (Except.ok a : Except ParseFailure α) = result at runs
  induction runs with
  | pure b p =>
    cases given
    exact later
  | next taken _ ih => exact .next taken (ih later given)
  | look looked _ ih => exact .look looked (ih later given)
  | call followed _ _ ih => exact .after followed (ih later given)
  | attempt tried popped _ _ ih => exact .attempt tried popped (ih later given)
  | otherwise tried illegal popped _ _ ih => exact .otherwise tried illegal popped (ih later given)
  | again turn _ _ ih => exact .again turn (ih later given)
  | done turn _ _ ih => exact .done turn (ih later given)
  | fail | nextFails | callFails | attemptFails | turnFails => cases given

/-! ## Bounded runs -/

/-- Rules are followed as they read the tokens ahead, and as they run without bounds, unless a bound is met. -/
structure Follows (follow : (r : Rule) → ParseM r.Result) (read : Reader) : Prop where
  within : ∀ r ahead, (read r ahead).Within ahead
  does : ∀ r (p : Parser) ahead, p.Facing ahead → p.Does (follow r) (read r ahead)
  runs : ∀ r (p : Parser) ahead, p.Facing ahead → (p.run (follow r)).1 ≠ .error .endless →
    r.body.Runs p (p.run (follow r)).1 (p.run (follow r)).2

/-- The parser meets no bound when it goes through the routine. -/
def Routine.Ends {α : Type} (follow : (r : Rule) → ParseM r.Result) (routine : Routine α) (p : Parser) : Prop :=
  (p.run (routine.exec follow)).1 ≠ .error .endless

/-- Wherever it stands, the parser goes through the routine as it is gone through without bounds, unless it meets
a bound. -/
def Faithful {α : Type} (follow : (r : Rule) → ParseM r.Result) (routine : Routine α) : Prop :=
  ∀ (p : Parser) (ahead : List Token), p.Facing ahead → routine.Ends follow p →
    routine.Runs p (p.run (routine.exec follow)).1 (p.run (routine.exec follow)).2

section

variable {α : Type} {follow : (r : Rule) → ParseM r.Result} {read : Reader}
  {p : Parser} {ahead : List Token}

variable {routine : Routine α}

theorem Follows.exec (sound : Follows follow read) (orderly : routine.Orderly)
    (facing : p.Facing ahead) : p.Does (routine.exec follow) (routine.read read ahead) :=
  does_exec sound.within sound.does orderly facing

/-- What fails, but not by a bound, does so whatever it would have given. -/
theorem not_endless {failure : ParseFailure}
    (ends : (.error failure : Except ParseFailure α) ≠ .error .endless) :
    (.error failure : Except ParseFailure β) ≠ .error .endless := by
  intro same
  cases same
  exact ends rfl

theorem faithful_loop (sound : Follows follow read) {σ : Type} {body : σ → Routine (σ × Bool)} {k : σ → Routine α}
    (orderly : ∀ s, (body s).Orderly) (turns : ∀ s, Faithful follow (body s)) (rest : ∀ s, Faithful follow (k s))
    (m : Nat) (s : σ) (facing : p.Facing ahead)
    (ends : (p.run (iterate (fun s => (body s).exec follow) m s >>= fun s => (k s).exec follow)).1 ≠ .error .endless) :
    (loop s body k).Runs p
      (p.run (iterate (fun s => (body s).exec follow) m s >>= fun s => (k s).exec follow)).1
      (p.run (iterate (fun s => (body s).exec follow) m s >>= fun s => (k s).exec follow)).2 := by
  induction m generalizing s p ahead with
  | zero => exact absurd rfl ends
  | succ m ih =>
    have after := (sound.exec (orderly s) facing).moved.facing
    have here := turns s p ahead facing
    unfold Routine.Ends at here
    rw [iterate, bind_assoc, run_bind] at ends ⊢
    rcases ran : p.run ((body s).exec follow) with ⟨failure | ⟨s', more⟩, p'⟩
    · rw [ran] at here ends
      exact .turnFails (here (not_endless ends))
    · rw [ran] at here after ends
      have turn := here (by simp)
      cases more with
      | true => exact .again turn (ih s' after ends)
      | false => exact .done turn (rest s' p' _ after ends)

/-- The induction is on the routine. -/
theorem Follows.faithful (sound : Follows follow read) (orderly : routine.Orderly) :
    Faithful follow routine := by
  induction routine with
  | pure a => exact fun p _ _ _ => .pure a p
  | fail failure => exact fun p _ _ _ => .fail failure p
  | next k ih =>
    intro p ahead facing ends
    have does : p.Does Parser.next (take.read Rule.reads ahead) := Parser.does_next facing
    have after := does.moved.facing
    unfold Routine.Ends at ends
    rw [Routine.exec, run_bind] at ends ⊢
    rcases ran : p.run Parser.next with ⟨failure | t, p'⟩
    · exact .nextFails ran
    · rw [ran] at after ends
      exact .next ran (ih t (orderly t) p' _ after ends)
  | look i k ih =>
    intro p ahead facing ends
    have does : p.Does (Parser.look i) ((lookAt i).read Rule.reads ahead) := Parser.does_look facing orderly.1
    have after := does.moved.facing
    unfold Routine.Ends at ends
    rw [Routine.exec, run_bind] at ends ⊢
    rcases ran : p.run (Parser.look i) with ⟨failure | t, p'⟩
    · cases does.result.symm.trans (congrArg Prod.fst ran)
    · rw [ran] at after ends
      exact .look ran (ih t (orderly.2 t) p' _ after ends)
  | call r k ih =>
    intro p ahead facing ends
    have after := (sound.does r p ahead facing).moved.facing
    have followed := sound.runs r p ahead facing
    unfold Routine.Ends at ends
    rw [Routine.exec, run_bind] at ends ⊢
    rcases ran : p.run (follow r) with ⟨failure | x, p'⟩
    · rw [ran] at followed ends
      exact .callFails (followed (not_endless ends))
    · rw [ran] at followed after ends
      exact .call (followed (by simp)) (ih x (orderly x) p' _ after ends)
  | attempt body k otherwise ihBody ihRest ihOtherwise =>
    obtain ⟨-, bodyOrderly, restOrderly, otherwiseOrderly⟩ := orderly
    intro p ahead facing ends
    have moved := (sound.exec bodyOrderly facing.marked).moved
    have within := body.read_within sound.within ahead
    have tried := ihBody bodyOrderly p.marked ahead facing.marked
    unfold Routine.Ends at tried ends
    rw [Routine.exec, run_bind, Parser.run_attempt] at ends ⊢
    rcases ran : p.marked.run (body.exec follow) with ⟨failure | x, p'⟩
    · rw [ran] at moved tried ends
      dsimp only at moved ends ⊢
      have saved := moved.saved_marked facing
      have back := (moved.back facing within).facing
      rw [run_pop saved] at ends ⊢
      by_cases illegal : failure.isIllegal = true
      · simp only [if_pos illegal] at ends ⊢
        have other : failure ≠ .endless := by
          rintro rfl
          cases illegal
        exact .otherwise (tried (by simpa using other)) illegal (run_pop_saved saved true)
          (ihOtherwise otherwiseOrderly _ _ back ends)
      · simp only [if_neg illegal] at ends ⊢
        exact .attemptFails (tried (not_endless ends)) (Bool.eq_false_of_not_eq_true illegal) (run_pop_saved saved true)
    · rw [ran] at moved tried ends
      dsimp only at moved ends ⊢
      have saved := moved.saved_marked facing
      have after := moved.facing
      rw [run_pop saved] at ends ⊢
      exact .attempt (tried (by simp)) (run_pop_saved saved false)
        (ihRest x (restOrderly x) _ _ ⟨after.default, after.marker, after.drop⟩ ends)
  | loop s body k ihBody ihRest =>
    intro p ahead facing ends
    exact faithful_loop sound orderly.1 (fun s => ihBody s (orderly.1 s)) (fun s => ihRest s (orderly.2 s)) p.turns s
      facing ends

theorem Routine.exec_bind (follow : (r : Rule) → ParseM r.Result) (routine : Routine α) (f : α → Routine β)
    : (routine >>= f).exec follow = routine.exec follow >>= fun a => (f a).exec follow := by
  change (routine.bind f).exec follow = _
  induction routine with
  | pure a => simp only [bind, exec, pure_bind]
  | fail failure => rfl
  | next k ih => simp only [bind, exec, bind_assoc, ih]
  | look i k ih => simp only [bind, exec, bind_assoc, ih]
  | call r k ih => simp only [bind, exec, bind_assoc, ih]
  | attempt body k otherwise _ ihRest ihOtherwise =>
    simp only [bind, exec, bind_assoc]
    congr 1
    funext found
    cases found with
    | some x => exact ihRest x f
    | none => exact ihOtherwise f
  | loop s body k _ ihRest => simp only [bind, exec, bind_assoc, ihRest]

end

/-- **What a parser does is the run without bounds**, unless it meets a bound: with rules nested at most `n` deep. -/
theorem follows_run (n : Nat) : Follows (Rule.run plainly n) (Rule.readWithin n) := by
  refine ⟨Rule.readWithin_within n, fun r _ _ facing => does_run n r facing, fun r p ahead facing ends => ?_⟩
  induction n generalizing r p ahead with
  | zero => exact absurd rfl ends
  | succ n ih =>
    have sound : Follows (Rule.run plainly n) (Rule.readWithin n) :=
      ⟨Rule.readWithin_within n, fun r _ _ facing => does_run n r facing, ih⟩
    exact sound.faithful r.body_orderly p ahead facing ends

theorem run_follow (p : Parser) (r : Rule) : p.run (Parser.follow plainly r) = p.run (r.run plainly p.nesting) := by
  have got : p.run get = (.ok p, p) := rfl
  rw [Parser.follow, run_bind, got]

theorem follows_follow : Follows (Parser.follow plainly) Rule.reads := by
  refine ⟨fun r ahead => r.readWithin_within _ ahead, fun r _ _ facing => follow_does r facing, ?_⟩
  intro r p ahead facing ends
  rw [run_follow] at ends ⊢
  exact (follows_run p.nesting).runs r p ahead facing ends

end JavaSource.Grammar
