import JavaSource.Proofs.Termination.Pace

/-!
# Runs taken apart

A run comes to one end at most: `Routine.Runs.unique`. The run of one routine after another is a run of the first and
then one of the second (`Routine.Runs.of_bind`), and what it reaches is reached by one of the two
(`Routine.Reaches.of_bind`). A loop comes from state to state by its turns (`Comes`), and it does not end where each of
them leads to another: `not_runs_loop`.
-/

namespace JavaSource.Grammar

open Routine

open JavaSource.Parser (exec_does)

namespace Routine

variable {α β σ : Type} {p p' q q' : Parser}

variable {routine : Routine α} {f : α → Routine β} {r : Rule}

/-- **Runs are determined** by the parser from which they start. -/
theorem Runs.unique {result result' : Except ParseFailure α} (runs : routine.Runs p result q)
    (other : routine.Runs p result' q') : result = result' ∧ q = q' := by
  induction runs generalizing q' with
  | pure =>
    cases other
    exact ⟨rfl, rfl⟩
  | fail =>
    cases other
    exact ⟨rfl, rfl⟩
  | next taken _ ih =>
    cases other with
    | next taken' rest =>
      cases taken.symm.trans taken'
      exact ih rest
    | nextFails ended => cases taken.symm.trans ended
  | nextFails ended =>
    cases other with
    | next taken => cases ended.symm.trans taken
    | nextFails ended' =>
      cases ended.symm.trans ended'
      exact ⟨rfl, rfl⟩
  | look looked _ ih =>
    cases other with
    | look looked' rest =>
      cases looked.symm.trans looked'
      exact ih rest
  | call _ _ ihRule ih =>
    cases other with
    | call followed rest =>
      obtain ⟨⟨⟩, rfl⟩ := ihRule followed
      exact ih rest
    | callFails followed => cases (ihRule followed).1
  | callFails _ ih =>
    cases other with
    | call followed => cases (ih followed).1
    | callFails followed =>
      obtain ⟨⟨⟩, rfl⟩ := ih followed
      exact ⟨rfl, rfl⟩
  | attempt _ popped _ ihTried ih =>
    cases other with
    | attempt tried popped' rest =>
      obtain ⟨⟨⟩, rfl⟩ := ihTried tried
      cases popped.symm.trans popped'
      exact ih rest
    | otherwise tried => cases (ihTried tried).1
    | attemptFails tried => cases (ihTried tried).1
  | otherwise _ illegal popped _ ihTried ih =>
    cases other with
    | attempt tried => cases (ihTried tried).1
    | otherwise tried _ popped' rest =>
      obtain ⟨⟨⟩, rfl⟩ := ihTried tried
      cases popped.symm.trans popped'
      exact ih rest
    | attemptFails tried legal =>
      obtain ⟨⟨⟩, -⟩ := ihTried tried
      exact absurd (legal.symm.trans illegal) Bool.false_ne_true
  | attemptFails _ legal popped ihTried =>
    cases other with
    | attempt tried => cases (ihTried tried).1
    | otherwise tried illegal =>
      obtain ⟨⟨⟩, -⟩ := ihTried tried
      exact absurd (legal.symm.trans illegal) Bool.false_ne_true
    | attemptFails tried _ popped' =>
      obtain ⟨⟨⟩, rfl⟩ := ihTried tried
      cases popped.symm.trans popped'
      exact ⟨rfl, rfl⟩
  | again _ _ ihTurn ih =>
    cases other with
    | again turn rest =>
      obtain ⟨⟨⟩, rfl⟩ := ihTurn turn
      exact ih rest
    | done turn => cases (ihTurn turn).1
    | turnFails turn => cases (ihTurn turn).1
  | done _ _ ihTurn ih =>
    cases other with
    | again turn => cases (ihTurn turn).1
    | done turn rest =>
      obtain ⟨⟨⟩, rfl⟩ := ihTurn turn
      exact ih rest
    | turnFails turn => cases (ihTurn turn).1
  | turnFails _ ih =>
    cases other with
    | again turn => cases (ih turn).1
    | done turn => cases (ih turn).1
    | turnFails turn =>
      obtain ⟨⟨⟩, rfl⟩ := ih turn
      exact ⟨rfl, rfl⟩

/-! ## Loops -/

/-- **The turns of a loop**: after some number of turns that lead to another one, it comes from a state to a state, and
from a parser to a parser. -/
inductive Comes (body : σ → Routine (σ × Bool)) : Nat → σ → Parser → σ → Parser → Prop
  | start (s : σ) (p : Parser) : Comes body 0 s p s p
  | turn {n : Nat} {s s' s'' : σ} {p p' q : Parser} (turn : (body s).Runs p (.ok (s', true)) p')
    (rest : Comes body n s' p' s'' q) : Comes body (n + 1) s p s'' q

variable {d : Nat}

section

variable {body : σ → Routine (σ × Bool)} {k : σ → Routine α} {n : Nat} {s s' s'' : σ}

theorem Comes.next (comes : Comes body n s p s' p') (turn : (body s').Runs p' (.ok (s'', true)) q) :
    Comes body (n + 1) s p s'' q := by
  induction comes with
  | start => exact .turn turn (.start _ _)
  | turn first _ ih => exact .turn first (ih turn)

/-- What holds at the start and is kept by every turn holds wherever a loop comes to. -/
theorem Comes.keeps (Inv : σ → Parser → Prop) (comes : Comes body n s p s' p') (inv : Inv s p)
    (turn : ∀ s p s' p', Inv s p → (body s).Runs p (.ok (s', true)) p' → Inv s' p') : Inv s' p' := by
  induction comes with
  | start => exact inv
  | turn first _ ih => exact ih (turn _ _ _ _ inv first)

variable {result : Except ParseFailure α}

/-- What a loop does after some turns is what it does. -/
theorem Comes.runs (comes : Comes body n s p s' p')
    (runs : (loop s' body k).Runs p' result q) : (loop s body k).Runs p result q := by
  induction comes with
  | start => exact runs
  | turn first _ ih => exact .again first (ih runs)

theorem Comes.reaches (comes : Comes body n s p s' p')
    (reaches : (loop s' body k).Reaches p' d r q) : (loop s body k).Reaches p d r q := by
  induction comes with
  | start => exact reaches
  | turn first _ ih => exact .again first (ih reaches)

/-- The run of a loop goes on from wherever the loop comes to. -/
theorem Comes.runs_on (comes : Comes body n s p s' p')
    (runs : (loop s body k).Runs p result q) : (loop s' body k).Runs p' result q := by
  induction comes with
  | start => exact runs
  | turn first _ ih =>
    cases runs with
    | again turn rest =>
      obtain ⟨⟨⟩, rfl⟩ := first.unique turn
      exact ih rest
    | done turn => cases (first.unique turn).1
    | turnFails turn => cases (first.unique turn).1

/-- **A loop that ends** comes to a last turn. -/
theorem Runs.of_loop (runs : (loop s body k).Runs p result q) : ∃ n s' p', Comes body n s p s' p' ∧
      ((∃ s'' p'', (body s').Runs p' (.ok (s'', false)) p'' ∧ (k s'').Runs p'' result q) ∨
        ∃ failure, result = .error failure ∧ (body s').Runs p' (.error failure) q) := by
  generalize whole : loop s body k = routine at runs
  induction runs generalizing s with
  | again turn _ _ ih =>
    cases whole
    obtain ⟨n, s', p', comes, last⟩ := ih rfl
    exact ⟨n + 1, s', p', .turn turn comes, last⟩
  | done turn rest =>
    cases whole
    exact ⟨0, _, _, .start _ _, .inl ⟨_, _, turn, rest⟩⟩
  | turnFails turn =>
    cases whole
    exact ⟨0, _, _, .start _ _, .inr ⟨_, rfl, turn⟩⟩
  | _ => cases whole

/-- **A loop does not end** where each turn leads to another. -/
theorem not_runs_loop {Inv : σ → Parser → Prop} (inv : Inv s p)
    (turn : ∀ s p, Inv s p → ∃ s' p', (body s).Runs p (.ok (s', true)) p' ∧ Inv s' p') :
    ¬ ∃ result q, (loop s body k).Runs p result q := by
  rintro ⟨result, q, runs⟩
  obtain ⟨n, s', p', comes, last⟩ := runs.of_loop
  have here : Inv s' p' := comes.keeps Inv inv fun s p s' p' inv goes => by
    obtain ⟨t, r, goes', inv'⟩ := turn s p inv
    obtain ⟨⟨⟩, rfl⟩ := goes.unique goes'
    exact inv'
  obtain ⟨t, r, goes, -⟩ := turn s' p' here
  rcases last with ⟨s'', p'', ends, -⟩ | ⟨failure, -, fails⟩
  · cases (goes.unique ends).1
  · cases (goes.unique fails).1

theorem Reaches.of_loop (reaches : (loop s body k).Reaches p d r q) :
    ∃ n s' p', Comes body n s p s' p' ∧
      ((body s').Reaches p' d r q ∨
        ∃ s'' p'', (body s').Runs p' (.ok (s'', false)) p'' ∧ (k s'').Reaches p'' d r q) := by
  generalize whole : loop s body k = routine at reaches
  induction reaches generalizing s with
  | turn within =>
    cases whole
    exact ⟨0, _, _, .start _ _, .inl within⟩
  | again turn _ ih =>
    cases whole
    obtain ⟨n, s', p', comes, last⟩ := ih rfl
    exact ⟨n + 1, s', p', .turn turn comes, last⟩
  | done turn rest =>
    cases whole
    exact ⟨0, _, _, .start _ _, .inr ⟨_, _, turn, rest⟩⟩
  | _ => cases whole

end

/-! ## One routine after the other -/

theorem bind_bind {γ : Type} (routine : Routine α) (f : α → Routine β) (g : β → Routine γ) :
    (routine >>= f) >>= g = routine >>= fun a => f a >>= g := by
  change (routine.bind f).bind g = routine.bind fun a => (f a).bind g
  induction routine with
  | pure a => rfl
  | fail failure => rfl
  | next k ih => simp only [bind, ih]
  | look i k ih => simp only [bind, ih]
  | call r k ih => simp only [bind, ih]
  | attempt body k otherwise _ ihRest ihOtherwise => simp only [bind, ihRest, ihOtherwise]
  | loop s body k _ ihRest => simp only [bind, ihRest]

/-- What became of the first of two routines: it gave a value and the second went on from there, or it failed. -/
inductive Runs.Then (routine : Routine α) (f : α → Routine β) (p : Parser) : Except ParseFailure β → Parser → Prop
  | ok {a : α} {p' q : Parser} {result : Except ParseFailure β} (first : routine.Runs p (.ok a) p')
    (second : (f a).Runs p' result q) : Runs.Then routine f p result q
  | failed {failure : ParseFailure} {q : Parser} (first : routine.Runs p (.error failure) q) :
    Runs.Then routine f p (.error failure) q

variable {result : Except ParseFailure β}

theorem Runs.of_bind
    (runs : (routine >>= f).Runs p result q) : Runs.Then routine f p result q := by
  change (routine.bind f).Runs p result q at runs
  induction routine generalizing p with
  | pure a => exact .ok (.pure a p) runs
  | fail failure =>
    cases runs
    exact .failed (.fail failure _)
  | next k ih =>
    cases runs with
    | next taken rest =>
      cases ih _ rest with
      | ok first second => exact .ok (.next taken first) second
      | failed first => exact .failed (.next taken first)
    | nextFails ended => exact .failed (.nextFails ended)
  | look i k ih =>
    cases runs with
    | look looked rest =>
      cases ih _ rest with
      | ok first second => exact .ok (.look looked first) second
      | failed first => exact .failed (.look looked first)
  | call r k ih =>
    cases runs with
    | call followed rest =>
      cases ih _ rest with
      | ok first second => exact .ok (.call followed first) second
      | failed first => exact .failed (.call followed first)
    | callFails followed => exact .failed (.callFails followed)
  | attempt body k otherwise _ ihRest ihOtherwise =>
    cases runs with
    | attempt tried popped rest =>
      cases ihRest _ rest with
      | ok first second => exact .ok (.attempt tried popped first) second
      | failed first => exact .failed (.attempt tried popped first)
    | otherwise tried illegal popped rest =>
      cases ihOtherwise rest with
      | ok first second => exact .ok (.otherwise tried illegal popped first) second
      | failed first => exact .failed (.otherwise tried illegal popped first)
    | attemptFails tried legal popped => exact .failed (.attemptFails tried legal popped)
  | loop s body k _ ih =>
    obtain ⟨n, s', p', comes, ⟨s'', p'', last, rest⟩ | ⟨failure, rfl, fails⟩⟩ := Runs.of_loop runs
    · cases ih _ rest with
      | ok first second => exact .ok (comes.runs (.done last first)) second
      | failed first => exact .failed (comes.runs (.done last first))
    · exact .failed (comes.runs (.turnFails fails))

/-- What one routine after the other reaches, the first one reaches, or the second one from where the first ends. -/
theorem Reaches.of_bind (reaches : (routine >>= f).Reaches p d r q) :
    routine.Reaches p d r q ∨ ∃ a p', routine.Runs p (.ok a) p' ∧ (f a).Reaches p' d r q := by
  change (routine.bind f).Reaches p d r q at reaches
  induction routine generalizing p with
  | pure a => exact .inr ⟨a, p, .pure a p, reaches⟩
  | fail failure => cases reaches
  | next k ih =>
    cases reaches with
    | next taken rest =>
      exact (ih _ rest).imp (.next taken) fun ⟨a, p', first, second⟩ => ⟨a, p', .next taken first, second⟩
  | look i k ih =>
    cases reaches with
    | look looked rest =>
      exact (ih _ rest).imp (.look looked) fun ⟨a, p', first, second⟩ => ⟨a, p', .look looked first, second⟩
  | call called k ih =>
    cases reaches with
    | call => exact .inl (.call _ k _)
    | inside within => exact .inl (.inside within)
    | after followed rest =>
      exact (ih _ rest).imp (.after followed) fun ⟨a, p', first, second⟩ => ⟨a, p', .call followed first, second⟩
  | attempt body k otherwise _ ihRest ihOtherwise =>
    cases reaches with
    | tried within => exact .inl (.tried within)
    | attempt tried popped rest =>
      exact (ihRest _ rest).imp (.attempt tried popped)
        fun ⟨a, p', first, second⟩ => ⟨a, p', .attempt tried popped first, second⟩
    | otherwise tried illegal popped rest =>
      exact (ihOtherwise rest).imp (.otherwise tried illegal popped)
        fun ⟨a, p', first, second⟩ => ⟨a, p', .otherwise tried illegal popped first, second⟩
  | loop s body k _ ih =>
    obtain ⟨n, s', p', comes, within | ⟨s'', p'', last, rest⟩⟩ := Reaches.of_loop reaches
    · exact .inl (comes.reaches (.turn within))
    · exact (ih _ rest).imp (fun first => comes.reaches (.done last first))
        fun ⟨a, p', first, second⟩ => ⟨a, p', comes.runs (.done last first), second⟩

/-! ## The rules that a routine follows itself -/

/-- The routine itself follows only rules of the given kind. -/
def Calls (may : Rule → Prop) : {α : Type} → Routine α → Prop
  | _, .pure _ => True
  | _, .fail _ => True
  | _, .next k => ∀ t, (k t).Calls may
  | _, .look _ k => ∀ t, (k t).Calls may
  | _, .call r k => may r ∧ ∀ x, (k x).Calls may
  | _, .attempt body k otherwise => body.Calls may ∧ (∀ x, (k x).Calls may) ∧ otherwise.Calls may
  | _, .loop _ body k => (∀ s, (body s).Calls may) ∧ ∀ s, (k s).Calls may

theorem Reaches.pos (reaches : routine.Reaches p d r q) : 0 < d := by
  induction reaches with
  | call => exact Nat.one_pos
  | inside => exact Nat.succ_pos _
  | _ => assumption

variable {may : Rule → Prop}

/-- A rule that a run comes to follow, inside of no other, is one that the routine itself follows. -/
theorem Reaches.called (reaches : routine.Reaches p 1 r q)
    (calls : routine.Calls may) : may r := by
  generalize outermost : 1 = d at reaches
  induction reaches with
  | next _ _ ih => exact ih (calls _) outermost
  | look _ _ ih => exact ih (calls _) outermost
  | call => exact calls.1
  | inside within =>
    have := within.pos
    omega
  | after _ _ ih => exact ih (calls.2 _) outermost
  | tried _ ih => exact ih calls.1 outermost
  | attempt _ _ _ ih => exact ih (calls.2.1 _) outermost
  | otherwise _ _ _ _ ih => exact ih calls.2.2 outermost
  | turn _ ih => exact ih (calls.1 _) outermost
  | again _ _ ih => exact ih calls outermost
  | done _ _ ih => exact ih (calls.2 _) outermost

theorem calls_bind (first : routine.Calls may)
    (rest : ∀ a, (f a).Calls may) : (routine >>= f).Calls may := by
  change (routine.bind f).Calls may
  induction routine with
  | pure a => exact rest a
  | fail => trivial
  | next k ih => exact fun t => ih t (first t) rest
  | look i k ih => exact fun t => ih t (first t) rest
  | call r k ih => exact ⟨first.1, fun x => ih x (first.2 x) rest⟩
  | attempt body k otherwise _ ihRest ihOtherwise =>
    exact ⟨first.1, fun x => ihRest x (first.2.1 x) rest, ihOtherwise first.2.2 rest⟩
  | loop s body k _ ihRest => exact ⟨first.1, fun s => ihRest s (first.2 s) rest⟩

/-! ## Routines that are known to end -/

section

variable {ahead later : List Token} {routine : Routine α} {a : α}

/-- **A routine runs as it is read**, where its reading ends. -/
theorem runs_read (orderly : routine.Orderly) (facing : p.Facing ahead)
    (ends : (routine.read Rule.reads ahead).result ≠ .error .endless) :
    ∃ p', p'.Facing (routine.read Rule.reads ahead).ahead ∧
      routine.Runs p (routine.read Rule.reads ahead).result p' := by
  have does := exec_does orderly facing
  have runs := follows_follow.faithful orderly p ahead facing (does.result.trans_ne ends)
  exact ⟨_, does.moved.facing, does.result ▸ runs⟩

theorem runs_of_read (orderly : routine.Orderly) (facing : p.Facing ahead)
    (read : routine.read Rule.reads ahead = .ok a later) :
    ∃ p', p'.Facing later ∧ routine.Runs p (.ok a) p' := by
  have runs := runs_read orderly facing (by rw [read]; exact fun same => by cases same)
  rwa [read] at runs

/-- Behind a routine that is known to end, the run goes on from where it leaves the parser. -/
theorem Runs.behind (orderly : routine.Orderly)
    (facing : p.Facing ahead) (read : routine.read Rule.reads ahead = .ok a later)
    (runs : (routine >>= f).Runs p result q) : ∃ p', p'.Facing later ∧ (f a).Runs p' result q := by
  obtain ⟨p', facing', first⟩ := runs_of_read orderly facing read
  cases runs.of_bind with
  | ok first' second =>
    obtain ⟨⟨⟩, rfl⟩ := first.unique first'
    exact ⟨p', facing', second⟩
  | failed fails => cases (first.unique fails).1

end

end Routine

end JavaSource.Grammar
