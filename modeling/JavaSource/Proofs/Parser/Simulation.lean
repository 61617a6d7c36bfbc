import Mathlib
import JavaSource.Proofs.Parser.Reading
import JavaSource.Proofs.Parser.Steps

/-!
# Parsers do what readings say

A parser in front of some tokens follows a rule just as the rule reads these tokens: `Parser.follow_does`.
Besides moving, it changes nothing but the marker on top of those that are set, and this only by an attempt
that succeeds.
-/

namespace JavaSource

open List

open Grammar

namespace Parser

/-- The parser stands in front of the tokens. -/
structure Facing (p : Parser) (ahead : List Token) : Prop where
  default : p.tokens.default = none
  marker : p.tokens.marker ≤ p.tokens.values.size
  drop : p.tokens.values.toList.drop p.tokens.marker = ahead

def indexOf (p : Parser) (last : List Token) : Nat := p.tokens.values.size - last.length

/-- The markers of a parser after an index is handed down to the one on top. -/
def savedAfter (p : Parser) : Option (List Token) → List Nat
  | none => p.tokens.saved
  | some mark => Cursor.commit (p.indexOf mark) p.tokens.saved

/-- The parser `q` is the parser `p` in front of other tokens, after a marker was handed down if one was. -/
structure Moved (p q : Parser) (ahead : List Token) (handed : Option (List Token)) : Prop where
  facing : q.Facing ahead
  values : q.tokens.values = p.tokens.values
  saved : q.tokens.saved = p.savedAfter handed
  debug : q.debug = p.debug
  depth : q.depth = p.depth
  printed : q.printed = p.printed

/-- What is done with the parser comes to the outcome of a reading. -/
structure Does {α : Type} (p : Parser) (action : ParseM α) (o : Outcome α) : Prop where
  result : (p.run action).1 = o.result
  moved : p.Moved (p.run action).2 o.ahead o.handed

/-! ## Places -/

theorem facing_ofTokens (tokens : List Token) : (ofTokens tokens).Facing tokens :=
  ⟨rfl, Nat.zero_le _, rfl⟩

namespace Facing

variable {p : Parser} {ahead : List Token}

theorem length (facing : p.Facing ahead) : ahead.length = p.tokens.values.size - p.tokens.marker := by
  simp [← facing.drop]

theorem suffix (facing : p.Facing ahead) : ahead <:+ p.tokens.values.toList := by
  rw [← facing.drop]
  exact drop_suffix _ _

theorem indexOf_eq (facing : p.Facing ahead) : p.indexOf ahead = p.tokens.marker := by
  have := facing.marker
  rw [indexOf, facing.length]
  omega

theorem turns_eq (facing : p.Facing ahead) : p.turns = ahead.length + 2 := by
  rw [turns, Cursor.remaining, facing.length]

theorem nesting_eq (facing : p.Facing ahead) : p.nesting = nestingOf ahead.length := by
  rw [nesting, nestingOf, Cursor.remaining, facing.length]

theorem getElem? (facing : p.Facing ahead) (i : Nat) : p.tokens.values[p.tokens.marker + i]? = ahead[i]? := by
  rw [← facing.drop, getElem?_drop, Array.getElem?_toList]

end Facing

variable {p : Parser} {ahead : List Token}

/-- The tokens after an index that was computed for them. -/
theorem drop_indexOf {mark : List Token} (suffix : mark <:+ p.tokens.values.toList) :
    p.tokens.values.toList.drop (p.indexOf mark) = mark := by
  obtain ⟨before, split⟩ := suffix
  have size : p.tokens.values.size = before.length + mark.length := by
    rw [← Array.length_toList, ← split, length_append]
  rw [indexOf, size, Nat.add_sub_cancel, ← split, drop_left]

theorem indexOf_congr {q : Parser} (values : q.tokens.values = p.tokens.values)
    (mark : List Token) : q.indexOf mark = p.indexOf mark := by
  rw [indexOf, indexOf, values]

theorem commit_commit (i j : Nat) (saved : List Nat) :
    Cursor.commit j (Cursor.commit i saved) = Cursor.commit j saved := by
  cases saved <;> rfl

namespace Moved

variable {p q r : Parser} {ahead later : List Token} {handed handed' : Option (List Token)}

theorem trans (first : p.Moved q ahead handed) (second : q.Moved r later handed') :
    p.Moved r later (handed'.or handed) := by
  refine ⟨second.facing, second.values.trans first.values, ?_, second.debug.trans first.debug,
    second.depth.trans first.depth, second.printed.trans first.printed⟩
  rw [second.saved]
  cases handed' with
  | none => exact first.saved
  | some mark =>
    have saved := first.saved
    simp only [savedAfter, indexOf_congr first.values, Option.some_or] at saved ⊢
    cases handed with
    | none => rw [saved]
    | some _ => rw [saved, commit_commit]

/-- The parser is where it was, whatever it delivered last. -/
theorem here (facing : p.Facing ahead) (last : Option Token) :
    p.Moved { p with tokens := { p.tokens with last } } ahead none :=
  ⟨⟨facing.default, facing.marker, facing.drop⟩, rfl, rfl, rfl, rfl, rfl⟩

end Moved

/-! ## Doing one thing after the other -/

variable {read : Reader}

section Combinators

variable {α β : Type} {p : Parser} {ahead : List Token}

variable {o : Outcome α} {q : Parser} {action : ParseM α}

theorem Does.of_run (ran : p.run action = (o.result, q)) (moved : p.Moved q o.ahead o.handed) : p.Does action o :=
  ⟨by rw [ran], by rw [ran]; exact moved⟩

theorem does_pure (facing : p.Facing ahead) (a : α) : p.Does (pure a) (.ok a ahead) :=
  ⟨rfl, .here facing p.tokens.last⟩

theorem does_throw (facing : p.Facing ahead) (failure : ParseFailure) :
    p.Does (throw failure : ParseM α) { result := .error failure, ahead } :=
  ⟨rfl, .here facing p.tokens.last⟩

/-- What a parser does first and what it does then, as one run. -/
theorem run_bind (p : Parser) (action : ParseM α) (f : α → ParseM β) : p.run (action >>= f) =
      match p.run action with
      | (.ok a, q) => q.run (f a)
      | (.error failure, q) => (.error failure, q) := by
  simp only [run, ExceptT.run_bind, StateT.run_bind]
  change (match StateT.run (ExceptT.run action) p with | (a, q) => _) = _
  rcases StateT.run (ExceptT.run action) p with ⟨_ | a, q⟩ <;> rfl

variable {f : α → ParseM β}

theorem does_bind {g : α → List Token → Outcome β} (first : p.Does action o)
    (second : ∀ a q, Facing q o.ahead → q.Does (f a) (g a o.ahead)) : p.Does (action >>= f) (o.andThen g) := by
  obtain ⟨result, moved⟩ := first
  have run_eq := run_bind p action f
  rcases ran : p.run action with ⟨failure | a, q⟩
  · rw [ran] at result moved run_eq
    rw [Outcome.andThen_error result.symm]
    exact .of_run run_eq moved
  · rw [ran] at result moved run_eq
    rw [Outcome.andThen_ok result.symm]
    have later := second a q moved.facing
    exact .of_run (run_eq.trans (Prod.ext later.result rfl)) (moved.trans later.moved)

variable {a : α}

/-- What follows an action that succeeds is done by the parser that the action leaves. -/
theorem Does.run_bind_ok (does : p.Does action o) (ok : o.result = .ok a) (f : α → ParseM β) :
    ∃ q, p.Moved q o.ahead o.handed ∧ p.run (action >>= f) = q.run (f a) := by
  have result := does.result.trans ok
  refine ⟨(p.run action).2, does.moved, ?_⟩
  rw [run_bind]
  rcases ran : p.run action with ⟨r, q⟩
  rw [ran] at result
  cases result
  rfl

theorem run_bind_error {failure : ParseFailure} (failed : (p.run action).1 = .error failure) (f : α → ParseM β) :
    (p.run (action >>= f)).1 = .error failure := by
  rw [run_bind]
  rcases ran : p.run action with ⟨r, q⟩
  rw [ran] at failed
  cases failed
  rfl

/-- An action that hands no marker down, and what is done after it. -/
theorem does_bind_plain {later : List Token}
    {o : Outcome β} (first : p.Does action (.ok a later))
    (second : ∀ q, Facing q later → q.Does (f a) o) : p.Does (action >>= f) o := by
  obtain ⟨q, moved, run_eq⟩ := first.run_bind_ok rfl f
  have after := second q moved.facing
  have moved := moved.trans after.moved
  rw [Option.or_none] at moved
  exact .of_run (run_eq.trans (Prod.ext after.result rfl)) moved

theorem run_get (p : Parser) (f : Parser → ParseM α) : p.run (get >>= f) = p.run (f p) := by
  have got : p.run get = (.ok p, p) := rfl
  rw [run_bind, got]

theorem does_get {f : Parser → ParseM α} (does : p.Does (f p) o) : p.Does (get >>= f) o :=
  .of_run ((run_get p f).trans (Prod.ext does.result rfl)) does.moved

theorem does_map (f : α → β) (does : p.Does action o) :
    p.Does (f <$> action) (o.andThen fun a ahead => .ok (f a) ahead) := by
  rw [map_eq_pure_bind]
  exact does_bind does fun a q facing => does_pure facing (f a)

theorem does_outcome (does : p.Does action o) :
    p.Does (outcome action) { result := .ok o.result, ahead := o.ahead, handed := o.handed } :=
  ⟨congrArg Except.ok does.result, does.moved⟩

theorem does_next (facing : p.Facing ahead) : p.Does next (take.read read ahead) := by
  have first := facing.getElem? 0
  cases ahead with
  | nil =>
    have ran : p.run next = (.error .endOfInput, p) := by
      change next p = _
      simp only [next, Cursor.next, Nat.add_zero, getElem?_nil] at first ⊢
      rw [first]
    exact .of_run ran (.here facing p.tokens.last)
  | cons t ahead =>
    have ran : p.run next = (.ok t,
        { p with tokens := { p.tokens with marker := p.tokens.marker + 1, last := some t } }) := by
      change next p = _
      simp only [next, Cursor.next, Nat.add_zero, getElem?_cons_zero] at first ⊢
      rw [first]
    have length := facing.length
    have drop : p.tokens.values.toList.drop (p.tokens.marker + 1) = ahead := by
      rw [← drop_drop, facing.drop, drop_one, tail_cons]
    rw [length_cons] at length
    exact .of_run ran ⟨⟨facing.default, by simp only; omega, drop⟩, rfl, rfl, rfl, rfl, rfl⟩

theorem does_look (facing : p.Facing ahead)
    {i : Int} (nonneg : 0 ≤ i) : p.Does (look i) ((lookAt i).read read ahead) := by
  have value : p.tokens.value? (p.tokens.marker + i) = ahead[i.toNat]? := by
    rw [Cursor.value?, if_pos (by omega), ← facing.getElem?]
    congr 1
    omega
  have looked : ∃ last, p.tokens.look i = (ahead[i.toNat]?, { p.tokens with last }) := by
    rw [Cursor.look, value]
    cases ahead[i.toNat]? with
    | none => exact ⟨p.tokens.last, congrArg (·, p.tokens) facing.default⟩
    | some t => exact ⟨some t, rfl⟩
  obtain ⟨last, looked⟩ := looked
  have ran : p.run (look i) =
      (.ok ahead[i.toNat]?, { p with tokens := { p.tokens with last } }) := by
    change look i p = _
    rw [look, looked]
  exact .of_run ran (.here facing last)

/-- A loop is a repeated reading. -/
theorem does_iterate {σ : Type} {step : σ → ParseM (σ × Bool)} {read : σ → List Token → Outcome (σ × Bool)}
    (step_does : ∀ s q ahead, Facing q ahead → q.Does (step s) (read s ahead)) (n : Nat) (s : σ)
    (facing : p.Facing ahead) : p.Does (iterate step n s) (repeated read n s ahead) := by
  induction n generalizing s p ahead with
  | zero => exact does_throw facing _
  | succ n ih =>
    refine does_bind (step_does s p ahead facing) fun (s, more) q facing => ?_
    cases more with
    | true => exact ih s facing
    | false => exact does_pure facing s

def marked (p : Parser) : Parser := { p with tokens := p.tokens.push }

theorem Facing.marked (facing : p.Facing ahead) : p.marked.Facing ahead :=
  ⟨facing.default, facing.marker, facing.drop⟩

/-- The marker that was set leads to where the parser was, or to where one was handed down. -/
theorem Moved.saved_marked (facing : p.Facing ahead) (moved : p.marked.Moved q o.ahead o.handed) :
    q.tokens.saved = p.indexOf (o.mark ahead) :: p.tokens.saved := by
  rw [moved.saved]
  cases handed : o.handed with
  | none => rw [Outcome.mark, handed, Option.getD_none, facing.indexOf_eq]; rfl
  | some mark => rw [Outcome.mark, handed]; rfl

/-- The parser is back at the marker that it set, and has given it up. -/
theorem Moved.back (facing : p.Facing ahead) (within : o.Within ahead) (moved : p.marked.Moved q o.ahead o.handed) :
    p.Moved { q with tokens := { q.tokens with
      marker := p.indexOf (o.mark ahead), saved := p.tokens.saved } } (o.mark ahead) none := by
  have suffix : o.mark ahead <:+ p.tokens.values.toList := within.mark.trans facing.suffix
  refine ⟨⟨moved.facing.default, ?_, ?_⟩, moved.values, rfl, moved.debug, moved.depth, moved.printed⟩
  · rw [moved.values]
    exact Nat.sub_le _ _
  · rw [moved.values]
    exact drop_indexOf suffix

/-- What an attempt does: after the action, it gives up the marker that it set. -/
theorem run_attempt (p : Parser) (action : ParseM α) : p.run (attempt action) =
      match p.marked.run action with
      | (.ok a, q) => q.run (do pop false; return some a)
      | (.error failure, q) =>
        q.run (do pop true; if failure.isIllegal then return none else throw failure) := by
  have pushed : p.run push = (.ok (), p.marked) := rfl
  have told : p.marked.run (outcome action) =
      (.ok (p.marked.run action).1, (p.marked.run action).2) := rfl
  rw [attempt, run_bind, pushed]
  dsimp only
  rw [run_bind p.marked, told]
  rcases p.marked.run action with ⟨failure | a, q⟩ <;> rfl

variable {m : Nat} {rest : List Nat}

/-- Giving up the marker on top of those that are set. -/
theorem run_pop_saved (saved : q.tokens.saved = m :: rest) (reset : Bool) :
    q.run (pop reset) = (.ok (), { q with tokens :=
      if reset then { q.tokens with marker := m, saved := rest }
      else { q.tokens with saved := Cursor.commit m rest } }) := by
  change pop reset q = _
  simp only [pop, Cursor.pop, saved]

theorem run_pop (saved : q.tokens.saved = m :: rest)
    (reset : Bool) (f : Unit → ParseM α) : q.run (pop reset >>= f) = run { q with tokens :=
      if reset then { q.tokens with marker := m, saved := rest }
      else { q.tokens with saved := Cursor.commit m rest } } (f ()) := by
  rw [run_bind, run_pop_saved saved]

/-- An attempt: the parser goes on behind what was read, or goes back to the marker that it set, which is
where it was unless a marker was handed down inside. -/
theorem does_attempt (facing : p.Facing ahead) (within : o.Within ahead) (action_does : p.marked.Does action o) :
    p.Does (attempt action) (match o.result with
      | .ok a => { result := .ok (some a), ahead := o.ahead, handed := some (o.mark ahead) }
      | .error failure =>
        { result := if failure.isIllegal then .ok none else .error failure,
          ahead := o.mark ahead }) := by
  obtain ⟨result, moved⟩ := action_does
  have run_eq := run_attempt p action
  rcases ran : p.marked.run action with ⟨failure | a, q⟩
  · rw [ran] at result moved run_eq
    have saved := moved.saved_marked facing
    have back := moved.back facing within
    rw [← result]
    simp only [run_pop saved] at run_eq
    by_cases illegal : failure.isIllegal = true
    · rw [if_pos illegal] at run_eq
      simp only [if_pos illegal]
      exact .of_run run_eq back
    · rw [if_neg illegal] at run_eq
      simp only [if_neg illegal]
      exact .of_run run_eq back
  · rw [ran] at result moved run_eq
    have saved := moved.saved_marked facing
    rw [← result]
    simp only [run_pop saved] at run_eq
    exact .of_run run_eq ⟨⟨moved.facing.default, moved.facing.marker, moved.facing.drop⟩,
      moved.values, rfl, moved.debug, moved.depth, moved.printed⟩

end Combinators

/-! ## Routines and rules -/

variable {α β : Type}

/-- An attempt in a routine, with both ways to go on. -/
theorem exec_attempt (follow : (r : Rule) → ParseM r.Result) (body : Routine β) (k : β → Routine α)
    (otherwise : Routine α) :
    Routine.exec follow (.attempt body k otherwise) = attempt (body.exec follow) >>= fun found =>
      found.elim (otherwise.exec follow) fun x => (k x).exec follow := by
  rw [Routine.exec]
  congr 1
  funext found
  cases found <;> rfl

/-- A routine does what it reads, if the rules that it follows do. -/
theorem does_exec {follow : (r : Rule) → ParseM r.Result}
    (read_within : ∀ r ahead, (read r ahead).Within ahead)
    (follow_does : ∀ r (p : Parser) ahead, p.Facing ahead → p.Does (follow r) (read r ahead))
    {routine : Routine α} (orderly : routine.Orderly) (facing : p.Facing ahead) :
    p.Does (routine.exec follow) (routine.read read ahead) := by
  induction routine generalizing p ahead with
  | pure a => exact does_pure facing a
  | fail failure => exact does_throw facing failure
  | next k ih =>
    rw [show (Routine.next k).read read ahead = _ from Routine.read_bind take k ahead]
    exact does_bind (does_next facing) fun t q facing => ih t (orderly t) facing
  | look i k ih =>
    rw [show (Routine.look i k).read read ahead = _ from Routine.read_bind (lookAt i) k ahead]
    exact does_bind (does_look facing orderly.1) fun t q facing => ih t (orderly.2 t) facing
  | call r k ih =>
    exact does_bind (follow_does r p ahead facing) fun x q facing => ih x (orderly x) facing
  | attempt body k otherwise ihBody ihRest ihOtherwise =>
    obtain ⟨-, body_orderly, rest_orderly, otherwise_orderly⟩ := orderly
    have tried := does_attempt facing (body.read_within read_within ahead)
      (ihBody body_orderly facing.marked)
    have does := does_bind tried
        (f := fun found => found.elim (otherwise.exec follow) fun x => (k x).exec follow)
        (g := fun found ahead => found.elim (otherwise.read read ahead) fun x => (k x).read read ahead)
        fun found q facing => by
      cases found with
      | some x => exact ihRest x (rest_orderly x) facing
      | none => exact ihOtherwise otherwise_orderly facing
    rw [exec_attempt, Routine.read]
    cases result : (body.read read ahead).result with
    | ok x =>
      rw [result] at does
      exact does
    | error failure =>
      rw [result] at does
      by_cases illegal : failure.isIllegal = true
      · simp only [if_pos illegal, Outcome.andThen_pure] at does ⊢
        exact does
      · simp only [if_neg illegal] at does ⊢
        exact does
  | loop s body k ihBody ihRest =>
    have steps (s) (q : Parser) (ahead) (facing : q.Facing ahead) := ihBody s (orderly.1 s) facing
    have does := does_bind (does_iterate steps p.turns s facing) fun s q facing =>
      ihRest s (orderly.2 s) facing
    rw [Routine.exec, Routine.read, ← facing.turns_eq]
    exact does_get does

/-- A rule does what it reads, whatever the depth to which rules may nest. -/
theorem does_run (n : Nat) (r : Rule) (facing : p.Facing ahead) :
    p.Does (r.run plainly n) (r.readWithin n ahead) := by
  induction n generalizing r p ahead with
  | zero => exact does_throw facing _
  | succ n ih =>
    exact does_exec (Rule.readWithin_within n) (fun r p ahead facing => ih r facing)
      r.body_orderly facing

/-- **Following a rule** is reading the tokens ahead by it. -/
theorem follow_does (r : Rule) (facing : p.Facing ahead) : p.Does (follow plainly r) (r.reads ahead) := by
  rw [Rule.reads, ← facing.nesting_eq]
  exact does_get (does_run p.nesting r facing)

/-- Doing what a routine says is reading the tokens ahead by it. -/
theorem exec_does {routine : Routine α} (orderly : routine.Orderly) (facing : p.Facing ahead) :
    p.Does (exec plainly routine) (routine.read Rule.reads ahead) :=
  does_exec (fun r ahead => r.readWithin_within _ ahead) (fun r _ _ facing => follow_does r facing)
    orderly facing

end Parser

end JavaSource
