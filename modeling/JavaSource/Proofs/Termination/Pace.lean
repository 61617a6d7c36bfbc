import JavaSource.Proofs.Rules.Bodies
import JavaSource.Proofs.Termination.Runs

/-!
# The pace of runs

A run without bounds can fail to end in two ways: rules nest deeper and deeper, or a loop goes on and on. Neither
happens to a routine that keeps pace with the tokens: it follows only rules of a lesser depth before a token is
taken, and its loops go on only after turns that take one. This is the condition `Routine.Ensures` under the terms
`pacing`. The pace bounds the depth of the rules that a run is following by the tokens left
(`Routine.Reaches.depth_le`), although an attempt that fails goes back to tokens that were taken, and it makes the run
end (`Routine.Ensures.ends`).

A rule that keeps its contract keeps pace: `Rule.body_paced`. The exception are loops that only look at tokens. They
keep any pace, and need not end. There is one in front of a statement in a block.
-/

namespace JavaSource.Grammar

open Outcome Routine

open JavaSource.Parser (run_bind run_pop iterate)

/-- **The terms** under which a routine of a rule of the given depth keeps pace with the tokens. Loops that only look
at tokens are let through where `quiet` says so. -/
def pacing (quiet : Bool) (depth : Nat) : Terms where
  mayFail failure := failure ≠ .endless
  mayFollow r moved := (moved || r.depth < depth) = true
  shaped := Rule.Shaped
  idle _ body := quiet = true ∧ ∀ s, (body s).Quiet
  illegal is same := by
    rw [same] at is
    cases is
  endInText same := by cases same

variable {routine : Routine α} {Q : Bool → α → Prop} {d : Nat} {r : Rule}

section

variable {α β : Type} {depth : Nat} {quiet free moved : Bool}

theorem contract_implies_pacing : (contract quiet depth).Implies (pacing quiet depth) where
  mayFail failure may := by
    rcases may with illegal | rfl
    · exact (pacing quiet depth).illegal illegal
    · exact (pacing quiet depth).endInText
  mayFollow r moved may := (Bool.and_eq_true_iff.1 may).2
  shaped _ _ := id
  idle _ _ idle := ⟨idle.1, idle.2.1⟩

theorem pacing_implies : (pacing false depth).Implies (pacing true depth) where
  mayFail _ := id
  mayFollow _ _ := id
  shaped _ _ := id
  idle _ _ idle := absurd idle.1 Bool.false_ne_true

/-- What keeps pace without the exception keeps it. -/
theorem Routine.Ensures.let_through
    (paced : routine.Ensures (pacing false depth) free moved Q) : routine.Ensures (pacing true depth) free moved Q :=
  paced.weaken pacing_implies fun _ _ => id

/-- **The routine of every rule** keeps pace. -/
theorem Rule.body_paced (r : Rule) (allowed : quiet = true ∨ r ≠ .blockStatement) :
    r.body.Ensures (pacing quiet r.depth) false false r.Promise := by
  by_cases known : r = .missingDeclarators
  · subst known
    exact fun same => by cases same
  · exact (r.body_ensures known allowed).weaken contract_implies_pacing fun _ _ => id

theorem Rule.bodies_paced (r : Rule) : r.body.Ensures (pacing true r.depth) false false r.Promise :=
  r.body_paced (.inl rfl)

/-- What only looks at tokens keeps pace, where this is let through. -/
theorem Routine.Quiet.paced (calm : routine.Quiet)
    (rest : ∀ a, Q moved a) : routine.Ensures (pacing true depth) free moved Q := by
  induction routine with
  | pure a => exact rest a
  | look i k ih => exact ⟨fun t => ih _ (calm t) rest, .inl (ih _ (calm none) rest)⟩
  | loop s body k _ ihRest => exact .inr ⟨⟨rfl, calm.1⟩, fun s => ihRest s (calm.2 s) rest⟩
  | _ => exact calm.elim

theorem Routine.Quiet.not_reaches {p q : Parser} (calm : routine.Quiet) :
    ¬ routine.Reaches p d r q := by
  intro reaches
  induction reaches with
  | look _ _ ih => exact ih (calm _)
  | turn _ ih => exact ih (calm.1 _)
  | again _ _ ih => exact ih calm
  | done _ _ ih => exact ih (calm.2 _)
  | _ => exact calm

end

/-! ## What runs leave -/

/-- An outcome after another one. -/
def Outcome.after {α β : Type} (o' : Outcome β) (o : Outcome α) : Outcome β := { o' with handed := o'.handed.or o.handed }

/-- The parser `q` is where the outcome says, from `p` on. -/
structure Arrives {α : Type} (p q : Parser) (ahead : List Token) (o : Outcome α) : Prop where
  within : o.Within ahead
  moved : p.Moved q o.ahead o.handed

variable {n : Nat}

section

variable {α β : Type} {p q q' : Parser} {ahead : List Token} {o : Outcome α} {failure : ParseFailure}

theorem Arrives.here (facing : p.Facing ahead) (result : Except ParseFailure α) :
    Arrives p p ahead { result, ahead } :=
  ⟨.here result ahead, .here facing p.tokens.last⟩

theorem Arrives.trans {o' : Outcome β} (first : Arrives p q ahead o) (second : Arrives q q' o.ahead o') :
    Arrives p q' ahead (o'.after o) := by
  have start : Outcome.Within { o with result := .ok () } ahead :=
    ⟨first.within.ahead, first.within.handed, first.within.behind⟩
  exact ⟨start.andThen (f := fun _ _ => o') fun _ => second.within, first.moved.trans second.moved⟩

theorem Arrives.failed (first : Arrives p q ahead o) :
    Arrives p q ahead { result := (.error failure : Except ParseFailure β), ahead := o.ahead, handed := o.handed } :=
  ⟨⟨first.within.ahead, first.within.handed, first.within.behind⟩, first.moved⟩

/-- After an attempt that succeeded, the parser hands the marker down that it set. -/
theorem Arrives.on (facing : p.Facing ahead) (tried : Arrives p.marked q ahead o)
    (popped : q.run (Parser.pop false) = (.ok (), q')) :
    Arrives p q' ahead { o with handed := some (o.mark ahead) } := by
  rw [Parser.run_pop_saved (tried.moved.saved_marked facing)] at popped
  cases popped
  obtain ⟨within, ⟨default, marker, drop⟩, values, -, debug, depth, printed⟩ := tried
  refine ⟨⟨within.ahead, fun mark mem => ?_, fun mark mem => ?_⟩, ⟨default, marker, drop⟩, values, rfl, debug, depth,
    printed⟩
  · cases mem
    exact within.mark
  · cases mem
    exact within.ahead_mark

/-- After an attempt that failed, the parser is back at the marker that it set. -/
theorem Arrives.back (facing : p.Facing ahead) (tried : Arrives p.marked q ahead o)
    (popped : q.run (Parser.pop true) = (.ok (), q')) (result : Except ParseFailure β) :
    Arrives p q' ahead { result, ahead := o.mark ahead } := by
  rw [Parser.run_pop_saved (tried.moved.saved_marked facing)] at popped
  cases popped
  exact ⟨(Outcome.Within.here result _).of_suffix tried.within.mark, tried.moved.back facing tried.within⟩

/-- Where a token is taken, it is the first one ahead. -/
theorem arrives_next {t : Token} (facing : p.Facing ahead) (taken : p.run Parser.next = (.ok t, q)) :
    ∃ later, ahead = t :: later ∧ Arrives p q ahead (.ok t later) := by
  have does : p.Does Parser.next (take.read Rule.reads ahead) := Parser.does_next facing
  have result := does.result
  have moved := does.moved
  rw [taken] at result moved
  cases ahead with
  | nil => cases result
  | cons first later =>
    cases result
    exact ⟨later, rfl, (Outcome.Within.here _ later).of_suffix (List.suffix_cons t later), moved⟩

theorem arrives_end (facing : p.Facing ahead) (ended : p.run Parser.next = (.error failure, q)) :
    failure = .endOfInput ∧ Arrives p q ahead { result := (.error failure : Except ParseFailure α), ahead } := by
  have does : p.Does Parser.next (take.read Rule.reads ahead) := Parser.does_next facing
  have moved := does.moved
  have result := does.result
  rw [ended] at result moved
  cases ahead with
  | nil =>
    cases result
    exact ⟨rfl, .here _ [], moved⟩
  | cons first later => cases result

variable {i : Int} {t : Option Token}

theorem arrives_look (facing : p.Facing ahead) (nonneg : 0 ≤ i)
    (looked : p.run (Parser.look i) = (.ok t, q)) : Arrives p q ahead (.ok t ahead) := by
  have does : p.Does (Parser.look i) ((lookAt i).read Rule.reads ahead) := Parser.does_look facing nonneg
  have moved := does.moved
  rw [looked] at moved
  exact ⟨.here _ ahead, moved⟩

theorem looked_eq (facing : p.Facing ahead) (nonneg : 0 ≤ i)
    (looked : p.run (Parser.look i) = (.ok t, q)) : t = ahead[i.toNat]? := by
  have does : p.Does (Parser.look i) ((lookAt i).read Rule.reads ahead) := Parser.does_look facing nonneg
  have result := does.result
  rw [looked] at result
  exact Except.ok.inj result

/-- After a look the condition holds, or there is no token and the routine is stuck. -/
theorem Routine.Ensures.looked {terms : Terms} {i : Int} {k : Option Token → Routine α} {free moved : Bool}
    {Q : Bool → α → Prop} {t : Option Token} (ensures : (look i k).Ensures terms free moved Q)
    (facing : p.Facing ahead) (nonneg : 0 ≤ i) (looked : p.run (Parser.look i) = (.ok t, q)) :
    (k t).Ensures terms free moved Q ∨ ahead = [] ∧ (k t).Stuck := by
  have same := looked_eq facing nonneg looked
  cases t with
  | some t => exact .inl (ensures.1 t)
  | none =>
    refine ensures.2.imp_right fun ⟨first, stuck⟩ => ⟨?_, stuck⟩
    rw [first] at same
    exact List.getElem?_eq_none_iff.1 same.symm |> Nat.le_zero.1 |> List.length_eq_zero_iff.1

theorem Routine.Stuck.runs {routine : Routine α} {result : Except ParseFailure α} (stuck : routine.Stuck)
    (runs : routine.Runs p result q) (orderly : routine.Orderly) (facing : p.Facing []) :
    ∃ failure, result = .error failure ∧ failure.isIllegal = true := by
  induction runs with
  | fail failure p => exact ⟨failure, rfl, stuck⟩
  | look looked _ ih =>
    have same := looked_eq facing orderly.1 looked
    subst same
    exact ih stuck (orderly.2 _) (arrives_look facing orderly.1 looked).moved.facing
  | _ => exact stuck.elim

theorem Routine.Stuck.not_reaches (stuck : routine.Stuck)
    (orderly : routine.Orderly) (facing : p.Facing []) : ¬ routine.Reaches p d r q := by
  intro reaches
  induction reaches with
  | look looked _ ih =>
    have same := looked_eq facing orderly.1 looked
    subst same
    exact ih stuck (orderly.2 _) (arrives_look facing orderly.1 looked).moved.facing
  | _ => exact stuck

/-- What only looks at tokens takes none. -/
theorem Routine.Quiet.stays {routine : Routine α} {result : Except ParseFailure α} (calm : routine.Quiet)
    (runs : routine.Runs p result q) (orderly : routine.Orderly) (facing : p.Facing ahead) : q.Facing ahead := by
  induction runs with
  | pure => exact facing
  | look looked _ ih => exact ih (calm _) (orderly.2 _) (arrives_look facing orderly.1 looked).moved.facing
  | again _ _ ihTurn ih => exact ih calm orderly (ihTurn (calm.1 _) (orderly.1 _) facing)
  | done _ _ ihTurn ih => exact ih (calm.2 _) (orderly.2 _) (ihTurn (calm.1 _) (orderly.1 _) facing)
  | turnFails _ ih => exact ih (calm.1 _) (orderly.1 _) facing
  | _ => exact calm.elim

/-- As the routine keeps pace, the outcome has the property that is promised. -/
def Routine.KeepsPace (routine : Routine α) (ahead : List Token) (o : Outcome α) : Prop :=
  ∀ (depth : Nat) (free moved : Bool) (Q : Bool → α → Prop) (mark : Nat), routine.Ensures (pacing true depth) free moved Q →
    ahead.length ≤ mark → (moved = true → ahead.length < mark) → o.Meets (· ≠ .endless) mark Q

theorem Routine.KeepsPace.start {routine : Routine α} (pace : routine.KeepsPace ahead o) {depth : Nat} {free : Bool}
    {Q : Bool → α → Prop} (paced : routine.Ensures (pacing true depth) free false Q) : o.Meets (· ≠ .endless) ahead.length Q :=
  pace depth free false Q ahead.length paced (Nat.le_refl _) (absurd · Bool.false_ne_true)

/-- After a turn the loop still keeps pace. -/
theorem Routine.KeepsPace.again {σ : Type} {s s' : σ} {body : σ → Routine (σ × Bool)} {k : σ → Routine α}
    {o : Outcome (σ × Bool)} (promise : (body s).KeepsPace ahead o) (gave : o.result = .ok (s', true)) {depth : Nat}
    {free moved : Bool} {Q : Bool → α → Prop} (paced : (loop s body k).Ensures (pacing true depth) free moved Q) :
    (loop s' body k).Ensures (pacing true depth) free moved Q := by
  rcases paced with ⟨Inv, inv, turns⟩ | idle
  · obtain ⟨turned, ⟨goes, -⟩, -⟩ := (promise.start (turns s inv)).value _ gave
    exact .inl ⟨Inv, (goes rfl).2, turns⟩
  · exact .inr idle

/-- After the last turn the rest of the routine keeps pace. -/
theorem Routine.KeepsPace.done {σ : Type} {s s' : σ} {body : σ → Routine (σ × Bool)} {k : σ → Routine α}
    {o : Outcome (σ × Bool)} (promise : (body s).KeepsPace ahead o) (gave : o.result = .ok (s', false)) {depth : Nat}
    {free moved : Bool} {Q : Bool → α → Prop} (paced : (loop s body k).Ensures (pacing true depth) free moved Q) :
    ∃ turned, (k s').Ensures (pacing true depth) free (moved || turned) Q ∧
      (turned = true → o.ahead.length < ahead.length) := by
  rcases paced with ⟨Inv, inv, turns⟩ | ⟨-, rest⟩
  · obtain ⟨turned, ⟨-, ends⟩, shorter⟩ := (promise.start (turns s inv)).value _ gave
    exact ⟨turned, ends rfl, shorter⟩
  · refine ⟨false, ?_, (absurd · Bool.false_ne_true)⟩
    rw [Bool.or_false]
    exact rest s'

/-- What is promised of an outcome does not depend on the marker that is handed down. -/
theorem Outcome.Meets.handing {may : ParseFailure → Prop} {mark : Nat} {Q : Bool → α → Prop}
    (meets : o.Meets may mark Q) (handed : Option (List Token)) : Outcome.Meets { o with handed } may mark Q :=
  ⟨meets.value, meets.failure⟩

theorem lt_mark {moved turned : Bool} {m mark : Nat} (lt : moved = true → n < mark) (le : n ≤ mark) (short : m ≤ n)
    (shorter : turned = true → m < n) : (moved || turned) = true → m < mark := by
  intro taken
  rcases Bool.or_eq_true_iff.1 taken with taken | taken
  · exact Nat.lt_of_le_of_lt short (lt taken)
  · exact Nat.lt_of_lt_of_le (shorter taken) le

/-- **A run keeps pace with the tokens.** The induction is on the run. -/
theorem Routine.Runs.arrives {routine : Routine α} {result : Except ParseFailure α} (runs : routine.Runs p result q)
    (orderly : routine.Orderly) (facing : p.Facing ahead) :
    ∃ o : Outcome α, o.result = result ∧ Arrives p q ahead o ∧ routine.KeepsPace ahead o := by
  induction runs generalizing ahead with
  | pure a p =>
    refine ⟨_, rfl, .here facing (.ok a), fun depth free moved Q mark paced le lt => ?_⟩
    exact meets_ok paced lt
  | fail failure p =>
    exact ⟨_, rfl, .here facing (.error failure), fun _ _ _ _ _ paced _ _ => meets_error paced⟩
  | next taken rest ih =>
    obtain ⟨later, rfl, first⟩ := arrives_next facing taken
    obtain ⟨o, rfl, arrives, pace⟩ := ih (orderly _) first.moved.facing
    refine ⟨o.after _, rfl, first.trans arrives, fun depth free moved Q mark paced le lt => ?_⟩
    rw [List.length_cons] at le
    exact (pace depth free true Q mark (paced _) (by dsimp only; omega) (fun _ => by dsimp only; omega)).handing _
  | nextFails ended =>
    obtain ⟨rfl, arrives⟩ := arrives_end facing ended
    refine ⟨_, rfl, arrives, fun _ _ _ _ _ _ _ _ => meets_error fun same => ?_⟩
    cases same
  | look looked rest ih =>
    have first := arrives_look facing orderly.1 looked
    obtain ⟨o, rfl, arrives, pace⟩ := ih (orderly.2 _) first.moved.facing
    refine ⟨o.after _, rfl, first.trans arrives, fun depth free moved Q mark paced le lt => ?_⟩
    rcases paced.looked facing orderly.1 looked with here | ⟨rfl, stuck⟩
    · exact (pace depth free moved Q mark here le lt).handing _
    · obtain ⟨failure, gave, illegal⟩ := stuck.runs rest (orderly.2 _) first.moved.facing
      refine ⟨fun a ok => absurd (gave.symm.trans ok) (by simp), fun failure' failed => ?_⟩
      cases gave.symm.trans failed
      exact (pacing true depth).illegal illegal
  | call followed rest ihFollowed ih =>
    rename_i r k p p' q x result
    obtain ⟨o, called, first, promise⟩ := ihFollowed r.body_orderly facing
    obtain ⟨o', rfl, arrives, pace⟩ := ih (orderly x) first.moved.facing
    refine ⟨o'.after _, rfl, first.trans arrives, fun depth free moved Q mark paced le lt => ?_⟩
    obtain ⟨turned, took, shorter⟩ := (promise.start r.bodies_paced).value x called
    have short := first.within.ahead.length_le
    exact (pace depth free (moved || r.takes) Q mark (paced.2 x took.1) (by omega)
      (lt_mark lt le short fun takes => shorter (took.2 takes))).handing _
  | callFails followed ih =>
    obtain ⟨o, gave, first, promise⟩ := ih (Rule.body_orderly _) facing
    refine ⟨_, rfl, first.failed, fun _ _ _ _ _ _ _ _ => meets_error ?_⟩
    exact (promise.start (Rule.bodies_paced _)).failure _ gave
  | attempt tried popped rest ihTried ih =>
    rename_i β body k otherwise p p' p'' q x result
    obtain ⟨-, bodyOrderly, restOrderly, -⟩ := orderly
    obtain ⟨o, gave, first, promise⟩ := ihTried bodyOrderly facing.marked
    have second := first.on facing popped
    obtain ⟨o', rfl, arrives, pace⟩ := ih (restOrderly x) second.moved.facing
    refine ⟨o'.after _, rfl, second.trans arrives, fun depth free moved Q mark paced le lt => ?_⟩
    obtain ⟨turned, rest, shorter⟩ := (promise depth free moved _ mark paced.1 le lt).value x gave
    have short := first.within.ahead.length_le
    exact (pace depth free turned Q mark rest (by dsimp only; omega) shorter).handing _
  | otherwise tried illegal popped rest ihTried ih =>
    obtain ⟨-, bodyOrderly, -, otherwiseOrderly⟩ := orderly
    obtain ⟨o, -, first, -⟩ := ihTried bodyOrderly facing.marked
    have second := first.back facing popped (.ok ())
    obtain ⟨o', rfl, arrives, pace⟩ := ih otherwiseOrderly second.moved.facing
    refine ⟨o'.after _, rfl, second.trans arrives, fun depth free moved Q mark paced le lt => ?_⟩
    have short := first.within.mark.length_le
    refine (pace depth free moved Q mark paced.2 (by dsimp only; omega) fun taken => ?_).handing _
    have := lt taken
    dsimp only
    omega
  | attemptFails tried other popped ih =>
    obtain ⟨o, gave, first, promise⟩ := ih orderly.2.1 facing.marked
    refine ⟨_, rfl, first.back facing popped _, fun _ _ _ _ _ paced le lt => meets_error ?_⟩
    exact (promise _ _ _ _ _ paced.1 le lt).failure _ gave
  | again turn rest ihTurn ih =>
    rename_i s s' body k p p' q result
    obtain ⟨o, gave, first, promise⟩ := ihTurn (orderly.1 s) facing
    obtain ⟨o', rfl, arrives, pace⟩ := ih orderly first.moved.facing
    refine ⟨o'.after _, rfl, first.trans arrives, fun depth free moved Q mark paced le lt => ?_⟩
    have short := first.within.ahead.length_le
    refine (pace depth free moved Q mark ?_ (by omega) fun taken => Nat.lt_of_le_of_lt short (lt taken)).handing _
    exact promise.again gave paced
  | done turn rest ihTurn ih =>
    rename_i s s' body k p p' q result
    obtain ⟨o, gave, first, promise⟩ := ihTurn (orderly.1 s) facing
    obtain ⟨o', rfl, arrives, pace⟩ := ih (orderly.2 s') first.moved.facing
    refine ⟨o'.after _, rfl, first.trans arrives, fun depth free moved Q mark paced le lt => ?_⟩
    have short := first.within.ahead.length_le
    obtain ⟨turned, rest, shorter⟩ := promise.done gave paced
    exact (pace depth free (moved || turned) Q mark rest (by omega) (lt_mark lt le short shorter)).handing _
  | turnFails turn ih =>
    rename_i s body k p q failure
    obtain ⟨o, gave, first, promise⟩ := ih (orderly.1 s) facing
    refine ⟨_, rfl, first.failed, fun depth free moved _ _ paced _ _ => meets_error ?_⟩
    rcases paced with ⟨Inv, inv, turns⟩ | ⟨⟨-, calm⟩, -⟩
    · exact (promise.start (turns s inv)).failure _ gave
    · have paced : (body s).Ensures (pacing true depth) free false fun _ _ => True := (calm s).paced fun _ => trivial
      exact (promise.start paced).failure _ gave

end

/-- A rule that was followed kept its promise. -/
theorem Routine.Runs.follows {p q : Parser} {x : r.Result} (followed : r.body.Runs p (.ok x) q) {ahead : List Token} (facing : p.Facing ahead) :
    ∃ later, q.Facing later ∧ later <:+ ahead ∧ r.Shaped x ∧ (r.takes = true → later.length < ahead.length) := by
  obtain ⟨o, gave, first, promise⟩ := followed.arrives r.body_orderly facing
  obtain ⟨turned, took, shorter⟩ := (promise.start r.bodies_paced).value x gave
  exact ⟨o.ahead, first.moved.facing, first.within.ahead, took.1, fun takes => shorter (took.2 takes)⟩

/-! ## How deep rules nest -/

section

variable {α : Type} {p q : Parser} {ahead : List Token} {depth : Nat} {free moved : Bool} {limit mark : Nat}

/-- A rule that may be followed here nests less deep, or in front of fewer tokens. -/
theorem Room.depth_lt (room : Room n mark limit free moved) (may : (free || moved || r.depth < depth) = true) :
    r.depth + 8 * n < depth + 8 * limit := by
  have bound := r.depth_le
  rcases Bool.or_eq_true_iff.1 may with taken | lower
  · have := room.lt_limit taken
    omega
  · have := of_decide_eq_true lower
    have := room.le_limit
    omega

/-- **The depth of the rules that a run is following**, the depth that is left for the innermost one included. -/
theorem Routine.Reaches.depth_le (reaches : routine.Reaches p d r q) (orderly : routine.Orderly)
    (facing : p.Facing ahead) (paced : routine.Ensures (pacing true depth) free moved Q)
    (room : Room ahead.length mark limit free moved) :
    ∃ later, q.Facing later ∧ later <:+ ahead ∧ d + r.depth + 8 * later.length ≤ depth + 8 * limit := by
  induction reaches generalizing ahead depth free moved limit mark with
  | next taken rest ih =>
    obtain ⟨later, rfl, first⟩ := arrives_next facing taken
    obtain ⟨last, faces, suffix, bound⟩ := ih (orderly _) first.moved.facing (paced _) room.token
    exact ⟨last, faces, suffix.trans first.within.ahead, bound⟩
  | look looked rest ih =>
    have first := arrives_look facing orderly.1 looked
    rcases paced.looked facing orderly.1 looked with here | ⟨rfl, stuck⟩
    · exact ih (orderly.2 _) first.moved.facing here room
    · exact absurd rest (stuck.not_reaches (orderly.2 _) first.moved.facing)
  | call r k p =>
    have := room.depth_lt paced.1
    exact ⟨ahead, facing, List.suffix_rfl, by omega⟩
  | inside within ih =>
    have := room.depth_lt paced.1
    obtain ⟨later, faces, suffix, bound⟩ := ih (Rule.body_orderly _) facing (Rule.bodies_paced _) (.initial _)
    exact ⟨later, faces, suffix, by omega⟩
  | after followed rest ih =>
    rename_i called k p p' q x d r
    obtain ⟨later, first, within, shaped, took⟩ := followed.follows facing
    obtain ⟨last, faces, suffix, bound⟩ := ih (orderly x) first (paced.2 x shaped) (room.taking within.length_le took)
    exact ⟨last, faces, suffix.trans within, bound⟩
  | tried within ih => exact ih orderly.2.1 facing.marked paced.1 room
  | attempt tried popped rest ih =>
    rename_i β body k otherwise p p' p'' q x d r
    obtain ⟨-, bodyOrderly, restOrderly, -⟩ := orderly
    obtain ⟨o, gave, first, promise⟩ := tried.arrives bodyOrderly facing.marked
    obtain ⟨turned, rest, shorter⟩ := (promise depth free moved _ mark paced.1 room.le room.lt).value x gave
    obtain ⟨last, faces, suffix, bound⟩ := ih (restOrderly x) (first.on facing popped).moved.facing rest
      (room.moved_to first.within.ahead.length_le shorter)
    exact ⟨last, faces, suffix.trans first.within.ahead, bound⟩
  | otherwise tried illegal popped rest ih =>
    obtain ⟨-, bodyOrderly, -, otherwiseOrderly⟩ := orderly
    obtain ⟨o, -, first, -⟩ := tried.arrives bodyOrderly facing.marked
    obtain ⟨last, faces, suffix, bound⟩ := ih otherwiseOrderly (first.back facing popped (.ok ())).moved.facing
      paced.2 (room.shorter first.within.mark.length_le)
    exact ⟨last, faces, suffix.trans first.within.mark, bound⟩
  | turn within ih =>
    rcases paced with ⟨Inv, inv, turns⟩ | ⟨⟨-, calm⟩, -⟩
    · exact ih (orderly.1 _) facing (turns _ inv) (room.turn (Nat.le_refl _))
    · exact absurd within (calm _).not_reaches
  | again turn rest ih =>
    obtain ⟨o, gave, first, promise⟩ := turn.arrives (orderly.1 _) facing
    obtain ⟨last, faces, suffix, bound⟩ := ih orderly first.moved.facing (promise.again gave paced)
      (room.shorter first.within.ahead.length_le)
    exact ⟨last, faces, suffix.trans first.within.ahead, bound⟩
  | done turn rest ih =>
    rename_i s s' body k p p' q d r
    obtain ⟨o, gave, first, promise⟩ := turn.arrives (orderly.1 s) facing
    obtain ⟨turned, rest, shorter⟩ := promise.done gave paced
    obtain ⟨last, faces, suffix, bound⟩ := ih (orderly.2 s') first.moved.facing rest
      (room.taking first.within.ahead.length_le shorter)
    exact ⟨last, faces, suffix.trans first.within.ahead, bound⟩

end

/-! ## Runs that end -/

/-- No run comes to follow the rule for a statement in a block where the parser has the property. -/
def Routine.Avoids {α : Type} (bad : Parser → Prop) (routine : Routine α) (p : Parser) : Prop :=
  ∀ (d : Nat) (q : Parser), routine.Reaches p d .blockStatement q → ¬ bad q

section

variable {α : Type} {bad : Parser → Prop} {follow : (r : Rule) → ParseM r.Result}
  {read : Reader} {p : Parser} {ahead : List Token}

theorem ends_loop (sound : Follows follow read) {σ : Type} {body : σ → Routine (σ × Bool)} {k : σ → Routine α}
    {most : Nat} (Inv : σ → Prop) (orderly : ∀ s, (body s).Orderly)
    (turns : ∀ s (p : Parser) (ahead : List Token), Inv s → p.Facing ahead → ahead.length ≤ most →
      (body s).Avoids bad p → (body s).Ends follow p)
    (goes : ∀ s s' (p p' : Parser) (ahead : List Token), Inv s → p.Facing ahead →
      (body s).Runs p (.ok (s', true)) p' → Inv s' ∧ ∃ later, p'.Facing later ∧ later.length < ahead.length)
    (rest : ∀ s s' (p p' : Parser) (ahead : List Token), Inv s → p.Facing ahead → ahead.length ≤ most →
      (body s).Runs p (.ok (s', false)) p' → (k s').Avoids bad p' → (k s').Ends follow p')
    (m : Nat) (s : σ) (inv : Inv s) (facing : p.Facing ahead) (le : ahead.length ≤ most) (enough : ahead.length < m)
    (avoids : (loop s body k).Avoids bad p) :
    (p.run (iterate (fun s => (body s).exec follow) m s >>= fun s => (k s).exec follow)).1 ≠ .error .endless := by
  induction m generalizing s p ahead with
  | zero => omega
  | succ m ih =>
    have ended := turns s p ahead inv facing le fun d q reaches => avoids d q (.turn reaches)
    have ran := sound.faithful (orderly s) p ahead facing ended
    unfold Routine.Ends at ended
    rw [iterate, bind_assoc, run_bind]
    rcases turn : p.run ((body s).exec follow) with ⟨failure | ⟨s', more⟩, p'⟩
    · rw [turn] at ended
      exact not_endless ended
    · rw [turn] at ran
      cases more with
      | true =>
        obtain ⟨inv', later, faces, shorter⟩ := goes s s' p p' ahead inv facing ran
        exact ih s' inv' faces (by omega) (by omega) fun d q reaches => avoids d q (.again ran reaches)
      | false => exact rest s s' p p' ahead inv facing le ran fun d q reaches => avoids d q (.done ran reaches)

theorem ends_bind (sound : Follows follow read) {β : Type} {routine : Routine α} {f : α → Routine β}
    (orderly : routine.Orderly) (facing : p.Facing ahead) (ends : routine.Ends follow p)
    (rest : ∀ a q, routine.Runs p (.ok a) q → (f a).Ends follow q) : (routine >>= f).Ends follow p := by
  have ran := sound.faithful orderly p ahead facing ends
  unfold Routine.Ends at ends ⊢
  rw [exec_bind, run_bind]
  rcases first : p.run (routine.exec follow) with ⟨failure | a, q⟩
  · rw [first] at ends
    exact not_endless ends
  · rw [first] at ran
    exact rest a q ran

variable {depth : Nat}

/-- **A routine that keeps pace ends**, if rules end that are followed where there is room for them. The induction
is on the routine. -/
theorem Routine.Ensures.ends (sound : Follows follow read)
    (rules : ∀ (r : Rule) (p : Parser) (ahead : List Token), p.Facing ahead → r.depth + 8 * ahead.length < n →
      (parse r).Avoids bad p → (p.run (follow r)).1 ≠ .error .endless)
    {free moved : Bool}
    (paced : routine.Ensures (pacing false depth) free moved Q) (orderly : routine.Orderly) (facing : p.Facing ahead)
    {limit mark : Nat} (room : Room ahead.length mark limit free moved) (enough : depth + 8 * limit ≤ n)
    (avoids : routine.Avoids bad p) :
    routine.Ends follow p := by
  induction routine generalizing p ahead free moved mark with
  | pure a => exact fun same => by cases same
  | fail failure =>
    intro same
    cases same
    exact paced rfl
  | next k ih =>
    unfold Ends
    rw [exec, run_bind]
    rcases taken : p.run Parser.next with ⟨failure | t, p'⟩
    · obtain ⟨rfl, -⟩ := @arrives_end α _ _ _ _ facing taken
      exact fun same => by cases same
    · obtain ⟨later, rfl, first⟩ := arrives_next facing taken
      exact ih t (paced t) (orderly t) first.moved.facing room.token fun d q reaches =>
        avoids d q (.next taken reaches)
  | look i k ih =>
    unfold Ends
    rw [exec, run_bind]
    rcases looked : p.run (Parser.look i) with ⟨failure | t, p'⟩
    · have does : p.Does (Parser.look i) ((lookAt i).read Rule.reads ahead) := Parser.does_look facing orderly.1
      cases does.result.symm.trans (congrArg Prod.fst looked)
    · have first := arrives_look facing orderly.1 looked
      rcases paced.looked facing orderly.1 looked with here | ⟨rfl, stuck⟩
      · exact ih t here (orderly.2 t) first.moved.facing room fun d q reaches => avoids d q (.look looked reaches)
      · obtain ⟨failure, failed, illegal⟩ := stuck.read read
        rw [(sound.exec (orderly.2 t) first.moved.facing).result, failed]
        rintro ⟨⟩
        cases illegal
  | call r k ih =>
    have less := room.depth_lt paced.1
    have ended := rules r p ahead facing (by omega) fun d q reaches => avoids d q (reaches.of_parse k)
    have ran := sound.runs r p ahead facing ended
    unfold Ends
    rw [exec, run_bind]
    rcases followed : p.run (follow r) with ⟨failure | x, p'⟩
    · rw [followed] at ended
      exact not_endless ended
    · rw [followed] at ran
      obtain ⟨later, first, within, shaped, took⟩ := ran.follows facing
      exact ih x (paced.2 x shaped) (orderly x) first (room.taking within.length_le took) fun d q reaches =>
        avoids d q (.after ran reaches)
  | attempt body k otherwise ihBody ihRest ihOtherwise =>
    obtain ⟨tried, other⟩ := paced
    obtain ⟨-, bodyOrderly, restOrderly, otherwiseOrderly⟩ := orderly
    have ended := ihBody tried bodyOrderly facing.marked room fun d q reaches => avoids d q (.tried reaches)
    have ran := sound.faithful bodyOrderly p.marked ahead facing.marked ended
    obtain ⟨o, gave, first, promise⟩ := ran.arrives bodyOrderly facing.marked
    unfold Ends at ended ⊢
    rw [exec, run_bind, Parser.run_attempt]
    rcases body : p.marked.run (body.exec follow) with ⟨failure | x, p'⟩
    · rw [body] at ended ran gave first
      have saved := first.moved.saved_marked facing
      have popped := Parser.run_pop_saved saved true
      have back := first.back facing popped (.ok ())
      dsimp only at saved ⊢
      rw [run_pop saved]
      by_cases illegal : failure.isIllegal = true
      · simp only [if_pos illegal]
        exact ihOtherwise other otherwiseOrderly back.moved.facing (room.shorter first.within.mark.length_le)
          fun d q reaches => avoids d q (.otherwise ran illegal popped reaches)
      · simp only [if_neg illegal]
        exact not_endless ended
    · rw [body] at ran gave first
      have saved := first.moved.saved_marked facing
      have popped := Parser.run_pop_saved saved false
      obtain ⟨turned, rest, shorter⟩ := (promise depth free moved _ mark tried.let_through room.le room.lt).value x gave
      dsimp only at saved ⊢
      rw [run_pop saved]
      exact ihRest x rest (restOrderly x) (first.on facing popped).moved.facing
        (room.moved_to first.within.ahead.length_le shorter) fun d q reaches => avoids d q (.attempt ran popped reaches)
  | loop s body k ihBody ihRest =>
    rcases paced with ⟨Inv, inv, turns⟩ | ⟨⟨allowed, -⟩, -⟩
    · refine ends_loop sound Inv orderly.1 ?_ ?_ ?_ p.turns s inv facing (Nat.le_refl _) ?_ avoids
      · intro s p later inv facing short avoids
        exact ihBody s (turns s inv) (orderly.1 s) facing (room.turn short) avoids
      · intro s s' p p' later inv facing turn
        obtain ⟨o, gave, first, promise⟩ := turn.arrives (orderly.1 s) facing
        obtain ⟨turned, ⟨goes, -⟩, shorter⟩ := (promise.start (turns s inv).let_through).value _ gave
        exact ⟨(goes rfl).2, o.ahead, first.moved.facing, shorter (goes rfl).1⟩
      · intro s s' p p' later inv facing short turn avoids
        obtain ⟨o, gave, first, promise⟩ := turn.arrives (orderly.1 s) facing
        obtain ⟨turned, ⟨-, ends⟩, shorter⟩ := (promise.start (turns s inv).let_through).value _ gave
        have left := room.taking (Nat.le_trans first.within.ahead.length_le short) fun took =>
          Nat.lt_of_lt_of_le (shorter took) short
        exact ihRest s' (ends rfl) (orderly.2 s') first.moved.facing left avoids
      · rw [facing.turns_eq]
        omega
    · cases allowed

theorem Routine.Ensures.ends_here (sound : Follows follow read)
    (rules : ∀ (r : Rule) (p : Parser) (ahead : List Token), p.Facing ahead → r.depth + 8 * ahead.length < n →
      (parse r).Avoids bad p → (p.run (follow r)).1 ≠ .error .endless)
    (paced : routine.Ensures (pacing false depth) false false Q)
    (orderly : routine.Orderly) (facing : p.Facing ahead) (enough : depth + 8 * ahead.length ≤ n)
    (avoids : routine.Avoids bad p) : routine.Ends follow p :=
  paced.ends sound rules orderly facing (.initial _) enough avoids

end

end JavaSource.Grammar
