import JavaSource.Proofs.Annotations.LookAhead
import JavaSource.Proofs.Parser.Restart
import JavaSource.Proofs.Termination.Inversion

/-!
# When the look-ahead ends

The look-ahead in front of a statement ends exactly when the arguments of each annotation that it enters are closed.
Where they are not, it looks for the closing parenthesis at one index after the other, also behind the last token.
-/

namespace JavaSource.Grammar

open Routine

/-- Behind the parenthesis at `j`, some number of tokens closes one more than it opens. -/
def ClosedBehind (ahead : List Token) (j : Nat) : Prop :=
  ∃ n, countOf ")" ((ahead.drop (j + 1)).take n) = countOf "(" ((ahead.drop (j + 1)).take n) + 1

/-- The look-ahead enters arguments that are opened at `j`: by its turns it comes to an annotation, and the
parenthesis follows the name of it. -/
def EntersAt (p : Parser) (ahead : List Token) (j : Nat) : Prop :=
  ∃ n i found q, Comes (fun s => leadTurn s.2.annotated s.1) n (0, .passed none false) p (i, found) q ∧
    AnnotationAt ahead i ∧ NameEnds ahead (i + 2) j ∧ isWord ahead[j]? "(" = true

/-! ## Counting parentheses -/

section

variable {ahead : List Token} {i n : Nat}

theorem countOf_take_succ (word : String) (tokens : List Token) (n : Nat) :
    countOf word (tokens.take (n + 1)) = countOf word (tokens.take n) + countOf word tokens[n]?.toList := by
  rw [List.take_add_one, countOf, List.countP_append]
  rfl

/-- Tokens that never close exactly one parenthesis more than they open never close more. -/
theorem closes_le {tokens : List Token}
    (never : ∀ n, countOf ")" (tokens.take n) ≠ countOf "(" (tokens.take n) + 1) (n : Nat) :
    countOf ")" (tokens.take n) ≤ countOf "(" (tokens.take n) := by
  induction n with
  | zero => exact Nat.le_refl _
  | succ n ih =>
    have other := never (n + 1)
    have one : countOf ")" tokens[n]?.toList ≤ 1 := Nat.le_trans List.countP_le_length (by cases tokens[n]? <;> simp)
    rw [countOf_take_succ, countOf_take_succ "("] at other ⊢
    omega

/-- What a token, or the end, does to the number of open parentheses. -/
theorem openedBy_toList (t : Option Token) (depth : Nat) :
    countOf ")" t.toList + openedBy t (depth + 1) = countOf "(" t.toList + (depth + 1) := by
  cases t with
  | none => rfl
  | some t => exact openedBy_balance t depth

end

/-! ## The search for the closing parenthesis -/

/-- In search of the parenthesis that closes one opened in front of `i`: the second number of the state counts those
that are open. -/
structure Searching (ahead : List Token) (i : Nat) (s : Nat × Nat) (q : Parser) : Prop where
  facing : q.Facing ahead
  place : i ≤ s.1
  counted : s.2 + countOf ")" ((ahead.drop i).take (s.1 - i)) = countOf "(" ((ahead.drop i).take (s.1 - i)) + 1

theorem pastParentheses_eq_loop (i : Nat) :
    Body.pastParentheses i = .loop (i, 1) closingTurn fun s => .pure s.1 := rfl

theorem orderly_closingTurn (s : Nat × Nat) : (closingTurn s).Orderly :=
  orderly_bind (orderly_lookAt_nat s.1) fun _ => orderly_pure _

section

variable {ahead : List Token} {i j : Nat} {q : Parser}

theorem Searching.start (facing : q.Facing ahead) (i : Nat) : Searching ahead i (i, 1) q := by
  refine ⟨facing, Nat.le_refl i, ?_⟩
  rw [Nat.sub_self]
  rfl

/-- As long as the parenthesis is not closed, a turn leads to another one. -/
theorem Searching.turn {s : Nat × Nat} (searching : Searching ahead i s q)
    (never : ∀ n, countOf ")" ((ahead.drop i).take n) ≤ countOf "(" ((ahead.drop i).take n)) :
    ∃ depth q', (closingTurn s).Runs q (.ok ((s.1 + 1, depth), true)) q' ∧ Searching ahead i (s.1 + 1, depth) q' := by
  obtain ⟨facing, place, counted⟩ := searching
  obtain ⟨place', depth⟩ := s
  obtain ⟨n, rfl⟩ : ∃ n, place' = i + n := ⟨place' - i, (Nat.add_sub_of_le place).symm⟩
  rw [Nat.add_sub_cancel_left] at counted
  obtain ⟨depth, rfl⟩ : ∃ d, depth = d + 1 := ⟨depth - 1, by have := never n; omega⟩
  have balance := openedBy_toList ahead[i + n]? depth
  have counted' : openedBy ahead[i + n]? (depth + 1) + countOf ")" ((ahead.drop i).take (n + 1)) =
      countOf "(" ((ahead.drop i).take (n + 1)) + 1 := by
    rw [countOf_take_succ, countOf_take_succ "(", List.getElem?_drop]
    omega
  have more : openedBy ahead[i + n]? (depth + 1) ≠ 0 := by
    have := never (n + 1)
    omega
  have read : (closingTurn (i + n, depth + 1)).read Rule.reads ahead =
      .ok ((i + n + 1, openedBy ahead[i + n]? (depth + 1)), true) ahead := by
    rw [closingTurn, read_lookAt_bind, bne_iff_ne.2 more]
    rfl
  obtain ⟨q', facing', runs⟩ := runs_of_read (orderly_closingTurn _) facing read
  refine ⟨_, q', runs, facing', by dsimp only; omega, ?_⟩
  rw [Nat.add_assoc, Nat.add_sub_cancel_left]
  exact counted'

/-- **The search goes on** past every index. -/
theorem comes_closing (never : ∀ n, countOf ")" ((ahead.drop i).take n) ≤ countOf "(" ((ahead.drop i).take n))
    (facing : q.Facing ahead) (n : Nat) :
    ∃ depth q', Comes closingTurn n (i, 1) q (i + n, depth) q' ∧ Searching ahead i (i + n, depth) q' := by
  induction n with
  | zero => exact ⟨1, q, .start _ _, .start facing i⟩
  | succ n ih =>
    obtain ⟨depth, q', comes, searching⟩ := ih
    obtain ⟨depth', q'', turn, searching'⟩ := searching.turn never
    exact ⟨depth', q'', comes.next turn, searching'⟩

theorem pastParentheses_never (never : ∀ n, countOf ")" ((ahead.drop i).take n) ≤ countOf "(" ((ahead.drop i).take n))
    (facing : q.Facing ahead) : ¬ ∃ result q', (Body.pastParentheses i).Runs q result q' := by
  rw [pastParentheses_eq_loop]
  refine not_runs_loop (Searching.start facing i) fun s p searching => ?_
  obtain ⟨depth, q', turn, searching'⟩ := searching.turn never
  exact ⟨_, q', turn, searching'⟩

/-! ## The turns of the look-ahead -/

theorem orderly_pastDots (i : Nat) : (Body.pastDots i).Orderly :=
  orderly_loop (fun _ => orderly_bind (orderly_lookAt_nat _) fun _ => orderly_ite (orderly_pure _) (orderly_pure _))
    fun _ => orderly_pure _

theorem orderly_leadTurn (annotated : Bool) (i : Nat) : (leadTurn annotated i).Orderly :=
  orderly_lead.1 (i, .passed none annotated)

/-- The turn that enters arguments that are not closed does not end. -/
theorem leadTurn_never (starts : AnnotationAt ahead i) (name : NameEnds ahead (i + 2) j)
    (opens : isWord ahead[j]? "(" = true)
    (never : ∀ n, countOf ")" ((ahead.drop (j + 1)).take n) ≤ countOf "(" ((ahead.drop (j + 1)).take n))
    (facing : q.Facing ahead) (annotated : Bool) : ¬ ∃ result q', (leadTurn annotated i).Runs q result q' := by
  rintro ⟨result, q', runs⟩
  have use : (isOf ahead[i]? .atSign && !isWord ahead[i + 1]? "interface") = true := by
    rw [starts.sign, starts.use]
    rfl
  obtain ⟨j', read, name'⟩ := @pastDots_read Rule.reads ahead (i + 2)
  obtain rfl := name.unique name'
  -- What stands in front of the search ends, so the run goes on behind it.
  obtain ⟨p, facing, runs⟩ := Runs.behind (orderly_lookAt_nat i) facing rfl runs
  change (if isOf ahead[i]? .modifier = true then _ else _ : Routine ((Nat × Body.Lead) × Bool)).Runs p result q' at runs
  rw [starts.not_modifier, if_neg Bool.false_ne_true] at runs
  obtain ⟨p, facing, runs⟩ := Runs.behind (orderly_annotationAt i) facing (read_annotationAt_nat i) runs
  rw [use, if_pos rfl] at runs
  obtain ⟨p, facing, runs⟩ := Runs.behind (orderly_pastDots _) facing read runs
  obtain ⟨p, facing, runs⟩ := Runs.behind (orderly_lookAt_nat j) facing rfl runs
  change (if isWord ahead[j]? "(" = true then _ else _ : Routine ((Nat × Body.Lead) × Bool)).Runs p result q' at runs
  rw [opens, if_pos rfl] at runs
  cases runs.of_bind with
  | ok first => exact pastParentheses_never never facing ⟨_, _, first⟩
  | failed first => exact pastParentheses_never never facing ⟨_, _, first⟩

theorem LeadStep.runs {passed : Bool} (step : LeadStep ahead i j passed) (facing : q.Facing ahead) (annotated : Bool)
    : ∃ q', q'.Facing ahead ∧
      (leadTurn annotated i).Runs q (.ok ((j, .passed ahead[i]? (annotated || passed)), true)) q' :=
  runs_of_read (orderly_leadTurn annotated i) facing (leadTurn_step step annotated)

/-- The look-ahead comes by its turns to every index that it passes. -/
theorem Passes.comes (passes : Passes ahead i) (facing : q.Facing ahead) : ∃ n found q', q'.Facing ahead ∧
      Comes (fun s => leadTurn s.2.annotated s.1) n (0, .passed none false) q (i, found) q' := by
  have further {i j : Nat} {passed : Bool} (step : LeadStep ahead i j passed)
      (comes : ∃ n found q', q'.Facing ahead ∧
        Comes (fun s => leadTurn s.2.annotated s.1) n (0, .passed none false) q (i, found) q') :
      ∃ n found q', q'.Facing ahead ∧
        Comes (fun s => leadTurn s.2.annotated s.1) n (0, .passed none false) q (j, found) q' := by
    obtain ⟨n, found, q', facing', comes⟩ := comes
    obtain ⟨q'', facing'', turn⟩ := step.runs facing' found.annotated
    exact ⟨n + 1, _, q'', facing'', comes.next turn⟩
  induction passes with
  | start => exact ⟨0, _, q, facing, .start _ _⟩
  | final _ modifier final ih => exact further (.final modifier final) ih
  | plain _ starts name plain ih => exact further (.plain starts name plain) ih
  | arguments _ starts name opens closed ih => exact further (.arguments starts name opens closed) ih

end

end JavaSource.Grammar

namespace JavaSource.Parser

open Grammar Routine

section

variable {p : Parser} {ahead : List Token}

/-- Where all arguments that it enters are closed, the look-ahead ends. -/
theorem not_entersUnclosed (facing : p.Facing ahead) (closed : ∀ j, EntersAt p ahead j → ClosedBehind ahead j) :
    ¬ EntersUnclosed ahead := by
  rintro ⟨i, j, passes, starts, name, opens, never⟩
  obtain ⟨n, found, q, -, comes⟩ := passes.comes facing
  obtain ⟨m, closes⟩ := closed j ⟨n, i, found, q, comes, starts, name, opens⟩
  have := never m
  omega

/-- Where the look-ahead ends, all arguments that it enters are closed. -/
theorem closed_of_runs (facing : p.Facing ahead) {result : Except ParseFailure Body.Lead} {q : Parser}
    (runs : Body.lead.Runs p result q) {j : Nat} (enters : EntersAt p ahead j) : ClosedBehind ahead j := by
  obtain ⟨n, i, found, q', comes, starts, name, opens⟩ := enters
  by_contra unclosed
  have never := closes_le fun n closes => unclosed ⟨n, closes⟩
  have facing' : q'.Facing ahead := comes.keeps (fun _ q => q.Facing ahead) facing fun s _ _ _ facing turn =>
    (quiet_lead.1 s).stays turn (orderly_lead.1 s) facing
  have turn := leadTurn_never starts name opens never facing' found.annotated
  rw [lead_eq_loop] at runs
  cases comes.runs_on runs with
  | again first => exact turn ⟨_, _, first⟩
  | done first => exact turn ⟨_, _, first⟩
  | turnFails first => exact turn ⟨_, _, first⟩

/-- **The look-ahead ends** exactly when the arguments of each annotation that it enters are closed: otherwise it
looks for the closing parenthesis at one index after the other, with some still open, and only the bound on its turns
stops it. -/
theorem lead_ends_iff (facing : p.Facing ahead) :
    ((∃ result q, Body.lead.Runs p result q) ↔ ∀ j, EntersAt p ahead j → ClosedBehind ahead j) ∧
      ((p.run (exec plainly Body.lead)).1 = .error .endless ↔ ∃ j, EntersAt p ahead j ∧ ¬ ClosedBehind ahead j) ∧
      ∀ j, ¬ ClosedBehind ahead j → ∀ q : Parser, q.Facing ahead →
        ∀ n, ∃ depth q', 0 < depth ∧ Comes closingTurn n (j + 1, 1) q (j + 1 + n, depth) q' := by
  have ends (closed : ∀ j, EntersAt p ahead j → ClosedBehind ahead j) :
      ∃ found, (p.run (exec plainly Body.lead)).1 = .ok found := by
    obtain ⟨found, read⟩ := @lead_read Rule.reads ahead (not_entersUnclosed facing closed)
    exact ⟨found, (exec_does orderly_lead facing).result.trans (by rw [read])⟩
  have runs (ends : (p.run (exec plainly Body.lead)).1 ≠ .error .endless) : ∃ result q, Body.lead.Runs p result q :=
    ⟨_, _, follows_follow.faithful orderly_lead p ahead facing ends⟩
  refine ⟨⟨fun ⟨result, q, ran⟩ j => closed_of_runs facing ran, fun closed => ?_⟩, ⟨fun endless => ?_, ?_⟩, ?_⟩
  · obtain ⟨found, ok⟩ := ends closed
    exact runs (by rw [ok]; exact fun same => by cases same)
  · by_contra none
    obtain ⟨found, ok⟩ := ends fun j enters => by_contra fun unclosed => none ⟨j, enters, unclosed⟩
    cases ok.symm.trans endless
  · rintro ⟨j, enters, unclosed⟩
    by_contra ended
    obtain ⟨result, q, ran⟩ := runs ended
    exact unclosed (closed_of_runs facing ran enters)
  · intro j unclosed q facing' n
    have never := closes_le fun n closes => unclosed ⟨n, closes⟩
    obtain ⟨depth, q', comes, searching⟩ := comes_closing never facing' n
    have counted := searching.counted
    have := never (j + 1 + n - (j + 1))
    exact ⟨depth, q', by dsimp only at counted; omega, comes⟩

/-- Arguments with a parenthesis too few: the look-ahead does not end. -/
theorem lead_ends_unclosed :
    ¬ ∃ result q, Body.lead.Runs (ofTokens (tokensOf "final @A.B(c(d) class E;")) result q := by
  have fails : ((ofTokens (tokensOf "final @A.B(c(d) class E;")).run (exec plainly Body.lead)).1.map (fun _ => ()) =
      .error .endless := by decide +kernel
  have endless : ((ofTokens (tokensOf "final @A.B(c(d) class E;")).run (exec plainly Body.lead)).1 =
      .error .endless := by
    cases result : ((ofTokens (tokensOf "final @A.B(c(d) class E;")).run (exec plainly Body.lead)).1 with
    | ok found =>
      rw [result] at fails
      cases fails
    | error failure =>
      rw [result] at fails
      cases fails
      rfl
  obtain ⟨ends, bounded, -⟩ := lead_ends_iff (facing_ofTokens (tokensOf "final @A.B(c(d) class E;"))
  obtain ⟨j, enters, unclosed⟩ := bounded.1 endless
  exact fun runs => unclosed (ends.1 runs j enters)

end

end JavaSource.Parser
