import JavaSource.Proofs.Layout.Rules
import JavaSource.Proofs.Parser.Given
import JavaSource.Proofs.Termination.LookAhead

/-!
# Where the look-ahead stops

A statement in a block is told by the first token behind its modifiers and annotations, which a loop looks for by
index. The rule for modifiers reads the same tokens by rules. The loop stops where the rule does if and only if each
annotation without arguments is followed by `final`, and the arguments of all others close as many parentheses as they
open.
-/

namespace JavaSource.Grammar

open Routine Outcome

/-! ## The loop -/

/-- The loop of the look-ahead in front of a statement, and what is made of the index at which it stops and of what it
has found. -/
def leadLoop {α : Type} (k : Nat × Body.Lead → Routine α) : Routine α :=
  .loop (0, .passed none false) (fun s => leadTurn s.2.annotated s.1) k

theorem lead_eq_loop : Body.lead = leadLoop fun s => .pure s.2 := rfl

def leadIndex : Routine Nat := leadLoop fun s => .pure s.1

theorem orderly_leadIndex : leadIndex.Orderly :=
  orderly_loop orderly_lead.1 fun _ => orderly_pure _

/-- **The look-ahead**, from one index on, stops at another. It tells whether it came past an annotation. -/
inductive Halts (ahead : List Token) : Nat → Nat → Bool → Prop
  | here {i : Nat} (stays : LeadStays ahead i) : Halts ahead i i false
  | step {i j k : Nat} {passed later : Bool} (step : LeadStep ahead i j passed) (rest : Halts ahead j k later) :
    Halts ahead i k (passed || later)

section

variable {follow : Reader} {ahead : List Token} {i j k : Nat} {passed later : Bool}

variable {j' : Nat}

namespace LeadStep

theorem unique {passed' : Bool} (step : LeadStep ahead i j passed) (step' : LeadStep ahead i j' passed') :
    j = j' ∧ passed = passed' := by
  cases step with
  | final modifier =>
    cases step' with
    | final => exact ⟨rfl, rfl⟩
    | plain starts => exact absurd (starts.not_modifier.symm.trans modifier) Bool.false_ne_true
    | arguments starts => exact absurd (starts.not_modifier.symm.trans modifier) Bool.false_ne_true
  | plain starts name plain =>
    cases step' with
    | final modifier => exact absurd (starts.not_modifier.symm.trans modifier) Bool.false_ne_true
    | plain _ name' => exact ⟨congrArg Nat.succ (name.unique name'), rfl⟩
    | arguments _ name' opens =>
      obtain rfl := name.unique name'
      exact absurd (plain.symm.trans opens) Bool.false_ne_true
  | arguments starts name opens closed =>
    cases step' with
    | final modifier => exact absurd (starts.not_modifier.symm.trans modifier) Bool.false_ne_true
    | plain _ name' plain =>
      obtain rfl := name.unique name'
      exact absurd (plain.symm.trans opens) Bool.false_ne_true
    | arguments _ name' _ closed' =>
      obtain rfl := name.unique name'
      obtain rfl := closed.unique closed'
      exact ⟨rfl, rfl⟩

theorem not_stays (step : LeadStep ahead i j passed) : ¬ LeadStays ahead i := by
  intro stays
  cases step with
  | final modifier final => exact absurd ((stays.notFinal modifier).symm.trans final) Bool.false_ne_true
  | plain starts => exact stays.noUse starts
  | arguments starts => exact stays.noUse starts

end LeadStep

namespace Halts

theorem le (halts : Halts ahead i k later) : i ≤ k := by
  induction halts with
  | here => exact Nat.le_refl _
  | step step _ ih => exact Nat.le_trans (Nat.le_of_lt step.lt) ih

theorem eq_of_stays (halts : Halts ahead i k later) (stays : LeadStays ahead i) : k = i := by
  cases halts with
  | here => rfl
  | step step => exact absurd stays step.not_stays

theorem next (halts : Halts ahead i k later) (goes : ¬ LeadStays ahead i) :
    ∃ j passed later, LeadStep ahead i j passed ∧ Halts ahead j k later := by
  cases halts with
  | here stays => exact absurd stays goes
  | step step rest => exact ⟨_, _, _, step, rest⟩

/-- Past an index from which it goes on, the look-ahead stops where it stops from the next one on. -/
theorem behind (halts : Halts ahead i k later) (step : LeadStep ahead i j passed) :
    ∃ later', later = (passed || later') ∧ Halts ahead j k later' := by
  cases halts with
  | here stays => exact absurd stays step.not_stays
  | step step' rest =>
    obtain ⟨rfl, rfl⟩ := step.unique step'
    exact ⟨_, rfl, rest⟩

end Halts

/-! ## What the loop does -/

/-- The turns of the loop, from any index on. -/
theorem repeated_halts (halts : Halts ahead i k later) {n : Nat} (enough : ahead.length - i < n) (found : Body.Lead) :
    ∃ found', repeated (fun s ahead => (leadTurn s.2.annotated s.1).read follow ahead) n (i, found) ahead =
        .ok (k, found') ahead ∧
      (isOf ahead[k]? .modifier = false → found' = .passed ahead[k]? (found.annotated || later)) := by
  induction halts generalizing n found with
  | here stays =>
    obtain ⟨n, rfl⟩ : ∃ m, n = m + 1 := ⟨n - 1, by omega⟩
    obtain ⟨found', read, told⟩ := @leadTurn_stays follow _ _ stays found.annotated
    rw [Bool.or_false]
    exact ⟨found', repeated_done read n, told⟩
  | @step i j k passed later step _ ih =>
    obtain ⟨n, rfl⟩ : ∃ m, n = m + 1 := ⟨n - 1, by omega⟩
    have inside := step.inside
    have lt := step.lt
    obtain ⟨found', read, told⟩ := @ih n (by omega) (.passed ahead[i]? (found.annotated || passed))
    rw [← Bool.or_assoc]
    exact ⟨found', (repeated_more (leadTurn_step step _) n).trans read, told⟩

theorem halts_of_repeated {found found' : Body.Lead} {rest : List Token}
    (gives : (repeated (fun s ahead => (leadTurn s.2.annotated s.1).read follow ahead) n (i, found) ahead).Gives
      (k, found') rest) : ∃ later, Halts ahead i k later := by
  induction n generalizing i found with
  | zero => cases gives.result
  | succ n ih =>
    rcases @leadTurn_cases follow ahead i found.annotated with ⟨j, passed, step⟩ | stays | ⟨endless, -⟩
    · rw [repeated_more (leadTurn_step step _)] at gives
      obtain ⟨later, halts⟩ := ih gives
      exact ⟨_, .step step halts⟩
    · obtain ⟨found', read, -⟩ := @leadTurn_stays follow _ _ stays found.annotated
      rw [repeated_done read] at gives
      cases gives.result
      exact ⟨_, .here stays⟩
    · rw [repeated, endless] at gives
      cases gives.result

/-- **The index of the look-ahead** is the one at which it halts. -/
theorem leadIndex_eq_iff : (leadIndex.read follow ahead).result = .ok k ↔ ∃ later, Halts ahead 0 k later := by
  refine ⟨fun result => ?_, fun ⟨later, halts⟩ => ?_⟩
  · have gives : (leadIndex.read follow ahead).Gives k (leadIndex.read follow ahead).ahead := ⟨result, rfl⟩
    obtain ⟨⟨index, found⟩, mid, turns, last⟩ := gives_andThen gives
    obtain ⟨rfl, -⟩ := gives_pure last
    exact halts_of_repeated turns
  · obtain ⟨found, read, -⟩ := @repeated_halts follow _ _ _ _ halts (ahead.length + 2) (by omega) (.passed none false)
    exact congrArg Outcome.result ((congrArg (Outcome.andThen · _) read).trans (andThen_pure _ _ _))

/-- What the look-ahead finds where it halts. -/
theorem read_lead (halts : Halts ahead 0 k later) (noModifier : isOf ahead[k]? .modifier = false) :
    Body.lead.read follow ahead = .ok (.passed ahead[k]? later) ahead := by
  obtain ⟨found, read, told⟩ := @repeated_halts follow _ _ _ _ halts (ahead.length + 2) (by omega) (.passed none false)
  rw [told noModifier] at read
  rw [lead_eq_loop]
  exact (congrArg (Outcome.andThen · _) read).trans (andThen_pure _ _ _)

end

end JavaSource.Grammar
