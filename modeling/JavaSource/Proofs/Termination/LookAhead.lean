import JavaSource.Proofs.Termination.Pace

/-!
# Where the look-ahead does not end

In front of a statement in a block the parser looks past modifiers and annotations, without taking a token. It goes
on forever where it comes to the arguments of an annotation that are opened and not closed, because what stands
behind the last token closes nothing: `EntersUnclosed`. Everywhere else it ends: `lead_read`.
-/

namespace JavaSource.Grammar

open Routine Outcome Body

/-- **The look-ahead ends**, unless it comes to arguments that are not closed. -/
theorem lead_read {follow : Reader} {ahead : List Token} (closed : ¬ EntersUnclosed ahead) :
    ∃ found, lead.read follow ahead = .ok found ahead := by
  obtain ⟨s, read⟩ := (@leadTurns_end follow ahead 0 (ahead.length + 2) Body.Lead.annotated .start (by omega)
    (.passed none false)).resolve_right fun ends => closed ends.2
  exact ⟨s.2, (congrArg (Outcome.andThen · _) read).trans (andThen_pure _ _ _)⟩

/-! ## Rules end -/

theorem orderly_lead : lead.Orderly := by
  simp only [lead, pastDots, pastParentheses]
  repeat' first
    | with_reducible first
      | exact orderly_lookAt_nat _
      | exact orderly_annotationAt _
      | refine orderly_bind ?_ fun _ => ?_
      | refine orderly_ite ?_ ?_
      | refine orderly_loop (fun _ => ?_) fun _ => ?_
    | exact orderly_pure _

theorem orderly_led (found : Body.Lead) : (led found).Orderly := by
  cases found with
  | declaration => exact orderly_parse _
  | passed start annotated =>
    refine orderly_ite (orderly_parse _) (orderly_ite (Tried.localVariable start).orderly ?_)
    exact orderly_ite (orderly_parse _) ((Tried.localVariable start).orderly_attempt (orderly_parse _))

/-- The parser stands where the look-ahead in front of a statement does not end. -/
def Stalls (p : Parser) : Prop := ∃ ahead, p.Facing ahead ∧ EntersUnclosed ahead

section

variable {follow : (r : Rule) → ParseM r.Result} {read : Reader}
  {p : Parser} {ahead : List Token}

variable {n : Nat}

/-- A statement in a block ends, if the look-ahead in front of it does. -/
theorem blockStatement_ends (sound : Follows follow read)
    (rules : ∀ (r : Rule) (p : Parser) (ahead : List Token), p.Facing ahead → r.depth + 8 * ahead.length < n →
      (parse r).Avoids Stalls p → (p.run (follow r)).1 ≠ .error .endless)
    (facing : p.Facing ahead) (enough : Rule.depth .blockStatement + 8 * ahead.length ≤ n)
    (closed : ¬ EntersUnclosed ahead) (avoids : blockStatement.Avoids Stalls p) :
    blockStatement.Ends follow p := by
  -- The tests and the look-ahead take no token, so what follows them is in front of the same tokens.
  have looks {p' : Pattern} {patterns : List Pattern} {q : Parser} (facing : q.Facing ahead) :
      (wouldAccept (p' :: patterns)).Ends follow q := by
    have paced : (wouldAccept (p' :: patterns)).Ensures (pacing false 0) false false fun _ _ => True :=
      ensures_wouldAccept trivial trivial
    refine paced.ends_here sound rules (orderly_wouldAccept _) facing (by omega) fun d q reaches => ?_
    exact absurd reaches (looks_wouldAccept _ _).quiet.not_reaches
  have statement {q : Parser} (facing : q.Facing ahead) (avoids : (parse .statement).Avoids Stalls q) :
      (parse .statement).Ends follow q := by
    have paced : (parse .statement).Ensures (pacing false (Rule.depth .blockStatement)) false false fun _ _ => True :=
      ensures_parse rfl fun _ _ => trivial
    exact paced.ends_here sound rules (orderly_parse _) facing enough avoids
  rw [blockStatement_eq] at avoids ⊢
  refine ends_bind sound (orderly_wouldAccept _) facing (looks facing) fun labelled q ran => ?_
  have facing := (looks_wouldAccept _ _).quiet.stays ran (orderly_wouldAccept _) facing
  have avoids := fun d q' reaches => avoids d q' (ran.reaches_bind reaches)
  cases labelled with
  | true => exact statement facing avoids
  | false =>
    refine ends_bind sound (orderly_wouldAccept _) facing (looks facing) fun locked q ran => ?_
    have facing := (looks_wouldAccept _ _).quiet.stays ran (orderly_wouldAccept _) facing
    have avoids := fun d q' reaches => avoids d q' (ran.reaches_bind reaches)
    cases locked with
    | true => exact statement facing avoids
    | false =>
      obtain ⟨found, told⟩ := @lead_read read ahead closed
      have looked : lead.Ends follow q := by
        unfold Routine.Ends
        rw [(sound.exec orderly_lead facing).result, told]
        exact fun same => by cases same
      refine ends_bind sound orderly_lead facing looked fun found q ran => ?_
      have facing := quiet_lead.stays ran orderly_lead facing
      have paced := (@led_ensures false found).weaken contract_implies_pacing fun _ _ => id
      exact paced.ends_here sound rules (orderly_led found) facing enough fun d q' reaches => avoids d q' (ran.reaches_bind reaches)

/-- **Rules end** where they do not come to a look-ahead that does not. -/
theorem Rule.run_ends (r : Rule) (facing : p.Facing ahead) (enough : r.depth + 8 * ahead.length < n)
    (avoids : (parse r).Avoids Stalls p) : (p.run (r.run plainly n)).1 ≠ .error .endless := by
  induction n generalizing r p ahead with
  | zero => omega
  | succ n ih =>
    have rules (r : Rule) (p : Parser) (ahead : List Token) (facing : p.Facing ahead) := @ih p ahead r facing
    have within : r.body.Avoids Stalls p := fun d q reaches => avoids (d + 1) q (.inside reaches)
    by_cases block : r = .blockStatement
    · subst block
      have closed : ¬ EntersUnclosed ahead := fun enters => avoids 1 p (.call _ _ p) ⟨ahead, facing, enters⟩
      exact blockStatement_ends (follows_run n) rules facing (by omega) closed within
    · exact (r.body_paced (.inr block)).ends_here (follows_run n) rules r.body_orderly facing (by omega) within

end

end JavaSource.Grammar
