import JavaSource.Proofs.Parser.Modifiers
import JavaSource.Proofs.Rules.Combinators

/-!
# Looking past annotations

A statement in a block is told by the first token behind its modifiers and annotations. The look-ahead for it
takes no token. It ends, unless it looks for the parenthesis that closes the arguments of an annotation and there
is none: `ensures_lead`.
-/

namespace JavaSource.Grammar

open List Routine Outcome

section

variable {α β : Type}

/-! ## Looking -/

variable {routine : Routine α}

theorem quiet_bind {f : α → Routine β} (calm : routine.Quiet) (rest : ∀ a, (f a).Quiet) :
    (routine >>= f).Quiet := by
  change (routine.bind f).Quiet
  induction routine with
  | pure a => exact rest a
  | look i k ih => exact fun t => ih t (calm t) rest
  | loop s body k _ ihRest => exact ⟨calm.1, fun s => ihRest s (calm.2 s) rest⟩
  | _ => exact calm.elim

theorem Routine.Looks.quiet (looks : routine.Looks) : routine.Quiet := by
  induction routine with
  | pure a => trivial
  | look i k ih => exact fun t => ih t (looks t)
  | _ => exact looks.elim

theorem quiet_lookAt (i : Int) : (lookAt i).Quiet := fun _ => trivial

theorem quiet_ite {c : Prop} {_ : Decidable c} {yes no : Routine α} (holds : yes.Quiet) (fails : no.Quiet) :
    (if c then yes else no).Quiet := by
  split
  · exact holds
  · exact fails

theorem quiet_pastDots (i : Nat) : (Body.pastDots i).Quiet :=
  ⟨fun i => quiet_bind (quiet_lookAt i) fun _ => quiet_ite trivial trivial, fun _ => trivial⟩

theorem quiet_pastParentheses (i : Nat) : (Body.pastParentheses i).Quiet :=
  ⟨fun s => quiet_bind (quiet_lookAt s.1) fun _ => trivial, fun _ => trivial⟩

/-- The look-ahead in front of a statement in a block. -/
theorem quiet_lead : Body.lead.Quiet := by
  refine ⟨fun s => quiet_bind (quiet_lookAt s.1) fun t => quiet_ite (quiet_ite trivial trivial) ?_, fun _ => trivial⟩
  refine quiet_bind (looks_annotationAt s.1).quiet fun starts => quiet_ite ?_ trivial
  refine quiet_bind (quiet_pastDots _) fun i => quiet_bind (quiet_lookAt i) fun u => quiet_ite ?_ trivial
  exact quiet_bind (quiet_pastParentheses _) fun i => trivial

end

def Body.led : Lead → Routine Tree
  | .declaration => parse .classOrInterfaceDeclaration
  | .passed start annotated =>
    if isAmong start (Vocabulary.texts ["class", "enum", "interface", "@"]) then parse .classOrInterfaceDeclaration
    else if annotated || isOf start .basicType then localVariableAt start
    else if !isOf start .identifier then parse .statement
    else .attempt (localVariableAt start) .pure (parse .statement)

theorem blockStatement_eq : Body.blockStatement = (wouldAccept [.cls .identifier, ":"] >>= fun labelled =>
      if labelled = true then parse .statement
      else wouldAccept ["synchronized"] >>= fun locked =>
        if locked = true then parse .statement else Body.lead >>= Body.led) :=
  rfl

section

variable {follow : Reader} {ahead : List Token}

variable {α : Type}

/-- What is read after a look at a token is read in front of it. -/
theorem read_lookAt_bind (i : Nat) (f : Option Token → Routine α) :
    (lookAt i >>= f).read follow ahead = (f ahead[i]?).read follow ahead := rfl

variable {i : Nat}

theorem lt_of_isWord {word : String} (is : isWord ahead[i]? word = true) : i < ahead.length := by
  refine Nat.lt_of_not_le fun beyond => ?_
  rw [getElem?_eq_none beyond] at is
  cases is

theorem lt_of_isOf {cls : TokenClass} (is : isOf ahead[i]? cls = true)
    (noEnd : TokenClass.isA .endOfInput cls = false) : i < ahead.length := by
  refine Nat.lt_of_not_le fun beyond => ?_
  rw [getElem?_eq_none beyond] at is
  exact Bool.false_ne_true (noEnd.symm.trans is)

/-- What a token does to the number of open parentheses. -/
def openedBy (t : Option Token) (depth : Nat) : Nat :=
  if isWord t "(" then depth + 1 else if isWord t ")" then depth - 1 else depth

theorem countOf_cons (word : String) (t : Token) (tokens : List Token) :
    countOf word (t :: tokens) = countOf word tokens + countOf word [t] := by
  rw [countOf, countOf, countOf, countP_cons, countP_singleton]

/-- A token opens and closes as many parentheses as the count says. -/
theorem openedBy_balance (t : Token) (depth : Nat) :
    countOf ")" [t] + openedBy (some t) (depth + 1) = countOf "(" [t] + (depth + 1) := by
  rw [countOf, countOf, countP_singleton, countP_singleton, openedBy]
  by_cases opens : isWord (some t) "(" = true
  · have closes : isWord (some t) ")" = false := by
      rw [isWord, eq_of_beq opens]
      decide +kernel
    rw [if_pos opens, if_pos opens, closes, if_neg Bool.false_ne_true]
    omega
  · rw [if_neg opens, if_neg opens]
    split <;> omega

/-- The first `n` tokens are the shortest run that closes one parenthesis more than it opens, besides `depth`
further ones. -/
structure ClosedAfter (tokens : List Token) (depth n : Nat) : Prop where
  last : countOf ")" (tokens.take n) = countOf "(" (tokens.take n) + depth + 1
  before : ∀ m < n, countOf ")" (tokens.take m) ≤ countOf "(" (tokens.take m) + depth

variable {step : Nat × Nat → List Token → Outcome ((Nat × Nat) × Bool)}

/-- From a place on behind an opening parenthesis, with `depth` further ones open: the closing one is found, or
the tokens that were looked at close no more than they open. -/
theorem pastParentheses_turns
    (turn : ∀ i depth, step (i, depth) ahead =
      .ok ((i + 1, openedBy ahead[i]? depth), openedBy ahead[i]? depth != 0) ahead) (n i depth : Nat) :
    (∃ m left, repeated step n (i, depth + 1) ahead = .ok (i + m, left) ahead ∧
        ClosedAfter (ahead.drop i) depth m) ∨
      (repeated step n (i, depth + 1) ahead = { result := .error .endless, ahead } ∧
        ∀ k ≤ n, countOf ")" ((ahead.drop i).take k) ≤ countOf "(" ((ahead.drop i).take k) + depth) := by
  induction n generalizing i depth with
  | zero =>
    refine .inr ⟨rfl, fun k le => ?_⟩
    rw [Nat.le_zero.1 le, take_zero]
    exact Nat.zero_le _
  | succ n ih =>
    rw [repeated, turn, andThen_pure]
    cases rest : ahead.drop i with
    | nil =>
      have beyond : ahead.length ≤ i := drop_eq_nil_iff.1 rest
      have nothing : ahead[i]? = none := getElem?_eq_none beyond
      have after : ahead.drop (i + 1) = [] := drop_eq_nil_iff.2 (by omega)
      have same : openedBy none (depth + 1) = depth + 1 := rfl
      rw [nothing, same]
      rcases ih (i + 1) depth with ⟨m, left, -, closed⟩ | ⟨read, -⟩
      · rw [after] at closed
        have := closed.last
        simp [countOf] at this
      · exact .inr ⟨read, fun k _ => by simp [countOf]⟩
    | cons t later =>
      have first : ahead[i]? = some t := by rw [← head?_drop, rest]; rfl
      have after : ahead.drop (i + 1) = later := by rw [← tail_drop, rest]; rfl
      have balance := openedBy_balance t depth
      rw [first]
      cases opened : openedBy (some t) (depth + 1) with
      | zero =>
        rw [opened] at balance
        refine .inl ⟨1, 0, rfl, balance, fun m lt => ?_⟩
        rw [Nat.lt_one_iff.1 lt]
        exact Nat.zero_le _
      | succ further =>
        rw [opened] at balance
        have ih := ih (i + 1) further
        rw [after] at ih
        rcases ih with ⟨m, left, read, last, before⟩ | ⟨read, counts⟩
        · refine .inl ⟨m + 1, left, ?_, ?_, fun k lt => ?_⟩
          · rw [← Nat.add_right_comm, Nat.add_assoc] at read
            exact read
          · rw [take_succ_cons, countOf_cons, countOf_cons "("]
            omega
          · cases k with
            | zero => exact Nat.zero_le _
            | succ k =>
              have := before k (by omega)
              rw [take_succ_cons, countOf_cons, countOf_cons "("]
              omega
        · refine .inr ⟨read, fun k le => ?_⟩
          cases k with
          | zero => exact Nat.zero_le _
          | succ k =>
            have := counts k (by omega)
            rw [take_succ_cons, countOf_cons, countOf_cons "("]
            omega

def closingTurn (s : Nat × Nat) : Routine ((Nat × Nat) × Bool) := do
  let t ← lookAt s.1
  return ((s.1 + 1, openedBy t s.2), openedBy t s.2 != 0)

/-- Behind an opening parenthesis, the one that closes it is found, or the tokens close no more than they open. -/
theorem pastParentheses_read (i : Nat) :
    (∃ n, (Body.pastParentheses i).read follow ahead = .ok (i + n) ahead ∧ ClosedAfter (ahead.drop i) 0 n) ∨
      ((Body.pastParentheses i).read follow ahead = { result := .error .endless, ahead } ∧
        ∀ n, countOf ")" ((ahead.drop i).take n) ≤ countOf "(" ((ahead.drop i).take n)) := by
  have turns := @pastParentheses_turns ahead fun s ahead => (closingTurn s).read follow ahead
  rcases turns (fun _ _ => rfl) (ahead.length + 2) i 0 with ⟨n, left, read, closed⟩ | ⟨read, counts⟩
  · exact .inl ⟨n, (congrArg (Outcome.andThen · _) read).trans (andThen_pure _ _ _), closed⟩
  · refine .inr ⟨(congrArg (Outcome.andThen · _) read).trans (andThen_error rfl _), fun n => ?_⟩
    by_cases le : n ≤ ahead.length + 2
    · exact counts n le
    · have all := counts (ahead.length + 2) (Nat.le_refl _)
      have short : (ahead.drop i).length ≤ ahead.length := by
        rw [length_drop]
        exact Nat.sub_le _ _
      rw [take_of_length_le (by omega)] at all ⊢
      exact all

/-! ## Where it comes to -/

end

/-- The use of an annotation starts `i` ahead. -/
structure AnnotationAt (ahead : List Token) (i : Nat) : Prop where
  sign : isOf ahead[i]? .atSign = true
  use : isWord ahead[i + 1]? "interface" = false

/-- The dots and names of a qualified name, the first dot of which would be at `i`, end in front of `j`. -/
inductive NameEnds (ahead : List Token) : Nat → Nat → Prop
  | here {i : Nat} (other : isWord ahead[i]? "." = false) : NameEnds ahead i i
  | dot {i j : Nat} (dot : isWord ahead[i]? "." = true) (rest : NameEnds ahead (i + 2) j) : NameEnds ahead i j

/-- **Where the look-ahead comes to**: behind `final`, behind the arguments of an annotation, and behind the token
that follows an annotation without arguments, which is passed over unseen. -/
inductive Passes (ahead : List Token) : Nat → Prop
  | start : Passes ahead 0
  | final {i : Nat} (passes : Passes ahead i) (modifier : isOf ahead[i]? .modifier = true)
    (final : isWord ahead[i]? "final" = true) : Passes ahead (i + 1)
  | plain {i j : Nat} (passes : Passes ahead i) (starts : AnnotationAt ahead i) (name : NameEnds ahead (i + 2) j)
    (plain : isWord ahead[j]? "(" = false) : Passes ahead (j + 1)
  | arguments {i j n : Nat} (passes : Passes ahead i) (starts : AnnotationAt ahead i) (name : NameEnds ahead (i + 2) j)
    (opens : isWord ahead[j]? "(" = true) (closed : ClosedAfter (ahead.drop (j + 1)) 0 n) : Passes ahead (j + 1 + n)

/-- The look-ahead in front of a statement comes to the arguments of an annotation that no later token closes. -/
def EntersUnclosed (ahead : List Token) : Prop :=
  ∃ i j, Passes ahead i ∧ AnnotationAt ahead i ∧ NameEnds ahead (i + 2) j ∧ isWord ahead[j]? "(" = true ∧
    ∀ n, countOf ")" ((ahead.drop (j + 1)).take n) ≤ countOf "(" ((ahead.drop (j + 1)).take n)

/-- Where every parenthesis is closed, so are the arguments of annotations. -/
theorem EntersUnclosed.unclosed {ahead : List Token} (enters : EntersUnclosed ahead) : Unclosed ahead := by
  obtain ⟨i, j, -, -, -, opens, counts⟩ := enters
  have inside := lt_of_isWord opens
  have split : ahead.drop j = ahead[j] :: ahead.drop (j + 1) := List.drop_eq_getElem_cons inside
  rw [List.getElem?_eq_getElem inside] at opens
  refine ⟨ahead[j], ahead.drop (j + 1), ?_, Option.some.inj (eq_of_beq opens), counts⟩
  rw [← split]
  exact List.drop_suffix j ahead

def Body.Lead.annotated : Body.Lead → Bool
  | .passed _ annotated => annotated
  | .declaration => false

def leadTurn (annotated : Bool) (i : Nat) : Routine ((Nat × Body.Lead) × Bool) := do
  let t ← lookAt i
  if isOf t .modifier then
    if isWord t "final" then return ((i + 1, .passed t annotated), true)
    else return ((i, .declaration), false)
  else if ← annotationAt i then
    let i ← Body.pastDots (i + 2)
    let u ← lookAt i
    if isWord u "(" then
      let i ← Body.pastParentheses (i + 1)
      return ((i, .passed t true), true)
    else return ((i + 1, .passed t true), true)
  else return ((i, .passed t annotated), false)

/-- The look-ahead goes on from one index to the next. It tells whether it passes an annotation. -/
inductive LeadStep (ahead : List Token) (i : Nat) : Nat → Bool → Prop
  | final (modifier : isOf ahead[i]? .modifier = true) (final : isWord ahead[i]? "final" = true) :
    LeadStep ahead i (i + 1) false
  | plain {j : Nat} (starts : AnnotationAt ahead i) (name : NameEnds ahead (i + 2) j)
    (plain : isWord ahead[j]? "(" = false) : LeadStep ahead i (j + 1) true
  | arguments {j n : Nat} (starts : AnnotationAt ahead i) (name : NameEnds ahead (i + 2) j)
    (opens : isWord ahead[j]? "(" = true) (closed : ClosedAfter (ahead.drop (j + 1)) 0 n) :
    LeadStep ahead i (j + 1 + n) true

/-- The look-ahead goes no further. -/
structure LeadStays (ahead : List Token) (i : Nat) : Prop where
  notFinal : isOf ahead[i]? .modifier = true → isWord ahead[i]? "final" = false
  noUse : ¬ AnnotationAt ahead i

section

variable {follow : Reader} {ahead : List Token} {i j n : Nat} {passed : Bool}

theorem NameEnds.le {i j : Nat} (ends : NameEnds ahead i j) : i ≤ j := by
  induction ends with
  | here => exact Nat.le_refl _
  | dot _ _ ih => omega

theorem pastDots_read (i : Nat) :
    ∃ j, (Body.pastDots i).read follow ahead = .ok j ahead ∧ NameEnds ahead i j := by
  have turns (n i : Nat) (enough : ahead.length - i < n) :
      ∃ j, repeated (fun (i : Nat) ahead => Routine.read follow (do
        let t ← lookAt i
        if isWord t "." then return (i + 2, true) else return (i, false)) ahead) n i ahead =
        .ok j ahead ∧ NameEnds ahead i j := by
    induction n generalizing i with
    | zero => omega
    | succ n ih =>
      cases dot : isWord ahead[i]? "." with
      | false =>
        refine ⟨i, repeated_done ?_ n, .here dot⟩
        rw [read_lookAt_bind, dot]
        rfl
      | true =>
        have inside := lt_of_isWord dot
        obtain ⟨j, read, ends⟩ := ih (i + 2) (by omega)
        refine ⟨j, (repeated_more ?_ n).trans read, .dot dot ends⟩
        rw [read_lookAt_bind, dot]
        rfl
  obtain ⟨j, read, ends⟩ := turns (ahead.length + 2) i (by omega)
  exact ⟨j, (congrArg (Outcome.andThen · _) read).trans (andThen_pure _ _ _), ends⟩

variable {j' : Nat}

theorem NameEnds.unique (ends : NameEnds ahead i j) (ends' : NameEnds ahead i j') : j = j' := by
  induction ends with
  | here other =>
    cases ends' with
    | here => rfl
    | dot dot => exact absurd (other.symm.trans dot) Bool.false_ne_true
  | dot dot _ ih =>
    cases ends' with
    | here other => exact absurd (other.symm.trans dot) Bool.false_ne_true
    | dot _ rest => exact ih rest

theorem ClosedAfter.unique {tokens : List Token} {depth m : Nat} (closed : ClosedAfter tokens depth n)
    (closed' : ClosedAfter tokens depth m) : n = m := by
  have one := closed.last
  have other := closed'.last
  rcases Nat.lt_trichotomy n m with lt | same | gt
  · have := closed'.before n lt
    omega
  · exact same
  · have := closed.before m gt
    omega

theorem AnnotationAt.not_modifier (starts : AnnotationAt ahead i) : isOf ahead[i]? .modifier = false :=
  isOf_apart starts.sign (by decide)

namespace LeadStep

theorem lt (step : LeadStep ahead i j passed) : i < j := by
  cases step with
  | final => exact Nat.lt_succ_self i
  | plain _ name =>
    have := name.le
    omega
  | arguments _ name =>
    have := name.le
    omega

theorem inside (step : LeadStep ahead i j passed) : i < ahead.length := by
  cases step with
  | final modifier => exact lt_of_isOf modifier (by decide)
  | plain starts => exact lt_of_isOf starts.sign (by decide)
  | arguments starts => exact lt_of_isOf starts.sign (by decide)

end LeadStep

/-! ## What a turn does -/

theorem read_annotationAt_nat (i : Nat) : (annotationAt i).read follow ahead =
      .ok (isOf ahead[i]? .atSign && !isWord ahead[i + 1]? "interface") ahead := by
  rw [annotationAt, read_lookAt_bind]
  cases isOf ahead[i]? .atSign <;> rfl

/-- What a turn does in front of an annotation. -/
theorem read_leadTurn_use (starts : AnnotationAt ahead i) (name : NameEnds ahead (i + 2) j) (annotated : Bool) :
    (leadTurn annotated i).read follow ahead =
      if isWord ahead[j]? "(" = true then
        ((Body.pastParentheses (j + 1)).read follow ahead).andThen fun k ahead' =>
          .ok ((k, .passed ahead[i]? true), true) ahead'
      else .ok ((j + 1, .passed ahead[i]? true), true) ahead := by
  have use : (isOf ahead[i]? .atSign && !isWord ahead[i + 1]? "interface") = true := by
    rw [starts.sign, starts.use]
    rfl
  obtain ⟨j', read, name'⟩ := @pastDots_read follow ahead (i + 2)
  obtain rfl := name.unique name'
  rw [leadTurn, read_lookAt_bind, starts.not_modifier, if_neg Bool.false_ne_true,
    read_bind_ok (read_annotationAt_nat i), use, if_pos rfl, read_bind_ok read, read_lookAt_bind]
  split
  · rw [read_monad_bind]
    rfl
  · rfl

theorem leadTurn_step (step : LeadStep ahead i j passed) (annotated : Bool) :
    (leadTurn annotated i).read follow ahead = .ok ((j, .passed ahead[i]? (annotated || passed)), true) ahead := by
  cases step with
  | final modifier final =>
    rw [leadTurn, read_lookAt_bind, modifier, final, Bool.or_false]
    rfl
  | plain starts name plain =>
    rw [read_leadTurn_use starts name, plain, if_neg Bool.false_ne_true, Bool.or_true]
  | @arguments j n starts name opens closed =>
    rw [read_leadTurn_use starts name, opens, if_pos rfl, Bool.or_true]
    rcases @pastParentheses_read follow ahead (j + 1) with ⟨m, read, closed'⟩ | ⟨-, never⟩
    · obtain rfl := closed.unique closed'
      rw [read, andThen_pure]
    · have last := closed.last
      have := never n
      omega

theorem leadTurn_stays (stays : LeadStays ahead i) (annotated : Bool) :
    ∃ found, (leadTurn annotated i).read follow ahead = .ok ((i, found), false) ahead ∧
      (isOf ahead[i]? .modifier = false → found = .passed ahead[i]? annotated) := by
  rw [leadTurn, read_lookAt_bind]
  cases modifier : isOf ahead[i]? .modifier with
  | true =>
    rw [if_pos rfl, stays.notFinal modifier]
    exact ⟨.declaration, rfl, (absurd ·.symm Bool.false_ne_true)⟩
  | false =>
    have other : (isOf ahead[i]? .atSign && !isWord ahead[i + 1]? "interface") = false := by
      refine Bool.eq_false_iff.2 fun both => ?_
      rw [Bool.and_eq_true, Bool.not_eq_true'] at both
      exact stays.noUse ⟨both.1, both.2⟩
    rw [if_neg Bool.false_ne_true, read_bind_ok (read_annotationAt_nat i), other]
    exact ⟨_, rfl, fun _ => rfl⟩

/-- The look-ahead goes on, or it stops, or it looks for a parenthesis in vain. -/
theorem leadTurn_cases (i : Nat) (annotated : Bool) : (∃ j passed, LeadStep ahead i j passed) ∨ LeadStays ahead i ∨
      ((leadTurn annotated i).read follow ahead = { result := .error .endless, ahead } ∧
        (Passes ahead i → EntersUnclosed ahead)) := by
  by_cases starts : AnnotationAt ahead i
  · obtain ⟨j, -, name⟩ := @pastDots_read follow ahead (i + 2)
    cases opens : isWord ahead[j]? "(" with
    | false => exact .inl ⟨_, _, .plain starts name opens⟩
    | true =>
      rcases @pastParentheses_read follow ahead (j + 1) with ⟨n, -, closed⟩ | ⟨read, never⟩
      · exact .inl ⟨_, _, .arguments starts name opens closed⟩
      · refine .inr (.inr ⟨?_, fun passes => ⟨i, j, passes, starts, name, opens, never⟩⟩)
        rw [read_leadTurn_use starts name, opens, if_pos rfl, read]
        rfl
  · by_cases final : isOf ahead[i]? .modifier = true ∧ isWord ahead[i]? "final" = true
    · exact .inl ⟨_, _, .final final.1 final.2⟩
    · exact .inr (.inl ⟨fun modifier => Bool.eq_false_iff.2 fun is => final ⟨modifier, is⟩, starts⟩)

theorem Passes.next (passes : Passes ahead i) (step : LeadStep ahead i j passed) : Passes ahead j := by
  cases step with
  | final modifier final => exact .final passes modifier final
  | plain starts name plain => exact .plain passes starts name plain
  | arguments starts name opens closed => exact .arguments passes starts name opens closed

/-- **The turns of the look-ahead** come to an end, unless they come to arguments that are not closed. The bound on
them is the number of tokens from the index on to which they have come. -/
theorem leadTurns_end (annotated : Body.Lead → Bool) (passes : Passes ahead i) (enough : ahead.length - i < n)
    (found : Body.Lead) :
    (∃ s, repeated (fun s ahead => (leadTurn (annotated s.2) s.1).read follow ahead) n (i, found) ahead =
        .ok s ahead) ∨
      (repeated (fun s ahead => (leadTurn (annotated s.2) s.1).read follow ahead) n (i, found) ahead =
        { result := .error .endless, ahead } ∧ EntersUnclosed ahead) := by
  induction n generalizing i found with
  | zero => omega
  | succ n ih =>
    rcases @leadTurn_cases follow ahead i (annotated found) with ⟨j, passed, step⟩ | stays | ⟨endless, enters⟩
    · rw [repeated_more (leadTurn_step step _)]
      have inside := step.inside
      have lt := step.lt
      exact ih (passes.next step) (by omega) _
    · obtain ⟨found', read, -⟩ := @leadTurn_stays follow _ _ stays (annotated found)
      exact .inl ⟨_, repeated_done read n⟩
    · refine .inr ⟨?_, enters passes⟩
      rw [repeated, endless]
      rfl

/-- **The look-ahead in front of a statement** takes no token, and ends unless it looks for a parenthesis in
vain. -/
theorem ensures_lead {depth : Nat} {free moved : Bool} {Q : Bool → Body.Lead → Prop} (rest : ∀ found, Q moved found) :
    Body.lead.Ensures (contract true depth) free moved Q := by
  refine .inr ⟨⟨rfl, quiet_lead.1, fun follow ahead => ?_⟩, fun s => rest s.2⟩
  rcases @leadTurns_end follow ahead 0 (ahead.length + 2) Body.Lead.annotated .start (by omega) _ with ⟨s, read⟩ | ⟨read, enters⟩
  · exact .inl ⟨s, read, trivial⟩
  · exact .inr ⟨read, enters.unclosed⟩

end

end JavaSource.Grammar
