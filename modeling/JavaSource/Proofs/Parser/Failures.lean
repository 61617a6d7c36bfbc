import JavaSource.Lexer.Basic
import JavaSource.Proofs.Parser.Unit
import JavaSource.Proofs.Rules.Bodies

/-!
# How parsing fails

Reading a compilation unit ends with a unit, with a syntax error, or at the end of the tokens where one is to be
taken or compared: there is always a marker to go back to, a pattern to accept and an operator to divide a chain
at. The end of the tokens is a failure of its own only before the type declarations. The one way not to end is to
look for the parenthesis behind the arguments of an annotation where there is none.
-/

namespace JavaSource

open Grammar Outcome List

namespace Parser

/-- What comes before the type declarations: the package declaration, with the annotations at its start, and the
imports. -/
def beforeTypes : ParseM (Tree × List Tree) := do
  let package ← packageDeclaration plainly
  let imports ← exec plainly importDeclarations
  return (package, imports)

/-- In front of the tokens, what is done leads behind some of them or fails as expected. -/
structure Fares {α : Type} (p : Parser) (ahead : List Token) (action : ParseM α) : Prop where
  value : ∀ a q, p.run action = (.ok a, q) → ∃ later, q.Facing later ∧ later <:+ ahead
  failure : ∀ failure q, p.run action = (.error failure, q) → Expected ahead failure

section

variable {α β : Type} {p q : Parser} {ahead later : List Token}

/-! ## Doing one thing after the other -/

variable {action : ParseM α} {failure : ParseFailure}

theorem Fares.of_run {action' : ParseM α} (fares : q.Fares later action') (suffix : later <:+ ahead)
    (run_eq : p.run action = q.run action') : p.Fares ahead action := by
  refine ⟨fun a r ran => ?_, fun failure r ran => ?_⟩
  · obtain ⟨last, facing, after⟩ := fares.value a r (run_eq.symm.trans ran)
    exact ⟨last, facing, after.trans suffix⟩
  · exact (fares.failure failure r (run_eq.symm.trans ran)).of_suffix suffix

theorem fares_of_error (failed : (p.run action).1 = .error failure)
    (expected : Expected ahead failure) : p.Fares ahead action := by
  refine ⟨fun a q ran => ?_, fun failure' q ran => ?_⟩
  · rw [ran] at failed
    cases failed
  · rw [ran] at failed
    cases failed
    exact expected

theorem fares_bind {f : α → ParseM β} (first : p.Fares ahead action)
    (second : ∀ a q later, Facing q later → q.Fares later (f a)) : p.Fares ahead (action >>= f) := by
  have run_eq := run_bind p action f
  rcases ran : p.run action with ⟨failure | a, q⟩
  · rw [ran] at run_eq
    exact fares_of_error (congrArg Prod.fst run_eq) (first.failure failure q ran)
  · rw [ran] at run_eq
    obtain ⟨later, facing, suffix⟩ := first.value a q ran
    exact (second a q later facing).of_run suffix run_eq

theorem fares_pure (facing : p.Facing ahead) (a : α) : p.Fares ahead (pure a) := by
  constructor
  · intro _ q ran
    cases ran
    exact ⟨ahead, facing, suffix_rfl⟩
  · intro _ q ran
    cases ran

theorem Does.fares {o : Outcome α} (does : p.Does action o) (within : o.Within ahead)
    (expected : ∀ failure, o.result = .error failure → Expected ahead failure) : p.Fares ahead action := by
  obtain ⟨result, moved⟩ := does
  refine ⟨fun a q ran => ⟨o.ahead, ?_, within.ahead⟩, fun failure q ran => expected failure ?_⟩
  · rw [ran] at moved
    exact moved.facing
  · rw [ran] at result
    exact result.symm

/-! ## Rules and routines -/

theorem lawful_reads (start : List Token) (limit depth : Nat) : Lawful Rule.reads start limit depth := by
  intro r moved ahead may suffix _ _
  have known : r ≠ .missingDeclarators := by
    rw [Rule.mayFollow, Bool.and_eq_true] at may
    exact bne_iff_ne.1 may.1
  exact (Rule.reads_meets known ahead).mono (fun _ expected => expected.of_suffix suffix) fun _ _ promise => promise

variable {routine : Routine α} {depth : Nat} {Q : Bool → α → Prop}

theorem read_meets
    (ensures : routine.Ensures (contract true depth) false false Q) (ahead : List Token) :
    (routine.read Rule.reads ahead).Meets (Expected ahead) ahead.length Q :=
  ensures.meets (fun r ahead => r.readWithin_within _ ahead) (lawful_reads ahead ahead.length depth) suffix_rfl
    (.initial _)

theorem fares_exec (orderly : routine.Orderly)
    (ensures : routine.Ensures (contract true depth) false false Q) (facing : p.Facing ahead) :
    p.Fares ahead (exec plainly routine) :=
  (exec_does orderly facing).fares (routine.reads_within ahead)
    (read_meets ensures ahead).failure

theorem fares_follow {r : Rule} (known : r ≠ .missingDeclarators) (facing : p.Facing ahead) :
    p.Fares ahead (follow plainly r) :=
  (follow_does r facing).fares (r.readWithin_within _ ahead) (Rule.reads_meets known ahead).failure

theorem fares_look (facing : p.Facing ahead) : p.Fares ahead (look 0) := by
  refine (does_look_zero facing).fares (.here _ ahead) fun _ failed => ?_
  cases failed

/-! ## Before the type declarations -/

theorem leadingAnnotations_ensures {terms : Terms} (may : terms.mayFollow .annotations false) :
    leadingAnnotations.Ensures terms false false fun _ _ => True := by
  refine ensures_bind (ensures_annotationAt ?_ ?_)
  · exact ensures_then (ensures_map (ensures_parse may fun _ _ => trivial))
  · exact ensures_else (ensures_pure trivial)

theorem importDeclarations_ensures {terms : Terms} (may : terms.mayFollow .importDeclaration false) :
    importDeclarations.Ensures terms false false fun _ _ => True := by
  refine ensures_whileTrue (P := fun _ => True) (looks_wouldAccept _ _) ?_ fun _ _ => trivial
  exact ensures_bind (ensures_peek fun _ => ensures_bind (ensures_parse may fun _ _ => ensures_pure ⟨rfl, trivial⟩))

theorem fares_packageNamed (annotations : Option (List Tree)) (first : Option Token) (facing : p.Facing ahead) :
    p.Fares ahead (packageNamed annotations first) := by
  refine fares_bind (fares_look facing) fun start q later facing => ?_
  refine fares_bind (fares_follow (by decide) facing) fun name q later facing => ?_
  have semicolon : (accept [";"]).Ensures (contract true 8) false false fun _ _ => True := ensures_accept fun _ => trivial
  refine fares_bind (fares_bind (fares_exec (orderly_accept _) semicolon facing) fun _ q later facing => ?_)
    fun _ q later facing => fares_pure facing _
  exact fares_pure facing _

/-- **The package declaration**: the marker that was set before the annotations is there to be given up or to go
back to. -/
theorem fares_package (facing : p.Facing ahead) : p.Fares ahead (packageDeclaration plainly) := by
  cases result : (leading ahead).result with
  | error failure =>
    exact fares_of_error (package_error facing result)
      ((read_meets (@leadingAnnotations_ensures (contract true 8) rfl) ahead).failure failure result)
  | ok annotations =>
    cases found : isWord (leading ahead).ahead[0]? "package" with
    | false =>
      have within := (Outcome.Within.here (.ok Tree.null) _).of_suffix (leading_within ahead).mark
      refine (does_package facing result found).fares within fun _ failed => ?_
      cases failed
    | true =>
      have suffix := (leading_within ahead).ahead
      cases left : (leading ahead).ahead with
      | nil =>
        rw [left] at found
        cases found
      | cons t later =>
        rw [left] at found suffix
        obtain ⟨q, behind, run_eq⟩ := run_package facing result left found
        exact (fares_packageNamed annotations _ behind).of_run ((suffix_cons t later).trans suffix) run_eq

/-! ## Type declarations -/

/-- A failure that reading type declarations may come to: they turn the end of the tokens into a syntax error. -/
def TypesExpected (tokens : List Token) (failure : ParseFailure) : Prop :=
  Expected tokens failure ∧ failure ≠ .endOfInput

theorem typesExpected_typeFailure (expected : Expected ahead failure)
    (found : Option Token) : TypesExpected ahead (typeFailure found failure) := by
  cases expected with
  | illegal description found => exact ⟨.illegal description found, ParseFailure.noConfusion⟩
  | endOfInput => exact ⟨.illegal _ found, ParseFailure.noConfusion⟩
  | endInText => exact ⟨.endInText, ParseFailure.noConfusion⟩
  | endless unclosed => exact ⟨.endless unclosed, ParseFailure.noConfusion⟩

theorem readType_within (ahead : List Token) : (readType ahead).Within ahead := by
  obtain ⟨left, handed, order⟩ := Rule.typeDeclaration.readWithin_within (nestingOf ahead.length) ahead
  exact ⟨left, handed, order⟩

theorem readType_meets (ahead : List Token) :
    (readType ahead).Meets (TypesExpected ahead) ahead.length fun moved _ => moved = true := by
  have meets := Rule.reads_meets (r := .typeDeclaration) (by decide) ahead
  refine ⟨fun declaration ok => ?_, fun failure failed => ?_⟩
  · cases result : (Rule.typeDeclaration.reads ahead).result with
    | error failure =>
      simp only [readType, result, Except.mapError] at ok
      cases ok
    | ok read =>
      obtain ⟨moved, promise, shorter⟩ := meets.value read result
      exact ⟨true, rfl, fun _ => shorter (promise.2 rfl)⟩
  · cases result : (Rule.typeDeclaration.reads ahead).result with
    | ok read =>
      simp only [readType, result, Except.mapError] at failed
      cases failed
    | error failure =>
      simp only [readType, result, Except.mapError] at failed
      cases failed
      exact typesExpected_typeFailure (meets.failure failure result) _

theorem typeStep_within (types : List Tree) (ahead : List Token) : (typeStep types ahead).Within ahead := by
  unfold typeStep
  split
  · exact .here _ ahead
  · refine (readType_within ahead).andThen fun found => ?_
    cases found <;> exact .here _ _

/-- Each type declaration takes a token, so the declarations come to an end. -/
theorem typeStep_meets (types : List Tree) (ahead : List Token) :
    (typeStep types ahead).Meets (TypesExpected ahead) ahead.length fun turned x => x.2 = true → turned = true := by
  unfold typeStep
  split
  · exact meets_ok (absurd · Bool.false_ne_true) fun took : false = true => absurd took Bool.false_ne_true
  · refine (readType_meets ahead).andThen fun found moved took shorter => ?_
    cases found <;> exact meets_ok (fun _ => took) shorter

theorem readTypes_failure (failed : (readTypes ahead).result = .error failure) : TypesExpected ahead failure := by
  have turns : (repeated typeStep (ahead.length + 2) [] ahead).Meets (TypesExpected ahead) ahead.length
      fun _ _ => True := by
    refine repeated_meets (fun _ => True) typeStep_within (fun types later _ suffix => ?_) (Nat.le_refl _)
      (fun took : false = true => absurd took Bool.false_ne_true) _ _ _ trivial suffix_rfl (by omega)
    exact (typeStep_meets types later).mono (fun _ expected => ⟨expected.1.of_suffix suffix, expected.2⟩)
      fun _ _ took => ⟨fun more => ⟨took more, trivial⟩, fun _ => trivial⟩
  cases result : (repeated typeStep (ahead.length + 2) [] ahead).result with
  | ok types =>
    rw [readTypes, andThen_ok result] at failed
    cases failed
  | error failure' =>
    rw [readTypes, andThen_error result] at failed
    cases failed
    exact turns.failure failure result

end

/-! ## Compilation units -/

theorem compilationUnit_eq : compilationUnit plainly = beforeTypes >>= fun (package, imports) => do
    let types ← typeDeclarations plainly
    return .make .compilationUnit [(.package, package), (.imports, .list imports), (.types, .list types)] := by
  simp only [compilationUnit, beforeTypes, plainly, bind_assoc, pure_bind]

theorem fares_beforeTypes {p : Parser} {ahead : List Token} (facing : p.Facing ahead) :
    p.Fares ahead beforeTypes := by
  refine fares_bind (fares_package facing) fun package q later facing => ?_
  refine fares_bind (fares_exec orderly_importDeclarations (@importDeclarations_ensures (contract true 8) rfl) facing) ?_
  exact fun imports q later facing => fares_pure facing _

/-- Either what comes before the type declarations fails, and the compilation unit with it, or the compilation
unit can only fail in a type declaration. -/
theorem unitOf_cases (tokens : List Token) :
    (∃ failure, ((ofTokens tokens).run beforeTypes).1 = .error failure ∧ unitOf tokens = .error failure ∧
      Expected tokens failure) ∨ (∃ read, ((ofTokens tokens).run beforeTypes).1 = .ok read) ∧
      ∀ failure, unitOf tokens = .error failure → TypesExpected tokens failure := by
  have fares := fares_beforeTypes (facing_ofTokens tokens)
  rw [unitOf, compilationUnit_eq]
  rcases ran : (ofTokens tokens).run beforeTypes with ⟨failure | read, q⟩
  · refine .inl ⟨failure, rfl, run_bind_error (congrArg Prod.fst ran) _, fares.failure failure q ran⟩
  · refine .inr ⟨⟨read, rfl⟩, fun failure failed => ?_⟩
    obtain ⟨later, facing, suffix⟩ := fares.value read q ran
    have does := does_readTypes facing
    rw [run_bind, ran] at failed
    dsimp only at failed
    cases result : (readTypes later).result with
    | error failure' =>
      cases (run_bind_error (does.result.trans result) _).symm.trans failed
      obtain ⟨expected, other⟩ := readTypes_failure result
      exact ⟨expected.of_suffix suffix, other⟩
    | ok types =>
      obtain ⟨r, moved, run_eq⟩ := does.run_bind_ok result _
      rw [run_eq] at failed
      cases failed

/-- **Failures.** A compilation unit is read, or fails as expected: with a syntax error, or at the end of the
tokens where one is to be taken or compared; the tokens end where one is to be taken only before the type
declarations. So there is always a marker to go back to, an operator to divide a chain at, a method to call. The
reading does not end only where it looks for a parenthesis in vain. Each rule that is followed gives what has
the shape on which those that follow it rely, or fails as expected. -/
theorem failures_expected : (∀ tokens failure, unitOf tokens = .error failure → Expected tokens failure) ∧
    (∀ tokens, unitOf tokens = .error .endOfInput ↔
      ((ofTokens tokens).run beforeTypes).1 = .error .endOfInput) ∧
    ∀ r, r ≠ Rule.missingDeclarators → ∀ (p : Parser) ahead, p.Facing ahead →
      (∀ x, (p.run (follow plainly r)).1 = .ok x → r.Shaped x) ∧
      ∀ failure, (p.run (follow plainly r)).1 = .error failure → Expected ahead failure := by
  refine ⟨fun tokens failure failed => ?_, fun tokens => ⟨fun failed => ?_, fun failed => ?_⟩, ?_⟩
  · rcases unitOf_cases tokens with ⟨failure', -, fails, expected⟩ | ⟨-, expected⟩
    · cases fails.symm.trans failed
      exact expected
    · exact (expected failure failed).1
  · rcases unitOf_cases tokens with ⟨failure, before, fails, -⟩ | ⟨-, expected⟩
    · cases fails.symm.trans failed
      exact before
    · exact absurd rfl (expected _ failed).2
  · rcases unitOf_cases tokens with ⟨failure, before, fails, -⟩ | ⟨⟨read, ok⟩, -⟩
    · cases before.symm.trans failed
      exact fails
    · cases ok.symm.trans failed
  · intro r known p ahead facing
    have meets := Rule.reads_meets known ahead
    rw [(follow_does r facing).result]
    refine ⟨fun x ok => ?_, meets.failure⟩
    obtain ⟨moved, promise, -⟩ := meets.value x ok
    exact promise.1

def openPackage : List Token := (tokenize .strict (.text "@A package a.b")).tokens

theorem failures_expected_package : unitOf openPackage = .error .endOfInput ∧ Expected openPackage .endOfInput ∧
      ((ofTokens openPackage).run beforeTypes).1 = .error .endOfInput := by
  have failed : unitOf openPackage = .error .endOfInput := by
    have fails : (unitOf openPackage).map (fun _ => ()) = .error .endOfInput := by decide +kernel
    cases result : unitOf openPackage with
    | ok unit =>
      rw [result] at fails
      cases fails
    | error failure =>
      rw [result] at fails
      cases fails
      rfl
  exact ⟨failed, failures_expected.1 openPackage _ failed, (failures_expected.2.1 openPackage).1 failed⟩

end Parser

end JavaSource
