import JavaSource.Proofs.Header.Declarations
import JavaSource.Proofs.Parser.Failures
import JavaSource.Proofs.Truncation.Operands

/-!
# Truncated compilation units

Where the tokens of a compilation unit end too early, that is a syntax error in the type declarations and a failure of
another kind before them: `HeaderCut` says where. The end of the tokens also shows where a selector may follow an
operand, and in a search for a closing parenthesis. `unitOf_truncated` puts these together.
-/

namespace JavaSource.Parser

open Grammar Outcome

/-- The tokens end before the type declarations: in the annotations at the start, in the package declaration, or in
an import. Without a package declaration the imports are looked for from the marker on that the annotations leave. -/
inductive HeaderCut (tokens : List Token) : Prop where
  | annotations : (leading tokens).result = .error .endOfInput → HeaderCut tokens
  | package {annotations : Option (List Tree)} {t : Token} {later : List Token} :
    (leading tokens).result = .ok annotations → (leading tokens).ahead = t :: later →
    isWord (some t) "package" = true → PackageCut later → HeaderCut tokens
  | importsOfPackage {annotations : Option (List Tree)} {t : Token} {later rest : List Token} {names : List Text} :
    (leading tokens).result = .ok annotations → (leading tokens).ahead = t :: later →
    isWord (some t) "package" = true → PackageName later names rest → ImportsCut rest → HeaderCut tokens
  | imports {annotations : Option (List Tree)} : (leading tokens).result = .ok annotations →
    isWord (leading tokens).ahead[0]? "package" = false → ImportsCut ((leading tokens).mark tokens) → HeaderCut tokens

section

variable {ahead tokens : List Token} {failure : ParseFailure}

/-! ## Where a token is missing -/

theorem readUnit_error {package : Tree} :
    (readUnit package ahead).result = .error failure ↔ (readRest ahead).result = .error failure :=
  andThen_error_iff_left fun _ _ failed => by cases failed

theorem readRest_error : (readRest ahead).result = .error failure ↔
    (importDeclarations.read Rule.reads ahead).result = .error failure ∨
      ∃ imports rest, Imports ahead imports rest ∧ (readTypes rest).result = .error failure := by
  rw [readRest, andThen_error_iff]
  refine or_congr_right (exists_congr fun imports => exists_congr fun rest => and_congr importDeclarations_gives ?_)
  exact andThen_error_iff_left fun _ _ failed => by cases failed

/-- The type declarations turn the end of the tokens into a syntax error. -/
theorem readRest_ends : (readRest ahead).result = .error .endOfInput ↔ ImportsCut ahead := by
  rw [readRest_error, importDeclarations_ends]
  refine ⟨fun ends => ends.resolve_right ?_, .inl⟩
  rintro ⟨imports, rest, -, failed⟩
  exact (readTypes_failure failed).2 rfl

/-- Where the tokens are missing, they are missing before the type declarations. -/
theorem unitOf_ends : unitOf tokens = .error .endOfInput ↔ HeaderCut tokens := by
  cases result : (leading tokens).result with
  | error failure =>
    rw [unitOf_eq_error result]
    constructor
    · intro failed
      cases failed
      exact .annotations result
    · intro cut
      cases cut with
      | annotations failed => cases result.symm.trans failed; rfl
      | package ok => cases result.symm.trans ok
      | importsOfPackage ok => cases result.symm.trans ok
      | imports ok => cases result.symm.trans ok
  | ok annotations =>
    cases found : isWord (leading tokens).ahead[0]? "package" with
    | false =>
      rw [unitOf_eq_readUnit result found, readUnit_error, readRest_ends]
      refine ⟨.imports result found, fun cut => ?_⟩
      cases cut with
      | annotations failed => cases result.symm.trans failed
      | package _ left word =>
        rw [left] at found
        cases found.symm.trans word
      | importsOfPackage _ left word =>
        rw [left] at found
        cases found.symm.trans word
      | imports _ _ cut => exact cut
    | true =>
      cases left : (leading tokens).ahead with
      | nil =>
        rw [left] at found
        cases found
      | cons t later =>
        rw [left] at found
        rw [unitOf_eq_package result left found, andThen_error_iff, readPackage_ends]
        simp only [readPackage_gives, readUnit_error, readRest_ends]
        constructor
        · rintro (cut | ⟨package, rest, ⟨names, -, named⟩, cut⟩)
          · exact .package result left found cut
          · exact .importsOfPackage result left found named cut
        · intro cut
          cases cut with
          | annotations failed => cases result.symm.trans failed
          | package _ left' _ cut =>
            cases left.symm.trans left'
            exact .inl cut
          | importsOfPackage _ left' _ named cut =>
            cases left.symm.trans left'
            exact .inr ⟨_, _, ⟨_, rfl, named⟩, cut⟩
          | imports _ other =>
            rw [left] at other
            cases found.symm.trans other

/-! ## Where an operand ends -/

theorem reads_inText (r : Rule) : (Grammar.parse r).InText Rule.reads := by
  intro ahead failed
  rw [read_parse] at failed
  refine Rule.endInText_of_readWithin (nestingOf ahead.length) r ahead ?_
  rwa [read_parse]

theorem inText_reads {α : Type} {routine : Routine α} (orderly : routine.OrderlyIn false) :
    routine.InText Rule.reads :=
  inText_of_orderly (fun r ahead => r.readWithin_within _ ahead) reads_inText orderly

theorem readTypes_inText (failed : (readTypes ahead).result = .error .endInText) : EndsOperand ahead := by
  have turns := (andThen_error_iff_left fun _ _ failed => by cases failed).1 failed
  refine inText_repeated (I := fun _ => True) typeStep_within (fun types later suffix _ failed => ?_)
    (fun _ _ _ _ _ _ _ => trivial) List.suffix_rfl trivial turns
  unfold typeStep at failed
  split at failed
  · cases failed
  · have typed : (readType later).result = .error .endInText := by
      refine (andThen_error_iff_left fun found _ failed => ?_).1 failed
      cases found <;> cases failed
    refine (reads_inText .typeDeclaration later ?_).of_suffix suffix
    rw [read_parse]
    cases result : (Rule.typeDeclaration.reads later).result with
    | ok declaration =>
      simp only [readType, result, Except.mapError] at typed
      cases typed
    | error failure =>
      simp only [readType, result, Except.mapError] at typed
      cases failure <;> cases typed
      rfl

theorem readRest_inText (failed : (readRest ahead).result = .error .endInText) : EndsOperand ahead := by
  rcases readRest_error.1 failed with failed | ⟨imports, rest, read, failed⟩
  · exact inText_reads orderly_importDeclarations ahead failed
  · have suffix := (importDeclarations.reads_within ahead).ahead
    rw [(importDeclarations_gives.2 read).ahead] at suffix
    exact (readTypes_inText failed).of_suffix suffix

theorem readPackage_inText {annotations : Option (List Tree)} {first : Option Token}
    (failed : (readPackage annotations first ahead).result = .error .endInText) : EndsOperand ahead := by
  refine inText_andThen (Rule.readWithin_within _ .qualifiedIdentifier ahead) (fun failed => ?_)
    (fun name _ failed => ?_) failed
  · exact reads_inText .qualifiedIdentifier ahead (by rwa [read_parse])
  · exact inText_reads (orderly_accept _) _ ((andThen_error_iff_left fun _ _ failed => by cases failed).1 failed)

/-- **The end of an operand.** Where the end of the tokens is compared, the last token may end an operand. -/
theorem unitOf_inText (failed : unitOf tokens = .error .endInText) : EndsOperand tokens := by
  have within := leading_within tokens
  cases result : (leading tokens).result with
  | error failure =>
    cases (unitOf_eq_error result).symm.trans failed
    exact inText_reads orderly_leadingAnnotations tokens result
  | ok annotations =>
    cases found : isWord (leading tokens).ahead[0]? "package" with
    | false =>
      rw [unitOf_eq_readUnit result found, readUnit_error] at failed
      exact (readRest_inText failed).of_suffix within.mark
    | true =>
      cases left : (leading tokens).ahead with
      | nil =>
        rw [left] at found
        cases found
      | cons t later =>
        rw [left] at found
        have suffix : later <:+ tokens := (List.suffix_cons t later).trans (left ▸ within.ahead)
        rw [unitOf_eq_package result left found, andThen_error_iff] at failed
        rcases failed with failed | ⟨package, rest, gives, failed⟩
        · exact (readPackage_inText failed).of_suffix suffix
        · have behind := (readPackage_within annotations tokens[0]? later).ahead
          rw [gives.ahead] at behind
          exact (readRest_inText (readUnit_error.1 failed)).of_suffix (behind.trans suffix)

end

/-! ## Truncation -/

/-- **Truncated programs.** For every list of tokens, in particular for what is left of a program that is cut off: the
compilation unit is read, or there is a syntax error, or the tokens end where they have to be compared, which is behind
what may be an operand, or a closing parenthesis is looked for in vain. A token is missing, and that is no syntax error,
exactly if the tokens end before the type declarations. -/
theorem unitOf_truncated (tokens : List Token) : (unitOf tokens = .error .endOfInput ↔ HeaderCut tokens) ∧
    ∀ failure, unitOf tokens = .error failure →
      (∃ description found, failure = .illegal description found) ∨ (failure = .endOfInput ∧ HeaderCut tokens) ∨
        (failure = .endInText ∧ EndsOperand tokens) ∨ (failure = .endless ∧ Unclosed tokens) := by
  refine ⟨unitOf_ends, fun failure failed => ?_⟩
  have expected : Expected tokens failure := by
    rcases unitOf_cases tokens with ⟨failure', -, fails, expected⟩ | ⟨-, expected⟩
    · cases fails.symm.trans failed
      exact expected
    · exact (expected failure failed).1
  cases expected with
  | illegal description found => exact .inl ⟨description, found, rfl⟩
  | endOfInput => exact .inr (.inl ⟨rfl, unitOf_ends.1 failed⟩)
  | endInText => exact .inr (.inr (.inl ⟨rfl, unitOf_inText failed⟩))
  | endless unclosed => exact .inr (.inr (.inr ⟨rfl, unclosed⟩))

/-- How the first tokens of a text are read as a compilation unit, up to the tree. -/
def outcomeOf (text : String) (count : Nat) : Except ParseFailure Unit :=
  (unitOf ((tokenize .strict (.text text)).tokens.take count)).map fun _ => ()

/-- Two programs that are read, and that cannot be read without their last tokens, though this is no syntax error:
an import without its semicolon, and an initializer without what follows it. -/
theorem unitOf_without_semicolon : (outcomeOf "import a;" 3 = .ok () ∧ outcomeOf "import a;" 2 = .error .endOfInput) ∧
    outcomeOf "class A \x7b int x = y; \x7d" 9 = .ok () ∧
      outcomeOf "class A \x7b int x = y; \x7d" 7 = .error .endInText := by
  decide +kernel

end JavaSource.Parser
