import JavaSource.Proofs.Lexer.Genuine
import JavaSource.Proofs.Parser.Modifiers
import JavaSource.Proofs.Parser.Unit

/-!
# Going back after annotations

A compilation unit may start with annotations, and only what follows them tells whether they belong to a
package. Where no package follows, the parser goes back and reads the type declarations. It goes back to the
first token unless an attempt inside of the annotations succeeded, and then the unit cannot be read:
`sameTypes_semicolon_iff`.
-/

namespace JavaSource

open Grammar Routine Outcome Body Text List
open Rule (readWithin)

section Words

variable {found : Option Token} {v w : String} {c : TokenClass}

theorem Token.Genuine.isOf_word (genuine : ∀ t ∈ found, t.Genuine)
    (fixed : Vocabulary.fixedClass? (ofString w) = some c) (is : isWord found w = true) : classOf found = c := by
  cases found with
  | none => cases is
  | some t => exact genuine t rfl c ((isWord_some.1 is).symm ▸ fixed)

/-- What is of another class is not this word. -/
theorem Token.Genuine.not_word (genuine : ∀ t ∈ found, t.Genuine) (isC : isOf found c = true)
    (other : (Vocabulary.fixedClass? (ofString w)).any fun d => !d.isA c) : isWord found w = false := by
  obtain ⟨d, fixed, apart⟩ := (Option.any_eq_true _ _).1 other
  rw [Bool.eq_false_iff]
  intro is
  rw [isOf, isOf_word genuine fixed is] at isC
  rw [isC] at apart
  cases apart

end Words

namespace Parser

/-- There is something here, but neither an import nor a type declaration. -/
structure NoType (ahead : List Token) : Prop where
  nonempty : ahead ≠ []
  noImport : isWord ahead[0]? "import" = false
  fails : ∀ n, (Rule.typeDeclaration.readWithin n ahead).Fails

/-- No type declaration goes on with this token. -/
structure Unfit (found : Option Token) : Prop where
  isClass : isWord found "class" = false
  isEnum : isWord found "enum" = false
  isInterface : isWord found "interface" = false
  isAnnotation : isOf found .atSign = false

variable {ahead tokens : List Token} {n : Nat} {tree : Tree} {α : Type} {semicolon : Token}

/-- A declaration fails if nothing fits behind its modifiers. -/
theorem declaration_fails (unfit : (Rule.modifiers.readWithin n ahead).Fails ∨
      Unfit (Rule.modifiers.readWithin n ahead).ahead[0]?) :
    (Rule.classOrInterfaceDeclaration.readWithin (n + 1) ahead).Fails := by
  simp only [readWithin, Rule.body, classOrInterfaceDeclaration, read_monad_bind]
  rw [read_parse]
  rcases unfit with fails | ⟨isClass, isEnum, isInterface, isAnnotation⟩
  · exact fails.andThen _
  · refine andThen_fails fun found ok => ?_
    simp only [read_monad_bind, read_peek, read_annotationDeclarationAt, andThen_pure,
      isClass, isEnum, isInterface, isAnnotation, Bool.false_and, Bool.false_eq_true, if_false,
      read_illegal]
    exact ⟨_, rfl⟩

/-- Nothing can be declared in front of a token that is no semicolon, if nothing fits behind the modifiers. -/
theorem typeDeclaration_fails (other : isWord ahead[0]? ";" = false) (n : Nat)
    (unfit : ∀ m, n = m + 2 → (Rule.modifiers.readWithin m ahead).Fails ∨
      Unfit (Rule.modifiers.readWithin m ahead).ahead[0]?) : (Rule.typeDeclaration.readWithin n ahead).Fails := by
  have notEmpty : Pattern.fits ahead[0]? (.word ";") = false := other
  cases n with
  | zero => exact ⟨_, rfl⟩
  | succ n =>
    simp only [readWithin, Rule.body, typeDeclaration, read_bind_ok (read_tryAccept_unfit notEmpty), Bool.false_eq_true, if_false, read_map]
    rw [read_parse]
    cases n with
    | zero => exact Outcome.Fails.andThen ⟨_, rfl⟩ _
    | succ n => exact (declaration_fails (unfit n rfl)).andThen _

/-! ## Where attempts succeed -/

/-- What starts a type, and so a variable: the name of a type. -/
def StartsType (found : Option Token) : Prop :=
  isOf found .basicType = true ∨ isOf found .identifier = true

theorem StartsType.unfit {found : Option Token} (starts : StartsType found)
    (genuine : ∀ t ∈ found, t.Genuine) : Unfit found := by
  rcases starts with isType | isType
  all_goals
    exact ⟨Token.Genuine.not_word genuine isType (by decide),
      Token.Genuine.not_word genuine isType (by decide),
      Token.Genuine.not_word genuine isType (by decide), isOf_apart isType (by decide)⟩

theorem genuine_head (genuine : ∀ t ∈ ahead, t.Genuine) : ∀ t ∈ ahead[0]?, t.Genuine :=
  fun t mem => genuine t (mem_of_getElem? mem)

/-- Nothing is declared at an opening parenthesis. -/
theorem noType_of_parenthesis (genuine : ∀ t ∈ ahead, t.Genuine)
    (opens : isWord ahead[0]? "(" = true) : NoType ahead := by
  have cls := Token.Genuine.isOf_word (genuine_head genuine)
    (show Vocabulary.fixedClass? (ofString "(") = some .separator by decide) opens
  have isOf_false {d : TokenClass} (other : TokenClass.separator.isA d = false) :
      isOf ahead[0]? d = false := by rw [isOf, cls, other]
  have notStarting : annotated ahead = false := by
    rw [annotated, isOf_false (by decide), Bool.false_and]
  refine ⟨?_, isWord_ne opens (by decide),
    fun _ => typeDeclaration_fails (isWord_ne opens (by decide)) _ fun n _ => ?_⟩
  · rintro rfl
    cases opens
  · cases n with
    | zero => exact .inl ⟨_, rfl⟩
    | succ n =>
      have stopped : (Rule.modifiers.readWithin (n + 1) ahead).ahead = ahead := by
        have not_taken : anyModifier.read (readWithin n) ahead =
            .ok none ahead := read_anyModifier_none (isOf_false (by decide))
        simp only [readWithin, Rule.body]
        rw [read_modifiers, readModifiers_ended not_taken notStarting, andThen_pure]
      rw [stopped]
      exact .inr ⟨isWord_ne opens (by decide), isWord_ne opens (by decide),
        isWord_ne opens (by decide), isOf_false (by decide)⟩

theorem startsType_of_type (ok : (Rule.type.readWithin n ahead).result = .ok tree) : StartsType ahead[0]? := by
  cases n with
  | zero => cases ok
  | succ n =>
    simp only [readWithin, Rule.body, type, read_monad_bind, read_peek,
      andThen_pure] at ok
    cases basic : isOf ahead[0]? .basicType with
    | true => exact .inl basic
    | false =>
      cases named : isOf ahead[0]? .identifier with
      | true => exact .inr named
      | false =>
        simp only [basic, named, Bool.false_eq_true, if_false, read_monad_bind,
          read_illegal] at ok
        cases ok

variable {follow : Reader}

/-- The modifiers of a variable start with one of these, or there are none. -/
theorem variableModifiers_head (acc : VariableModifiers) (ahead : List Token) :
    isWord ahead[0]? "final" = true ∨ isOf ahead[0]? .atSign = true ∨
      (readModifiers finalModifier follow (n + 1) acc ahead).ahead = ahead := by
  cases isFinal : isWord ahead[0]? "final" with
  | true => exact .inl rfl
  | false =>
    cases starts : annotated ahead with
    | true => exact .inr (.inl (Bool.and_eq_true_iff.1 starts).1)
    | false =>
      rw [readModifiers_ended (read_finalModifier_none isFinal) starts]
      exact .inr (.inr rfl)

theorem sameAnnotations (n m : Nat) : SameAnnotations (readWithin n) (readWithin m) := by
  intro ahead
  rcases Nat.le_total n m with le | le
  · rcases Rule.readWithin_upTo le .annotationUse ahead with endless | same
    · exact .inl ⟨_, endless⟩
    · exact .inr (.inr (by rw [same]))
  · rcases Rule.readWithin_upTo le .annotationUse ahead with endless | same
    · exact .inr (.inl ⟨_, endless⟩)
    · exact .inr (.inr (by rw [same]))

variable {found : VariableModifiers}

/-- Behind the modifiers of a variable there is its type, so no other declaration has just these modifiers. -/
theorem modifiers_unfit_of_variable (genuine : ∀ t ∈ ahead, t.Genuine)
    (ok : (Rule.variableModifiers.readWithin n ahead).result = .ok found)
    (starts : StartsType (Rule.variableModifiers.readWithin n ahead).ahead[0]?) (m : Nat) :
    (Rule.modifiers.readWithin m ahead).Fails ∨
      Unfit (Rule.modifiers.readWithin m ahead).ahead[0]? := by
  rcases n with _ | n
  · cases ok
  rcases m with _ | m
  · exact .inl ⟨_, rfl⟩
  have suffix := (Rule.readWithin_within (n + 1) .variableModifiers ahead).ahead
  have unfit := starts.unfit (genuine_head fun t mem => genuine t (suffix.subset mem))
  have read_eq : Rule.variableModifiers.readWithin (n + 1) ahead =
      readModifiers finalModifier (readWithin n) (ahead.length + 2) ⟨[], []⟩ ahead :=
    read_modifiersBy finalModifier ahead
  have read_eq' : Rule.modifiers.readWithin (m + 1) ahead = _ := read_modifiers ahead
  rw [read_eq] at ok starts unfit
  rw [read_eq']
  have finals (t : Token) (mem : t ∈ ahead) (isFinal : isWord (some t) "final" = true) :
      isOf (some t) .modifier = true := by
    have cls := genuine t mem .modifier (isWord_some.1 isFinal ▸ by decide)
    rw [isOf, classOf, Option.map_some, Option.getD_some, cls]
    decide
  have stop : isOf (readModifiers finalModifier (readWithin n) (ahead.length + 2)
      ⟨[], []⟩ ahead).ahead[0]? .modifier = false := by
    rcases starts with is | is <;> exact isOf_apart is (by decide)
  rcases modifiers_along_variable (sameAnnotations m n)
    (fun ahead => (Rule.readWithin_within n .annotationUse ahead).ahead) finals ok stop ⟨[], []⟩ with
    fails | same
  · exact .inl (fails.andThen _)
  · cases result : (readModifiers anyModifier (readWithin m) (ahead.length + 2)
        ⟨[], []⟩ ahead).result with
    | error failure => exact .inl (Outcome.Fails.andThen ⟨failure, result⟩ _)
    | ok found =>
      rw [andThen_ok result, same]
      exact .inr unfit

/-- Nothing but a variable is declared where a variable is. -/
theorem noType_of_variable {k : Nat} (genuine : ∀ t ∈ ahead, t.Genuine)
    (ok : (Rule.variableModifiers.readWithin n ahead).result = .ok found)
    (type_ok : (Rule.type.readWithin k (Rule.variableModifiers.readWithin n ahead).ahead).result =
      .ok tree) : NoType ahead := by
  have starts := startsType_of_type type_ok
  have head : isWord ahead[0]? "final" = true ∨ isOf ahead[0]? .atSign = true ∨
      StartsType ahead[0]? := by
    rcases n with _ | n
    · cases ok
    · have read_eq : Rule.variableModifiers.readWithin (n + 1) ahead = _ :=
        read_modifiersBy finalModifier ahead
      rcases variableModifiers_head ⟨[], []⟩ ahead with isFinal | isAnnotation | none_read
      · exact .inl isFinal
      · exact .inr (.inl isAnnotation)
      · rw [read_eq, none_read] at starts
        exact .inr (.inr starts)
  refine ⟨?_, ?_, fun m => typeDeclaration_fails ?_ m fun m _ =>
    modifiers_unfit_of_variable genuine ok starts m⟩
  · rintro rfl
    rcases head with is | is | is | is <;> cases is
  all_goals
    rcases head with isFinal | is | is | is
    · exact isWord_ne isFinal (by decide)
    all_goals exact Token.Genuine.not_word (genuine_head genuine) is (by decide)

theorem opens_of_discard
    {value : PUnit} (ok : ((discard (accept ["("])).read follow ahead).result = .ok value) :
    isWord ahead[0]? "(" = true := by
  rw [read_discard] at ok
  obtain ⟨taken, ok, -⟩ := ok_of_andThen ok
  exact fits_of_accept ok

theorem opens_of_lambda (ok : (Rule.lambdaExpression.readWithin n ahead).result = .ok tree) :
    isWord ahead[0]? "(" = true := by
  rcases n with _ | n
  · cases ok
  obtain ⟨inferred, -, ok⟩ := ok_of_bind ok
  rw [read_wouldAccept (cons_ne_nil _ _)] at ok
  cases inferred with
  | true =>
    obtain ⟨_, ok, -⟩ := ok_of_bind ok
    exact opens_of_discard ok
  | false =>
    obtain ⟨_, ok, -⟩ := ok_of_bind ok
    rw [read_parse] at ok
    rcases n with _ | n
    · cases ok
    · obtain ⟨_, ok, -⟩ := ok_of_bind ok
      exact opens_of_discard ok

variable {a : α}

theorem noType_of_declared {rest : VariableModifiers → Tree → Routine α} (genuine : ∀ t ∈ ahead, t.Genuine)
    (ok : ((do
      let found ← Grammar.parse .variableModifiers
      let type ← Grammar.parse .type
      rest found type).read (readWithin n) ahead).result = .ok a) : NoType ahead := by
  obtain ⟨found, ok, later⟩ := ok_of_bind ok
  obtain ⟨type, type_ok, -⟩ := ok_of_bind later
  rw [read_parse] at ok type_ok
  rw [read_parse] at type_ok
  exact noType_of_variable genuine ok type_ok

/-- Where an attempt succeeds, there is no type declaration. -/
theorem noType_of_tried {body : Routine α} (tried : Tried body) (genuine : ∀ t ∈ ahead, t.Genuine)
    (ok : (body.read (readWithin n) ahead).result = .ok a) : NoType ahead := by
  cases tried with
  | lambda =>
    rw [read_parse] at ok
    exact noType_of_parenthesis genuine (opens_of_lambda ok)
  | cast =>
    obtain ⟨_, ok, -⟩ := ok_of_bind ok
    exact noType_of_parenthesis genuine (opens_of_discard ok)
  | localVariable start =>
    obtain ⟨_, ok, -⟩ := ok_of_bind ok
    rw [read_parse] at ok
    rcases n with _ | n
    · cases ok
    · exact noType_of_declared genuine ok
  | control =>
    rw [read_parse] at ok
    rcases n with _ | n
    · cases ok
    · exact noType_of_declared genuine ok

/-! ## Where markers are handed down -/

/-- A marker that is handed down leads to no type declaration. -/
def HandsNoType {α : Type} (o : Outcome α) : Prop := ∀ mark ∈ o.handed, NoType mark

theorem HandsNoType.andThen {β : Type} {o : Outcome α} {f : α → List Token → Outcome β}
    (first : HandsNoType o) (then_ : ∀ a, HandsNoType (f a o.ahead)) : HandsNoType (o.andThen f) := by
  intro mark mem
  cases result : o.result with
  | error failure =>
    rw [andThen_error result] at mem
    exact first mark mem
  | ok a =>
    rw [andThen_ok result] at mem
    rcases Option.or_eq_some_iff.1 mem with mem | ⟨-, mem⟩
    · exact then_ a mark mem
    · exact first mark mem

theorem handsNoType_here (result : Except ParseFailure α) (ahead : List Token) :
    HandsNoType { result, ahead } := fun _ mem => nomatch mem

theorem repeated_handsNoType {σ : Type} {step : σ → List Token → Outcome (σ × Bool)}
    (within : ∀ s ahead, (step s ahead).Within ahead)
    (step_hands : ∀ s ahead, (∀ t ∈ ahead, Token.Genuine t) → HandsNoType (step s ahead)) (n : Nat)
    (s : σ) (genuine : ∀ t ∈ ahead, t.Genuine) : HandsNoType (repeated step n s ahead) := by
  induction n generalizing s ahead with
  | zero => exact handsNoType_here _ _
  | succ n ih =>
    refine (step_hands s ahead genuine).andThen fun (s', more) => ?_
    cases more with
    | true => exact ih s' fun t mem => genuine t ((within s ahead).ahead.subset mem)
    | false => exact handsNoType_here _ _

theorem read_handsNoType
    (follow_hands : ∀ r ahead, (∀ t ∈ ahead, Token.Genuine t) → HandsNoType (readWithin n r ahead))
    {routine : Routine α} (orderly : routine.Orderly)
    (genuine : ∀ t ∈ ahead, t.Genuine) : HandsNoType (routine.read (readWithin n) ahead) := by
  have within := Rule.readWithin_within n
  induction routine generalizing ahead with
  | pure a => exact handsNoType_here _ _
  | fail failure => exact handsNoType_here _ _
  | next k ih =>
    cases ahead with
    | nil => exact handsNoType_here _ _
    | cons t ahead => exact ih t (orderly t) fun t mem => genuine t (mem_cons_of_mem _ mem)
  | look i k ih => exact ih _ (orderly.2 _) genuine
  | call r k ih =>
    refine (follow_hands r ahead genuine).andThen fun x => ih x (orderly x) fun t mem => ?_
    exact genuine t ((within r ahead).ahead.subset mem)
  | attempt body k otherwise ihBody ihRest ihOtherwise =>
    obtain ⟨tried, body_orderly, rest_orderly, otherwise_orderly⟩ := orderly
    have body_within := body.read_within within ahead
    simp only [Routine.read]
    split
    next x ok =>
      refine HandsNoType.andThen (fun mark mem => ?_) fun x => ihRest x (rest_orderly x) fun t mem =>
        genuine t (body_within.ahead.subset mem)
      cases mem
      cases handed : (body.read (readWithin n) ahead).handed with
      | none =>
        rw [mark, handed]
        exact noType_of_tried tried genuine ok
      | some mark =>
        rw [Outcome.mark, handed]
        exact ihBody body_orderly genuine mark handed
    next failure _ =>
      split
      · exact ihOtherwise otherwise_orderly fun t mem => genuine t (body_within.mark.subset mem)
      · exact handsNoType_here _ _
  | loop s body k ihBody ihRest =>
    refine (repeated_handsNoType (fun s ahead => (body s).read_within within ahead)
      (fun s ahead genuine => ihBody s (orderly.1 s) genuine) _ s genuine).andThen fun s' => ?_
    refine ihRest s' (orderly.2 s') fun t mem => genuine t ?_
    exact (repeated_within (fun s ahead => (body s).read_within within ahead) _ s ahead).ahead.subset mem

/-- **No type declaration** is found where an attempt inside a rule succeeded. -/
theorem readWithin_handsNoType (n : Nat) (r : Rule)
    (genuine : ∀ t ∈ ahead, t.Genuine) : HandsNoType (r.readWithin n ahead) := by
  induction n generalizing r ahead with
  | zero => exact handsNoType_here _ _
  | succ n ih => exact read_handsNoType (fun r ahead genuine => ih r genuine) r.body_orderly genuine

/-! ## Compilation units -/

theorem leading_eq (ahead : List Token) : leading ahead =
      if annotated ahead then (Rule.annotations.reads ahead).andThen fun annotations rest => .ok (some annotations) rest
      else .ok none ahead := by
  rw [leading, leadingAnnotations, read_bind_ok (read_annotationAt ..), ← annotated]
  split
  · rw [read_map, read_parse]
  · rfl

theorem leading_handsNoType (genuine : ∀ t ∈ tokens, t.Genuine) : HandsNoType (leading tokens) := by
  rw [leading_eq]
  split
  · exact HandsNoType.andThen (readWithin_handsNoType _ .annotations genuine) fun _ =>
      handsNoType_here _ _
  · exact handsNoType_here _ _

/-- Where annotations cannot be read, the declaration that they belong to cannot be read either. -/
theorem typeDeclaration_fails_of_annotations (genuine : ∀ t ∈ tokens, t.Genuine) (starts : annotated tokens = true)
    (fails : (Rule.annotations.readWithin n tokens).Fails) : (Rule.typeDeclaration.readWithin n tokens).Fails := by
  have isAnnotation : isOf tokens[0]? .atSign = true := (Bool.and_eq_true_iff.1 starts).1
  refine typeDeclaration_fails
    (Token.Genuine.not_word (genuine_head genuine) isAnnotation (by decide)) n fun m eq => .inl ?_
  subst eq
  rcases m with _ | m
  · exact ⟨_, rfl⟩
  have read_eq : Rule.annotations.readWithin (m + 1 + 2) tokens = _ := read_annotations tokens
  have read_eq' : Rule.modifiers.readWithin (m + 1) tokens = _ := read_modifiers tokens
  have inside := Outcome.Fails.of_map (read_eq ▸ fails)
  have upTo (ahead : List Token) := Rule.readWithin_upTo (show m ≤ m + 2 by omega) .annotationUse ahead
  rw [read_eq']
  exact (modifiers_along_annotations upTo starts inside).andThen _

/-- Where no type declaration is, none is read. -/
theorem readTypes_fails (nonempty : tokens ≠ [])
    (fails : (Rule.typeDeclaration.reads tokens).Fails) : (readTypes tokens).Fails := by
  obtain ⟨failure, failed⟩ := fails
  have first : (typeStep [] tokens).Fails := by
    rw [typeStep]
    split
    next ended =>
      have length := List.getElem?_eq_none_iff.1 ended
      cases nonempty (eq_nil_of_length_eq_zero (Nat.le_zero.1 length))
    next =>
      refine Outcome.Fails.andThen ⟨typeFailure (Rule.typeDeclaration.reads tokens).ahead[0]? failure, ?_⟩ _
      simp only [readType, failed, Except.mapError]
  exact Outcome.Fails.andThen (first.andThen _) _

theorem readRest_of_noImport (noImport : isWord tokens[0]? "import" = false) :
    readRest tokens = (readTypes tokens).andThen fun types ahead => .ok ([], types) ahead := by
  have stops : (wouldAccept ["import"]).read Rule.reads tokens = .ok false tokens := by
    rw [read_wouldAccept_one, show Pattern.fits tokens[0]? (.word "import") = false from noImport]
  rw [readRest, importDeclarations, read_whileTrue_done stops, andThen_pure]

/-- A semicolon before type declarations is passed over. -/
theorem readTypes_semicolon (value : semicolon.value = ofString ";")
    (tokens : List Token) : readTypes (semicolon :: tokens) = readTypes tokens := by
  have fits : Pattern.fits (some semicolon) (.word ";") = true := isWord_some.2 value
  have passed : Rule.typeDeclaration.reads (semicolon :: tokens) = .ok none tokens := by
    simp only [Rule.reads, nestingOf, readWithin, Rule.body, typeDeclaration,
      read_monad_bind, read_tryAccept_cons, fits, if_true, andThen_pure,
      read_monad_pure]
  have step : typeStep [] (semicolon :: tokens) = .ok ([], true) tokens := by
    simp only [typeStep, List.getElem?_cons_zero, readType, passed, Except.mapError,
      andThen_pure]
  rw [readTypes, length_cons, repeated_more step, readTypes]

def unitOfTypes (types : List Tree) : Tree :=
  .make .compilationUnit [(.package, .null), (.imports, .list []), (.types, .list types)]

/-- Where the parser goes back to the start, it reads the type declarations from there. -/
theorem unitOf_of_uncommitted {annotations : Option (List Tree)}
    (ok : (leading tokens).result = .ok annotations) (uncommitted : (leading tokens).handed = none)
    (noPackage : isWord (leading tokens).ahead[0]? "package" = false)
    (noImport : isWord tokens[0]? "import" = false) : unitOf tokens = (readTypes tokens).result.map unitOfTypes := by
  have start : (leading tokens).mark tokens = tokens := by rw [mark, uncommitted]; rfl
  rw [unitOf_eq_readRest ok noPackage, start, readRest_of_noImport noImport]
  cases result : (readTypes tokens).result with
  | error failure => rw [andThen_error result]; rfl
  | ok types => rw [andThen_ok result]; rfl

theorem unitOf_semicolon (value : semicolon.value = ofString ";")
    (cls : semicolon.cls = .separator) (tokens : List Token) :
    unitOf (semicolon :: tokens) = (readTypes tokens).result.map unitOfTypes := by
  have is : isWord (semicolon :: tokens)[0]? ";" = true := isWord_some.2 value
  have notAnnotated : annotated (semicolon :: tokens) = false := by
    rw [annotated, List.getElem?_cons_zero, isOf, classOf, Option.map_some, Option.getD_some, cls]
    rfl
  have leads := leading_eq (semicolon :: tokens)
  rw [notAnnotated, if_neg Bool.false_ne_true] at leads
  rw [unitOf_of_uncommitted (by rw [leads]) (by rw [leads]) (by rw [leads]; exact isWord_ne is (by decide)) (isWord_ne is (by decide)),
    readTypes_semicolon value]

/-- Both fail, or both are compilation units with the same types. -/
inductive SameTypes : Except ParseFailure Tree → Except ParseFailure Tree → Prop
  | read {one other : Tree} (same : one.get .types = other.get .types) :
      SameTypes (.ok one) (.ok other)
  | failed (failure failure' : ParseFailure) : SameTypes (.error failure) (.error failure')

theorem SameTypes.refl (result : Except ParseFailure Tree) : SameTypes result result := by
  cases result with
  | ok tree => exact .read rfl
  | error failure => exact .failed failure failure

variable {result : Except ParseFailure Tree}

theorem SameTypes.toBool_eq {result' : Except ParseFailure Tree}
    (same : SameTypes result result') : result.toBool = result'.toBool := by
  cases same <;> rfl

variable {failure : ParseFailure}

theorem sameTypes_error_iff :
    SameTypes (.error failure) result ↔ ∃ failure', result = .error failure' := by
  constructor
  · rintro (_ | ⟨_, failure'⟩)
    exact ⟨failure', rfl⟩
  · rintro ⟨failure', rfl⟩
    exact .failed failure failure'

/-- An attempt that succeeds inside the annotations makes the compilation unit fail. -/
theorem unitOf_fails_of_committed {mark : List Token} (genuine : ∀ t ∈ tokens, t.Genuine)
    (noPackage : ∀ annotations, (leading tokens).result = .ok annotations →
      isWord (leading tokens).ahead[0]? "package" = false)
    (committed : (leading tokens).handed = some mark) : ∃ failure, unitOf tokens = .error failure := by
  cases result : (leading tokens).result with
  | error failure => exact ⟨failure, unitOf_eq_error result⟩
  | ok annotations =>
    have noType := leading_handsNoType genuine mark committed
    have start : (leading tokens).mark tokens = mark := by rw [Outcome.mark, committed]; rfl
    obtain ⟨failure, failed⟩ := readTypes_fails noType.nonempty (noType.fails _)
    refine ⟨failure, ?_⟩
    rw [unitOf_eq_readRest result (noPackage _ result), start, readRest_of_noImport noType.noImport,
      andThen_error failed]
    rfl

/-- Where the annotations at the start cannot be read, there is no compilation unit behind a semicolon
either. -/
theorem unitOf_semicolon_fails
    (value : semicolon.value = ofString ";") (cls : semicolon.cls = .separator)
    (genuine : ∀ t ∈ tokens, t.Genuine) (failed : (leading tokens).result = .error failure) :
    ∃ failure', unitOf (semicolon :: tokens) = .error failure' := by
  have leads := leading_eq tokens
  cases starts : annotated tokens with
  | false =>
    rw [leads, starts] at failed
    cases failed
  | true =>
    rw [starts, if_pos rfl] at leads
    have fails : (Rule.annotations.reads tokens).Fails :=
      Outcome.Fails.of_map ⟨failure, leads ▸ failed⟩
    have nonempty : tokens ≠ [] := by
      rintro rfl
      cases starts
    obtain ⟨failure', failed'⟩ :=
      readTypes_fails nonempty (typeDeclaration_fails_of_annotations genuine starts fails)
    exact ⟨failure', by rw [unitOf_semicolon value cls, failed']; rfl⟩

/-- **Going back after annotations** is invisible exactly if no attempt inside them succeeded, or if the
compilation unit cannot be read from its start on anyway: where an attempt did, the compilation unit fails. -/
theorem sameTypes_semicolon_iff {semicolon : Token} {tokens : List Token}
    (value : semicolon.value = Text.ofString ";") (cls : semicolon.cls = .separator)
    (genuine : ∀ t ∈ tokens, t.Genuine) (noPackage : ∀ annotations, (leading tokens).result = .ok annotations →
      isWord (leading tokens).ahead[0]? "package" = false) (noImport : isWord tokens[0]? "import" = false) :
    (SameTypes (unitOf tokens) (unitOf (semicolon :: tokens)) ↔
      (leading tokens).handed = none ∨ ∃ failure, unitOf (semicolon :: tokens) = .error failure) ∧
    ((leading tokens).handed ≠ none → ∃ failure, unitOf tokens = .error failure) := by
  cases handed : (leading tokens).handed with
  | some mark =>
    obtain ⟨failure, failed⟩ := unitOf_fails_of_committed genuine noPackage handed
    refine ⟨?_, fun _ => ⟨failure, failed⟩⟩
    rw [failed, sameTypes_error_iff]
    exact ⟨.inr, fun either => either.resolve_left nofun⟩
  | none =>
    refine ⟨⟨fun _ => .inl rfl, fun _ => ?_⟩, fun committed => absurd rfl committed⟩
    cases result : (leading tokens).result with
    | error failure =>
      rw [unitOf_eq_error result, sameTypes_error_iff]
      exact unitOf_semicolon_fails value cls genuine result
    | ok annotations =>
      rw [unitOf_of_uncommitted result handed (noPackage _ result) noImport, unitOf_semicolon value cls]
      exact .refl _

def tokensOf (text : String) : List Token := (tokenize .strict (.text text)).tokens

/-- The annotation has a literal for its argument. -/
theorem sameTypes_semicolon_literal : (leading (tokensOf "@A(1) class B \x7b\x7d")).handed = none ∧
      SameTypes (unitOf (tokensOf "@A(1) class B \x7b\x7d"))
        (unitOf (.spelled .separator ";" :: tokensOf "@A(1) class B \x7b\x7d")) := by
  have genuine : ∀ t ∈ tokensOf "@A(1) class B \x7b\x7d", t.Genuine := Lexer.tokenize_genuine _ _
  obtain ⟨noPackage, noImport, uncommitted⟩ :
      isWord (leading (tokensOf "@A(1) class B \x7b\x7d")).ahead[0]? "package" = false ∧
      isWord (tokensOf "@A(1) class B \x7b\x7d")[0]? "import" = false ∧
      (leading (tokensOf "@A(1) class B \x7b\x7d")).handed = none := by decide +kernel
  have value : (Token.spelled .separator ";").value = ofString ";" := rfl
  have both := sameTypes_semicolon_iff value rfl genuine (fun _ _ => noPackage) noImport
  exact ⟨uncommitted, both.1.2 (.inl uncommitted)⟩

/-- Going back is visible: with a cast for its argument, the annotation makes the class fail. -/
theorem cast_in_annotation_differs :
    ¬ ∀ (semicolon : Token) (tokens : List Token), semicolon.value = Text.ofString ";" →
      semicolon.cls = .separator → (∀ t ∈ tokens, t.Genuine) →
      (∀ annotations, (leading tokens).result = .ok annotations →
        isWord (leading tokens).ahead[0]? "package" = false) →
      isWord tokens[0]? "import" = false →
      SameTypes (unitOf tokens) (unitOf (semicolon :: tokens)) := by
  intro invisible
  obtain ⟨tokens, genuine, fails, succeeds, noPackage, noImport⟩ : ∃ tokens : List Token, (∀ t ∈ tokens, t.Genuine) ∧
      (unitOf tokens).toBool = false ∧ (unitOf (.spelled .separator ";" :: tokens)).toBool = true ∧
      isWord (leading tokens).ahead[0]? "package" = false ∧ isWord tokens[0]? "import" = false :=
    ⟨tokensOf "@A((int) 1) class B \x7b\x7d", Lexer.tokenize_genuine _ _, by decide +kernel⟩
  have same := invisible (.spelled .separator ";") tokens rfl rfl genuine (fun _ _ => noPackage) noImport
  cases (fails.symm.trans same.toBool_eq).trans succeeds

end Parser

end JavaSource
