import JavaSource.Proofs.Expression.Casts
import JavaSource.Proofs.Header.Declarations
import JavaSource.Proofs.Termination.Inversion

/-!
# Parameters that are told by their names alone

The parameters of a lambda expression may be names only. Such a list is read up to the closing parenthesis, name by
name, and a comma may follow each of them, but need not: `Parameters`. The lists with a comma between each two names
and none behind the last, `Separated`, are among them.
-/

namespace JavaSource.Grammar

open Body Routine Outcome Pattern

/-! ## Lists of names -/

/-- A name that is no closing parenthesis. -/
structure IsParameter (t : Token) : Prop where
  cls : isOf (some t) .identifier = true
  inside : isWord (some t) ")" = false

/-- `Parameters ahead items rest`: behind the opening parenthesis come the names `items`, each with whether a comma
follows it, and the closing parenthesis in front of `rest`. -/
inductive Parameters : List Token → List (Token × Bool) → List Token → Prop
  | closed {t : Token} {rest : List Token} (closes : isWord (some t) ")" = true) : Parameters (t :: rest) [] rest
  | name {t : Token} {ahead mid rest : List Token} {comma : Bool} {items : List (Token × Bool)} (isName : IsParameter t)
    (optionally : Optionally "," ahead comma mid) (later : Parameters mid items rest) :
    Parameters (t :: ahead) ((t, comma) :: items) rest

/-- A comma follows each name but the last. -/
inductive Separated : List (Token × Bool) → Prop
  | last (t : Token) : Separated [(t, false)]
  | more (t : Token) {items : List (Token × Bool)} (later : Separated items) : Separated ((t, true) :: items)

/-- Behind the opening parenthesis come one name or more, with a comma between each two, and the closing parenthesis in
front of `rest`. -/
inductive CommaList : List Token → List Token → List Token → Prop
  | last {t closing : Token} {rest : List Token} (isName : IsParameter t) (closes : isWord (some closing) ")" = true) :
    CommaList (t :: closing :: rest) [t] rest
  | more {t comma : Token} {ahead names rest : List Token} (isName : IsParameter t)
    (separates : isWord (some comma) "," = true) (later : CommaList ahead names rest) :
    CommaList (t :: comma :: ahead) (t :: names) rest

section

variable {ahead rest : List Token} {items : List (Token × Bool)}

theorem CommaList.parameters {names : List Token} (list : CommaList ahead names rest) :
    ∃ items, Parameters ahead items rest ∧ Separated items ∧ names = items.map Prod.fst := by
  induction list with
  | @last t closing rest isName closes =>
    have noComma : isWord (closing :: rest)[0]? "," = false := isWord_ne closes (by decide)
    exact ⟨[(t, false)], .name isName (.missing noComma) (.closed closes), .last t, rfl⟩
  | @more t comma ahead names rest isName separates _ ih =>
    obtain ⟨items, parameters, separated, rfl⟩ := ih
    exact ⟨(t, true) :: items, .name isName (.there separates) parameters, .more t separated, rfl⟩

theorem Parameters.commaList (parameters : Parameters ahead items rest) (separated : Separated items) :
    CommaList ahead (items.map Prod.fst) rest := by
  induction parameters with
  | closed => cases separated
  | name isName optionally later ih =>
    cases separated with
    | last =>
      cases optionally with
      | missing => cases later with | closed closes => exact .last isName closes
    | more _ further => cases optionally with | there separates => exact .more isName separates (ih further)

theorem Parameters.length_lt (parameters : Parameters ahead items rest) :
    items.length + rest.length < ahead.length := by
  induction parameters with
  | closed => simp
  | name _ optionally _ ih =>
    cases optionally <;> simp only [List.length_cons] at ih ⊢ <;> omega

end

/-! ## How they are read -/

def inferredParameter : Routine Tree := do
  let name ← parse .identifier
  discard <| tryAccept [","]
  return .make .inferredFormalParameter [(.name, .text name)]

def beforeClosing : Routine Bool := do
  let done ← wouldAccept [")"]
  return !done

def inferredParameters : Routine (List Tree) := do
  discard <| accept ["("]
  let parameters ← whileTrue beforeClosing inferredParameter
  discard <| accept [")"]
  return parameters

def lambdaFrom (parameters : List Tree) : Routine Tree := do
  let body ← parse .lambdaMethodBody
  return .make .lambdaExpression [(.parameters, .list parameters), (.body, body)]

theorem lambdaExpression_eq : lambdaExpression = (wouldAccept ["(", .cls .identifier, ","] >>= fun inferred =>
      if inferred = true then inferredParameters >>= lambdaFrom else parse .formalParameters >>= lambdaFrom) := by
  have inlined : inferredParameters >>= lambdaFrom = (discard (accept ["("]) >>= fun _ =>
      whileTrue beforeClosing inferredParameter >>= fun parameters => discard (accept [")"]) >>= fun _ =>
        lambdaFrom parameters) := by
    simp only [inferredParameters, bind_bind]
    rfl
  rw [inlined]
  rfl

/-- A syntax error, or the end of the tokens where one is needed. -/
def Outcome.Denied {α : Type} (o : Outcome α) : Prop :=
  ∃ failure, o.result = .error failure ∧ (failure.isIllegal = true ∨ failure = .endOfInput)

section

variable {α β : Type} {o : Outcome α}

theorem Outcome.Denied.andThen (denied : o.Denied) (f : α → List Token → Outcome β) : (o.andThen f).Denied := by
  obtain ⟨failure, failed, kind⟩ := denied
  rw [andThen_error failed]
  exact ⟨failure, rfl, kind⟩

theorem Outcome.Denied.not_endless (denied : o.Denied) : o.result ≠ .error .endless := by
  obtain ⟨failure, failed, kind⟩ := denied
  rw [failed]
  rintro ⟨⟩
  rcases kind with illegal | ended
  · cases illegal
  · cases ended

end

/-- A loop fails where each turn leads to another bad place, or fails itself. The induction is on the tokens ahead,
of which each turn takes some. -/
theorem whileTrue_denied {follow : Reader} {β : Type} {test : Routine Bool}
    {item : Routine β} (bad : List Token → Prop)
    (turn : ∀ ahead, bad ahead → test.read follow ahead = .ok true ahead ∧
      ((item.read follow ahead).Denied ∨
        ∃ x mid, item.read follow ahead = .ok x mid ∧ mid.length < ahead.length ∧ bad mid))
    {ahead : List Token} (start : bad ahead) : ((whileTrue test item).read follow ahead).Denied := by
  have turns (n : Nat) (acc : List β) (enough : ahead.length < n) :
      (repeated (fun acc ahead => Routine.read follow (do
        if ← test then
          let x ← item
          return (x :: acc, true)
        else return (acc, false)) ahead) n acc ahead).Denied := by
    induction n generalizing ahead acc with
    | zero => omega
    | succ n ih =>
      obtain ⟨goes, denied | ⟨x, mid, read, shorter, bad⟩⟩ := turn ahead start
      · simp only [repeated, read_monad_bind, goes, andThen_pure, if_true]
        exact (denied.andThen _).andThen _
      · rw [repeated_more ?_ n]
        · exact ih bad (x :: acc) (by omega)
        · simp only [read_monad_bind, goes, andThen_pure, if_true, read, read_monad_pure]
  exact (turns (ahead.length + 2) [] (by omega)).andThen _

/-- The rule for names takes one. -/
structure ReadsNames (follow : Reader) : Prop where
  name : ∀ t ahead, isOf (some t) .identifier = true →
    follow .identifier (t :: ahead) = { result := .ok t.value, ahead }
  other : ∀ t ahead, isOf (some t) .identifier = false → (follow .identifier (t :: ahead)).Denied
  ended : (follow .identifier []).Denied

theorem readsNames_readWithin (n : Nat) : ReadsNames (Rule.readWithin (n + 1)) where
  name t ahead isName := by rw [readWithin_identifier_cons, if_pos isName]
  other t ahead other := by
    rw [readWithin_identifier_cons, other]
    exact ⟨_, rfl, .inl rfl⟩
  ended := ⟨_, rfl, .inr rfl⟩

theorem readsNames_reads : ReadsNames Rule.reads where
  name t ahead isName := (readsNames_readWithin _).name t ahead isName
  other t ahead other := (readsNames_readWithin _).other t ahead other
  ended := (readsNames_readWithin _).ended

def parameterOf (item : Token × Bool) : Tree := .make .inferredFormalParameter [(.name, .text item.1.value)]

section

variable {follow : Reader} {ahead mid rest : List Token}
  {items : List (Token × Bool)}

theorem read_inferredParameter (names : ReadsNames follow) {t : Token} {comma : Bool}
    (isName : isOf (some t) .identifier = true) (optionally : Optionally "," ahead comma mid) :
    inferredParameter.read follow (t :: ahead) = .ok (parameterOf (t, comma)) mid := by
  rw [inferredParameter, read_monad_bind, read_parse, names.name t ahead isName, andThen_pure,
    read_monad_bind, read_discard, optionally.read, andThen_pure, andThen_pure]
  rfl

theorem read_beforeClosing (ahead : List Token) :
    beforeClosing.read follow ahead = .ok (!isWord ahead[0]? ")") ahead := by
  rw [beforeClosing, read_bind_ok (read_wouldAccept_one ..)]
  rfl

theorem inferredParameter_denied (denied : (follow .identifier ahead).Denied) :
    (inferredParameter.read follow ahead).Denied := by
  rw [inferredParameter, read_monad_bind, read_parse]
  exact denied.andThen _

/-- **A list of names** is read name by name. -/
theorem Parameters.read (names : ReadsNames follow) (parameters : Parameters ahead items rest) :
    ∃ closing, isWord (some closing) ")" = true ∧
      (whileTrue beforeClosing inferredParameter).read follow ahead =
        .ok (items.map parameterOf) (closing :: rest) := by
  have turns : ∃ closing, isWord (some closing) ")" = true ∧
      Turns follow beforeClosing inferredParameter ahead (items.map parameterOf) (closing :: rest) := by
    induction parameters with
    | closed closes =>
      refine ⟨_, closes, .done ?_⟩
      rw [read_beforeClosing, List.getElem?_cons_zero, closes]
      rfl
    | name isName optionally _ ih =>
      obtain ⟨closing, closes, turns⟩ := ih
      refine ⟨closing, closes, .more ?_ (read_inferredParameter names isName.cls optionally) turns⟩
      rw [read_beforeClosing, List.getElem?_cons_zero, isName.inside]
      rfl
  obtain ⟨closing, closes, turns⟩ := turns
  have short := parameters.length_lt
  exact ⟨closing, closes, turns.read_whileTrue (by rw [List.length_map]; omega)⟩

/-- **Every other list** fails. -/
theorem parameters_denied (names : ReadsNames follow) (other : ∀ items rest, ¬ Parameters ahead items rest) :
    ((whileTrue beforeClosing inferredParameter).read follow ahead).Denied := by
  refine whileTrue_denied (fun ahead => ∀ items rest, ¬ Parameters ahead items rest) (fun ahead other => ?_) other
  have goes (inside : isWord ahead[0]? ")" = false) :
      beforeClosing.read follow ahead = .ok true ahead := by
    rw [read_beforeClosing, inside]
    rfl
  cases ahead with
  | nil => exact ⟨goes rfl, .inl (inferredParameter_denied names.ended)⟩
  | cons t ahead =>
    have inside : isWord (some t) ")" = false := Bool.eq_false_iff.2 fun closes => other _ _ (.closed closes)
    refine ⟨goes inside, ?_⟩
    cases isName : isOf (some t) .identifier with
    | false => exact .inl (inferredParameter_denied (names.other t ahead isName))
    | true =>
      obtain ⟨comma, mid, optionally⟩ := exists_optionally "," ahead
      refine .inr ⟨_, mid, read_inferredParameter names isName optionally, ?_, fun items rest later => ?_⟩
      · cases optionally with
        | there => exact Nat.lt_succ_of_lt (Nat.lt_succ_self _)
        | missing => exact Nat.lt_succ_self _
      · exact other _ _ (.name ⟨isName, inside⟩ optionally later)

variable {opening : Token}

theorem read_inferredParameters (names : ReadsNames follow)
    (opens : isWord (some opening) "(" = true) (parameters : Parameters ahead items rest) :
    inferredParameters.read follow (opening :: ahead) = .ok (items.map parameterOf) rest := by
  obtain ⟨closing, closes, read⟩ := parameters.read names
  simp only [inferredParameters, read_monad_bind, read_discard, read_accept_cons, fits_string, opens, if_true,
    andThen_pure, read, closes]
  rfl

theorem inferredParameters_denied (names : ReadsNames follow)
    (opens : isWord (some opening) "(" = true) (other : ∀ items rest, ¬ Parameters ahead items rest) :
    (inferredParameters.read follow (opening :: ahead)).Denied := by
  simp only [inferredParameters, read_monad_bind, read_discard, read_accept_cons, fits_string, opens, if_true,
    andThen_pure]
  exact (parameters_denied names other).andThen _

def lambdaOf (items : List (Token × Bool)) (body : Tree) : Tree :=
  .make .lambdaExpression [(.parameters, .list (items.map parameterOf)), (.body, body)]

theorem lambda_starts (starts : fitAll ["(", .cls .identifier, ","] ahead = true) :
    ∃ opening later, ahead = opening :: later ∧ isWord (some opening) "(" = true := by
  cases ahead with
  | nil => cases starts
  | cons opening later => exact ⟨opening, later, rfl, (Bool.and_eq_true_iff.1 starts).1⟩

theorem read_lambdaExpression (starts : fitAll ["(", .cls .identifier, ","] ahead = true) :
    lambdaExpression.read follow ahead = (inferredParameters >>= lambdaFrom).read follow ahead := by
  rw [lambdaExpression_eq, read_monad_bind, read_wouldAccept (List.cons_ne_nil _ _), starts,
    andThen_pure, if_pos rfl]

theorem readWithin_lambda {n : Nat}
    (starts : fitAll ["(", .cls .identifier, ","] (opening :: ahead) = true)
    (opens : isWord (some opening) "(" = true) (parameters : Parameters ahead items rest) :
    (Rule.lambdaExpression.readWithin (n + 2) (opening :: ahead)).result =
      (Rule.lambdaMethodBody.readWithin (n + 1) rest).result.map (lambdaOf items) := by
  change (lambdaExpression.read (Rule.readWithin (n + 1)) (opening :: ahead)).result = _
  rw [read_lambdaExpression starts, read_bind_ok (read_inferredParameters (readsNames_readWithin n) opens parameters), lambdaFrom,
    read_monad_bind, read_parse]
  cases result : (Rule.lambdaMethodBody.readWithin (n + 1) rest).result with
  | error failure => rw [andThen_error result]; rfl
  | ok body => rw [andThen_ok result]; rfl

end

/-! ## The rules that are followed -/

section

variable {may : Rule → Prop} {α : Type}

theorem calls_ite {c : Prop} {_ : Decidable c} {yes no : Routine α} (holds : yes.Calls may) (fails : no.Calls may) :
    (if c then yes else no).Calls may := by
  split
  · exact holds
  · exact fails

theorem calls_discard {routine : Routine α} (calls : routine.Calls may) : (discard routine).Calls may :=
  calls_bind calls fun _ => trivial

theorem calls_accept (p : Pattern) : (accept [p]).Calls may :=
  calls_ite trivial fun _ => calls_ite trivial fun _ => trivial

theorem calls_wouldAccept (p : Pattern) : (wouldAccept [p]).Calls may :=
  calls_ite trivial fun _ => calls_ite trivial trivial

theorem calls_tryAccept (p : Pattern) : (tryAccept [p]).Calls may :=
  calls_bind (calls_wouldAccept p) fun _ => calls_ite (fun _ => trivial) trivial

end

theorem calls_inferredParameters : inferredParameters.Calls (· = .identifier) := by
  refine calls_bind (calls_discard (calls_accept _)) fun _ => calls_bind ⟨fun _ => ?_, fun _ => trivial⟩ fun _ => ?_
  · refine calls_bind (calls_bind (calls_wouldAccept _) fun _ => trivial) fun _ => calls_ite ?_ trivial
    refine calls_bind (calls_bind ⟨rfl, fun _ => trivial⟩ fun _ => ?_) fun _ => trivial
    exact calls_bind (calls_discard (calls_tryAccept _)) fun _ => trivial
  · exact calls_bind (calls_discard (calls_accept _)) fun _ => trivial

theorem orderly_inferredParameters : inferredParameters.Orderly := by
  refine orderly_bind (orderly_discard (orderly_accept _)) fun _ => orderly_bind (orderly_whileTrue ?_ ?_) fun _ => ?_
  · exact orderly_bind (orderly_wouldAccept _) fun _ => orderly_pure _
  · refine orderly_bind (orderly_parse _) fun _ => ?_
    exact orderly_bind (orderly_discard (orderly_tryAccept _)) fun _ => orderly_pure _
  · exact orderly_bind (orderly_discard (orderly_accept _)) fun _ => orderly_pure _

/-- The parser about to follow the rule for the body is the one behind the parameters. -/
theorem reaches_lambdaFrom {parameters : List Tree} {p q : Parser}
    (reaches : (lambdaFrom parameters).Reaches p 1 .lambdaMethodBody q) : q = p := by
  change (Routine.call .lambdaMethodBody _).Reaches p 1 .lambdaMethodBody q at reaches
  cases reaches with
  | call => rfl
  | inside within => exact absurd within.pos (Nat.lt_irrefl 0)
  | after followed rest => cases rest

end JavaSource.Grammar

namespace JavaSource.Parser

open Grammar Body Routine

section

variable {p : Parser} {ahead : List Token} (facing : p.Facing ahead)
  (starts : Pattern.fitAll ["(", .cls .identifier, ","] ahead = true)

include facing starts

theorem lambda_tested : ∃ p', p'.Facing ahead ∧ (wouldAccept ["(", .cls .identifier, ","]).Runs p (.ok true) p' := by
  refine runs_of_read (orderly_wouldAccept _) facing ?_
  rw [read_wouldAccept (List.cons_ne_nil _ _), starts]

variable {items : List (Token × Bool)} {rest : List Token}

theorem lambda_reaches
    (parameters : Parameters ahead.tail items rest) :
    ∃ q, q.Facing rest ∧ lambdaExpression.Reaches p 1 .lambdaMethodBody q := by
  obtain ⟨opening, later, rfl, opens⟩ := lambda_starts starts
  obtain ⟨p', facing', test⟩ := lambda_tested facing starts
  obtain ⟨q, facing'', list⟩ := runs_of_read orderly_inferredParameters facing'
    (read_inferredParameters readsNames_reads opens parameters)
  refine ⟨q, facing'', ?_⟩
  rw [lambdaExpression_eq]
  exact test.reaches_bind (list.reaches_bind (.call _ _ q))

variable {q : Parser}

theorem parameters_of_reaches (reaches : lambdaExpression.Reaches p 1 .lambdaMethodBody q) :
    ∃ items rest, Parameters ahead.tail items rest ∧ q.Facing rest := by
  obtain ⟨opening, later, rfl, opens⟩ := lambda_starts starts
  obtain ⟨p', facing', test⟩ := lambda_tested facing starts
  rw [lambdaExpression_eq] at reaches
  rcases reaches.of_bind with here | ⟨inferred, p'', test', reaches⟩
  · exact absurd here (looks_wouldAccept _ _).quiet.not_reaches
  obtain ⟨⟨⟩, rfl⟩ := test.unique test'
  rcases reaches.of_bind with here | ⟨trees, p'', list, reaches⟩
  · cases here.called calls_inferredParameters
  by_cases found : ∃ items rest, Parameters later items rest
  · obtain ⟨items, rest, parameters⟩ := found
    obtain ⟨p₁, facing₁, list'⟩ := runs_of_read orderly_inferredParameters facing'
      (read_inferredParameters readsNames_reads opens parameters)
    obtain ⟨⟨⟩, rfl⟩ := list.unique list'
    obtain rfl := reaches_lambdaFrom reaches
    exact ⟨items, rest, parameters, facing₁⟩
  · have other : ∀ items rest, ¬ Parameters later items rest := fun items rest is => found ⟨items, rest, is⟩
    have denied := inferredParameters_denied readsNames_reads opens other
    obtain ⟨p₁, -, fails⟩ := runs_read orderly_inferredParameters facing' denied.not_endless
    obtain ⟨failure, failed, -⟩ := denied
    rw [failed] at fails
    cases (list.unique fails).1

theorem lambda_run (parameters : Parameters ahead.tail items rest)
    (facing' : q.Facing rest) (ends : (q.run (follow plainly .lambdaMethodBody)).1 ≠ .error .endless) :
    (p.run (follow plainly .lambdaExpression)).1 =
      (q.run (follow plainly .lambdaMethodBody)).1.map (lambdaOf items) := by
  obtain ⟨opening, later, rfl, opens⟩ := lambda_starts starts
  have parameters : Parameters later items rest := parameters
  have short := parameters.length_lt
  obtain ⟨n, deep, enough, -⟩ := exists_nesting (k := 2) (later.length + 1) (by decide)
  have le : nestingOf rest.length ≤ n + 1 := Nat.le_succ_of_le (enough _ (by omega))
  have body := (follow_does .lambdaMethodBody facing').result
  rw [body] at ends ⊢
  rw [(follow_does .lambdaExpression facing).result, Rule.reads, List.length_cons, deep,
    readWithin_lambda starts opens parameters]
  rcases Rule.readWithin_upTo le .lambdaMethodBody rest with endless | same
  · exact absurd endless ends
  · rw [Rule.reads, same]

omit facing in
theorem lambda_denied (other : ∀ items rest, ¬ Parameters ahead.tail items rest) :
    (Rule.lambdaExpression.reads ahead).Denied := by
  obtain ⟨opening, later, rfl, opens⟩ := lambda_starts starts
  obtain ⟨n, deep, -⟩ := exists_nesting (k := 2) (later.length + 1) (by decide)
  rw [Rule.reads, List.length_cons, deep]
  change (lambdaExpression.read (Rule.readWithin (n + 1)) (opening :: later)).Denied
  rw [read_lambdaExpression starts, Routine.read_monad_bind]
  exact (inferredParameters_denied (readsNames_readWithin n) opens other).andThen _

/-- **Parameters told by their names alone.** In front of a parenthesis, a name and a comma, a lambda expression gets to
its body exactly behind a list of names, each with or without a comma, and the closing parenthesis; its parameters are
then these names. Every other list is a syntax error, or ends the tokens. The lists with a comma between each two names
and no other are those of the accepted ones that are `Separated`. -/
theorem follow_lambda_inferred : (∀ q, lambdaExpression.Reaches p 1 .lambdaMethodBody q →
        ∃ items rest, Parameters ahead.tail items rest ∧ q.Facing rest) ∧
      (∀ items rest, Parameters ahead.tail items rest →
        (∃ q, q.Facing rest ∧ lambdaExpression.Reaches p 1 .lambdaMethodBody q) ∧
          ∀ q : Parser, q.Facing rest → (q.run (follow plainly .lambdaMethodBody)).1 ≠ .error .endless →
            (p.run (follow plainly .lambdaExpression)).1 =
              (q.run (follow plainly .lambdaMethodBody)).1.map (lambdaOf items)) ∧
      ((∀ items rest, ¬ Parameters ahead.tail items rest) →
        ∃ failure, (p.run (follow plainly .lambdaExpression)).1 = .error failure ∧
          (failure.isIllegal = true ∨ failure = .endOfInput)) ∧
      ∀ names rest, CommaList ahead.tail names rest ↔
        ∃ items, Parameters ahead.tail items rest ∧ Separated items ∧ names = items.map Prod.fst := by
  refine ⟨fun q => parameters_of_reaches facing starts, fun items rest parameters => ⟨?_, fun q facing' ends => ?_⟩,
    fun other => ?_, fun names rest => ⟨CommaList.parameters, ?_⟩⟩
  · exact lambda_reaches facing starts parameters
  · exact lambda_run facing starts parameters facing' ends
  · obtain ⟨failure, failed, kind⟩ := lambda_denied starts other
    exact ⟨failure, (follow_does .lambdaExpression facing).result.trans failed, kind⟩
  · rintro ⟨items, parameters, separated, rfl⟩
    exact parameters.commaList separated

end

def looseParameters : List Token :=
  [.spelled .separator "(", .spelled .identifier "a", .spelled .separator ",", .spelled .identifier "b",
    .spelled .identifier "c", .spelled .separator ")", .spelled .operator "->", .spelled .identifier "x",
    .spelled .separator ";"]

theorem looseParameters_read : Parameters looseParameters.tail [(.spelled .identifier "a", true),
    (.spelled .identifier "b", false), (.spelled .identifier "c", false)] (looseParameters.drop 6) :=
  .name ⟨rfl, rfl⟩ (.there rfl) (.name ⟨rfl, rfl⟩ (.missing rfl) (.name ⟨rfl, rfl⟩ (.missing rfl) (.closed rfl)))

theorem looseParameters_body :
    ∃ body, ((ofTokens (looseParameters.drop 6)).run (follow plainly .lambdaMethodBody)).1 = .ok body := by
  have succeeds : ((ofTokens (looseParameters.drop 6)).run (follow plainly .lambdaMethodBody)).1.toBool = true := by
    decide +kernel
  exact exists_ok succeeds

theorem follow_lambda_inferred_loose : ∃ body, ((ofTokens looseParameters).run (follow plainly .lambdaExpression)).1 =
      .ok (lambdaOf [(.spelled .identifier "a", true), (.spelled .identifier "b", false),
        (.spelled .identifier "c", false)] body) := by
  obtain ⟨body, read⟩ := looseParameters_body
  obtain ⟨-, accepted, -⟩ := follow_lambda_inferred (facing_ofTokens looseParameters) rfl
  have run := (accepted _ _ looseParameters_read).2 _ (facing_ofTokens _)
    (by rw [read]; exact fun same => by cases same)
  exact ⟨body, by rw [run, read]; rfl⟩

/-- Not every list that is accepted has a comma between each two names and none behind the last. -/
theorem lambda_commas_optional :
    ¬ ∀ (tokens : List Token) (t : Tree), Pattern.fitAll ["(", .cls .identifier, ","] tokens = true →
      ((ofTokens tokens).run (follow plainly .lambdaExpression)).1 = .ok t →
      ∃ names rest, CommaList tokens.tail names rest := by
  intro law
  obtain ⟨body, read⟩ := looseParameters_body
  have run := lambda_run (facing_ofTokens looseParameters) rfl looseParameters_read (facing_ofTokens _)
    (by rw [read]; exact fun same => by cases same)
  rw [read] at run
  obtain ⟨names, rest, list⟩ := law looseParameters _ rfl run
  cases list with
  | last _ closes => exact absurd closes (by decide)
  | more _ _ later =>
    cases later with
    | last _ closes => exact absurd closes (by decide)
    | more _ separates => exact absurd separates (by decide)

end JavaSource.Parser
