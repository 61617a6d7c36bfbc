import JavaSource.Proofs.Parser.Reading
import JavaSource.Proofs.Rules.Shape

/-!
# Contracts of routines

A rule fails only in ways that its callers know of, ends, takes a token where it has to, and gives what has the
shape that its callers rely on. `Routine.Ensures` is the condition on a routine under which it does so, as far as
the rules that it follows do. It is computed from the routine, from its end to its start; for a loop it asks for an
invariant. What may fail, be followed and be relied on are the `Terms` of the condition; those of a rule are its
`contract`. `Ensures.meets` says that a reading does what the condition promises, and `Rule.reads_meets` that every
rule does once the bodies of all rules satisfy it.

No rule follows itself before a token is taken: `Rule.depth` bounds how deep the rules nest up to that. The depth
to which the parser follows rules is enough for that many in front of each token.
-/

namespace JavaSource.Grammar

open Outcome

/-! ## Failures -/

def countOf (word : String) (tokens : List Token) : Nat := tokens.countP fun t => isWord (some t) word

/-- Among the tokens, a parenthesis is opened and not closed up to the end. -/
def Unclosed (tokens : List Token) : Prop :=
  ∃ opening after, opening :: after <:+ tokens ∧ opening.value = Text.ofString "(" ∧
    ∀ n, countOf ")" (after.take n) ≤ countOf "(" (after.take n)

variable {ahead : List Token}

theorem Unclosed.of_suffix {start : List Token} (unclosed : Unclosed ahead) (suffix : ahead <:+ start) :
    Unclosed start := by
  obtain ⟨opening, after, within, value, counts⟩ := unclosed
  exact ⟨opening, after, within.trans suffix, value, counts⟩

/-- A failure that reading the tokens may come to: a syntax error, or the end of the tokens where one is to be
taken or compared. A look-ahead does not end only where it looks for a parenthesis in vain. -/
inductive Expected (tokens : List Token) : ParseFailure → Prop
  | illegal (description : Text) (found : Option Token) : Expected tokens (.illegal description found)
  | endOfInput : Expected tokens .endOfInput
  | endInText : Expected tokens .endInText
  | endless (unclosed : Unclosed tokens) : Expected tokens .endless

variable {failure : ParseFailure}

theorem Expected.of_suffix {start : List Token} (expected : Expected ahead failure)
    (suffix : ahead <:+ start) : Expected start failure := by
  cases expected with
  | illegal description found => exact .illegal description found
  | endOfInput => exact .endOfInput
  | endInText => exact .endInText
  | endless unclosed => exact .endless (unclosed.of_suffix suffix)

theorem Expected.of_mayFail {tokens : List Token}
    (may : failure.isIllegal = true ∨ failure = .endInText) : Expected tokens failure := by
  rcases may with illegal | rfl
  · cases failure with
    | illegal description found => exact .illegal description found
    | _ => cases illegal
  · exact .endInText

/-- The reading takes no token and gives a value, unless it looks for a parenthesis in vain. -/
def Outcome.Glances {α : Type} (o : Outcome α) (ahead : List Token) (Q : α → Prop) : Prop :=
  (∃ a, o = { result := .ok a, ahead } ∧ Q a) ∨ (o = { result := .error .endless, ahead } ∧ Unclosed ahead)

/-! ## What rules promise -/

namespace Rule

/-- How many rules may nest below this one before a token is taken. -/
def depth : Rule → Nat
  | blockStatement | forControl => 7
  | statement | forInitOrUpdate | methodReference | elementValues | annotationElement | variableInitializer => 6
  | expression | elementValue | classBodyDeclaration | interfaceBodyDeclaration => 5
  | expressionOne | memberDeclaration | interfaceMemberDeclaration | annotationTypeElementDeclarations => 4
  | expressionTwo | methodOrFieldRest | interfaceMethodOrFieldRest | annotationMethodOrConstantRest
  | methodOrFieldDeclaration | interfaceMethodOrFieldDeclaration | annotationTypeElementDeclaration
  | typeDeclaration | localVariableDeclarationStatement | forVarControl => 3
  | type | typeArgument | typeList | qualifiedIdentifierList | elementValuePairs | creator | expressionThree
  | variableDeclarators | fieldDeclaratorsRest | constantDeclaratorsRest | enumConstant
  | classOrInterfaceDeclaration | resource => 2
  | qualifiedIdentifier | typeArgumentsOrDiamond | nonwildcardTypeArgumentsOrDiamond | referenceType | createdName
  | typeParameter | annotations | modifiers | variableModifiers | elementValuePair | superSuffix | arrayCreatorRest
  | explicitGenericInvocationSuffix | innerCreator | identifierSuffix | explicitGenericInvocation | primary
  | lambdaExpression | expressionTwoRest | variableDeclaratorRest | variableDeclarator | constantDeclaratorRest
  | constantDeclarator | methodDeclaratorRest | voidMethodDeclaratorRest | constructorDeclaratorRest
  | interfaceMethodDeclaratorRest | voidInterfaceMethodDeclaratorRest | genericMethodOrConstructorDeclaration
  | interfaceGenericMethodDeclarator | classCreatorRest | catches | switchBlockStatementGroups
  | forVarControlRest => 1
  | _ => 0

theorem depth_le (r : Rule) : r.depth ≤ 7 := by
  cases r <;> decide

/-- Whether the rule takes a token wherever it gives a value. -/
def takes : Rule → Bool
  | arrayDimension | modifiers | variableModifiers | fieldDeclaratorsRest | variableDeclaratorRest
  | annotationTypeElementDeclarations | switchBlockStatementGroups | forVariableDeclaratorRest
  | expressionTwoRest | identifierSuffix | arrayCreatorRest => false
  | _ => true

/-- Whether a rule of the given depth may follow this one, possibly after it has taken a token. -/
def mayFollow (r : Rule) (depth : Nat) (moved : Bool) : Bool :=
  r != .missingDeclarators && (moved || r.depth < depth)

/-- What the rule promises to those that follow it: the shape of its value, and whether a token was taken. -/
def Promise (r : Rule) (moved : Bool) (x : r.Result) : Prop := r.Shaped x ∧ (r.takes = true → moved = true)

end Rule

/-- In front of no token, the routine fails with a syntax error. -/
def Routine.Stuck : {α : Type} → Routine α → Prop
  | _, .fail failure => failure.isIllegal = true
  | _, .look _ k => (k none).Stuck
  | _, _ => False

/-- The routine does nothing but look at tokens. -/
def Routine.Quiet : {α : Type} → Routine α → Prop
  | _, .pure _ => True
  | _, .look _ k => ∀ t, (k t).Quiet
  | _, .loop _ body k => (∀ s, (body s).Quiet) ∧ ∀ s, (k s).Quiet
  | _, _ => False

/-- The loop takes no token and ends, unless it looks for a parenthesis in vain. -/
def LooksAhead {σ : Type} (s : σ) (body : σ → Routine (σ × Bool)) : Prop :=
  ∀ follow ahead, (repeated (fun s ahead => (body s).read follow ahead) (ahead.length + 2) s ahead).Glances ahead
    fun _ => True

/-- What is asked of a routine: how it may fail, which rules it may follow after a token was taken or before, what it
knows of the values they give, and which loops it may have that take no tokens. -/
structure Terms where
  mayFail : ParseFailure → Prop
  mayFollow : Rule → (moved : Bool) → Prop
  shaped : (r : Rule) → r.Result → Prop
  idle : {σ : Type} → σ → (σ → Routine (σ × Bool)) → Prop
  illegal : ∀ {failure : ParseFailure}, failure.isIllegal = true → mayFail failure
  endInText : mayFail .endInText

/-- The terms for a rule of the given depth. Loops that only look at tokens are let through where `quiet` says so. -/
def contract (quiet : Bool) (depth : Nat) : Terms where
  mayFail failure := failure.isIllegal = true ∨ failure = .endInText
  mayFollow r moved := r.mayFollow depth moved = true
  shaped := Rule.Shaped
  idle s body := quiet = true ∧ (∀ s, (body s).Quiet) ∧ LooksAhead s body
  illegal := .inl
  endInText := .inr rfl

/-- **The condition** under which a routine gives a value with the property `Q`, or fails as it may. The property may
speak of whether a token was taken, which `moved` says at the start: since the rule was followed, or since the turn of
the loop started. In a loop, `free` says whether one was before the turn. A loop goes on only after a turn that takes
a token. Where there is no next token, it is enough that the routine is stuck. -/
def Routine.Ensures (terms : Terms) : {α : Type} → Routine α → (free moved : Bool) → (Bool → α → Prop) → Prop
  | _, .pure a, _, moved, Q => Q moved a
  | _, .fail failure, _, _, _ => terms.mayFail failure
  | _, .next k, free, _, Q => ∀ t, (k t).Ensures terms free true Q
  | _, .look i k, free, moved, Q => (∀ t, (k (some t)).Ensures terms free moved Q) ∧
      ((k none).Ensures terms free moved Q ∨ i = 0 ∧ (k none).Stuck)
  | _, .call r k, free, moved, Q =>
    terms.mayFollow r (free || moved) ∧ ∀ x, terms.shaped r x → (k x).Ensures terms free (moved || r.takes) Q
  | _, .attempt body k otherwise, free, moved, Q =>
    body.Ensures terms free moved (fun moved x => (k x).Ensures terms free moved Q) ∧
      otherwise.Ensures terms free moved Q
  | _, .loop s body k, free, moved, Q =>
    (∃ Inv : _ → Prop, Inv s ∧ ∀ s, Inv s → (body s).Ensures terms (free || moved) false fun turned x =>
      (x.2 = true → turned = true ∧ Inv x.1) ∧
      (x.2 = false → (k x.1).Ensures terms free (moved || turned) Q)) ∨
    (terms.idle s body ∧ ∀ s, (k s).Ensures terms free moved Q)

section

variable {α β : Type} {terms : Terms} {free moved : Bool}

variable {routine : Routine α}

theorem Routine.Stuck.bind (stuck : routine.Stuck) (f : α → Routine β) :
    (routine.bind f).Stuck := by
  induction routine with
  | fail failure => exact stuck
  | look i k ih => exact ih none stuck f
  | _ => exact stuck.elim

theorem Routine.Stuck.read (stuck : routine.Stuck) (follow : Reader) :
    ∃ failure, (routine.read follow []).result = .error failure ∧ failure.isIllegal = true := by
  induction routine with
  | fail failure => exact ⟨failure, rfl, stuck⟩
  | look i k ih => exact ih none stuck
  | _ => exact stuck.elim

/-- Terms that ask for no more than others. -/
structure Terms.Implies (terms terms' : Terms) : Prop where
  mayFail : ∀ failure, terms.mayFail failure → terms'.mayFail failure
  mayFollow : ∀ r moved, terms.mayFollow r moved → terms'.mayFollow r moved
  shaped : ∀ r x, terms'.shaped r x → terms.shaped r x
  idle : ∀ {σ : Type} (s : σ) body, terms.idle s body → terms'.idle s body

/-- The condition holds under weaker terms and for weaker properties. -/
theorem Routine.Ensures.weaken {terms' : Terms} (implies : terms.Implies terms')
    {Q Q' : Bool → α → Prop} (ensures : routine.Ensures terms free moved Q)
    (weaker : ∀ moved a, Q moved a → Q' moved a) : routine.Ensures terms' free moved Q' := by
  induction routine generalizing free moved with
  | pure a => exact weaker _ _ ensures
  | fail failure => exact implies.mayFail _ ensures
  | next k ih => exact fun t => ih t (ensures t) weaker
  | look i k ih => exact ⟨fun t => ih _ (ensures.1 t) weaker, ensures.2.imp_left fun here => ih _ here weaker⟩
  | call r k ih =>
    exact ⟨implies.mayFollow _ _ ensures.1, fun x shaped => ih x (ensures.2 x (implies.shaped _ _ shaped)) weaker⟩
  | attempt body k otherwise ihBody ihRest ihOtherwise =>
    obtain ⟨tried, other⟩ := ensures
    exact ⟨ihBody tried fun moved x rest => ihRest x rest weaker, ihOtherwise other weaker⟩
  | loop s body k ihBody ihRest =>
    rcases ensures with ⟨Inv, start, turn⟩ | ⟨idle, rest⟩
    · refine .inl ⟨Inv, start, fun s inv => ihBody s (turn s inv) ?_⟩
      intro turned x ⟨goes, ends⟩
      exact ⟨goes, fun done => ihRest x.1 (ends done) weaker⟩
    · exact .inr ⟨implies.idle _ _ idle, fun s => ihRest s (rest s) weaker⟩

theorem Routine.Ensures.mono {Q Q' : Bool → α → Prop}
    (ensures : routine.Ensures terms free moved Q) (weaker : ∀ moved a, Q moved a → Q' moved a) :
    routine.Ensures terms free moved Q' :=
  ensures.weaken ⟨fun _ => id, fun _ _ => id, fun _ _ => id, fun _ _ => id⟩ weaker

theorem ensures_bind {f : α → Routine β} {Q : Bool → β → Prop}
    (ensures : routine.Ensures terms free moved fun moved a => (f a).Ensures terms free moved Q) :
    (routine >>= f).Ensures terms free moved Q := by
  change (routine.bind f).Ensures terms free moved Q
  induction routine generalizing moved with
  | pure a => exact ensures
  | fail failure => exact ensures
  | next k ih => exact fun t => ih t (ensures t)
  | look i k ih =>
    refine ⟨fun t => ih _ (ensures.1 t), ensures.2.imp (ih _) ?_⟩
    exact fun ⟨here, stuck⟩ => ⟨here, stuck.bind f⟩
  | call r k ih => exact ⟨ensures.1, fun x shaped => ih x (ensures.2 x shaped)⟩
  | attempt body k otherwise _ ihRest ihOtherwise =>
    obtain ⟨tried, other⟩ := ensures
    exact ⟨tried.mono fun moved x rest => ihRest x rest, ihOtherwise other⟩
  | loop s body k _ ihRest =>
    rcases ensures with ⟨Inv, start, turn⟩ | ⟨looks, rest⟩
    · refine .inl ⟨Inv, start, fun s inv => (turn s inv).mono ?_⟩
      intro turned x ⟨goes, ends⟩
      exact ⟨goes, fun done => ihRest x.1 (ends done)⟩
    · exact .inr ⟨looks, fun s => ihRest s (rest s)⟩

end

/-! ## What readings do -/

/-- The reading gives a value with the property, or fails in a way that it may. If the property speaks of a token
that was taken, fewer than `mark` tokens are left. -/
structure Outcome.Meets {α : Type} (o : Outcome α) (may : ParseFailure → Prop) (mark : Nat) (Q : Bool → α → Prop) :
    Prop where
  value : ∀ a, o.result = .ok a → ∃ moved, Q moved a ∧ (moved = true → o.ahead.length < mark)
  failure : ∀ failure, o.result = .error failure → may failure

variable {moved : Bool}

section

variable {α β : Type} {o : Outcome α} {may may' : ParseFailure → Prop} {mark mark' : Nat} {Q : Bool → α → Prop}

theorem Outcome.Meets.mono {Q' : Bool → α → Prop} (meets : o.Meets may mark Q)
    (failures : ∀ failure, may failure → may' failure) (values : ∀ moved a, Q moved a → Q' moved a) :
    o.Meets may' mark Q' := by
  refine ⟨fun a ok => ?_, fun failure failed => failures failure (meets.failure failure failed)⟩
  obtain ⟨moved, holds, shorter⟩ := meets.value a ok
  exact ⟨moved, values moved a holds, shorter⟩

variable {handed : Option (List Token)}

theorem Outcome.meets_ok {a : α}
    (holds : Q moved a) (shorter : moved = true → ahead.length < mark) :
    Outcome.Meets { result := .ok a, ahead, handed } may mark Q := by
  constructor
  · intro _ ok
    cases ok
    exact ⟨moved, holds, shorter⟩
  · intro _ failed
    cases failed

theorem Outcome.meets_error
    (expected : may failure) : Outcome.Meets { result := .error failure, ahead, handed } may mark Q := by
  constructor
  · intro _ ok
    cases ok
  · intro _ failed
    cases failed
    exact expected

theorem Outcome.Meets.andThen {R : Bool → β → Prop} {f : α → List Token → Outcome β} (first : o.Meets may mark Q)
    (second : ∀ a moved, Q moved a → (moved = true → o.ahead.length < mark) → (f a o.ahead).Meets may mark' R) :
    (o.andThen f).Meets may mark' R := by
  cases result : o.result with
  | error failure =>
    rw [andThen_error result]
    exact meets_error (first.failure failure result)
  | ok a =>
    rw [andThen_ok result]
    obtain ⟨moved, holds, shorter⟩ := first.value a result
    obtain ⟨value, failure⟩ := second a moved holds shorter
    exact ⟨value, failure⟩

/-- A loop that takes a token in each turn after which it goes on ends, and keeps its invariant. -/
theorem repeated_meets {σ : Type} {step : σ → List Token → Outcome (σ × Bool)} {Q : Bool → σ → Prop}
    (Inv : σ → Prop) (within : ∀ s ahead, (step s ahead).Within ahead)
    (turn : ∀ s later, Inv s → later <:+ ahead → (step s later).Meets may later.length fun turned x =>
      (x.2 = true → turned = true ∧ Inv x.1) ∧ (x.2 = false → Q (moved || turned) x.1))
    (le : ahead.length ≤ mark) (lt : moved = true → ahead.length < mark)
    (n : Nat) (s : σ) (later : List Token) (inv : Inv s) (suffix : later <:+ ahead) (enough : later.length < n) :
    (repeated step n s later).Meets may mark Q := by
  induction n generalizing s later with
  | zero => omega
  | succ n ih =>
    refine (turn s later inv suffix).andThen fun x turned ends shorter => ?_
    obtain ⟨s', more⟩ := x
    have after := (within s later).ahead
    have short := after.length_le
    have shortAhead := suffix.length_le
    cases more with
    | true =>
      obtain ⟨took, inv⟩ := ends.1 rfl
      have shorter := shorter took
      exact ih s' _ inv (after.trans suffix) (by omega)
    | false =>
      refine meets_ok (ends.2 rfl) fun took => ?_
      rcases Bool.or_eq_true_iff.1 took with took | took
      · have := lt took
        omega
      · have := shorter took
        omega

end

/-- The rules that a rule of the given depth may follow in front of at most `limit` tokens keep their promises. -/
def Lawful (follow : Reader) (start : List Token) (limit depth : Nat) : Prop :=
  ∀ (r : Rule) (moved : Bool) (ahead : List Token), r.mayFollow depth moved = true → ahead <:+ start →
    ahead.length ≤ limit → (moved = true → ahead.length < limit) →
    (follow r ahead).Meets (Expected start) ahead.length r.Promise

section

variable {follow : Reader} {start : List Token} {limit depth : Nat}

variable {n mark : Nat}

/-- What the flags of the condition say, with `n` tokens left of the `mark` that were ahead at the start of the rule or
the turn, and of the `limit` that were ahead at the start of the rule. -/
structure Room (n mark limit : Nat) (free moved : Bool) : Prop where
  le : n ≤ mark
  lt : moved = true → n < mark
  leLimit : mark ≤ limit
  ltLimit : free = true → mark < limit

namespace Room

variable {m : Nat} {free : Bool}

theorem initial (n : Nat) : Room n n n false false :=
  ⟨Nat.le_refl n, (absurd · Bool.false_ne_true), Nat.le_refl n, (absurd · Bool.false_ne_true)⟩

theorem le_limit (room : Room n mark limit free moved) : n ≤ limit := Nat.le_trans room.le room.leLimit

theorem lt_limit (room : Room n mark limit free moved) : (free || moved) = true → n < limit := by
  intro took
  rcases Bool.or_eq_true_iff.1 took with took | took
  · exact Nat.lt_of_le_of_lt room.le (room.ltLimit took)
  · exact Nat.lt_of_lt_of_le (room.lt took) room.leLimit

theorem moved_to {moved' : Bool} (room : Room n mark limit free moved) (short : m ≤ n)
    (shorter : moved' = true → m < mark) : Room m mark limit free moved' :=
  ⟨Nat.le_trans short room.le, shorter, room.leLimit, room.ltLimit⟩

theorem shorter (room : Room n mark limit free moved) (short : m ≤ n) : Room m mark limit free moved :=
  room.moved_to short fun took => Nat.lt_of_le_of_lt short (room.lt took)

theorem taking {turned : Bool} (room : Room n mark limit free moved) (short : m ≤ n) (took : turned = true → m < n) :
    Room m mark limit free (moved || turned) := by
  refine room.moved_to short fun taken => ?_
  rcases Bool.or_eq_true_iff.1 taken with taken | taken
  · exact Nat.lt_of_le_of_lt short (room.lt taken)
  · exact Nat.lt_of_lt_of_le (took taken) room.le

theorem token (room : Room (n + 1) mark limit free moved) : Room n mark limit free true :=
  room.moved_to (Nat.le_succ n) fun _ => room.le

theorem turn (room : Room n mark limit free moved) (short : m ≤ n) : Room m m limit (free || moved) false :=
  ⟨Nat.le_refl m, (absurd · Bool.false_ne_true), Nat.le_trans short room.le_limit,
    fun took => Nat.lt_of_le_of_lt short (room.lt_limit took)⟩

end Room

/-- **Readings do what the condition promises.** The induction is on the routine. -/
theorem Routine.Ensures.meets (within : ∀ r ahead, (follow r ahead).Within ahead)
    (lawful : Lawful follow start limit depth) {α : Type} {routine : Routine α} {free : Bool}
    {Q : Bool → α → Prop} (ensures : routine.Ensures (contract true depth) free moved Q)
    (suffix : ahead <:+ start) (room : Room ahead.length mark limit free moved) :
    (routine.read follow ahead).Meets (Expected start) mark Q := by
  induction routine generalizing free moved ahead mark with
  | pure a => exact meets_ok ensures room.lt
  | fail failure => exact meets_error (.of_mayFail ensures)
  | next k ih =>
    cases ahead with
    | nil => exact meets_error .endOfInput
    | cons t ahead => exact ih t (ensures t) ((List.suffix_cons t ahead).trans suffix) room.token
  | look i k ih =>
    rw [Routine.read]
    cases looked : ahead[i.toNat]? with
    | some t => exact ih _ (ensures.1 t) suffix room
    | none =>
      rcases ensures.2 with here | ⟨rfl, stuck⟩
      · exact ih _ here suffix room
      · have ended : ahead = [] := by
          cases ahead with
          | nil => rfl
          | cons t later => cases looked
        obtain ⟨failure, failed, illegal⟩ := stuck.read follow
        subst ended
        constructor
        · intro _ ok
          cases failed.symm.trans ok
        · intro _ fails
          cases failed.symm.trans fails
          exact .of_mayFail (.inl illegal)
  | call r k ih =>
    obtain ⟨may, rest⟩ := ensures
    refine (lawful r _ ahead may suffix room.le_limit room.lt_limit).andThen fun x turned promise shorter => ?_
    have after := (within r ahead).ahead
    exact ih x (rest x promise.1) (after.trans suffix)
      (room.taking after.length_le fun takes => shorter (promise.2 takes))
  | attempt body k otherwise ihBody ihRest ihOtherwise =>
    obtain ⟨tried, other⟩ := ensures
    have meets := ihBody tried suffix room
    have inside := body.read_within within ahead
    simp only [Routine.read]
    cases result : (body.read follow ahead).result with
    | ok x =>
      obtain ⟨turned, rest, shorter⟩ := meets.value x result
      obtain ⟨value, failure⟩ :=
        ihRest x rest (inside.ahead.trans suffix) (room.moved_to inside.ahead.length_le shorter)
      exact ⟨value, failure⟩
    | error failure =>
      by_cases illegal : failure.isIllegal = true
      · simp only [if_pos illegal]
        exact ihOtherwise other (inside.mark.trans suffix) (room.shorter inside.mark.length_le)
      · simp only [if_neg illegal]
        exact meets_error (meets.failure failure result)
  | loop s body k ihBody ihRest =>
    rcases ensures with ⟨Inv, start, turn⟩ | ⟨⟨-, -, looks⟩, rest⟩
    · have inside := repeated_within (fun s ahead => (body s).read_within within ahead) (ahead.length + 2) s ahead
      have turns := repeated_meets (Q := fun moved s => (k s).Ensures (contract true depth) free moved Q) Inv
        (fun s ahead => (body s).read_within within ahead)
        (fun s later inv after => ihBody s (turn s inv) (after.trans suffix) (room.turn after.length_le))
        room.le room.lt (ahead.length + 2) s ahead start List.suffix_rfl (by omega)
      refine turns.andThen fun s took rest shorter => ?_
      exact ihRest s rest (inside.ahead.trans suffix) (room.moved_to inside.ahead.length_le shorter)
    · simp only [Routine.read]
      rcases looks follow ahead with ⟨s', read, -⟩ | ⟨read, unclosed⟩
      · rw [read, andThen_pure]
        exact ihRest s' (rest s') suffix room
      · rw [read, andThen_error rfl]
        exact meets_error (.endless (unclosed.of_suffix suffix))

/-- **Rules keep their promises**, if the routines of all rules satisfy the condition: the depth to which rules
are followed is enough. -/
theorem Rule.readWithin_meets
    (bodies : ∀ r ≠ Rule.missingDeclarators, r.body.Ensures (contract true r.depth) false false r.Promise) (start : List Token)
    {r : Rule} (known : r ≠ .missingDeclarators) (suffix : ahead <:+ start)
    (enough : Rule.all.length * ahead.length + r.depth < n) :
    (r.readWithin n ahead).Meets (Expected start) ahead.length r.Promise := by
  have rules : Rule.all.length = 104 := rfl
  rw [rules] at enough
  induction n generalizing r ahead with
  | zero => omega
  | succ n ih =>
    have lawful : Lawful (Rule.readWithin n) start ahead.length r.depth := by
      intro called moved later may after le lt
      simp only [mayFollow, Bool.and_eq_true, bne_iff_ne, Bool.or_eq_true, decide_eq_true_eq] at may
      obtain ⟨known, free⟩ := may
      have := called.depth_le
      refine ih known after ?_
      rcases free with took | lower
      · have := lt took
        omega
      · omega
    exact (bodies r known).meets (Rule.readWithin_within n) lawful suffix (.initial _)

end

end JavaSource.Grammar
