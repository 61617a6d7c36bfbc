import JavaSource.Proofs.Parser.Failures
import JavaSource.Proofs.Termination.LookAhead

/-!
# Parsing ends

What a parser is asked to do is to follow a rule or to read a compilation unit. `Course` says what comes of this
without any bounds on depth and turns. The parser, whose depth and turns are bounded, goes the same course and ends,
unless it comes to a statement in a block where the look-ahead does not; and on any course the depth of the rules
that it is following is bounded by the tokens left (`Method.parses_to_an_end`).
-/

namespace JavaSource

open Grammar JavaSource.Parser Routine

/-- **What comes of something that a parser does**, without bounds: how it can end, and which rules it comes to
follow, as the innermost of how many. -/
structure Course (α : Type) where
  ends : Parser → Except ParseFailure α → Parser → Prop
  reaches : Parser → Nat → Rule → Parser → Prop

namespace Course

variable {α β σ : Type}

def step (action : ParseM α) : Course α where
  ends p result q := p.run action = (result, q)
  reaches _ _ _ _ := False

def routine (r : Routine α) : Course α := ⟨r.Runs, r.Reaches⟩

inductive BindEnds (first : Course α) (f : α → Course β) : Parser → Except ParseFailure β → Parser → Prop
  | ok {p p' q : Parser} {a : α} {result : Except ParseFailure β} (ended : first.ends p (.ok a) p')
    (rest : (f a).ends p' result q) : BindEnds first f p result q
  | error {p q : Parser} {failure : ParseFailure} (ended : first.ends p (.error failure) q) :
    BindEnds first f p (.error failure) q

instance : Monad Course where
  pure a := step (pure a)
  bind first f :=
    { ends := BindEnds first f
      reaches := fun p d r q =>
        first.reaches p d r q ∨ ∃ a p', first.ends p (.ok a) p' ∧ (f a).reaches p' d r q }

/-- A failure is told instead of raised. -/
def outcome (c : Course α) : Course (Except ParseFailure α) where
  ends p told q := ∃ result, c.ends p result q ∧ told = .ok result
  reaches := c.reaches

inductive LoopEnds (turn : σ → Course (σ × Bool)) : σ → Parser → Except ParseFailure σ → Parser → Prop
  | again {s s' : σ} {p p' q : Parser} {result : Except ParseFailure σ} (ended : (turn s).ends p (.ok (s', true)) p')
    (rest : LoopEnds turn s' p' result q) : LoopEnds turn s p result q
  | done {s s' : σ} {p q : Parser} (ended : (turn s).ends p (.ok (s', false)) q) : LoopEnds turn s p (.ok s') q
  | error {s : σ} {p q : Parser} {failure : ParseFailure} (ended : (turn s).ends p (.error failure) q) :
    LoopEnds turn s p (.error failure) q

inductive LoopReaches (turn : σ → Course (σ × Bool)) : σ → Parser → Nat → Rule → Parser → Prop
  | turn {s : σ} {p q : Parser} {d : Nat} {r : Rule} (within : (turn s).reaches p d r q) : LoopReaches turn s p d r q
  | again {s s' : σ} {p p' q : Parser} {d : Nat} {r : Rule} (ended : (turn s).ends p (.ok (s', true)) p')
    (rest : LoopReaches turn s' p' d r q) : LoopReaches turn s p d r q

def loop (turn : σ → Course (σ × Bool)) (s : σ) : Course σ := ⟨LoopEnds turn s, LoopReaches turn s⟩

/-- The rules that are followed inside are nested one deeper. -/
def inside (c : Course α) : Course α where
  ends := c.ends
  reaches p d r q := ∃ d', d = d' + 1 ∧ c.reaches p d' r q

end Course

/-! ## Compilation units -/

open Course in
def packageCourse : Course Tree := do
  step push
  let first ← step (look 0)
  let annotations ← routine leadingAnnotations
  if ← routine (tryAccept ["package"]) then
    step (pop false)
    let start ← step (look 0)
    let name ← routine (Grammar.parse .qualifiedIdentifier)
    discard <| routine (accept [";"])
    let package := Tree.make .packageDeclaration
      [(.annotations, .ofList? annotations), (.name, .text name),
       (.documentation, .ofText? (javadocOf first))]
    return package.placeAt (positionOf start)
  else
    step (pop true)
    return .null

open Course in
def nextTypeCourse : Course (Option Tree) := do
  match ← outcome (routine (Grammar.parse .typeDeclaration)) with
  | .ok declaration => return declaration
  | .error .endOfInput => routine (illegal "Unexpected end of input")
  | .error failure => step (throw failure)

open Course in
def typesCourse : Course (List Tree) := do
  let read ← loop (fun read => do
    match ← step (look 0) with
    | none => return (read, false)
    | some _ =>
      match ← nextTypeCourse with
      | some declaration => return (declaration :: read, true)
      | none => return (read, true)) []
  return read.reverse

open Course in
def unitCourse : Course Tree :=
  inside do
    let package ← packageCourse
    let imports ← routine importDeclarations
    let types ← typesCourse
    return .make .compilationUnit
      [(.package, package), (.imports, .list imports), (.types, .list types)]

/-- What a parser can be asked to parse. -/
inductive Method where
  | unit
  | rule (r : Rule)

namespace Method

def Result : Method → Type
  | unit => Tree
  | rule r => r.Result

def action : (m : Method) → ParseM m.Result
  | unit => compilationUnit plainly
  | rule r => follow plainly r

/-- What comes of it without bounds. -/
def course : (m : Method) → Course m.Result
  | unit => unitCourse
  | rule r => .routine (Grammar.parse r)

end Method

/-! ## Going a course -/

namespace Course

/-- The course comes to no statement in a block where the look-ahead does not end. -/
def Avoids {α : Type} (c : Course α) (p : Parser) : Prop := ∀ d q, c.reaches p d .blockStatement q → ¬ Stalls q

/-- The course leaves the parser in front of some of the last tokens and ends in no bound; it is gone by the parser if
it avoids what does not end; and the rules on it nest as deep as the tokens left allow, besides the given depth. -/
structure Governs {α : Type} (c : Course α) (action : ParseM α) (p : Parser) (start : List Token) (depth : Nat) :
    Prop where
  leaves : ∀ a q, c.ends p (.ok a) q → ∃ later, q.Facing later ∧ later <:+ start
  unbounded : ∀ failure q, c.ends p (.error failure) q → failure ≠ .endless
  goes : c.Avoids p → c.ends p (p.run action).1 (p.run action).2
  reached : ∀ d r q, c.reaches p d r q → ∃ later, q.Facing later ∧ later <:+ start ∧ d + 8 * later.length ≤ depth + 8 * start.length

section

variable {α β σ : Type} {p : Parser} {ahead start : List Token} {depth : Nat}

variable {action : ParseM α}

theorem governs_step (ends : (p.run action).1 ≠ .error .endless)
    (leaves : ∀ a q, p.run action = (.ok a, q) → ∃ later, q.Facing later ∧ later <:+ start) :
    (step action).Governs action p start depth := by
  refine ⟨leaves, fun failure q ended same => ?_, fun _ => rfl, fun _ _ _ reaches => reaches.elim⟩
  have ended : p.run action = (.error failure, q) := ended
  rw [ended, same] at ends
  exact ends rfl

theorem governs_pure (facing : p.Facing ahead) (suffix : ahead <:+ start) (a : α) :
    (pure a : Course α).Governs (pure a) p start depth := by
  refine governs_step (fun same => by cases same) fun b q ran => ?_
  cases ran
  exact ⟨ahead, facing, suffix⟩

variable {c : Course α} {f : α → Course β} {g : α → ParseM β}

theorem governs_bind
    (first : c.Governs action p start depth) (rest : ∀ a q, c.ends p (.ok a) q → (f a).Governs (g a) q start depth) :
    (c >>= f).Governs (action >>= g) p start depth := by
  refine ⟨fun b q ended => ?_, fun failure q ended => ?_, fun avoids => ?_, fun d r q reaches => ?_⟩
  · cases ended with
    | ok ended later => exact (rest _ _ ended).leaves b q later
  · cases ended with
    | ok ended later => exact (rest _ _ ended).unbounded failure q later
    | error ended => exact first.unbounded failure q ended
  · have went := first.goes fun d q reaches => avoids d q (.inl reaches)
    rw [run_bind]
    rcases ran : p.run action with ⟨failure | a, q⟩
    · rw [ran] at went
      exact BindEnds.error went
    · rw [ran] at went
      exact BindEnds.ok went ((rest a q went).goes fun d q' reaches => avoids d q' (.inr ⟨a, q, went, reaches⟩))
  · rcases reaches with reaches | ⟨a, p', ended, reaches⟩
    · exact first.reached d r q reaches
    · exact (rest a p' ended).reached d r q reaches

/-- One thing after the other, where it does not matter how the first one ended. -/
theorem governs_then
    (first : c.Governs action p start depth)
    (rest : ∀ a (q : Parser) later, q.Facing later → later <:+ start → (f a).Governs (g a) q start depth) :
    (c >>= f).Governs (action >>= g) p start depth := by
  refine governs_bind first fun a q ended => ?_
  obtain ⟨later, facing, suffix⟩ := first.leaves a q ended
  exact rest a q later facing suffix

/-- A loop whose turns take a token before they go on. -/
theorem governs_loop {turn : σ → Course (σ × Bool)} {action : σ → ParseM (σ × Bool)}
    (turns : ∀ s (p : Parser) later, p.Facing later → later <:+ start → (turn s).Governs (action s) p start depth)
    (takes : ∀ s s' (p p' : Parser) later, p.Facing later → (turn s).ends p (.ok (s', true)) p' →
      ∃ left, p'.Facing left ∧ left <:+ later ∧ left.length < later.length)
    (n : Nat) (s : σ) (facing : p.Facing ahead) (suffix : ahead <:+ start) (enough : ahead.length < n) :
    (loop turn s).Governs (iterate action n s) p start depth := by
  refine ⟨fun s' q ended => ?_, fun failure q ended => ?_, fun avoids => ?_, fun d r q reaches => ?_⟩
  · change LoopEnds turn s p (.ok s') q at ended
    generalize given : (Except.ok s' : Except ParseFailure σ) = result at ended
    induction ended generalizing ahead with
    | again ended _ ih =>
      obtain ⟨left, faces, within, shorter⟩ := takes _ _ _ _ ahead facing ended
      exact ih faces (within.trans suffix) (by omega) given
    | done ended => exact (turns _ _ ahead facing suffix).leaves _ _ ended
    | error => cases given
  · change LoopEnds turn s p (.error failure) q at ended
    generalize given : (Except.error failure : Except ParseFailure σ) = result at ended
    induction ended generalizing ahead with
    | again ended _ ih =>
      obtain ⟨left, faces, within, shorter⟩ := takes _ _ _ _ ahead facing ended
      exact ih faces (within.trans suffix) (by omega) given
    | done => cases given
    | error ended =>
      cases given
      exact (turns _ _ ahead facing suffix).unbounded _ _ ended
  · induction n generalizing s p ahead with
    | zero => omega
    | succ n ih =>
      have went := (turns s p ahead facing suffix).goes fun d q reaches => avoids d q (.turn reaches)
      rw [iterate, run_bind]
      rcases ran : p.run (action s) with ⟨failure | ⟨s', more⟩, q⟩
      · rw [ran] at went
        exact LoopEnds.error went
      · rw [ran] at went
        cases more with
        | false => exact LoopEnds.done went
        | true =>
          obtain ⟨left, faces, within, shorter⟩ := takes s s' p q ahead facing went
          refine LoopEnds.again went (ih s' faces (within.trans suffix) (by omega) fun d q' reaches => ?_)
          exact avoids d q' (.again went reaches)
  · change LoopReaches turn s p d r q at reaches
    induction reaches generalizing ahead with
    | turn within => exact (turns _ _ ahead facing suffix).reached _ _ _ within
    | again ended _ ih =>
      obtain ⟨left, faces, within, shorter⟩ := takes _ _ _ _ ahead facing ended
      exact ih faces (within.trans suffix) (by omega)

/-! ## Rules and routines -/

variable {r : Rule}

theorem follow_ends (facing : p.Facing ahead) (avoids : (Grammar.parse r).Avoids Stalls p) :
    (p.run (follow plainly r)).1 ≠ .error .endless := by
  have rules : Rule.all.length = 104 := rfl
  have shallow := r.depth_le
  rw [run_follow]
  refine r.run_ends facing ?_ avoids
  rw [facing.nesting_eq, nestingOf, rules]
  omega

theorem governs_routine {routine : Routine α} {Q : Bool → α → Prop} (paced : routine.Ensures (pacing false depth) false false Q)
    (orderly : routine.Orderly) (facing : p.Facing ahead) (suffix : ahead <:+ start) :
    (Course.routine routine).Governs (exec plainly routine) p start depth := by
  refine ⟨fun a q ended => ?_, fun failure q ended => ?_, fun avoids => ?_, fun d r q reaches => ?_⟩
  · obtain ⟨o, -, arrives, -⟩ := Routine.Runs.arrives ended orderly facing
    exact ⟨o.ahead, arrives.moved.facing, arrives.within.ahead.trans suffix⟩
  · obtain ⟨o, gave, -, promise⟩ := Routine.Runs.arrives ended orderly facing
    exact (promise.start paced.let_through).failure failure gave
  · refine follows_follow.faithful orderly p ahead facing ?_
    exact paced.ends_here follows_follow (fun r p ahead facing _ avoids => follow_ends facing avoids)
      orderly facing (Nat.le_refl _) avoids
  · obtain ⟨later, faces, within, bound⟩ := Routine.Reaches.depth_le reaches orderly facing
      paced.let_through (.initial _)
    have short := suffix.length_le
    exact ⟨later, faces, within.trans suffix, by omega⟩

theorem governs_parse (shallow : r.depth < depth) (facing : p.Facing ahead) (suffix : ahead <:+ start) :
    (Course.routine (Grammar.parse r)).Governs (follow plainly r) p start depth := by
  have paced : (Grammar.parse r).Ensures (pacing false depth) false false fun _ _ => True :=
    ensures_parse (show (_ || decide (r.depth < depth)) = true by simpa using shallow) fun _ _ => trivial
  have governs := governs_routine paced (orderly_parse r) facing suffix
  have same : exec plainly (Grammar.parse r) = follow plainly r := bind_pure (follow plainly r)
  rw [same] at governs
  exact governs

theorem governs_look (facing : p.Facing ahead) (suffix : ahead <:+ start) :
    (step (look 0)).Governs (look 0) p start depth := by
  refine governs_step ?_ fun t q looked => ⟨ahead, (arrives_look facing (Int.le_refl 0) looked).moved.facing, suffix⟩
  rw [(does_look_zero facing).result]
  exact fun same => by cases same

/-! ## Compilation units -/

theorem orderly_leading : leadingAnnotations.Orderly := by
  refine orderly_bind orderly_annotationAt_zero fun starts => ?_
  exact orderly_ite (orderly_map (orderly_parse _)) (orderly_pure _)

variable {q : Parser}

/-- Giving up the marker that was set, or going back to it. -/
theorem governs_pop {o : Outcome α} (facing : p.Facing ahead) (tried : Arrives p.marked q ahead o)
    (reset : Bool) : (step (pop reset)).Governs (pop reset) q ahead depth := by
  refine governs_step ?_ fun _ q' popped => ?_
  · rw [run_pop_saved (tried.moved.saved_marked facing)]
    exact fun same => by cases same
  · cases reset with
    | false => exact ⟨o.ahead, (tried.on facing popped).moved.facing, tried.within.ahead⟩
    | true =>
      exact ⟨o.mark ahead, (tried.back facing popped (.ok ())).moved.facing, tried.within.mark⟩

theorem governs_packageName (annotations : Option (List Tree)) (first : Option Token) (facing : p.Facing ahead)
    (suffix : ahead <:+ start) : Governs (do
      let start ← step (look 0)
      let name ← routine (Grammar.parse .qualifiedIdentifier)
      discard <| routine (accept [";"])
      let package := Tree.make .packageDeclaration
        [(.annotations, .ofList? annotations), (.name, .text name), (.documentation, .ofText? (javadocOf first))]
      return package.placeAt (positionOf start)) (do
      let start ← look 0
      let name ← follow plainly .qualifiedIdentifier
      discard <| exec plainly (accept [";"])
      let package := Tree.make .packageDeclaration
        [(.annotations, .ofList? annotations), (.name, .text name), (.documentation, .ofText? (javadocOf first))]
      return package.placeAt (positionOf start)) p start 7 := by
  refine governs_then (governs_look facing suffix) fun start q later facing suffix => ?_
  refine governs_then (governs_parse (by decide) facing suffix) fun name q later facing suffix => ?_
  have accepts : (accept [";"]).Ensures (pacing false 7) false false fun _ _ => True := ensures_accept fun _ => trivial
  refine governs_then (governs_then (governs_routine accepts (orderly_accept _) facing suffix) ?_) ?_
  · exact fun _ q later facing suffix => governs_pure facing suffix _
  · exact fun _ q later facing suffix => governs_pure facing suffix _

/-- The package declaration. The marker that is set before the annotations is there to be given up, or to go back
to. -/
theorem governs_package (facing : p.Facing ahead) : packageCourse.Governs (packageDeclaration plainly) p ahead 7 := by
  have pushes : (step push).Governs push p ahead 7 := by
    refine governs_step (fun same => by cases same) fun _ q pushed => ⟨ahead, ?_, List.suffix_rfl⟩
    cases pushed
    exact facing.marked
  refine governs_bind pushes fun _ q pushed => ?_
  cases pushed
  refine governs_bind (governs_look facing.marked List.suffix_rfl) fun first q looked => ?_
  have arrived := arrives_look facing.marked (Int.le_refl 0) looked
  have faces := arrived.moved.facing
  refine governs_bind (governs_routine (leadingAnnotations_ensures rfl) orderly_leading faces List.suffix_rfl) fun annotations q read => ?_
  obtain ⟨o, -, further, -⟩ := Routine.Runs.arrives read orderly_leading faces
  have arrived := arrived.trans further
  have faces := arrived.moved.facing
  have tries : (tryAccept ["package"]).Ensures (pacing false 7) false false fun _ _ => True :=
    ensures_tryAccept trivial trivial
  refine governs_bind (governs_routine tries (orderly_tryAccept _) faces arrived.within.ahead) ?_
  intro found q tried
  obtain ⟨o', -, further, -⟩ := Routine.Runs.arrives tried (orderly_tryAccept _) faces
  have arrived := arrived.trans further
  cases found with
  | false =>
    refine governs_then (governs_pop facing arrived true) fun _ q later facing suffix => ?_
    exact governs_pure facing suffix _
  | true =>
    refine governs_then (governs_pop facing arrived false) fun _ q later facing suffix => ?_
    exact governs_packageName annotations first facing suffix

theorem governs_nextType (facing : p.Facing ahead) (suffix : ahead <:+ start) :
    nextTypeCourse.Governs (nextTypeDeclaration plainly) p start 7 := by
  have declares : (routine (Grammar.parse .typeDeclaration)).Governs (follow plainly .typeDeclaration) p start 7 :=
    governs_parse (by decide) facing suffix
  have arrives {result : Except ParseFailure (Option Tree)} {q : Parser}
      (ended : (Grammar.parse .typeDeclaration).Runs p result q) : ∃ later, q.Facing later ∧ later <:+ start := by
    obtain ⟨o, -, arrives, -⟩ := ended.arrives (orderly_parse _) facing
    exact ⟨o.ahead, arrives.moved.facing, arrives.within.ahead.trans suffix⟩
  have tells : (outcome (routine (Grammar.parse .typeDeclaration))).Governs
      (Parser.outcome (follow plainly .typeDeclaration)) p start 7 := by
    refine ⟨fun told q ended => ?_, fun failure q ended => ?_, fun avoids => ⟨_, declares.goes avoids, rfl⟩,
      declares.reached⟩
    · obtain ⟨result, ended, -⟩ := ended
      exact arrives ended
    · obtain ⟨_, -, same⟩ := ended
      cases same
  refine governs_bind tells fun told q ended => ?_
  obtain ⟨result, ended, same⟩ := ended
  cases same
  obtain ⟨later, facing, suffix⟩ := arrives ended
  cases told with
  | ok declaration => exact governs_pure facing suffix _
  | error failure =>
    have complains : (illegal "Unexpected end of input" : Routine (Option Tree)).Ensures (pacing false 7) false false
        fun _ _ => True := ensures_illegal _
    have unbounded := declares.unbounded failure q ended
    cases failure with
    | endOfInput => exact governs_routine complains (orderly_illegal _) facing suffix
    | endless => exact absurd rfl unbounded
    | _ => exact governs_step (fun same => by cases same) fun _ _ ran => by cases ran

/-- A type declaration that was read took a token. -/
theorem nextType_takes {declaration : Option Tree} (facing : p.Facing ahead)
    (ended : nextTypeCourse.ends p (.ok declaration) q) : ∃ left, q.Facing left ∧ left <:+ ahead ∧ left.length < ahead.length := by
  cases ended with
  | ok told rest =>
    rename_i p' result
    obtain ⟨_, ran, same⟩ := told
    cases same
    cases result with
    | ok x =>
      cases rest
      cases ran with
      | call followed rest =>
        cases rest
        obtain ⟨left, faces, within, -, took⟩ := followed.follows facing
        exact ⟨left, faces, within, took rfl⟩
    | error failure =>
      cases failure with
      | endOfInput =>
        cases rest with
        | look looked rest => cases rest
      | _ => cases rest

theorem governs_types (facing : p.Facing ahead) (suffix : ahead <:+ start) :
    typesCourse.Governs (typeDeclarations plainly) p start 7 := by
  have got : p.run get = (.ok p, p) := rfl
  have governs : typesCourse.Governs (do
      let read ← iterate (fun read => do
        match ← look 0 with
        | none => return (read, false)
        | some _ =>
          match ← nextTypeDeclaration plainly with
          | some declaration => return (declaration :: read, true)
          | none => return (read, true)) p.turns []
      return read.reverse) p start 7 := by
    refine governs_then (governs_loop ?_ ?_ p.turns [] facing suffix ?_) fun read q later facing suffix => ?_
    · intro read p later facing suffix
      refine governs_then (governs_look facing suffix) fun t q later facing suffix => ?_
      cases t with
      | none => exact governs_pure facing suffix _
      | some t =>
        refine governs_then (governs_nextType facing suffix) fun found q later facing suffix => ?_
        cases found <;> exact governs_pure facing suffix _
    · intro read read' p p' later facing ended
      cases ended with
      | ok looked rest =>
        rename_i q t
        have facing := (arrives_look facing (Int.le_refl 0) looked).moved.facing
        cases t with
        | none => cases rest
        | some t =>
          cases rest with
          | ok declared rest =>
            rename_i q' found
            obtain ⟨left, faces, within, took⟩ := nextType_takes facing declared
            cases found <;> cases rest <;> exact ⟨left, faces, within, took⟩
    · rw [facing.turns_eq]
      omega
    · exact governs_pure facing suffix _
  refine ⟨governs.leaves, governs.unbounded, fun avoids => ?_, governs.reached⟩
  have went := governs.goes avoids
  rw [typeDeclarations, run_bind, got]
  exact went

theorem governs_unit (facing : p.Facing ahead) : unitCourse.Governs (compilationUnit plainly) p ahead 8 := by
  have governs : Governs (do
      let package ← packageCourse
      let imports ← routine importDeclarations
      let types ← typesCourse
      return .make .compilationUnit [(.package, package), (.imports, .list imports), (.types, .list types)])
      (compilationUnit plainly) p ahead 7 := by
    refine governs_then (governs_package facing) fun package q later facing suffix => ?_
    refine governs_then (governs_routine (importDeclarations_ensures rfl) orderly_importDeclarations facing suffix) ?_
    intro imports q later facing suffix
    exact governs_then (governs_types facing suffix) fun types q later facing suffix => governs_pure facing suffix _
  refine ⟨governs.leaves, governs.unbounded, fun avoids => ?_, fun d r q reaches => ?_⟩
  · exact governs.goes fun d q reaches => avoids (d + 1) q ⟨d, rfl, reaches⟩
  · obtain ⟨d, rfl, reaches⟩ := reaches
    obtain ⟨later, faces, within, bound⟩ := governs.reached d r q reaches
    exact ⟨later, faces, within, by omega⟩

end

end Course

/-- **Parsing ends**, from any marker: without any bound on depth and turns, what is parsed ends with a value or a
failure, and so does the parser, unless it comes to a statement in a block in front of which it enters arguments of
an annotation that no later token closes. And whether it ends or not, the depth of the rules that it is following is
bounded by the tokens left, although attempts that fail go back to tokens that were read. -/
theorem Method.parses_to_an_end (m : Method) {p : Parser} {ahead : List Token} (facing : p.Facing ahead) :
    ((∀ d q later, m.course.reaches p d .blockStatement q → q.Facing later → ¬ EntersUnclosed later) →
      m.course.ends p (p.run m.action).1 (p.run m.action).2 ∧ (p.run m.action).1 ≠ .error .endless) ∧
    ∀ d r q, m.course.reaches p d r q →
      ∃ later, q.Facing later ∧ later <:+ ahead ∧ d + 8 * later.length ≤ 8 * (ahead.length + 1) := by
  have governs : m.course.Governs m.action p ahead 8 := by
    cases m with
    | unit => exact Course.governs_unit facing
    | rule r =>
      have shallow := r.depth_le
      exact Course.governs_parse (by omega) facing List.suffix_rfl
  refine ⟨fun closed => ?_, fun d r q reaches => ?_⟩
  · have went := governs.goes fun d q reaches ⟨later, faces, enters⟩ => closed d q later reaches faces enters
    refine ⟨went, fun endless => ?_⟩
    rw [endless] at went
    exact governs.unbounded _ _ went rfl
  · obtain ⟨later, faces, within, bound⟩ := governs.reached d r q reaches
    exact ⟨later, faces, within, by omega⟩

def annotatedBlock : List Token :=
  [⟨.separator, "\x7b", none, none⟩, ⟨.atSign, "@", none, none⟩, ⟨.identifier, "A", none, none⟩,
   ⟨.basicType, "int", none, none⟩, ⟨.identifier, "x", none, none⟩, ⟨.separator, ";", none, none⟩,
   ⟨.separator, "\x7d", none, none⟩]

/-- Where there are no parentheses at all, none is opened by arguments. -/
theorem Method.parses_to_an_end_block : (Method.rule .block).course.ends (ofTokens annotatedBlock)
        ((ofTokens annotatedBlock).run (Method.rule .block).action).1
        ((ofTokens annotatedBlock).run (Method.rule .block).action).2 ∧
      ((ofTokens annotatedBlock).run (Method.rule .block).action).1 ≠ .error .endless := by
  obtain ⟨ends, bounded⟩ := Method.parses_to_an_end (.rule .block) (facing_ofTokens annotatedBlock)
  refine ends fun d q later reaches faces enters => ?_
  obtain ⟨last, faces', suffix, -⟩ := bounded d .blockStatement q reaches
  rw [← faces.drop, faces'.drop] at enters
  obtain ⟨opening, after, within, opens, -⟩ := enters.unclosed.of_suffix suffix
  have absent : ∀ t ∈ annotatedBlock, t.value ≠ "(" := by decide
  exact absent opening (within.subset List.mem_cons_self) opens

end JavaSource
