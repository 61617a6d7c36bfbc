import JavaSource.Lexer.Basic
import JavaSource.Parser.Request
import JavaSource.Proofs.Parser.Simulation

/-!
# Tracing

A traced parser looks at the next token before each rule, counts how deep the rules nest, and prints a line where a
rule starts and one where it ends. `answers_traced` says that this shows in what is printed and in nothing else but the
token that was looked at last: every request has the same answer, and leaves the same place and the same markers, with
tracing and without it.

What is printed is bracketed: a rule that starts ends, at its own depth, and what is printed in between is deeper. This
holds whatever the end of the rule, so also for the rules of an attempt that fails and is recovered from.
-/

namespace JavaSource

open List

open Grammar

variable {name : String} {lines : List TraceLine}

namespace Parser

/-! ## The lines of a trace -/

inductive TraceLine where
  /-- A rule starts in front of a token. -/
  | entry (depth : Nat) (name : String) (next : Option Token)
  /-- A rule that started in front of a token ends, with a message if it failed. -/
  | exit (depth : Nat) (name : String) (start last : Option Token) (message : Text)

namespace TraceLine

def text : TraceLine → Text
  | entry depth name next => entryLine depth name next
  | exit depth name start last message => exitLine depth name start last message

def depth : TraceLine → Nat
  | entry depth _ _ => depth
  | exit depth .. => depth

end TraceLine

/-- Lines about rules of one depth, one after the other. Between the start and the end of a rule are the lines about
the rules that it follows, one deeper. -/
inductive Bracketed : Nat → List TraceLine → Prop where
  | nil {depth : Nat} : Bracketed depth []
  | call {depth : Nat} {name : String} {start last : Option Token} {message : Text} {inner rest : List TraceLine} :
    Bracketed (depth + 1) inner → Bracketed depth rest →
    Bracketed depth (.entry depth name start :: (inner ++ .exit depth name start last message :: rest))

/-- Behind each line where a rule starts, the first line that is not deeper is the one where this rule ends. -/
def Closed (lines : List TraceLine) : Prop :=
  ∀ before depth name start after, lines = before ++ .entry depth name start :: after →
    ∃ inner last message rest, after = inner ++ .exit depth name start last message :: rest ∧
      ∀ line ∈ inner, depth < line.depth

variable {message : Text}

namespace Bracketed

variable {depth : Nat} {lines : List TraceLine}

theorem append {first second : List TraceLine} (isFirst : Bracketed depth first) (isSecond : Bracketed depth second) :
    Bracketed depth (first ++ second) := by
  induction isFirst with
  | nil => exact isSecond
  | call inner _ _ ih =>
    rw [cons_append, append_assoc, cons_append]
    exact .call inner (ih isSecond)

theorem single {start last : Option Token} {inner : List TraceLine}
    (bracketed : Bracketed (depth + 1) inner) :
    Bracketed depth (.entry depth name start :: (inner ++ [.exit depth name start last message])) :=
  .call bracketed .nil

theorem le_depth (bracketed : Bracketed depth lines) : ∀ line ∈ lines, depth ≤ line.depth := by
  induction bracketed with
  | nil => exact forall_mem_nil _
  | call _ _ ihInner ihRest =>
    refine forall_mem_cons.2 ⟨Nat.le_refl _, forall_mem_append.2 ⟨?_, ?_⟩⟩
    · exact fun line mem => Nat.le_of_succ_le (ihInner line mem)
    · exact forall_mem_cons.2 ⟨Nat.le_refl _, ihRest⟩

/-- Bracketed lines are closed: by induction on the brackets, a start is that of the first rule, or it is in the lines
inside of the first rule, or behind them. -/
theorem closed (bracketed : Bracketed depth lines) : Closed lines := by
  induction bracketed with
  | nil =>
    intro before d name start after same
    exact absurd same.symm (by simp)
  | @call depth name start last message inner rest isInner isRest ihInner ihRest =>
    intro before d name' start' after same
    cases before with
    | nil =>
      obtain ⟨head, rfl⟩ := List.cons.inj same
      cases head
      exact ⟨inner, last, message, rest, rfl, fun line mem => isInner.le_depth line mem⟩
    | cons line before =>
      obtain ⟨rfl, behind⟩ := List.cons.inj same
      rcases append_eq_append_iff.1 behind with ⟨middle, rfl, tail⟩ | ⟨middle, rfl, tail⟩
      · -- behind the lines of the first rule
        cases middle with
        | nil => cases (List.cons.inj tail).1
        | cons line middle =>
          obtain ⟨-, rfl⟩ := List.cons.inj tail
          exact ihRest middle d name' start' after rfl
      · -- inside of the first rule, or at its end
        cases middle with
        | nil => cases (List.cons.inj tail).1
        | cons line middle =>
          rw [cons_append] at tail
          obtain ⟨rfl, rfl⟩ := List.cons.inj tail
          obtain ⟨inner', last', message', rest', rfl, deeper⟩ := ihInner before d name' start' middle rfl
          exact ⟨inner', last', message', _, by rw [append_assoc, cons_append], deeper⟩

end Bracketed

/-! ## What tracing changes -/

/-- The two parsers stand at the same place, with the same markers. What they delivered or showed last may differ, and
so may what concerns tracing. -/
structure Twins (p q : Parser) : Prop where
  values : q.tokens.values = p.tokens.values
  marker : q.tokens.marker = p.tokens.marker
  saved : q.tokens.saved = p.tokens.saved
  default : q.tokens.default = p.tokens.default

/-- What a traced parser keeps, and what it prints: bracketed lines, and none without debugging. -/
structure Tracks (q r : Parser) : Prop where
  debug : r.debug = q.debug
  depth : r.depth.getD 0 = q.depth.getD 0
  printed : ∃ lines, Bracketed (q.depth.getD 0) lines ∧ (q.debug = false → lines = []) ∧
    r.printed = (lines.map TraceLine.text).reverse ++ q.printed

/-- What the traced parser `q` comes to is what is come to without tracing. -/
structure Shows {α : Type} (q : Parser) (plain traced : Except ParseFailure α × Parser) : Prop where
  result : traced.1 = plain.1
  twins : Twins plain.2 traced.2
  tracks : Tracks q traced.2

/-- Parsers that are twins come to the same, the one without tracing and the other with it. -/
def Transparent {α : Type} (plain traced : ParseM α) : Prop :=
  ∀ p q : Parser, Twins p q → Shows q (p.run plain) (q.run traced)

namespace Twins

variable {p q : Parser}

theorem refl (p : Parser) : Twins p p := ⟨rfl, rfl, rfl, rfl⟩

theorem remaining (twins : Twins p q) : q.tokens.remaining = p.tokens.remaining := by
  rw [Cursor.remaining, Cursor.remaining, twins.values, twins.marker]

theorem turns (twins : Twins p q) : q.turns = p.turns := by rw [Parser.turns, Parser.turns, twins.remaining]

theorem nesting (twins : Twins p q) : q.nesting = p.nesting := by rw [Parser.nesting, Parser.nesting, twins.remaining]

theorem value? (twins : Twins p q) (i : Int) : q.tokens.value? i = p.tokens.value? i := by
  rw [Cursor.value?, Cursor.value?, twins.values]

end Twins

namespace Tracks

variable {q r s : Parser}

/-- Nothing that concerns tracing has changed. -/
theorem of_eq (debug : r.debug = q.debug) (depth : r.depth = q.depth) (printed : r.printed = q.printed) : Tracks q r
    :=
  ⟨debug, congrArg (·.getD 0) depth, [], .nil, fun _ => rfl, printed⟩

theorem trans (first : Tracks q r) (second : Tracks r s) : Tracks q s := by
  obtain ⟨lines, bracketed, silent, printed⟩ := first.printed
  obtain ⟨more, bracketed', silent', printed'⟩ := second.printed
  refine ⟨second.debug.trans first.debug, second.depth.trans first.depth, lines ++ more, ?_, ?_, ?_⟩
  · exact bracketed.append (first.depth ▸ bracketed')
  · intro off
    rw [silent off, silent' (first.debug.trans off)]
    rfl
  · rw [printed', printed, map_append, reverse_append, append_assoc]

end Tracks

section Combinators

variable {α β σ : Type}

theorem transparent_pure (a : α) : Transparent (pure a) (pure a) :=
  fun _ _ twins => ⟨rfl, twins, .of_eq rfl rfl rfl⟩

theorem transparent_throw (failure : ParseFailure) : Transparent (throw failure : ParseM α) (throw failure) :=
  fun _ _ twins => ⟨rfl, twins, .of_eq rfl rfl rfl⟩

variable {plain traced : ParseM α}

theorem transparent_bind {f g : α → ParseM β} (first : Transparent plain traced)
    (second : ∀ a, Transparent (f a) (g a)) : Transparent (plain >>= f) (traced >>= g) := by
  intro p q twins
  have before := first p q twins
  rw [run_bind, run_bind]
  rcases ran : p.run plain with ⟨result, p'⟩
  rcases ran' : q.run traced with ⟨result', q'⟩
  rw [ran, ran'] at before
  obtain rfl : result' = result := before.result
  cases result' with
  | error failure => exact ⟨rfl, before.twins, before.tracks⟩
  | ok a =>
    have later := second a p' q' before.twins
    exact ⟨later.result, later.twins, before.tracks.trans later.tracks⟩

theorem transparent_map (f : α → β) (transparent : Transparent plain traced) :
    Transparent (f <$> plain) (f <$> traced) := by
  rw [map_eq_pure_bind, map_eq_pure_bind]
  exact transparent_bind transparent fun a => transparent_pure (f a)

theorem transparent_get {f g : Parser → ParseM α}
    (transparent : ∀ p q, Twins p q → Shows q (p.run (f p)) (q.run (g q))) : Transparent (get >>= f) (get >>= g) := by
  intro p q twins
  rw [run_get, run_get]
  exact transparent p q twins

theorem transparent_outcome (transparent : Transparent plain traced) :
    Transparent (outcome plain) (outcome traced) := by
  intro p q twins
  have shows := transparent p q twins
  exact ⟨congrArg Except.ok shows.result, shows.twins, shows.tracks⟩

/-! ## Steps -/

theorem transparent_next : Transparent next next := by
  intro p q twins
  change Shows q (next p) (next q)
  unfold next Cursor.next
  rw [twins.values, twins.marker]
  cases p.tokens.values[p.tokens.marker]? with
  | none => exact ⟨rfl, twins, .of_eq rfl rfl rfl⟩
  | some t =>
    exact ⟨rfl, ⟨rfl, rfl, twins.saved, twins.default⟩, .of_eq rfl rfl rfl⟩

theorem transparent_look (i : Int) : Transparent (look i) (look i) := by
  intro p q twins
  change Shows q (look i p) (look i q)
  unfold look Cursor.look
  rw [twins.value?, twins.marker]
  cases p.tokens.value? (p.tokens.marker + i) with
  | none => exact ⟨congrArg Except.ok twins.default, twins, .of_eq rfl rfl rfl⟩
  | some t => exact ⟨rfl, ⟨twins.values, rfl, twins.saved, twins.default⟩, .of_eq rfl rfl rfl⟩

theorem transparent_push : Transparent push push := by
  intro p q twins
  refine ⟨rfl, ⟨twins.values, twins.marker, ?_, twins.default⟩, .of_eq rfl rfl rfl⟩
  exact congrArg₂ List.cons twins.marker twins.saved

theorem transparent_pop (reset : Bool) : Transparent (pop reset) (pop reset) := by
  intro p q twins
  change Shows q (pop reset p) (pop reset q)
  unfold pop Cursor.pop
  rw [twins.saved]
  cases p.tokens.saved with
  | nil => exact ⟨rfl, twins, .of_eq rfl rfl rfl⟩
  | cons m rest =>
    cases reset with
    | true => exact ⟨rfl, ⟨twins.values, rfl, rfl, twins.default⟩, .of_eq rfl rfl rfl⟩
    | false => exact ⟨rfl, ⟨twins.values, twins.marker, rfl, twins.default⟩, .of_eq rfl rfl rfl⟩

theorem transparent_attempt (transparent : Transparent plain traced) :
    Transparent (attempt plain) (attempt traced) := by
  refine transparent_bind transparent_push fun _ => transparent_bind (transparent_outcome transparent) fun result => ?_
  cases result with
  | ok a => exact transparent_bind (transparent_pop false) fun _ => transparent_pure _
  | error failure =>
    refine transparent_bind (transparent_pop true) fun _ => ?_
    cases failure.isIllegal with
    | true => exact transparent_pure _
    | false => exact transparent_throw failure

theorem transparent_iterate {plain traced : σ → ParseM (σ × Bool)}
    (transparent : ∀ s, Transparent (plain s) (traced s))
    (n : Nat) (s : σ) : Transparent (iterate plain n s) (iterate traced n s) := by
  induction n generalizing s with
  | zero => exact transparent_throw _
  | succ n ih =>
    refine transparent_bind (transparent s) fun (s, more) => ?_
    cases more with
    | true => exact ih s
    | false => exact transparent_pure s

/-- **A routine** comes to the same with tracing if the rules that it follows do. -/
theorem transparent_exec {plain traced : (r : Rule) → ParseM r.Result}
    (transparent : ∀ r, Transparent (plain r) (traced r))
    (routine : Routine α) : Transparent (routine.exec plain) (routine.exec traced) := by
  induction routine with
  | pure a => exact transparent_pure a
  | fail failure => exact transparent_throw failure
  | next k ih => exact transparent_bind transparent_next ih
  | look i k ih => exact transparent_bind (transparent_look i) ih
  | call r k ih => exact transparent_bind (transparent r) ih
  | attempt body k otherwise ihBody ihRest ihOtherwise =>
    rw [exec_attempt, exec_attempt]
    refine transparent_bind (transparent_attempt ihBody) fun found => ?_
    cases found with
    | some x => exact ihRest x
    | none => exact ihOtherwise
  | loop s body k ihBody ihRest =>
    refine transparent_get fun p q twins => ?_
    rw [twins.turns]
    exact transparent_bind (transparent_iterate ihBody p.turns s) ihRest p q twins

end Combinators

/-! ## Traced rules -/

section Traced

variable {α : Type} {name : String}

/-- The parser at the start of a traced action, after the first line is printed. -/
def entered (q : Parser) (name : String) : Parser :=
  { q with
    tokens := (q.tokens.look 0).2
    depth := some (q.depth.getD 0 + 1)
    printed := entryLine (q.depth.getD 0) name (q.tokens.look 0).1 :: q.printed }

theorem run_liftExcept (r : Parser) (result : Except ParseFailure α) :
    r.run (traced.liftExcept result) = (result, r) := by
  cases result <;> rfl

variable {q : Parser}

theorem run_traced_on (on : q.debug = true) (action : ParseM α) :
    q.run (traced name action) = (((q.entered name).run action).1, { ((q.entered name).run action).2 with
          depth := some (q.depth.getD 0)
          printed := exitLine (q.depth.getD 0) name (q.tokens.look 0).1 ((q.entered name).run action).2.tokens.last
            (outcomeMessage ((q.entered name).run action).1) :: ((q.entered name).run action).2.printed }) := by
  rw [traced, run_get]
  dsimp only
  rw [if_pos on]
  simp only [run_bind]
  exact run_liftExcept _ _

/-- A traced action with debugging off only counts the depth. -/
theorem run_traced_off (off : q.debug = false) (action : ParseM α) :
    q.run (traced name action) = ((run { q with depth := some (q.depth.getD 0 + 1) } action).1,
        { (run { q with depth := some (q.depth.getD 0 + 1) } action).2 with depth := some (q.depth.getD 0) }) := by
  rw [traced, run_get]
  dsimp only
  rw [if_neg (by rw [off]; exact Bool.false_ne_true)]
  simp only [run_bind]
  exact run_liftExcept _ _

variable {p : Parser}

theorem Twins.entered (twins : Twins p q) (name : String) : Twins p (q.entered name) := by
  have looked : (q.entered name).tokens = { q.tokens with last := (q.entered name).tokens.last } := by
    unfold Parser.entered Cursor.look
    split <;> rfl
  exact ⟨(congrArg Cursor.values looked).trans twins.values, (congrArg Cursor.marker looked).trans twins.marker,
    (congrArg Cursor.saved looked).trans twins.saved, (congrArg Cursor.default looked).trans twins.default⟩

/-- The lines about one rule, from its start to its end. -/
structure Frames (depth : Nat) (name : String) (message : Text) (lines : List TraceLine) : Prop where
  split : ∃ start last inner, Bracketed (depth + 1) inner ∧
    lines = .entry depth name start :: (inner ++ [.exit depth name start last message])

theorem Frames.bracketed {depth : Nat}
    (frames : Frames depth name message lines) : Bracketed depth lines := by
  obtain ⟨start, last, inner, bracketed, rfl⟩ := frames.split
  exact bracketed.single

/-- The lines that the parser `q` prints on the way to what a rule comes to: without debugging none, and with it one
frame, whose last line says how the rule ended. -/
structure Framed (q : Parser) (name : String) (ended : Except ParseFailure α × Parser) (lines : List TraceLine) :
    Prop where
  printed : ended.2.printed = (lines.map TraceLine.text).reverse ++ q.printed
  silent : q.debug = false → lines = []
  frames : q.debug = true → Frames (q.depth.getD 0) name (outcomeMessage ended.1) lines

theorem Framed.bracketed {ended : Except ParseFailure α × Parser}
    (framed : Framed q name ended lines) : Bracketed (q.depth.getD 0) lines := by
  cases debug : q.debug with
  | false =>
    rw [framed.silent debug]
    exact .nil
  | true => exact (framed.frames debug).bracketed

theorem framed_traced (name : String) {plain action : ParseM α} (transparent : Transparent plain action)
    (twins : Twins p q) : ∃ lines, Framed q name (q.run (traced name action)) lines := by
  cases debug : q.debug with
  | false =>
    have shows := transparent p { q with depth := some (q.depth.getD 0 + 1) }
      ⟨twins.values, twins.marker, twins.saved, twins.default⟩
    obtain ⟨lines, -, silent, printed⟩ := shows.tracks.printed
    rw [run_traced_off debug]
    refine ⟨[], ?_, fun _ => rfl, fun on => absurd (debug.symm.trans on) Bool.false_ne_true⟩
    rw [silent debug] at printed
    exact printed
  | true =>
    have shows := transparent p (q.entered name) (twins.entered name)
    obtain ⟨inner, bracketed, -, printed⟩ := shows.tracks.printed
    rw [run_traced_on debug]
    refine ⟨_, ?_, fun off => absurd (off.symm.trans debug) Bool.false_ne_true, fun _ => ⟨(q.tokens.look 0).1,
      ((q.entered name).run action).2.tokens.last, inner, bracketed, rfl⟩⟩
    dsimp only
    rw [printed, map_cons, map_append, map_singleton, reverse_cons, reverse_append,
      reverse_singleton, append_assoc, append_assoc]
    rfl

/-- A traced action comes to what the action comes to. -/
theorem transparent_traced (name : String) {plain action : ParseM α} (transparent : Transparent plain action) :
    Transparent plain (traced name action) := by
  intro p q twins
  obtain ⟨lines, framed⟩ := framed_traced name transparent twins
  have printed := framed.printed
  cases debug : q.debug with
  | false =>
    have shows := transparent p { q with depth := some (q.depth.getD 0 + 1) }
      ⟨twins.values, twins.marker, twins.saved, twins.default⟩
    rw [run_traced_off debug] at printed ⊢
    refine ⟨shows.result, ?_, shows.tracks.debug, rfl, lines, framed.bracketed, framed.silent, printed⟩
    exact ⟨shows.twins.values, shows.twins.marker, shows.twins.saved, shows.twins.default⟩
  | true =>
    have shows := transparent p (q.entered name) (twins.entered name)
    rw [run_traced_on debug] at printed ⊢
    refine ⟨shows.result, ?_, shows.tracks.debug, rfl, lines, framed.bracketed, framed.silent, printed⟩
    exact ⟨shows.twins.values, shows.twins.marker, shows.twins.saved, shows.twins.default⟩

theorem transparent_run (n : Nat) (r : Rule) : Transparent (r.run plainly n) (r.run traced n) := by
  induction n generalizing r with
  | zero => exact transparent_throw _
  | succ n ih => exact transparent_traced r.name (transparent_exec ih r.body)

/-- **A rule** comes to the same with tracing. -/
theorem transparent_follow (r : Rule) : Transparent (follow plainly r) (follow traced r) := by
  refine transparent_get fun p q twins => ?_
  rw [twins.nesting]
  exact transparent_run p.nesting r p q twins

theorem transparent_routine (routine : Routine α) : Transparent (exec plainly routine) (exec traced routine) :=
  transparent_exec transparent_follow routine

end Traced

/-! ## Compilation units -/

theorem transparent_package : Transparent (packageDeclaration plainly) (packageDeclaration traced) := by
  refine transparent_bind transparent_push fun _ => transparent_bind (transparent_look 0) fun first => ?_
  refine transparent_bind (transparent_routine leadingAnnotations) fun annotations => ?_
  refine transparent_bind (transparent_routine _) fun found => ?_
  cases found with
  | true =>
    refine transparent_bind (transparent_pop false) fun _ => transparent_bind (transparent_look 0) fun start => ?_
    refine transparent_bind (transparent_follow .qualifiedIdentifier) fun name => ?_
    exact transparent_bind (transparent_map _ (transparent_routine _)) fun _ => transparent_pure _
  | false => exact transparent_bind (transparent_pop true) fun _ => transparent_pure _

theorem transparent_nextType : Transparent (nextTypeDeclaration plainly) (nextTypeDeclaration traced) := by
  refine transparent_bind (transparent_outcome (transparent_follow .typeDeclaration)) fun result => ?_
  split
  · exact transparent_pure _
  · exact transparent_routine _
  · exact transparent_throw _

theorem transparent_types : Transparent (typeDeclarations plainly) (typeDeclarations traced) := by
  refine transparent_get fun p q twins => ?_
  rw [twins.turns]
  refine transparent_bind (transparent_iterate (fun read => ?_) p.turns []) (fun _ => transparent_pure _) p q twins
  refine transparent_bind (transparent_look 0) fun t => ?_
  cases t with
  | none => exact transparent_pure _
  | some t =>
    refine transparent_bind transparent_nextType fun found => ?_
    cases found with
    | none => exact transparent_pure _
    | some declaration => exact transparent_pure _

/-- What a compilation unit is read by, apart from the lines about itself. -/
def unitBody (wrap : Wrapper) : ParseM Tree := do
  let package ← packageDeclaration wrap
  let imports ← exec wrap importDeclarations
  let types ← typeDeclarations wrap
  return .make .compilationUnit [(.package, package), (.imports, .list imports), (.types, .list types)]

theorem compilationUnit_wrap (wrap : Wrapper) : compilationUnit wrap = wrap "parse_compilation_unit" (unitBody wrap)
    := rfl

theorem transparent_unitBody : Transparent (unitBody plainly) (unitBody traced) :=
  transparent_bind transparent_package fun _ => transparent_bind (transparent_routine _) fun _ =>
    transparent_bind transparent_types fun _ => transparent_pure _

/-! ## Requests -/

theorem run_map {α β : Type} (f : α → β) (p : Parser) (action : ParseM α) :
    p.run (f <$> action) = ((p.run action).1.map f, (p.run action).2) := by
  rw [map_eq_pure_bind, run_bind]
  rcases p.run action with ⟨failure | a, q⟩ <;> rfl

theorem outcomeMessage_map {α β : Type} (f : α → β) (result : Except ParseFailure α) :
    outcomeMessage (result.map f) = outcomeMessage result := by
  cases result <;> rfl

end Parser

/-- The name of what a request asks to parse, if it asks for that. -/
def Request.method? : Request → Option String
  | unit => some "parse_compilation_unit"
  | rule r => some r.name
  | _ => none

namespace Parser

/-- What a request makes a traced parser print, in the order of printing. -/
structure Prints (depth : Nat) (request : Request) (answer : Answer) (lines : List TraceLine) : Prop where
  printed : answer.parser.printed.reverse = lines.map TraceLine.text
  bracketed : Bracketed depth lines
  closed : Closed lines
  silent : answer.parser.debug = false → lines = []
  /-- With debugging on there is one frame for what is parsed, and its last line tells how that ended. -/
  frames : ∀ name ∈ request.method?, answer.parser.debug = true →
    Frames depth name (outcomeMessage answer.result) lines

/-- A traced parser answers as the other one does, stands where it stands, and is as deep as before. -/
structure Agrees (depth : Nat) (request : Request) (plain traced : Answer) : Prop where
  result : traced.result = plain.result
  twins : Twins plain.parser traced.parser
  kept : traced.parser.depth.getD 0 = depth
  prints : ∃ lines, Prints depth request traced lines

variable {request : Request} {p q : Parser}

/-- Requests other than those about the parser itself come to the same with tracing. -/
theorem transparent_perform (notLast : request ≠ .last) (notDebug : ∀ on, request ≠ .setDebug on) :
    Transparent (perform plainly request) (perform traced request) := by
  cases request with
  | unit =>
    rw [perform, perform, compilationUnit_wrap, compilationUnit_wrap]
    exact transparent_traced _ transparent_unitBody
  | rule r => exact transparent_map _ (transparent_follow r)
  | accept patterns => exact transparent_map _ (transparent_routine _)
  | wouldAccept patterns => exact transparent_map _ (transparent_routine _)
  | tryAccept patterns => exact transparent_map _ (transparent_routine _)
  | illegal description => exact transparent_routine _
  | annotationAt i => exact transparent_map _ (transparent_routine _)
  | annotationDeclarationAt i => exact transparent_map _ (transparent_routine _)
  | operation parts start =>
    intro p q twins
    change Shows q (p.run (liftM (buildOperation start parts))) (q.run (liftM (buildOperation start parts)))
    cases buildOperation start parts with
    | error failure => exact ⟨rfl, twins, .of_eq rfl rfl rfl⟩
    | ok tree => exact ⟨rfl, twins, .of_eq rfl rfl rfl⟩
  | setDebug on => exact absurd rfl (notDebug on)
  | next => exact transparent_map _ transparent_next
  | look i => exact transparent_map _ (transparent_look i)
  | last => exact absurd rfl notLast
  | push => exact transparent_bind transparent_push fun _ => transparent_pure _
  | pop reset => exact transparent_bind (transparent_pop reset) fun _ => transparent_pure _
  | refused failure => exact transparent_throw failure

/-- What is printed where something is parsed. -/
theorem framed_method (method : request.method? = some name)
    (twins : Twins p q) : ∃ lines, Framed q name (q.run (perform traced request)) lines := by
  cases request with
  | unit =>
    cases method
    rw [perform, compilationUnit_wrap]
    exact framed_traced _ transparent_unitBody twins
  | rule r =>
    cases method
    obtain ⟨n, nesting⟩ : ∃ n, q.nesting = n + 1 := ⟨_, rfl⟩
    rw [perform, run_map, follow, run_get, nesting]
    obtain ⟨lines, framed⟩ := framed_traced r.name (transparent_exec (transparent_run n) r.body) twins
    exact ⟨lines, framed.printed, framed.silent, by rw [outcomeMessage_map]; exact framed.frames⟩
  | _ => cases method

/-- What a request comes to agrees, if its lines are known. -/
theorem Shows.agrees
    (shows : Shows q (p.run (perform plainly request)) (q.run (perform traced request))) (empty : q.printed = [])
    (bracketed : Bracketed (q.depth.getD 0) lines) (silent : q.debug = false → lines = [])
    (printed : (q.run (perform traced request)).2.printed = (lines.map TraceLine.text).reverse ++ q.printed)
    (frames : ∀ name ∈ request.method?, q.debug = true →
      Frames (q.depth.getD 0) name (outcomeMessage (q.run (perform traced request)).1) lines) :
    Agrees (q.depth.getD 0) request ⟨(p.run (perform plainly request)).1, (p.run (perform plainly request)).2⟩
      ⟨(q.run (perform traced request)).1, (q.run (perform traced request)).2⟩ := by
  have debug := shows.tracks.debug
  refine ⟨shows.result, shows.twins, shows.tracks.depth, lines, ?_, bracketed, bracketed.closed, ?_, ?_⟩
  · rw [printed, empty, append_nil, reverse_reverse]
  · exact fun off => silent (debug.symm.trans off)
  · exact fun name named on => frames name named (debug.symm.trans on)

/-- **One request**: the traced parser agrees with the other one. -/
theorem agrees_perform (notLast : request ≠ .last) (twins : Twins p q) (empty : q.printed = []) :
    Agrees (q.depth.getD 0) request ⟨(p.run (perform plainly request)).1, (p.run (perform plainly request)).2⟩
      ⟨(q.run (perform traced request)).1, (q.run (perform traced request)).2⟩ := by
  by_cases sets : ∃ on, request = .setDebug on
  · obtain ⟨on, rfl⟩ := sets
    refine ⟨rfl, ⟨twins.values, twins.marker, twins.saved, twins.default⟩, rfl, [], ?_, .nil, ?_, fun _ => rfl, ?_⟩
    · exact congrArg List.reverse empty
    · exact (@Bracketed.nil 0).closed
    · intro name method
      cases method
  · have shows := transparent_perform notLast (fun on same => sets ⟨on, same⟩) p q twins
    cases method : request.method? with
    | none =>
      obtain ⟨lines, bracketed, silent, printed⟩ := shows.tracks.printed
      refine shows.agrees empty bracketed silent printed ?_
      intro name named
      cases method.symm.trans named
    | some name =>
      obtain ⟨lines, framed⟩ := framed_method method twins
      refine shows.agrees empty framed.bracketed framed.silent framed.printed ?_
      intro name' named
      cases method.symm.trans named
      exact framed.frames

/-- Requests made one after the other: by induction on them, each finds parsers that are twins, and as deep as at the
start. -/
theorem agrees_answers {requests : List Request} (notLast : Request.last ∉ requests) (twins : Twins p q)
    {k : Nat} (asked : requests[k]? = some request) : ∃ plain traced, (answers plainly p requests)[k]? = some plain ∧
      (answers Parser.traced q requests)[k]? = some traced ∧ Agrees (q.depth.getD 0) request plain traced := by
  induction requests generalizing p q k with
  | nil => cases asked
  | cons first requests ih =>
    rw [mem_cons, not_or] at notLast
    have agrees : Agrees (q.depth.getD 0) first _ _ := agrees_perform (Ne.symm notLast.1)
      (p := { p with printed := [] }) (q := { q with printed := [] })
      ⟨twins.values, twins.marker, twins.saved, twins.default⟩ rfl
    cases k with
    | zero =>
      cases asked
      exact ⟨_, _, rfl, rfl, agrees⟩
    | succ k =>
      obtain ⟨plain, traced, found, found', later⟩ := ih notLast.2 agrees.twins asked
      refine ⟨plain, traced, found, found', ?_⟩
      rw [agrees.kept] at later
      exact later

/-- **Tracing.** Each request has the same answer with tracing and without it, and leaves the parser at the same place
and with the same markers. The depth is what it was. The lines that are printed are bracketed: what is parsed has one
frame, and behind each line where a rule starts the first line that is not deeper is the one where this rule ends.
Without debugging nothing is printed. -/
theorem answers_traced (p : Parser) (requests : List Request) (notLast : Request.last ∉ requests) (k : Nat)
    (request : Request) (asked : requests[k]? = some request) :
    ∃ plain traced, (answers plainly p requests)[k]? = some plain ∧
      (answers Parser.traced p requests)[k]? = some traced ∧ Agrees (p.depth.getD 0) request plain traced :=
  agrees_answers notLast (.refl p) asked

/-- A parser in front of a sum in parentheses. Both attempts to read something else in its place fail. -/
def atSum : Parser := .ofTokens (tokenize .strict (.text "(a+b);")).tokens

/-- Debugging is switched on, the sum is read, and then a block is asked for that is not there. -/
def sumRequests : List Request := [.setDebug true, .rule .expression, .rule .block]

theorem answers_traced_sum : Request.last ∉ sumRequests ∧
      (∀ (k : Nat) (request : Request), sumRequests[k]? = some request →
        ∃ plain traced, (answers plainly atSum sumRequests)[k]? = some plain ∧
          (answers Parser.traced atSum sumRequests)[k]? = some traced ∧
          Agrees (atSum.depth.getD 0) request plain traced) ∧
      (answers Parser.traced atSum sumRequests).map (·.parser.printed.length) = [0, 62, 2] := by
  have notLast : Request.last ∉ sumRequests := by simp [sumRequests]
  exact ⟨notLast, fun k request asked => answers_traced atSum sumRequests notLast k request asked, by decide +kernel⟩

end Parser

end JavaSource
