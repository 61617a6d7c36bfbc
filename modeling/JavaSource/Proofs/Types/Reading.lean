import JavaSource.Proofs.Lexer.Names
import JavaSource.Proofs.Parser.Given
import JavaSource.Proofs.Parser.Simulation
import JavaSource.Proofs.Types.Syntax

/-!
# Nothing but types is read as a type

Where the rule for types gives a tree, it is the tree of a type, and the tokens that were taken have the values
to which this type flattens: `gives_type`. Dotted types, their arguments and each single argument follow one
another to the depth to which rules nest, so the three are shown together, by induction on this depth.
-/

namespace JavaSource.Grammar

open List Text
open Rule (readWithin)

open Lexer

section

variable {follow : Reader} {ahead rest : List Token}

/-! ## Dimensions -/

def pair : List Text := [Text.ofString "[", Text.ofString "]"]

theorem brackets_succ (n : Nat) : brackets (n + 1) = pair ++ brackets n := rfl

theorem read_pair (ahead : List Token) : (tryAccept ["[", "]"]).read follow ahead =
      { result := .ok (startsWith pair ahead),
        ahead := if startsWith pair ahead then ahead.drop 2 else ahead } :=
  @read_tryAccept_words follow pair (cons_ne_nil _ _) ahead

theorem read_dimensionTurn (acc : List Unit) (ahead : List Token) : Routine.read follow (do
      if ← tryAccept ["[", "]"] then (pure () : Routine Unit) >>= fun x => pure (x :: acc, true)
      else return (acc, false)) ahead =
      if startsWith pair ahead then .ok (() :: acc, true) (ahead.drop 2)
      else .ok (acc, false) ahead := by
  rw [Routine.read_bind_ok (read_pair ..)]
  cases startsWith pair ahead <;> rfl

variable {n : Nat}

section

variable {step : List Unit → List Token → Outcome (List Unit × Bool)}
  (turn : ∀ acc ahead, step acc ahead =
    if startsWith pair ahead then .ok (() :: acc, true) (ahead.drop 2)
    else .ok (acc, false) ahead)

include turn

variable {k : Nat}

theorem repeated_dimensions (enough : n < k) (spells : Spells (brackets n) ahead rest)
    (ended : startsWith pair rest = false) (acc : List Unit) :
    repeated step k acc ahead = .ok (List.replicate n () ++ acc) rest := by
  induction n generalizing k acc ahead with
  | zero =>
    obtain ⟨k, rfl⟩ : ∃ m, k = m + 1 := ⟨k - 1, by omega⟩
    cases spells.eq_of_nil
    exact repeated_done (by rw [turn, ended]; rfl) k
  | succ n ih =>
    obtain ⟨k, rfl⟩ : ∃ m, k = m + 1 := ⟨k - 1, by omega⟩
    rw [brackets_succ] at spells
    obtain ⟨mid, first, later⟩ := spells.of_append
    have goes : step acc ahead = .ok (() :: acc, true) mid := by
      rw [turn, first.startsWith.1, ← first.startsWith.2]
      rfl
    rw [repeated_more goes k, ih (Nat.lt_of_succ_lt_succ enough) later, replicate_succ', append_assoc, singleton_append]

theorem gives_repeated_dimensions {acc pairs : List Unit}
    (gives : (repeated step k acc ahead).Gives pairs rest) :
    ∃ n, pairs.length = n + acc.length ∧ Spells (brackets n) ahead rest := by
  induction k generalizing acc ahead with
  | zero => cases gives.result
  | succ k ih =>
    obtain ⟨⟨acc', more⟩, mid, first, goes⟩ := gives_andThen gives
    rw [turn] at first
    cases starts : startsWith pair ahead with
    | true =>
      rw [starts, if_pos rfl] at first
      cases first.result
      cases first.ahead
      obtain ⟨n, length, spells⟩ := ih goes
      refine ⟨n + 1, by rw [length, length_cons]; omega, ?_⟩
      rw [brackets_succ]
      exact (spells_of_startsWith starts).append spells
    | false =>
      rw [starts] at first
      cases first.result
      cases first.ahead
      cases goes.result
      cases goes.ahead
      exact ⟨0, (Nat.zero_add _).symm, .nil _⟩

end

/-- Dimensions are read from their brackets, if no more follow. -/
theorem read_dimensions (spells : Spells (brackets n) ahead rest) (ended : startsWith pair rest = false) :
    Body.arrayDimension.read follow ahead = .ok n rest := by
  have length : (brackets n).length = 2 * n := by
    clear spells
    induction n with
    | zero => rfl
    | succ n ih => rw [brackets_succ, length_append, ih, pair]; simp; omega
  have enough : n < ahead.length + 2 := by
    have := spells.length_eq
    omega
  rw [Body.arrayDimension, whileTrue, Routine.read_monad_bind, Routine.read,
    repeated_dimensions read_dimensionTurn enough spells ended, Outcome.andThen_pure, Routine.read,
    Outcome.andThen_pure, append_nil, Routine.read_monad_pure, length_reverse, length_replicate]

theorem gives_dimensions (gives : (Body.arrayDimension.read follow ahead).Gives n rest) :
    Spells (brackets n) ahead rest := by
  obtain ⟨pairs, rfl, loops⟩ := gives_made gives
  rw [whileTrue, Routine.read] at loops
  obtain ⟨pairs', mid, turns, done⟩ := gives_andThen loops
  obtain ⟨rfl, rfl⟩ := gives_pure done
  obtain ⟨n, length, spells⟩ := gives_repeated_dimensions read_dimensionTurn turns
  rw [length_reverse, length, length_nil]
  exact spells

end

/-! ## Names and primitive types -/

variable {t : Token}

theorem cls_of_identifier (is : Pattern.fits (some t) (.cls .identifier) = true) :
    t.cls = .identifier := by
  change t.cls.isA .identifier = true at is
  revert is
  cases t.cls <;> decide

theorem cls_of_basicType (is : Pattern.fits (some t) (.cls .basicType) = true) : t.cls = .basicType := by
  change t.cls.isA .basicType = true at is
  revert is
  cases t.cls <;> decide

section

variable {n : Nat} {ahead rest : List Token}

theorem gives_name {word : Text} (worded : ∀ t ∈ ahead, t.Worded)
    (gives : (Rule.identifier.readWithin n ahead).Gives word rest) :
    ∃ name : Name, word = name.text ∧ Spells [name.text] ahead rest := by
  obtain ⟨n, rfl, gives⟩ := gives_rule gives
  obtain ⟨t, rfl, fits, rfl⟩ := gives_accept gives
  have isName := (worded t mem_cons_self).identifier.1 (cls_of_identifier fits)
  exact ⟨⟨t.value, isName⟩, rfl, .one rfl⟩

theorem gives_primitive {type : Tree} (worded : ∀ t ∈ ahead, t.Worded)
    (gives : (Rule.basicType.readWithin n ahead).Gives type rest) :
    ∃ name : Primitive, type = .make .basicType [(.name, .text name.text)] ∧ Spells [name.text] ahead rest := by
  obtain ⟨n, rfl, gives⟩ := gives_rule gives
  obtain ⟨word, rfl, accepted⟩ := gives_made gives
  obtain ⟨t, rfl, fits, rfl⟩ := gives_accept accepted
  have mem := (worded t mem_cons_self).basicType.1 (cls_of_basicType fits)
  exact ⟨⟨t.value, mem⟩, rfl, .one rfl⟩

end

/-! ## Trees with dimensions -/

theorem Primitive.put_dimensions (name : Primitive) (n : Nat) :
    (Tree.make .basicType [(.name, .text name.text)]).put .dimensions (.dimensions n) = name.tree n := rfl

theorem Primitive.addDimensions (name : Primitive) (n : Nat) :
    Grammar.addDimensions (name.tree 1) (.dimensions n) = name.tree (n + 1) := rfl

theorem Reference.put_dimensions (type : Reference) (dimensions further : Tree) :
    (type.tree dimensions).put .dimensions further = type.tree further := by
  cases type <;> rfl

theorem Reference.addDimensions (type : Reference) (n : Nat) :
    Grammar.addDimensions (type.tree (.dimensions 0)) (.dimensions n) = type.tree (.dimensions n) := by
  cases type <;> rfl

/-! ## What is read is a type -/

section

variable {n : Nat}

/-- Arguments in angle brackets are read as such, with rules nested at most `n` deep. -/
def ArgumentsGiven (n : Nat) : Prop :=
  ∀ ahead trees rest, (∀ t ∈ ahead, t.Worded) → (Rule.typeArguments.readWithin n ahead).Gives trees rest →
    ∃ items : Items, trees = items.trees ∧ Spells (Arguments.angle items).flatten ahead rest

/-- An argument is read as such, with rules nested at most `n` deep. -/
def ArgumentGiven (n : Nat) : Prop :=
  ∀ ahead tree rest, (∀ t ∈ ahead, t.Worded) → (Rule.typeArgument.readWithin n ahead).Gives tree rest →
    ∃ argument : Argument, tree = argument.tree ∧ Spells argument.flatten ahead rest

/-- Dotted types are read as such, with rules nested at most `n` deep. -/
def ReferenceGiven (n : Nat) : Prop :=
  ∀ ahead tree rest, (∀ t ∈ ahead, t.Worded) → (Rule.referenceType.readWithin n ahead).Gives tree rest →
    ∃ type : Reference, tree = type.tree .null ∧ Spells type.flatten ahead rest

def Arguments.trees? : Arguments → Option (List Tree)
  | .none => Option.none
  | .angle items => some items.trees

theorem Arguments.ofList?_trees? (arguments : Arguments) : Tree.ofList? arguments.trees? = arguments.tree := by
  cases arguments <;> rfl

def segment : Routine (Text × Option (List Tree)) := do
  let name ← parse .identifier
  if ← wouldAccept ["<"] then
    let arguments ← parse .typeArguments
    return (name, some arguments)
  else return (name, none)

variable {ahead rest : List Token}

theorem gives_segment {found : Text × Option (List Tree)} (given : ArgumentsGiven n)
    (worded : ∀ t ∈ ahead, t.Worded) (gives : (segment.read (readWithin n) ahead).Gives found rest) :
    ∃ (name : Name) (arguments : Arguments), found = (name.text, arguments.trees?) ∧
      Spells (name.text :: arguments.flatten) ahead rest := by
  obtain ⟨word, mid, named, goes⟩ := gives_bind gives
  obtain ⟨name, rfl, spells⟩ := gives_name worded (gives_parse named)
  rcases gives_ifThere [ofString "<"] (by decide) goes with ⟨-, goes⟩ | ⟨-, goes⟩
  · obtain ⟨trees, rfl, args⟩ := gives_made goes
    obtain ⟨items, rfl, spelled⟩ :=
      given mid trees _ (fun t mem => worded t (spells.suffix.subset mem)) (gives_parse args)
    exact ⟨name, .angle items, rfl, spells.append spelled⟩
  · obtain ⟨rfl, rfl⟩ := gives_pure goes
    exact ⟨name, .none, rfl, spells⟩

theorem gives_separated {α : Type} {follow : Reader} {item : Routine α}
    {separator : Text} {x : α} {more : Bool} (gives : (Routine.read follow (do
      let x ← item
      let more ← tryAccept [.word separator]
      return (x, more)) ahead).Gives (x, more) rest) : ∃ mid, (item.read follow ahead).Gives x mid ∧
      ((more = true ∧ Spells [separator] mid rest) ∨ (more = false ∧ rest = mid)) := by
  obtain ⟨y, mid, first, goes⟩ := gives_bind gives
  obtain ⟨b, same, tried⟩ := gives_made goes
  cases same
  rcases @gives_tryAccept follow _ _ [separator] (cons_ne_nil _ _) _ tried with
    ⟨rfl, spells⟩ | ⟨rfl, rfl, -⟩
  · exact ⟨mid, first, .inl ⟨rfl, spells⟩⟩
  · exact ⟨_, first, .inr ⟨rfl, rfl⟩⟩

theorem gives_reference (given : ArgumentsGiven n) : ReferenceGiven (n + 1) := by
  intro ahead tree rest worded gives
  obtain ⟨segments, mid, repeats, done⟩ := gives_bind gives
  obtain ⟨rfl, rfl⟩ := gives_pure done
  have series := gives_many repeats
  clear gives done repeats
  induction series with
  | last here =>
    obtain ⟨mid, segmented, more | ⟨-, rfl⟩⟩ := gives_separated here
    · cases more.1
    · obtain ⟨name, arguments, rfl, spells⟩ := gives_segment given worded segmented
      refine ⟨.last name arguments, ?_, spells⟩
      rw [Body.segmentsType, arguments.ofList?_trees?]
      rfl
  | more here series ih =>
    obtain ⟨mid, segmented, ⟨-, dot⟩ | more⟩ := gives_separated here
    · obtain ⟨name, arguments, rfl, spells⟩ := gives_segment given worded segmented
      obtain ⟨sub, sub_eq, later⟩ := ih fun t mem =>
        worded t (spells.suffix.subset (dot.suffix.subset mem))
      refine ⟨.dot name arguments sub, ?_, spells.append (dot.append later)⟩
      rw [Body.segmentsType, arguments.ofList?_trees?, sub_eq]
      rfl
    · cases more.1

theorem gives_arrayDimension {count : Nat}
    (gives : (Rule.arrayDimension.readWithin n ahead).Gives count rest) : Spells (brackets count) ahead rest := by
  obtain ⟨n, rfl, gives⟩ := gives_rule gives
  exact gives_dimensions gives

variable {tree : Tree}

theorem gives_argumentType (given : ReferenceGiven n) (worded : ∀ t ∈ ahead, t.Worded)
    (gives : (Body.argumentType.read (readWithin n) ahead).Gives tree rest) :
    (∃ (name : Primitive) (further : Nat), tree = name.tree (further + 1) ∧
      Spells (name.text :: brackets (further + 1)) ahead rest) ∨
    (∃ (type : Reference) (dimensions : Nat), tree = type.tree (.dimensions dimensions) ∧
      Spells (type.flatten ++ brackets dimensions) ahead rest) := by
  obtain ⟨test, mid, tested, goes⟩ := gives_bind gives
  obtain ⟨rfl, rfl⟩ := gives_wouldAccept tested
  cases basic : Pattern.fits mid[0]? (.cls .basicType) with
  | true =>
    rw [basic] at goes
    obtain ⟨type, later, typed, goes⟩ := gives_bind goes
    obtain ⟨name, rfl, named⟩ := gives_primitive worded (gives_parse typed)
    obtain ⟨later', bracket, goes⟩ := gives_words pair goes
    obtain ⟨type, _, put, further⟩ := gives_bind goes
    obtain ⟨rfl, rfl⟩ := gives_pure put
    obtain ⟨count, rfl, counted⟩ := gives_made further
    have dimensions := gives_arrayDimension (gives_parse counted)
    exact .inl ⟨name, count, name.addDimensions count, named.append (bracket.append dimensions)⟩
  | false =>
    rw [basic] at goes
    obtain ⟨type, later, typed, goes⟩ := gives_bind goes
    obtain ⟨type, rfl, spells⟩ := given _ _ _ worded (gives_parse typed)
    obtain ⟨type', _, put, further⟩ := gives_bind goes
    obtain ⟨rfl, rfl⟩ := gives_pure put
    obtain ⟨count, rfl, counted⟩ := gives_made further
    have dimensions := gives_arrayDimension (gives_parse counted)
    rw [type.put_dimensions, type.addDimensions]
    exact .inr ⟨type, count, rfl, spells.append dimensions⟩

theorem gives_argument (given : ReferenceGiven n) : ArgumentGiven (n + 1) := by
  intro ahead tree rest worded gives
  -- What comes behind the words for a bound, if there are any.
  have typed (bound : Option Bound) {mid : List Token} (words : Spells (boundWords bound) ahead mid)
      (gives : (Routine.read (readWithin n) (do
        let type ← Body.argumentType
        return .make .typeArgument [(.type, type), (.patternType, boundPattern bound)]) mid).Gives tree rest) :
      ∃ argument : Argument, tree = argument.tree ∧ Spells argument.flatten ahead rest := by
    obtain ⟨type, rfl, typed⟩ := gives_made gives
    rcases gives_argumentType given (fun t mem => worded t (words.suffix.subset mem)) typed with
      ⟨name, further, rfl, spells⟩ | ⟨type, dimensions, rfl, spells⟩
    · exact ⟨.array bound name further, rfl, words.append spells⟩
    · exact ⟨.reference bound type dimensions, rfl, words.append spells⟩
  rcases gives_ifTaken [ofString "?"] (by decide) gives with ⟨mid, mark, goes⟩ | ⟨-, goes⟩
  · obtain ⟨found, later, peeked, goes⟩ := gives_bind goes
    obtain ⟨rfl, rfl⟩ := gives_peek peeked
    split at goes
    · rename_i among
      obtain ⟨pattern, later', taken, further⟩ := gives_bind goes
      cases gives_take taken
      have mem := isAmong_some.1 among
      rcases mem_cons.1 mem with upper | mem
      · rw [upper] at further
        exact typed (some .upper) (mark.append (.one upper)) further
      · have lower := mem_singleton.1 mem
        rw [lower] at further
        exact typed (some .lower) (mark.append (.one lower)) further
    · obtain ⟨rfl, rfl⟩ := gives_pure goes
      exact ⟨.wildcard, rfl, mark⟩
  · exact typed none (.nil _) goes

/-- The reading of one argument, with the comma or the bracket behind it. -/
def argumentItem : Routine (Tree × Bool) := do
  let x ← parse .typeArgument
  if ← tryAccept [">"] then return (x, false)
  discard <| accept [","]
  return (x, true)

theorem gives_arguments (given : ArgumentGiven n) : ArgumentsGiven (n + 1) := by
  intro ahead trees rest worded gives
  obtain ⟨mid, bracket, repeats⟩ := gives_words [ofString "<"] gives
  have worded' : ∀ t ∈ mid, t.Worded := fun t mem => worded t (bracket.suffix.subset mem)
  suffices items : ∃ items : Items, trees = items.trees ∧ Spells (items.flatten ++ [ofString ">"]) mid rest by
    obtain ⟨items, rfl, spells⟩ := items
    exact ⟨items, rfl, bracket.append spells⟩
  have series := gives_many repeats
  clear gives bracket repeats worded
  -- Each argument is followed by the closing bracket, if it is the last one, or by a comma.
  have items {ahead rest : List Token} {x : Tree} {more : Bool} (worded : ∀ t ∈ ahead, t.Worded)
      (gives : (argumentItem.read (readWithin n) ahead).Gives (x, more) rest) :
      ∃ argument : Argument, x = argument.tree ∧
        Spells (argument.flatten ++ [ofString (if more then "," else ">")]) ahead rest := by
    obtain ⟨y, mid, first, goes⟩ := gives_bind gives
    obtain ⟨argument, rfl, spells⟩ := given _ _ _ worded (gives_parse first)
    rcases gives_ifTaken [ofString ">"] (by decide) goes with ⟨later, bracket, further⟩ | ⟨-, further⟩
    · obtain ⟨same, rfl⟩ := gives_pure further
      cases same
      exact ⟨argument, rfl, spells.append bracket⟩
    · obtain ⟨later, comma, done⟩ := gives_words [ofString ","] further
      obtain ⟨same, rfl⟩ := gives_pure done
      cases same
      exact ⟨argument, rfl, spells.append comma⟩
  induction series with
  | last here =>
    obtain ⟨argument, rfl, spells⟩ := items worded' here
    exact ⟨.one argument, rfl, spells⟩
  | more here series ih =>
    obtain ⟨argument, rfl, spells⟩ := items worded' here
    obtain ⟨rest, rfl, later⟩ := ih fun t mem => worded' t (spells.suffix.subset mem)
    refine ⟨.comma argument rest, rfl, ?_⟩
    have all := spells.append later
    rw [append_assoc] at all
    rw [Items.flatten, append_assoc]
    exact all

/-- Dotted types, their arguments and each argument are read as such, to any depth. -/
theorem types_given (n : Nat) : ReferenceGiven n ∧ ArgumentsGiven n ∧ ArgumentGiven n := by
  induction n with
  | zero =>
    refine ⟨?_, ?_, ?_⟩
    all_goals
      intro _ _ _ _ gives
      cases gives.result
  | succ n ih =>
    obtain ⟨reference, arguments, argument⟩ := ih
    exact ⟨gives_reference arguments, gives_arguments argument, gives_argument reference⟩

/-- **Nothing but types is read as a type**, and from no other tokens than its own. -/
theorem gives_type (worded : ∀ t ∈ ahead, t.Worded)
    (gives : (Rule.type.readWithin n ahead).Gives tree rest) :
    ∃ type : JavaType, tree = type.tree ∧ Spells type.flatten ahead rest := by
  obtain ⟨n, rfl, gives⟩ := gives_rule gives
  obtain ⟨found, _, peeked, goes⟩ := gives_bind gives
  obtain ⟨rfl, rfl⟩ := gives_peek peeked
  obtain ⟨found, mid, peeked, typed⟩ := gives_bind goes
  obtain ⟨rfl, rfl⟩ := gives_peek peeked
  -- Dimensions follow whatever type there is.
  have counted {tree' : Tree} {later : List Token} (gives : (Routine.read (readWithin n) (do
      let n ← parse .arrayDimension
      return tree'.put .dimensions (.dimensions n)) later).Gives tree rest) :
      ∃ count, tree = tree'.put .dimensions (.dimensions count) ∧ Spells (brackets count) later rest := by
    obtain ⟨count, rfl, counted⟩ := gives_made gives
    exact ⟨count, rfl, gives_arrayDimension (gives_parse counted)⟩
  cases basic : isOf mid[0]? .basicType with
  | true =>
    rw [basic] at typed
    obtain ⟨tree', later, typed, further⟩ := gives_bind typed
    obtain ⟨name, rfl, named⟩ := gives_primitive worded (gives_parse typed)
    obtain ⟨count, rfl, dimensions⟩ := counted further
    exact ⟨.primitive name count, name.put_dimensions count, named.append dimensions⟩
  | false =>
    rw [basic] at typed
    cases identifier : isOf mid[0]? .identifier with
    | true =>
      rw [identifier] at typed
      obtain ⟨tree', later, typed, further⟩ := gives_bind typed
      obtain ⟨type, rfl, spells⟩ := (types_given n).1 _ _ _ worded (gives_parse typed)
      obtain ⟨count, rfl, dimensions⟩ := counted further
      exact ⟨.reference type count, type.put_dimensions _ _, spells.append dimensions⟩
    | false =>
      rw [identifier] at typed
      obtain ⟨_, _, fails, -⟩ := gives_bind typed
      cases fails.result

end

end JavaSource.Grammar
