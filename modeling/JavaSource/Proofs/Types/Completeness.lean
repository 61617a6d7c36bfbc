import JavaSource.Proofs.Expression.Operations
import JavaSource.Proofs.Types.Reading

/-!
# Types are read exactly

Every type is read from the tokens that it flattens to, whatever follows, unless what follows goes on with the
type: `JavaType.read`. The proof is by induction on the syntax of types. Together with `gives_type`, the rule for
types accepts types and nothing else, and keeps all that it takes: `Parser.follow_type_exact`.
-/

open List JavaSource.Text JavaSource.Vocabulary

namespace JavaSource.Grammar

open Lexer Routine Outcome
open Rule (readWithin)

section

variable {n : Nat} {ahead rest : List Token}

/-! ## What comes next -/

/-- The tokens ahead start with tokens of the given values, of the class that the values have. -/
def Written (words : List Text) (ahead rest : List Token) : Prop :=
  ∃ used, ahead = used ++ rest ∧ used.map Token.value = words ∧ ∀ t ∈ used, t.Worded

namespace Written

variable {word : Text} {words later : List Text}

theorem spells (written : Written words ahead rest) : Spells words ahead rest := by
  obtain ⟨used, split, values, -⟩ := written
  exact ⟨used, split, values⟩

theorem of_append (written : Written (words ++ later) ahead rest) :
    ∃ mid, Written words ahead mid ∧ Written later mid rest := by
  obtain ⟨used, rfl, same, worded⟩ := written
  obtain ⟨first, second, rfl, rfl, rfl⟩ := map_eq_append_iff.1 same
  rw [forall_mem_append] at worded
  exact ⟨second ++ rest, ⟨first, by rw [append_assoc], rfl, worded.1⟩, ⟨second, rfl, rfl, worded.2⟩⟩

/-- The first token has its value, and the class of this value. -/
theorem head (written : Written (word :: words) ahead rest) :
    ∃ t later, ahead = t :: later ∧ t.value = word ∧ t.Worded := by
  obtain ⟨used, rfl, same, worded⟩ := written
  obtain ⟨t, used, rfl, rfl, rfl⟩ := map_eq_cons_iff.1 same
  exact ⟨t, used ++ rest, rfl, rfl, worded t mem_cons_self⟩

end Written

theorem fits_word (word : Text) (ahead : List Token) :
    Pattern.fits ahead[0]? (.word word) = startsWith [word] ahead := by
  have all := fitAll_words [word] ahead
  rw [map_singleton, Pattern.fitAll, Pattern.fitAll, Bool.and_true] at all
  exact all

variable {word : Text} {count : Nat} {mid : List Token}

theorem startsWith_ne {t : Token} (ne : t.value ≠ word) (words : List Text)
    (rest : List Token) : startsWith (word :: words) (t :: rest) = false := by
  rw [startsWith, map_cons, isPrefixOf_cons_cons, beq_false_of_ne ne.symm, Bool.false_and]

theorem Spells.startsWith_ne {words : List Text} {other : Text} (spells : Spells (word :: words) ahead rest)
    (ne : word ≠ other) : Grammar.startsWith [other] ahead = false := by
  obtain ⟨t, later, rfl, value, -⟩ := spells.of_cons
  exact Grammar.startsWith_ne (value ▸ ne) [] later

/-- The tokens do not go on with a type that ends in front of them. -/
structure Ends (rest : List Token) : Prop where
  angle : startsWith [Text.ofString "<"] rest = false
  dot : startsWith [Text.ofString "."] rest = false
  bracket : startsWith pair rest = false

/-- An argument is followed by a comma or a closing bracket. -/
def Closes (rest : List Token) : Prop :=
  ∃ t later, rest = t :: later ∧ t.value ∈ Vocabulary.texts [",", ">"]

theorem Closes.ne (closes : Closes rest) (other : word ∉ texts [",", ">"])
    (words : List Text) : startsWith (word :: words) rest = false := by
  obtain ⟨t, later, rfl, mem⟩ := closes
  refine startsWith_ne (fun same => other ?_) words later
  rwa [← same]

theorem Closes.ends (closes : Closes rest) : Ends rest :=
  ⟨closes.ne (by decide) [], closes.ne (by decide) [], closes.ne (by decide) _⟩

/-- In front of the brackets of dimensions a dotted type ends. -/
theorem Ends.before_brackets (ends : Ends rest) (spells : Spells (brackets count) ahead rest) :
    startsWith [ofString "<"] ahead = false ∧ startsWith [ofString "."] ahead = false := by
  cases count with
  | zero =>
    rw [spells.eq_of_nil]
    exact ⟨ends.angle, ends.dot⟩
  | succ count => exact ⟨spells.startsWith_ne (by decide), spells.startsWith_ne (by decide)⟩

theorem read_name (name : Name) (written : Written [name.text] ahead rest) :
    Rule.identifier.readWithin (n + 1) ahead = .ok name.text rest := by
  obtain ⟨t, later, rfl, value, worded⟩ := written.head
  obtain ⟨_, _, same, -, ended⟩ := written.spells.of_cons
  cases same
  cases ended.eq_of_nil
  rw [read_identifier n (worded.identifier.2 (value ▸ name.isName)), value]

theorem read_primitive (name : Primitive) (written : Written [name.text] ahead rest) :
    (parse .basicType).read (readWithin (n + 1)) ahead = .ok (.make .basicType [(.name, .text name.text)]) rest := by
  obtain ⟨t, later, rfl, value, worded⟩ := written.head
  obtain ⟨_, _, same, -, ended⟩ := written.spells.of_cons
  cases same
  cases ended.eq_of_nil
  have fits : Pattern.fits (some t) (.cls .basicType) = true :=
    isOf_of_cls (worded.basicType.2 (value ▸ name.mem)) rfl
  rw [read_parse]
  simp only [readWithin, Rule.body, Body.basicType, read_monad_bind, read_accept_cons, fits, if_true, andThen_pure, read_monad_pure, value]

theorem read_arrayDimension (spells : Spells (brackets count) ahead rest) (ended : startsWith pair rest = false) :
    (parse .arrayDimension).read (readWithin (n + 1)) ahead = .ok count rest :=
  (read_parse _ _).trans (read_dimensions spells ended)

/-! ## From items to lists -/

def Reference.segments : Reference → List (Text × Option (List Tree))
  | .last name arguments => [(name.text, arguments.trees?)]
  | .dot name arguments sub => (name.text, arguments.trees?) :: sub.segments

theorem Reference.segmentsType (type : Reference) : Body.segmentsType type.segments = type.tree .null := by
  cases type with
  | last name arguments =>
    rw [segments, Body.segmentsType, arguments.ofList?_trees?]
    rfl
  | dot name arguments sub =>
    rw [segments, Body.segmentsType, arguments.ofList?_trees?, sub.segmentsType]
    rfl

/-- A dotted type starts with a name. -/
theorem Reference.flatten_cons (type : Reference) :
    ∃ (name : Name) (words : List Text), type.flatten = name.text :: words := by
  cases type with
  | last name arguments => exact ⟨name, _, rfl⟩
  | dot name arguments sub => exact ⟨name, _, rfl⟩

theorem Reference.length_segments (type : Reference) : type.segments.length ≤ type.flatten.length := by
  cases type with
  | last name arguments => simp [segments, flatten]
  | dot name arguments sub =>
    have later := sub.length_segments
    simp only [segments, flatten, length_cons, length_append]
    omega

theorem Argument.flatten_pos (argument : Argument) : 0 < argument.flatten.length := by
  cases argument with
  | wildcard => exact Nat.one_pos
  | array bound name further => simp [flatten]
  | reference bound type dimensions =>
    cases type <;> simp [flatten, Reference.flatten]

theorem Items.length_trees (items : Items) : items.trees.length ≤ items.flatten.length := by
  cases items with
  | one argument => exact argument.flatten_pos
  | comma argument rest =>
    have later := rest.length_trees
    simp only [trees, flatten, length_cons, length_append]
    omega

/-- One segment after the other makes a dotted type. -/
theorem read_reference_of_series {type : Reference} (spells : Spells type.flatten ahead rest)
    (series : Series (fun ahead x rest => Routine.read (readWithin n) (do
      let x ← segment
      let more ← tryAccept ["."]
      return (x, more)) ahead = .ok x rest) ahead type.segments rest) :
    (parse .referenceType).read (readWithin (n + 1)) ahead = .ok (type.tree .null) rest := by
  have enough : type.segments.length ≤ ahead.length + 2 := by
    have length := spells.length_eq
    have count := type.length_segments
    omega
  have read := series.read_many enough
  rw [read_parse]
  change Routine.read (readWithin n) (do
    let segments ← separated "." segment
    return Body.segmentsType segments) ahead = _
  rw [read_monad_bind, separated, read, andThen_pure, type.segmentsType]
  rfl

theorem read_arguments_of_series {items : Items} (opens : Spells [ofString "<"] ahead mid)
    (spells : Spells (items.flatten ++ [ofString ">"]) mid rest)
    (series : Series (fun ahead x rest => argumentItem.read (readWithin n) ahead =
      .ok x rest) mid items.trees rest) :
    Rule.typeArguments.readWithin (n + 1) ahead = .ok items.trees rest := by
  have enough : items.trees.length ≤ mid.length + 2 := by
    have length := spells.length_eq
    have count := items.length_trees
    rw [length_append] at length
    omega
  have read := series.read_many enough
  have opened : (accept ["<"]).read (readWithin n) ahead = .ok (ofString "<") mid :=
    opens.read_accept (cons_ne_nil _ _)
  change Routine.read (readWithin n) (do
    discard <| accept ["<"]
    many argumentItem) ahead = _
  rw [read_monad_bind, read_discard, opened, andThen_pure, andThen_pure, read]

/-! ## Arguments -/

variable {words : List Text}

/-- The first token of a name is no sign. -/
theorem Name.startsWith_ne (name : Name) (spells : Spells (name.text :: words) ahead rest)
    (other : ¬ IsName word) : startsWith [word] ahead = false :=
  spells.startsWith_ne fun same => other (same ▸ name.isName)

theorem Primitive.startsWith_ne (name : Primitive)
    (spells : Spells (name.text :: words) ahead rest) (other : word ∉ basicTypes) :
    startsWith [word] ahead = false :=
  spells.startsWith_ne fun same => other (same ▸ name.mem)

/-- A primitive type as an argument: one pair of brackets is asked for, and more may follow. -/
theorem read_arrayArgument (name : Primitive) {further : Nat}
    (written : Written ([name.text] ++ brackets (further + 1)) ahead rest) (ended : startsWith pair rest = false) :
    Body.argumentType.read (readWithin (n + 1)) ahead = .ok (name.tree (further + 1)) rest := by
  obtain ⟨mid, named, bracketed⟩ := written.of_append
  have bracketed := bracketed.spells
  rw [brackets_succ] at bracketed
  obtain ⟨mid', first, others⟩ := bracketed.of_append
  have basic : Pattern.fits ahead[0]? (.cls .basicType) = true := by
    obtain ⟨t, later, rfl, value, worded⟩ := named.head
    exact isOf_of_cls (worded.basicType.2 (value ▸ name.mem)) rfl
  have accepted : (accept ["[", "]"]).read (readWithin (n + 1)) mid = .ok (ofString "]") mid' :=
    first.read_accept (cons_ne_nil _ _)
  simp only [Body.argumentType, read_monad_bind, read_wouldAccept_one, basic, andThen_pure, if_true,
    read_primitive name named, read_discard, accepted, read_monad_pure, read_arrayDimension others ended]
  rfl

theorem read_referenceArgument (type : Reference) (written : Written type.flatten ahead mid)
    (read : (parse .referenceType).read (readWithin (n + 1)) ahead = .ok (type.tree .null) mid)
    (bracketed : Spells (brackets count) mid rest) (ended : startsWith pair rest = false) :
    Body.argumentType.read (readWithin (n + 1)) ahead = .ok (type.tree (.dimensions count)) rest := by
  obtain ⟨name, words, flat⟩ := type.flatten_cons
  rw [flat] at written
  have basic : Pattern.fits ahead[0]? (.cls .basicType) = false := by
    obtain ⟨t, later, rfl, value, worded⟩ := written.head
    exact isOf_of_cls (worded.identifier.2 (value ▸ name.isName)) rfl
  simp only [Body.argumentType, read_monad_bind, read_wouldAccept_one, basic, andThen_pure, Bool.false_eq_true,
    if_false, read, read_monad_pure, read_arrayDimension bracketed ended, type.put_dimensions, type.addDimensions]

/-- Behind the words for a bound comes the type that bounds. -/
theorem read_bound (bound : Option Bound) (words : Spells (boundWords bound) ahead mid)
    (noMark : startsWith [ofString "?"] mid = false) {type : Tree}
    (typed : Body.argumentType.read (readWithin n) mid = .ok type rest) :
    Rule.typeArgument.readWithin (n + 1) ahead =
      { result := .ok (.make .typeArgument [(.type, type), (.patternType, boundPattern bound)]),
        ahead := rest } := by
  change Body.typeArgument.read (readWithin n) ahead = _
  cases bound with
  | none =>
    cases words.eq_of_nil
    have unmarked : (tryAccept ["?"]).read (readWithin n) ahead = .ok false ahead :=
      read_tryAccept_unfit (by rw [fits_word]; exact noMark)
    simp only [Body.typeArgument, read_monad_bind, unmarked, andThen_pure, Bool.false_eq_true,
      if_false, typed, read_monad_pure]
    rfl
  | some bound =>
    obtain ⟨t, later, rfl, mark, further⟩ := words.of_cons
    obtain ⟨u, later', rfl, value, ended⟩ := further.of_cons
    cases ended.eq_of_nil
    have marked : (tryAccept ["?"]).read (readWithin n) (t :: u :: mid) = .ok true (u :: mid) :=
      (Spells.one mark).read_tryAccept (cons_ne_nil _ _)
    have among : isAmong (some u) (texts ["extends", "super"]) = true := by
      rw [isAmong_some, value]
      cases bound <;> decide
    have taken : take.read (readWithin n) (u :: mid) = .ok u mid := rfl
    simp only [Body.typeArgument, read_monad_bind, marked, andThen_pure, if_true, read_peek,
      getElem?_cons_zero, among, taken, typed, read_monad_pure, value]
    rfl

mutual

/-- A dotted type is read segment by segment. -/
theorem Reference.series (type : Reference) {n : Nat} {ahead rest : List Token}
    (enough : 2 * type.flatten.length ≤ n + 1) (written : Written type.flatten ahead rest)
    (angle : startsWith [ofString "<"] rest = false) (dot : startsWith [ofString "."] rest = false) :
    Series (fun ahead x rest => Routine.read (readWithin n) (do
      let x ← segment
      let more ← tryAccept ["."]
      return (x, more)) ahead = .ok x rest) ahead type.segments rest := by
  cases type with
  | last name arguments =>
    refine .last ?_
    rw [read_bind_ok (arguments.read name enough written angle),
      read_bind_ok (read_tryAccept_unfit (by rw [fits_word]; exact dot) ..)]
    rfl
  | dot name arguments sub =>
    have written : Written ((name.text :: arguments.flatten) ++ ([ofString "."] ++ sub.flatten)) ahead rest :=
      written
    obtain ⟨mid, first, further⟩ := written.of_append
    obtain ⟨later, dotted, subs⟩ := further.of_append
    simp only [Reference.flatten, length_cons, length_append] at enough
    have undone : startsWith [ofString "<"] mid = false := dotted.spells.startsWith_ne (by decide)
    have more : (tryAccept ["."]).read (readWithin n) mid = .ok true later :=
      dotted.spells.read_tryAccept (cons_ne_nil _ _)
    have series := sub.series (n := n) (by omega) subs angle dot
    refine .more ?_ series
    rw [read_bind_ok (arguments.read name (by simp only [length_cons]; omega) first undone), read_bind_ok more]
    rfl

/-- A segment is read with its arguments. -/
theorem Arguments.read (arguments : Arguments) (name : Name) {n : Nat} {ahead rest : List Token}
    (enough : 2 * (name.text :: arguments.flatten).length ≤ n + 1)
    (written : Written (name.text :: arguments.flatten) ahead rest)
    (angle : startsWith [ofString "<"] rest = false) :
    segment.read (readWithin n) ahead = .ok (name.text, arguments.trees?) rest := by
  cases arguments with
  | none =>
    obtain ⟨m, rfl⟩ : ∃ m, n = m + 1 := ⟨n - 1, by simp at enough; omega⟩
    rw [segment, read_monad_bind, read_parse, read_name name written, andThen_pure,
      read_monad_bind, read_wouldAccept_one, fits_word, angle, andThen_pure]
    rfl
  | angle items =>
    have written : Written ([name.text] ++ ([ofString "<"] ++ (items.flatten ++ [ofString ">"])))
        ahead rest := written
    obtain ⟨mid, named, further⟩ := written.of_append
    obtain ⟨later, opens, inside⟩ := further.of_append
    simp only [Arguments.flatten, length_cons, length_append, length_nil] at enough
    obtain ⟨m, rfl⟩ : ∃ m, n = m + 1 := ⟨n - 1, by omega⟩
    have series := items.series (n := m) (by omega) inside
    rw [segment, read_monad_bind, read_parse, read_name name named, andThen_pure,
      read_monad_bind, read_wouldAccept_one, fits_word, opens.spells.startsWith.1, andThen_pure,
      if_pos rfl, read_monad_bind, read_parse, read_arguments_of_series opens.spells inside.spells series,
      andThen_pure]
    rfl

/-- Arguments are read one after the other, up to the closing bracket. -/
theorem Items.series (items : Items) {n : Nat} {ahead rest : List Token} (enough : 2 * items.flatten.length + 2 ≤ n)
    (written : Written (items.flatten ++ [ofString ">"]) ahead rest) :
    Series (fun ahead x rest => argumentItem.read (readWithin n) ahead = .ok x rest) ahead items.trees rest := by
  cases items with
  | one argument =>
    obtain ⟨mid, inside, closing⟩ := written.of_append
    have closed : (tryAccept [">"]).read (readWithin n) mid = .ok true rest :=
      closing.spells.read_tryAccept (cons_ne_nil _ _)
    have closes : Closes mid := by
      obtain ⟨t, later, rfl, value, -⟩ := closing.head
      exact ⟨t, later, rfl, value ▸ by decide⟩
    refine .last ?_
    rw [argumentItem, read_monad_bind, read_parse, argument.read enough inside closes,
      andThen_pure, read_bind_ok closed]
    rfl
  | comma argument others =>
    simp only [Items.flatten, length_cons, length_append] at enough
    have written : Written (argument.flatten ++ ([ofString ","] ++ (others.flatten ++ [ofString ">"])))
        ahead rest := by
      rw [Items.flatten, append_assoc] at written
      exact written
    obtain ⟨mid, inside, further⟩ := written.of_append
    obtain ⟨later, comma, subs⟩ := further.of_append
    have closes : Closes mid := by
      obtain ⟨t, later, rfl, value, -⟩ := comma.head
      exact ⟨t, later, rfl, value ▸ by decide⟩
    have unclosed : startsWith [ofString ">"] mid = false := comma.spells.startsWith_ne (by decide)
    have accepted : (accept [","]).read (readWithin n) mid = .ok (ofString ",") later :=
      comma.spells.read_accept (cons_ne_nil _ _)
    have series := others.series (n := n) (by omega) subs
    refine .more ?_ series
    rw [argumentItem, read_monad_bind, read_parse, argument.read (by omega) inside closes,
      andThen_pure, read_bind_ok (read_tryAccept_unfit (by rw [fits_word]; exact unclosed) ..), if_neg Bool.false_ne_true, read_monad_bind, read_discard, accepted,
      andThen_pure, andThen_pure]
    rfl

/-- An argument is read in front of a comma or a closing bracket. -/
theorem Argument.read (argument : Argument) {n : Nat} {ahead rest : List Token}
    (enough : 2 * argument.flatten.length + 2 ≤ n) (written : Written argument.flatten ahead rest)
    (closes : Closes rest) :
    Rule.typeArgument.readWithin n ahead = .ok argument.tree rest := by
  obtain ⟨m, rfl⟩ : ∃ m, n = m + 2 := ⟨n - 2, by omega⟩
  cases argument with
  | wildcard =>
    have marked : (tryAccept ["?"]).read (readWithin (m + 1)) ahead = .ok true rest :=
      written.spells.read_tryAccept (cons_ne_nil _ _)
    have unbounded : isAmong rest[0]? (texts ["extends", "super"]) = false := by
      obtain ⟨t, later, rfl, mem⟩ := closes
      have apart : ∀ word ∈ texts [",", ">"], word ∉ texts ["extends", "super"] := by decide
      exact not_isAmong (apart t.value mem)
    change Body.typeArgument.read (readWithin (m + 1)) ahead = _
    simp only [Body.typeArgument, read_monad_bind, marked, andThen_pure, if_true, read_peek,
      unbounded, Bool.false_eq_true, if_false, read_monad_pure]
    rfl
  | array bound name further =>
    obtain ⟨mid, words, inside⟩ := written.of_append
    exact read_bound bound words.spells (name.startsWith_ne inside.spells (by decide))
      (read_arrayArgument name inside closes.ends.bracket)
  | reference bound type dimensions =>
    obtain ⟨mid, words, inside⟩ := written.of_append
    obtain ⟨later, typed, bracketed⟩ := inside.of_append
    simp only [Argument.flatten, length_append] at enough
    obtain ⟨angle, dot⟩ := closes.ends.before_brackets bracketed.spells
    have read := read_reference_of_series typed.spells (type.series (n := m) (by omega) typed angle dot)
    have noMark : startsWith [ofString "?"] mid = false := by
      obtain ⟨name, words, flat⟩ := type.flatten_cons
      exact name.startsWith_ne (flat ▸ typed.spells) (by decide)
    exact read_bound bound words.spells noMark
      (read_referenceArgument type typed read bracketed.spells closes.ends.bracket)

end

/-- **Every type is read** from its tokens. -/
theorem JavaType.read (type : JavaType) (enough : 2 * type.flatten.length + 2 ≤ n)
    (written : Written type.flatten ahead rest) (ends : Ends rest) :
    Rule.type.readWithin n ahead = .ok type.tree rest := by
  obtain ⟨m, rfl⟩ : ∃ m, n = m + 2 := ⟨n - 2, by omega⟩
  change Body.type.read (readWithin (m + 1)) ahead = _
  cases type with
  | primitive name dimensions =>
    have written : Written ([name.text] ++ brackets dimensions) ahead rest := written
    obtain ⟨mid, named, bracketed⟩ := written.of_append
    have basic : isOf ahead[0]? .basicType = true := by
      obtain ⟨t, later, rfl, value, worded⟩ := named.head
      exact isOf_of_cls (worded.basicType.2 (value ▸ name.mem)) rfl
    simp only [Body.type, read_monad_bind, read_peek, andThen_pure, basic, if_true, read_primitive name named,
      read_arrayDimension bracketed.spells ends.bracket, read_monad_pure]
    rfl
  | reference type dimensions =>
    obtain ⟨mid, inside, bracketed⟩ := written.of_append
    obtain ⟨angle, dot⟩ := ends.before_brackets bracketed.spells
    simp only [flatten, length_append] at enough
    have read := read_reference_of_series inside.spells (type.series (n := m) (by omega) inside angle dot)
    have named : ∃ (t : Token) (later : List Token), ahead = t :: later ∧ t.cls = .identifier := by
      obtain ⟨name, words, flat⟩ := type.flatten_cons
      rw [flat] at inside
      obtain ⟨t, later, split, value, worded⟩ := inside.head
      exact ⟨t, later, split, worded.identifier.2 (value ▸ name.isName)⟩
    obtain ⟨t, later, rfl, cls⟩ := named
    have basic : isOf (some t) .basicType = false := isOf_of_cls cls rfl
    have identifier : isOf (some t) .identifier = true := isOf_of_cls cls rfl
    simp only [Body.type, read_monad_bind, read_peek, andThen_pure, getElem?_cons_zero,
      basic, Bool.false_eq_true, if_false, identifier, if_true, read,
      read_arrayDimension bracketed.spells ends.bracket, read_monad_pure, type.put_dimensions]
    rfl

end

end JavaSource.Grammar

namespace JavaSource.Parser

open Grammar

/-- The marker of a parser that was given some tokens stands behind those that are no longer ahead. -/
theorem Moved.marker_ofTokens {used rest : List Token} {q : Parser} {handed : Option (List Token)}
    (moved : (ofTokens (used ++ rest)).Moved q rest handed) : q.tokens.marker = used.length := by
  have size : (ofTokens (used ++ rest)).tokens.values.size = used.length + rest.length :=
    length_append
  rw [← moved.facing.indexOf_eq, indexOf, moved.values, size]
  exact Nat.add_sub_cancel ..

/-- **Types are read exactly.** All tokens of a source tell names and primitive types by their class, and among
such tokens: a tree that the rule for types gives is the tree of a type, and the tokens that were taken have the
values to which this type flattens; and every type is read from tokens of these values, up to where they end, if
what follows does not go on with the type. A tree is the tree of one type only, so it tells the tokens. -/
theorem follow_type_exact : (∀ mode source, ∀ t ∈ (tokenize mode source).tokens, t.Worded) ∧
    (∀ (tokens : List Token) (tree : Tree) (q : Parser), (∀ t ∈ tokens, t.Worded) →
      (ofTokens tokens).run (follow plainly .type) = (.ok tree, q) →
      ∃ type : JavaType, tree = type.tree ∧
        (tokens.take q.tokens.marker).map Token.value = type.flatten) ∧
    (∀ (type : JavaType) (tokens rest : List Token), (∀ t ∈ tokens, t.Worded) →
      tokens.map Token.value = type.flatten → Ends rest →
      ∃ q, (ofTokens (tokens ++ rest)).run (follow plainly .type) = (.ok type.tree, q) ∧
        q.tokens.marker = tokens.length) ∧ Function.Injective JavaType.tree := by
  refine ⟨Lexer.tokenize_worded, fun tokens tree q worded ran => ?_, fun type tokens rest worded values ends => ?_,
    fun a b => JavaType.tree_injective⟩
  · obtain ⟨result, moved⟩ := follow_does .type (facing_ofTokens tokens)
    rw [ran] at result moved
    obtain ⟨rest, ahead⟩ : ∃ rest, (Rule.type.reads tokens).ahead = rest := ⟨_, rfl⟩
    obtain ⟨type, rfl, used, rfl, values⟩ := gives_type worded ⟨result.symm, ahead⟩
    rw [ahead] at moved
    refine ⟨type, rfl, ?_⟩
    rw [moved.marker_ofTokens, take_left, values]
  · have written : Written type.flatten (tokens ++ rest) rest := ⟨tokens, rfl, values, worded⟩
    have length : tokens.length = type.flatten.length := by rw [← values, length_map]
    obtain ⟨n, depth, -, enough⟩ := exists_nesting (k := 0) (tokens ++ rest).length (by decide)
    rw [length_append] at enough
    have read : Rule.type.reads (tokens ++ rest) = { result := .ok type.tree, ahead := rest } :=
      type.read (by omega) written ends
    obtain ⟨result, moved⟩ := follow_does .type (facing_ofTokens (tokens ++ rest))
    rw [read] at result moved
    exact ⟨_, Prod.ext result rfl, moved.marker_ofTokens⟩

/-- The tokens of a declaration whose type has nested arguments; thirteen tokens are the type. -/
def nestedTokens : List Token := (tokenize .strict (.text "A<B<? super int[]>>[] c;")).tokens

def nestedType : JavaType :=
  .reference (.last ⟨"A", by decide⟩ (.angle (.one (.reference none
    (.last ⟨"B", by decide⟩ (.angle (.one (.array (some .lower) ⟨"int", by decide⟩ 0)))) 0)))) 1

/-- Both closing brackets are taken, and the dimension belongs to the outer type. -/
theorem follow_type_exact_nested :
    ∃ q, (ofTokens nestedTokens).run (follow plainly .type) = (.ok nestedType.tree, q) ∧ q.tokens.marker = 13 := by
  obtain ⟨worded, -, read, -⟩ := follow_type_exact
  have ends : Ends (nestedTokens.drop 13) := by constructor <;> decide +kernel
  have values : (nestedTokens.take 13).map Token.value = nestedType.flatten := by decide +kernel
  have length : (nestedTokens.take 13).length = 13 := by decide +kernel
  have all : ∀ t ∈ nestedTokens.take 13, t.Worded := fun t mem => worded _ _ t (mem_of_mem_take mem)
  obtain ⟨q, ran, marker⟩ := read nestedType _ _ all values ends
  rw [take_append_drop] at ran
  exact ⟨q, ran, marker.trans length⟩

end JavaSource.Parser
