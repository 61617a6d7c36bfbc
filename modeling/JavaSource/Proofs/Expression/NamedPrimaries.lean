import JavaSource.Proofs.Expression.Casts
import JavaSource.Tree.Comparison

/-!
# Names and what follows them

A primary expression that starts with a name goes on with a suffix: arguments, a class, an invocation with type
arguments and others. `Suffix.whole` is the node that records all parts of the name and of the suffix, and
`Suffix.node` the one that is built. They are the same but for two forms: of an invocation with type arguments the
name of the method is lost, and of an array class the dimensions are lost, since both are overwritten with the last
part of the name: `follow_named`.
-/

open List JavaSource.Text

namespace JavaSource.Grammar

open Body Lexer Routine Outcome Pattern
open Rule (readWithin)

/-- What follows a name. -/
inductive Suffix where
  | bare
  | call (arguments : List Tree)
  | classOf (dimensions : Nat)
  | thisOf
  /-- A method with type arguments before its name. -/
  | generic (typeArguments : List Tree) (member : Text) (arguments : List Tree)
  /-- A member or a constructor of the superclass, with type arguments before it. -/
  | genericSuper (typeArguments : List Tree) (invocation : Tree)
  | creator (created : Tree)
  | superCall (arguments : List Tree)

def suffixStarts : List (List Text) :=
  [pair, ["("], [".", "class"], [".", "this"], [".", "<"], [".", "new"], [".", "super", "("]]

def Rule.Gives (r : Rule) (ahead : List Token) (x : r.Result) (rest : List Token) : Prop :=
  ∃ n, (r.readWithin n ahead).Gives x rest

/-- What is given does not depend on the depth. -/
theorem Rule.Gives.unique {r : Rule} {ahead rest rest' : List Token} {x y : r.Result} (gives : r.Gives ahead x rest)
    (gives' : r.Gives ahead y rest') : x = y ∧ rest = rest' := by
  obtain ⟨n, gives⟩ := gives
  obtain ⟨m, gives'⟩ := gives'
  have one := gives_deeper (Nat.le_max_left n m) gives
  have other := gives_deeper (Nat.le_max_right n m) gives'
  exact ⟨Except.ok.inj (one.result.symm.trans other.result), one.ahead.symm.trans other.ahead⟩

inductive Suffix.Spelled : Suffix → List Token → List Token → Prop
  | bare {rest : List Token} (others : ∀ words ∈ suffixStarts, startsWith words rest = false) :
    Spelled .bare rest rest
  | call {ahead rest : List Token} {arguments : List Tree} : Rule.Gives .arguments ahead arguments rest →
    Spelled (.call arguments) ahead rest
  | classOf {ahead rest : List Token} {dimensions : Nat} :
    Spells (brackets dimensions ++ Vocabulary.texts [".", "class"]) ahead rest → Spelled (.classOf dimensions) ahead rest
  | thisOf {ahead rest : List Token} : Spells [".", "this"] ahead rest → Spelled .thisOf ahead rest
  | generic {ahead later mid rest : List Token} {t : Token} {typeArguments arguments : List Tree} :
    Spells ["."] ahead later → Rule.Gives .nonwildcardTypeArguments later typeArguments (t :: mid) →
    t.cls = .identifier → Rule.Gives .arguments mid arguments rest →
    Spelled (.generic typeArguments t.value arguments) ahead rest
  | genericSuper {ahead later mid after rest : List Token} {typeArguments : List Tree} {invocation : Tree} :
    Spells ["."] ahead later → Rule.Gives .nonwildcardTypeArguments later typeArguments mid →
    Spells ["super"] mid after → Rule.Gives .superSuffix after invocation rest →
    Spelled (.genericSuper typeArguments invocation) ahead rest
  | creator {ahead mid rest : List Token} {created : Tree} {n : Nat} : Spells [".", "new"] ahead mid →
    (innerCreatorRest.read (readWithin n) mid).Gives created rest → Spelled (.creator created) ahead rest
  | superCall {ahead mid rest : List Token} {arguments : List Tree} : Spells [".", "super"] ahead mid →
    Rule.Gives .arguments mid arguments rest → Spelled (.superCall arguments) ahead rest

def lastOf (names : List Text) : Tree := .text (names.getLast?.getD [])

def qualifierOf (names : List Text) : Tree := .text (dotted names)

/-- The dimensions of a type; if there are none, nothing is recorded. -/
def dimensionsOf : Nat → Tree
  | 0 => .null
  | n + 1 => .dimensions (n + 1)

/-- **The node that records** a name and all of a suffix. -/
def Suffix.whole (names : List Text) : Suffix → Tree
  | bare => .make .memberReference [(.member, lastOf names), (.qualifier, qualifierOf names.dropLast)]
  | call arguments => .make .methodInvocation
      [(.member, lastOf names), (.qualifier, qualifierOf names.dropLast), (.arguments, .list arguments)]
  | classOf n => .make .classReference
      [(.type, .make .referenceType [(.name, lastOf names), (.dimensions, dimensionsOf n)]),
       (.qualifier, qualifierOf names.dropLast)]
  | thisOf => .make .thisReference [(.qualifier, qualifierOf names)]
  | generic typeArguments member arguments => .make .methodInvocation
      [(.member, .text member), (.qualifier, qualifierOf names), (.typeArguments, .list typeArguments),
       (.arguments, .list arguments)]
  | genericSuper typeArguments invocation =>
    (invocation.put .typeArguments (.list typeArguments)).put .qualifier (qualifierOf names)
  | creator created => created.put .qualifier (qualifierOf names)
  | superCall arguments =>
    .make .superConstructorInvocation [(.qualifier, qualifierOf names), (.arguments, .list arguments)]

/-- **The node that is built.** The last part of the name takes the place of a method with type arguments, and of the
type of a class with its dimensions. -/
def Suffix.node (names : List Text) : Suffix → Tree
  | generic typeArguments _ arguments => .make .methodInvocation
      [(.member, lastOf names), (.qualifier, qualifierOf names.dropLast), (.typeArguments, .list typeArguments),
       (.arguments, .list arguments)]
  | classOf _ => whole names (.classOf 0)
  | suffix => suffix.whole names

/-- Whether all of a suffix is recorded. -/
def Suffix.kept : Suffix → Bool
  | generic .. => false
  | classOf n => n == 0
  | _ => true

/-! ## What is recorded -/

theorem dotted_cons_cons (a b : Text) (names : List Text) :
    dotted (a :: b :: names) = a ++ (ofString "." ++ dotted (b :: names)) := by
  simp only [dotted, join, intersperse_cons_cons, flatten_cons]

variable {names : List Text}

/-- A name is longer than its qualifier. -/
theorem length_dotted_dropLast (nonempty : names ≠ []) (parts : ∀ name ∈ names, name ≠ []) :
    (dotted names.dropLast).length < (dotted names).length := by
  induction names with
  | nil => exact absurd rfl nonempty
  | cons a names ih =>
    obtain ⟨here, parts⟩ := forall_mem_cons.1 parts
    cases names with
    | nil => simpa [dotted, join] using length_pos_iff.2 here
    | cons b names =>
      have shorter := ih (cons_ne_nil b names) parts
      have dot : (ofString ".").length = 1 := rfl
      cases names with
      | nil =>
        rw [dotted_cons_cons, length_append, length_append, dot]
        simp only [dropLast_cons_cons, dropLast_singleton]
        rw [show dotted [a] = a from append_nil a]
        omega
      | cons c names =>
        rw [dropLast_cons_cons, dropLast_cons_cons, dotted_cons_cons, dotted_cons_cons]
        rw [dropLast_cons_cons] at shorter
        simp only [length_append] at shorter ⊢
        omega

/-- **All is recorded** but for two forms. -/
theorem Suffix.node_eq_whole_iff (nonempty : names ≠ []) (parts : ∀ name ∈ names, name ≠ [])
    (s : Suffix) : s.node names = s.whole names ↔ s.kept = true := by
  cases s with
  | generic typeArguments member arguments =>
    refine iff_of_false (fun same => ?_) Bool.false_ne_true
    have qualifiers : Tree.text (dotted names.dropLast) = .text (dotted names) := congrArg (Tree.get .qualifier) same
    have shorter := length_dotted_dropLast nonempty parts
    rw [Tree.text.inj qualifiers] at shorter
    omega
  | classOf n =>
    cases n with
    | zero => exact iff_of_true rfl rfl
    | succ n =>
      refine iff_of_false (fun same => ?_) Bool.false_ne_true
      have dimensions : Tree.null = .dimensions (n + 1) :=
        congrArg (fun t => (Tree.get .type t).get .dimensions) same
      cases dimensions
  | _ => exact iff_of_true rfl rfl

/-! ## The parts of a suffix -/

section

variable {follow : Reader} {n : Nat} {ahead rest : List Token} {t : Tree}

variable {α : Type}

theorem gives_identifier {name : Text} (gives : (Rule.identifier.readWithin n ahead).Gives name rest) :
    ∃ u, ahead = u :: rest ∧ u.cls = .identifier ∧ name = u.value := by
  obtain ⟨n, rfl, gives⟩ := gives_rule gives
  change ((accept [.cls .identifier]).read (readWithin n) ahead).Gives name rest at gives
  obtain ⟨u, rfl, fits, rfl⟩ := gives_accept gives
  exact ⟨u, rfl, cls_of_identifier fits, rfl⟩

/-- What follows the word `super` is a node of its own kind. -/
theorem gives_superSuffix (gives : (Rule.superSuffix.readWithin n ahead).Gives t rest) :
    ∃ kind fields, t = .make kind fields ∧
      kind ∈ [Kind.superMethodInvocation, .superMemberReference, .superConstructorInvocation] := by
  obtain ⟨n, rfl, gives⟩ := gives_rule gives
  change (superSuffix.read (readWithin n) ahead).Gives t rest at gives
  obtain ⟨dot, _, _, gives⟩ := gives_bind gives
  split at gives
  · obtain ⟨_, _, _, gives⟩ := gives_bind gives
    obtain ⟨_, _, _, gives⟩ := gives_bind gives
    obtain ⟨_, _, _, gives⟩ := gives_bind gives
    split at gives
    · obtain ⟨_, _, _, gives⟩ := gives_bind gives
      exact ⟨_, _, (gives_pure gives).1, by decide⟩
    · exact ⟨_, _, (gives_pure gives).1, by decide⟩
  · obtain ⟨_, _, _, gives⟩ := gives_bind gives
    exact ⟨_, _, (gives_pure gives).1, by decide⟩

theorem gives_innerCreatorRest (gives : (innerCreatorRest.read (readWithin n) ahead).Gives t rest) :
    ∃ fields typeArguments, t = (Tree.make .innerClassCreator fields).put .constructorTypeArguments typeArguments := by
  obtain ⟨_, _, _, gives⟩ := gives_bind gives
  obtain ⟨creator, rfl, created⟩ := gives_made gives
  replace created := gives_parse created
  obtain ⟨n, rfl, created⟩ := gives_rule created
  change (innerCreator.read (readWithin n) _).Gives creator _ at created
  obtain ⟨_, _, _, created⟩ := gives_bind created
  obtain ⟨_, _, _, created⟩ := gives_bind created
  dsimp only at created
  split at created
  · obtain ⟨_, _, _, created⟩ := gives_bind created
    obtain ⟨_, rfl, _⟩ := gives_made created
    exact ⟨_, _, rfl⟩
  · obtain ⟨_, _, _, created⟩ := gives_bind created
    obtain ⟨_, rfl, _⟩ := gives_made created
    exact ⟨_, _, rfl⟩

theorem gives_explicitGenericInvocation {later : List Token} (dot : Spells ["."] ahead later)
    (gives : (Rule.explicitGenericInvocation.readWithin n later).Gives t rest) : ∃ s : Suffix, s.Spelled ahead rest ∧
      ∀ names start, qualify names start t = (s.node names).placeAt (positionOf start) := by
  rcases n with _ | _ | n
  · cases gives.result
  · change (explicitGenericInvocation.read (readWithin 0) later).Gives t rest at gives
    obtain ⟨_, _, first, _⟩ := gives_bind gives
    cases (gives_parse first).result
  · change (explicitGenericInvocation.read (readWithin (n + 1)) later).Gives t rest at gives
    obtain ⟨typeArguments, mid, typed, gives⟩ := gives_bind gives
    obtain ⟨start, _, peeked, gives⟩ := gives_bind gives
    obtain ⟨rfl, rfl⟩ := gives_peek peeked
    obtain ⟨invocation, rfl, invoked⟩ := gives_made gives
    have typed : Rule.Gives .nonwildcardTypeArguments later typeArguments _ := ⟨_, gives_parse typed⟩
    rcases gives_ifTaken ["super"] (by decide) (gives_parse invoked) with ⟨behind, word, suffix⟩ | ⟨-, plain⟩
    · have spelled := Suffix.Spelled.genericSuper dot typed word ⟨_, gives_parse suffix⟩
      refine ⟨_, spelled, fun names start => ?_⟩
      obtain ⟨kind, fields, rfl, known⟩ := gives_superSuffix (gives_parse suffix)
      simp only [mem_cons, not_mem_nil, or_false] at known
      rcases known with rfl | rfl | rfl <;> rfl
    · obtain ⟨name, _, named, plain⟩ := gives_bind plain
      obtain ⟨arguments, rfl, called⟩ := gives_made plain
      obtain ⟨u, rfl, cls, rfl⟩ := gives_identifier (gives_parse named)
      exact ⟨_, .generic dot typed cls ⟨_, gives_parse called⟩, fun names start => rfl⟩

/-- **What is read behind a name** is a suffix, and decides the node. -/
theorem gives_identifierSuffix (gives : (Rule.identifierSuffix.readWithin n ahead).Gives t rest) :
    ∃ s : Suffix, s.Spelled ahead rest ∧
      ∀ names start, qualify names start t = (s.node names).placeAt (positionOf start) := by
  obtain ⟨n, rfl, gives⟩ := gives_rule gives
  rcases gives_ifTaken pair (by decide) gives with ⟨mid, first, gives⟩ | ⟨noBracket, gives⟩
  · obtain ⟨dimensions, _, counted, gives⟩ := gives_bind gives
    obtain ⟨_, last, gives⟩ := gives_words [".", "class"] gives
    obtain ⟨rfl, rfl⟩ := gives_pure gives
    have words := (first.append (gives_arrayDimension (gives_parse counted))).append last
    exact ⟨.classOf (dimensions + 1), .classOf words, fun names start => rfl⟩
  rcases gives_ifThere ["("] (by decide) gives with ⟨-, gives⟩ | ⟨noCall, gives⟩
  · obtain ⟨arguments, rfl, called⟩ := gives_made gives
    exact ⟨.call arguments, .call ⟨_, gives_parse called⟩, fun names start => rfl⟩
  rcases gives_ifTaken [".", "class"] (by decide) gives with ⟨mid, words, gives⟩ | ⟨noClass, gives⟩
  · obtain ⟨rfl, rfl⟩ := gives_pure gives
    exact ⟨.classOf 0, .classOf words, fun names start => rfl⟩
  rcases gives_ifTaken [".", "this"] (by decide) gives with ⟨mid, words, gives⟩ | ⟨noThis, gives⟩
  · obtain ⟨rfl, rfl⟩ := gives_pure gives
    exact ⟨.thisOf, .thisOf words, fun names start => rfl⟩
  rcases gives_ifThere [".", "<"] (by decide) gives with ⟨there, gives⟩ | ⟨noGeneric, gives⟩
  · obtain ⟨_, later, took, gives⟩ := gives_bind gives
    obtain ⟨u, took⟩ := gives_discard took
    cases gives_take took
    obtain ⟨_, _, same, dot, -⟩ := (spells_of_startsWith there).of_cons
    cases same
    exact gives_explicitGenericInvocation (.one dot) (gives_parse gives)
  rcases gives_ifTaken [".", "new"] (by decide) gives with ⟨mid, words, gives⟩ | ⟨noNew, gives⟩
  · refine ⟨.creator t, .creator words gives, fun names start => ?_⟩
    obtain ⟨fields, typeArguments, rfl⟩ := gives_innerCreatorRest gives
    rfl
  rcases gives_ifThere [".", "super", "("] (by decide) gives with ⟨-, gives⟩ | ⟨noSuper, gives⟩
  · obtain ⟨_, words, gives⟩ := gives_words [".", "super"] gives
    obtain ⟨arguments, rfl, called⟩ := gives_made gives
    exact ⟨.superCall arguments, .superCall words ⟨_, gives_parse called⟩, fun names start => rfl⟩
  · obtain ⟨rfl, rfl⟩ := gives_pure gives
    refine ⟨.bare, .bare ?_, fun names start => rfl⟩
    simp only [suffixStarts, forall_mem_cons]
    exact ⟨noBracket, noCall, noClass, noThis, noGeneric, noNew, noSuper, by simp⟩

end

/-! ## Names -/

def furtherWords (more : List Name) : List Text := more.flatMap fun name => [Text.ofString ".", name.text]

/-- Words of the class that they have, one after the other. -/
theorem Written.cons {word : Text} {words : List Text} {ahead rest : List Token}
    (written : Written (word :: words) ahead rest) :
    ∃ t later, ahead = t :: later ∧ t.value = word ∧ t.Worded ∧ Written words later rest := by
  obtain ⟨used, rfl, same, worded⟩ := written
  obtain ⟨t, used, rfl, rfl, rfl⟩ := map_eq_cons_iff.1 same
  obtain ⟨here, worded⟩ := forall_mem_cons.1 worded
  exact ⟨t, used ++ rest, rfl, rfl, here, used, rfl, rfl, worded⟩

section

variable {n : Nat} {more : List Name} {ahead rest : List Token} {u : Tree}

/-- The parts of a name behind the first are taken one by one. The induction is on them. -/
theorem turns_names (written : Written (furtherWords more) ahead rest)
    (ends : fitAll [".", .cls .identifier] rest = false) :
    Turns (readWithin (n + 1)) (wouldAccept [".", .cls .identifier]) (do
      discard <| accept ["."]
      parse .identifier) ahead (more.map Name.text) rest := by
  induction more generalizing ahead with
  | nil =>
    rw [written.spells.eq_of_nil]
    refine .done ?_
    rw [read_wouldAccept (cons_ne_nil _ _), ends]
  | cons name more ih =>
    obtain ⟨dot, _, rfl, dotted, -, written⟩ := written.cons
    obtain ⟨t, later, rfl, value, worded, written⟩ := written.cons
    have cls : t.cls = .identifier := worded.identifier.2 (value ▸ name.isName)
    have dotFits : Pattern.fits (some dot) (.word (ofString ".")) = true := isWord_some.2 dotted
    have fits : Pattern.fits (some t) (.cls .identifier) = true := isOf_of_cls cls rfl
    refine .more ?_ ?_ (ih written)
    · simp only [read_wouldAccept (cons_ne_nil _ _), fitAll, getElem?_cons_zero, tail_cons,
        dotFits, fits, Bool.and_true]
    · rw [read_monad_bind, read_discard, read_accept_cons, if_pos dotFits, andThen_pure,
        andThen_pure, read_parse, read_identifier n cls, value]

theorem read_primary_named {t : Token} (worded : t.Worded) (isName : IsName t.value) (later : List Token)
    {follow : Reader} : primary.read follow (t :: later) = (named (some t)).read follow (t :: later) := by
  have cls := worded.identifier.2 isName
  have notLiteral : isOf (some t) .literal = false := isOf_of_cls cls rfl
  have isIdentifier : isOf (some t) .identifier = true := isOf_of_cls cls rfl
  have ne {w : String} (mem : ofString w ∈ nameless) : t.value ≠ ofString w :=
    fun same => not_isName mem (same ▸ isName)
  have unfit {w : String} (mem : ofString w ∈ nameless) :
      Pattern.fits (t :: later)[0]? (.word (ofString w)) = false := unfit_word (ne mem)
  have parenthesis : isWord (some t) "(" = false := unfit (by decide)
  have bracket : isWord (some t) "<" = false := unfit (by decide)
  have super : t.value ≠ "super" := ne (by decide)
  simp only [primary, read_monad_bind, read_peek, andThen_pure, getElem?_cons_zero, notLiteral,
    parenthesis, Bool.false_eq_true, if_false, read_tryAccept_unfit (unfit (w := "this") (by decide)),
    read_wouldAccept (cons_ne_nil _ _) (t :: later), unfit_first super,
    read_tryAccept_unfit (unfit (w := "super") (by decide)),
    read_tryAccept_unfit (unfit (w := "new") (by decide)), bracket, isIdentifier, if_true]

/-- **A name and what follows it.** The node is made of the name and of what is read behind it. -/
theorem primary_named {first : Name} {tokens : List Token}
    (written : Written (first.text :: furtherWords more) tokens ahead)
    (ends : fitAll [".", .cls .identifier] ahead = false)
    (suffix : (Rule.identifierSuffix.readWithin (n + 1) ahead).Gives u rest) :
    (Rule.primary.readWithin (n + 2) tokens).Gives
      (qualify ((first :: more).map Name.text) tokens[0]? u) rest := by
  obtain ⟨t, later, rfl, value, worded, written⟩ := written.cons
  have isName : IsName t.value := value ▸ first.isName
  have bound : (more.map Name.text).length ≤ later.length + 1 := by
    have length := written.spells.length_eq
    have count : (furtherWords more).length = 2 * more.length := by simp [furtherWords, Nat.mul_comm]
    rw [length_map]
    omega
  change (primary.read (readWithin (n + 1)) (t :: later)).Gives _ rest
  rw [read_primary_named worded isName, named, read_monad_bind, read_parse,
    read_identifier n (worded.identifier.2 isName), andThen_pure, read_bind_ok ((turns_names written ends).read_whileTrue bound), read_monad_bind, read_parse, value]
  exact gives_of_andThen suffix ⟨rfl, rfl⟩

end

end JavaSource.Grammar

namespace JavaSource.Parser

open Grammar Lexer

/-- **Names and what follows them.** In front of a name whose parts are all taken, and of a suffix that is accepted
alone, a primary expression is read up to the end of the suffix, at the place of the name. The node that is built is
the one that records all of the name and of the suffix exactly if the suffix is neither an invocation with type
arguments before the name of the method nor an array class. -/
theorem follow_named {p q : Parser} {first : Name} {more : List Name} {tokens ahead rest : List Token} {u : Tree}
    (written : Written (first.text :: furtherWords more) tokens ahead)
    (ends : Pattern.fitAll [".", .cls .identifier] ahead = false) (alone : p.Facing ahead)
    (accepted : (p.run (follow plainly .identifierSuffix)).1 = .ok u)
    (left : (p.run (follow plainly .identifierSuffix)).2.Facing rest) (facing : q.Facing tokens) :
    ∃ s : Suffix, s.Spelled ahead rest ∧
      (q.run (follow plainly .primary)).1 =
        .ok ((s.node ((first :: more).map Name.text)).placeAt (positionOf tokens[0]?)) ∧
      (q.run (follow plainly .primary)).2.Facing rest ∧
      (s.node ((first :: more).map Name.text) = s.whole ((first :: more).map Name.text) ↔ s.kept = true) := by
  have suffix := alone.gives accepted left
  obtain ⟨s, spelled, built⟩ := gives_identifierSuffix suffix
  have length := written.spells.length_eq
  rw [length_cons] at length
  obtain ⟨n, depth, deeper, -⟩ := exists_nesting (k := 2) tokens.length (by decide)
  have gives : (Rule.primary.reads tokens).Gives (Body.qualify ((first :: more).map Name.text) tokens[0]? u) rest := by
    rw [Rule.reads, depth]
    exact primary_named written ends (gives_deeper (Nat.le_succ_of_le (deeper _ (by omega))) suffix)
  rw [built] at gives
  obtain ⟨read, behind⟩ := facing.run_of_gives gives
  have parts : ∀ name ∈ (first :: more).map Name.text, name ≠ [] := by
    intro word mem
    obtain ⟨name, -, rfl⟩ := mem_map.1 mem
    intro empty
    have start := name.isName.start
    rw [empty] at start
    cases start
  exact ⟨s, spelled, read, behind, Suffix.node_eq_whole_iff (cons_ne_nil _ _) parts s⟩

/-- A name of two parts, and arguments behind it. -/
theorem follow_named_call :
    Written [Text.ofString "a", Text.ofString ".", Text.ofString "b"] (tokensOf "a.b" ++ tokensOf "(c);")
        (tokensOf "(c);") ∧
      ∃ s : Suffix,
        ((ofTokens (tokensOf "a.b" ++ tokensOf "(c);")).run (follow plainly .primary)).1 =
          .ok ((s.node ["a", "b"]).placeAt (positionOf (tokensOf "a.b" ++ tokensOf "(c);")[0]?)) ∧
        (s.node ["a", "b"] = s.whole ["a", "b"] ↔ s.kept = true) := by
  obtain ⟨values, isName, isName', stops, succeeds⟩ :
      (tokensOf "a.b").map Token.value = [ofString "a", ofString ".", ofString "b"] ∧ IsName "a" ∧ IsName "b" ∧
      Pattern.fitAll [".", .cls .identifier] (tokensOf "(c);") = false ∧
      ((ofTokens (tokensOf "(c);")).run (follow plainly .identifierSuffix)).1.toBool = true := by decide +kernel
  have written : Written [ofString "a", ofString ".", ofString "b"]
      (tokensOf "a.b" ++ tokensOf "(c);") (tokensOf "(c);") :=
    ⟨_, rfl, values, tokenize_worded _ _⟩
  have left := (follow_does .identifierSuffix (facing_ofTokens (tokensOf "(c);"))).moved.facing
  obtain ⟨u, read⟩ := exists_ok succeeds
  obtain ⟨s, -, run, -, kept⟩ := @follow_named _ _ ⟨"a", isName⟩ [⟨"b", isName'⟩] _ _ _ u written stops
    (facing_ofTokens _) read left (facing_ofTokens _)
  exact ⟨written, s, run, kept⟩

/-- Not all of a name and of a suffix is recorded: of an invocation with type arguments, the method is not. -/
theorem generic_method_lost :
    ¬ ∀ (first : Name) (tokens ahead rest : List Token) (s : Suffix), Written [first.text] tokens ahead →
      Pattern.fitAll [".", .cls .identifier] ahead = false → s.Spelled ahead rest →
      ((ofTokens tokens).run (follow plainly .primary)).1 =
        .ok ((s.whole [first.text]).placeAt (positionOf tokens[0]?)) := by
  intro all
  obtain ⟨tokens, worded, name, dot, stops, typed, typesEnd, fifth, called, argumentsEnd, isName, member⟩ :
      ∃ tokens : List Token, (∀ t ∈ tokens, t.Worded) ∧ (tokens.take 1).map Token.value = [ofString "a"] ∧
      ((tokens.drop 1).take 1).map Token.value = [ofString "."] ∧
      Pattern.fitAll [".", .cls .identifier] (tokens.drop 1) = false ∧
      (Rule.nonwildcardTypeArguments.reads ((tokens.drop 1).drop 1)).result.toBool = true ∧
      (Rule.nonwildcardTypeArguments.reads ((tokens.drop 1).drop 1)).ahead = tokens.drop 5 ∧
      tokens[5]?.any (fun t => t.cls == .identifier && t.value != ofString "a") = true ∧
      (Rule.arguments.reads (tokens.drop 6)).result.toBool = true ∧
      (Rule.arguments.reads (tokens.drop 6)).ahead = tokens.drop 8 ∧ IsName "a" ∧
      ((ofTokens tokens).run (follow plainly .primary)).1.toOption.any
        (fun t => Tree.sameLeaf (t.get .member) (.text "a")) = true :=
    ⟨tokensOf "a.<T>m();", tokenize_worded _ _, by decide +kernel⟩
  obtain ⟨typeArguments, types⟩ := exists_ok typed
  obtain ⟨arguments, values⟩ := exists_ok called
  obtain ⟨method, given, other⟩ := (Option.any_eq_true _ _).1 fifth
  obtain ⟨isIdentifier, other⟩ := Bool.and_eq_true_iff.1 other
  obtain ⟨inside, rfl⟩ := List.getElem?_eq_some_iff.1 given
  rw [drop_eq_getElem_cons inside] at typesEnd
  have written : Written [ofString "a"] tokens (tokens.drop 1) :=
    ⟨_, (take_append_drop 1 tokens).symm, name, fun t mem => worded t (mem_of_mem_take mem)⟩
  have spelled : (Suffix.generic typeArguments tokens[5].value arguments).Spelled (tokens.drop 1) (tokens.drop 8) :=
    .generic ⟨_, (take_append_drop 1 _).symm, dot⟩ ⟨_, types, typesEnd⟩ (eq_of_beq isIdentifier)
      ⟨_, values, argumentsEnd⟩
  rw [all ⟨"a", isName⟩ tokens _ _ _ written stops spelled] at member
  exact bne_iff_ne.1 other (eq_of_beq member)

end JavaSource.Parser
