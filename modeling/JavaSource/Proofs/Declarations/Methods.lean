import JavaSource.Proofs.Annotations.Statements

/-!
# Methods of classes and of interfaces

The members of a class and those of an interface are read by rules of their own. Where both accept the same tokens, and
the class reads a method there, they take the same tokens and give the same node, with one exception: brackets behind the
parameters of a generic method with a result type are dimensions of that type in a class, and are lost in an interface.
`methods_agree_iff` says so for every parser and all tokens.
-/

namespace JavaSource.Grammar

open Routine
open Rule (readWithin)

/-- A generic method with a result type stands here, with so many pairs of brackets behind its parameters. -/
inductive GenericMethod : List Token → Tree → Nat → Prop
  | brackets {ahead a b c d rest : List Token} {parameters formal : List Tree} {type : Tree} {name : Text} {n : Nat} :
    Rule.Gives .typeParameters ahead parameters a → isWord a[0]? "void" = false → Rule.Gives .type a type b →
    Rule.Gives .identifier b name c → Rule.Gives .formalParameters c formal d → Rule.Gives .arrayDimension d n rest →
    GenericMethod ahead type n

/-- A generic method with a result type stands behind modifiers. -/
def GenericMember (ahead : List Token) (type : Tree) (n : Nat) : Prop :=
  ∃ found mid, Rule.Gives .modifiers ahead found mid ∧ GenericMethod mid type n

section

variable {n : Nat} {ahead rest rest' : List Token}

variable {type y v x : Tree}

theorem GenericMethod.unique {type' : Tree} {n n' : Nat} (method : GenericMethod ahead type n)
    (method' : GenericMethod ahead type' n') : type = type' ∧ n = n' := by
  obtain ⟨parameters, -, typed, named, listed, counted⟩ := method
  obtain ⟨parameters', -, typed', named', listed', counted'⟩ := method'
  obtain ⟨-, rfl⟩ := parameters.unique parameters'
  obtain ⟨rfl, rfl⟩ := typed.unique typed'
  obtain ⟨-, rfl⟩ := named.unique named'
  obtain ⟨-, rfl⟩ := listed.unique listed'
  exact ⟨rfl, (counted.unique counted').1⟩

/-- Type parameters are in angle brackets. -/
theorem GenericMethod.angle (method : GenericMethod ahead type n) : isWord ahead[0]? "<" = true := by
  obtain ⟨⟨k, parameters⟩, -⟩ := method
  obtain ⟨k, rfl, parameters⟩ := gives_rule parameters
  obtain ⟨t, mid, rfl, fits, -⟩ := gives_accepted parameters
  exact fits

theorem Outcome.Gives.unique {α : Type} {o : Outcome α} {x y : α} (gives : o.Gives x rest) (gives' : o.Gives y rest')
    : x = y ∧ rest = rest' :=
  ⟨Except.ok.inj (gives.result.symm.trans gives'.result), gives.ahead.symm.trans gives'.ahead⟩

/-- Two readings that start with the same routine go on behind the same value. -/
theorem gives_bind_both {α β γ : Type} {R : Routine α} {f : α → Routine β} {g : α → Routine γ} {y : β} {z : γ}
    (one : ((R >>= f).read (readWithin n) ahead).Gives y rest)
    (other : ((R >>= g).read (readWithin n) ahead).Gives z rest') :
    ∃ x mid, (R.read (readWithin n) ahead).Gives x mid ∧ ((f x).read (readWithin n) mid).Gives y rest ∧
      ((g x).read (readWithin n) mid).Gives z rest' := by
  obtain ⟨x, mid, gives, one⟩ := gives_bind one
  obtain ⟨x', mid', gives', other⟩ := gives_bind other
  obtain ⟨rfl, rfl⟩ := gives.unique gives'
  exact ⟨x, mid, gives, one, other⟩

theorem gives_tryVoid {isVoid : Bool} {later : List Token}
    (tested : ((tryAccept ["void"]).read (readWithin n) ahead).Gives isVoid later) :
    isVoid = isWord ahead[0]? "void" ∧ later = if isVoid then ahead.tail else ahead := by
  rcases (gives_tryAccept (by decide) tested : (isVoid = true ∧ Spells ["void"] ahead later) ∨
      (isVoid = false ∧ later = ahead ∧ startsWith ["void"] ahead = false)) with ⟨rfl, spells⟩ | ⟨rfl, rfl, apart⟩
  · obtain ⟨t, _, rfl, value, ended⟩ := spells.of_cons
    exact ⟨(isWord_some.2 value).symm, ended.eq_of_nil.symm⟩
  · exact ⟨((fits_word _ _).trans apart).symm, rfl⟩

theorem genericMember_eq {found : Modifiers} {mid : List Token} (modified : Rule.Gives .modifiers ahead found mid) :
    GenericMember ahead = GenericMethod mid := by
  funext type n
  refine propext ⟨?_, fun method => ⟨found, mid, modified, method⟩⟩
  rintro ⟨found', mid', modified', method⟩
  obtain ⟨-, rfl⟩ := modified.unique modified'
  exact method

/-! ## Dimensions -/

theorem assign_of_lookup {a : Attr} {fields : List (Attr × Tree)} (has : Tree.lookup a fields = some v) :
    Tree.assign a v fields = fields := by
  induction fields with
  | nil => cases has
  | cons field fields ih =>
    obtain ⟨b, w⟩ := field
    rw [Tree.lookup] at has
    rw [Tree.assign]
    split at has
    · rename_i same
      cases has
      rw [if_pos same, same]
    · rename_i other
      rw [if_neg other, ih has]

/-- To set an attribute changes nothing exactly if it is the same as before. -/
theorem eq_put_iff {t w : Tree} {a : Attr} (has : t.get? a = some v) (other : a ≠ .value) : t = t.put a w ↔ v = w :=
    by
  constructor
  · intro same
    have got := Tree.get?_put (v := w) (Tree.isObject_of_get? has) other
    rw [← same, has] at got
    exact Option.some.inj got
  · rintro rfl
    cases t with
    | node kind fields place => rw [Tree.put, assign_of_lookup has]
    | token cls value position javadoc fields place =>
      rw [Tree.get?, if_neg other] at has
      rw [Tree.put, assign_of_lookup has]
    | _ => rfl

theorem addDimensions_eq_iff (has : type.HasDimensions) (n : Nat) :
    addDimensions type (.dimensions n) = type ↔ n = 0 := by
  obtain ⟨items, found⟩ := has
  have got : type.get .dimensions = .list items := by rw [Tree.get, found, Option.getD_some]
  rw [addDimensions, got, eq_comm, eq_put_iff found (by decide)]
  simp [Tree.items, Tree.dimensions]

/-! ## Kinds -/

theorem isA_on (found : Modifiers) (position : Option Position) (t : Tree) (kind : Kind) :
    (found.on (t.placeAt position)).isA kind = t.isA kind := by
  cases t <;> rfl

theorem isA_put (t : Tree) (a : Attr) (v : Tree) (kind : Kind) : (t.put a v).isA kind = t.isA kind := by
  cases t <;> rfl

theorem isA_placeAt (t : Tree) (position : Option Position) (kind : Kind) :
    (t.placeAt position).isA kind = t.isA kind := by
  cases t <;> rfl

theorem isA_nameMember (name : Text) (type t : Tree) (kind : Kind) :
    (Body.nameMember name type t).isA kind = t.isA kind := by
  rw [Body.nameMember]
  split
  · rw [nameMethod, isA_put, isA_put]
  · rw [nameFirst]
    split
    · rw [isA_put]
    · rw [isA_put, isA_put]

theorem gives_constructor (gives : (Body.constructor.read (readWithin n) ahead).Gives x rest) :
    x.isA .methodDeclaration = false := by
  obtain ⟨name, _, -, behind⟩ := gives_bind gives
  obtain ⟨declaration, rfl, declared⟩ := gives_made behind
  replace declared := gives_parse declared
  obtain ⟨n, rfl, declared⟩ := gives_rule declared
  obtain ⟨_, _, -, behind⟩ := gives_bind declared
  obtain ⟨_, _, -, behind⟩ := gives_bind behind
  obtain ⟨_, rfl, -⟩ := gives_made behind
  rfl

/-! ## What is behind the name -/

/-- Where a method is read without a result type, there are no brackets behind its parameters. -/
theorem methodRests_agree {t : Tree} (void : (Body.voidMethodRest.read (readWithin n) ahead).Gives v rest)
    (typed : (Body.typedMethodRest.read (readWithin n) ahead).Gives t rest') :
    ∃ given, t = .make .methodDeclaration given ∧ v = t.put .returnType .null ∧ rest = rest' := by
  obtain ⟨formal, mid, -, void, typed⟩ := gives_bind_both void typed
  obtain ⟨count, later, counted, typed⟩ := gives_bind typed
  have brackets := gives_arrayDimension (gives_parse counted)
  cases count with
  | zero =>
    obtain rfl := brackets.eq_of_nil
    obtain ⟨throws, _, -, void, typed⟩ := gives_bind_both void typed
    obtain ⟨body, _, -, made, made'⟩ := gives_bind_both void typed
    obtain ⟨rfl, rfl⟩ := gives_pure made
    obtain ⟨rfl, rfl⟩ := gives_pure made'
    exact ⟨_, rfl, rfl, rfl⟩
  | succ count =>
    obtain ⟨throws, front, thrown, void⟩ := gives_bind void
    obtain ⟨body, _, bodied, -⟩ := gives_bind void
    obtain ⟨t, more, rfl, value, -⟩ := brackets.of_cons
    have apart {word : Text} (other : Text.ofString "[" ≠ word) : startsWith [word] (t :: more) = false :=
      startsWith_ne (value ▸ other) [] more
    rcases gives_ifTaken ["throws"] (by decide) thrown with ⟨_, spells, -⟩ | ⟨-, none⟩
    · cases (apart (by decide)).symm.trans spells.startsWith.1
    obtain ⟨rfl, rfl⟩ := gives_pure none
    rcases gives_ifThere ["\x7b"] (by decide) bodied with ⟨starts, -⟩ | ⟨-, ended⟩
    · cases (apart (by decide)).symm.trans starts
    obtain ⟨_, spells, -⟩ := gives_words [";"] ended
    cases (apart (by decide)).symm.trans spells.startsWith.1

/-! ## Members -/

theorem methodRest_same (n : Nat) (ahead : List Token) :
    Rule.methodDeclaratorRest.readWithin n ahead = Rule.interfaceMethodDeclaratorRest.readWithin n ahead := by
  cases n <;> rfl

/-- Neither generic nor without a result type: the two rules read methods alike. -/
theorem typedMembers_agree (one : (Rule.methodOrFieldDeclaration.readWithin n ahead).Gives x rest)
    (other : (Rule.interfaceMethodOrFieldDeclaration.readWithin n ahead).Gives y rest')
    (isMethod : x.isA .methodDeclaration = true) : x = y ∧ rest = rest' := by
  obtain ⟨n, rfl, one⟩ := gives_rule one
  obtain ⟨type, _, -, one, other⟩ := gives_bind_both one other
  obtain ⟨name, mid, -, one, other⟩ := gives_bind_both one other
  obtain ⟨member, rfl, read⟩ := gives_made one
  obtain ⟨member', rfl, read'⟩ := gives_made other
  replace read := gives_parse read
  replace read' := gives_parse read'
  obtain ⟨n, rfl, read⟩ := gives_rule read
  obtain ⟨_, _, peeked, read⟩ := gives_bind read
  obtain ⟨_, looked⟩ := gives_discard peeked
  obtain ⟨-, rfl⟩ := gives_peek looked
  rcases gives_ifThere ["("] (by decide) read with ⟨opens, read⟩ | ⟨-, read⟩
  · rcases gives_ifThere ["("] (by decide) read' with ⟨-, read'⟩ | ⟨closed, -⟩
    · replace read := gives_parse read
      rw [methodRest_same] at read
      obtain ⟨rfl, rfl⟩ := read.unique (gives_parse read')
      exact ⟨rfl, rfl⟩
    · cases opens.symm.trans closed
  · obtain ⟨field, _, fielded, done⟩ := gives_bind read
    obtain ⟨_, rfl, -⟩ := gives_made done
    have shaped := Rule.shaped_of_readWithin (by decide) (gives_parse fielded).result
    cases isMethod.symm.trans ((isA_nameMember ..).trans shaped.1)

/-- The node of a class and that of an interface are the same, unless brackets make the difference. -/
def NodesAgree (generic : Tree → Nat → Prop) (m d : Tree) : Prop :=
  (m = d ∧ ∀ type n, ¬ generic type n) ∨
    ∃ type n, generic type n ∧ type.HasDimensions ∧
      m.get? .returnType = some (addDimensions type (.dimensions n)) ∧ d = m.put .returnType type

theorem genericMethods_agree (one : (Rule.genericMethodOrConstructorDeclaration.readWithin n ahead).Gives x rest)
    (other : (Rule.interfaceGenericMethodDeclarator.readWithin n ahead).Gives y rest')
    (isMethod : x.isA .methodDeclaration = true) (found : Modifiers) (position : Option Position) :
    NodesAgree (GenericMethod ahead) (found.on (x.placeAt position)) (found.on (y.placeAt position)) ∧ rest = rest' := by
  obtain ⟨n, rfl, one⟩ := gives_rule one
  obtain ⟨parameters, mid, listed, one₁, other₁⟩ := gives_bind_both one other
  rw [read_bind_ok (read_peek ..), read_bind_ok (read_wouldAccept (by simp) ..)] at one₁
  obtain ⟨isVoid, later, tested, one₂, other₂⟩ := gives_bind_both one₁ other₁
  have typed : Rule.Gives .typeParameters ahead parameters mid := ⟨n, gives_parse listed⟩
  obtain ⟨rfl, rfl⟩ := gives_tryVoid tested
  split at one₂
  · obtain ⟨method, rfl, constructed⟩ := gives_made one₂
    rw [isA_put, isA_placeAt, gives_constructor constructed] at isMethod
    cases isMethod
  cases void : isWord mid[0]? "void" with
  | true =>
    rw [void, if_pos rfl] at one₂ other₂
    obtain ⟨method, rfl, voided⟩ := gives_made one₂
    rw [read_bind_ok (read_monad_pure ..)] at other₂
    obtain ⟨name, _, -, one₃, other₃⟩ := gives_bind_both voided other₂
    obtain ⟨v, rfl, read⟩ := gives_made one₃
    obtain ⟨t, rfl, read'⟩ := gives_made other₃
    replace read := gives_parse read
    obtain ⟨n, rfl, read⟩ := gives_rule read
    obtain ⟨given, rfl, rfl, rfl⟩ := methodRests_agree read (gives_parse read')
    refine ⟨.inl ⟨rfl, ?_⟩, rfl⟩
    rintro type count ⟨typed', noVoid, -⟩
    obtain ⟨-, rfl⟩ := typed.unique typed'
    cases noVoid.symm.trans void
  | false =>
    rw [void, if_neg Bool.false_ne_true] at one₂ other₂
    obtain ⟨type, _, isType, one₃, other₃⟩ := gives_bind_both one₂ other₂
    obtain ⟨name, _, named, one₄, other₄⟩ := gives_bind_both one₃ other₃
    obtain ⟨method, _, read, one₅⟩ := gives_bind one₄
    obtain ⟨method', rfl, read'⟩ := gives_made other₄
    replace read := gives_parse read
    rw [methodRest_same] at read
    obtain ⟨rfl, rfl⟩ := read.unique (gives_parse read')
    rw [read_bind_ok (read_monad_pure ..)] at one₅
    obtain ⟨rfl, rfl⟩ := gives_pure one₅
    obtain ⟨n, rfl, read⟩ := gives_rule read
    obtain ⟨formal, _, listed, read₁⟩ := gives_bind read
    obtain ⟨count, _, counted, read₂⟩ := gives_bind read₁
    obtain ⟨throws, _, -, read₃⟩ := gives_bind read₂
    obtain ⟨body, rfl, -⟩ := gives_made read₃
    have method : GenericMethod ahead type count := .brackets typed void
      ⟨_, gives_parse isType⟩ ⟨_, gives_parse named⟩ ⟨_, gives_parse listed⟩ ⟨_, gives_parse counted⟩
    have has : type.HasDimensions := Rule.shaped_of_readWithin (by decide) (gives_parse isType).result
    exact ⟨.inr ⟨type, count, method, has, rfl, rfl⟩, rfl⟩

/-- The declaration of an annotation type starts with its sign. -/
theorem gives_annotationType (gives : (Rule.annotationTypeDeclaration.readWithin n ahead).Gives x rest) :
  isWord ahead[0]? "@" = true := by
  obtain ⟨n, rfl, gives⟩ := gives_rule gives
  obtain ⟨_, words, -⟩ := gives_words ["@", "interface"] gives
  obtain ⟨t, _, rfl, value, -⟩ := words.of_cons
  exact isWord_some.2 value

theorem voidMethod_same (n : Nat) (ahead : List Token) :
    (Body.voidMethod (parse .voidMethodDeclaratorRest)).read (readWithin n) ahead =
      (Body.voidMethod (parse .voidInterfaceMethodDeclaratorRest)).read (readWithin n) ahead := by
  cases n <;> rfl

/-- The rule for the type that is declared here, if the first tokens are those of one. -/
def nestedType? (ahead : List Token) : Option (Routine Tree) :=
  if isWord ahead[0]? "class" then some (parse .normalClassDeclaration)
  else if isWord ahead[0]? "enum" then some (parse .enumDeclaration)
  else if isWord ahead[0]? "interface" then some (parse .normalInterfaceDeclaration)
  else if isOf ahead[0]? .atSign && isWord ahead[1]? "interface" then some (parse .annotationTypeDeclaration)
  else none

/-- Reads a member behind its modifiers: a method without result, one with type parameters, a type, or something else. -/
def readMember (n : Nat) (void generic other : Routine Tree) (ahead : List Token) : Outcome Tree :=
  if isWord ahead[0]? "void" then void.read (readWithin n) ahead.tail
  else if isWord ahead[0]? "<" then generic.read (readWithin n) ahead
  else ((nestedType? ahead).getD other).read (readWithin n) ahead

theorem gives_classMember {m : Tree} (gives : (Rule.memberDeclaration.readWithin (n + 1) ahead).Gives m rest) :
    ∃ found mid x, Rule.Gives .modifiers ahead found mid ∧ m = found.on (x.placeAt (positionOf mid[0]?)) ∧
      (readMember n (Body.voidMethod (parse .voidMethodDeclaratorRest)) (parse .genericMethodOrConstructorDeclaration)
        (if Pattern.fitAll [.cls .identifier, "("] mid then Body.constructor else parse .methodOrFieldDeclaration)
        mid).Gives x rest := by
  obtain ⟨found, mid, modified, gives₁⟩ := gives_bind gives
  rw [read_bind_ok (read_peek ..)] at gives₁
  obtain ⟨isVoid, later, tested, gives₂⟩ := gives_bind gives₁
  obtain ⟨rfl, rfl⟩ := gives_tryVoid tested
  rw [read_bind_ok (read_annotationDeclarationAt ..), read_bind_ok (read_wouldAccept (by simp) ..)] at gives₂
  have modifiers : Rule.Gives .modifiers ahead found mid := ⟨_, gives_parse modified⟩
  repeat' split at gives₂
  all_goals
    obtain ⟨x, rfl, read⟩ := gives_made gives₂
    refine ⟨found, mid, x, modifiers, rfl, ?_⟩
    simp only [readMember, nestedType?, *, if_true, if_false, Bool.false_eq_true, Option.getD_some, Option.getD_none]

/-- In an interface all tests are made before the first choice. -/
theorem gives_interfaceMember {d : Tree}
    (gives : (Rule.interfaceBodyDeclaration.readWithin (n + 2) ahead).Gives (some d) rest) :
    ∃ found mid x, Rule.Gives .modifiers ahead found mid ∧ d = found.on (x.placeAt (positionOf mid[0]?)) ∧
      (readMember n (Body.voidMethod (parse .voidInterfaceMethodDeclaratorRest))
        (parse .interfaceGenericMethodDeclarator) (parse .interfaceMethodOrFieldDeclaration) mid).Gives x rest := by
  rcases gives_ifTaken [";"] (by decide) gives with ⟨_, -, nothing⟩ | ⟨-, gives₁⟩
  · cases (gives_pure nothing).1
  obtain ⟨found, mid, modified, gives₂⟩ := gives_bind gives₁
  obtain ⟨declaration, same, declared⟩ := gives_made gives₂
  cases same
  replace declared : (Body.interfaceMemberDeclaration.read (readWithin n) mid).Gives declaration rest :=
    gives_parse declared
  rw [Body.interfaceMemberDeclaration, read_bind_ok (read_peek ..),
    read_bind_ok (read_wouldAccept_one ..), read_bind_ok (read_wouldAccept_one ..), read_bind_ok (read_wouldAccept_one ..), read_bind_ok (read_annotationDeclarationAt ..), read_bind_ok (read_wouldAccept_one ..)] at declared
  obtain ⟨isVoid, later, tested, declared₁⟩ := gives_bind declared
  obtain ⟨rfl, rfl⟩ := gives_tryVoid tested
  have modifiers : Rule.Gives .modifiers ahead found mid := ⟨_, gives_parse modified⟩
  have word (s : String) : Pattern.fits mid[0]? (.word (Text.ofString s)) = isWord mid[0]? s := rfl
  simp only [word] at declared₁
  cases void : isWord mid[0]? "void" with
  | true =>
    simp only [void, isWord_ne (w := "class") void (by decide), isWord_ne (w := "interface") void (by decide),
      isWord_ne (w := "enum") void (by decide), isWord_ne (w := "<") void (by decide), Bool.false_eq_true, if_false,
      if_true] at declared₁
    split at declared₁
    · -- An annotation type does not start with the word `interface`.
      obtain ⟨x, rfl, read⟩ := gives_made declared₁
      have isAt := gives_annotationType (gives_parse read)
      rw [← List.drop_one, List.getElem?_drop] at isAt
      cases (isWord_ne (w := "interface") isAt (by decide)).symm.trans (Bool.and_eq_true_iff.1 ‹_›).2
    · obtain ⟨x, rfl, read⟩ := gives_made declared₁
      exact ⟨found, mid, x, modifiers, rfl, by simp only [readMember, void, if_true, read]⟩
  | false =>
    simp only [void, Bool.false_eq_true, if_false] at declared₁
    repeat' split at declared₁
    all_goals
      obtain ⟨x, rfl, read⟩ := gives_made declared₁
      refine ⟨found, mid, x, modifiers, rfl, ?_⟩
      simp only [readMember, nestedType?, *, if_true, if_false, Bool.false_eq_true, Option.getD_some, Option.getD_none]
    -- A type that is declared starts with no angle bracket, so that the order of the tests makes no difference.
    · have is := ‹isWord mid[0]? "class" = true›
      simp only [isWord_ne (w := "<") is (by decide), Bool.false_eq_true, if_false, read]
    · have is := ‹isWord mid[0]? "interface" = true›
      simp only [isWord_ne (w := "<") is (by decide), isWord_ne (w := "enum") is (by decide), Bool.false_eq_true,
        if_false, Option.getD_some, read]
    · have is := ‹isWord mid[0]? "enum" = true›
      simp only [isWord_ne (w := "<") is (by decide), Bool.false_eq_true, if_false, read]
    · have is := gives_annotationType (gives_parse read)
      simp only [isWord_ne (w := "<") is (by decide), Bool.false_eq_true, if_false, read]

/-- The rule for members of interfaces is one call deeper than that for members of classes. -/
theorem members_agree {m d : Tree} (one : (Rule.memberDeclaration.readWithin (n + 1) ahead).Gives m rest)
    (other : (Rule.interfaceBodyDeclaration.readWithin (n + 2) ahead).Gives (some d) rest')
    (isMethod : m.isA .methodDeclaration = true) : NodesAgree (GenericMember ahead) m d ∧ rest = rest' := by
  obtain ⟨found, mid, x, modifiers, rfl, one₁⟩ := gives_classMember one
  obtain ⟨found', mid', y, modifiers', rfl, other₁⟩ := gives_interfaceMember other
  obtain ⟨rfl, rfl⟩ := modifiers.unique modifiers'
  rw [isA_on] at isMethod
  rw [genericMember_eq modifiers]
  rw [readMember] at one₁ other₁
  -- What both read alike is no generic method.
  have alike (plain : isWord mid[0]? "<" = false) (same : x = y ∧ rest = rest') :
      NodesAgree (GenericMethod mid) (found.on (x.placeAt (positionOf mid[0]?)))
        (found.on (y.placeAt (positionOf mid[0]?))) ∧ rest = rest' := by
    obtain ⟨rfl, rfl⟩ := same
    exact ⟨.inl ⟨rfl, fun type n method => by cases method.angle.symm.trans plain⟩, rfl⟩
  by_cases void : isWord mid[0]? "void" = true
  · rw [if_pos void] at one₁ other₁
    rw [voidMethod_same] at one₁
    exact alike (isWord_ne void (by decide)) (one₁.unique other₁)
  rw [if_neg void] at one₁ other₁
  by_cases angle : isWord mid[0]? "<" = true
  · rw [if_pos angle] at one₁ other₁
    exact genericMethods_agree (gives_parse one₁) (gives_parse other₁) isMethod found _
  rw [if_neg angle] at one₁ other₁
  refine alike (Bool.eq_false_iff.2 angle) ?_
  cases nested : nestedType? mid with
  | some type =>
    rw [nested] at one₁ other₁
    exact one₁.unique other₁
  | none =>
    rw [nested, Option.getD_none] at one₁ other₁
    split at one₁
    · rw [gives_constructor one₁] at isMethod
      cases isMethod
    · exact typedMembers_agree (gives_parse one₁) (gives_parse other₁) isMethod

end

end JavaSource.Grammar

namespace JavaSource.Parser

open Grammar

/-- **Methods of classes and of interfaces.** Where a class has a method and an interface accepts the same tokens, both
read up to the same token. Their nodes are the same exactly if no brackets stand behind the parameters of a generic
method with a result type; and for such a method the return type of the class has the dimensions of the brackets, where
the interface has the type in front of the name, and all else is the same. -/
theorem methods_agree_iff {p : Parser} {ahead : List Token} {m d : Tree} (facing : p.Facing ahead)
    (read : (p.run (follow plainly .memberDeclaration)).1 = .ok m)
    (read' : (p.run (follow plainly .interfaceBodyDeclaration)).1 = .ok (some d))
    (isMethod : m.isA .methodDeclaration = true) :
    (∃ rest, (p.run (follow plainly .memberDeclaration)).2.Facing rest ∧
      (p.run (follow plainly .interfaceBodyDeclaration)).2.Facing rest) ∧
    (m = d ↔ ∀ type n, GenericMember ahead type n → n = 0) ∧ ∀ type n, GenericMember ahead type n →
      m.get? .returnType = some (addDimensions type (.dimensions n)) ∧ d = m.put .returnType type := by
  have does := follow_does .memberDeclaration facing
  have does' := follow_does .interfaceBodyDeclaration facing
  have one : (Rule.memberDeclaration.reads ahead).Gives m _ := ⟨does.result.symm.trans read, rfl⟩
  have other : (Rule.interfaceBodyDeclaration.reads ahead).Gives (some d) _ := ⟨does'.result.symm.trans read', rfl⟩
  obtain ⟨agree, same⟩ := members_agree one (gives_deeper (Nat.le_succ _) other) isMethod
  refine ⟨⟨_, does.moved.facing, same ▸ does'.moved.facing⟩, ?_⟩
  rcases agree with ⟨rfl, none⟩ | ⟨type, n, method, has, returns, rfl⟩
  · exact ⟨iff_of_true rfl fun type n method => absurd method (none type n), fun type n method =>
      absurd method (none type n)⟩
  · have unique {type' : Tree} {n' : Nat} (method' : GenericMember ahead type' n') : type = type' ∧ n = n' := by
      obtain ⟨found, mid, modified, method⟩ := method
      rw [genericMember_eq modified] at method'
      exact method.unique method'
    refine ⟨?_, fun type' n' method' => ?_⟩
    · rw [eq_put_iff returns (by decide), addDimensions_eq_iff has]
      refine ⟨fun zero type' n' method' => (unique method').2 ▸ zero, fun all => all type n method⟩
    · obtain ⟨rfl, rfl⟩ := unique method'
      exact ⟨returns, rfl⟩

def bracketedMethod : List Token :=
  [.spelled .operator "<", .spelled .identifier "T", .spelled .operator ">", .spelled .basicType "int",
    .spelled .identifier "f", .spelled .separator "(", .spelled .separator ")", .spelled .separator "[",
    .spelled .separator "]", .spelled .separator ";"]

def returnsArray (t : Tree) : Bool := t.isA .methodDeclaration && ((t.get .returnType).get .dimensions).isTrue

def returnsNoArray (t : Tree) : Bool := t.isA .methodDeclaration && !((t.get .returnType).get .dimensions).isTrue

theorem bracketedMethod_read : ∃ m d, ((ofTokens bracketedMethod).run (follow plainly .memberDeclaration)).1 = .ok m ∧
    ((ofTokens bracketedMethod).run (follow plainly .interfaceBodyDeclaration)).1 = .ok (some d) ∧
    m.isA .methodDeclaration = true ∧ d.isA .methodDeclaration = true ∧ m ≠ d := by
  have read : ((ofTokens bracketedMethod).run (follow plainly .memberDeclaration)).1.toOption.any returnsArray = true := by
    decide +kernel
  have read' : ((ofTokens bracketedMethod).run (follow plainly .interfaceBodyDeclaration)).1.toOption.any
      (·.any returnsNoArray) = true := by decide +kernel
  obtain ⟨m, given, array⟩ := exists_ok_of_any read
  obtain ⟨found, given', some_array⟩ := exists_ok_of_any read'
  obtain ⟨d, rfl, noArray⟩ := (Option.any_eq_true _ _).1 some_array
  obtain ⟨isMethod, filled⟩ := Bool.and_eq_true_iff.1 array
  obtain ⟨isMethod', empty⟩ := Bool.and_eq_true_iff.1 noArray
  refine ⟨m, d, given, given', isMethod, isMethod', ?_⟩
  rintro rfl
  rw [filled] at empty
  cases empty

/-- The tokens are accepted as a method by both rules, whose nodes are not the same. -/
theorem methods_agree_iff_brackets : ∃ m d type n,
    ((ofTokens bracketedMethod).run (follow plainly .memberDeclaration)).1 = .ok m ∧
    ((ofTokens bracketedMethod).run (follow plainly .interfaceBodyDeclaration)).1 = .ok (some d) ∧ m ≠ d ∧
    GenericMember bracketedMethod type n ∧ n ≠ 0 ∧ d = m.put .returnType type := by
  obtain ⟨m, d, read, read', isMethod, -, differ⟩ := bracketedMethod_read
  obtain ⟨-, same, returns⟩ := methods_agree_iff (facing_ofTokens _) read read' isMethod
  have some_brackets := mt same.2 differ
  push Not at some_brackets
  obtain ⟨type, n, method, brackets⟩ := some_brackets
  exact ⟨m, d, type, n, read, read', differ, method, brackets, (returns type n method).2⟩

/-- Not every method that both rules accept has the same node in both. -/
theorem methods_disagree : ¬ ∀ (tokens : List Token) (m d : Tree),
    ((ofTokens tokens).run (follow plainly .memberDeclaration)).1 = .ok m →
    ((ofTokens tokens).run (follow plainly .interfaceBodyDeclaration)).1 = .ok (some d) →
    m.isA .methodDeclaration = true → d.isA .methodDeclaration = true → m = d := by
  intro law
  obtain ⟨m, d, read, read', isMethod, isMethod', differ⟩ := bracketedMethod_read
  exact differ (law _ m d read read' isMethod isMethod')

end JavaSource.Parser
