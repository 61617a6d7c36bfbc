import JavaSource.Proofs.Declarations.Methods
import JavaSource.Proofs.Truncation.Operands
import JavaSource.Tree.Members

/-!
# The members of type declarations

Classes, interfaces and annotation types have their members in a list, and an enumeration has them in a part of its
body. Fields and methods are looked for where they are, whatever the kind of the type. Constructors are looked for in
the body itself: for an enumeration this is a node, and going through it one by one gives no declaration at all. So
none of its constructors is found, and all members of all other types are.
-/

namespace JavaSource

namespace Tree

variable {t : Tree} {members : List Tree}

/-- The member declarations of a type: its body, or a part of it if the type is an enumeration. -/
inductive HasMembers (t : Tree) (members : List Tree) : Prop where
  | body (kind : t.isA .enumDeclaration = false) (list : t.get? .body = some (.list members))
  | enumBody (kind : t.isA .enumDeclaration = true) {fields : List (Attr × Tree)} {place : Option (Option Position)}
      (body : t.get? .body = some (.node .enumBody fields place))
      (list : lookup .declarations fields = some (.list members))

namespace HasMembers

theorem memberList (has : t.HasMembers members) : t.memberList = .ok members := by
  cases has with
  | body kind list =>
    rw [Tree.memberList, kind, get, list]
    rfl
  | enumBody kind body list =>
    rw [Tree.memberList, kind, get, body]
    simp only [if_true, Option.getD_some, require, get?, list]
    rfl

theorem constructors (has : t.HasMembers members) : t.constructors =
    .ok (if t.isA .enumDeclaration then [] else members.filter (·.isA .constructorDeclaration)) := by
  cases has with
  | body kind list =>
    rw [Tree.constructors, kind, get, list]
    rfl
  | @enumBody kind fields place body list =>
    rw [Tree.constructors, kind, get, body]
    -- Going through a node gives pairs of a path and a node, and a pair is no declaration.
    refine congrArg Except.ok (List.filter_eq_nil_iff.mpr fun pair inside => ?_)
    obtain ⟨v, -, rfl⟩ := List.mem_map.mp inside
    exact Bool.false_ne_true

/-- The members are a matter of the kind and of the body alone. -/
theorem of_same {t' : Tree} (has : t.HasMembers members)
    (kind : t'.isA .enumDeclaration = t.isA .enumDeclaration) (body : t'.get? .body = t.get? .body) :
    t'.HasMembers members := by
  cases has with
  | body isType list => exact .body (kind.trans isType) (body.trans list)
  | enumBody isEnum isBody list => exact .enumBody (kind.trans isEnum) (body.trans isBody) list

theorem placeAt (has : t.HasMembers members) (position : Option Position) :
    (t.placeAt position).HasMembers members :=
  has.of_same (Grammar.isA_placeAt ..) (by cases t <;> rfl)

theorem on (has : t.HasMembers members) (found : Grammar.Modifiers) : (found.on t).HasMembers members := by
  refine has.of_same (by cases t <;> rfl) ?_
  rw [Grammar.Modifiers.on, get?_put_other _ (by decide), get?_put_other _ (by decide), get?_put_other _ (by decide)]

end HasMembers

end Tree

namespace Grammar

open Rule

/-- What a rule gives for a type declaration. -/
def IsDeclaration (t : Tree) : Prop := ∃ members, t.HasMembers members

/-- The rules for the kinds of type declarations. -/
def Rule.ofKind (r : Rule) : Bool :=
  [.normalClassDeclaration, .enumDeclaration, .normalInterfaceDeclaration, .annotationTypeDeclaration].contains r

variable {n : Nat} {start : List Token} {P : List Token → Prop} {r : Rule}

theorem leads_parse {Q : r.Result → List Token → Prop}
    (body : ∀ n, r.body.Leads (readWithin n) start P Q) : (parse r).Leads (readWithin n) start P Q := by
  intro ahead x rest suffix here gives
  cases n with
  | zero => cases (gives_parse gives).result
  | succ n => exact body n ahead x rest suffix here (gives_parse gives)

theorem leads_enumBody : (body .enumBody).Leads (readWithin n) start P fun t _ =>
    ∃ fields members, t = .node .enumBody fields none ∧ Tree.lookup .declarations fields = some (.list members) := by
  repeat' first
    | exact leads_pure fun _ _ => ⟨_, _, rfl, rfl⟩
    | refine leads_ite ?_ ?_
    | refine leads_after (readWithin_within n) fun _ => ?_

theorem leads_kind (isKind : r.ofKind = true) :
    r.body.Leads (readWithin n) start P fun x _ => IsDeclaration (r.toTree x) := by
  cases r
  case enumDeclaration =>
    iterate 3 refine leads_after (readWithin_within n) fun _ => ?_
    refine leads_bind (readWithin_within n) (leads_parse fun _ => leads_enumBody) fun t => leads_pure ?_
    rintro _ ⟨fields, members, rfl, list⟩
    exact ⟨members, .enumBody rfl rfl list⟩
  all_goals
    first
    | exact absurd isKind (by decide)
    | repeat' first
      | exact leads_pure fun _ _ => ⟨_, .body rfl rfl⟩
      | refine leads_ite ?_ ?_
      | refine leads_after (readWithin_within n) fun _ => ?_

/-- The rule that chooses among the kinds sets the place and the modifiers too. -/
theorem leads_anyType : (body .classOrInterfaceDeclaration).Leads (readWithin n) start P fun t _ => IsDeclaration t := by
  have handed {routine : Routine Tree} (found : Modifiers) (position : Option Position)
      (first : routine.Leads (readWithin n) start (fun _ => True) fun t _ => IsDeclaration t) :
      (do return found.on ((← routine).placeAt position) : Routine Tree).Leads (readWithin n) start (fun _ => True)
        fun t _ => IsDeclaration t :=
    leads_bind (readWithin_within n) first fun _ =>
      leads_pure fun _ ⟨members, has⟩ => ⟨members, (has.placeAt position).on found⟩
  iterate 3 refine leads_after (readWithin_within n) fun _ => ?_
  repeat' first
    | refine leads_ite ?_ ?_
    | exact handed _ _ (leads_parse (r := .normalClassDeclaration) fun _ => leads_kind rfl)
    | exact handed _ _ (leads_parse (r := .enumDeclaration) fun _ => leads_kind rfl)
    | exact handed _ _ (leads_parse (r := .normalInterfaceDeclaration) fun _ => leads_kind rfl)
    | exact handed _ _ (leads_parse (r := .annotationTypeDeclaration) fun _ => leads_kind rfl)
    | exact handed _ _ (leads_illegal _)

end Grammar

namespace Parser

open Grammar List

/-- The parser reads a type declaration, by the rule for any of them or by the one for its kind, and hands it on with a
place and with modifiers. -/
inductive Declares : Tree → Prop
  | read {r : Rule} (isType : r = .classOrInterfaceDeclaration ∨ r.ofKind = true) {p : Parser} {ahead : List Token}
      {x : r.Result} (facing : p.Facing ahead) (read : (p.run (follow plainly r)).1 = .ok x) : Declares (r.toTree x)
  | placed {t} (declares : Declares t) (position : Option Position) : Declares (t.placeAt position)
  | modified {t} (declares : Declares t) (found : Modifiers) : Declares (found.on t)

theorem Declares.isDeclaration {t : Tree} (declares : Declares t) : IsDeclaration t := by
  induction declares with
  | @read r isType _ ahead x facing read =>
    have gives : (r.body.read _ ahead).Gives x _ := ⟨(follow_does r facing).result.symm.trans read, rfl⟩
    rcases isType with rfl | isKind
    · exact leads_anyType (P := fun _ => True) ahead x _ suffix_rfl trivial gives
    · exact leads_kind (P := fun _ => True) isKind ahead x _ suffix_rfl trivial gives
  | placed _ position ih => exact ih.imp fun _ has => has.placeAt position
  | modified _ found ih => exact ih.imp fun _ has => has.on found

/-- **The members of a type declaration** that the parser reads, whatever its kind: its fields and its methods are all
those among its member declarations, in their order. So are its constructors, unless it is an enumeration: then there
are none, and this is right only if there is none among the member declarations. -/
theorem declared_members {t : Tree} (declares : Declares t) : ∃ members, t.HasMembers members ∧
    t.fields = .ok (members.filter (·.isA .fieldDeclaration)) ∧
    t.methods = .ok (members.filter (·.isA .methodDeclaration)) ∧
    t.constructors = .ok (if t.isA .enumDeclaration then [] else members.filter (·.isA .constructorDeclaration)) ∧
    (t.constructors = .ok (members.filter (·.isA .constructorDeclaration)) ↔
      (t.isA .enumDeclaration = true → ∀ m ∈ members, m.isA .constructorDeclaration = false)) := by
  obtain ⟨members, has⟩ := declares.isDeclaration
  refine ⟨members, has, ?_, ?_, has.constructors, ?_⟩
  · rw [Tree.fields, has.memberList]
    rfl
  · rw [Tree.methods, has.memberList]
    rfl
  · rw [has.constructors, Except.ok.injEq]
    cases t.isA .enumDeclaration with
    | false => exact iff_of_true rfl fun isEnum => absurd isEnum Bool.false_ne_true
    | true => simp only [if_true, true_imp_iff, @eq_comm _ [], filter_eq_nil_iff, Bool.not_eq_true]

def enumWithConstructor : List Token := tokensOf "enum E { A; E() { } }"

theorem enumWithConstructor_read : ∃ t members, Declares t ∧ t.HasMembers members ∧ t.isA .enumDeclaration = true ∧
    ∃ m ∈ members, m.isA .constructorDeclaration = true := by
  have test : ((ofTokens enumWithConstructor).run (follow plainly .enumDeclaration)).1.toOption.any (fun t =>
      t.isA .enumDeclaration && t.memberList.toOption.any (·.any (·.isA .constructorDeclaration))) = true := by
    decide +kernel
  obtain ⟨t, read, found⟩ := exists_ok_of_any test
  obtain ⟨isEnum, found⟩ := Bool.and_eq_true_iff.1 found
  have declares : Declares t :=
    .read (r := .enumDeclaration) (.inr rfl) (facing_ofTokens enumWithConstructor) read
  obtain ⟨members, has⟩ := declares.isDeclaration
  rw [has.memberList] at found
  exact ⟨t, members, declares, has, isEnum, any_eq_true.1 found⟩

/-- The constructor of this enumeration is not found. -/
theorem declared_members_enum : ∃ (t : Tree) (members : List Tree), t.HasMembers members ∧ t.constructors = .ok [] ∧
    ∃ m ∈ members, m.isA .constructorDeclaration = true := by
  obtain ⟨t, members, declares, has, isEnum, some⟩ := enumWithConstructor_read
  obtain ⟨_, -, -, -, none, -⟩ := declared_members declares
  exact ⟨t, members, has, by rw [none, isEnum, if_pos rfl], some⟩

/-- Not every constructor of a type declaration is found. -/
theorem enum_constructors_lost : ¬ ∀ (t : Tree) (members : List Tree), Declares t → t.HasMembers members →
    t.constructors = .ok (members.filter (·.isA .constructorDeclaration)) := by
  intro law
  obtain ⟨t, members, declares, has, isEnum, m, inside, isConstructor⟩ := enumWithConstructor_read
  have all := law t members declares has
  rw [has.constructors, isEnum, if_pos rfl] at all
  cases (Except.ok.inj all) ▸ mem_filter.mpr ⟨inside, isConstructor⟩

end Parser

end JavaSource
