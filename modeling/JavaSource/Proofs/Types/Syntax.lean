import JavaSource.Grammar.Types
import JavaSource.Proofs.Lexer.Words

/-!
# The syntax of types

A type is a primitive type or a dotted type whose segments may have arguments, with dimensions behind. An argument
is a wildcard, with or without a bound, or a type; a primitive type stands as an argument only with a dimension.
All this is part of the data, so every value of `JavaType` is a type of the language.

`flatten` gives the values of the tokens of a type, and `tree` its tree. A tree is the tree of at most one type
(`JavaType.tree_injective`), so the tokens of a type can be told from its tree.
-/

namespace JavaSource.Grammar

open Lexer Text

/-- A name that is no reserved word. -/
@[ext]
structure Name where
  text : Text
  isName : IsName text

/-- The name of a primitive type. -/
@[ext]
structure Primitive where
  text : Text
  mem : text ∈ Vocabulary.basicTypes

/-- On which side a type bounds a wildcard. -/
inductive Bound where
  | upper
  | lower
  deriving DecidableEq

def Bound.word : Bound → Text
  | upper => "extends"
  | lower => "super"

mutual

/-- A dotted type. -/
inductive Reference where
  | last (name : Name) (arguments : Arguments)
  /-- A segment, and what follows behind the dot. -/
  | dot (name : Name) (arguments : Arguments) (sub : Reference)

inductive Arguments where
  | none
  | angle (items : Items)

/-- One argument or more. -/
inductive Items where
  | one (argument : Argument)
  | comma (argument : Argument) (rest : Items)

/-- An argument. Where a type has a bound in front, a wildcard is meant. -/
inductive Argument where
  | wildcard
  /-- A primitive type with one dimension and further ones. -/
  | array (bound : Option Bound) (name : Primitive) (further : Nat)
  | reference (bound : Option Bound) (type : Reference) (dimensions : Nat)

end

/-- A type. -/
inductive JavaType where
  | primitive (name : Primitive) (dimensions : Nat)
  | reference (type : Reference) (dimensions : Nat)

/-! ## Tokens -/

def brackets : Nat → List Text
  | 0 => []
  | n + 1 => ofString "[" :: ofString "]" :: brackets n

/-- What stands before an argument with or without a bound. -/
def boundWords : Option Bound → List Text
  | none => []
  | some bound => [ofString "?", bound.word]

mutual

/-- The values of the tokens of a dotted type. -/
def Reference.flatten : Reference → List Text
  | .last name arguments => name.text :: arguments.flatten
  | .dot name arguments sub => name.text :: (arguments.flatten ++ ofString "." :: sub.flatten)

def Arguments.flatten : Arguments → List Text
  | .none => []
  | .angle items => ofString "<" :: (items.flatten ++ [ofString ">"])

def Items.flatten : Items → List Text
  | .one argument => argument.flatten
  | .comma argument rest => argument.flatten ++ ofString "," :: rest.flatten

def Argument.flatten : Argument → List Text
  | .wildcard => [ofString "?"]
  | .array bound name further => boundWords bound ++ name.text :: brackets (further + 1)
  | .reference bound type dimensions => boundWords bound ++ (type.flatten ++ brackets dimensions)

end

def JavaType.flatten : JavaType → List Text
  | primitive name dimensions => name.text :: brackets dimensions
  | reference type dimensions => type.flatten ++ brackets dimensions

/-! ## Trees -/

def Primitive.tree (name : Primitive) (dimensions : Nat) : Tree :=
  .make .basicType [(.name, .text name.text), (.dimensions, .dimensions dimensions)]

def Name.tree (name : Name) (dimensions arguments sub : Tree) : Tree :=
  .make .referenceType
    [(.name, .text name.text), (.dimensions, dimensions), (.arguments, arguments), (.subType, sub)]

/-- The pattern of an argument with or without a bound. -/
def boundPattern : Option Bound → Tree
  | none => .null
  | some bound => .text bound.word

mutual

/-- The tree of a dotted type. Only the first segment has dimensions, also none; the others have nothing there. -/
def Reference.tree : Reference → Tree → Tree
  | .last name arguments, dimensions => name.tree dimensions arguments.tree .null
  | .dot name arguments sub, dimensions => name.tree dimensions arguments.tree (sub.tree .null)

/-- The list of the arguments of a segment, or nothing. -/
def Arguments.tree : Arguments → Tree
  | .none => .null
  | .angle items => .list items.trees

def Items.trees : Items → List Tree
  | .one argument => [argument.tree]
  | .comma argument rest => argument.tree :: rest.trees

def Argument.tree : Argument → Tree
  | .wildcard => .make .typeArgument [(.patternType, .text "?")]
  | .array bound name further =>
    .make .typeArgument [(.type, name.tree (further + 1)), (.patternType, boundPattern bound)]
  | .reference bound type dimensions => .make .typeArgument
      [(.type, type.tree (.dimensions dimensions)), (.patternType, boundPattern bound)]

end

def JavaType.tree : JavaType → Tree
  | primitive name dimensions => name.tree dimensions
  | reference type dimensions => type.tree (.dimensions dimensions)

/-! ## A tree is the tree of at most one type -/

theorem dimensions_injective {m n : Nat} (same : Tree.dimensions m = Tree.dimensions n) : m = n := by
  have lists := Tree.list.inj same
  have lengths := congrArg List.length lists
  rwa [List.length_replicate, List.length_replicate] at lengths

theorem Primitive.tree_injective {a b : Primitive} {m n : Nat} (same : a.tree m = b.tree n) : a = b ∧ m = n :=
  ⟨Primitive.ext (Tree.text.inj (congrArg (Tree.get .name) same)),
    dimensions_injective (congrArg (Tree.get .dimensions) same)⟩

theorem Name.tree_injective {a b : Name} {dimensions arguments sub dimensions' arguments' sub' : Tree}
    (same : a.tree dimensions arguments sub = b.tree dimensions' arguments' sub') :
    a = b ∧ dimensions = dimensions' ∧ arguments = arguments' ∧ sub = sub' :=
  ⟨Name.ext (Tree.text.inj (congrArg (Tree.get .name) same)), congrArg (Tree.get .dimensions) same,
    congrArg (Tree.get .arguments) same, congrArg (Tree.get .subType) same⟩

theorem Reference.tree_kind (r : Reference) (dimensions : Tree) :
    (r.tree dimensions).kind? = some .referenceType := by
  cases r <;> rfl

theorem Reference.tree_ne_null (r : Reference) (dimensions : Tree) : r.tree dimensions ≠ .null := by
  intro same
  have kind := r.tree_kind dimensions
  rw [same] at kind
  cases kind

theorem boundPattern_injective {a b : Option Bound} (same : boundPattern a = boundPattern b) : a = b := by
  rcases a with _ | _ | _ <;> rcases b with _ | _ | _ <;> first
    | rfl
    | cases same

mutual

theorem Reference.tree_injective (a b : Reference) {m n : Tree} (same : a.tree m = b.tree n) : a = b ∧ m = n := by
  cases a with
  | last name arguments =>
    cases b with
    | last name' arguments' =>
      obtain ⟨rfl, rfl, args, -⟩ := Name.tree_injective same
      exact ⟨by rw [arguments.tree_injective arguments' args], rfl⟩
    | dot name' arguments' sub' =>
      obtain ⟨-, -, -, none⟩ := Name.tree_injective same
      exact absurd none.symm (sub'.tree_ne_null .null)
  | dot name arguments sub =>
    cases b with
    | last name' arguments' =>
      obtain ⟨-, -, -, none⟩ := Name.tree_injective same
      exact absurd none (sub.tree_ne_null .null)
    | dot name' arguments' sub' =>
      obtain ⟨rfl, rfl, args, subs⟩ := Name.tree_injective same
      obtain ⟨rfl, -⟩ := sub.tree_injective sub' subs
      exact ⟨by rw [arguments.tree_injective arguments' args], rfl⟩

theorem Arguments.tree_injective (a b : Arguments) (same : a.tree = b.tree) : a = b := by
  cases a with
  | none =>
    cases b with
    | none => rfl
    | angle items => cases same
  | angle items =>
    cases b with
    | none => cases same
    | angle items' => rw [items.trees_injective items' (Tree.list.inj same)]

theorem Items.trees_injective (a b : Items) (same : a.trees = b.trees) : a = b := by
  have nonempty (items : Items) : items.trees ≠ [] := by
    cases items <;> exact List.cons_ne_nil _ _
  cases a with
  | one argument =>
    cases b with
    | one argument' => rw [argument.tree_injective argument' (List.cons.inj same).1]
    | comma argument' rest' => exact absurd (List.cons.inj same).2.symm (nonempty rest')
  | comma argument rest =>
    cases b with
    | one argument' => exact absurd (List.cons.inj same).2 (nonempty rest)
    | comma argument' rest' =>
      rw [argument.tree_injective argument' (List.cons.inj same).1,
        rest.trees_injective rest' (List.cons.inj same).2]

theorem Argument.tree_injective (a b : Argument) (same : a.tree = b.tree) : a = b := by
  have types : a.tree.get .type = b.tree.get .type := congrArg (Tree.get .type) same
  have patterns : a.tree.get .patternType = b.tree.get .patternType :=
    congrArg (Tree.get .patternType) same
  have kinds : (a.tree.get .type).kind? = (b.tree.get .type).kind? := congrArg Tree.kind? types
  cases a with
  | wildcard =>
    cases b with
    | wildcard => rfl
    | array bound' name' further' => cases kinds
    | reference bound' type' dimensions' => cases kinds.trans (type'.tree_kind _)
  | array bound name further =>
    cases b with
    | wildcard => cases kinds
    | array bound' name' further' =>
      obtain ⟨rfl, further⟩ := Primitive.tree_injective types
      cases boundPattern_injective patterns
      cases further
      rfl
    | reference bound' type' dimensions' => cases kinds.trans (type'.tree_kind _)
  | reference bound type dimensions =>
    cases b with
    | wildcard => cases kinds.symm.trans (type.tree_kind _)
    | array bound' name' further' => cases kinds.symm.trans (type.tree_kind _)
    | reference bound' type' dimensions' =>
      obtain ⟨rfl, further⟩ := type.tree_injective type' types
      cases boundPattern_injective patterns
      cases dimensions_injective further
      rfl

end

/-- **A tree is the tree of at most one type.** -/
theorem JavaType.tree_injective {a b : JavaType} (same : a.tree = b.tree) : a = b := by
  have kinds : a.tree.kind? = b.tree.kind? := congrArg Tree.kind? same
  cases a with
  | primitive name dimensions =>
    cases b with
    | primitive name' dimensions' =>
      obtain ⟨rfl, rfl⟩ := Primitive.tree_injective same
      rfl
    | reference type' dimensions' => cases kinds.trans (type'.tree_kind _)
  | reference type dimensions =>
    cases b with
    | primitive name' dimensions' => cases kinds.symm.trans (type.tree_kind _)
    | reference type' dimensions' =>
      obtain ⟨rfl, counts⟩ := type.tree_injective type' same
      rw [dimensions_injective counts]

end JavaSource.Grammar
