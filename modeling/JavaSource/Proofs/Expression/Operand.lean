import JavaSource.Proofs.Expression.Grouping
import JavaSource.Proofs.Lexer.Words
import JavaSource.Proofs.Tree.Bare

/-!
# Printing operations

Expressions of names and decimal integers with binary operators between them, and how they are printed. No
parentheses are printed, so the text of an expression shows its operands and operators in their order, but
not how they are grouped: `unparse_grouping`.
-/

namespace JavaSource.Grammar

open Lexer (IsName IsDecimal integerMarks)

/-- An operand: a simple name, or a decimal integer with or without the mark of a long one. -/
inductive Operand where
  | name (word : Text) (isName : IsName word)
  | integer (digits mark : Text) (isDecimal : IsDecimal digits)
      (isMark : mark ∈ integerMarks)

namespace Operand

def text : Operand → Text
  | name word _ => word
  | integer digits mark _ _ => digits ++ mark

def attributes (qualifier : Tree) (a : Attr) (value : Text) : List (Attr × Tree) :=
  [(.prefixOperators, .list []), (.postfixOperators, .list []), (.qualifier, qualifier),
   (.selectors, .list []), (a, .text value)]

def tree : Operand → Tree
  | name word _ => .make .memberReference (attributes (.text []) .member word)
  | integer digits mark _ _ => .make .literal (attributes .null .value (digits ++ mark))

theorem bare_tree (o : Operand) : o.tree.bare = o.tree := by
  cases o <;> rfl

theorem tree_kind (o : Operand) : o.tree.kind? ≠ some .binaryOperation := by
  cases o <;> exact nofun

end Operand

/-- The text of the operators and operands after the first operand, with blanks between them. -/
def textAfter (rest : List (Text × Operand)) : Text :=
  rest.flatMap fun (operator, x) => Text.ofString " " ++ operator ++ Text.ofString " " ++ x.text

def Chain.text (c : Chain Operand) : Text := c.first.text ++ textAfter c.rest

theorem Chain.text_append (c : Chain Operand) (operator : Text) (d : Chain Operand) : (c.append operator d).text =
      c.text ++ Text.ofString " " ++ operator ++ Text.ofString " " ++ d.text := by
  simp [text, textAfter, append]

theorem Grouping.bare_tree (g : Grouping Tree) : g.tree.bare = (g.map Tree.bare).tree := by
  induction g with
  | operand x => rfl
  | pair left operator right ihLeft ihRight =>
    rw [map, tree, tree, ← ihLeft, ← ihRight]
    rfl

/-! ## Printing -/

section

open Printer

variable {t v : Tree} {a : Attr}

theorem attr_eq (found : t.get? a = some v) : attr t a = pure v := by
  rw [attr, Tree.require, found]
  rfl

variable {kind : Kind}

theorem form_node (is : t.kind? = some kind) (print : Print) (n : Nat) : form print n t =
      (nodeForm print n t kind).getD (throw (.noAttribute "Generator" (snakeCase t.typeName))) := by
  cases t with
  | node kind' fields place =>
    cases is
    rfl
  | _ => cases is

variable {given : List (Attr × Tree)}

/-- What has the text of an attribute when bare has that text. -/
theorem get?_text {s : Text}
    (same : t.bare = .make kind given) (declared : a ∈ kind.attrs)
    (is : Tree.lookup a given = some (.text s)) : t.get? a = some (.text s) := by
  have value := (Tree.attrs_of_bare same).2 a declared
  rw [is] at value
  exact Tree.get?_of_get (Tree.eq_text_of_bare value) nofun

theorem get?_nil
    (same : t.bare = .make kind given) (declared : a ∈ kind.attrs)
    (is : Tree.lookup a given = some (.list [])) : t.get? a = some (.list []) := by
  have value := (Tree.attrs_of_bare same).2 a declared
  rw [is] at value
  exact Tree.get?_of_get (Tree.eq_nil_of_bare value) nofun

theorem printWithin_operand (o : Operand) (same : t.bare = o.tree) (n : Nat) :
    printWithin (n + 1) t = pure (.text o.text) := by
  cases o with
  | name word isName =>
    have qualifier := attr_eq (get?_text (a := .qualifier) same (by decide) rfl)
    have selectors := attr_eq (get?_nil (a := .selectors) same (by decide) rfl)
    have member := attr_eq (get?_text (a := .member) same (by decide) rfl)
    rw [printWithin, form_node (Tree.attrs_of_bare same).1]
    change Tree.text <$> memberReference _ t = _
    simp [memberReference, Printer.qualifier, qualifier, selectors, member, Tree.isTrue, textOf,
      Operand.text]
  | integer digits mark isDecimal isMark =>
    rw [printWithin, form_node (Tree.attrs_of_bare same).1]
    exact attr_eq (get?_text (a := .value) same (by decide) rfl)

/-- The parts of what is an operation when bare. -/
theorem get?_operation {left right : Tree} {operator : Text}
    (same : t.bare = operation left (.text operator) right) (something : left ≠ .null) (something' : right ≠ .null) :
    ∃ l r, t.get? .leftOperand = some l ∧ l.bare = left ∧ t.get? .rightOperand = some r ∧
      r.bare = right ∧ t.get? .operator = some (.text operator) := by
  have values := (Tree.attrs_of_bare same).2
  have leftBare : (t.get .leftOperand).bare = left := values .leftOperand (by decide)
  have rightBare : (t.get .rightOperand).bare = right := values .rightOperand (by decide)
  refine ⟨_, _, Tree.get?_of_get rfl ?_, leftBare, Tree.get?_of_get rfl ?_, rightBare,
    get?_text same (by decide) rfl⟩
  · intro nothing
    rw [nothing] at leftBare
    exact something leftBare.symm
  · intro nothing
    rw [nothing] at rightBare
    exact something' rightBare.symm

theorem Grouping.tree_ne_null (e : Grouping Operand) : (e.map Operand.tree).tree ≠ .null := by
  cases e with
  | operand o => cases o <;> exact nofun
  | pair left operator right => exact nofun

theorem printWithin_grouping (e : Grouping Operand) (same : t.bare = (e.map Operand.tree).tree)
    {n : Nat} (enough : t.size ≤ n) : printWithin n t = pure (.text e.chain.text) := by
  induction e generalizing t n with
  | operand o =>
    obtain ⟨m, rfl⟩ : ∃ m, n = m + 1 := ⟨n - 1, by have := t.size_pos; omega⟩
    rw [printWithin_operand o same m, Grouping.chain, Chain.text, textAfter, List.flatMap_nil,
      List.append_nil]
  | pair left operator right ihLeft ihRight =>
    obtain ⟨l, r, leftFound, leftBare, rightFound, rightBare, operatorFound⟩ :=
      get?_operation same left.tree_ne_null right.tree_ne_null
    have leftSize := Tree.size_lt_of_get? leftFound
    have rightSize := Tree.size_lt_of_get? rightFound
    obtain ⟨m, rfl⟩ : ∃ m, n = m + 1 := ⟨n - 1, by omega⟩
    rw [printWithin, form_node (Tree.attrs_of_bare same).1]
    change Tree.text <$> binaryOperation (printWithin m) t = _
    have leftPrinted := ihLeft leftBare (n := m) (by omega)
    have rightPrinted := ihRight rightBare (n := m) (by omega)
    simp [binaryOperation, attr_eq leftFound, attr_eq rightFound, shownAttr, attr_eq operatorFound,
      textual, leftPrinted, rightPrinted, textOf, Tree.shown, Tree.display, Grouping.chain,
      Chain.text_append]

/-- **An operation is printed** as its operands and operators in their order. -/
theorem unparse_grouping (e : Grouping Operand) (same : t.bare = (e.map Operand.tree).tree) :
    unparse t = .ok (.text e.chain.text) := by
  rw [unparse, printAt, print, printWithin_grouping e same (Nat.le_refl _)]
  rfl

end

end JavaSource.Grammar
