import Mathlib
import JavaSource.Grammar.Operators
import JavaSource.Token.Vocabulary

/-!
# Groupings of operators

A chain of operands with operators between them can be grouped in pairs in many ways. One of them respects
the levels of the operators: an operator is at least as loose as that of its left operand, and looser than
that of its right operand. `Grouping.Normal.eq_of_chain_eq` says that there is no other one, and
`buildOperation_normal` that this is the one that is built.
-/

namespace JavaSource.Grammar

open List

/-- Operands with operators between them. -/
@[ext] structure Chain (α : Type) where
  first : α
  rest : List (Text × α)

/-- Operands with operators between them, grouped in pairs. -/
inductive Grouping (α : Type) where
  | operand (x : α)
  | pair (left : Grouping α) (operator : Text) (right : Grouping α)

namespace Chain

variable {α : Type}

def operators (c : Chain α) : List Text := c.rest.map (·.1)

def operands (c : Chain α) : List α := c.first :: c.rest.map (·.2)

def map {β : Type} (f : α → β) (c : Chain α) : Chain β := ⟨f c.first, c.rest.map fun (o, x) => (o, f x)⟩

def append (c : Chain α) (operator : Text) (d : Chain α) : Chain α :=
  ⟨c.first, c.rest ++ (operator, d.first) :: d.rest⟩

/-- A chain and then more chains, each after an operator. -/
def joined (c : Chain α) (more : List (Text × Chain α)) : Chain α :=
  more.foldl (fun c (operator, d) => c.append operator d) c

def parts (c : Chain Tree) : List Tree :=
  c.first :: c.rest.flatMap fun (operator, x) => [.text operator, x]

theorem operators_append (c : Chain α) (operator : Text) (d : Chain α) :
    (c.append operator d).operators = c.operators ++ operator :: d.operators := by
  simp [operators, append]

theorem operands_append (c : Chain α) (operator : Text) (d : Chain α) :
    (c.append operator d).operands = c.operands ++ d.operands := by
  simp [operands, append]

variable {β : Type}

theorem operators_map (f : α → β) (c : Chain α) : (c.map f).operators = c.operators := by
  simp [operators, map]

theorem operands_map (f : α → β) (c : Chain α) : (c.map f).operands = c.operands.map f := by
  simp [operands, map]

theorem map_append (f : α → β) (c : Chain α) (operator : Text) (d : Chain α) :
    (c.append operator d).map f = (c.map f).append operator (d.map f) := by
  simp [map, append]

theorem operators_joined (c : Chain α) (more : List (Text × Chain α)) : (c.joined more).operators =
      c.operators ++ more.flatMap fun (operator, d) => operator :: d.operators := by
  induction more generalizing c with
  | nil => exact (append_nil _).symm
  | cons piece more ih =>
    obtain ⟨operator, d⟩ := piece
    rw [joined, foldl_cons, ← joined, ih, operators_append, flatMap_cons, append_assoc]

end Chain

variable {operator : Text}

namespace Grouping

variable {α : Type}

def chain : Grouping α → Chain α
  | operand x => ⟨x, []⟩
  | pair left operator right => left.chain.append operator right.chain

/-- The operator that joins the whole, if there is one. -/
def root? : Grouping α → Option Text
  | operand _ => none
  | pair _ operator _ => some operator

def map {β : Type} (f : α → β) : Grouping α → Grouping β
  | operand x => operand (f x)
  | pair left operator right => pair (left.map f) operator (right.map f)

def tree : Grouping Tree → Tree
  | operand x => x
  | pair left operator right => operation left.tree (.text operator) right.tree

/-- Every operator is at least as loose as that of its left operand, and looser than that of its right
operand. -/
def Normal (level : Text → Nat) : Grouping α → Prop
  | operand _ => True
  | pair left operator right =>
    left.Normal level ∧ right.Normal level ∧ (∀ o ∈ left.root?, level operator ≤ level o) ∧
      ∀ o ∈ right.root?, level operator < level o

variable {β : Type} {g : Grouping α} {level : Text → Nat}

theorem chain_map (f : α → β) (g : Grouping α) : (g.map f).chain = g.chain.map f := by
  induction g with
  | operand x => rfl
  | pair left operator right ihLeft ihRight => rw [map, chain, chain, ihLeft, ihRight, Chain.map_append]

/-- A grouping whose operands are all of the form `f x` is one of these `x`, with `f` applied. -/
theorem exists_map_of_chain {f : α → β} {g : Grouping β} {c : Chain α}
    (same : g.chain = c.map f) : ∃ e : Grouping α, e.map f = g ∧ e.chain = c := by
  induction g generalizing c with
  | operand y =>
    obtain ⟨first, rest⟩ := Chain.mk.inj same
    exact ⟨operand c.first, congrArg operand first.symm,
      Chain.ext rfl (map_eq_nil_iff.1 rest.symm).symm⟩
  | pair left operator right ihLeft ihRight =>
    -- the operands on the left are those before the operator that joins the two
    obtain ⟨first, rest⟩ := Chain.mk.inj same
    obtain ⟨before, from_, rest_eq, beforeSame, fromSame⟩ := map_eq_append_iff.1 rest.symm
    obtain ⟨⟨o, x⟩, after, rfl, middle, afterSame⟩ := map_eq_cons_iff.1 fromSame
    obtain ⟨rfl, rightFirst⟩ := Prod.mk.inj middle
    have leftSame : left.chain = Chain.map f ⟨c.first, before⟩ := Chain.ext first beforeSame.symm
    have rightSame : right.chain = Chain.map f ⟨x, after⟩ := Chain.ext rightFirst.symm afterSame.symm
    obtain ⟨l, lMap, lChain⟩ := ihLeft leftSame
    obtain ⟨r, rMap, rChain⟩ := ihRight rightSame
    refine ⟨pair l o r, by rw [map, lMap, rMap], ?_⟩
    rw [chain, lChain, rChain]
    exact Chain.ext rfl rest_eq.symm

@[simp] theorem root?_map (f : α → β) (g : Grouping α) : (g.map f).root? = g.root? := by
  cases g <;> rfl

theorem normal_map (f : α → β) (level : Text → Nat) (g : Grouping α) : (g.map f).Normal level ↔ g.Normal level := by
  induction g with
  | operand x => exact Iff.rfl
  | pair left operator right ihLeft ihRight => simp only [map, Normal, ihLeft, ihRight, root?_map]

/-- Groupings of operands that are no operations themselves can be told apart by their trees. -/
theorem tree_injective {g g' : Grouping Tree} (plain : ∀ x ∈ g.chain.operands, x.kind? ≠ some .binaryOperation)
    (plain' : ∀ x ∈ g'.chain.operands, x.kind? ≠ some .binaryOperation) (same : g.tree = g'.tree) : g = g' := by
  induction g generalizing g' with
  | operand x =>
    cases g' with
    | operand y => exact congrArg operand same
    | pair left operator right =>
      have kind := plain x mem_cons_self
      rw [show x = _ from same] at kind
      exact absurd rfl kind
  | pair left operator right ihLeft ihRight =>
    cases g' with
    | operand y =>
      have kind := plain' y mem_cons_self
      rw [show y = _ from same.symm] at kind
      exact absurd rfl kind
    | pair left' operator' right' =>
      rw [chain, Chain.operands_append] at plain plain'
      obtain ⟨plainLeft, plainRight⟩ := forall_mem_append.1 plain
      obtain ⟨plainLeft', plainRight'⟩ := forall_mem_append.1 plain'
      have parts := congrArg Tree.children same
      injection parts with operatorSame parts
      injection parts with leftSame parts
      injection parts with rightSame
      rw [ihLeft plainLeft plainLeft' leftSame, ihRight plainRight plainRight' rightSame,
        Tree.text.inj operatorSame]

/-! ## There is one normal grouping -/

theorem root_mem : ∀ r ∈ g.root?, r ∈ g.chain.operators := by
  cases g with
  | operand x => exact fun r mem => nomatch mem
  | pair left operator right =>
    rintro r ⟨⟩
    rw [chain, Chain.operators_append]
    exact mem_append_right _ mem_cons_self

/-- What bounds the level of the root of a normal grouping bounds the levels of all its operators. -/
theorem Normal.bound {k : Nat} (normal : g.Normal level)
    (root : ∀ r ∈ g.root?, k ≤ level r) : ∀ o ∈ g.chain.operators, k ≤ level o := by
  induction g with
  | operand x => exact fun o mem => nomatch mem
  | pair left operator right ihLeft ihRight =>
    obtain ⟨leftNormal, rightNormal, leftRoot, rightRoot⟩ := normal
    have here : k ≤ level operator := root operator rfl
    intro o mem
    rw [chain, Chain.operators_append, mem_append, mem_cons] at mem
    rcases mem with mem | rfl | mem
    · exact ihLeft leftNormal (fun r is => Nat.le_trans here (leftRoot r is)) o mem
    · exact here
    · exact ihRight rightNormal (fun r is => Nat.le_trans here (Nat.le_of_lt (rightRoot r is))) o mem

theorem Normal.le_of_left {left right : Grouping α}
    (normal : (pair left operator right).Normal level) : ∀ o ∈ left.chain.operators, level operator ≤ level o :=
  normal.1.bound normal.2.2.1

theorem Normal.lt_of_right {left right : Grouping α}
    (normal : (pair left operator right).Normal level) : ∀ o ∈ right.chain.operators, level operator < level o :=
  normal.2.1.bound normal.2.2.2

/-- A list has one last element of the least level. -/
theorem last_least_unique {β : Type} {level : β → Nat} {xs ys xs' ys' : List β} {x x' : β}
    (same : xs ++ x :: ys = xs' ++ x' :: ys')
    (before : ∀ b ∈ xs, level x ≤ level b) (after : ∀ b ∈ ys, level x < level b)
    (before' : ∀ b ∈ xs', level x' ≤ level b) (after' : ∀ b ∈ ys', level x' < level b) :
    xs = xs' ∧ x = x' ∧ ys = ys' := by
  rcases append_eq_append_iff.1 same with ⟨between, rfl, tail⟩ | ⟨between, rfl, tail⟩
  · cases between with
    | nil =>
      obtain ⟨rfl, rfl⟩ := List.cons.inj tail
      exact ⟨(append_nil _).symm, rfl, rfl⟩
    | cons b between =>
      -- `x` would be before `x'`, and `x'` after `x`
      obtain ⟨rfl, rfl⟩ := List.cons.inj tail
      have le := before' x (mem_append_right _ mem_cons_self)
      have lt := after x' (mem_append_right _ mem_cons_self)
      omega
  · cases between with
    | nil =>
      obtain ⟨rfl, rfl⟩ := List.cons.inj tail
      exact ⟨append_nil _, rfl, rfl⟩
    | cons b between =>
      obtain ⟨rfl, rfl⟩ := List.cons.inj tail
      have le := before x' (mem_append_right _ mem_cons_self)
      have lt := after' x (mem_append_right _ mem_cons_self)
      omega

/-- **There is one normal grouping** of a chain. -/
theorem Normal.eq_of_chain_eq {g' : Grouping α} (normal : g.Normal level)
    (normal' : g'.Normal level) (same : g.chain = g'.chain) : g = g' := by
  induction g generalizing g' with
  | operand x =>
    cases g' with
    | operand y =>
      obtain ⟨rfl, -⟩ := Chain.mk.inj same
      rfl
    | pair left operator right =>
      have rest := (Chain.mk.inj same).2
      simp at rest
  | pair left operator right ihLeft ihRight =>
    cases g' with
    | operand y =>
      have rest := (Chain.mk.inj same).2
      simp at rest
    | pair left' operator' right' =>
      obtain ⟨first, rest⟩ := Chain.mk.inj same
      have outside {c : Chain α} {P : Text → Prop} (each : ∀ o ∈ c.operators, P o) :
          ∀ b ∈ c.rest, P b.1 := fun b mem => each b.1 (mem_map_of_mem mem)
      obtain ⟨restLeft, middle, restRight⟩ :=
        @last_least_unique _ (fun b : Text × α => level b.1) _ _ _ _ _ _ rest
          (outside normal.le_of_left) (outside normal.lt_of_right)
          (outside normal'.le_of_left) (outside normal'.lt_of_right)
      obtain ⟨rfl, firstRight⟩ := Prod.mk.inj middle
      rw [ihLeft normal.1 normal'.1 (Chain.ext first restLeft),
        ihRight normal.2.1 normal'.2.1 (Chain.ext firstRight restRight)]

/-- Levels count from any number on. -/
theorem Normal.shift {level' : Text → Nat}
    (shifted : ∀ o ∈ g.chain.operators, level' o = level o + 1) (normal : g.Normal level) : g.Normal level' := by
  induction g with
  | operand x => trivial
  | pair left operator right ihLeft ihRight =>
    rw [chain, Chain.operators_append] at shifted
    obtain ⟨shiftedLeft, shiftedHere⟩ := forall_mem_append.1 shifted
    obtain ⟨here, shiftedRight⟩ := forall_mem_cons.1 shiftedHere
    refine ⟨ihLeft shiftedLeft normal.1, ihRight shiftedRight normal.2.1, fun o root => ?_,
      fun o root => ?_⟩
    · have le := normal.2.2.1 o root
      rw [here, shiftedLeft o (root_mem o root)]
      omega
    · have lt := normal.2.2.2 o root
      rw [here, shiftedRight o (root_mem o root)]
      omega

end Grouping

/-! ## Cutting a chain -/

namespace Chain

variable {α : Type}

def after (x : α) (operator : Text) (c : Chain α) : Chain α := ⟨x, (operator, c.first) :: c.rest⟩

/-- A chain cut at the operators of one level: its first piece, and then each operator with the piece after
it. -/
def cut (level : List Text) (x : α) : List (Text × α) → Chain α × List (Text × Chain α)
  | [] => (⟨x, []⟩, [])
  | (operator, y) :: rest => let later := cut level y rest
    if level.contains operator then (⟨x, []⟩, (operator, later.1) :: later.2)
    else (later.1.after x operator, later.2)

variable {level : List Text}

theorem cut_cons_of_mem (among : operator ∈ level) (x y : α) (rest : List (Text × α)) :
    cut level x ((operator, y) :: rest) = (⟨x, []⟩, (operator, (cut level y rest).1) :: (cut level y rest).2) := by
  rw [cut, if_pos (contains_iff_mem.2 among)]

theorem cut_cons_of_not_mem (apart : operator ∉ level) (x y : α) (rest : List (Text × α)) :
    cut level x ((operator, y) :: rest) = ((cut level y rest).1.after x operator, (cut level y rest).2) := by
  rw [cut, if_neg fun contained => apart (contains_iff_mem.1 contained)]

theorem parts_after (x : Tree) (operator : Text) (c : Chain Tree) :
    (c.after x operator).parts = x :: .text operator :: c.parts := by
  simp [parts, after]

/-- Cutting the parts of a chain is cutting the chain. -/
theorem cut_parts (level : List Text) (x : Tree) (rest : List (Text × Tree)) : Grammar.cut level (parts ⟨x, rest⟩) =
      ((cut level x rest).1.parts,
        (cut level x rest).2.map fun piece => (.text piece.1, piece.2.parts)) := by
  induction rest generalizing x with
  | nil => rfl
  | cons head rest ih =>
    obtain ⟨operator, y⟩ := head
    have later := ih y
    change Grammar.cut level (x :: .text operator :: parts ⟨y, rest⟩) = _
    by_cases among : operator ∈ level
    · rw [cut_cons_of_mem among]
      rw [parts, Grammar.cut, ← parts, later]
      simp only [isOperatorOf, contains_iff_mem.2 among, if_true]
      rfl
    · rw [cut_cons_of_not_mem among, parts_after]
      rw [parts, Grammar.cut, ← parts, later]
      simp only [isOperatorOf, contains_iff_mem, among, if_false]

theorem joined_after (x : α) (operator : Text) (c : Chain α) (more : List (Text × Chain α)) :
    (c.after x operator).joined more = (c.joined more).after x operator := by
  induction more generalizing c with
  | nil => rfl
  | cons piece more ih => exact ih (c.append piece.1 piece.2)

/-- The pieces of a chain joined give the chain. -/
theorem joined_cut (level : List Text) (x : α) (rest : List (Text × α)) :
    (cut level x rest).1.joined (cut level x rest).2 = ⟨x, rest⟩ := by
  induction rest generalizing x with
  | nil => rfl
  | cons head rest ih =>
    obtain ⟨operator, y⟩ := head
    -- cut or not, what comes first is joined to the rest by its operator
    have whole : ((cut level y rest).1.after x operator).joined (cut level y rest).2 =
        ⟨x, (operator, y) :: rest⟩ := by
      rw [joined_after, ih, after]
    by_cases among : operator ∈ level
    · rw [cut_cons_of_mem among]
      exact whole
    · rw [cut_cons_of_not_mem among]
      exact whole

/-- The operators at which a chain is cut are of the level, and those inside of its pieces are not. -/
theorem cut_operators (level : List Text) (x : α) (rest : List (Text × α)) :
    (∀ o ∈ (cut level x rest).1.operators, o ∉ level) ∧
      ∀ piece ∈ (cut level x rest).2, piece.1 ∈ level ∧ ∀ o ∈ piece.2.operators, o ∉ level := by
  induction rest generalizing x with
  | nil => exact ⟨fun o mem => (nomatch mem), fun piece mem => (nomatch mem)⟩
  | cons head rest ih =>
    obtain ⟨operator, y⟩ := head
    obtain ⟨first, more⟩ := ih y
    by_cases among : operator ∈ level
    · rw [cut_cons_of_mem among]
      exact ⟨fun o mem => (nomatch mem), forall_mem_cons.2 ⟨⟨among, first⟩, more⟩⟩
    · rw [cut_cons_of_not_mem among]
      exact ⟨forall_mem_cons.2 ⟨among, first⟩, more⟩

variable {x : α} {rest : List (Text × α)} {o : Text}

theorem mem_of_cut_first
    (mem : o ∈ (cut level x rest).1.operators) : o ∈ operators ⟨x, rest⟩ := by
  rw [← joined_cut level x rest, operators_joined]
  exact mem_append_left _ mem

theorem mem_of_cut_piece {piece : Text × Chain α}
    (among : piece ∈ (cut level x rest).2) (mem : o ∈ piece.2.operators) : o ∈ operators ⟨x, rest⟩ := by
  rw [← joined_cut level x rest, operators_joined]
  exact mem_append_right _ (mem_flatMap.2 ⟨piece, among, mem_cons_of_mem _ mem⟩)

end Chain

/-! ## The grouping that is built -/

/-- The level of an operator: the number of the first level that has it. -/
def levelIn (levels : List (List Text)) (operator : Text) : Nat := levels.findIdx (·.contains operator)

variable {level : List Text}

theorem levelIn_cons_of_mem (tighter : List (List Text))
    (mem : operator ∈ level) : levelIn (level :: tighter) operator = 0 := by
  simp [levelIn, findIdx_cons, mem]

theorem levelIn_cons_of_not_mem (tighter : List (List Text))
    (apart : operator ∉ level) : levelIn (level :: tighter) operator = levelIn tighter operator + 1 := by
  simp [levelIn, findIdx_cons, apart]

theorem operationTree?_single (levels : List (List Text)) (x : Tree) : operationTree? levels [x] = some x := by
  cases levels <;> rfl

def joinPiece (tighter : List (List Text)) (left : Tree) (piece : Text × Chain Tree) : Option Tree := do
  let right ← operationTree? tighter piece.2.parts
  return operation left (.text piece.1) right

/-- The step from one level to the tighter ones: the pieces are built, and joined from left to right. -/
theorem operationTree?_cons (level : List Text) (tighter : List (List Text)) (x : Tree)
    (head : Text × Tree) (rest : List (Text × Tree)) :
    operationTree? (level :: tighter) (Chain.parts ⟨x, head :: rest⟩) =
      (operationTree? tighter (Chain.cut level x (head :: rest)).1.parts).bind fun first =>
        (Chain.cut level x (head :: rest)).2.foldlM (joinPiece tighter) first := by
  have step : operationTree? (level :: tighter) (Chain.parts ⟨x, head :: rest⟩) =
      (operationTree? tighter (cut level (Chain.parts ⟨x, head :: rest⟩)).1).bind fun first =>
        (cut level (Chain.parts ⟨x, head :: rest⟩)).2.foldlM (fun left piece => do
          let right ← operationTree? tighter piece.2
          return operation left piece.1 right) first := rfl
  rw [step, Chain.cut_parts]
  simp only [foldlM_map]
  rfl

/-- A grouping that is built from the parts of a chain, by some levels, and is normal. -/
structure Builds (levels : List (List Text)) (level : Text → Nat) (c : Chain Tree) (g : Grouping Tree) : Prop where
  tree : operationTree? levels c.parts = some g.tree
  chain : g.chain = c
  normal : g.Normal level

/-- Pieces whose operators are tighter than those between them are joined from left to right to a normal
grouping. -/
theorem builds_joined {tighter : List (List Text)} {level : Text → Nat}
    {pieces : List (Text × Chain Tree)} (first : Grouping Tree) (normal : first.Normal level)
    (loosest : ∀ piece ∈ pieces, level piece.1 = 0) (inside : ∀ piece ∈ pieces, ∀ o ∈ piece.2.operators, 0 < level o)
    (built : ∀ piece ∈ pieces, ∃ g, Builds tighter level piece.2 g) : ∃ g : Grouping Tree,
      pieces.foldlM (joinPiece tighter) first.tree = some g.tree ∧
        g.chain = first.chain.joined pieces ∧ g.Normal level := by
  induction pieces generalizing first with
  | nil => exact ⟨first, rfl, rfl, normal⟩
  | cons piece pieces ih =>
    obtain ⟨operator, c⟩ := piece
    obtain ⟨loosestHere, loosest⟩ := forall_mem_cons.1 loosest
    obtain ⟨insideHere, inside⟩ := forall_mem_cons.1 inside
    obtain ⟨⟨right, right_built⟩, built⟩ := forall_mem_cons.1 built
    have joinedNormal : (Grouping.pair first operator right).Normal level := by
      refine ⟨normal, right_built.normal, fun o _ => ?_, fun o root => ?_⟩
      · rw [loosestHere]
        exact Nat.zero_le _
      · rw [loosestHere]
        refine insideHere o ?_
        rw [← right_built.chain]
        exact Grouping.root_mem o root
    obtain ⟨g, folded, chain, gNormal⟩ :=
      ih (.pair first operator right) joinedNormal loosest inside built
    refine ⟨g, ?_, ?_, gNormal⟩
    · rw [foldlM_cons, joinPiece, right_built.tree]
      exact folded
    · rw [chain, Grouping.chain, right_built.chain]
      rfl

/-- **The tree of a chain** whose operators all have a level is that of its normal grouping. The induction
is on the levels, as the building goes. -/
theorem exists_builds (levels : List (List Text)) (c : Chain Tree)
    (known : ∀ o ∈ c.operators, ∃ level ∈ levels, o ∈ level) : ∃ g, Builds levels (levelIn levels) c g := by
  induction levels generalizing c with
  | nil =>
    obtain ⟨x, rest⟩ := c
    cases rest with
    | nil => exact ⟨.operand x, operationTree?_single [] x, rfl, trivial⟩
    | cons head rest =>
      obtain ⟨level, mem, -⟩ := known head.1 mem_cons_self
      cases mem
  | cons level tighter ih =>
    obtain ⟨x, rest⟩ := c
    cases rest with
    | nil => exact ⟨.operand x, operationTree?_single _ x, rfl, trivial⟩
    | cons head rest =>
      -- a piece has its operators in the tighter levels, so it is built there
      have piece_built {d : Chain Tree} (apart : ∀ o ∈ d.operators, o ∉ level)
          (sub : ∀ o ∈ d.operators, o ∈ Chain.operators ⟨x, head :: rest⟩) :
          ∃ g, Builds tighter (levelIn (level :: tighter)) d g := by
        have known_tighter : ∀ o ∈ d.operators, ∃ l ∈ tighter, o ∈ l := by
          intro o mem
          obtain ⟨l, among, here⟩ := known o (sub o mem)
          rcases mem_cons.1 among with rfl | among
          · exact absurd here (apart o mem)
          · exact ⟨l, among, here⟩
        obtain ⟨g, built⟩ := ih d known_tighter
        refine ⟨g, built.tree, built.chain, built.normal.shift fun o mem => ?_⟩
        rw [built.chain] at mem
        exact levelIn_cons_of_not_mem tighter (apart o mem)
      obtain ⟨firstApart, pieces⟩ := Chain.cut_operators level x (head :: rest)
      obtain ⟨first, first_built⟩ := piece_built firstApart fun o => Chain.mem_of_cut_first
      obtain ⟨g, folded, chain, normal⟩ := builds_joined first first_built.normal
        (fun piece mem => levelIn_cons_of_mem tighter (pieces piece mem).1)
        (fun piece mem o inside => by
          rw [levelIn_cons_of_not_mem tighter ((pieces piece mem).2 o inside)]
          exact Nat.succ_pos _)
        (fun piece mem => piece_built (pieces piece mem).2 fun o => Chain.mem_of_cut_piece mem)
      refine ⟨g, ?_, ?_, normal⟩
      · rw [operationTree?_cons, first_built.tree]
        exact folded
      · rw [chain, first_built.chain, Chain.joined_cut]

theorem infix_level : ∀ o ∈ Vocabulary.infixOperators, ∃ level ∈ operatorLevels, o ∈ level := by
  decide

/-- What is built by the levels from one on is what the parser builds. -/
theorem Builds.buildOperation (start : Nat) {level : Text → Nat} {c : Chain Tree} {g : Grouping Tree}
    (built : Builds (operatorLevels.drop start) level c g) : buildOperation start c.parts = .ok g.tree := by
  have tree := built.tree
  obtain ⟨x, rest⟩ := c
  cases rest with
  | nil =>
    rw [Chain.parts, flatMap_nil, operationTree?_single] at tree
    exact congrArg Except.ok (Option.some.inj tree)
  | cons head rest =>
    have shape : Chain.parts ⟨x, head :: rest⟩ =
        x :: .text head.1 :: head.2 :: rest.flatMap fun (o, x) => [.text o, x] := rfl
    have levels : levelsFrom? start = some (operatorLevels.drop start) := by
      rw [levelsFrom?, if_pos (Int.natCast_nonneg start), Int.toNat_natCast]
    rw [shape] at tree ⊢
    simp only [Grammar.buildOperation, levels, tree]

/-- A chain of operands with binary operators between them is built to its normal grouping. -/
theorem buildOperation_normal (c : Chain Tree) (known : ∀ o ∈ c.operators, o ∈ Vocabulary.infixOperators) :
    ∃ g : Grouping Tree, buildOperation 0 c.parts = .ok g.tree ∧ g.chain = c ∧
      g.Normal (levelIn operatorLevels) := by
  obtain ⟨g, built⟩ := exists_builds operatorLevels c fun o mem => infix_level o (known o mem)
  exact ⟨g, built.buildOperation 0, built.chain, built.normal⟩

end JavaSource.Grammar
