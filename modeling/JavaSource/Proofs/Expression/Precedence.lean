import JavaSource.Proofs.Expression.Grouping

/-!
# Operator precedence

A list of operands with operators between them is built to a tree by the levels of the operators, from a given level
on. `buildOperation_precedence` says which tree that is: read from left to right it is the list, each of its operators
is at least as loose as that of its left operand and looser than that of its right operand, and there is no other such
tree. The operands are not looked into, so they may be texts that spell operators, or operations themselves.
-/

namespace JavaSource.Grammar

open List

/-! ## Chains and their parts -/

variable {levels : List (List Text)}

namespace Chain

theorem parts_append (c : Chain Tree) (operator : Text) (d : Chain Tree) :
    (c.append operator d).parts = c.parts ++ .text operator :: d.parts := by
  simp [parts, append]

/-- A chain can be told from its parts. -/
theorem eq_of_parts {c d : Chain Tree} (same : c.parts = d.parts) : c = d := by
  obtain ⟨x, rest⟩ := c
  obtain ⟨y, others⟩ := d
  induction rest generalizing x y others with
  | nil =>
    cases others with
    | nil =>
      obtain ⟨rfl, -⟩ := List.cons.inj same
      rfl
    | cons head others => cases (List.cons.inj same).2
  | cons head rest ih =>
    cases others with
    | nil => cases (List.cons.inj same).2
    | cons head' others =>
      obtain ⟨rfl, behind⟩ := List.cons.inj same
      obtain ⟨operator, later⟩ := List.cons.inj behind
      have rest_same := ih head.2 head'.2 others later
      obtain ⟨operand, rest_eq⟩ := Chain.mk.inj rest_same
      have head_eq : head = head' := Prod.ext (Tree.text.inj operator) operand
      rw [head_eq, rest_eq]

/-- A list of odd length with operators of some levels at every second place is the list of the parts of a chain. -/
theorem exists_of_parts {parts : List Tree} {n : Nat} (odd : parts.length = 2 * n + 1)
    (known : ∀ i (h : i < parts.length), i % 2 = 1 → ∃ level ∈ levels, isOperatorOf level parts[i] = true) :
    ∃ c : Chain Tree, c.parts = parts ∧ ∀ o ∈ c.operators, ∃ level ∈ levels, o ∈ level := by
  induction n generalizing parts with
  | zero =>
    obtain ⟨x, rfl⟩ := length_eq_one_iff.1 odd
    exact ⟨⟨x, []⟩, rfl, forall_mem_nil _⟩
  | succ n ih =>
    obtain ⟨x, behind, rfl⟩ := exists_cons_of_length_eq_add_one odd
    obtain ⟨operator, rest, rfl⟩ := exists_cons_of_length_eq_add_one (Nat.succ.inj odd)
    have later : ∀ i (h : i < rest.length), i % 2 = 1 → ∃ level ∈ levels, isOperatorOf level rest[i] = true := by
      intro i lt place
      exact known (i + 2) (Nat.add_lt_add_right lt 2) (by omega)
    obtain ⟨c, same, among⟩ := ih (Nat.succ.inj (Nat.succ.inj odd)) later
    obtain ⟨level, mem, isOperator⟩ := known 1 (Nat.succ_lt_succ (Nat.zero_lt_succ _)) rfl
    change isOperatorOf level operator = true at isOperator
    cases operator with
    | text o =>
      refine ⟨c.after x o, by rw [parts_after, same], ?_⟩
      exact forall_mem_cons.2 ⟨⟨level, mem, contains_iff_mem.1 isOperator⟩, among⟩
    | _ => cases isOperator

end Chain

/-! ## Groupings read from left to right -/

namespace Grouping

def inOrder : Grouping Tree → List Tree
  | operand x => [x]
  | pair left operator right => left.inOrder ++ .text operator :: right.inOrder

theorem inOrder_eq (g : Grouping Tree) : g.inOrder = g.chain.parts := by
  induction g with
  | operand x => rfl
  | pair left operator right ihLeft ihRight => rw [inOrder, chain, Chain.parts_append, ihLeft, ihRight]

/-- A grouping that is normal by the levels from one on is normal by all of them, since no operator is of two levels. -/
theorem Normal.of_drop
    (disjoint : levels.Pairwise fun level other => ∀ o ∈ level, o ∉ other)
    {start : Nat} {g : Grouping Tree} (known : ∀ o ∈ g.chain.operators, ∃ level ∈ levels.drop start, o ∈ level)
    (normal : g.Normal (levelIn (levels.drop start))) : g.Normal (levelIn levels) := by
  induction levels generalizing start with
  | nil => rwa [drop_nil] at normal
  | cons level tighter ih =>
    obtain ⟨apart, disjoint⟩ := pairwise_cons.1 disjoint
    cases start with
    | zero => exact normal
    | succ start =>
      rw [drop_succ_cons] at known normal
      refine (ih disjoint known normal).shift fun o mem => levelIn_cons_of_not_mem tighter fun here => ?_
      obtain ⟨other, among, there⟩ := known o mem
      exact apart other (mem_of_mem_drop among) o here there

end Grouping

theorem operatorLevels_disjoint : operatorLevels.Pairwise fun level other => ∀ o ∈ level, o ∉ other := by
  decide

/-- **Operator precedence.** A list of operands with operators of the levels from `start` on between them is built to a
tree. From left to right it has the operands and operators of the list. The operator of each left operand in it is of
the same or a tighter level, and that of each right operand of a tighter level. It is the only such tree. -/
theorem buildOperation_precedence (start : Nat) (parts : List Tree) (odd : parts.length % 2 = 1)
    (known : ∀ i (h : i < parts.length), i % 2 = 1 →
      ∃ level ∈ operatorLevels.drop start, isOperatorOf level parts[i] = true) :
    ∃ g : Grouping Tree, buildOperation start parts = .ok g.tree ∧ g.inOrder = parts ∧
      g.Normal (levelIn operatorLevels) ∧
      ∀ other : Grouping Tree, other.inOrder = parts → other.Normal (levelIn operatorLevels) → other = g := by
  have length : parts.length = 2 * (parts.length / 2) + 1 := by omega
  obtain ⟨c, rfl, among⟩ := Chain.exists_of_parts length known
  obtain ⟨g, built⟩ := exists_builds (operatorLevels.drop start) c among
  have normal : g.Normal (levelIn operatorLevels) :=
    built.normal.of_drop operatorLevels_disjoint (by rwa [built.chain])
  refine ⟨g, built.buildOperation start, by rw [g.inOrder_eq, built.chain], normal, ?_⟩
  intro other reads otherNormal
  refine otherNormal.eq_of_chain_eq normal (Chain.eq_of_parts ?_)
  rw [← other.inOrder_eq, reads, built.chain]

def mixedChain : List Tree :=
  ["+", "-", "a", "*", "b", "/", "c", "+", "d"].map fun s => .text (Text.ofString s)

theorem buildOperation_precedence_mixed : mixedChain.length % 2 = 1 ∧
      (∀ i (h : i < mixedChain.length), i % 2 = 1 →
        ∃ level ∈ operatorLevels.drop 8, isOperatorOf level mixedChain[i] = true) ∧
      ∃ g : Grouping Tree, buildOperation 8 mixedChain = .ok g.tree ∧ g.inOrder = mixedChain ∧
        g.Normal (levelIn operatorLevels) ∧
        ∀ other : Grouping Tree, other.inOrder = mixedChain → other.Normal (levelIn operatorLevels) → other = g :=
  ⟨by decide, by decide, buildOperation_precedence 8 mixedChain (by decide) (by decide)⟩

end JavaSource.Grammar
