import JavaSource.Grammar.Failure
import JavaSource.Tree.Basic

/-!
# Binary operations

A chain of operands with operators between them becomes a tree by the levels of the operators, from the
loosest to the tightest. Operators of one level group to the left.
-/

namespace JavaSource.Grammar

/-- The levels of the binary operators, the loosest first. -/
def operatorLevels : List (List Text) :=
  [["||"], ["&&"], ["|"], ["^"], ["&"], ["==", "!="], ["<", ">", ">=", "<=", "instanceof"],
   ["<<", ">>", ">>>"], ["+", "-"], ["*", "/", "%"]].map (·.map Text.ofString)

def isOperatorOf (level : List Text) : Tree → Bool
  | .text s => level.contains s
  | _ => false

/-- Cuts a chain at the operators of one level: its first piece, and then each operator with the piece after
it. Operators stand at every second place, and none at the end. -/
def cut (level : List Text) : List Tree → List Tree × List (Tree × List Tree)
  | operand :: operator :: next :: rest =>
    let (piece, more) := cut level (next :: rest)
    if isOperatorOf level operator then ([operand], (operator, piece) :: more)
    else (operand :: operator :: piece, more)
  | parts => (parts, [])

def operation (left operator right : Tree) : Tree :=
  .make .binaryOperation [(.operator, operator), (.leftOperand, left), (.rightOperand, right)]

/-- The tree of a chain, if the levels tell what to do with it: a single part stands for itself, and any
other chain has to hold an operator of one of the levels. -/
def operationTree? : List (List Text) → List Tree → Option Tree
  | levels, parts =>
    match parts with
    | [part] => some part
    | _ =>
      match levels with
      | [] => none
      | level :: tighter => do
        let (first, more) := cut level parts
        let first ← operationTree? tighter first
        more.foldlM (fun left (operator, piece) => do
          let right ← operationTree? tighter piece
          return operation left operator right) first

/-- The levels from a given one on. Negative numbers count from the tightest level, after which all levels
follow once more. -/
def levelsFrom? (start : Int) : Option (List (List Text)) :=
  let n := operatorLevels.length
  if 0 ≤ start then some (operatorLevels.drop start.toNat)
  else if 0 ≤ start + n then some (operatorLevels.drop (start + n).toNat ++ operatorLevels)
  else none

/-- The tree of a chain whose operators are of the levels from a given one on. -/
def buildOperation (start : Int) (parts : List Tree) : Except ParseFailure Tree :=
  match parts, levelsFrom? start with
  | [part], _ => .ok part
  | _ :: _ :: _ :: _, none => .error .noLevel
  | _, none => .error .noOperator
  | _, some levels =>
    match operationTree? levels parts with
    | some tree => .ok tree
    | none => .error .noOperator

/-- A chain is not built for want of an operator or of a level. -/
theorem failure_of_buildOperation {start : Int} {parts : List Tree} {failure : ParseFailure}
    (fails : buildOperation start parts = .error failure) : failure = .noOperator ∨ failure = .noLevel := by
  unfold buildOperation at fails
  split at fails
  · cases fails
  · cases fails
    exact .inr rfl
  · cases fails
    exact .inl rfl
  · split at fails <;> cases fails
    exact .inl rfl

end JavaSource.Grammar
