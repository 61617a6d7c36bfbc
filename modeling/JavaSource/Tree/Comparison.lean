import JavaSource.Tree.Basic
import JavaSource.Tree.Failure

/-!
# Comparing nodes

Two nodes are equal if they are of one kind and their declared attributes have equal values. Only this one
level is compared: a node inside another one equals nothing but itself, and a token cannot be compared at
all. Numbers and truth values are equal if they have the same value.
-/

namespace JavaSource.Tree

/-- The value of a truth value or a number as an integer, if it is one. -/
def integer? : Tree → Option Int
  | bool b => some (if b then 1 else 0)
  | int n => some n
  | _ => none

def sameLeaf : Tree → Tree → Bool
  | null, null => true
  | text s, text u => s == u
  | float x, float y => x.sameValue y
  | float x, t => t.integer?.any x.equalsInt
  | t, float x => t.integer?.any x.equalsInt
  | t, u => match t.integer?, u.integer? with
    | some m, some n => m == n
    | _, _ => false

def isToken : Tree → Bool
  | token .. => true
  | _ => false

mutual

/-- Whether two values, built apart from each other, are equal. Lists of different lengths differ, and of
two lists of one length only the items up to the first difference are compared. -/
def equalsApart : Tree → Tree → Except TreeFailure Bool
  | list xs, list ys =>
    if xs.length = ys.length then equalsItems xs ys else .ok false
  | set xs, set ys => .ok (xs.length == ys.length && xs.all fun x => ys.any (sameLeaf x))
  | t, u => if t.isToken || u.isToken then .error .tokenCompared else .ok (sameLeaf t u)

def equalsItems : List Tree → List Tree → Except TreeFailure Bool
  | x :: xs, y :: ys => do
    if ← equalsApart x y then equalsItems xs ys else return false
  | _, _ => .ok true

end

/-- Whether attributes have equal values, compared one after the other up to the first difference. -/
def equalFields (t u : Tree) : List Attr → Except TreeFailure Bool
  | [] => .ok true
  | a :: rest => do
    if ← equalsApart (u.get a) (t.get a) then equalFields t u rest else return false

/-- Whether two nodes, built apart from each other, are equal on one level. -/
def equals (t u : Tree) : Except TreeFailure Bool :=
  match t with
  | node kind _ _ => if u.kind? = some kind then equalFields t u kind.attrs else .ok false
  | _ => .error (.noAttribute t.typeName "__equals__")

/-- Whether a node is equal to itself. It is, unless one of its attributes is a token. -/
def equalsItself (t : Tree) : Except TreeFailure Bool :=
  match t with
  | node .. => if t.children.any isToken then .error .tokenCompared else .ok true
  | _ => .error (.noAttribute t.typeName "__equals__")

end JavaSource.Tree
