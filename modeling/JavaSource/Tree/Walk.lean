import JavaSource.Tree.Basic
import JavaSource.Tree.Failure

/-!
# Walking a tree

A walk visits every node of a tree, a node before its parts, and the parts in the order of the declared
attributes. Each visit knows the way from the root, in which lists count.
-/

namespace JavaSource

structure Visit where
  path : List Tree
  node : Tree

def Visit.names (v : Visit) : List String := v.path.map Tree.typeName

namespace Tree

mutual

/-- The visits of a tree that lies at the end of a path. What is neither node nor list is passed over. -/
def visits (path : List Tree) : Tree → List Visit
  | node kind fields place =>
    ⟨path, node kind fields place⟩ :: visitsOfFields kind (path ++ [node kind fields place]) fields
  | list xs => visitsOfItems (path ++ [list xs]) xs
  | tuple xs => visitsOfItems (path ++ [tuple xs]) xs
  | _ => []

def visitsOfItems (path : List Tree) : List Tree → List Visit
  | [] => []
  | x :: xs => visits path x ++ visitsOfItems path xs

def visitsOfFields (kind : Kind) (path : List Tree) : List (Attr × Tree) → List Visit
  | [] => []
  | (a, x) :: rest =>
    (if kind.attrs.contains a then visits path x else []) ++ visitsOfFields kind path rest

end

/-- The walk of a tree. A text and a set can be walked too, but for the nodes of a set there is nothing to
visit in them. -/
def walk : Tree → Except TreeFailure (List Visit)
  | text _ => .ok []
  | set xs => .ok (visitsOfItems [set xs] xs)
  | t@(list _) => .ok (visits [] t)
  | t@(tuple _) => .ok (visits [] t)
  | t@(node ..) => .ok (visits [] t)
  | _ => .error .wrongType

def require (t : Tree) (a : Attr) : Except TreeFailure Tree :=
  match t.get? a with
  | some v => .ok v
  | none => .error (.noAttribute t.typeName a.spelling)

/-- What is found by going through a tree one by one: the items of a list, the characters of a text, and the
visits of the walk of a node. -/
def elements : Tree → Except TreeFailure (List Tree)
  | list xs => .ok xs
  | tuple xs => .ok xs
  | set xs => .ok xs
  | text s => .ok (s.map fun c => text [c])
  | t@(node ..) => .ok ((visits [] t).map fun v => tuple [tuple v.path, v.node])
  | _ => .error .wrongType

/-- The walk of a node; nothing else can be filtered. -/
def walkToFilter (t : Tree) : Except TreeFailure (List Visit) :=
  match t with
  | node .. => t.walk
  | _ => .error (.noAttribute t.typeName "filter")

def filterKind (k : Kind) (t : Tree) : Except TreeFailure (List Visit) := do
  let visits ← t.walkToFilter
  return visits.filter fun v => v.node.isA k

/-- The visit of the node with the given number in the walk; negative numbers count from the end. -/
def visitAt (i : Int) (t : Tree) : Except TreeFailure (List Visit) := do
  let all ← t.walk
  let n := if i < 0 then i + all.length else i
  match if n < 0 then none else all[n.toNat]? with
  | none => .error .outOfRange
  | some visit =>
    match t with
    | node .. => .ok [visit]
    | _ => .error (.noAttribute t.typeName "filter")

end Tree

end JavaSource
