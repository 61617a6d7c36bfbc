import JavaSource.Number.Double
import JavaSource.Token.Basic
import JavaSource.Tree.Kind

/-!
# Trees

A syntax tree is a node of some kind with its parts under their names. Parts are trees too: nodes, lists,
texts, truth values, and, in trees that are put together by hand, numbers, sets and tokens. A node always
has the attributes of its kind, in order, and may carry further ones after them.
-/

namespace JavaSource

/-- A tree, or any value that can be part of one. -/
inductive Tree where
  | null
  | bool (b : Bool)
  | int (n : Int)
  | float (x : Double)
  | text (s : Text)
  | list (items : List Tree)
  | tuple (items : List Tree)
  | set (items : List Tree)
  /-- A token as a part of a tree. It has the parts of a token, and may carry attributes. -/
  | token (cls : TokenClass) (value : Tree) (position : Option Position) (javadoc : Option Text)
      (fields : List (Attr × Tree)) (place : Option (Option Position))
  /-- A node with its attributes. `place` is its place in the source text, if it was ever set. -/
  | node (kind : Kind) (fields : List (Attr × Tree)) (place : Option (Option Position))

namespace Tree

instance : Inhabited Tree := ⟨.null⟩

/-! ## Attributes -/

def lookup (a : Attr) : List (Attr × Tree) → Option Tree
  | [] => none
  | (b, v) :: rest => if a = b then some v else lookup a rest

/-- A list of attributes with one of them set, in its place if it is there already. -/
def assign (a : Attr) (v : Tree) : List (Attr × Tree) → List (Attr × Tree)
  | [] => [(a, v)]
  | (b, w) :: rest => if a = b then (a, v) :: rest else (b, w) :: assign a v rest

/-- The attribute of a node or token, if it has it. The value of a token counts as an attribute. -/
def get? (a : Attr) : Tree → Option Tree
  | node _ fields _ => lookup a fields
  | token _ value _ _ fields _ => if a = .value then some value else lookup a fields
  | _ => none

/-- The attribute of a node or token, or nothing. -/
def get (a : Attr) (t : Tree) : Tree := (t.get? a).getD .null

def put (t : Tree) (a : Attr) (v : Tree) : Tree :=
  match t with
  | node kind fields place => node kind (assign a v fields) place
  | token cls value position javadoc fields place =>
    token cls value position javadoc (assign a v fields) place
  | t => t

def placeAt (position : Option Position) : Tree → Tree
  | node kind fields _ => node kind fields (some position)
  | token cls value p javadoc fields _ => token cls value p javadoc fields (some position)
  | t => t

/-- A node of the given kind with the given attributes; the others of its kind are nothing. -/
def make (kind : Kind) (given : List (Attr × Tree)) : Tree :=
  node kind (kind.attrs.map fun a => (a, (lookup a given).getD .null)) none

/-- A node of the given kind, unless an attribute is given that the kind does not have. -/
def make? (kind : Kind) (given : List (Attr × Tree)) : Option Tree :=
  if given.all fun (a, _) => kind.attrs.contains a then some (make kind given) else none

/-! ## Leaves -/

def ofToken (t : Token) : Tree :=
  token t.cls (text t.value) t.position t.javadoc [] none

def ofText? : Option Text → Tree
  | some s => text s
  | none => null

def ofTexts (xs : List Text) : Tree := list (xs.map text)

def ofOption : Option Tree → Tree
  | some t => t
  | none => null

def ofList? : Option (List Tree) → Tree
  | some ts => list ts
  | none => null

def dimensions (n : Nat) : Tree := list (List.replicate n null)

/-! ## Simple views -/

def kind? : Tree → Option Kind
  | node kind _ _ => some kind
  | _ => none

def isA (t : Tree) (k : Kind) : Bool := t.kind?.any (·.isA k)

/-- Whether the tree counts as something: nothing, false, zero and whatever is empty do not. -/
def isTrue : Tree → Bool
  | null => false
  | bool b => b
  | int n => n ≠ 0
  | float x => x.mantissa ≠ 0
  | text s => !s.isEmpty
  | list xs => !xs.isEmpty
  | tuple xs => !xs.isEmpty
  | set xs => !xs.isEmpty
  | token .. => true
  | node .. => true

def items : Tree → List Tree
  | list xs => xs
  | _ => []

def typeName : Tree → String
  | null => "NoneType"
  | bool _ => "bool"
  | int _ => "int"
  | float _ => "float"
  | text _ => "str"
  | list _ => "list"
  | tuple _ => "tuple"
  | set _ => "set"
  | token cls .. => cls.name
  | node kind .. => kind.name

def position? : Tree → Option Position
  | node _ _ place => place.join
  | token _ _ _ _ _ place => place.join
  | _ => none

def declared : Tree → List (Attr × Tree)
  | t@(node kind _ _) => kind.attrs.map fun a => (a, t.get a)
  | _ => []

def children (t : Tree) : List Tree := t.declared.map (·.2)

end Tree

end JavaSource
