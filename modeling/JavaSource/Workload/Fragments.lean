import JavaSource.Parser.Entry

/-!
# A workload on fragments

Short pieces of source text, each read in its own way, over and over again, and then a few that are wrong.
-/

namespace JavaSource.Workload

structure Fragment where
  entry : Entry
  source : String

def fragments : List Fragment :=
  [⟨.expression, "a + b * c"⟩,
   ⟨.expression, "flag ? a : b"⟩,
   ⟨.expression, "(List<String>) items"⟩,
   ⟨.expression, "new ArrayList<>(8)"⟩,
   ⟨.expression, "items[0].name"⟩,
   ⟨.expression, "(x, y) -> x + y"⟩,
   ⟨.expression, "System.out::println"⟩,
   ⟨.expression, "a << 2 >> 1 >>> 3"⟩,
   ⟨.expression, "a && b || c"⟩,
   ⟨.expression, "value instanceof String"⟩,
   ⟨.memberSignature, "public void run()"⟩,
   ⟨.memberSignature, "private int count"⟩,
   ⟨.memberSignature, "static <T> T first(List<T> items)"⟩,
   ⟨.memberSignature, "int[] lengths(String... words) throws IOException;"⟩,
   ⟨.memberSignature, "abstract Map<String, int[]> index()"⟩,
   ⟨.constructorSignature, "public Point(int x, int y)"⟩,
   ⟨.constructorSignature, "<T> Box(T content);"⟩,
   ⟨.type, "Map<String, List<int[]>>"⟩,
   ⟨.type, "int[][]"⟩,
   ⟨.type, "Outer.Inner<? extends Number>"⟩,
   ⟨.request .strict (.rule .typeDeclaration), ";"⟩,
   ⟨.typeSignature, "public final class Box<T>"⟩,
   ⟨.typeSignature, "interface Shape extends Drawable"⟩,
   ⟨.typeSignature, "enum Direction"⟩,
   ⟨.typeSignature, "@interface Marker;"⟩]

def brokenFragments : List Fragment :=
  [⟨.expression, "a + ;"⟩,
   ⟨.memberSignature, "public 5"⟩,
   ⟨.unit, "class \x7b \x7d"⟩]

/-- The name of what comes of a fragment: a tree, or the text of a message. -/
def Fragment.outcome (f : Fragment) : String :=
  match f.entry.parse (.text (Text.ofString f.source)) with
  | .ok tree => tree.typeName
  | .error _ => (Tree.text []).typeName

/-- The first `n` items of a list that is repeated without end. -/
def cycled {α : Type} (items : List α) (n : Nat) : List α :=
  (List.range n).filterMap fun i => items[i % items.length]?

/-- What comes of `n` fragments, one after the other, and of the broken ones after them. -/
def fragmentOutcomes (n : Int) : List String :=
  (cycled fragments n.toNat ++ brokenFragments).map Fragment.outcome

end JavaSource.Workload
