import JavaSource.Text.Word

/-!
# Scaling a source text

A longer source text with the types of a given one several times over. What stands before the types is kept
once, and the names of the types get a number from the second copy on, so that they stay different.
-/

namespace JavaSource.Workload

def numberedNames : List Text :=
  ["Everything", "Proto", "Colour", "MyAnno", "Demo"].map Text.ofString

/-- The text before a marker and the text from the marker on. A text without the marker has nothing before
it. -/
def splitAtMarker (marker : Option Text) (base : Text) : Text × Text :=
  match marker.bind (Text.find? · base) with
  | some i => base.splitAt i
  | none => ([], base)

def numberedCopy (types : Text) (i : Nat) : Text :=
  if i = 0 then types
  else Text.suffixWords numberedNames (Text.ofString "_c" ++ Text.ofNat i) false types

/-- A source text with its types, from the marker on, so many times over, but at least once. -/
def scaleSource (base : Text) (copies : Int) (marker : Option Text) : Text :=
  let (head, types) := splitAtMarker marker base
  Text.join [Text.newline] (head :: (List.range (max 1 copies.toNat)).map (numberedCopy types))

end JavaSource.Workload
