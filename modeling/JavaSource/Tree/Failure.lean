import JavaSource.Text.Basic

/-!
# Failures of working on trees

A tree that is put together by hand may hold anything anywhere, so whatever looks into a tree can fail.
-/

namespace JavaSource

inductive TreeFailure where
  /-- A part is not of the type that is needed in its place. -/
  | wrongType
  | outOfRange
  | noAttribute (owner name : String)
  /-- Two tokens, or a token and something else, are to be compared. -/
  | tokenCompared
  deriving DecidableEq, Repr

namespace TreeFailure

def message? : TreeFailure → Option Text
  | noAttribute owner name =>
    some (Text.ofString "'" ++ Text.ofString owner ++ Text.ofString "' object has no attribute '" ++
      Text.ofString name ++ Text.ofString "'")
  | tokenCompared => some "Direct comparison not allowed"
  | wrongType | outOfRange => none

end TreeFailure

end JavaSource
