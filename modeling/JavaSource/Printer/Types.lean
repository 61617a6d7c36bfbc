import JavaSource.Printer.Basic

/-!
# Printing types

A wildcard is printed as the type it stands on, and a primitive type with any number of dimensions as if it
had one.
-/

namespace JavaSource.Printer

open Text

def referenceType (print : Print) (t : Tree) : PrintM Tree := do
  let name ← attr t .name
  let subType ← attr t .subType
  let printed ←
    if subType.isTrue then
      let rest ← showing print subType
      followedBy name (ofString "." ++ rest)
    else pure name
  let arguments ← attr t .arguments
  let printed ←
    if arguments.isTrue then
      let opened ← followedBy printed "<"
      let all ← lift arguments.elements
      let listed ← all.foldlM (fun acc argument => do
        let whole ← print argument
        let part ← inner whole
        followedBy acc (part.shown ++ ofString ", ")) opened
      let listed ← shortenedBy 2 listed
      followedBy listed ">"
    else pure printed
  let dimensions ← attr t .dimensions
  if dimensions.isTrue then
    let pairs ← brackets dimensions
    followedBy printed pairs
  else return printed

def basicType (t : Tree) : PrintM Text := do
  let dimensions ← attr t .dimensions
  let name ← shownAttr t .name
  return name ++ (if dimensions.isTrue then ofString "[]" else [])

def typeArgument (print : Print) (t : Tree) : PrintM Text := do
  let type ← attr t .type
  let printed ← showing print type
  return ofString "<" ++ printed ++ ofString ">"

end JavaSource.Printer
