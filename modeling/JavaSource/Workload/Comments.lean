import JavaSource.Javadoc.Block
import JavaSource.Workload.Fragments

/-!
# A workload on documentation comments

Documentation comments of different shapes, read over and over again, and then a comment that is no
documentation.
-/

namespace JavaSource.Workload

def ofLines (lines : List String) : Text := Text.join [Text.newline] (lines.map Text.ofString)

def comments : List Text :=
  [ofLines
    ["/**",
     " * Summary line for the thing.",
     " *",
     " * Longer description that",
     " * spans multiple lines.",
     " *",
     " * @param first the first value",
     " * @param second the second value,",
     " *        on two lines",
     " * @return the combined result",
     " * @throws IOException if reading fails",
     " * @exception RuntimeException if all else fails",
     " * @author someone",
     " * @since 1.0",
     " * @see Other",
     " * @deprecated use something else",
     " */"],
   ofLines
    ["/**",
     "     * Indented javadoc with leading stars.",
     "     *   @param x indented parameter",
     "     *   @custom tag of its own",
     "     */"],
   "/** @return one-liner with no description body */",
   ofLines ["/**", "\t*\tTabs and", "\t*\ttrailing\t", "\t*/"],
   "/** */",
   ofLines ["/**", " * @author a", " * @author b", " * @since 2.0", " */"]]

def plainComment : Text := "/* plain */"

structure Summary where
  description : Text
  params : Nat
  returns : Option Text
  exceptions : List Text
  deprecated : Bool
  tags : List Text

def sortedTexts (texts : List Text) : List Text := texts.mergeSort Text.isAtMost

def Summary.ofBlock (d : DocBlock) : Summary where
  description := d.description
  params := d.params.length
  returns := d.returns
  exceptions := sortedTexts (d.throws.map (·.1))
  deprecated := d.deprecated
  tags := sortedTexts (d.tags.map (·.1))

/-- What comes of `n` documentation comments, and of the plain comment after them. -/
def commentSummaries (n : Int) : List (Option Summary) :=
  (cycled comments n.toNat ++ [plainComment]).map fun raw =>
    (Javadoc.parse? raw).map Summary.ofBlock

end JavaSource.Workload
