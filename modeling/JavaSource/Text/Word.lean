import JavaSource.Text.Letter

/-!
# Words

Where a word starts and ends in running text. Words are made of letters, digits, other numbers and
underscores, as Unicode 14 has them.
-/

namespace JavaSource.Text

/-- Categories Nd and No. -/
def numberRanges : List (CodePoint × CodePoint) := rangesFrom 0
  [48, 10, 120, 2, 5, 1, 2, 3, 1441, 10, 134, 10, 198, 10, 412, 10, 118, 10, 4, 6, 108, 10, 118, 10, 118, 10, 2, 6, 110,
   13, 115, 10, 8, 7, 103, 10, 104, 7, 7, 19, 109, 10, 96, 10, 118, 10, 70, 20, 268, 10, 70, 10, 719, 20, 1123, 10, 6,
   10, 22, 10, 300, 10, 128, 11, 165, 10, 6, 10, 182, 10, 86, 10, 134, 10, 6, 10, 1046, 1, 3, 6, 6, 10, 198, 16, 41, 1,
   726, 60, 78, 22, 630, 30, 1385, 1, 1172, 4, 138, 10, 30, 8, 1, 15, 32, 10, 39, 15, 29536, 10, 518, 6, 154, 10, 38,
   10, 198, 10, 22, 10, 86, 10, 406, 10, 21270, 10, 493, 45, 65, 4, 17, 2, 341, 27, 36, 4, 380, 10, 942, 8, 25, 7, 39,
   9, 75, 5, 22, 6, 160, 2, 2, 16, 2, 46, 64, 9, 52, 2, 30, 3, 75, 5, 104, 8, 24, 8, 41, 7, 330, 6, 48, 10, 294, 31,
   158, 10, 42, 4, 112, 7, 134, 30, 128, 10, 60, 10, 144, 10, 7, 20, 251, 10, 342, 10, 118, 10, 374, 10, 102, 10, 102,
   12, 420, 19, 93, 10, 758, 29, 227, 10, 70, 10, 534, 21, 19083, 10, 86, 10, 134, 10, 1, 7, 798, 23, 25673, 20, 108,
   25, 1109, 50, 2368, 10, 422, 10, 1485, 9, 128, 10, 791, 59, 1, 3, 1, 4, 76, 45, 1, 15, 962, 13, 2787, 10]

def isWordPart (c : CodePoint) : Bool := isLetter c || inRanges numberRanges c || c == '_'.toNat

/-- Writes a suffix after each occurrence of one of the given words. The flag tells whether the text goes
on with a word that started before it; an occurrence inside of a longer word does not count. -/
def suffixWords (words : List Text) (suffix : Text) (inWord : Bool) (text : Text) : Text :=
  match text with
  | [] => []
  | c :: rest =>
    if !inWord && isWordPart c then
      let word := c :: rest.takeWhile isWordPart
      (if words.contains word then word ++ suffix else word) ++
        suffixWords words suffix true (rest.dropWhile isWordPart)
    else c :: suffixWords words suffix (isWordPart c) rest
termination_by text.length
decreasing_by
  · have shorter := (List.dropWhile_sublist (l := rest) isWordPart).length_le
    simp only [List.length_cons]
    omega
  · simp

end JavaSource.Text
