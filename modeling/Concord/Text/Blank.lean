/-!
Blank characters and the words between them. Blank are the controls U+0009 to U+000D and U+001C to
U+001F, U+0085, and the space separators; a zero-width character is not blank.
-/

namespace Concord.Text

/-- The blank characters as ranges of code points. -/
def blankRanges : List (Nat × Nat) :=
  [(0x09, 0x0d), (0x1c, 0x20), (0x85, 0x85), (0xa0, 0xa0), (0x1680, 0x1680), (0x2000, 0x200a),
   (0x2028, 0x2029), (0x202f, 0x202f), (0x205f, 0x205f), (0x3000, 0x3000)]

def isBlank (c : Char) : Bool :=
  blankRanges.any fun r => r.1 ≤ c.toNat && c.toNat ≤ r.2

def stripChars (s : List Char) : List Char :=
  ((s.dropWhile isBlank).reverse.dropWhile isBlank).reverse

def strip (s : String) : String := String.ofList (stripChars s.toList)

/-- Items of a list option are separated by commas and blanks, in runs of any length. -/
def isSeparator (c : Char) : Bool := c == ',' || isBlank c

/-- The maximal runs of characters that are no separators. -/
def itemChars (s : List Char) : List (List Char) :=
  (s.splitOnP isSeparator).filter (!·.isEmpty)

def items (s : String) : List String := (itemChars s.toList).map String.ofList

/-- The words of a text that is separated by blanks alone. -/
def words (s : String) : List String :=
  ((s.toList.splitOnP isBlank).filter (!·.isEmpty)).map String.ofList

end Concord.Text
