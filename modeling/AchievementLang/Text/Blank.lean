import AchievementLang.Text.CodeRange

/-!
# Blanks and lines

Which characters are trimmed from the ends of a text, and where a text breaks into lines.
-/

namespace AchievementLang.Text

/-- Characters trimmed from the ends of a text. -/
def blanks : CodeRanges :=
  [(0x9, 0xd), (0x1c, 0x20), (0x85, 0x85), (0xa0, 0xa0), (0x1680, 0x1680), (0x2000, 0x200a),
   (0x2028, 0x2029), (0x202f, 0x202f), (0x205f, 0x205f), (0x3000, 0x3000)]

/-- The character is trimmed from the ends of a text. -/
def isBlank (c : Char) : Bool := blanks.contains c

/-- The text without the characters of a class at its front. -/
def trimLeft (p : Char → Bool) (cs : List Char) : List Char := cs.dropWhile p

/-- The text without the characters of a class at both ends. -/
def trimBy (p : Char → Bool) (cs : List Char) : List Char :=
  ((cs.dropWhile p).reverse.dropWhile p).reverse

/-- The text without blanks at both ends. -/
def trim (cs : List Char) : List Char := trimBy isBlank cs

/-- Characters that end a line of running text. -/
def lineBreaks : CodeRanges :=
  [(0xa, 0xd), (0x1c, 0x1e), (0x85, 0x85), (0x2028, 0x2029)]

/-- The character ends a line of running text. -/
def isLineBreak (c : Char) : Bool := lineBreaks.contains c

/-- The lines after `current`, whose characters are given in reverse. A carriage return and
a line feed together end one line; a text that ends in a break has no empty last line. -/
def linesFrom (current : List Char) : List Char → List (List Char)
  | [] => if current.isEmpty then [] else [current.reverse]
  | '\r' :: '\n' :: rest => current.reverse :: linesFrom [] rest
  | c :: rest =>
    if isLineBreak c then current.reverse :: linesFrom [] rest else linesFrom (c :: current) rest

/-- The lines of a text, without their breaks. -/
def lines (cs : List Char) : List (List Char) := linesFrom [] cs

/-- The text with every line feed, carriage return, and pair of both written as one line feed. -/
def unifyLineEnds : List Char → List Char
  | '\r' :: '\n' :: rest => '\n' :: unifyLineEnds rest
  | '\r' :: rest => '\n' :: unifyLineEnds rest
  | c :: rest => c :: unifyLineEnds rest
  | [] => []

end AchievementLang.Text
