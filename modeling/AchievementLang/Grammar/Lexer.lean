import AchievementLang.Grammar.Symbol
import AchievementLang.Text.Hex

/-!
# Words of a script

How the characters of a script make up words. What counts as a word depends on where it
stands: only the patterns of the terminals that the parser can use there are tried, in a fixed
order of preference, besides blanks and comments, which may stand anywhere.
-/

namespace AchievementLang.Grammar

/-- What is tried at a place of the text. -/
inductive Pattern
  | blanks
  | lineComment
  | blockComment
  | word (t : Terminal)
  deriving DecidableEq, Repr

namespace Pattern

/-- The patterns by preference. The two keywords are names and have no pattern. -/
def all : List Pattern :=
  [.word .hexadecimal, .word .name, .word .string, .blockComment, .blanks, .lineComment,
   .word .decimal, .word .ellipsis, .word .relation, .word .arrow, .word .or, .word .and,
   .word .bang, .word .comma, .word .equal, .word .lbrace, .word .lpar, .word .lsqb,
   .word .minus, .word .percent, .word .plus, .word .rbrace, .word .rpar, .word .rsqb,
   .word .slash, .word .star]

/-- The pattern is tried where the given terminals are possible. -/
def isTried (possible : Terminal → Bool) : Pattern → Bool
  | .word t => possible t
  | _ => true

end Pattern

/-- A letter, or the low line. -/
def startsName (c : Char) : Bool := c.isAlpha || c = '_'

/-- What a name may go on with. -/
def continuesName (c : Char) : Bool := startsName c || c.isDigit

/-- The characters up to and including the quote that closes a string. A character after a
backslash does not close it; a string ends on the line on which it starts. -/
def stringBody : List Char → Option (List Char × List Char)
  | '"' :: rest => some (['"'], rest)
  | '\n' :: _ => none
  | '\\' :: '\n' :: _ => none
  | '\\' :: c :: rest => (stringBody rest).map fun (text, last) => ('\\' :: c :: text, last)
  | c :: rest => (stringBody rest).map fun (text, last) => (c :: text, last)
  | [] => none

/-- The characters up to and including the end of a block comment. -/
def commentBody : List Char → Option (List Char × List Char)
  | '*' :: '/' :: rest => some (['*', '/'], rest)
  | c :: rest => (commentBody rest).map fun (text, last) => (c :: text, last)
  | [] => none

/-- The longest front of the class, if it is not empty. -/
def run (p : Char → Bool) (cs : List Char) : Option (List Char × List Char) :=
  match cs.takeWhile p with
  | [] => none
  | text => some (text, cs.dropWhile p)

/-- A fixed word. -/
def fixed (text : List Char) (cs : List Char) : Option (List Char × List Char) :=
  if text.isPrefixOf cs then some (text, cs.drop text.length) else none

/-- The front of the text that a comparison sign matches; the longer sign wins. -/
def relationSign : List Char → Option (List Char × List Char)
  | '=' :: '=' :: rest => some (['=', '='], rest)
  | '!' :: '=' :: rest => some (['!', '='], rest)
  | '<' :: '=' :: rest => some (['<', '='], rest)
  | '>' :: '=' :: rest => some (['>', '='], rest)
  | '<' :: rest => some (['<'], rest)
  | '>' :: rest => some (['>'], rest)
  | _ => none

/-- The front of the text that a terminal's pattern matches, and the rest. -/
def matchTerminal : Terminal → List Char → Option (List Char × List Char)
  | .hexadecimal, '0' :: 'x' :: rest =>
    (run Text.isHexDigit rest).map fun (digits, last) => ('0' :: 'x' :: digits, last)
  | .name, c :: rest =>
    if startsName c then
      some (c :: rest.takeWhile continuesName, rest.dropWhile continuesName)
    else none
  | .string, '"' :: rest => (stringBody rest).map fun (text, last) => ('"' :: text, last)
  | .decimal, cs => run Char.isDigit cs
  | .relation, cs => relationSign cs
  | .ellipsis, cs => fixed ['.', '.', '.'] cs
  | .arrow, cs => fixed ['=', '>'] cs
  | .or, cs => fixed ['|', '|'] cs
  | .and, cs => fixed ['&', '&'] cs
  | .bang, cs => fixed ['!'] cs
  | .comma, cs => fixed [','] cs
  | .equal, cs => fixed ['='] cs
  | .lbrace, cs => fixed ['\x7b'] cs
  | .lpar, cs => fixed ['('] cs
  | .lsqb, cs => fixed ['['] cs
  | .minus, cs => fixed ['-'] cs
  | .percent, cs => fixed ['%'] cs
  | .plus, cs => fixed ['+'] cs
  | .rbrace, cs => fixed ['\x7d'] cs
  | .rpar, cs => fixed [')'] cs
  | .rsqb, cs => fixed [']'] cs
  | .slash, cs => fixed ['/'] cs
  | .star, cs => fixed ['*'] cs
  | _, _ => none

/-- The characters that separate words. -/
def isSeparator (c : Char) : Bool :=
  c = ' ' || c = '\t' || c = '\x0c' || c = '\r' || c = '\n'

/-- The front of the text that a pattern matches, and the rest. -/
def matchPattern : Pattern → List Char → Option (List Char × List Char)
  | .blanks, cs => run isSeparator cs
  | .lineComment, '/' :: '/' :: rest =>
    some ('/' :: '/' :: rest.takeWhile (· != '\n'), rest.dropWhile (· != '\n'))
  | .blockComment, '/' :: '*' :: rest =>
    (commentBody rest).map fun (text, last) => ('/' :: '*' :: text, last)
  | .word t, cs => matchTerminal t cs
  | _, _ => none

/-- The first pattern that matches, with what it matches and the rest. -/
def scan (possible : Terminal → Bool) (cs : List Char) :
    Option (Pattern × List Char × List Char) :=
  (Pattern.all.filter (·.isTried possible)).findSome? fun p =>
    (matchPattern p cs).map fun (text, rest) => (p, text, rest)

/-- A word of the script. -/
structure Token where
  terminal : Terminal
  text : String
  loc : Loc
  deriving DecidableEq, Repr

/-- A name is a keyword where the keyword is possible. -/
def retype (possible : Terminal → Bool) (t : Terminal) (text : String) : Terminal :=
  if t = .name ∧ text = "function" ∧ possible .function then .function
  else if t = .name ∧ text = "return" ∧ possible .ret then .ret
  else t

end AchievementLang.Grammar
