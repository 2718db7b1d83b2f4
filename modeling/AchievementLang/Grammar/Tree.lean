import AchievementLang.Bindings
import AchievementLang.Grammar.Lexer

/-!
# Building the tree

What each rule of the grammar makes of the phrases it joins. Conditions joined by the same
connective become one node, whether or not parentheses stood between them, and a minus sign
before a number makes a negative number; elsewhere it subtracts from zero.
-/

namespace AchievementLang.Grammar

/-- A parameter of a declaration. -/
structure Param where
  name : String
  default : Option Expr

/-- What a symbol of the grammar stands for. -/
inductive Meaning
  | token (t : Token)
  | expr (e : Expr)
  | exprs (es : List Expr)
  | param (p : Param)
  | params (ps : List Param)

/-- The characters of a string literal without quotes; a backslash keeps the character after
it, but for the letters `n` and `t`, which stand for a line feed and a tab. -/
def unescape : List Char → List Char
  | '\\' :: 'n' :: rest => '\n' :: unescape rest
  | '\\' :: 't' :: rest => '\t' :: unescape rest
  | '\\' :: c :: rest => c :: unescape rest
  | c :: rest => c :: unescape rest
  | [] => []

/-- The text between the quotes of a literal. -/
def literalText (s : String) : String := String.ofList (unescape (s.toList.drop 1).dropLast)

/-- The number that common digits write. -/
def decimalValue (s : String) : Nat :=
  s.toList.foldl (fun n c => 10 * n + (c.toNat - '0'.toNat)) 0

/-- The number written after `0x`. -/
def hexadecimalValue (s : String) : Nat := Text.hexValue (s.toList.drop 2)

/-- Two conditions joined. -/
def joinConditions (op : Connective) (a b : Expr) (loc : Option Loc) : Expr :=
  .logic op (a.operandsOf op ++ b.operandsOf op) loc

/-- The negative of an expression. -/
def negate (e : Expr) (loc : Option Loc) : Expr :=
  match e with
  | .integer n _ => .integer (-n) loc
  | e => .math .sub (.integer 0 none) e loc

/-- A declaration, located at its name. Of two defaults for one parameter the last counts. -/
def declaration (name : Token) (ps : List Param) (body : List Expr) : Expr :=
  .declare name.text (ps.map (·.name))
    (Bindings.ofPairs (ps.filterMap fun p => p.default.map fun e => (p.name, e))) body
    (some name.loc)

/-- The body of a function that is given by a value. -/
def arrowBody (e : Expr) : List Expr := [.ret e e.loc]

/-- What a rule makes of the meanings of its right side, the first of which starts at `loc`;
`none` if they are not those of its right side. -/
def Rule.build (loc : Loc) : Rule → List Meaning → Option Meaning
  | .pass _, [m] => some m
  | .script, [.exprs es] => some (.exprs es)
  | .emptyScript, [] => some (.exprs [])
  | .firstStatement, [.expr e] => some (.exprs [e])
  | .nextStatement, [.exprs es, .expr e] => some (.exprs (es ++ [e]))
  | .assignment, [.token x, .token _, .expr e] => some (.expr (.assign x.text e (some x.loc)))
  | .functionBlock true, [.token _, .token f, .token _, .params ps, .token _, .exprs es] =>
    some (.expr (declaration f ps es))
  | .functionBlock false, [.token _, .token f, .token _, .token _, .exprs es] =>
    some (.expr (declaration f [] es))
  | .functionArrow true,
      [.token _, .token f, .token _, .params ps, .token _, .token _, .expr e] =>
    some (.expr (declaration f ps (arrowBody e)))
  | .functionArrow false, [.token _, .token f, .token _, .token _, .token _, .expr e] =>
    some (.expr (declaration f [] (arrowBody e)))
  | .params, [.param p, .params ps] => some (.params (p :: ps))
  | .onlyParam, [.param p] => some (.params [p])
  | .param, [.token x] => some (.param ⟨x.text, none⟩)
  | .defaultParam, [.token x, .token _, .expr e] => some (.param ⟨x.text, some e⟩)
  | .ellipsisParam, [.token _] => some (.param ⟨ellipsis, none⟩)
  | .firstParam, [.token _, .param p] => some (.params [p])
  | .nextParam, [.params ps, .token _, .param p] => some (.params (ps ++ [p]))
  | .block, [.token _, .exprs es, .token _] => some (.exprs es)
  | .emptyBlock, [.token _, .token _] => some (.exprs [])
  | .ret, [.token _, .expr e] => some (.expr (.ret e (some loc)))
  | .join op, [.expr a, .token _, .expr b] => some (.expr (joinConditions op a b (some loc)))
  | .not, [.token _, .expr e] => some (.expr (.not e (some loc)))
  | .compare, [.expr a, .token sign, .expr b] =>
    (Relation.ofSymbol? sign.text).map fun r => .expr (.compare r a b (some loc))
  | .math op, [.expr a, .token _, .expr b] => some (.expr (.math op a b (some loc)))
  | .minus, [.token _, .expr e] => some (.expr (negate e (some loc)))
  | .decimal, [.token n] => some (.expr (.integer (decimalValue n.text) (some n.loc)))
  | .hexadecimal, [.token n] => some (.expr (.integer (hexadecimalValue n.text) (some n.loc)))
  | .string, [.token s] => some (.expr (.string (literalText s.text) (some s.loc)))
  | .var, [.token x] => some (.expr (.var x.text (some x.loc)))
  | .call, [.token f, .token _, .exprs es, .token _] =>
    some (.expr (.call f.text es (some f.loc)))
  | .emptyCall, [.token f, .token _, .token _] => some (.expr (.call f.text [] (some f.loc)))
  | .array, [.token _, .expr e, .exprs es, .token _] =>
    some (.expr (.array (e :: es) (some loc)))
  | .onlyEntry, [.token _, .expr e, .token _] => some (.expr (.array [e] (some loc)))
  | .emptyArray, [.token _, .token _] => some (.expr (.array [] (some loc)))
  | .parenthesized, [.token _, .expr e, .token _] => some (.expr e)
  | .firstEntry, [.token _, .expr e] => some (.exprs [e])
  | .nextEntry, [.exprs es, .token _, .expr e] => some (.exprs (es ++ [e]))
  | .args, [.expr e, .exprs es] => some (.exprs (e :: es))
  | .onlyArg, [.expr e] => some (.exprs [e])
  | .namedArg, [.token x, .token _, .expr e] => some (.expr (.assign x.text e (some x.loc)))
  | .firstArg, [.token _, .expr e] => some (.exprs [e])
  | .nextArg, [.exprs es, .token _, .expr e] => some (.exprs (es ++ [e]))
  | _, _ => none

end AchievementLang.Grammar
