import AchievementLang.Expr.Basic

/-!
# Symbols and rules of the script grammar

The words of scripts (`Terminal`), the phrases built from them (`Nonterminal`), and the rules
(`Rule`), each with the phrase on its left side and the number of symbols on its right.
-/

namespace AchievementLang.Grammar

/-- The words of scripts. -/
inductive Terminal
  /-- The end of the script. -/
  | finish
  | bang
  | comma
  /-- One of the six comparison signs. -/
  | relation
  | decimal
  | ellipsis
  | equal
  | string
  /-- The word that starts a declaration. -/
  | function
  | hexadecimal
  | lbrace
  | lpar
  | lsqb
  | minus
  | name
  | percent
  | plus
  | rbrace
  /-- The word that ends a function with a value. -/
  | ret
  | rpar
  | rsqb
  | slash
  | star
  /-- The sign between the parameters of a function and its value. -/
  | arrow
  | or
  | and
  deriving DecidableEq, Repr

namespace Terminal

/-- The name of the word in lists of what was expected. -/
def label : Terminal → String
  | finish => "$END"
  | bang => "BANG"
  | comma => "COMMA"
  | relation => "COMP_OP"
  | decimal => "DEC_NUMBER"
  | ellipsis => "ELLIPSIS"
  | equal => "EQUAL"
  | string => "ESCAPED_STRING"
  | function => "FUNCTION"
  | hexadecimal => "HEX_NUMBER"
  | lbrace => "LBRACE"
  | lpar => "LPAR"
  | lsqb => "LSQB"
  | minus => "MINUS"
  | name => "NAME"
  | percent => "PERCENT"
  | plus => "PLUS"
  | rbrace => "RBRACE"
  | ret => "RETURN"
  | rpar => "RPAR"
  | rsqb => "RSQB"
  | slash => "SLASH"
  | star => "STAR"
  | arrow => "__ANON_0"
  | or => "__ANON_1"
  | and => "__ANON_2"

/-- Every word, in the order of the labels. -/
def all : List Terminal :=
  [finish, bang, comma, relation, decimal, ellipsis, equal, string, function, hexadecimal,
   lbrace, lpar, lsqb, minus, name, percent, plus, rbrace, ret, rpar, rsqb, slash, star, arrow,
   or, and]

end Terminal

/-- The phrases of scripts. -/
inductive Nonterminal
  | script
  | statements
  | statement
  | assignment
  | declaration
  | params
  | param
  /-- Parameters after the first, each with the comma before it. -/
  | moreParams
  | block
  | ret
  | expr
  | disjunction
  | conjunction
  /-- A condition without connective. -/
  | negation
  | comparison
  | sum
  | product
  | unary
  | atom
  /-- Entries of an array after the first. -/
  | moreEntries
  | args
  | arg
  /-- Arguments after the first. -/
  | moreArgs
  deriving DecidableEq, Repr

/-- The rules of the grammar. -/
inductive Rule
  /-- A phrase that is a phrase of another kind by itself. -/
  | pass (left : Nonterminal)
  | script
  | emptyScript
  | firstStatement
  | nextStatement
  | assignment
  | functionBlock (withParams : Bool)
  | functionArrow (withParams : Bool)
  | params
  | onlyParam
  | param
  | defaultParam
  | ellipsisParam
  | firstParam
  | nextParam
  | block
  | emptyBlock
  | ret
  | join (op : Connective)
  | not
  | compare
  | math (op : Operator)
  | minus
  | decimal
  | hexadecimal
  | string
  | var
  | call
  | emptyCall
  | array
  | onlyEntry
  | emptyArray
  | parenthesized
  | firstEntry
  | nextEntry
  | args
  | onlyArg
  | namedArg
  | firstArg
  | nextArg
  deriving DecidableEq, Repr

namespace Rule

/-- The phrase that the rule builds. -/
def left : Rule → Nonterminal
  | pass n => n
  | script | emptyScript => .script
  | firstStatement | nextStatement => .statements
  | assignment => .assignment
  | functionBlock _ | functionArrow _ => .declaration
  | params | onlyParam => .params
  | param | defaultParam | ellipsisParam => .param
  | firstParam | nextParam => .moreParams
  | block | emptyBlock => .block
  | ret => .ret
  | join .or => .disjunction
  | join .and => .conjunction
  | not => .negation
  | compare => .comparison
  | math .add | math .sub => .sum
  | math .mul | math .div | math .mod => .product
  | minus => .unary
  | decimal | hexadecimal | string | var | call | emptyCall | array | onlyEntry | emptyArray
  | parenthesized => .atom
  | firstEntry | nextEntry => .moreEntries
  | args | onlyArg => .args
  | namedArg => .arg
  | firstArg | nextArg => .moreArgs

/-- How many symbols the rule joins. -/
def size : Rule → Nat
  | emptyScript => 0
  | pass _ | script | firstStatement | onlyParam | param | ellipsisParam | decimal | hexadecimal
  | string | var | onlyArg => 1
  | nextStatement | params | firstParam | emptyBlock | ret | not | minus | emptyArray | firstEntry
  | args | firstArg => 2
  | assignment | defaultParam | nextParam | block | join _ | compare | math _ | emptyCall
  | onlyEntry | parenthesized | nextEntry | namedArg | nextArg => 3
  | call | array => 4
  | functionBlock false => 5
  | functionBlock true => 6
  | functionArrow false => 6
  | functionArrow true => 7

end Rule

end AchievementLang.Grammar
