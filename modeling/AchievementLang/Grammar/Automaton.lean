import AchievementLang.Grammar.Symbol

/-!
# The parsing automaton

The states of the shift-reduce parser. A state says which symbols may come next: a terminal is
shifted into another state, or a rule is reduced when one of its followers is seen, and after
a reduction the rule's left side leads on. Where a statement could end or go on, it goes on.

State `0` is the first; `accepting` is entered by the whole script.
-/

namespace AchievementLang.Grammar

/-- A state, by number. -/
abbrev State := Nat

/-- What can happen in a state. No state reduces two rules. -/
structure Row where
  shifts : List (Terminal × State) := []
  /-- A rule to reduce, and the terminals that call for it. -/
  reduction : Option (Rule × List Terminal) := none
  gotos : List (Nonterminal × State) := []

/-- The state entered by the whole script. -/
def accepting : State := 22

/-! ## Terminals that start a phrase, with the states they lead to -/

/-- What starts an operand of arithmetic. -/
def operandShifts : List (Terminal × State) :=
  [(.decimal, 2), (.string, 3), (.hexadecimal, 5), (.lpar, 6),
   (.lsqb, 7), (.minus, 8), (.name, 26)]

/-- What starts a condition or any other expression. -/
def conditionShifts : List (Terminal × State) := (.bang, 1) :: operandShifts

/-- What starts an argument; a name may turn out to be its label. -/
def argShifts : List (Terminal × State) :=
  [(.bang, 1), (.decimal, 2), (.string, 3), (.hexadecimal, 5), (.lpar, 6),
   (.lsqb, 7), (.minus, 8), (.name, 51)]

/-- What starts a statement. -/
def statementShifts : List (Terminal × State) :=
  [(.bang, 1), (.decimal, 2), (.string, 3), (.function, 4), (.hexadecimal, 5), (.lpar, 6),
   (.lsqb, 7), (.minus, 8), (.name, 9), (.ret, 10)]

/-- What starts a parameter. -/
def paramShifts : List (Terminal × State) :=
  [(.ellipsis, 64), (.name, 65)]

/-- What goes on with a product. -/
def factorShifts : List (Terminal × State) :=
  [(.percent, 39), (.slash, 40), (.star, 41)]

/-- What goes on with a sum. -/
def termShifts : List (Terminal × State) :=
  [(.minus, 43), (.plus, 44)]

/-! ## Terminals that follow a phrase -/

/-- What follows a statement: the end, a closing brace, or the next statement. -/
def afterStatement : List Terminal :=
  [.finish, .bang, .decimal, .string, .function, .hexadecimal, .lpar, .lsqb, .minus, .name,
   .rbrace, .ret]

/-- What follows an expression. -/
def afterExpr : List Terminal := .comma :: .rpar :: .rsqb :: afterStatement

/-- What follows a conjunction. -/
def afterConjunction : List Terminal := .or :: afterExpr

/-- What follows a condition without connective. -/
def afterNegation : List Terminal := .and :: afterConjunction

/-- What follows a side of a comparison; a minus sign goes on with it. -/
def afterSum : List Terminal := afterNegation.filter (· != .minus)

/-- What follows a product. -/
def afterProduct : List Terminal := .relation :: .plus :: afterNegation

/-- What follows an operand. -/
def afterOperand : List Terminal := .percent :: .slash :: .star :: afterProduct

/-! ## Where a reduced phrase leads -/

/-- Within a product whose operand leads to `n`. -/
def unaryGotos (n : State) : List (Nonterminal × State) := [(.atom, 14), (.unary, n)]

/-- Within a sum whose product leads to `n`. -/
def productGotos (n : State) : List (Nonterminal × State) := (.product, n) :: unaryGotos 25

/-- Within a comparison whose side leads to `n`. -/
def sumGotos (n : State) : List (Nonterminal × State) := (.sum, n) :: productGotos 20

/-- Within a conjunction whose condition leads to `n`. -/
def negationGotos (n : State) : List (Nonterminal × State) :=
  (.negation, n) :: (.comparison, 15) :: sumGotos 24

/-- Within a disjunction whose conjunction leads to `n`. -/
def conjunctionGotos (n : State) : List (Nonterminal × State) :=
  (.conjunction, n) :: negationGotos 18

/-- Where an expression leads to `n`. -/
def exprGotos (n : State) : List (Nonterminal × State) :=
  (.expr, n) :: (.disjunction, 19) :: conjunctionGotos 12

/-- Where a statement leads to `n`. -/
def statementGotos (n : State) : List (Nonterminal × State) :=
  (.statement, n) :: (.assignment, 13) :: (.declaration, 17) :: (.ret, 21) :: exprGotos 16

/-! ## The states -/

/-- What can happen in each state. -/
def row : State → Row
  | 0 =>
    { shifts := statementShifts,
      reduction := some (.emptyScript, [.finish]),
      gotos := (.script, 22) :: (.statements, 11) :: statementGotos 23 }
  | 1 => { shifts := conditionShifts, gotos := negationGotos 27 }
  | 2 => { reduction := some (.decimal, afterOperand) }
  | 3 => { reduction := some (.string, afterOperand) }
  | 4 => { shifts := [(.name, 28)] }
  | 5 => { reduction := some (.hexadecimal, afterOperand) }
  | 6 => { shifts := conditionShifts, gotos := exprGotos 29 }
  | 7 => { shifts := (.rsqb, 30) :: conditionShifts, gotos := exprGotos 31 }
  | 8 => { shifts := operandShifts, gotos := unaryGotos 32 }
  | 9 =>
    { shifts := [(.equal, 33), (.lpar, 34)],
      reduction := some (.var,
        afterOperand.filter fun t => t ∉ [Terminal.lpar, .comma, .rpar, .rsqb]) }
  | 10 => { shifts := conditionShifts, gotos := exprGotos 35 }
  | 11 =>
    { shifts := statementShifts,
      reduction := some (.script, [.finish]),
      gotos := statementGotos 36 }
  | 12 => { shifts := [(.and, 37)], reduction := some (.pass .disjunction, afterConjunction) }
  | 13 => { reduction := some (.pass .statement, afterStatement) }
  | 14 => { reduction := some (.pass .unary, afterOperand) }
  | 15 => { reduction := some (.pass .negation, afterNegation) }
  | 16 => { reduction := some (.pass .statement, afterStatement) }
  | 17 => { reduction := some (.pass .statement, afterStatement) }
  | 18 => { reduction := some (.pass .conjunction, afterNegation) }
  | 19 => { shifts := [(.or, 38)], reduction := some (.pass .expr, afterExpr) }
  | 20 => { shifts := factorShifts, reduction := some (.pass .sum, afterProduct) }
  | 21 => { reduction := some (.pass .statement, afterStatement) }
  | 22 => { }
  | 23 => { reduction := some (.firstStatement, afterStatement) }
  | 24 =>
    { shifts := (.relation, 42) :: termShifts,
      reduction := some (.pass .comparison, afterSum) }
  | 25 => { reduction := some (.pass .product, afterOperand) }
  | 26 => { shifts := [(.lpar, 34)], reduction := some (.var, afterOperand.filter (· != .lpar)) }
  | 27 => { reduction := some (.not, afterNegation) }
  | 28 => { shifts := [(.lpar, 45)] }
  | 29 => { shifts := [(.rpar, 46)] }
  | 30 => { reduction := some (.emptyArray, afterOperand) }
  | 31 => { shifts := [(.comma, 47), (.rsqb, 48)], gotos := [(.moreEntries, 49)] }
  | 32 => { reduction := some (.minus, afterOperand) }
  | 33 => { shifts := conditionShifts, gotos := exprGotos 50 }
  | 34 => { shifts := (.rpar, 52) :: argShifts, gotos := (.args, 54) :: (.arg, 53) :: exprGotos 55 }
  | 35 => { reduction := some (.ret, afterStatement) }
  | 36 => { reduction := some (.nextStatement, afterStatement) }
  | 37 => { shifts := conditionShifts, gotos := negationGotos 56 }
  | 38 => { shifts := conditionShifts, gotos := conjunctionGotos 57 }
  | 39 => { shifts := operandShifts, gotos := unaryGotos 58 }
  | 40 => { shifts := operandShifts, gotos := unaryGotos 59 }
  | 41 => { shifts := operandShifts, gotos := unaryGotos 60 }
  | 42 => { shifts := operandShifts, gotos := sumGotos 61 }
  | 43 => { shifts := operandShifts, gotos := productGotos 62 }
  | 44 => { shifts := operandShifts, gotos := productGotos 63 }
  | 45 => { shifts := (.rpar, 66) :: paramShifts, gotos := [(.param, 67), (.params, 68)] }
  | 46 => { reduction := some (.parenthesized, afterOperand) }
  | 47 => { shifts := conditionShifts, gotos := exprGotos 69 }
  | 48 => { reduction := some (.onlyEntry, afterOperand) }
  | 49 => { shifts := [(.comma, 70), (.rsqb, 71)] }
  | 50 => { reduction := some (.assignment, afterStatement) }
  | 51 =>
    { shifts := [(.equal, 72), (.lpar, 34)],
      reduction := some (.var,
        [.comma, .relation, .minus, .percent, .plus, .rpar, .slash, .star, .or, .and]) }
  | 52 => { reduction := some (.emptyCall, afterOperand) }
  | 53 =>
    { shifts := [(.comma, 73)],
      reduction := some (.onlyArg, [.rpar]),
      gotos := [(.moreArgs, 74)] }
  | 54 => { shifts := [(.rpar, 75)] }
  | 55 => { reduction := some (.pass .arg, [.comma, .rpar]) }
  | 56 => { reduction := some (.join .and, afterNegation) }
  | 57 => { shifts := [(.and, 37)], reduction := some (.join .or, afterConjunction) }
  | 58 => { reduction := some (.math .mod, afterOperand) }
  | 59 => { reduction := some (.math .div, afterOperand) }
  | 60 => { reduction := some (.math .mul, afterOperand) }
  | 61 => { shifts := termShifts, reduction := some (.compare, afterSum) }
  | 62 => { shifts := factorShifts, reduction := some (.math .sub, afterProduct) }
  | 63 => { shifts := factorShifts, reduction := some (.math .add, afterProduct) }
  | 64 => { reduction := some (.ellipsisParam, [.comma, .rpar]) }
  | 65 => { shifts := [(.equal, 76)], reduction := some (.param, [.comma, .rpar]) }
  | 66 => { shifts := [(.lbrace, 77), (.arrow, 78)], gotos := [(.block, 79)] }
  | 67 =>
    { shifts := [(.comma, 80)],
      reduction := some (.onlyParam, [.rpar]),
      gotos := [(.moreParams, 81)] }
  | 68 => { shifts := [(.rpar, 82)] }
  | 69 => { reduction := some (.firstEntry, [.comma, .rsqb]) }
  | 70 => { shifts := conditionShifts, gotos := exprGotos 83 }
  | 71 => { reduction := some (.array, afterOperand) }
  | 72 => { shifts := conditionShifts, gotos := exprGotos 84 }
  | 73 => { shifts := argShifts, gotos := (.arg, 85) :: exprGotos 55 }
  | 74 => { shifts := [(.comma, 86)], reduction := some (.args, [.rpar]) }
  | 75 => { reduction := some (.call, afterOperand) }
  | 76 => { shifts := conditionShifts, gotos := exprGotos 87 }
  | 77 =>
    { shifts := (.rbrace, 88) :: statementShifts,
      gotos := (.statements, 89) :: statementGotos 23 }
  | 78 => { shifts := conditionShifts, gotos := exprGotos 90 }
  | 79 => { reduction := some (.functionBlock false, afterStatement) }
  | 80 => { shifts := paramShifts, gotos := [(.param, 91)] }
  | 81 => { shifts := [(.comma, 92)], reduction := some (.params, [.rpar]) }
  | 82 => { shifts := [(.lbrace, 77), (.arrow, 93)], gotos := [(.block, 94)] }
  | 83 => { reduction := some (.nextEntry, [.comma, .rsqb]) }
  | 84 => { reduction := some (.namedArg, [.comma, .rpar]) }
  | 85 => { reduction := some (.firstArg, [.comma, .rpar]) }
  | 86 => { shifts := argShifts, gotos := (.arg, 95) :: exprGotos 55 }
  | 87 => { reduction := some (.defaultParam, [.comma, .rpar]) }
  | 88 => { reduction := some (.emptyBlock, afterStatement) }
  | 89 => { shifts := (.rbrace, 96) :: statementShifts, gotos := statementGotos 36 }
  | 90 => { reduction := some (.functionArrow false, afterStatement) }
  | 91 => { reduction := some (.firstParam, [.comma, .rpar]) }
  | 92 => { shifts := paramShifts, gotos := [(.param, 97)] }
  | 93 => { shifts := conditionShifts, gotos := exprGotos 98 }
  | 94 => { reduction := some (.functionBlock true, afterStatement) }
  | 95 => { reduction := some (.nextArg, [.comma, .rpar]) }
  | 96 => { reduction := some (.block, afterStatement) }
  | 97 => { reduction := some (.nextParam, [.comma, .rpar]) }
  | 98 => { reduction := some (.functionArrow true, afterStatement) }
  | _ => { }

/-- The terminals with an action in a state. -/
def actionable (s : State) (t : Terminal) : Bool :=
  (row s).shifts.any (·.1 == t) ||
    match (row s).reduction with
    | some (_, followers) => followers.contains t
    | none => false

/-- The terminals expected in a state, in the order in which they are listed to users. -/
def expected (s : State) : List Terminal := Terminal.all.filter (actionable s)

/-- The state after a reduced phrase. -/
def goto? (s : State) (n : Nonterminal) : Option State := (row s).gotos.lookup n

end AchievementLang.Grammar
