import AchievementLang.Expr.Basic

/-!
# Printing expressions

The text of an expression, fully parenthesised where operators nest: arithmetic and joined
conditions stand in parentheses, comparisons do not. What scripts can write reads back as the
same tree.
-/

namespace AchievementLang.Expr

mutual

/-- The text of a node. -/
def text : Expr → String
  | .string s _ => "\"" ++ s ++ "\""
  | .integer n _ => toString n
  | .var x _ => x
  | .call f args _ => f ++ "(" ++ ", ".intercalate (texts args) ++ ")"
  | .compare r a b _ => a.text ++ " " ++ r.symbol ++ " " ++ b.text
  | .math op a b _ => "(" ++ a.text ++ " " ++ op.symbol ++ " " ++ b.text ++ ")"
  | .not a _ => "!(" ++ a.text ++ ")"
  | .logic op es _ => "(" ++ (" " ++ op.symbol ++ " ").intercalate (texts es) ++ ")"
  | .array es _ => "[" ++ ", ".intercalate (texts es) ++ "]"
  | .assign x e _ => x ++ " = " ++ e.text
  | .ret e _ => "return " ++ e.text
  | .declare f params _ body _ =>
    "function " ++ f ++ "(" ++ ", ".intercalate params ++ ") \x7b " ++
      " ".intercalate (texts body) ++ " \x7d"

/-- The texts of nodes. -/
def texts : List Expr → List String
  | [] => []
  | e :: rest => e.text :: texts rest

end

theorem texts_eq_map (es : List Expr) : texts es = es.map text := by
  induction es with
  | nil => rfl
  | cons e rest ih => simp [texts, ih]

end AchievementLang.Expr
