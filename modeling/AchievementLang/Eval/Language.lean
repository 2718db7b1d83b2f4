import AchievementLang.Compile.Trigger
import AchievementLang.Compile.Value
import AchievementLang.Eval.Binding

/-!
# The functions of the language

What a call of a function of the language is worth once its parameters are bound, and what
`achievement` and `leaderboard` put into the registry. Accessors and conditions are worth
calls of themselves with evaluated arguments; compilation gives those a meaning.
-/

namespace AchievementLang

/-! ## Conditions and values as texts -/

namespace Eval

/-- The text of a condition. -/
def conditionText (e : Expr) : Eval String := do
  Eval.record (.compiling (.condition e))
  let text ← Eval.compiled fun functions => Compile.conditionText functions e
  Eval.record (.condition e text)
  return text

/-- The text of a value. -/
def valueText (e : Expr) : Eval String := do
  Eval.record (.compiling (.value e))
  let text ← Eval.compiled fun functions => Compile.valueText functions e
  Eval.record (.value e text)
  return text

end Eval

namespace Activation

/-! ## Calls as expressions -/

/-- A call of the same function with the given arguments, at the place of the call. -/
def again (a : Activation) (args : List Expr) : Expr := .call a.function.name args a.loc

/-- A memory read. -/
def accessor (a : Activation) : Eval Expr := do
  let (address, loc) ← a.integer "address"
  match Wire.Word.ofInt? address with
  | some _ => return a.again [.integer address loc]
  | none => Eval.fail (.addressRange address) loc

/-- The call of the accessor of one bit that a call of `bit` stands for. -/
def bit (a : Activation) : Eval Expr := do
  let (index, loc) ← a.integer "index"
  if h : 0 ≤ index ∧ index ≤ 7 then
    let (address, addressLoc) ← a.integer "address"
    return .call (Wire.Size.bit ⟨index.toNat, by omega⟩).name [.integer address addressLoc] a.loc
  else Eval.fail .bitIndexRange loc

/-- The previous value of a memory read. -/
def prev (a : Activation) : Eval Expr := do
  let operand ← a.param "accessor"
  match operand with
  | .call name .. =>
    match ← Eval.function? name with
    | some (.accessor _) => return a.again [operand]
    | _ => Eval.fail .notAnAccessor operand.loc
  | _ => Eval.fail .notAnAccessor operand.loc

/-- A condition with a count of hits. -/
def repeated (a : Activation) : Eval Expr := do
  let (count, loc) ← a.integer "count"
  if count < 1 then Eval.fail .countRange loc
  else return a.again [.integer count loc, ← a.param "comparison"]

/-- A condition around a condition. -/
def around (a : Activation) : Eval Expr := do return a.again [← a.param "comparison"]

/-- The surplus arguments, evaluated where they were written. -/
def reducedSurplus (a : Activation) : Eval (List Expr) := a.surplus.mapM (·.reduce)

/-- The largest of several values. -/
def maxOf (a : Activation) : Eval Expr :=
  if a.surplus.isEmpty then Eval.fail .nothingToCompare a.loc
  else do return a.again (← a.reducedSurplus)

/-! ## Declaring achievements and leaderboards -/

/-- The line of the call. -/
def line (a : Activation) : Option Int := a.loc.map fun l => (l.line : Int)

/-- A call of `achievement`. -/
def registerAchievement (a : Activation) : Eval Unit := do
  let (title, _) ← a.string "title"
  let (description, _) ← a.string "description"
  let (points, pointsLoc) ← a.integer "points"
  if points < 0 then Eval.fail .pointsRange pointsLoc
  let condition ← a.param "trigger"
  Eval.record (.compiling (.trigger condition))
  let trigger ← Eval.compiled fun functions => Compile.trigger functions condition
  let (id, _) ← a.integer "id"
  Eval.register fun r => { r with achievements := r.achievements ++
    [{ title := title, description := description, points := points, id := id,
       trigger := trigger, sourceLine := a.line }] }
  Eval.record (.registeredAchievement title trigger)

/-- The values of which a leaderboard takes the largest. -/
def alternatives (e : Expr) : Eval (List Expr) := do
  match e with
  | .call name args _ =>
    match ← Eval.function? name with
    | some .maxOf => return args
    | _ => return [e]
  | _ => return [e]

/-- A call of `leaderboard`. -/
def registerLeaderboard (a : Activation) : Eval Unit := do
  let (title, _) ← a.string "title"
  let (description, _) ← a.string "description"
  let start ← Eval.conditionText (← a.param "start")
  let cancel ← Eval.conditionText (← a.param "cancel")
  let submit ← Eval.conditionText (← a.param "submit")
  let values ← (← alternatives (← a.param "value")).mapM Eval.valueText
  let (formatText, formatLoc) ← a.string "format"
  match ValueFormat.ofText? formatText with
  | none => Eval.fail (.unknownFormat formatText) formatLoc
  | some format =>
    let definition : Wire.Definition :=
      { start := start, cancel := cancel, submit := submit, value := "$".intercalate values }
    Eval.register fun r => { r with leaderboards := r.leaderboards ++
      [{ title := title, description := description, definition := definition,
         format := format, sourceLine := a.line }] }
    Eval.record (.registeredLeaderboard title definition)

end Activation

end AchievementLang
