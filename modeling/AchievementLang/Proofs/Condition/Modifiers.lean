import AchievementLang.Proofs.Compile.Rows

/-!
# Condition functions inside each other

`once`, `repeated`, `never` and `unless` mark the comparison that their condition compiles to, and
they can stand inside each other to any depth. A nest of them changes one row, the last, and there
it sets one flag and one hit count: those of the outermost functions that set any
(`Modifier.conditionRows_nest`). All other rows accumulate and are passed on as they are.

Each function compiles its own condition, so the statement is carried from the inside out. What is
kept on the way is that the last row is the only comparison (`Wire.Group.EndsWith`), which is where
a condition that is a single comparison starts from (`Wire.Group.IsEmitted.exists_endsWith`).
-/

namespace AchievementLang

namespace Wire.Group

/-- The rows that are no accumulators. -/
def comparisons (g : Group) : Group := g.filter fun r => !r.flag.isAccumulator

/-- The last row is the given one and no accumulator, and the rows before it are accumulators. -/
structure EndsWith (g init : Group) (last : Requirement) : Prop where
  eq : g = init ++ [last]
  accumulators : ∀ r ∈ init, r.flag.isAccumulator = true
  comparison : last.flag.isAccumulator = false

theorem EndsWith.comparisons_eq {g init : Group} {last : Requirement} (h : g.EndsWith init last) :
    g.comparisons = [last] := by
  have hinit : init.filter (fun r => !r.flag.isAccumulator) = [] :=
    List.filter_eq_nil_iff.2 fun r hr => by simp [h.accumulators r hr]
  rw [comparisons, h.eq, List.filter_append, hinit, List.nil_append]
  simp [h.comparison]

/-- What a condition compiles to ends with its comparison, if it has no other. -/
theorem IsEmitted.exists_endsWith {g : Group} (h : g.IsEmitted) (hone : g.comparisons.length = 1) :
    ∃ init last, g.EndsWith init last := by
  obtain rfl | ⟨init, last, rfl⟩ := g.eq_nil_or_concat'
  · cases hone
  have hlast : last.flag.isAccumulator = false := by
    have hoperator := h.last last (by simp)
    obtain ⟨-, -, -, hnone, -⟩ | ⟨hflag | hflag | hflag, -⟩ := h.rows last (by simp)
    · rw [hnone] at hoperator
      cases hoperator
    all_goals rw [hflag]; rfl
  refine ⟨init, last, rfl, fun r hr => ?_, hlast⟩
  have hinit : init.filter (fun r => !r.flag.isAccumulator) = [] := by
    rw [comparisons, List.filter_append] at hone
    simpa [hlast] using hone
  simpa using List.filter_eq_nil_iff.1 hinit r hr

end Wire.Group

/-- A condition function as a script calls it. -/
inductive Modifier
  | once (loc : Option Loc)
  | repeated (count : Nat) (pos : 1 ≤ count) (countLoc loc : Option Loc)
  | never (loc : Option Loc)
  | pausing (loc : Option Loc)

namespace Modifier

/-- The function that is called. -/
def function : Modifier → Function
  | once _ => .once
  | repeated .. => .repeated
  | never _ => .never
  | pausing _ => .pausing

/-- The arguments of the call, the condition among them. -/
def args (m : Modifier) (e : Expr) : List Expr :=
  match m with
  | repeated n _ l _ => [.integer n l, e]
  | _ => [e]

/-- The place of the call. -/
def loc : Modifier → Option Loc
  | once l | repeated _ _ _ l | never l | pausing l => l

/-- The call of the function with a condition. -/
def around (m : Modifier) (e : Expr) : Expr := .call m.function.name (m.args e) m.loc

/-- Calls inside each other around a condition, the outermost first. -/
def nest (ms : List Modifier) (c : Expr) : Expr := ms.foldr around c

/-- The flag that the function sets, if it sets one. -/
def flag? : Modifier → Option Wire.Flag
  | never _ => some .resetIf
  | pausing _ => some .pauseIf
  | _ => none

/-- The hit count that the function sets, if it sets one. -/
def hits? : Modifier → Option Nat
  | once _ => some 1
  | repeated n .. => some n
  | _ => none

/-- The row with the flag and the hit count of the outermost functions that set them. -/
def marked (ms : List Modifier) (row : Wire.Requirement) : Wire.Requirement :=
  { row with
    flag := (ms.findSome? flag?).getD row.flag
    hits := (ms.findSome? hits?).getD row.hits }

theorem marked_cons (m : Modifier) (ms : List Modifier) (row : Wire.Requirement) :
    marked (m :: ms) row = marked [m] (marked ms row) := by
  cases m <;> rfl

theorem isAccumulator_marked {ms : List Modifier} {row : Wire.Requirement}
    (h : row.flag.isAccumulator = false) : (marked ms row).flag.isAccumulator = false := by
  induction ms with
  | nil => exact h
  | cons m ms ih =>
    rw [marked_cons]
    cases m with
    | once | repeated => exact ih
    | never | pausing => rfl

/-! ## One function -/

open Compile Wire

variable {functions : FunctionTable} {m : Modifier} {init rows : Group} {last : Requirement}

theorem modifyRow_function (m : Modifier) (e : Expr) (row : Requirement) :
    modifyRow m.function (m.args e) row = .ok (marked [m] row) := by
  cases m <;> rfl

/-- The function changes the row of the comparison. -/
theorem modifyRows_function (h : rows.EndsWith init last) (m : Modifier) (e : Expr)
    (loc : Option Loc) :
    modifyRows m.function (m.args e) rows loc = .ok (init ++ [marked [m] last]) := by
  have hone : ¬(rows.filter fun r => !r.flag.isAccumulator).length ≠ 1 := by
    rw [← Group.comparisons, h.comparisons_eq]
    simp
  rw [modifyRows, if_neg hone, h.eq, List.getLast?_concat]
  dsimp only
  rw [modifyRow_function]
  simp only [List.dropLast_concat]

/-- The function applies to nothing but a single comparison. -/
theorem modifyRows_of_ne_one (h : rows.comparisons.length ≠ 1) (f : Function) (args : List Expr)
    (loc : Option Loc) : modifyRows f args rows loc = .error (.at? (.notSingle f.name) loc) :=
  if_pos h

theorem conditionRows_around (hm : functions.get? m.function.name = some m.function) (e : Expr) :
    conditionRows functions false (m.around e) =
      match conditionRows functions false e with
      | .error f => .error f
      | .ok rows => modifyRows m.function (m.args e) rows e.loc := by
  have hlast : lastRows functions (m.args e) =
      match conditionRows functions false e with
      | .error f => .error f
      | .ok rows => .ok (rows, e.loc) := by
    cases hrows : conditionRows functions false e <;> cases m <;> simp [args, lastRows, hrows]
  rw [around, conditionRows, if_neg Bool.false_ne_true, hm]
  cases m <;>
  · refine (if_pos rfl).trans ?_
    rw [hlast]
    cases conditionRows functions false e <;> rfl

/-! ## Any number of functions -/

variable {ms : List Modifier} {c : Expr}

theorem conditionRows_nest_of_endsWith
    (hms : ∀ m ∈ ms, functions.get? m.function.name = some m.function)
    (hc : conditionRows functions false c = .ok rows) (h : rows.EndsWith init last) :
    conditionRows functions false (nest ms c) = .ok (init ++ [marked ms last]) := by
  induction ms with
  | nil => rw [nest, List.foldr_nil, hc, h.eq]; rfl
  | cons m ms ih =>
    obtain ⟨hm, hms⟩ := List.forall_mem_cons.1 hms
    have hends : Group.EndsWith (init ++ [marked ms last]) init (marked ms last) :=
      ⟨rfl, h.accumulators, isAccumulator_marked h.comparison⟩
    rw [nest, List.foldr_cons, ← nest, conditionRows_around hm, ih hms, marked_cons]
    exact modifyRows_function hends m _ _

theorem conditionRows_nest_of_error
    (hms : ∀ m ∈ ms, functions.get? m.function.name = some m.function) {f : Failure}
    (hc : conditionRows functions false c = .error f) :
    conditionRows functions false (nest ms c) = .error f := by
  induction ms with
  | nil => exact hc
  | cons m ms ih =>
    obtain ⟨hm, hms⟩ := List.forall_mem_cons.1 hms
    rw [nest, List.foldr_cons, ← nest, conditionRows_around hm, ih hms]

theorem conditionRows_nest_of_ne_one (hne : ms ≠ [])
    (hms : ∀ m ∈ ms, functions.get? m.function.name = some m.function)
    (hc : conditionRows functions false c = .ok rows) (h : rows.comparisons.length ≠ 1) :
    ∃ m ∈ ms, conditionRows functions false (nest ms c) =
      .error (.at? (.notSingle m.function.name) c.loc) := by
  -- The innermost function refuses the rows, and the others pass its error on.
  obtain ⟨outer, m, rfl⟩ := ms.eq_nil_or_concat'.resolve_left hne
  refine ⟨m, by simp, ?_⟩
  have hinner : conditionRows functions false (m.around c) =
      .error (.at? (.notSingle m.function.name) c.loc) := by
    rw [conditionRows_around (hms m (by simp)), hc]
    exact modifyRows_of_ne_one h _ _ _
  have hnest : nest (outer ++ [m]) c = nest outer (m.around c) := by
    simp [nest]
  rw [hnest]
  exact conditionRows_nest_of_error (fun m hm => hms m (by simp [hm])) hinner

/-- **A nest of condition functions marks exactly one row.** If the condition inside compiles to
rows with one comparison, that is the last of them, and the nest compiles to the same rows, except
that the last one has the flag of the outermost `never` or `unless` and the hit count of the
outermost `once` or `repeated`, as far as there are any. If it compiles to any other number of
comparisons, the nest is refused, and if it does not compile, the nest fails with the same error. -/
theorem conditionRows_nest (hne : ms ≠ [])
    (hms : ∀ m ∈ ms, functions.get? m.function.name = some m.function) (c : Expr) :
    (∀ rows, conditionRows functions false c = .ok rows →
      (rows.comparisons.length = 1 → ∃ init last, rows.EndsWith init last ∧
        conditionRows functions false (nest ms c) = .ok (init ++ [marked ms last])) ∧
      (rows.comparisons.length ≠ 1 → ∃ fault : Fault, fault.cause.kind = .mismatch ∧
        conditionRows functions false (nest ms c) = .error (.fault fault))) ∧
    ∀ f, conditionRows functions false c = .error f →
      conditionRows functions false (nest ms c) = .error f := by
  refine ⟨fun rows hc => ⟨fun hone => ?_, fun h => ?_⟩, fun f hc =>
    conditionRows_nest_of_error hms hc⟩
  · obtain ⟨init, last, hends⟩ := (isEmitted_conditionRows false c hc).exists_endsWith hone
    exact ⟨init, last, hends, conditionRows_nest_of_endsWith hms hc hends⟩
  · obtain ⟨m, -, hnest⟩ := conditionRows_nest_of_ne_one hne hms hc h
    exact ⟨⟨.notSingle m.function.name, c.loc⟩, rfl, hnest⟩

theorem get?_initial (m : Modifier) :
    FunctionTable.initial.get? m.function.name = some m.function := by
  cases m <;> rfl

/-- A sum of two bytes that is three. -/
def sumCondition : Expr :=
  .compare .eq
    (.math .add (.call "byte" [.integer 1 none] none) (.call "byte" [.integer 2 none] none) none)
    (.integer 3 none) none

/-- Four functions around the sum: `unless` is overridden, and so is `once`. -/
def fourModifiers : List Modifier :=
  [.never none, .repeated 5 (by decide) none none, .pausing none, .once none]

theorem conditionRows_nest_fourModifiers :
    conditionRows .initial false sumCondition =
      .ok [{ left := .memory .byte 1, flag := .addSource },
        { left := .memory .byte 2, operator := some .eq, right := .literal 3 }] ∧
    conditionRows .initial false (nest fourModifiers sumCondition) =
      .ok [{ left := .memory .byte 1, flag := .addSource },
        { left := .memory .byte 2, operator := some .eq, right := .literal 3, hits := 5,
          flag := .resetIf }] := by
  have hc : conditionRows .initial false sumCondition =
      .ok [{ left := .memory .byte 1, flag := .addSource },
        { left := .memory .byte 2, operator := some .eq, right := .literal 3 }] := rfl
  refine ⟨hc, ?_⟩
  obtain ⟨init, last, hends, hnest⟩ :=
    ((@conditionRows_nest .initial fourModifiers nofun
      (fun m _ => get?_initial m) sumCondition).1 _ hc).1 rfl
  have hsplit : [_] ++ [_] = init ++ [last] := hends.eq
  obtain ⟨rfl, hlast⟩ := List.append_inj' hsplit rfl
  rw [hnest, ← List.singleton_inj.1 hlast]
  rfl

end Modifier

end AchievementLang
