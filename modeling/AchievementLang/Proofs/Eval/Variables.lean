import AchievementLang.Proofs.Eval.Run

/-!
# What variables hold

After any number of statements of a script, whether or not the run has failed by then, every global
variable holds an expression all of whose nodes are closed (`Scope.isClosed_of_get?_after`): nothing
is left in it that evaluation could look up, bind or fold, and every call is one that compilation
knows how to read.

`Expr.IsClosed` looks at one node and its children only. That the values of evaluation
(`Expr.IsReduced`) are closed throughout is shown along their constructors, and that variables hold
such values is what every contract of evaluation keeps.
-/

namespace AchievementLang

/-! ## Nodes -/

/-- The arguments are such as calls of the function are left with. They are given by position. -/
def Function.Accepts : Function → List Expr → Prop
  | accessor _, [.integer address _] => 0 ≤ address ∧ address < 2 ^ 32
  | prev, [.call name _ _] => ∃ size : Wire.Size, size.name = name
  | once, [_] | never, [_] | pausing, [_] => True
  | repeated, [.integer count _, _] => 1 ≤ count
  | constant _, [] => True
  | maxOf, _ :: _ => True
  | _, _ => False

namespace Expr

mutual

/-- The node itself and all that are below it. -/
def nodes : Expr → List Expr
  | .string s loc => [.string s loc]
  | .integer n loc => [.integer n loc]
  | .var x loc => [.var x loc]
  | .call f args loc => .call f args loc :: nodesOf args
  | .compare r a b loc => .compare r a b loc :: (nodes a ++ nodes b)
  | .math op a b loc => .math op a b loc :: (nodes a ++ nodes b)
  | .not e loc => .not e loc :: nodes e
  | .logic op es loc => .logic op es loc :: nodesOf es
  | .array es loc => .array es loc :: nodesOf es
  | .assign x e loc => .assign x e loc :: nodes e
  | .ret e loc => .ret e loc :: nodes e
  | .declare f params defaults body loc =>
    .declare f params defaults body loc :: (nodesOfDefaults defaults ++ nodesOf body)

/-- The nodes of several expressions. -/
def nodesOf : List Expr → List Expr
  | [] => []
  | e :: rest => nodes e ++ nodesOf rest

/-- The nodes of the defaults of a declaration. -/
def nodesOfDefaults : List (String × Expr) → List Expr
  | [] => []
  | (_, e) :: rest => nodes e ++ nodesOfDefaults rest

end

/-- The node may stand in what a variable holds. A named argument is an assignment, so the
arguments of calls have no names. -/
def IsClosed : Expr → Prop
  | .var .. | .assign .. | .ret .. | .declare .. => False
  | .math _ a b _ =>
    ¬ (a.integer?.isSome = true ∧ b.integer?.isSome = true) ∧
      a.isString = false ∧ b.isString = false
  | .call name args _ => ∃ f ∈ Function.all, f.name = name ∧ f.Accepts args
  | _ => True

theorem accepts_of_leaves {f : Function} {args : List Expr} (h : f.Leaves args) :
    f.Accepts args := by
  cases f with
  | accessor s =>
    obtain ⟨w, l, rfl⟩ := h
    have hw : w.val < 2 ^ 32 := w.isLt
    exact ⟨by omega, by omega⟩
  | prev =>
    obtain ⟨s, w, l, l', rfl⟩ := h
    exact ⟨s, rfl⟩
  | once | never | pausing =>
    obtain ⟨e, -, rfl⟩ := h
    trivial
  | repeated =>
    obtain ⟨n, l, e, hn, -, rfl⟩ := h
    exact hn
  | constant holds =>
    obtain rfl : args = [] := h
    trivial
  | maxOf =>
    obtain ⟨e, rest, rfl⟩ := List.exists_cons_of_ne_nil h.1
    trivial
  | _ => cases h

/-- A value is closed where it starts. -/
theorem IsReduced.isClosed {e : Expr} (h : e.IsReduced) : e.IsClosed := by
  cases e with
  | call name args l =>
    obtain ⟨f, hf, rfl, hargs⟩ := h.exists_leaves
    exact ⟨f, Function.mem_all hf, rfl, accepts_of_leaves hargs⟩
  | math op a b l =>
    cases h with
    | math _ _ _ hnumbers htexts => exact ⟨hnumbers, htexts⟩
  | var | assign | ret | declare => cases h
  | _ => trivial

/-- The arguments of a value that is a call are values. -/
theorem IsReduced.args {name : String} {args : List Expr} {l : Option Loc}
    (h : IsReduced (.call name args l)) : ∀ a ∈ args, a.IsReduced := by
  intro a ha
  cases h with
  | accessor s w l' =>
    obtain rfl := List.mem_singleton.1 ha
    exact .integer _ _
  | prev s w l' l'' =>
    obtain rfl := List.mem_singleton.1 ha
    exact .accessor s w l' l''
  | around f hf he =>
    obtain rfl := List.mem_singleton.1 ha
    exact he
  | repeated hn he =>
    obtain rfl | ha := List.mem_cons.1 ha
    · exact .integer _ _
    · obtain rfl := List.mem_singleton.1 ha
      exact he
  | constant => cases ha
  | maxOf hne hes => exact hes a ha

mutual

/-- **A value is closed throughout.** -/
theorem IsReduced.isClosed_nodes {v : Expr} (h : v.IsReduced) : ∀ e ∈ v.nodes, e.IsClosed := by
  have hself : v.IsClosed := h.isClosed
  cases v with
  | string | integer => simpa only [nodes, List.forall_mem_singleton] using hself
  | call name args l =>
    have hargs : ∀ e ∈ nodesOf args, e.IsClosed := isClosed_nodesOf h.args
    simpa only [nodes, List.forall_mem_cons] using And.intro hself hargs
  | compare r a b l =>
    cases h with
    | compare _ ha hb =>
      have hab := List.forall_mem_append.2 ⟨ha.isClosed_nodes, hb.isClosed_nodes⟩
      simpa only [nodes, List.forall_mem_cons] using And.intro hself hab
  | math op a b l =>
    cases h with
    | math _ ha hb =>
      have hab := List.forall_mem_append.2 ⟨ha.isClosed_nodes, hb.isClosed_nodes⟩
      simpa only [nodes, List.forall_mem_cons] using And.intro hself hab
  | not e l =>
    cases h with
    | not he => simpa only [nodes, List.forall_mem_cons] using And.intro hself he.isClosed_nodes
  | logic op es l =>
    cases h with
    | logic _ hes =>
      simpa only [nodes, List.forall_mem_cons] using And.intro hself (isClosed_nodesOf hes)
  | array es l =>
    cases h with
    | array hes =>
      simpa only [nodes, List.forall_mem_cons] using And.intro hself (isClosed_nodesOf hes)
  | var | assign | ret | declare => cases h

theorem isClosed_nodesOf {es : List Expr} (h : ∀ e ∈ es, e.IsReduced) :
    ∀ x ∈ nodesOf es, x.IsClosed := by
  cases es with
  | nil => simp [nodesOf]
  | cons e rest =>
    obtain ⟨he, hrest⟩ := List.forall_mem_cons.1 h
    rw [nodesOf]
    exact List.forall_mem_append.2 ⟨he.isClosed_nodes, isClosed_nodesOf hrest⟩

end

end Expr

/-! ## Runs -/

namespace Engine

/-- Running statements that follow others goes on where these have led. -/
theorem run_execute_append (m : Engine) (scope : Scope) (done rest : List Expr) (s : State) :
    (m.execute scope (done ++ rest)).run s =
      match (m.execute scope done).run s with
      | ((scope', .ok none), s') => (m.execute scope' rest).run s'
      | r => r := by
  induction done generalizing scope s with
  | nil => rfl
  | cons e done ih =>
    rw [List.cons_append]
    cases e with
    | ret e l =>
      rw [run_execute_ret, run_execute_ret]
      generalize (m.reduce scope e).run s = r
      obtain ⟨_ | v, s'⟩ := r <;> rfl
    | assign x e l =>
      rw [run_execute_assign, run_execute_assign]
      generalize (m.reduce scope e).run s = r
      obtain ⟨_ | v, s'⟩ := r
      · rfl
      · exact ih _ _
    | declare name params defaults body l =>
      rw [run_execute_declare, run_execute_declare]
      split
      · rfl
      · exact ih _ _
    | call name args l =>
      rw [run_execute_call, run_execute_call]
      generalize (m.perform scope name (m.arguments scope args) l).run s = r
      obtain ⟨_ | v, s'⟩ := r
      · rfl
      · exact ih _ _
    | _ => rfl

end Engine

namespace Scope

/-- **Global variables hold closed expressions** at every point of a run from a fresh global scope:
after the statements `done`, whether or not these fail. The run of a script that starts with them
passes this point, and goes on from there unless it has ended. -/
theorem isClosed_of_get?_execute {limit : Int} {done : List Expr} {scope : Scope}
    {result : Except Failure (Option Expr)} {s : State}
    (h : (({} : Scope).execute limit done).run {} = ((scope, result), s)) :
    (∀ x v, scope.get? x = some v → ∀ e ∈ v.nodes, e.IsClosed) ∧
      ∀ rest, (({} : Scope).execute limit (done ++ rest)).run {} =
        match result with
        | .ok none => ((Engine.within limit {}).execute scope rest).run s
        | _ => ((scope, result), s) := by
  have hran : Engine.Ran (contract False) ((({} : Scope).execute limit done).run {}) :=
    Script.ran_statements limit done
  rw [h] at hran
  refine ⟨fun x v hv => (hran.1.get? hv).isClosed_nodes, fun rest => ?_⟩
  have happend := (Engine.within limit {}).run_execute_append {} done rest {}
  rw [Scope.execute] at h ⊢
  rw [happend, h]
  obtain _ | _ | v := result <;> rfl

/-- A condition on memory that waits for one hit. -/
def keptCondition : Expr :=
  .call "once" [.compare .eq (.call "byte" [.integer 4660 none] none) (.integer 3 none) none] none

/-- Statements that keep a condition, declare `byte` anew, use what it has become and then fail. -/
def keepingStatements : List Expr :=
  [.assign "kept" keptCondition none,
    .declare "byte" ["a"] [] [.ret (.var "a" none) none] none,
    .assign "number" (.call "byte" [.integer 7 none] none) none,
    .assign "lost" (.math .div (.var "number" none) (.integer 0 none) none) none]

/-- The run of these statements fails, and what has been kept is closed. -/
theorem isClosed_of_get?_execute_keepingStatements :
    ∃ scope s, (({} : Scope).execute 64 keepingStatements).run {} =
        ((scope, .error (.at? .divisionByZero none)), s) ∧
      scope.get? "kept" = some keptCondition ∧ scope.get? "number" = some (.integer 7 none) ∧
      ∀ e ∈ keptCondition.nodes, e.IsClosed := by
  have hrun : ∃ scope s, (({} : Scope).execute 64 keepingStatements).run {} =
        ((scope, .error (.at? .divisionByZero none)), s) ∧
      scope.get? "kept" = some keptCondition ∧ scope.get? "number" = some (.integer 7 none) :=
    ⟨_, _, rfl, rfl, rfl⟩
  obtain ⟨scope, s, h, hkept, hnumber⟩ := hrun
  exact ⟨scope, s, h, hkept, hnumber, (isClosed_of_get?_execute h).1 "kept" _ hkept⟩

end Scope

end AchievementLang
