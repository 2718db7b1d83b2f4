import AchievementLang.Grammar.Parser

/-!
# What connectives join

The parser makes a node of a connective only of what stands on both of its sides, so in the
statements that it gives every connective joins several conditions, in arguments, defaults and
bodies too (`Grammar.joinsThroughout_of_parseStatements`). A rule of the grammar keeps this
(`Grammar.Rule.joins_build`), and so does every step of the parser, since all that is on its stack
was built by rules.
-/

namespace AchievementLang

namespace Expr

mutual

/-- Every connective joins several conditions, wherever it stands. -/
def JoinsThroughout : Expr → Prop
  | .call _ args _ => JoinThroughout args
  | .compare _ a b _ | .math _ a b _ => a.JoinsThroughout ∧ b.JoinsThroughout
  | .not e _ | .assign _ e _ | .ret e _ => e.JoinsThroughout
  | .logic _ es _ => 2 ≤ es.length ∧ JoinThroughout es
  | .array es _ => JoinThroughout es
  | .declare _ _ defaults body _ => DefaultsJoin defaults ∧ JoinThroughout body
  | .string .. | .integer .. | .var .. => True

/-- Every connective in the expressions joins several conditions. -/
def JoinThroughout : List Expr → Prop
  | [] => True
  | e :: rest => e.JoinsThroughout ∧ JoinThroughout rest

/-- Every connective in the defaults of a declaration joins several conditions. -/
def DefaultsJoin : List (String × Expr) → Prop
  | [] => True
  | (_, e) :: rest => e.JoinsThroughout ∧ DefaultsJoin rest

end

@[simp] theorem joinThroughout_iff (es : List Expr) :
    JoinThroughout es ↔ ∀ e ∈ es, e.JoinsThroughout := by
  induction es with
  | nil => simp [JoinThroughout]
  | cons e rest ih => rw [JoinThroughout, ih, List.forall_mem_cons]

@[simp] theorem defaultsJoin_iff (defaults : List (String × Expr)) :
    DefaultsJoin defaults ↔ ∀ d ∈ defaults, d.2.JoinsThroughout := by
  induction defaults with
  | nil => simp [DefaultsJoin]
  | cons d rest ih => rw [DefaultsJoin, ih, List.forall_mem_cons]

theorem JoinsThroughout.mem_operandsOf {op : Connective} {e x : Expr} (h : e.JoinsThroughout)
    (hx : x ∈ e.operandsOf op) : x.JoinsThroughout := by
  cases e with
  | logic op' es l =>
    rw [operandsOf] at hx
    split at hx
    · exact (joinThroughout_iff es).1 h.2 x hx
    · exact List.mem_singleton.1 hx ▸ h
  | _ => exact List.mem_singleton.1 hx ▸ h

end Expr

namespace Grammar

/-! ## Rules -/

/-- Every connective in what a symbol stands for joins several conditions. -/
def Meaning.Joins : Meaning → Prop
  | .token _ => True
  | .expr e => e.JoinsThroughout
  | .exprs es => ∀ e ∈ es, e.JoinsThroughout
  | .param p => ∀ e ∈ p.default, e.JoinsThroughout
  | .params ps => ∀ p ∈ ps, ∀ e ∈ p.default, e.JoinsThroughout

theorem joinsThroughout_joinConditions (op : Connective) {a b : Expr} (ha : a.JoinsThroughout)
    (hb : b.JoinsThroughout) (loc : Option Loc) : (joinConditions op a b loc).JoinsThroughout := by
  have hone {e : Expr} (h : e.JoinsThroughout) : 1 ≤ (e.operandsOf op).length := by
    cases e with
    | logic op' es l =>
      rw [Expr.operandsOf]
      split
      · exact Nat.le_of_succ_le h.1
      · exact Nat.le_refl 1
    | _ => exact Nat.le_refl 1
  refine ⟨?_, (Expr.joinThroughout_iff _).2 (List.forall_mem_append.2 ⟨fun x => ha.mem_operandsOf,
    fun x => hb.mem_operandsOf⟩)⟩
  rw [List.length_append]
  exact Nat.add_le_add (hone ha) (hone hb)

theorem joinsThroughout_negate {e : Expr} (h : e.JoinsThroughout) (loc : Option Loc) :
    (negate e loc).JoinsThroughout := by
  unfold negate
  split
  · trivial
  · exact ⟨trivial, h⟩

theorem joinsThroughout_declaration (name : Token) {ps : List Param} {body : List Expr}
    (hps : ∀ p ∈ ps, ∀ e ∈ p.default, e.JoinsThroughout) (hbody : ∀ e ∈ body, e.JoinsThroughout) :
    (declaration name ps body).JoinsThroughout := by
  refine ⟨(Expr.defaultsJoin_iff _).2 fun d hd => ?_, (Expr.joinThroughout_iff _).2 hbody⟩
  obtain ⟨p, hp, hd⟩ := List.mem_filterMap.1 (Bindings.mem_ofPairs hd)
  obtain ⟨e, he, rfl⟩ := Option.map_eq_some_iff.1 hd
  exact hps p hp e he

/-- **A rule keeps connectives of several conditions.** -/
theorem Rule.joins_build {loc : Loc} {r : Rule} {ms : List Meaning} {m : Meaning}
    (h : r.build loc ms = some m) (hms : ∀ m ∈ ms, m.Joins) : m.Joins := by
  unfold Rule.build at h
  split at h
  all_goals simp only [List.forall_mem_cons, Meaning.Joins, true_and, List.not_mem_nil,
    false_imp_iff, implies_true, and_true] at hms
  -- Only for a comparison something is looked up, its sign.
  all_goals first | cases h | obtain ⟨r, -, rfl⟩ := Option.map_eq_some_iff.1 h
  all_goals try rw [Meaning.Joins]
  -- Parameters are extended or declared; all else is made of what joins already.
  all_goals first
    | exact List.forall_mem_cons.2 hms
    | exact List.forall_mem_append.2 ⟨hms.1, List.forall_mem_singleton.2 hms.2⟩
    | exact joinsThroughout_declaration _ hms.1 hms.2
    | exact joinsThroughout_declaration _ hms.1 (List.forall_mem_singleton.2 hms.2)
    | simp_all [Meaning.Joins, Expr.JoinsThroughout, arrowBody, or_imp,
        joinsThroughout_declaration, joinsThroughout_joinConditions, joinsThroughout_negate]

/-! ## The parser -/

/-- Every connective in what is on the stack joins several conditions. -/
def Stack.Joins (stack : Stack) : Prop := ∀ e ∈ stack, e.meaning.Joins

theorem joins_reduce? {here : Loc} {r : Rule} {stack next : Stack} (hstack : stack.Joins)
    (h : reduce? here r stack = some next) : next.Joins := by
  simp only [reduce?] at h
  split at h
  next m s hbuild _ =>
    cases h
    refine List.forall_mem_cons.2 ⟨Rule.joins_build hbuild fun m hm => ?_, fun e he =>
      hstack e (List.mem_of_mem_drop he)⟩
    obtain ⟨e, he, rfl⟩ := List.mem_map.1 hm
    exact hstack e (List.mem_of_mem_take (List.mem_reverse.1 he))
  next => cases h

/-- Every connective in what a stack becomes joins several conditions. -/
def Settled.Joins : Settled → Prop
  | .shift _ stack => stack.Joins
  | .complete es => ∀ e ∈ es, e.JoinsThroughout
  | .refused _ | .stuck => True

theorem joins_settle (here : Loc) (t : Terminal) {stack : Stack} (h : stack.Joins) :
    (settle here t stack).Joins := by
  fun_induction settle here t stack with
  | case1 => exact h
  | case2 | case3 | case7 => trivial
  | case4 stack _ r followers _ _ es start below hnext =>
    exact (List.forall_mem_cons.1 (joins_reduce? h hnext)).1
  | case5 stack _ r followers _ _ next hnext hpotential _ ih =>
    rw [if_pos hpotential]
    exact ih (joins_reduce? h hnext)
  | case6 stack _ r followers _ _ next hnext hpotential =>
    rw [if_neg hpotential]
    trivial

theorem joins_takeMatch {c next : Cursor} {p : Pattern} {text : List Char} (hc : c.stack.Joins)
    (h : takeMatch c p text = .ok next) : next.stack.Joins := by
  unfold takeMatch at h
  split at h
  next t =>
    have hsettle := joins_settle c.here
      (retype (actionable c.stack.state) t (String.ofList text)) hc
    simp only [takeWord] at h
    split at h
    next hshift =>
      cases h
      rw [hshift] at hsettle
      exact List.forall_mem_cons.2 ⟨trivial, hsettle⟩
    all_goals cases h
  next =>
    cases h
    exact hc

theorem joins_takeEnd {c : Cursor} {es : List Expr} (hc : c.stack.Joins)
    (h : takeEnd c = .ok es) : ∀ e ∈ es, e.JoinsThroughout := by
  have hsettle := joins_settle c.lastWord .finish hc
  unfold takeEnd at h
  split at h
  next hcomplete =>
    cases h
    rwa [hcomplete] at hsettle
  all_goals cases h

theorem joins_parseFrom {c : Cursor} {cs : List Char} {es : List Expr} (hc : c.stack.Joins)
    (h : parseFrom c cs = .ok es) : ∀ e ∈ es, e.JoinsThroughout := by
  fun_induction parseFrom c cs with
  | case1 => exact joins_takeEnd hc h
  | case2 | case3 | case5 => cases h
  | case4 c cs _ p text rest _ next hnext _ ih => exact ih (joins_takeMatch hc hnext) h

/-- **In the statements of a script every connective joins several conditions.** -/
theorem joinsThroughout_of_parseStatements {cs : List Char} {es : List Expr}
    (h : parseStatements cs = .ok es) : ∀ e ∈ es, e.JoinsThroughout :=
  joins_parseFrom (by simp [Stack.Joins]) h

end Grammar

end AchievementLang
