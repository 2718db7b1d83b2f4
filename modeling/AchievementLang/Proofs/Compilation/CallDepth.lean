import AchievementLang.Compilation
import AchievementLang.Proofs.Eval.ConcurringEngines

/-!
# The limit of nested calls

Permitting more calls inside each other changes nothing but where a run is cut off
(`Script.compileText_of_le`). An engine that permits fewer calls is followed by one that permits
more, step by step, as long as it is not cut off (`concurs_cutting`): the limit is looked at in one
place only, where no more calls are permitted, and no failure is ever caught. What a call of `bit`
stands for is evaluated with the calls counted anew, up to the same limit, so the same holds there.
-/

namespace AchievementLang

open Eval

/-- The failure is that calls nest more deeply than the limit permits. -/
def Failure.IsCut (limit : Int) (f : Failure) : Prop :=
  ∃ name loc, f = .at? (.callDepth limit name) loc

/-- Everything counts, unless the first evaluation is cut off. -/
def Comparison.cutting (limit : Int) : Comparison where
  places := true
  depths := true
  excused := Failure.IsCut limit
  code _ := True
  states := Eq
  kept _ := True
  left _ := trivial
  functions h := h ▸ rfl
  declares h := h ▸ rfl
  record h he := by rw [h, he rfl rfl]
  register _ h := by rw [h]
  declare _ h := by rw [h]
  rest _ := trivial
  body _ _ := trivial

variable {limit limit' : Int}

/-- In every scope, more calls are permitted under a greater limit. -/
theorem concurs_cutting (h : limit ≤ limit') (scope : Scope) :
    (Engine.within limit scope).Concurs (.cutting limit) (Engine.within limit' scope) :=
  have hcut (name : String) (loc : Option Loc) :
      Failure.IsCut limit (.at? (.callDepth limit name) loc) := ⟨name, loc, rfl⟩
  concurs_within h (.inr hcut) scope

/-! ## Scripts -/

namespace Script

/-- A run that is not cut off is the same under a greater limit, together with all that can be told
about it. -/
theorem compile_of_le (h : limit ≤ limit') (s : Script) :
    (∃ f, (s.compile limit).1 = .error f ∧ f.IsCut limit) ∨
      s.compile limit' = s.compile limit := by
  have hcode : (Comparison.cutting limit).code s.statements := trivial
  have hagree := (concurs_cutting h {}).run (.refl _ _ {}) hcode {} {} rfl
  change Concur _ _ _
    (((({} : Scope).execute limit s.statements).run {}).1.2,
      ((({} : Scope).execute limit s.statements).run {}).2)
    (((({} : Scope).execute limit' s.statements).run {}).1.2,
      ((({} : Scope).execute limit' s.statements).run {}).2) at hagree
  unfold compile
  cases s.statements.find? isReturn with
  | some e => exact .inr rfl
  | none =>
    dsimp only
    generalize (({} : Scope).execute limit s.statements).run {} = r,
      (({} : Scope).execute limit' s.statements).run {} = r' at hagree ⊢
    obtain ⟨⟨scope, result⟩, state⟩ := r
    obtain ⟨⟨scope', result'⟩, state'⟩ := r'
    cases hagree with
    | value hvw hst =>
      obtain rfl := hvw.eq rfl
      cases hst
      exact .inr rfl
    | failure hfg hst =>
      obtain rfl := hfg.eq rfl
      cases hst
      exact .inr rfl
    | excused hf => exact .inl ⟨_, rfl, hf⟩

/-- **The limit of calls never changes a result, it only cuts runs off**: whatever compiling a text
comes to under one limit, be it what the script declares or an error, it comes to under every
greater limit, unless the error is that calls nest more deeply than the smaller limit permits. -/
theorem compileText_of_le (h : limit ≤ limit') (text : String) :
    (∃ f, compileText limit text = .error f ∧ f.IsCut limit) ∨
      compileText limit' text = compileText limit text := by
  unfold compileText
  cases parse text with
  | error e => exact .inr rfl
  | ok s => exact (compile_of_le h s).imp_right fun hs => by dsimp only; rw [hs]

/-- A script with a function that calls another one, with an argument that is a call, and with the
accessor of a bit, which is evaluated from the global scope. -/
def nestingScript : String :=
  "function at(i, a = 1 + 1) => bit(i, a)
function flag(i) => at(i) == 1
  achievement(\"t\", \"d\", 5, flag(7 % 4))"

/-- It needs three calls inside each other: two are too few, and more change nothing. -/
theorem compileText_of_le_nestingScript :
    ((2 : Int) ≤ 3 ∧ ∃ f, compileText 2 nestingScript = .error f ∧ f.IsCut 2) ∧
      (3 : Int) ≤ defaultCallDepth ∧ (compileText 3 nestingScript).toOption.isSome = true ∧
      compileText defaultCallDepth nestingScript = compileText 3 nestingScript := by
  have hchars : nestingScript.toList = _ := String.toList_ofList
  have htwo : (compileText 2 nestingScript).toOption.isSome = false := by
    rw [compileText, parse, hchars]
    decide +kernel
  have hthree : (compileText 3 nestingScript).toOption.isSome = true := by
    rw [compileText, parse, hchars]
    decide +kernel
  refine ⟨⟨by decide, ?_⟩, by decide, hthree, ?_⟩
  · obtain hcut | hsame := compileText_of_le (show (2 : Int) ≤ 3 by decide) nestingScript
    · exact hcut
    · rw [hsame, htwo] at hthree
      cases hthree
  · obtain ⟨f, hf, -⟩ | hsame :=
      compileText_of_le (show (3 : Int) ≤ defaultCallDepth by decide) nestingScript
    · rw [hf] at hthree
      cases hthree
    · exact hsame

end Script

end AchievementLang
