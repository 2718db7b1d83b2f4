import AchievementLang.Eval.State
import AchievementLang.Proofs.Eval.BitsKept

/-!
# The functions of the language kept

A script that declares no function of the language anew (`LeavesLanguage`) runs with all of them as
they are. The table of functions says so itself (`FunctionTable.Intact`): each of their names
denotes its function, and the bodies of declared functions leave them alone as well. The
declarations of such a script keep it (`FunctionTable.Intact.set`).
-/

namespace AchievementLang

/-- No statement declares a function of the language anew. -/
def LeavesLanguage (body : List Expr) : Prop :=
  ∀ f : Function, f.isBuiltin = true → f.name ∉ Expr.declaredIn body

theorem LeavesLanguage.tail {e : Expr} {rest : List Expr} (h : LeavesLanguage (e :: rest)) :
    LeavesLanguage rest := fun f hf hmem => h f hf (by simp [Expr.declaredIn, hmem])

theorem LeavesLanguage.body {name : String} {params : List String} {defaults : Bindings Expr}
    {body rest : List Expr} {loc : Option Loc}
    (h : LeavesLanguage (.declare name params defaults body loc :: rest)) : LeavesLanguage body :=
  fun f hf hmem => h f hf (by simp [Expr.declaredIn, Expr.declared, hmem])

theorem LeavesLanguage.name_ne {name : String} {params : List String} {defaults : Bindings Expr}
    {body rest : List Expr} {loc : Option Loc}
    (h : LeavesLanguage (.declare name params defaults body loc :: rest)) {f : Function}
    (hf : f.isBuiltin = true) : name ≠ f.name :=
  fun hname => h f hf (by simp [Expr.declaredIn, Expr.declared, hname])

/-- The body of the function, if it is declared, declares no function of the language anew. -/
def Function.LeavesLanguage (f : Function) : Prop :=
  ∀ d, f = .declared d → AchievementLang.LeavesLanguage d.body

namespace FunctionTable

/-- The functions of the language are what their names denote, and calls do not change that. -/
structure Intact (t : FunctionTable) : Prop where
  language : ∀ {f : Function}, f.isBuiltin = true → Bindings.get? t f.name = some f
  bodies : ∀ {name : String} {f : Function}, Bindings.get? t name = some f → f.LeavesLanguage

theorem intact_initial : Intact initial where
  language {f} hf := by
    obtain h | ⟨d, hd⟩ := sound_initial.get? hf
    · exact h
    · cases isBuiltin_of_get?_initial hd
  bodies h := by
    rintro d rfl
    cases isBuiltin_of_get?_initial h

theorem Intact.set {t : FunctionTable} (h : t.Intact) {d : Declaration}
    (hbody : AchievementLang.LeavesLanguage d.body)
    (hname : ∀ {f : Function}, f.isBuiltin = true → d.name ≠ f.name) :
    Intact (Bindings.set t d.name (.declared d)) where
  language hf := by rw [Bindings.get?_set, if_neg (hname hf), h.language hf]
  bodies {name f} hf := by
    rw [Bindings.get?_set] at hf
    split at hf
    · cases hf
      rintro _ ⟨⟩
      exact hbody
    · exact h.bodies hf

end FunctionTable

end AchievementLang
