import AchievementLang.Proofs.Eval.Run

/-!
# The accessors of bits

What a call of `bit` stands for is evaluated from the global scope, so it matters that the accessors
of bits are those of the language. They are in every state of a run (`State.BitsKept`), unless a
script declares one of them anew, at the top or in the body of a function (`LeavesBits`).
-/

namespace AchievementLang

/-! ## What scripts declare -/

namespace Expr

mutual

/-- The names of the functions that a statement declares, in the bodies of functions too. -/
def declared : Expr → List String
  | .declare name _ _ body _ => name :: declaredIn body
  | _ => []

/-- The names of the functions that statements declare, in the bodies of functions too. -/
def declaredIn : List Expr → List String
  | [] => []
  | e :: rest => e.declared ++ declaredIn rest

end

end Expr

/-- No statement declares the accessor of a bit anew. -/
def LeavesBits (body : List Expr) : Prop :=
  ∀ i : Fin 8, (Wire.Size.bit i).name ∉ Expr.declaredIn body

theorem LeavesBits.tail {e : Expr} {rest : List Expr} (h : LeavesBits (e :: rest)) :
    LeavesBits rest := fun i hi => h i (by simp [Expr.declaredIn, hi])

theorem LeavesBits.body {name : String} {params : List String} {defaults : Bindings Expr}
    {body rest : List Expr} {loc : Option Loc}
    (h : LeavesBits (.declare name params defaults body loc :: rest)) : LeavesBits body :=
  fun i hi => h i (by simp [Expr.declaredIn, Expr.declared, hi])

theorem LeavesBits.name_ne {name : String} {params : List String} {defaults : Bindings Expr}
    {body rest : List Expr} {loc : Option Loc}
    (h : LeavesBits (.declare name params defaults body loc :: rest)) (i : Fin 8) :
    name ≠ (Wire.Size.bit i).name :=
  fun hi => h i (by simp [Expr.declaredIn, Expr.declared, hi])

/-- The body of the function, if it is declared, does not declare the accessor of a bit anew. -/
def Function.LeavesBits (f : Function) : Prop :=
  ∀ d, f = .declared d → AchievementLang.LeavesBits d.body

namespace State

/-- The accessors of bits are those of the language, and calls do not change that. -/
structure BitsKept (s : State) : Prop where
  sound : s.functions.Sound
  kept : ¬ s.functions.BitDeclared
  bodies : ∀ {name f}, s.functions.get? name = some f → f.LeavesBits

namespace BitsKept

variable {s s' : State}

theorem of_functions (h : BitsKept s) (hs : s'.functions = s.functions) : BitsKept s' := by
  obtain ⟨sound, kept, bodies⟩ := h
  rw [← hs] at sound kept
  exact ⟨sound, kept, fun hf => bodies (hs ▸ hf)⟩

theorem get?_bit (h : BitsKept s) (i : Fin 8) :
    s.functions.get? (Wire.Size.bit i).name = some (.accessor (.bit i)) := by
  obtain hf | ⟨d, hd⟩ := h.sound.get? (f := .accessor (.bit i)) rfl
  · exact hf
  · exact absurd ⟨i, d, hd⟩ h.kept

theorem declare (h : BitsKept s) {d : Declaration} (hbody : LeavesBits d.body)
    (hname : ∀ i, d.name ≠ (Wire.Size.bit i).name) : BitsKept (Eval.declare d s) where
  sound := h.sound.set d
  kept := by
    rintro ⟨i, d', hd⟩
    rw [Eval.declare, Bindings.get?_set, if_neg (hname i)] at hd
    exact h.kept ⟨i, d', hd⟩
  bodies {name f} hf := by
    rw [Eval.declare, Bindings.get?_set] at hf
    split at hf
    · cases hf
      rintro _ ⟨⟩
      exact hbody
    · exact h.bodies hf

theorem initial : BitsKept {} := by
  refine ⟨FunctionTable.sound_initial, ?_, fun hf d hd => ?_⟩
  · rintro ⟨i, d, hd⟩
    cases FunctionTable.isBuiltin_of_get?_initial hd
  · subst hd
    cases FunctionTable.isBuiltin_of_get?_initial hf

end BitsKept

end State

end AchievementLang
