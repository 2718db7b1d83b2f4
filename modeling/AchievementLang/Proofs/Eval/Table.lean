import AchievementLang.Proofs.Eval.Reduced

/-!
# Tables of functions

A script may make the name of any function denote one that it declares, and no name is ever
forgotten. So the name of a function of the language denotes that function, or else a declared one
(`FunctionTable.Sound.get?`).
-/

namespace AchievementLang.FunctionTable

/-- Functions are found by their names, and the names of the functions of the language are bound. -/
structure Sound (t : FunctionTable) : Prop where
  named : ∀ {name : String} {f : Function}, Bindings.get? t name = some f → f.name = name
  bound : ∀ {f : Function}, f.isBuiltin = true → (Bindings.get? t f.name).isSome = true

theorem get?_map_name (fs : List Function) (name : String) :
    Bindings.get? (fs.map fun f => (f.name, f)) name = fs.find? fun f => f.name = name := by
  induction fs with
  | nil => rfl
  | cons f rest ih =>
    rw [List.map_cons, Bindings.get?, List.find?_cons, ih]
    by_cases h : f.name = name <;> simp [h]

theorem sound_initial : Sound initial where
  named h := by
    rw [initial, get?_map_name] at h
    simpa using List.find?_some h
  bound {f} hf := by
    rw [initial, get?_map_name, List.find?_isSome]
    exact ⟨f, Function.mem_all hf, by simp⟩

theorem isBuiltin_of_get?_initial {name : String} {f : Function}
    (h : Bindings.get? initial name = some f) : f.isBuiltin = true := by
  have all : Function.all.all (·.isBuiltin) = true := by decide
  rw [initial, get?_map_name] at h
  exact List.all_eq_true.1 all f (List.mem_of_find?_eq_some h)

variable {t : FunctionTable}

theorem Sound.set (h : t.Sound) (d : Declaration) :
    Sound (Bindings.set t d.name (.declared d)) where
  named hf := by
    rw [Bindings.get?_set] at hf
    split at hf
    next hname =>
      cases hf
      exact hname
    next => exact h.named hf
  bound hf := by
    rw [Bindings.get?_set]
    split
    · rfl
    · exact h.bound hf

/-- The name of a function of the language denotes it, unless a script has declared another. -/
theorem Sound.get? (h : t.Sound) {f : Function} (hf : f.isBuiltin = true) :
    Bindings.get? t f.name = some f ∨ ∃ d, Bindings.get? t f.name = some (.declared d) := by
  obtain ⟨g, hg⟩ := Option.isSome_iff_exists.1 (h.bound hf)
  have hname := h.named hg
  cases hbuiltin : g.isBuiltin with
  | true => exact .inl (by rw [hg, Function.name_injective hbuiltin hf hname])
  | false =>
    cases g with
    | declared d => exact .inr ⟨d, hg⟩
    | _ => cases hbuiltin

end AchievementLang.FunctionTable
