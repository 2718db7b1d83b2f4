import AchievementLang.Proofs.Compile.Rows
import AchievementLang.Proofs.Eval.Run
import AchievementLang.Proofs.Wire.Leaderboard

/-!
# Leaderboards read back

What a script declares as a leaderboard can be read back from the wire as it was written, except for
its value: that can be read exactly if no multiplier in it is written with an exponent
(`Script.readDefinition_declared_iff`).
-/

namespace AchievementLang

/-! ## Definitions -/

namespace Compile

variable {t : FunctionTable} {e : Expr} {text : String}

/-- The text of a condition that has been compiled can be read, and has no two colons. -/
theorem reads_conditionText (h : conditionText t e = .ok text) :
    Wire.IsBody text.toList ∧ ∃ u, Wire.Reader.trigger text.toList = .ok u := by
  unfold conditionText at h
  cases hrows : conditionRows t false e with
  | error f =>
    rw [hrows] at h
    cases h
  | ok rows =>
    rw [hrows] at h
    cases h
    have hwell := (isEmitted_conditionRows false e hrows).wellFormed
    have hread : Wire.Reader.trigger (Wire.Group.wire rows).toList = .ok ⟨rows, []⟩ := by
      simpa [Wire.Trigger.wire] using Wire.Reader.trigger_wire (t := ⟨rows, []⟩) ⟨hwell, by simp⟩
    exact ⟨Wire.isBody_of_trigger hread, _, hread⟩

/-- The sums that the texts of alternatives have been written from. -/
theorem exists_sums {es : List Expr} {texts : List String}
    (h : List.Forall₂ (fun e text => valueText t e = .ok text) es texts) :
    ∃ v : Wire.Value, List.Forall₂ (fun e s => valueTerms t e = .ok s) es v ∧
      v.mapM Wire.Sum.wire? = some texts ∧ ∀ s ∈ v, s ≠ [] ∧ ∀ x ∈ s, x.WellFormed := by
  induction h with
  | nil => exact ⟨[], .nil, rfl, by simp⟩
  | cons he _ ih =>
    obtain ⟨v, hterms, hwire, hv⟩ := ih
    obtain ⟨s, hs, hswire⟩ := valueText_eq_ok he
    refine ⟨s :: v, .cons hs hterms, by simp [hswire, hwire], fun s' hs' => ?_⟩
    obtain rfl | hs' := List.mem_cons.1 hs'
    · exact wellFormed_valueTerms hs
    · exact hv s' hs'

end Compile

namespace Wire.Definition

variable {t : FunctionTable} {d : Definition}

/-- The value of the definition as it was compiled, before it was written. -/
def HasValue (t : FunctionTable) (d : Definition) (v : Value) : Prop :=
  v.wire? = some d.value ∧ ∃ es, List.Forall₂ (fun e s => Compile.valueTerms t e = .ok s) es v

/-- A definition that has been compiled can be read back exactly if the multipliers of its value are
plain. -/
theorem IsCompiled.exists_value (h : d.IsCompiled t) :
    ∃ v : Value, d.HasValue t v ∧ (readDefinition d.wire = .ok d ↔ v.IsPlain) := by
  obtain ⟨⟨start, -, hstart⟩, ⟨cancel, -, hcancel⟩, ⟨submit, -, hsubmit⟩,
    es, texts, hne, htexts, hvalue⟩ := h
  obtain ⟨hstart, hreadStart⟩ := Compile.reads_conditionText hstart
  obtain ⟨hcancel, hreadCancel⟩ := Compile.reads_conditionText hcancel
  obtain ⟨hsubmit, hreadSubmit⟩ := Compile.reads_conditionText hsubmit
  obtain ⟨v, hterms, hmap, hv⟩ := Compile.exists_sums (htexts.imp fun _ _ h => h.2)
  have hwire : v.wire? = some d.value := by rw [Value.wire?, hmap, hvalue, Option.map_some]
  have hwell : v.WellFormed := by
    refine ⟨fun e => hne ?_, hv⟩
    rw [e] at hterms
    exact List.forall₂_nil_right_iff.1 hterms
  refine ⟨v, ⟨hwire, es, hterms⟩, ?_⟩
  have hbodies : d.HasBodies := ⟨hstart, hcancel, hsubmit, Value.isBody_wire hwell hwire⟩
  rw [readDefinition_wire_iff hbodies, ← Reader.exists_value_wire_iff hwell hwire]
  exact ⟨fun h => h.2.2.2, fun h => ⟨hreadStart, hreadCancel, hreadSubmit, h⟩⟩

end Wire.Definition

/-! ## Scripts -/

namespace Script

/-- **A leaderboard that a script declares can be read back** as it was written, exactly if no
multiplier of its value is written with an exponent. -/
theorem readDefinition_declared_iff (limit : Int) (text : String) (c : Compilation)
    (h : compileText limit text = .ok c) :
    ∀ l ∈ c.leaderboards, ∃ (t : FunctionTable) (v : Wire.Value), l.definition.HasValue t v ∧
      (Wire.readDefinition l.definition.wire = .ok l.definition ↔ v.IsPlain) := by
  intro l hl
  unfold compileText at h
  split at h
  · cases h
  next s _ =>
    obtain ⟨t, -, hcompiled⟩ := (compile_eq_ok h).2.1 l hl
    obtain ⟨v, hv⟩ := hcompiled.exists_value
    exact ⟨t, v, hv⟩

/-- A leaderboard of the larger of a multiple and a quotient. -/
def quotientScript : String :=
  "leaderboard(\"t\", \"d\", byte(1) == 1, always_false(), always_true(),
    max_of(byte(2) * 3, word(3) / 4))"

/-- The quotient has a multiplier with a point. -/
theorem readDefinition_declared_quotientScript :
    ∃ c, compileText defaultCallDepth quotientScript = .ok c ∧
      c.leaderboards.map (·.definition.value) = ["0xH000002*3$0x 000003*0.25"] ∧
      ∀ l ∈ c.leaderboards, ∃ (t : FunctionTable) (v : Wire.Value), l.definition.HasValue t v ∧
        (Wire.readDefinition l.definition.wire = .ok l.definition ↔ v.IsPlain) := by
  have hchars : quotientScript.toList = _ := String.toList_ofList
  have h : (compileText defaultCallDepth quotientScript).toOption.map
      (fun c => c.leaderboards.map (·.definition.value)) =
      some ["0xH000002*3$0x 000003*0.25"] := by
    rw [compileText, parse, hchars]
    decide +kernel
  cases hc : compileText defaultCallDepth quotientScript with
  | error f =>
    rw [hc] at h
    cases h
  | ok c =>
    rw [hc] at h
    exact ⟨c, rfl, Option.some.inj h, readDefinition_declared_iff _ _ c hc⟩

/-- A leaderboard of a quotient whose multiplier is written with an exponent. -/
def exponentScript : String :=
  "leaderboard(\"t\", \"d\", always_true(), always_false(), always_true(), byte(1) / 100000)"

/-- It compiles, and cannot be read back. -/
theorem not_readDefinition_declared_exponentScript :
    ∃ c, compileText defaultCallDepth exponentScript = .ok c ∧
      ∃ l ∈ c.leaderboards, Wire.readDefinition l.definition.wire ≠ .ok l.definition := by
  have hchars : exponentScript.toList = _ := String.toList_ofList
  have h : (compileText defaultCallDepth exponentScript).toOption.map
      (fun c => c.leaderboards.map fun l => (Wire.readDefinition l.definition.wire).toOption) =
      some [none] := by
    rw [compileText, parse, hchars]
    decide +kernel
  cases hc : compileText defaultCallDepth exponentScript with
  | error f =>
    rw [hc] at h
    cases h
  | ok c =>
    rw [hc] at h
    obtain ⟨l, hl, hread⟩ : ∃ l ∈ c.leaderboards,
        (Wire.readDefinition l.definition.wire).toOption = none := by
      refine List.mem_map.1 ?_
      have hlist : c.leaderboards.map (fun l => (Wire.readDefinition l.definition.wire).toOption) =
          [none] := Option.some.inj h
      rw [hlist]
      exact List.mem_cons_self
    refine ⟨c, rfl, l, hl, fun e => ?_⟩
    rw [e] at hread
    cases hread

end Script

end AchievementLang
