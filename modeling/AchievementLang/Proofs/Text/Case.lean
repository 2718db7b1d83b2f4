import AchievementLang.Proofs.Text.Numeral
import AchievementLang.Text.Case

/-!
# Upper case

A character keeps its case where no run of the case map holds it (`image?_eq_none`). Of the ASCII
characters the first run holds the small letters, and no other run or expansion holds any, so their
upper case is the usual one (`upperChar_of_ascii`).
-/

namespace AchievementLang.Text

theorem image?_eq_none {runs : CaseRuns} {n : Nat} (h : ∀ run ∈ runs, n < run.1 ∨ run.2.1 < n) :
    runs.image? n = none := by
  induction runs with
  | nil => rfl
  | cons run runs ih =>
    obtain ⟨hrun, hruns⟩ := List.forall_mem_cons.1 h
    obtain ⟨lo, hi, step, distance⟩ := run
    dsimp only at hrun
    rw [CaseRuns.image?, if_neg (by omega)]
    exact ih hruns

theorem upperChar_of_ascii {c : Char} (h : c.toNat < 128) : upperChar c = [c.toUpper] := by
  have hruns : ∀ run ∈ upperRuns.tail, 128 ≤ run.1 := by decide +kernel
  have hexpansions : ∀ e ∈ upperExpansions, 128 ≤ e.1 := by decide +kernel
  have hlookup : upperExpansions.lookup c.toNat = none := by
    rw [List.lookup_eq_none_iff]
    intro e he
    have := hexpansions e he
    rw [bne_iff_ne]
    omega
  have htail : CaseRuns.image? upperRuns.tail c.toNat = none :=
    image?_eq_none fun run hrun => .inl (h.trans_le (hruns run hrun))
  have hsmall : upperRuns = (0x61, 0x7a, 1, -32) :: upperRuns.tail := rfl
  rw [upperChar, hlookup, hsmall, CaseRuns.image?, htail]
  refine forall_ascii (p := fun c => [Char.ofNat ((if 0x61 ≤ c.toNat ∧ c.toNat ≤ 0x7a ∧
    (c.toNat - 0x61) % 1 = 0 then some (c.toNat + (-32 : Int)).toNat else none).getD c.toNat)] =
    [c.toUpper]) ?_ h
  decide +kernel

end AchievementLang.Text
