import AchievementLang.Proofs.Wire.Field

/-!
# Triggers read back

A row is well formed if its fields are and it compares, or if it accumulates and says nothing
else. A trigger all of whose rows are well formed is spelled by its wire form
(`Trigger.WellFormed.spelled_wire`), so reading the wire form gives the trigger
(`readTrigger_wire`): the core and every alternate, empty groups included.

What has a spelling is well formed (`Trigger.Spelled.wellFormed`). So whatever spelling a trigger
has been read from, it is read again from its wire form (`readTrigger_wire_of_readTrigger`).
-/

namespace AchievementLang.Wire

/-! ## Well-formed triggers -/

/-- The row compares well-formed fields, or only feeds a well-formed field to the next row. -/
def Requirement.WellFormed (r : Requirement) : Prop :=
  r.left.WellFormed ∧
    (r.operator.isSome = true ∧ r.right.WellFormed ∨
      r.operator = none ∧ r.flag.isAccumulator = true ∧ r.hits = 0 ∧ r.right = {})

/-- Every row is well formed. -/
def Group.WellFormed (g : Group) : Prop := ∀ r ∈ g, r.WellFormed

/-- Every row of every group is well formed. -/
def Trigger.WellFormed (t : Trigger) : Prop :=
  Group.WellFormed t.core ∧ ∀ g ∈ t.alternates, Group.WellFormed g

instance : DecidablePred Requirement.WellFormed := fun _ => inferInstanceAs (Decidable (_ ∧ _))

instance : DecidablePred Group.WellFormed := fun g =>
  inferInstanceAs (Decidable (∀ r ∈ g, r.WellFormed))

instance : DecidablePred Trigger.WellFormed := fun _ => inferInstanceAs (Decidable (_ ∧ _))

namespace Requirement

/-- The characters of a row on the wire. -/
theorem toList_wire (r : Requirement) :
    r.wire.toList = (match r.flag.letter? with | some c => [c, ':'] | none => []) ++
      (r.left.wire.toList ++
        ((match r.operator with
          | some op => (relationToken op).toList ++ r.right.wire.toList
          | none => []) ++
        if 0 < r.hits then '.' :: (Nat.toDigits 10 r.hits ++ ['.']) else [])) := by
  rw [wire]
  cases r.flag.letter? <;> cases r.operator <;> by_cases h : 0 < r.hits <;> simp [h]

end Requirement

/-! ## The wire form is a spelling -/

theorem spelled_flagLetter (f : Flag) :
    f.Spelled (match f.letter? with | some c => [c, ':'] | none => []) := by
  cases f with
  | none => exact .missing
  | _ => exact .letter rfl

/-- A hit count is written between points; none is written for zero. -/
theorem hitsSpelled_toDigits (n : Nat) :
    HitsSpelled (if 0 < n then '.' :: (Nat.toDigits 10 n ++ ['.']) else []) n := by
  split
  · exact .pointed ⟨Nat.toDigits_ne_nil, Text.decimalValue?_toDigits n⟩
  next h =>
    obtain rfl : n = 0 := by omega
    exact .missing

theorem Requirement.WellFormed.spelled_wire {r : Requirement} (h : r.WellFormed) :
    r.Spelled r.wire.toList := by
  obtain ⟨left, operator, right, n, f⟩ := r
  rw [Requirement.toList_wire]
  obtain ⟨hl, ⟨hop, hright⟩ | ⟨hop, hacc, hn, hright⟩⟩ := h
  · obtain ⟨op, rfl⟩ := Option.isSome_iff_exists.1 hop
    have hspelled : Requirement.Spelled _ ⟨left, some op, right, n, f⟩ :=
      .compared (spelled_flagLetter f) hl.spelled_wire hright.spelled_wire (hitsSpelled_toDigits n)
    simpa using hspelled
  · obtain rfl : operator = none := hop
    obtain rfl : n = 0 := hn
    obtain rfl : right = {} := hright
    simpa using Requirement.Spelled.accumulated (spelled_flagLetter f) hacc hl.spelled_wire

theorem Group.WellFormed.spelled_wire {g : Group} (h : g.WellFormed) :
    g.Spelled g.wire.toList := by
  cases g with
  | nil => exact .inl ⟨rfl, rfl⟩
  | cons r rs =>
    have hmore := Reader.LedBy.flatMap '_' id fun r hr =>
      (h r (List.mem_cons_of_mem _ hr)).spelled_wire
    refine .inr ⟨_, _, r, rs, toList_intercalate_cons '_' r.wire (rs.map Requirement.wire), rfl,
      (h r List.mem_cons_self).spelled_wire, ?_⟩
    rw [List.map_id] at hmore
    rwa [List.flatMap_map]

theorem Trigger.WellFormed.spelled_wire {t : Trigger} (h : t.WellFormed) :
    t.Spelled t.wire.toList := by
  have halts := Reader.LedBy.flatMap 'S' id fun g hg =>
    (h.2 g hg).spelled_wire
  rw [List.map_id] at halts
  exact ⟨_, _, by simp [Trigger.wire, String.toList_join, List.flatMap_map], h.1.spelled_wire,
    halts⟩

/-- **Reading a trigger undoes writing it.** -/
theorem Reader.trigger_wire {t : Trigger} (ht : t.WellFormed) : trigger t.wire.toList = .ok t :=
  trigger_eq_ok_iff.2 ht.spelled_wire

/-- **A well-formed trigger is what its wire form reads as.** -/
theorem readTrigger_wire (t : Trigger) (h : t.WellFormed) : readTrigger t.wire = .ok t := by
  rw [readTrigger, readAt, Reader.trigger_wire h]

/-- Letters of flags, of groups and of sizes side by side: an empty core, an alternate that reads
the bit with the letter `S`, and one that is empty. -/
theorem readTrigger_wire_letters :
    let t : Trigger := ⟨[], [[{ left := .previous (.bit 6) ⟨0x5, by decide⟩, flag := .subSource },
      { left := .memory (.bit 6) ⟨0xabcdef01, by decide⟩, operator := some .le,
        right := .literal .zero, hits := 10, flag := .resetIf }], []]⟩
    t.WellFormed ∧ readTrigger t.wire = .ok t :=
  ⟨by decide, readTrigger_wire _ (by decide)⟩

/-! ## What has a spelling is well formed -/

theorem Requirement.Spelled.wellFormed {t : List Char} {r : Requirement} (h : r.Spelled t) :
    r.WellFormed := by
  cases h with
  | compared hf hl hr hn => exact ⟨hl.wellFormed, .inl ⟨rfl, hr.wellFormed⟩⟩
  | accumulated hf hacc hl => exact ⟨hl.wellFormed, .inr ⟨rfl, hacc, rfl, rfl⟩⟩

theorem Group.Spelled.wellFormed {t : List Char} {g : Group} (h : g.Spelled t) :
    g.WellFormed := by
  obtain ⟨-, rfl⟩ | ⟨u, v, r, more, -, rfl, hr, hmore⟩ := h
  · simp [Group.WellFormed]
  · intro x hx
    obtain rfl | hx := List.mem_cons.1 hx
    · exact hr.wellFormed
    · obtain ⟨w, hw⟩ := hmore.exists_text hx
      exact hw.wellFormed

theorem Trigger.Spelled.wellFormed {cs : List Char} {t : Trigger} (h : t.Spelled cs) :
    t.WellFormed := by
  obtain ⟨u, v, -, hcore, halts⟩ := h
  refine ⟨hcore.wellFormed, fun g hg => ?_⟩
  obtain ⟨w, hw⟩ := halts.exists_text hg
  exact hw.wellFormed

/-! ## Reading again -/

theorem readTrigger_eq_ok_iff {s : String} {t : Trigger} :
    readTrigger s = .ok t ↔ Reader.trigger s.toList = .ok t := by
  rw [readTrigger, readAt]
  cases Reader.trigger s.toList <;> simp

/-- **A trigger that has been read can be written and read again**: the groups are the same, and so
is the text if they are written once more. -/
theorem readTrigger_wire_of_readTrigger (s : String) (t : Trigger) (h : readTrigger s = .ok t) :
    readTrigger t.wire = .ok t ∧ (readTrigger t.wire).map Trigger.wire = .ok t.wire := by
  have hread : readTrigger t.wire = .ok t := by
    rw [readTrigger_eq_ok_iff] at h ⊢
    exact Reader.trigger_wire (Reader.spelled_of_trigger h).wellFormed
  exact ⟨hread, by rw [hread]; rfl⟩

/-- A size that is missing, a digit of another script, an accumulator that compares, a hit count of
zero, an empty alternate, and a size letter that is not ASCII. -/
theorem readTrigger_wire_of_readTrigger_spellings :
    let s := "0x1f=٣_A:0xh3=1(0)_B:0xX1SSC:d0xſ2!=007(12)"
    let t : Trigger :=
      ⟨[{ left := .memory .word ⟨0x1f, by decide⟩, operator := some .eq,
          right := .literal ⟨3, by decide⟩ },
        { left := .memory .byte ⟨3, by decide⟩, operator := some .eq,
          right := .literal ⟨1, by decide⟩, flag := .addSource },
        { left := .memory .dword ⟨1, by decide⟩, flag := .subSource }],
       [[], [{ left := .previous (.bit 6) ⟨2, by decide⟩, operator := some .ne,
               right := .literal ⟨7, by decide⟩, hits := 12, flag := .addHits }]]⟩
    readTrigger s = .ok t ∧ readTrigger t.wire = .ok t ∧
      (readTrigger t.wire).map Trigger.wire = .ok t.wire := by
  intro s t
  have h : readTrigger s = .ok t := by decide +kernel
  exact ⟨h, readTrigger_wire_of_readTrigger s t h⟩

end AchievementLang.Wire
