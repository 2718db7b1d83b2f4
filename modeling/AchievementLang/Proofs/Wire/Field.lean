import AchievementLang.Proofs.Wire.Spelling

/-!
# Fields read back

A literal, or a reference to memory of some size, is spelled by its wire form
(`Field.WellFormed.spelled_wire`), and no other field has a spelling. So it is read back from its
wire form whatever follows it, as long as the rest is `Delimited`: it is empty or starts with a
character that no numeral goes on with (`Reader.field_wire`).
-/

namespace AchievementLang.Wire

/-! ## Fields that have a wire form of their own -/

/-- The field is a literal without size, or refers to memory of some size. -/
def Field.WellFormed (f : Field) : Prop :=
  match f.kind, f.size with
  | .literal, none | .memory, some _ | .previous, some _ => True
  | _, _ => False

namespace Field

instance : DecidablePred WellFormed
  | ⟨.literal, none, _⟩ | ⟨.memory, some _, _⟩ | ⟨.previous, some _, _⟩ => isTrue trivial
  | ⟨.literal, some _, _⟩ | ⟨.memory, none, _⟩ | ⟨.previous, none, _⟩ | ⟨.none, none, _⟩
  | ⟨.none, some _, _⟩ => isFalse id

/-- There are three shapes of well-formed fields. -/
theorem WellFormed.cases {f : Field} (h : f.WellFormed) :
    (∃ w, f = literal w) ∨ (∃ s a, f = memory s a) ∨ ∃ s a, f = previous s a := by
  obtain ⟨kind, size, value⟩ := f
  cases kind <;> cases size <;> simp only [WellFormed] at h
  · exact .inr (.inl ⟨_, _, rfl⟩)
  · exact .inr (.inr ⟨_, _, rfl⟩)
  · exact .inl ⟨_, rfl⟩

theorem toList_wire_literal (w : Word) : (literal w).wire.toList = Nat.toDigits 10 w := by
  simp [wire, literal]

theorem toList_wire_memory (s : Size) (a : Word) :
    (memory s a).wire.toList = '0' :: 'x' :: s.letter :: Text.hexPadded 6 a := by
  simp [wire, memory]

theorem toList_wire_previous (s : Size) (a : Word) :
    (previous s a).wire.toList = 'd' :: '0' :: 'x' :: s.letter :: Text.hexPadded 6 a := by
  simp [wire, previous]

/-- A field starts with a digit or with the mark of a previous value. -/
theorem WellFormed.wire_eq_cons {f : Field} (h : f.WellFormed) :
    ∃ c cs, f.wire.toList = c :: cs ∧ (Text.isDigit c = true ∨ c = 'd') := by
  obtain ⟨w, rfl⟩ | ⟨s, a, rfl⟩ | ⟨s, a, rfl⟩ := h.cases
  · rw [toList_wire_literal]
    obtain ⟨c, cs, e⟩ := List.exists_cons_of_ne_nil (Nat.toDigits_ne_nil (n := w) (b := 10))
    exact ⟨c, cs, e, .inl (Text.isDigit_of_mem_toDigits (n := w) (by simp [e]))⟩
  · exact ⟨'0', _, toList_wire_memory s a, .inl (by decide)⟩
  · exact ⟨'d', _, toList_wire_previous s a, .inr rfl⟩

theorem letter_ne_colon (s : Size) : s.letter ≠ ':' := by
  cases s with
  | bit i => revert i; decide
  | _ => decide

/-- A field has no colon. -/
theorem WellFormed.colon_not_mem_wire {f : Field} (h : f.WellFormed) : ':' ∉ f.wire.toList := by
  have hex (a : Word) : ':' ∉ Text.hexPadded 6 a := fun hc =>
    absurd (Text.isHexDigit_of_mem_hexPadded hc) (by decide)
  obtain ⟨w, rfl⟩ | ⟨s, a, rfl⟩ | ⟨s, a, rfl⟩ := h.cases
  · rw [toList_wire_literal]
    exact fun hc => absurd (Text.isDigit_of_mem_toDigits hc) (by decide)
  · simp [toList_wire_memory, hex a, (letter_ne_colon s).symm]
  · simp [toList_wire_previous, hex a, (letter_ne_colon s).symm]

/-! ## The wire form is a spelling -/

theorem sizeOf?_letter (s : Size) : Reader.sizeOf? s.letter = some s := by
  cases s with
  | bit i => revert i; decide +kernel
  | _ => rfl

theorem spelled_hexPadded (width : Nat) (a : Word) : a.Spelled (Text.hexPadded width a) :=
  ⟨Text.hexPadded_ne_nil width a, fun _ => Text.isHexDigit_of_mem_hexPadded,
    Text.hexValue_hexPadded width a⟩

theorem WellFormed.spelled_wire {f : Field} (h : f.WellFormed) : f.Spelled f.wire.toList := by
  obtain ⟨w, rfl⟩ | ⟨s, a, rfl⟩ | ⟨s, a, rfl⟩ := h.cases
  · rw [toList_wire_literal]
    exact .literal ⟨Nat.toDigits_ne_nil, Text.decimalValue?_toDigits w⟩ w.isLt
  · rw [toList_wire_memory]
    exact .memory (.mark (sizeOf?_letter s)) (spelled_hexPadded 6 a)
  · rw [toList_wire_previous]
    exact .previous (.mark (sizeOf?_letter s)) (spelled_hexPadded 6 a)

/-- What has a spelling is well formed. -/
theorem Spelled.wellFormed {t : List Char} {f : Field} (h : f.Spelled t) : f.WellFormed := by
  cases h <;> trivial

end Field

theorem Delimited.fieldEnd {rest : List Char} (h : Delimited rest) : Reader.FieldEnd rest :=
  fun c hc => ⟨h.isDigit_head c hc, h.isHexDigit_head c hc, by
    rintro rfl
    exact absurd (h 'x' hc) (by decide)⟩

/-- **A well-formed field is read back from the front of a text**, and what follows it is left. -/
theorem Reader.field_wire {f : Field} {rest : List Char} (hf : f.WellFormed)
    (h : Delimited rest) : field (f.wire.toList ++ rest) = .ok (f, rest) :=
  field_spelled hf.spelled_wire h.fieldEnd

end AchievementLang.Wire
