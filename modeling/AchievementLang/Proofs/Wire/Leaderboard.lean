import AchievementLang.Proofs.Wire.Sections
import AchievementLang.Proofs.Wire.Trigger
import AchievementLang.Proofs.Wire.Value

/-!
# Definitions of leaderboards read back

Sections are found by the two colons and the lead between them, so a definition is cut where it was
joined if no section has two colons side by side or one at its end (`IsBody`). The texts of
triggers and values are such bodies. The main statement is `readDefinition_wire_iff`: a definition
is read back exactly if each of its sections can be read on its own.
-/

namespace AchievementLang.Wire

/-! ## Bodies -/

/-- Behind every colon stands another character, which is not a colon. -/
def IsBody : List Char → Prop
  | [] => True
  | [c] => c ≠ ':'
  | c :: d :: rest => (c = ':' → d ≠ ':') ∧ IsBody (d :: rest)

theorem isBody_cons {c : Char} {cs : List Char} (hc : c ≠ ':') (hcs : IsBody cs) :
    IsBody (c :: cs) := by
  cases cs with
  | nil => exact hc
  | cons d cs => exact ⟨fun e => absurd e hc, hcs⟩

theorem isBody_of_not_mem {cs : List Char} (h : ':' ∉ cs) : IsBody cs := by
  induction cs with
  | nil => trivial
  | cons c cs ih =>
    rw [List.mem_cons, not_or] at h
    exact isBody_cons (Ne.symm h.1) (ih h.2)

theorem IsBody.append {cs ds : List Char} (hcs : IsBody cs) (hds : IsBody ds) :
    IsBody (cs ++ ds) := by
  induction cs with
  | nil => exact hds
  | cons c cs ih =>
    cases cs with
    | nil => exact isBody_cons hcs hds
    | cons d cs => exact ⟨hcs.1, ih hcs.2⟩

theorem isBody_ledText (sep : Char) {ts : List String} (hsep : sep ≠ ':')
    (hts : ∀ t ∈ ts, IsBody t.toList) : IsBody (Reader.ledText sep ts) := by
  induction ts with
  | nil => trivial
  | cons t ts ih =>
    rw [Reader.ledText_cons]
    exact isBody_cons hsep ((hts t (by simp)).append (ih fun u hu => hts u (by simp [hu])))

theorem isBody_intercalate (sep : Char) {ts : List String} (hsep : sep ≠ ':')
    (hts : ∀ t ∈ ts, IsBody t.toList) :
    IsBody ((String.singleton sep).intercalate ts).toList := by
  cases ts with
  | nil => trivial
  | cons t ts =>
    rw [toList_intercalate_cons, ← Reader.ledText]
    exact (hts t (by simp)).append (isBody_ledText sep hsep fun u hu => hts u (by simp [hu]))

theorem Reader.LedBy.isBody {α : Type} {P : List Char → α → Prop} {sep : Char} {t : List Char}
    {as : List α} (hsep : sep ≠ ':') (hP : ∀ t a, P t a → IsBody t) (h : LedBy sep P t as) :
    IsBody t := by
  obtain ⟨ts, rfl, h⟩ := h
  induction h with
  | nil => trivial
  | cons ht _ ih => exact isBody_cons hsep ((hP _ _ ht).append ih)

theorem Field.Spelled.colon_not_mem {t : List Char} {f : Field} (h : f.Spelled t) : ':' ∉ t := by
  obtain ⟨c, cs, rfl, hc, hcs⟩ := h.eq_cons
  rw [List.mem_cons, not_or]
  refine ⟨?_, hcs⟩
  rintro rfl
  revert hc
  decide

theorem HitsSpelled.colon_not_mem {t : List Char} {n : Nat} (h : HitsSpelled t n) : ':' ∉ t := by
  have hdigits {u : List Char} (hu : IsSpelling u n) : ':' ∉ u := fun hc =>
    absurd (Text.IsNumeral.isDigit ⟨hu.1, Text.isSome_of_decimalValue? hu.2⟩ ':' hc) (by decide)
  cases h with
  | missing => simp
  | pointed hn | enclosed hn => simp [hdigits hn]

/-- The colon behind the letter of a flag is the only one of a row, and a field stands behind it. -/
theorem Flag.Spelled.isBody {t u cs : List Char} {f : Flag} {left : Field} (hf : f.Spelled t)
    (hl : left.Spelled u) (h : ':' ∉ cs) : IsBody (t ++ (u ++ cs)) := by
  have hrest : ':' ∉ u ++ cs := by simp [hl.colon_not_mem, h]
  cases hf with
  | missing => exact isBody_of_not_mem hrest
  | @letter c _ hletter =>
    have hc : c ≠ ':' := by
      rintro rfl
      revert hletter
      cases f <;> simp [Flag.letter?]
    obtain ⟨d, ds, rfl, -⟩ := hl.eq_cons
    have hd : d ≠ ':' := by
      rintro rfl
      exact hl.colon_not_mem List.mem_cons_self
    exact isBody_cons hc ⟨fun _ => hd, isBody_of_not_mem hrest⟩

theorem Requirement.Spelled.isBody {t : List Char} {r : Requirement} (h : r.Spelled t) :
    IsBody t := by
  cases h with
  | @compared t u v w f left right op n hf hl hr hn =>
    have htoken : ':' ∉ (relationToken op).toList := by cases op <;> decide
    exact hf.isBody hl (by simp [htoken, hr.colon_not_mem, hn.colon_not_mem])
  | accumulated hf hacc hl => simpa using hf.isBody hl List.not_mem_nil

theorem Group.Spelled.isBody {t : List Char} {g : Group} (h : g.Spelled t) : IsBody t := by
  obtain ⟨rfl, -⟩ | ⟨u, v, r, more, rfl, -, hu, hv⟩ := h
  · trivial
  · exact hu.isBody.append (hv.isBody (by decide) fun _ _ => Requirement.Spelled.isBody)

theorem Trigger.Spelled.isBody {cs : List Char} {t : Trigger} (h : t.Spelled cs) : IsBody cs := by
  obtain ⟨u, v, rfl, hcore, halts⟩ := h
  exact hcore.isBody.append (halts.isBody (by decide) fun _ _ => Group.Spelled.isBody)

/-- **A text that is read as a trigger is a body.** -/
theorem isBody_of_trigger {cs : List Char} {t : Trigger} (h : Reader.trigger cs = .ok t) :
    IsBody cs :=
  (Reader.spelled_of_trigger h).isBody

theorem Term.colon_not_mem_wire {t : Term} {text : String} (ht : t.WellFormed)
    (h : t.wire? = some text) : ':' ∉ text.toList := by
  obtain ⟨field, x⟩ := t
  unfold Term.wire? at h
  split at h
  · obtain ⟨number, hnumber, rfl⟩ := Option.map_eq_some_iff.1 h
    simp [colon_not_mem_numberText hnumber]
  next f hfield =>
    have hf := (ht f hfield).colon_not_mem_wire
    split at h
    · injection h with h
      rwa [← h]
    · obtain ⟨number, hnumber, rfl⟩ := Option.map_eq_some_iff.1 h
      simp [hf, colon_not_mem_numberText hnumber]

theorem exists_of_mem_mapM {α : Type} {f : α → Option String} {as : List α} {ts : List String}
    (h : as.mapM f = some ts) {t : String} (ht : t ∈ ts) : ∃ a ∈ as, f a = some t := by
  have all : List.Forall₂ (fun a t => a ∈ as ∧ f a = some t) as ts :=
    Reader.forall₂_of_mapM h fun a ha t hat => ⟨ha, hat⟩
  obtain ⟨i, hi, rfl⟩ := List.getElem_of_mem ht
  have hia : i < as.length := all.length_eq ▸ hi
  exact ⟨_, (List.forall₂_iff_get.1 all).2 i hia hi⟩

theorem Value.isBody_wire {v : Value} {text : String} (hv : v.WellFormed)
    (h : v.wire? = some text) : IsBody text.toList := by
  obtain ⟨sums, hsums, rfl⟩ := Option.map_eq_some_iff.1 h
  refine isBody_intercalate '$' (by decide) fun sum hsum => ?_
  obtain ⟨s, hs, e⟩ := exists_of_mem_mapM hsums hsum
  obtain ⟨terms, hterms, rfl⟩ := Option.map_eq_some_iff.1 e
  refine isBody_intercalate '_' (by decide) fun term hterm => ?_
  obtain ⟨t, ht, e⟩ := exists_of_mem_mapM hterms hterm
  exact isBody_of_not_mem (Term.colon_not_mem_wire ((hv.2 s hs).2 t ht) e)

/-- No mark starts in a body: there are no two colons side by side in it. -/
theorem IsBody.unmarked {body : List Char} (h : IsBody body) (rest : List Char) :
    Unmarked body rest := by
  induction body with
  | nil => exact unmarked_nil rest
  | cons c body ih =>
    rw [unmarked_cons]
    cases body with
    | nil =>
      refine ⟨?_, unmarked_nil rest⟩
      rintro key ⟨tail, e⟩
      exact h (List.cons.inj e).1.symm
    | cons d body =>
      refine ⟨?_, ih h.2⟩
      rintro key ⟨tail, e⟩
      obtain ⟨hc, e⟩ := List.cons.inj e
      exact h.1 hc.symm (List.cons.inj e).1.symm

/-! ## Definitions -/

namespace Definition

/-- No section of the definition looks as if another one started in it. -/
structure HasBodies (d : Definition) : Prop where
  start : IsBody d.start.toList
  cancel : IsBody d.cancel.toList
  submit : IsBody d.submit.toList
  value : IsBody d.value.toList

/-- The sections of the definition, where they stand on the wire. -/
def sections (d : Definition) : List Section :=
  let cancel := 4 + d.start.toList.length
  let submit := cancel + 6 + d.cancel.toList.length
  let value := submit + 6 + d.submit.toList.length
  [⟨.start, 0, 4, d.start.toList⟩, ⟨.cancel, cancel, cancel + 6, d.cancel.toList⟩,
    ⟨.submit, submit, submit + 6, d.submit.toList⟩, ⟨.value, value, value + 6, d.value.toList⟩]

/-- The sections of the definition as they are written. -/
def entries (d : Definition) : List Entry :=
  [(.start, d.start.toList), (.cancel, d.cancel.toList), (.submit, d.submit.toList),
    (.value, d.value.toList)]

theorem isDefinition_wire {d : Definition} (h : d.HasBodies) :
    IsDefinition d.wire.toList d.entries where
  text := .inr (by simp [wire, entries, SectionKey.mark, SectionKey.name])
  apart :=
    ⟨h.start.unmarked _, h.cancel.unmarked _, h.submit.unmarked _, h.value.unmarked _, trivial⟩
  once := .refl _
  first := rfl

theorem placed_entries (d : Definition) : placed d.wire.toList.length d.entries = d.sections := by
  have hlength : d.wire.toList.length = 22 + d.start.toList.length + d.cancel.toList.length +
      d.submit.toList.length + d.value.toList.length := by
    simp [wire]
    omega
  simp only [placed, entries, sections, written_cons, written_nil, List.length_append,
    SectionKey.length_mark, List.length_nil, hlength]
  simp
  omega

end Definition

/-- Reading a definition on the wire checks its sections and gives it back. -/
theorem readDefinition_wire {d : Definition} (h : d.HasBodies) :
    readDefinition d.wire = (checkSections d.sections SectionKey.all).map fun _ => d := by
  have hbodies : ⟨bodyOf d.sections .start, bodyOf d.sections .cancel, bodyOf d.sections .submit,
      bodyOf d.sections .value⟩ = d := by
    simp [bodyOf, findSection?, Definition.sections]
  rw [readDefinition_of_isDefinition (Definition.isDefinition_wire h), d.placed_entries, hbodies]

theorem readAt_map_eq_ok_iff {α : Type} (offset : Nat) (reader : List Char → Except Stop α)
    (cs : List Char) :
    ((readAt offset reader cs).map fun _ => ()) = .ok () ↔ ∃ a, reader cs = .ok a := by
  unfold readAt
  cases reader cs <;> simp [Except.map]

theorem checkSections_eq_ok_iff (ss : List Section) (keys : List SectionKey) :
    checkSections ss keys = .ok () ↔
      ∀ key ∈ keys, ∀ s ∈ findSection? key ss, s.check = .ok () := by
  induction keys with
  | nil => simp [checkSections]
  | cons key keys ih =>
    rw [checkSections, List.forall_mem_cons, ← ih]
    cases findSection? key ss with
    | none => simp
    | some s =>
      cases hs : s.check with
      | error e => simp [hs]
      | ok => simp [hs]

/-- **A definition is read back exactly if each of its sections can be read on its own.** -/
theorem readDefinition_wire_iff {d : Definition} (h : d.HasBodies) :
    readDefinition d.wire = .ok d ↔
      (∃ t, Reader.trigger d.start.toList = .ok t) ∧
      (∃ t, Reader.trigger d.cancel.toList = .ok t) ∧
      (∃ t, Reader.trigger d.submit.toList = .ok t) ∧
      ∃ v, Reader.value d.value.toList = .ok v := by
  have hsections : checkSections d.sections SectionKey.all = .ok () ↔
      (∃ t, Reader.trigger d.start.toList = .ok t) ∧
      (∃ t, Reader.trigger d.cancel.toList = .ok t) ∧
      (∃ t, Reader.trigger d.submit.toList = .ok t) ∧
      ∃ v, Reader.value d.value.toList = .ok v := by
    rw [checkSections_eq_ok_iff]
    simp [SectionKey.all, Definition.sections, findSection?, Section.check, readAt_map_eq_ok_iff]
  rw [readDefinition_wire h, ← hsections]
  cases checkSections d.sections SectionKey.all <;> simp [Except.map]

end AchievementLang.Wire
