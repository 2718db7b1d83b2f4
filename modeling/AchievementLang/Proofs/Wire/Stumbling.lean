import AchievementLang.Proofs.Wire.Abreast
import AchievementLang.Proofs.Wire.Leaderboard

/-!
# How reading a text fails

A malformed text is reported with the position where reading stopped. Only a run of digits with one
in it that has no place value makes a reader fail without a position. What matters is whether
reading would have come to that digit at all: a text `Stumbles` if one stands before the place
where the text is read to, or reading stops, once every digit has been given a place value.

The main statement is `positioned_iff`: each of the four readers of texts succeeds, or fails with a
position in the text, exactly where the text does not stumble. For a definition that means one of
its sections, after those before it could be read (`DefinitionStumbles`).
-/

namespace AchievementLang.Wire

open Text

/-! ## Texts that stumble -/

variable {α : Type}

/-- Reading succeeds, or fails with a position in a text of the given length. -/
def Positioned (length : Nat) : Except ReadFailure α → Prop
  | .ok _ => True
  | .error (.malformed e) => e.position ≤ length
  | .error (.valueless _) => False

/-- Reading comes to a digit without a place value: one stands before the place where reading
stops, if it does, once every digit has a place value. -/
def Stumbles (read : String → Except ReadFailure α) (text : String) : Prop :=
  ∃ taken c rest, text.toList = taken ++ c :: rest ∧ lacksValue c = true ∧
    ∀ e, read (text.map withValue) = .error (.malformed e) → taken.length < e.position

/-- The same by the number of characters that are left. -/
theorem stumbles_readAt_iff (reader : List Char → Except Stop α) (cs : List Char) :
    Stumbles (fun text => readAt 0 reader text.toList) (String.ofList cs) ↔
      ∃ taken c rest, cs = taken ++ c :: rest ∧ lacksValue c = true ∧
        ∀ flaw left, reader (cs.map withValue) = .error (.malformed flaw left) →
          left ≤ rest.length := by
  have hplace : ∀ taken c rest, cs = taken ++ c :: rest →
      ((∀ e, readAt 0 reader (cs.map withValue) = .error (.malformed e) →
          taken.length < e.position) ↔
        ∀ flaw left, reader (cs.map withValue) = .error (.malformed flaw left) →
          left ≤ rest.length) := by
    intro taken c rest hcs
    have hlength : cs.length = taken.length + (rest.length + 1) := by
      rw [hcs, List.length_append, List.length_cons]
    unfold readAt
    generalize reader (cs.map withValue) = x
    match x with
    | .ok a => simp
    | .error (.valueless run) => simp [Stop.at]
    | .error (.malformed flaw left) =>
      simp only [Stop.at, List.length_map, Except.error.injEq, ReadFailure.malformed.injEq,
        Stop.malformed.injEq, Nat.zero_add, forall_eq', and_imp]
      constructor
      · rintro h flaw left rfl rfl
        omega
      · intro h
        have := h flaw left rfl rfl
        omega
  simp only [Stumbles, String.toList_map, String.toList_ofList]
  constructor
  · rintro ⟨taken, c, rest, hcs, hc, h⟩
    exact ⟨taken, c, rest, hcs, hc, (hplace taken c rest hcs).1 h⟩
  · rintro ⟨taken, c, rest, hcs, hc, h⟩
    exact ⟨taken, c, rest, hcs, hc, (hplace taken c rest hcs).2 h⟩

/-- What stands in front of the rest of a text has been taken. -/
theorem mem_of_append_eq_append {taken rest taken' rest' : List Char} {c : Char}
    (h : taken ++ rest = taken' ++ c :: rest') (hle : rest.length ≤ rest'.length) : c ∈ taken := by
  obtain ⟨more, -, hrest⟩ | ⟨more, rfl, hrest⟩ := List.append_eq_append_iff.1 h
  · have := congrArg List.length hrest
    rw [List.length_append, List.length_cons] at this
    omega
  · cases more with
    | nil =>
      have := congrArg List.length hrest
      rw [List.nil_append, List.length_cons] at this
      omega
    | cons d more =>
      obtain rfl : c = d := by simpa using congrArg List.head? hrest
      simp

/-- A reader in step fails without a position exactly where the text stumbles. -/
theorem positioned_readAt_iff {r : Reader α} (h : r.InStep) (flaw : Char → Flaw) {offset n : Nat}
    {cs : List Char} (hn : offset + cs.length ≤ n) :
    Positioned n (readAt offset (Reader.closing flaw r) cs) ↔
      ¬ Stumbles (fun text => readAt 0 (Reader.closing flaw r) text.toList)
        (String.ofList cs) := by
  have hposition : ∀ left, offset + (cs.length - left) ≤ n := fun left => by omega
  rw [stumbles_readAt_iff]
  have hcs := h cs
  unfold readAt Reader.closing
  generalize r cs = x at hcs
  generalize r (cs.map withValue) = y at hcs
  cases hcs with
  | @reads taken rest a hcs hv =>
    refine iff_of_true ?_ ?_
    · cases rest with
      | nil => trivial
      | cons d rest => exact hposition _
    · rintro ⟨taken', c, rest', hcs', hc, hleft⟩
      have hle : rest.length ≤ rest'.length := by
        cases rest with
        | nil => exact Nat.zero_le _
        | cons d rest => simpa using hleft _ _ rfl
      have hmem : c ∈ taken := mem_of_append_eq_append (hcs.symm.trans hcs') hle
      rw [hv c hmem] at hc
      cases hc
  | @stops taken rest flaw flaw' hcs hv =>
    refine iff_of_true (hposition _) ?_
    rintro ⟨taken', c, rest', hcs', hc, hleft⟩
    have hmem : c ∈ taken := mem_of_append_eq_append (hcs.symm.trans hcs') (hleft _ _ rfl)
    rw [hv c hmem] at hc
    cases hc
  | @stumbles taken rest c run _ hcs hc hy =>
    refine iff_of_false id (not_not_intro ⟨taken, c, rest, hcs, hc, ?_⟩)
    intro flaw' left e
    match y with
    | .ok (_, []) => cases e
    | .ok (_, d :: ds) =>
      cases e
      exact hy
    | .error (.malformed _ _) =>
      cases e
      exact hy
    | .error (.valueless _) => cases e

/-! ## Definitions that stumble -/

/-- The body of the section stumbles where it is read on its own. -/
def Section.Stumbles (s : Section) : Prop :=
  match s.key with
  | .value => Wire.Stumbles (fun text => readValue text) (String.ofList s.body)
  | _ => Wire.Stumbles readTrigger (String.ofList s.body)

/-- The sections with the given keys are read one after the other up to one that stumbles. -/
def SectionsStumble (ss : List Section) (keys : List SectionKey) : Prop :=
  ∃ before key after s, keys = before ++ key :: after ∧ checkSections ss before = .ok () ∧
    findSection? key ss = some s ∧ s.Stumbles

/-- The text has the sections of a definition, and one of them stumbles after those before it
could be read. -/
def DefinitionStumbles (text : String) : Prop :=
  ∃ ss, sections? text.toList = some ss ∧ firstDuplicate? [] ss = none ∧
    (∀ key ∈ SectionKey.all, (findSection? key ss).isSome = true) ∧
    SectionsStumble ss SectionKey.all

/-- The section lies in a text of the given length. -/
def Section.Within (n : Nat) (s : Section) : Prop :=
  s.start ≤ n ∧ s.bodyStart + s.body.length ≤ n

theorem placed_within {n : Nat} {es : List Entry} (h : (written es).length ≤ n + 2) :
    ∀ s ∈ placed n es, s.Within n := by
  induction es with
  | nil => simp [placed]
  | cons e es ih =>
    have hlength : (written (e :: es)).length = 6 + (e.2 ++ written es).length := by simp
    have hbody : (e.2 ++ written es).length = e.2.length + (written es).length :=
      List.length_append
    refine List.forall_mem_cons.2 ⟨⟨Nat.sub_le _ _, ?_⟩, ih (by omega)⟩
    dsimp only
    omega

theorem sections?_within {cs : List Char} {ss : List Section} (h : sections? cs = some ss) :
    ∀ s ∈ ss, s.Within cs.length := by
  obtain ⟨es, hcut, -, rfl⟩ := sections?_eq_some_iff.1 h
  refine placed_within ?_
  obtain rfl | hcolons := hcut.text
  · exact Nat.le_add_right _ 2
  · exact (congrArg List.length hcolons).ge

theorem firstDuplicate?_mem {seen : List SectionKey} {ss : List Section} {s : Section}
    (h : firstDuplicate? seen ss = some s) : s ∈ ss := by
  induction ss generalizing seen with
  | nil => cases h
  | cons t ss ih =>
    rw [firstDuplicate?] at h
    split at h
    · cases h
      exact List.mem_cons_self
    · exact List.mem_cons_of_mem t (ih h)

/-! ## The readers of texts -/

theorem positioned_readTrigger_iff {offset n : Nat} {cs : List Char} (hn : offset + cs.length ≤ n) :
    Positioned n (readAt offset Reader.trigger cs) ↔
      ¬ Stumbles readTrigger (String.ofList cs) := by
  unfold readTrigger
  rw [Reader.trigger_eq]
  exact positioned_readAt_iff (Reader.InStep.group.andThen fun core =>
    (Reader.InStep.led (by decide) .group).andThen fun alternates => .done _) _ hn

theorem positioned_readValue_iff {offset n : Nat} {cs : List Char} (hn : offset + cs.length ≤ n) :
    Positioned n (readAt offset Reader.value cs) ↔
      ¬ Stumbles (fun text => readValue text) (String.ofList cs) := by
  have hsum : Reader.InStep (Reader.joined '_' Reader.term) := .joined (by decide) .term
  unfold readValue
  rw [Reader.value_eq]
  exact positioned_readAt_iff (hsum.andThen fun first =>
    (Reader.InStep.led (by decide) hsum).andThen fun more => .done _) _ hn

theorem positioned_readField_iff (text : String) :
    Positioned text.length (readField text) ↔ ¬ Stumbles readField text := by
  have hn : 0 + text.toList.length ≤ text.length := by rw [String.length_toList, Nat.zero_add]
  have h := positioned_readAt_iff Reader.InStep.field .afterOperand hn
  rwa [← Reader.wholeField_eq, String.ofList_toList] at h

theorem positioned_map_iff {β : Type} (f : α → β) (n : Nat) (x : Except ReadFailure α) :
    Positioned n (x.map f) ↔ Positioned n x := by
  match x with
  | .ok a => rfl
  | .error (.malformed e) => rfl
  | .error (.valueless run) => rfl

theorem positioned_check_iff {s : Section} {n : Nat} (h : s.Within n) :
    Positioned n s.check ↔ ¬ s.Stumbles := by
  obtain ⟨key, start, bodyStart, body⟩ := s
  cases key with
  | value => exact (positioned_map_iff _ n _).trans (positioned_readValue_iff h.2)
  | start | cancel | submit =>
    exact (positioned_map_iff _ n _).trans (positioned_readTrigger_iff h.2)

/-- Where sections come to stumble: at the first one, or behind it if it can be read. -/
theorem sectionsStumble_cons {ss : List Section} {key : SectionKey} {keys : List SectionKey} :
    SectionsStumble ss (key :: keys) ↔ (∃ s, findSection? key ss = some s ∧ s.Stumbles) ∨
      checkSections ss [key] = .ok () ∧ SectionsStumble ss keys := by
  have hcheck : ∀ keys, checkSections ss (key :: keys) = .ok () ↔
      checkSections ss [key] = .ok () ∧ checkSections ss keys = .ok () := by
    intro keys
    simp only [checkSections_eq_ok_iff, List.forall_mem_cons, List.mem_singleton, forall_eq]
  constructor
  · rintro ⟨_ | ⟨key', before⟩, key'', after, s, hkeys, hbefore, hs, hstumbles⟩
    · cases hkeys
      exact .inl ⟨s, hs, hstumbles⟩
    · cases hkeys
      exact .inr ⟨((hcheck before).1 hbefore).1,
        before, key'', after, s, rfl, ((hcheck before).1 hbefore).2, hs, hstumbles⟩
  · rintro (⟨s, hs, hstumbles⟩ | ⟨hkey, before, key', after, s, rfl, hbefore, hs, hstumbles⟩)
    · exact ⟨[], key, keys, s, rfl, rfl, hs, hstumbles⟩
    · exact ⟨key :: before, key', after, s, rfl, (hcheck before).2 ⟨hkey, hbefore⟩, hs, hstumbles⟩

theorem positioned_checkSections_iff {ss : List Section} {n : Nat} (h : ∀ s ∈ ss, s.Within n)
    (keys : List SectionKey) :
    Positioned n (checkSections ss keys) ↔ ¬ SectionsStumble ss keys := by
  induction keys with
  | nil => simp [SectionsStumble, checkSections, Positioned]
  | cons key keys ih =>
    rw [sectionsStumble_cons]
    simp only [checkSections]
    cases hkey : findSection? key ss with
    | none => simpa using ih
    | some s =>
      have hs := positioned_check_iff (h s (List.mem_of_find?_eq_some hkey))
      cases hcheck : s.check with
      | ok =>
        rw [hcheck] at hs
        have hnot : ¬ s.Stumbles := hs.1 trivial
        simpa [hcheck, hnot] using ih
      | error e =>
        rw [hcheck] at hs
        simpa [hcheck, Positioned] using hs

theorem positioned_readDefinition_iff (text : String) :
    Positioned text.length (readDefinition text) ↔ ¬ DefinitionStumbles text := by
  unfold readDefinition DefinitionStumbles
  cases hss : sections? text.toList with
  | none => simp [Positioned]
  | some ss =>
    have hwithin : ∀ s ∈ ss, s.Within text.length := by
      rw [← String.length_toList]
      exact sections?_within hss
    simp only [Option.some.injEq, exists_eq_left']
    cases honce : firstDuplicate? [] ss with
    | some s => simpa [Positioned] using (hwithin s (firstDuplicate?_mem honce)).1
    | none =>
      cases hall : SectionKey.all.find? (fun key => (findSection? key ss).isNone) with
      | some key =>
        have hmissing := List.find?_some hall
        have hkey := List.mem_of_find?_eq_some hall
        refine iff_of_true (Nat.le_refl _) fun ⟨_, hfound, _⟩ => ?_
        rw [← Option.not_isSome, hfound key hkey] at hmissing
        cases hmissing
      | none =>
        have hfound : ∀ key ∈ SectionKey.all, (findSection? key ss).isSome = true := by
          intro key hkey
          have hsome := List.find?_eq_none.1 hall key hkey
          simpa only [← Option.not_isSome, Bool.not_eq_true', Bool.not_eq_false] using hsome
        rw [and_iff_right rfl, and_iff_right hfound,
          ← positioned_checkSections_iff hwithin SectionKey.all]
        match checkSections ss SectionKey.all with
        | .ok () => rfl
        | .error (.malformed e) => rfl
        | .error (.valueless run) => rfl

/-- **A text is read, or reading fails with a position in it, exactly where it does not stumble.**
-/
theorem positioned_iff (text : String) :
    (Positioned text.length (readTrigger text) ↔ ¬ Stumbles readTrigger text) ∧
    (Positioned text.length (readField text) ↔ ¬ Stumbles readField text) ∧
    (Positioned text.length (readValue text) ↔ ¬ Stumbles (fun text => readValue text) text) ∧
    (Positioned text.length (readDefinition text) ↔ ¬ DefinitionStumbles text) := by
  have hn : 0 + text.toList.length ≤ text.length := by rw [String.length_toList, Nat.zero_add]
  have htrigger := positioned_readTrigger_iff hn
  have hvalue := positioned_readValue_iff hn
  rw [String.ofList_toList] at htrigger hvalue
  exact ⟨htrigger, positioned_readField_iff text, hvalue, positioned_readDefinition_iff text⟩

/-- A superscript passes for the digit of a literal. -/
theorem not_positioned_superscript : ¬ Positioned "²=1".length (readTrigger "²=1") := by
  have h : readTrigger "²=1" = .error (.valueless "²") := by decide +kernel
  rw [h]
  exact id

end AchievementLang.Wire
