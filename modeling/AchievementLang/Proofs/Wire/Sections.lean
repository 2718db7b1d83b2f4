import AchievementLang.Wire.Leaderboard
import Mathlib.Data.List.Infix

/-!
# Where a definition is cut

The sections of a definition stand one behind the other, each led by its mark: two colons, its name
and a colon (`written`). Nothing is quoted, so a body could hold what looks like a mark. A text is
cut at a mark wherever one stands, from left to right. It is therefore cut into sections without
marks in their bodies (`Apart`), and wherever sections without marks in their bodies are written
down they are found again, where they stand (`cutSections_written`, `sections?_eq_some_iff`).
-/

namespace AchievementLang.Wire

/-- What leads to a section: two colons, its name and a colon. -/
def SectionKey.mark (key : SectionKey) : List Char := ':' :: ':' :: (key.name.toList ++ [':'])

@[simp] theorem SectionKey.length_mark (key : SectionKey) : key.mark.length = 6 := by
  cases key <;> rfl

/-- A section: its name and what stands behind its mark. -/
abbrev Entry := SectionKey × List Char

/-- Sections written one behind the other, each led by its mark. -/
def written (es : List Entry) : List Char := es.flatMap fun e => e.1.mark ++ e.2

@[simp] theorem written_nil : written [] = [] := rfl

@[simp] theorem written_cons (e : Entry) (es : List Entry) :
    written (e :: es) = e.1.mark ++ (e.2 ++ written es) := by
  simp [written]

@[simp] theorem written_append (es es' : List Entry) :
    written (es ++ es') = written es ++ written es' := by
  simp [written]

/-! ## Bodies without marks -/

/-- No mark starts within the body if `rest` stands behind it. -/
def Unmarked (body rest : List Char) : Prop :=
  ∀ back, back <:+ body → back ≠ [] → ∀ key : SectionKey, ¬ key.mark <+: back ++ rest

theorem unmarked_nil (rest : List Char) : Unmarked [] rest := by
  intro back hback hne
  exact absurd (List.suffix_nil.1 hback) hne

theorem unmarked_cons {c : Char} {body rest : List Char} :
    Unmarked (c :: body) rest ↔
      (∀ key : SectionKey, ¬ key.mark <+: c :: (body ++ rest)) ∧ Unmarked body rest := by
  constructor
  · intro h
    exact ⟨h (c :: body) (List.suffix_refl _) (by simp),
      fun back hback => h back (hback.trans (List.suffix_cons c body))⟩
  · rintro ⟨hc, h⟩ back hback hne
    obtain rfl | hback := List.suffix_cons_iff.1 hback
    · exact hc
    · exact h back hback hne

/-- No mark starts within the body of a section, whatever section stands behind it. -/
def Apart : List Entry → Prop
  | [] => True
  | e :: es => Unmarked e.2 (written es) ∧ Apart es

/-! ## Cutting -/

/-- The sections where they stand in a text of length `n` that ends with them. -/
def placed (n : Nat) : List Entry → List Section
  | [] => []
  | (key, body) :: es =>
    ⟨key, n - (written ((key, body) :: es)).length, n - (body ++ written es).length, body⟩ ::
      placed n es

theorem cutSections_mark (pos : Nat) (key : SectionKey) (tail : List Char) :
    cutSections pos (key.mark ++ tail) =
      ([], ⟨key, pos, pos + 6, (cutSections (pos + 6) tail).1⟩ ::
        (cutSections (pos + 6) tail).2) := by
  cases key <;> rfl

/-- A section that a text leads to, by its name and a colon. -/
theorem SectionKey.lead?_eq_some_iff {cs rest : List Char} {key : SectionKey} :
    lead? cs = some (key, rest) ↔ cs = key.name.toList ++ ':' :: rest := by
  constructor
  · intro h
    unfold lead? at h
    split at h <;> cases h <;> rfl
  · rintro rfl
    cases key <;> rfl

/-- A character with which no mark starts belongs to the body. -/
theorem cutSections_cons {c : Char} {rest : List Char}
    (h : ∀ key : SectionKey, ¬ key.mark <+: c :: rest) (pos : Nat) :
    cutSections pos (c :: rest) =
      (c :: (cutSections (pos + 1) rest).1, (cutSections (pos + 1) rest).2) := by
  have hnone : ∀ d e f tail, c :: rest = ':' :: ':' :: d :: e :: f :: ':' :: tail →
      SectionKey.lead? [d, e, f, ':'] = none := by
    intro d e f tail hmark
    rw [Option.eq_none_iff_forall_ne_some]
    rintro ⟨key, more⟩ hlead
    refine h key ⟨tail, ?_⟩
    rw [hmark]
    rw [SectionKey.lead?_eq_some_iff] at hlead
    cases key <;> simp [SectionKey.name] at hlead <;> simp [SectionKey.mark, SectionKey.name, hlead]
  rw [cutSections.eq_def]
  split
  next d e f tail hmark =>
    rw [hnone d e f tail hmark]
    cases hmark
    rfl
  next hcons =>
    cases hcons
    rfl
  next hnil => cases hnil

/-- A body without marks is kept as a whole. -/
theorem cutSections_unmarked {body rest : List Char} (h : Unmarked body rest) {pos : Nat}
    {ss : List Section} (hrest : cutSections (pos + body.length) rest = ([], ss)) :
    cutSections pos (body ++ rest) = (body, ss) := by
  induction body generalizing pos with
  | nil => exact hrest
  | cons c body ih =>
    obtain ⟨hc, hbody⟩ := unmarked_cons.1 h
    have hpos : pos + 1 + body.length = pos + (c :: body).length := by
      rw [List.length_cons]
      omega
    rw [List.cons_append, cutSections_cons hc, ih hbody (hpos ▸ hrest)]

/-- **Sections without marks in their bodies are found where they stand.** -/
theorem cutSections_written {es : List Entry} (h : Apart es) (pos : Nat) :
    cutSections pos (written es) = ([], placed (pos + (written es).length) es) := by
  induction es generalizing pos with
  | nil => rfl
  | cons e es ih =>
    obtain ⟨key, body⟩ := e
    have hlength : (written ((key, body) :: es)).length = 6 + (body ++ written es).length := by
      simp
    have hn : pos + 6 + body.length + (written es).length =
        pos + (written ((key, body) :: es)).length := by
      rw [hlength, List.length_append]
      omega
    have hbody := cutSections_unmarked h.1 (ih h.2 (pos + 6 + body.length))
    have hstart :
        pos + (written ((key, body) :: es)).length - (written ((key, body) :: es)).length = pos :=
      Nat.add_sub_cancel ..
    have hbodyStart : pos + (written ((key, body) :: es)).length - (body ++ written es).length =
        pos + 6 := by omega
    rw [placed, hstart, hbodyStart, written_cons, cutSections_mark, hbody, hn, ← written_cons]

/-- Every text is a body without marks with sections behind it that have none in their bodies. -/
theorem exists_append_written (cs : List Char) :
    ∃ body es, cs = body ++ written es ∧ Unmarked body (written es) ∧ Apart es := by
  induction h : cs.length using Nat.strong_induction_on generalizing cs with
  | h n ih =>
    by_cases hmark : ∃ (key : SectionKey) (tail : List Char), cs = key.mark ++ tail
    · obtain ⟨key, tail, rfl⟩ := hmark
      rw [List.length_append, key.length_mark] at h
      obtain ⟨body, es, rfl, hbody, hes⟩ := ih tail.length (by omega) tail rfl
      exact ⟨[], (key, body) :: es, by simp, unmarked_nil _, hbody, hes⟩
    · cases cs with
      | nil => exact ⟨[], [], rfl, unmarked_nil _, trivial⟩
      | cons c cs =>
        rw [List.length_cons] at h
        obtain ⟨body, es, rfl, hbody, hes⟩ := ih cs.length (by omega) cs rfl
        refine ⟨c :: body, es, rfl, unmarked_cons.2 ⟨?_, hbody⟩, hes⟩
        rintro key ⟨tail, htail⟩
        exact hmark ⟨key, tail, htail.symm⟩

/-! ## Definitions -/

/-- The text consists of the sections, without marks in their bodies. The colons in front of the
first one may be missing. -/
structure IsCut (cs : List Char) (es : List Entry) : Prop where
  text : cs = written es ∨ ':' :: ':' :: cs = written es
  apart : Apart es

theorem leadingSections?_of_isCut {cs : List Char} {e : Entry} {es : List Entry}
    (h : IsCut cs (e :: es)) : leadingSections? cs = some (placed cs.length (e :: es)) := by
  obtain ⟨key, body⟩ := e
  obtain rfl | hcolons := h.text
  · have hlead : SectionKey.lead? (written ((key, body) :: es)) = none := by
      simp [SectionKey.mark, SectionKey.lead?]
    rw [leadingSections?, hlead, cutSections_written h.apart, Nat.zero_add]
  · have hcs : cs = key.name.toList ++ ':' :: (body ++ written es) := by
      simpa [SectionKey.mark] using hcolons
    have hlength : cs.length = 4 + (body ++ written es).length := by
      have := congrArg List.length hcolons
      simp at this ⊢
      omega
    have hcut := cutSections_unmarked h.apart.1 (cutSections_written h.apart.2 (4 + body.length))
    rw [leadingSections?, SectionKey.lead?_eq_some_iff.2 hcs]
    dsimp only
    have hstart : cs.length - (written ((key, body) :: es)).length = 0 := by
      simp at hlength ⊢
      omega
    have hbodyStart : cs.length - (body ++ written es).length = 4 := by omega
    rw [hcut, placed, hstart, hbodyStart, hlength, List.length_append, Nat.add_assoc]

theorem exists_isCut_of_leadingSections? {cs : List Char} {s : Section} {ss : List Section}
    (h : leadingSections? cs = some (s :: ss)) : ∃ e es, IsCut cs (e :: es) := by
  unfold leadingSections? at h
  split at h
  next key rest hlead =>
    obtain ⟨body, es, rfl, hbody, hes⟩ := exists_append_written rest
    refine ⟨(key, body), es, .inr ?_, hbody, hes⟩
    rw [SectionKey.lead?_eq_some_iff.1 hlead]
    simp [SectionKey.mark]
  next =>
    obtain ⟨body, es, rfl, hbody, hes⟩ := exists_append_written cs
    rw [cutSections_unmarked hbody (cutSections_written hes _)] at h
    cases body with
    | nil =>
      cases es with
      | nil => cases h
      | cons e es => exact ⟨e, es, .inl rfl, hes⟩
    | cons c body => cases h

/-- **A text is cut into sections exactly if it consists of them**, the one of the start first. -/
theorem sections?_eq_some_iff {cs : List Char} {ss : List Section} :
    sections? cs = some ss ↔ ∃ es, IsCut cs es ∧ (es.map Prod.fst).head? = some .start ∧
      ss = placed cs.length es := by
  constructor
  · intro h
    unfold sections? at h
    split at h
    next s ss' hleading =>
      split at h
      next hstart =>
        cases h
        obtain ⟨e, es, hcut⟩ := exists_isCut_of_leadingSections? hleading
        have hplaced := (leadingSections?_of_isCut hcut).symm.trans hleading
        rw [Option.some.injEq] at hplaced
        refine ⟨e :: es, hcut, ?_, hplaced.symm⟩
        cases hplaced
        exact congrArg some hstart
      next => cases h
    next => cases h
  · rintro ⟨es, hcut, hstart, rfl⟩
    cases es with
    | nil => cases hstart
    | cons e es =>
      have he : e.1 = .start := Option.some.inj hstart
      simp only [sections?, leadingSections?_of_isCut hcut, placed, he, if_true]

/-- The text consists of the four sections, each there once, the one of the start first. -/
structure IsDefinition (cs : List Char) (es : List Entry) : Prop extends IsCut cs es where
  once : (es.map Prod.fst).Perm SectionKey.all
  first : (es.map Prod.fst).head? = some .start

/-! ## Finding sections -/

theorem map_key_placed (n : Nat) (es : List Entry) :
    (placed n es).map Section.key = es.map Prod.fst := by
  induction es with
  | nil => rfl
  | cons e es ih => simp [placed, ih]

theorem mem_of_mem_placed {n : Nat} {es : List Entry} {s : Section} (h : s ∈ placed n es) :
    (s.key, s.body) ∈ es := by
  induction es with
  | nil => cases h
  | cons e es ih =>
    rw [placed] at h
    obtain rfl | h := List.mem_cons.1 h
    · exact List.mem_cons_self
    · exact List.mem_cons_of_mem e (ih h)

/-- A section is found where it stands: what is written behind its mark ends the text. -/
theorem findSection?_placed {front rest : List Entry} {key : SectionKey} {body : List Char}
    (h : key ∉ front.map Prod.fst) (n : Nat) :
    findSection? key (placed n (front ++ (key, body) :: rest)) =
      some ⟨key, n - (written ((key, body) :: rest)).length, n - (body ++ written rest).length,
        body⟩ := by
  induction front with
  | nil => simp [placed, findSection?]
  | cons e front ih =>
    rw [List.map_cons, List.mem_cons, not_or] at h
    rw [List.cons_append, placed, findSection?, List.find?_cons_of_neg (by simpa using Ne.symm h.1)]
    exact ih h.2

theorem isSome_findSection? {key : SectionKey} {ss : List Section} (h : key ∈ ss.map Section.key) :
    (findSection? key ss).isSome = true := by
  obtain ⟨s, hs, rfl⟩ := List.mem_map.1 h
  exact List.find?_isSome.2 ⟨s, hs, beq_self_eq_true s.key⟩

theorem firstDuplicate?_eq_none {seen : List SectionKey} {ss : List Section}
    (h : (ss.map Section.key).Nodup) (hseen : ∀ s ∈ ss, s.key ∉ seen) :
    firstDuplicate? seen ss = none := by
  induction ss generalizing seen with
  | nil => rfl
  | cons s ss ih =>
    obtain ⟨hs, hseen⟩ := List.forall_mem_cons.1 hseen
    obtain ⟨hkey, h⟩ := List.nodup_cons.1 h
    rw [firstDuplicate?, if_neg hs]
    refine ih h fun s' hs' => ?_
    rw [List.mem_cons, not_or]
    exact ⟨fun e => hkey (e ▸ List.mem_map_of_mem hs'), hseen s' hs'⟩

/-- **Reading a definition comes to reading its sections**, in their order. -/
theorem readDefinition_of_isDefinition {text : String} {es : List Entry}
    (h : IsDefinition text.toList es) :
    readDefinition text =
      (checkSections (placed text.toList.length es) SectionKey.all).map fun _ =>
        { start := bodyOf (placed text.toList.length es) .start
          cancel := bodyOf (placed text.toList.length es) .cancel
          submit := bodyOf (placed text.toList.length es) .submit
          value := bodyOf (placed text.toList.length es) .value } := by
  have hsections : sections? text.toList = some (placed text.toList.length es) :=
    sections?_eq_some_iff.2 ⟨es, h.toIsCut, h.first, rfl⟩
  have hkeys := map_key_placed text.toList.length es
  have honce : firstDuplicate? [] (placed text.toList.length es) = none := by
    refine firstDuplicate?_eq_none ?_ (by simp)
    rw [hkeys]
    exact h.once.nodup_iff.2 (by decide)
  have hall : SectionKey.all.find?
      (fun key => (findSection? key (placed text.toList.length es)).isNone) = none := by
    refine List.find?_eq_none.2 fun key hkey => ?_
    have hsome : (findSection? key (placed text.toList.length es)).isSome = true := by
      refine isSome_findSection? ?_
      rw [hkeys]
      exact h.once.mem_iff.2 hkey
    rw [← Option.not_isSome, hsome]
    exact Bool.false_ne_true
  simp only [readDefinition, hsections, honce, hall]
  cases checkSections (placed text.toList.length es) SectionKey.all <;> rfl

end AchievementLang.Wire
