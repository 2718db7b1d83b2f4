import AchievementLang.CommandLine.Compare
import Mathlib.Data.List.Basic
import Mathlib.Data.List.Pairwise

/-!
# Who is matched with whom

Achievements on the left are matched one after the other, each with one on the right that is still
free (`unmatched`): with the first that has its number, or else with the first that has its title.
Where numbers are given once on either side (`DistinctIds`), two achievements that share one are
meant for each other. They are matched unless an earlier achievement has taken the right one for its
title (`TakenByTitle`), and only then (`both_mem_matchAll_iff`).
-/

namespace AchievementLang.CommandLine

variable {before after left right : List Achievement} {a b c : Achievement}

/-! ## What is still free -/

/-- The achievements on the right that are still free once those on the left have been matched. -/
def unmatched : List Achievement → List Achievement → List Achievement
  | [], right => right
  | a :: left, right =>
    match match? a right with
    | none => unmatched left right
    | some b => unmatched left (right.erase b)

theorem unmatched_append (before after right : List Achievement) :
    unmatched (before ++ after) right = unmatched after (unmatched before right) := by
  induction before generalizing right with
  | nil => rfl
  | cons a before ih =>
    rw [List.cons_append, unmatched, unmatched]
    split <;> exact ih _

theorem unmatched_sublist (left right : List Achievement) :
    (unmatched left right).Sublist right := by
  induction left generalizing right with
  | nil => exact .refl _
  | cons a left ih =>
    rw [unmatched]
    split
    · exact ih right
    · exact (ih _).trans List.erase_sublist

/-- How a member of a list stands in it: at the start, or behind the start. -/
theorem exists_split_cons {P : List Achievement → Prop} :
    (∃ before after, c :: left = before ++ a :: after ∧ P before) ↔
      (a = c ∧ P []) ∨ ∃ before after, left = before ++ a :: after ∧ P (c :: before) := by
  constructor
  · rintro ⟨_ | ⟨d, before⟩, after, hsplit, h⟩
    · cases hsplit
      exact .inl ⟨rfl, h⟩
    · cases hsplit
      exact .inr ⟨before, after, rfl, h⟩
  · rintro (⟨rfl, h⟩ | ⟨before, after, rfl, h⟩)
    · exact ⟨[], left, rfl, h⟩
    · exact ⟨c :: before, after, rfl, h⟩

/-- Two achievements are matched if the right one is what the left one finds among those that are
free when its turn comes. -/
theorem both_mem_matchAll_iff_exists : .both a b ∈ matchAll left right ↔
    ∃ before after, left = before ++ a :: after ∧ match? a (unmatched before right) = some b := by
  induction left generalizing right with
  | nil => simp [matchAll]
  | cons c left ih =>
    rw [exists_split_cons (P := fun before => match? a (unmatched before right) = some b), matchAll]
    simp only [unmatched]
    cases hc : match? c right with
    | none =>
      have hfirst : ¬ (a = c ∧ match? a right = some b) := by
        rintro ⟨rfl, h⟩
        rw [hc] at h
        cases h
      simp [ih, hfirst]
    | some d =>
      have hfirst : (a = c ∧ match? a right = some b) ↔ a = c ∧ b = d := by
        refine and_congr_right ?_
        rintro rfl
        rw [hc, Option.some.injEq, eq_comm]
      simp [ih, hfirst]

/-- An achievement that is no longer free has been taken. -/
theorem exists_of_not_mem_unmatched (hb : b ∈ right) (h : b ∉ unmatched before right) :
    ∃ front back c, before = front ++ c :: back ∧ match? c (unmatched front right) = some b := by
  induction before generalizing right with
  | nil => exact absurd hb h
  | cons c before ih =>
    rw [unmatched] at h
    cases hc : match? c right with
    | none =>
      rw [hc] at h
      obtain ⟨front, back, d, rfl, hd⟩ := ih hb h
      refine ⟨c :: front, back, d, rfl, ?_⟩
      rwa [unmatched, hc]
    | some d =>
      rw [hc] at h
      by_cases hbd : b = d
      · exact ⟨[], before, c, rfl, hbd ▸ hc⟩
      · obtain ⟨front, back, e, rfl, he⟩ := ih ((List.mem_erase_of_ne hbd).2 hb) h
        refine ⟨c :: front, back, e, rfl, ?_⟩
        rwa [unmatched, hc]

/-! ## Numbers that are given once -/

/-- No number other than zero is given twice. -/
def DistinctIds (as : List Achievement) : Prop := as.Pairwise fun a b => a.id ≠ 0 → a.id ≠ b.id

namespace DistinctIds

variable {as : List Achievement}

theorem eq_of_id (h : DistinctIds as) (ha : a ∈ as) (hb : b ∈ as) (hid : a.id ≠ 0)
    (hsame : a.id = b.id) : a = b := by
  have hsymm : Std.Symm fun a b : Achievement => a.id ≠ 0 → a.id ≠ b.id :=
    ⟨fun x y hxy hy e => hxy (e ▸ hy) e.symm⟩
  by_contra hne
  exact List.Pairwise.forall h ha hb hne hid hsame

theorem not_mem_erase (h : DistinctIds as) (hb : b ∈ as) (hid : b.id ≠ 0) : b ∉ as.erase b := by
  obtain ⟨front, back, hfront, rfl, herase⟩ := List.exists_erase_eq hb
  rw [herase, List.mem_append, not_or]
  refine ⟨hfront, fun hback => ?_⟩
  exact List.rel_of_pairwise_cons (List.pairwise_append.1 h).2.1 hback hid rfl

theorem unmatched (h : DistinctIds as) (left : List Achievement) :
    DistinctIds (CommandLine.unmatched left as) :=
  List.Pairwise.sublist (unmatched_sublist left as) h

/-- An achievement with a number finds the one that shares it. -/
theorem match?_eq_some (h : DistinctIds as) (hb : b ∈ as) (hid : a.id ≠ 0) (hsame : a.id = b.id) :
    match? a as = some b := by
  have hfind : as.find? (fun c => a.id ≠ 0 ∧ a.id = c.id) = some b := by
    cases hc : as.find? (fun c => a.id ≠ 0 ∧ a.id = c.id) with
    | none => exact absurd hsame (by simpa [hid] using List.find?_eq_none.1 hc b hb)
    | some c =>
      have hmatch : a.id ≠ 0 ∧ a.id = c.id := by simpa using List.find?_some hc
      have hbc := h.eq_of_id hb (List.mem_of_find?_eq_some hc) (hsame ▸ hid)
        (hsame.symm.trans hmatch.2)
      rw [hbc]
  rw [match?, hfind, Option.some_or]

end DistinctIds

/-! ## Titles -/

/-- One of the achievements takes the right one for its title: none that is free has its number,
and the right one is the first free one that has its title. -/
def TakenByTitle (before right : List Achievement) (b : Achievement) : Prop :=
  ∃ front back c, before = front ++ c :: back ∧
    (∀ d ∈ unmatched front right, c.id ≠ 0 → c.id ≠ d.id) ∧
    (unmatched front right).find? (fun d => c.title = d.title) = some b

/-- What is not found by its number is found by its title. -/
theorem match?_eq_some_iff_of_ne {candidates : List Achievement} (h : c.id ≠ 0 → c.id ≠ b.id) :
    match? c candidates = some b ↔ (∀ d ∈ candidates, c.id ≠ 0 → c.id ≠ d.id) ∧
      candidates.find? (fun d => c.title = d.title) = some b := by
  rw [match?]
  cases hd : candidates.find? (fun d => c.id ≠ 0 ∧ c.id = d.id) with
  | none =>
    have hnone : ∀ d ∈ candidates, c.id ≠ 0 → c.id ≠ d.id := by
      simpa using List.find?_eq_none.1 hd
    rw [Option.none_or, and_iff_right hnone]
  | some d =>
    have hmatch : c.id ≠ 0 ∧ c.id = d.id := by simpa using List.find?_some hd
    have hnot : ¬ ∀ d ∈ candidates, c.id ≠ 0 → c.id ≠ d.id := fun hall =>
      hall d (List.mem_of_find?_eq_some hd) hmatch.1 hmatch.2
    have hne : d ≠ b := by
      rintro rfl
      exact h hmatch.1 hmatch.2
    simp [hnot, hne]

/-- What has been found is free. -/
theorem mem_of_match?_eq_some {candidates : List Achievement} (h : match? a candidates = some b) :
    b ∈ candidates := by
  rw [match?, Option.or_eq_some_iff] at h
  obtain h | ⟨-, h⟩ := h <;> exact List.mem_of_find?_eq_some h

/-- An achievement stays free as long as it is not taken for its title, if none of those before has
its number. -/
theorem mem_unmatched_iff (hright : DistinctIds right) (hb : b ∈ right) (hid : b.id ≠ 0)
    (hbefore : ∀ c ∈ before, c.id ≠ 0 → c.id ≠ b.id) :
    b ∈ unmatched before right ↔ ¬ TakenByTitle before right b := by
  constructor
  · rintro hmem ⟨front, back, c, rfl, hnone, hfind⟩
    have hc := (match?_eq_some_iff_of_ne (hbefore c (by simp))).2 ⟨hnone, hfind⟩
    rw [unmatched_append, unmatched, hc] at hmem
    exact (hright.unmatched front).not_mem_erase (mem_of_match?_eq_some hc) hid
      ((unmatched_sublist back _).subset hmem)
  · intro hnot
    by_contra hmem
    obtain ⟨front, back, c, rfl, hc⟩ := exists_of_not_mem_unmatched hb hmem
    exact hnot ⟨front, back, c, rfl, (match?_eq_some_iff_of_ne (hbefore c (by simp))).1 hc⟩

/-! ## Achievements that share a number -/

/-- The lines for a finding are printed. -/
theorem findingLines_infix_compareLines {format : Wire.NumberFormat} {leftName rightName : String}
    {f : Finding} (h : f ∈ matchAll left right) :
    findingLines format leftName rightName f <:+:
      compareLines format leftName rightName left right := by
  obtain ⟨front, back, hsplit⟩ := List.append_of_mem h
  rw [compareLines, hsplit, List.flatMap_append, List.flatMap_cons, ← List.append_assoc]
  exact ⟨_, _, rfl⟩

/-- **Achievements that share a number are compared with each other**, whatever titles there are and
in whatever order they stand, exactly if no earlier achievement on the left has taken the right one
for its title. -/
theorem both_mem_matchAll_iff (format : Wire.NumberFormat) (leftName rightName : String)
    (before after right : List Achievement) (a b : Achievement)
    (hleft : DistinctIds (before ++ a :: after)) (hright : DistinctIds right) (hb : b ∈ right)
    (hid : a.id ≠ 0) (hsame : a.id = b.id) :
    (.both a b ∈ matchAll (before ++ a :: after) right ∧
      diffLines format a b <:+:
        compareLines format leftName rightName (before ++ a :: after) right) ↔
      ¬ TakenByTitle before right b := by
  obtain ⟨-, hlater, hearlier⟩ := List.pairwise_append.1 hleft
  have hbefore : ∀ c ∈ before, c.id ≠ 0 → c.id ≠ a.id := fun c hc =>
    hearlier c hc a List.mem_cons_self
  rw [← mem_unmatched_iff hright hb (hsame ▸ hid) (hsame ▸ hbefore)]
  constructor
  · rintro ⟨hboth, -⟩
    obtain ⟨front, back, hsplit, hmatch⟩ := both_mem_matchAll_iff_exists.1 hboth
    -- `a` stands at one place only, so those in front of it are the ones before
    have hnotBefore : a ∉ before := fun ha => hbefore a ha hid rfl
    have hnotAfter : a ∉ after := fun ha => List.rel_of_pairwise_cons hlater ha hid rfl
    obtain ⟨rfl, -⟩ := (List.append_cons_inj_of_notMem hnotBefore hnotAfter).1 hsplit
    exact mem_of_match?_eq_some hmatch
  · intro hmem
    have hboth : .both a b ∈ matchAll (before ++ a :: after) right :=
      both_mem_matchAll_iff_exists.2
        ⟨before, after, rfl, (hright.unmatched before).match?_eq_some hmem hid hsame⟩
    exact ⟨hboth, findingLines_infix_compareLines hboth⟩

/-- An achievement without a number comes first and takes the other one for its title. The one that
has its number is left alone. -/
theorem not_both_mem_matchAll_sharedTitle :
    let first : Achievement := { title := "t" }
    let second : Achievement := { title := "u", id := 7 }
    let other : Achievement := { title := "t", id := 7 }
    DistinctIds [first, second] ∧ DistinctIds [other] ∧ second.id ≠ 0 ∧ second.id = other.id ∧
      .both second other ∉ matchAll [first, second] [other] := by
  intro first second other
  have hmatch : matchAll [first, second] [other] = [.both first other, .onlyLeft second] := by
    simp [matchAll, match?, first, second, other]
  refine ⟨by simp [DistinctIds, first], by simp [DistinctIds], by decide, rfl, ?_⟩
  simp [hmatch, first, second]

/-- Titles cross, and one without a number stands in front. -/
theorem both_mem_matchAll_crossedTitles :
    let plain : Achievement := { title := "u" }
    let third : Achievement := { title := "t", id := 3 }
    let seventh : Achievement := { title := "u", id := 7 }
    let right : List Achievement :=
      [{ title := "t", id := 7 }, { title := "u" }, { title := "u", id := 3 }]
    .both seventh { title := "t", id := 7 } ∈ matchAll [plain, third, seventh] right ∧
      diffLines .decimal seventh { title := "t", id := 7 } <:+:
        compareLines .decimal "left" "right" [plain, third, seventh] right := by
  intro plain third seventh right
  have hleft : DistinctIds [plain, third, seventh] := by
    simp [DistinctIds, plain, third, seventh]
  have hright : DistinctIds right := by simp [DistinctIds, right]
  refine (both_mem_matchAll_iff .decimal "left" "right" [plain, third] [] right seventh
    { title := "t", id := 7 } hleft hright (by simp [right]) (by decide) rfl).2 ?_
  rintro ⟨_ | ⟨d, _ | ⟨e, front⟩⟩, back, c, hsplit, hnone, hfind⟩
  · -- the first one takes another one of its title
    cases hsplit
    simp [unmatched, plain, right] at hfind
  · -- the second one finds its number
    cases hsplit
    simp [unmatched, match?, plain, third, right] at hnone
  · simp at hsplit

end AchievementLang.CommandLine
