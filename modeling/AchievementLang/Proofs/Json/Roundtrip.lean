import AchievementLang.Proofs.Json.Scalar
import AchievementLang.Proofs.Text.Lines
import Mathlib.Data.List.DropRight

/-!
# Documents read back

A document whose objects have every key once is what its text reads as (`Json.read?_pretty`).

A text reads as a document if it does in front of whatever may follow it, with fuel for twice its
length (`Json.Reads`). If this holds of the items of an array or of the values of an object, it
holds of the whole, whatever the blanks between the parts (`Json.readItems_of_reads`,
`Json.readFields_of_reads`).
-/

namespace AchievementLang.Json

/-! ## Arrays and objects -/

theorem readValue_blanks (fuel : Nat) {b : List Char} (hb : IsBlanks b) (cs : List Char) :
    readValue fuel (b ++ cs) = readValue fuel cs :=
  readValue_congr fuel (skipBlanks_append hb cs)

theorem skipBlanks_skipBlanks (cs : List Char) : skipBlanks (skipBlanks cs) = skipBlanks cs :=
  List.dropWhile_idempotent _ cs

/-- In front of whatever may follow, and with fuel for twice its length, the text reads as the
document. -/
def Reads (t : List Char) (j : Json) : Prop :=
  ∀ fuel rest, 2 * t.length ≤ fuel → ValueEnd rest → readValue fuel (t ++ rest) = some (j, rest)

/-- There is fuel for a first call, since no document has an empty text. -/
theorem Reads.of_succ {t : List Char} {j : Json} (ht : t ≠ [])
    (h : ∀ fuel rest, 2 * t.length ≤ fuel + 1 → ValueEnd rest →
      readValue (fuel + 1) (t ++ rest) = some (j, rest)) : Reads t j := by
  intro fuel rest hfuel hrest
  have hlength := List.length_pos_iff.2 ht
  obtain ⟨fuel, rfl⟩ := Nat.exists_eq_add_one_of_ne_zero (by omega : fuel ≠ 0)
  exact h fuel rest hfuel hrest

/-- Items are an array: none of them starts like its end. -/
theorem readValue_array {fuel : Nat} {cs : List Char} {r : Json × List Char}
    (h : readItems fuel [] cs = some r) : readValue (fuel + 1) ('[' :: cs) = some r := by
  cases fuel with
  | zero => simp [readItems] at h
  | succ fuel =>
    rw [readItems, ← readValue_congr fuel (skipBlanks_skipBlanks cs)] at h
    simp only [readValue, skipBlanks_cons (by decide : '[' ∉ _)]
    split
    next last hlast =>
      have hnone : readValue fuel (']' :: last) = none := by
        cases fuel <;> rfl
      rw [hlast, hnone] at h
      cases h
    next => rwa [readItems]

theorem readValue_object {fuel : Nat} {cs : List Char} {r : Json × List Char}
    (h : readFields fuel [] cs = some r) : readValue (fuel + 1) ('\x7b' :: cs) = some r := by
  cases fuel with
  | zero => simp [readFields] at h
  | succ fuel =>
    rw [readFields] at h
    simp only [readValue, skipBlanks_cons (by decide : '\x7b' ∉ _)]
    split
    next last hlast =>
      rw [hlast] at h
      cases h
    next => rwa [readFields, skipBlanks_skipBlanks]

section Parts

variable (text : Json → List Char) {b e : List Char} (hb : IsBlanks b) (he : IsBlanks e)

include hb he

/-- **The items of an array are read** if each of them is, whatever the blanks between them. -/
theorem readItems_of_reads {j : Json} {js : List Json} (hread : ∀ i ∈ j :: js, Reads (text i) i)
    (fuel : Nat) (before : List Json) (rest : List Char)
    (hfuel : 2 * (b ++ (text j ++ ((js.flatMap fun i => ',' :: (b ++ text i)) ++ e))).length + 1
      ≤ fuel) :
    readItems fuel before
        (b ++ (text j ++ ((js.flatMap fun i => ',' :: (b ++ text i)) ++ (e ++ ']' :: rest)))) =
      some (.array (before.reverse ++ j :: js), rest) := by
  induction js generalizing j fuel before with
  | nil =>
    obtain ⟨fuel, rfl⟩ := Nat.exists_eq_add_one_of_ne_zero (by omega : fuel ≠ 0)
    have hj := hread j (by simp) fuel (e ++ ']' :: rest)
      (by simp only [List.length_append] at hfuel; omega) (.append he (by simp [ValueEnd]))
    rw [readItems, readValue_blanks fuel hb, List.flatMap_nil, List.nil_append, hj]
    simp only [skipBlanks_append he, skipBlanks_cons (by decide : ']' ∉ _), List.reverse_cons]
  | cons i js ih =>
    obtain ⟨fuel, rfl⟩ := Nat.exists_eq_add_one_of_ne_zero (by omega : fuel ≠ 0)
    simp only [List.flatMap_cons, List.cons_append, List.append_assoc, List.length_append,
      List.length_cons] at hfuel ⊢
    have hj := hread j (by simp) fuel (',' :: (b ++ (text i ++
      ((js.flatMap fun i => ',' :: (b ++ text i)) ++ (e ++ ']' :: rest))))) (by omega)
      (by simp [ValueEnd])
    have hmore := ih (fun x hx => hread x (List.mem_cons_of_mem _ hx)) fuel (j :: before)
      (by simp only [List.length_append]; omega)
    rw [readItems, readValue_blanks fuel hb, hj]
    simp only [skipBlanks_cons (by decide : ',' ∉ _), hmore, List.reverse_cons,
      List.append_assoc, List.singleton_append]

/-- A key and its value. -/
def fieldChars (text : Json → List Char) (f : String × Json) : List Char :=
  (stringText f.1).toList ++ ':' :: ' ' :: text f.2

omit hb he in
/-- One step of reading an object takes a field. -/
theorem readFields_fieldChars (hb : IsBlanks b) {f : String × Json} (hf : Reads (text f.2) f.2)
    {fuel : Nat} (hfuel : 2 * (text f.2).length ≤ fuel) (before : List (String × Json))
    {tail : List Char} (htail : ValueEnd tail) :
    readFields (fuel + 1) before (b ++ (fieldChars text f ++ tail)) =
      match skipBlanks tail with
      | ',' :: more => readFields fuel (Bindings.set before f.1 f.2) more
      | '\x7d' :: last => some (.object (Bindings.set before f.1 f.2), last)
      | _ => none := by
  have hspace : IsBlanks [' '] := by simp [IsBlanks]
  have hvalue : readValue fuel (' ' :: (text f.2 ++ tail)) = some (f.2, tail) := by
    rw [← List.singleton_append, readValue_blanks fuel hspace, hf fuel tail hfuel htail]
  have hkey := readChars_stringText f.1 (':' :: ' ' :: (text f.2 ++ tail))
  rw [readFields, skipBlanks_append hb, fieldChars, toList_stringText]
  simp only [List.cons_append, List.append_assoc, List.nil_append,
    skipBlanks_cons (by decide : '"' ∉ _), hkey, skipBlanks_cons (by decide : ':' ∉ _)]
  rewrite [hvalue]
  rfl

/-- **The fields of an object are read** if the value of each is and the keys differ. -/
theorem readFields_of_reads {f : String × Json} {fs : List (String × Json)}
    (hread : ∀ g ∈ f :: fs, Reads (text g.2) g.2) (fuel : Nat) (before : List (String × Json))
    (hkeys : ((before ++ f :: fs).map Prod.fst).Nodup) (rest : List Char)
    (hfuel : 2 * (b ++ (fieldChars text f ++
      ((fs.flatMap fun g => ',' :: (b ++ fieldChars text g)) ++ e))).length + 1 ≤ fuel) :
    readFields fuel before (b ++ (fieldChars text f ++
        ((fs.flatMap fun g => ',' :: (b ++ fieldChars text g)) ++ (e ++ '\x7d' :: rest)))) =
      some (.object (before ++ f :: fs), rest) := by
  have hlength (g : String × Json) : (text g.2).length ≤ (fieldChars text g).length := by
    simp only [fieldChars, List.length_append, List.length_cons]
    omega
  have hset {g : String × Json} {gs : List (String × Json)} {before : List (String × Json)}
      (h : ((before ++ g :: gs).map Prod.fst).Nodup) :
      Bindings.set before g.1 g.2 = before ++ [g] := by
    refine Bindings.set_of_not_mem (fun hmem => ?_) g.2
    rw [List.map_append, List.map_cons, List.nodup_append] at h
    exact h.2.2 _ hmem _ List.mem_cons_self rfl
  induction fs generalizing f fuel before with
  | nil =>
    obtain ⟨fuel, rfl⟩ := Nat.exists_eq_add_one_of_ne_zero (by omega : fuel ≠ 0)
    have hf := hlength f
    rw [List.flatMap_nil, List.nil_append, readFields_fieldChars text hb (hread f (by simp))
      (by simp only [List.length_append] at hfuel; omega) before (.append he (by simp [ValueEnd]))]
    simp only [skipBlanks_append he, skipBlanks_cons (by decide : '\x7d' ∉ _), hset hkeys]
  | cons g fs ih =>
    obtain ⟨fuel, rfl⟩ := Nat.exists_eq_add_one_of_ne_zero (by omega : fuel ≠ 0)
    have hf := hlength f
    simp only [List.flatMap_cons, List.cons_append, List.append_assoc, List.length_append,
      List.length_cons] at hfuel ⊢
    have hmore := ih (fun x hx => hread x (List.mem_cons_of_mem _ hx)) fuel
      (before ++ [f]) (by simpa using hkeys) (by simp only [List.length_append]; omega)
    rw [readFields_fieldChars text hb (hread f (by simp)) (by omega) before (by simp [ValueEnd])]
    simp only [skipBlanks_cons (by decide : ',' ∉ _), hset hkeys, hmore, List.append_assoc,
      List.singleton_append]

end Parts

/-! ## Documents -/

/-- No object has a key twice. -/
inductive DistinctKeys : Json → Prop
  | null : DistinctKeys .null
  | bool (b : Bool) : DistinctKeys (.bool b)
  | number (n : JsonNumber) : DistinctKeys (.number n)
  | string (s : String) : DistinctKeys (.string s)
  | array {items : List Json} (h : ∀ j ∈ items, DistinctKeys j) : DistinctKeys (.array items)
  | object {fields : List (String × Json)} (hkeys : (fields.map Prod.fst).Nodup)
      (h : ∀ f ∈ fields, DistinctKeys f.2) : DistinctKeys (.object fields)

theorem indentedItems_eq_map (level : Nat) (items : List Json) :
    indentedItems level items = items.map (indented level) := by
  induction items with
  | nil => rfl
  | cons j rest ih => rw [indentedItems, ih, List.map_cons]

theorem indentedFields_eq_map (level : Nat) (fields : List (String × Json)) :
    indentedFields level fields =
      fields.map fun f => stringText f.1 ++ ": " ++ f.2.indented level := by
  induction fields with
  | nil => rfl
  | cons f rest ih => rw [indentedFields, ih, List.map_cons]

theorem toList_newLine (level : Nat) :
    (newLine level).toList = '\n' :: List.replicate (2 * level) ' ' := by
  have pushn (s : String) (k : Nat) :
      (s.pushn ' ' k).toList = s.toList ++ List.replicate k ' ' := by
    induction k with
    | zero => simp [String.pushn, Nat.repeat]
    | succ k ih =>
      rw [List.replicate_succ', ← List.append_assoc, ← ih]
      simp [String.pushn, Nat.repeat]
  rw [newLine, String.toList_append, pushn]
  rfl

theorem isBlanks_newLine (level : Nat) : IsBlanks (newLine level).toList := by
  intro c hc
  rw [toList_newLine, List.mem_cons, List.mem_replicate] at hc
  obtain rfl | ⟨-, rfl⟩ := hc <;> simp

/-- The characters of parts on lines of their own. -/
theorem toList_block (level : Nat) (opening closing : String) (p : String) (ps : List String) :
    (block level opening closing (p :: ps)).toList = opening.toList ++
      ((newLine (level + 1)).toList ++ (p.toList ++
        ((ps.flatMap fun q => ',' :: ((newLine (level + 1)).toList ++ q.toList)) ++
          ((newLine level).toList ++ closing.toList)))) := by
  simp only [block, List.isEmpty_cons, Bool.false_eq_true, if_false, String.toList_append,
    Text.toList_intercalate_cons]
  simp

/-- **An indented document reads as the document**, at every level. -/
theorem DistinctKeys.reads_indented {j : Json} (h : j.DistinctKeys) (level : Nat) :
    Reads (j.indented level).toList j := by
  induction h generalizing level with
  | null =>
    refine .of_succ (by simp [indented]) fun fuel rest _ _ => ?_
    rw [indented]
    rfl
  | bool b =>
    refine .of_succ (by cases b <;> simp [indented]) fun fuel rest _ _ => ?_
    rw [indented]
    cases b <;> rfl
  | number n =>
    exact .of_succ (numberText_ne_nil n) fun fuel rest _ hrest => readValue_numberText fuel n hrest
  | string s =>
    rw [indented, toList_stringText]
    refine .of_succ (List.cons_ne_nil _ _) fun fuel rest _ _ => ?_
    simp only [List.cons_append, List.append_assoc, List.nil_append, readValue,
      skipBlanks_cons (by decide : '"' ∉ _), readChars_stringText s rest, Option.map_some]
  | @array items h ih =>
    rw [indented, indentedItems_eq_map]
    cases items with
    | nil =>
      refine .of_succ (by simp [block]) fun fuel rest _ _ => ?_
      simp [block, readValue, skipBlanks]
    | cons j js =>
      rw [List.map_cons, toList_block, List.flatMap_map]
      refine .of_succ (by simp) fun fuel rest hfuel _ => ?_
      have hitems := readItems_of_reads (fun i => (i.indented (level + 1)).toList)
        (isBlanks_newLine (level + 1)) (isBlanks_newLine level) (fun i hi => ih i hi (level + 1))
        fuel [] rest (by simp at hfuel ⊢; omega)
      simpa using readValue_array hitems
  | @object fields hkeys h ih =>
    rw [indented, indentedFields_eq_map]
    cases fields with
    | nil =>
      refine .of_succ (by simp [block]) fun fuel rest _ _ => ?_
      simp [block, readValue, skipBlanks]
    | cons f fs =>
      rw [List.map_cons, toList_block, List.flatMap_map]
      refine .of_succ (by simp) fun fuel rest hfuel _ => ?_
      have hfields := readFields_of_reads (fun i => (i.indented (level + 1)).toList)
        (isBlanks_newLine (level + 1)) (isBlanks_newLine level) (fun g hg => ih g hg (level + 1))
        fuel [] hkeys rest (by simp [fieldChars] at hfuel ⊢; omega)
      simpa [fieldChars] using readValue_object hfields

/-- **Reading a document undoes writing it**, if no object has a key twice. -/
theorem read?_pretty {j : Json} (h : j.DistinctKeys) : read? j.pretty = some j := by
  have hread := h.reads_indented 0 (2 * (j.indented 0).toList.length + 2) [] (by omega)
    (by simp [ValueEnd])
  rw [List.append_nil] at hread
  simp only [read?, pretty, hread]
  rfl

/-! ## Line ends -/

theorem return_not_mem_newLine (level : Nat) : '\r' ∉ (newLine level).toList := by
  simp [toList_newLine]

/-- **There is no carriage return in an indented document.** -/
theorem DistinctKeys.return_not_mem_indented {j : Json} (h : j.DistinctKeys) (level : Nat) :
    '\r' ∉ (j.indented level).toList := by
  induction h generalizing level with
  | null => simp [indented]
  | bool b => cases b <;> simp [indented]
  | number n => exact return_not_mem_numberText n
  | string s => exact return_not_mem_stringText s
  | @array items h ih =>
    rw [indented, indentedItems_eq_map]
    cases items with
    | nil => simp [block]
    | cons j js =>
      rw [List.map_cons, toList_block]
      simp only [List.forall_mem_cons] at ih
      simp [return_not_mem_newLine, ih.1 (level + 1)]
      exact fun i hi => ih.2 i hi (level + 1)
  | @object fields hkeys h ih =>
    rw [indented, indentedFields_eq_map]
    cases fields with
    | nil => simp [block]
    | cons f fs =>
      rw [List.map_cons, toList_block]
      simp only [List.forall_mem_cons] at ih
      simp [return_not_mem_newLine, return_not_mem_stringText, ih.1 (level + 1)]
      exact fun key value hmem => ih.2 _ hmem (level + 1)

end AchievementLang.Json
