import AchievementLang.Grammar.Tree
import AchievementLang.Proofs.Text.Numeral

/-!
# Words read back

What is written for a word is scanned as that word (`Scans`), wherever the parser can use it and
whatever else it could use there. The reader tries the patterns in a fixed order, so no pattern that
is preferred may match (`Scans.of_unmatched`). For a sign that is settled by its first characters:
the sign of a comparison and `=>` are preferred to `!` and `=`, comments to `/`. Names and numbers
go on as far as they can, so they are read back where the text does not go on with a letter or a
digit (`EndsWord`).

The meaning of the words is that of the text they were written for: `decimalValue_toDigits`,
`literalText_of_plain`.
-/

namespace AchievementLang

open Grammar

/-! ## The terminals of operators -/

/-- The word that writes the operation. -/
def Operator.terminal : Operator → Terminal
  | .add => .plus
  | .sub => .minus
  | .mul => .star
  | .div => .slash
  | .mod => .percent

/-- The word that writes the connective. -/
def Connective.terminal : Connective → Terminal
  | .and => .and
  | .or => .or

/-- A name of the grammar that is no keyword. -/
def IsIdentifier (x : String) : Prop :=
  (∃ c cs, x.toList = c :: cs ∧ startsName c = true ∧ ∀ d ∈ cs, continuesName d = true) ∧
    x ≠ "function" ∧ x ≠ "return"

theorem IsIdentifier.toList_ne_nil {x : String} (hx : IsIdentifier x) : x.toList ≠ [] := by
  obtain ⟨⟨c, cs, hc, -⟩, -⟩ := hx
  simp [hc]

theorem IsIdentifier.not_keyword {x : String} (hx : IsIdentifier x) :
    String.ofList x.toList ≠ "function" ∧ String.ofList x.toList ≠ "return" := by
  rw [String.ofList_toList]
  exact hx.2

theorem isIdentifier_x : IsIdentifier "x" :=
  ⟨⟨'x', [], rfl, by decide, by simp⟩, by decide, by decide⟩

namespace Grammar

/-! ## The order of the patterns -/

/-- The patterns that are preferred to a pattern. -/
def Pattern.preferred (p : Pattern) : List Pattern := Pattern.all.takeWhile (· != p)

theorem findSome?_filter_of_first {α β : Type} [DecidableEq α] {f : α → Option β} {p : α → Bool}
    {a : α} {b : β} (ha : p a = true) (hf : f a = some b) {as : List α} (hmem : a ∈ as)
    (hfirst : ∀ a' ∈ as.takeWhile (· != a), f a' = none) : (as.filter p).findSome? f = some b := by
  induction as with
  | nil => cases hmem
  | cons c as ih =>
    by_cases hc : c = a
    · subst hc
      rw [List.filter_cons_of_pos ha, List.findSome?_cons, hf]
    · have hmem' := (List.mem_cons.1 hmem).resolve_left (Ne.symm hc)
      rw [List.takeWhile_cons_of_pos (by simpa using hc)] at hfirst
      have htail := ih hmem' fun a' ha' => hfirst a' (List.mem_cons_of_mem c ha')
      by_cases hpc : p c = true
      · rw [List.filter_cons_of_pos hpc, List.findSome?_cons, hfirst c List.mem_cons_self]
        exact htail
      · rw [List.filter_cons_of_neg hpc]
        exact htail

variable {possible : Terminal → Bool} {cs text rest : List Char} {p : Pattern} {t : Terminal}

/-- The front of the text is read as the first pattern that matches. -/
theorem scan_of_unmatched (hall : p ∈ Pattern.all) (htried : p.isTried possible = true)
    (hunmatched : ∀ q ∈ p.preferred, matchPattern q cs = none)
    (hmatch : matchPattern p cs = some (text, rest)) :
    scan possible cs = some (p, text, rest) := by
  refine findSome?_filter_of_first htried ?_ hall fun q hq => ?_
  · rw [hmatch]
    rfl
  · rw [hunmatched q hq]
    rfl

theorem unmatched_of_all {ps : List Pattern}
    (h : (ps.all fun q => (matchPattern q cs).isNone) = true) :
    ∀ q ∈ ps, matchPattern q cs = none :=
  fun q hq => Option.isNone_iff_eq_none.1 (List.all_eq_true.1 h q hq)

/-- Blanks are read up to the next word. -/
theorem scan_blanks (possible : Terminal → Bool) {c : Char} (hc : isSeparator c = true)
    (cs : List Char) :
    scan possible (c :: cs) =
      some (.blanks, (c :: cs).takeWhile isSeparator, (c :: cs).dropWhile isSeparator) := by
  have hrun : run isSeparator (c :: cs) =
      some ((c :: cs).takeWhile isSeparator, (c :: cs).dropWhile isSeparator) := by
    rw [run, List.takeWhile_cons_of_pos hc]
  refine scan_of_unmatched (p := .blanks) (by decide) rfl ?_ hrun
  have hchars : c = ' ' ∨ c = '\t' ∨ c = '\x0c' ∨ c = '\r' ∨ c = '\n' := by
    simpa [isSeparator, or_assoc] using hc
  have hnone : (Pattern.blanks.preferred.all
      fun q => (matchPattern q (c :: cs)).isNone) = true := by
    obtain rfl | rfl | rfl | rfl | rfl := hchars <;> rfl
  exact unmatched_of_all hnone

/-! ## Signs -/

/-- Wherever the word is possible, it is what is read of the text. -/
def Scans (t : Terminal) (text rest : List Char) : Prop :=
  ∀ possible, possible t = true → scan possible (text ++ rest) = some (.word t, text, rest)

theorem Scans.of_unmatched (hall : .word t ∈ Pattern.all)
    (hunmatched : ∀ q ∈ (Pattern.word t).preferred, matchPattern q (text ++ rest) = none)
    (hmatch : matchTerminal t (text ++ rest) = some (text, rest)) : Scans t text rest :=
  fun _ hpossible => scan_of_unmatched hall hpossible hunmatched hmatch

/-- A sign, whose first characters no preferred pattern matches. -/
theorem scans_sign (hall : .word t ∈ Pattern.all)
    (hunmatched : ((Pattern.word t).preferred.all
      fun q => (matchPattern q (text ++ rest)).isNone) = true)
    (hmatch : matchTerminal t (text ++ rest) = some (text, rest)) : Scans t text rest :=
  .of_unmatched hall (unmatched_of_all hunmatched) hmatch

theorem scans_lpar (rest : List Char) : Scans .lpar ['('] rest := scans_sign (by decide) rfl rfl

theorem scans_rpar (rest : List Char) : Scans .rpar [')'] rest := scans_sign (by decide) rfl rfl

theorem scans_lsqb (rest : List Char) : Scans .lsqb ['['] rest := scans_sign (by decide) rfl rfl

theorem scans_rsqb (rest : List Char) : Scans .rsqb [']'] rest := scans_sign (by decide) rfl rfl

theorem scans_comma (rest : List Char) : Scans .comma [','] rest := scans_sign (by decide) rfl rfl

theorem scans_minus (rest : List Char) : Scans .minus ['-'] rest := scans_sign (by decide) rfl rfl

/-- An exclamation mark is no comparison if no equals sign follows. -/
theorem scans_bang (rest : List Char) : Scans .bang ['!'] ('(' :: rest) :=
  scans_sign (by decide) rfl rfl

/-- A single equals sign is no comparison, and no arrow. -/
theorem scans_equal (rest : List Char) : Scans .equal ['='] (' ' :: rest) :=
  scans_sign (by decide) rfl rfl

theorem scans_operator (op : Operator) (rest : List Char) :
    Scans op.terminal op.symbol.toList (' ' :: rest) := by
  cases op <;> exact scans_sign (by decide) rfl rfl

theorem scans_connective (op : Connective) (rest : List Char) :
    Scans op.terminal op.symbol.toList (' ' :: rest) := by
  cases op <;> exact scans_sign (by decide) rfl rfl

theorem scans_relation (r : Relation) (rest : List Char) :
    Scans .relation r.symbol.toList (' ' :: rest) := by
  cases r <;> exact scans_sign (by decide) rfl rfl

/-! ## Names, numbers and strings -/

/-- The text does not go on with a letter or a digit. -/
def EndsWord (rest : List Char) : Prop := ∀ c ∈ rest.head?, continuesName c = false

theorem endsWord_nil : EndsWord [] := nofun

theorem endsWord_cons {c : Char} (h : continuesName c = false) (rest : List Char) :
    EndsWord (c :: rest) := by
  rintro _ ⟨⟩
  exact h

theorem matchTerminal_hexadecimal (h : ∀ cs', cs ≠ '0' :: 'x' :: cs') :
    matchTerminal .hexadecimal cs = none := by
  unfold matchTerminal
  split
  · exact absurd rfl (h _)
  all_goals simp_all

theorem matchTerminal_hexadecimal_digits (cs : List Char) :
    matchTerminal .hexadecimal ('0' :: 'x' :: cs) =
      (run Text.isHexDigit cs).map fun (digits, last) => ('0' :: 'x' :: digits, last) :=
  rfl

theorem matchTerminal_name {c : Char} (hc : startsName c = true) (cs : List Char) :
    matchTerminal .name (c :: cs) =
      some (c :: cs.takeWhile continuesName, cs.dropWhile continuesName) :=
  if_pos hc

theorem matchTerminal_decimal (cs : List Char) : matchTerminal .decimal cs = run Char.isDigit cs :=
  rfl

theorem matchTerminal_string (cs : List Char) :
    matchTerminal .string ('"' :: cs) =
      (stringBody cs).map fun (text, last) => ('"' :: text, last) :=
  rfl

theorem scans_name {x : String} (hx : IsIdentifier x) (hrest : EndsWord rest) :
    Scans .name x.toList rest := by
  obtain ⟨⟨c, cs, hx, hc, hcs⟩, -, -⟩ := hx
  rw [hx]
  refine .of_unmatched (by decide) ?_ ?_
  · intro q hq
    rw [List.mem_singleton.1 (show q ∈ [Pattern.word .hexadecimal] from hq), matchPattern]
    refine matchTerminal_hexadecimal fun cs' h => ?_
    rw [List.cons_append] at h
    rw [(List.cons.inj h).1] at hc
    exact absurd hc (by decide)
  · rw [List.cons_append, matchTerminal_name hc,
      Text.takeWhile_append_of_head hcs hrest, Text.dropWhile_append_of_head hcs hrest]

theorem mem_digits {d : Char} (h : d.isDigit = true) :
    d ∈ ['0', '1', '2', '3', '4', '5', '6', '7', '8', '9'] := by
  have hbounds : 48 ≤ d.toNat ∧ d.toNat ≤ 57 := by
    have hval : d.toNat = d.val.toNat := rfl
    grind [Char.isDigit, UInt32.le_iff_toNat_le]
  change d ∈ (List.range 10).map fun i => Char.ofNat (48 + i)
  refine List.mem_map.2 ⟨d.toNat - 48, List.mem_range.2 (by omega), ?_⟩
  rw [Nat.add_sub_cancel' hbounds.1, Char.ofNat_toNat]

/-- No pattern but that of hexadecimal numbers is preferred to that of decimal ones and matches a
digit. -/
theorem unmatched_digit {d : Char} (hd : d.isDigit = true) (cs : List Char) :
    ([Pattern.word .name, .word .string, .blockComment, .blanks, .lineComment].all
      fun q => (matchPattern q (d :: cs)).isNone) = true := by
  have hmem := mem_digits hd
  simp only [List.mem_cons, List.not_mem_nil, or_false] at hmem
  obtain rfl | rfl | rfl | rfl | rfl | rfl | rfl | rfl | rfl | rfl := hmem <;> rfl

theorem scans_decimal {ds : List Char} (hne : ds ≠ []) (hds : ∀ d ∈ ds, d.isDigit = true)
    (hrest : EndsWord rest) : Scans .decimal ds rest := by
  have hnext : ∀ c ∈ rest.head?, c.isDigit = false := fun c hc =>
    (Bool.or_eq_false_iff.1 (hrest c hc)).2
  obtain ⟨d, ds, rfl⟩ := List.exists_cons_of_ne_nil hne
  have hhexadecimal : ∀ cs', d :: (ds ++ rest) ≠ '0' :: 'x' :: cs' := by
    intro cs' h
    have hx := (List.cons.inj h).2
    cases ds with
    | nil => exact absurd (hrest 'x' (by rw [List.nil_append] at hx; rw [hx]; rfl)) (by decide)
    | cons e ds =>
      have he := hds e (by simp)
      rw [(List.cons.inj hx).1] at he
      exact absurd he (by decide)
  refine .of_unmatched (by decide) (fun q hq => ?_) ?_
  · have hq' : q = .word .hexadecimal ∨
        q ∈ [Pattern.word .name, .word .string, .blockComment, .blanks, .lineComment] :=
      List.mem_cons.1 hq
    obtain rfl | hq := hq'
    · exact matchTerminal_hexadecimal hhexadecimal
    · exact unmatched_of_all (unmatched_digit (hds d (by simp)) (ds ++ rest)) q hq
  · rw [matchTerminal_decimal, run, Text.takeWhile_append_of_head hds hnext,
      Text.dropWhile_append_of_head hds hnext]

theorem continuesName_of_isHexDigit {c : Char} (h : Text.isHexDigit c = true) :
    continuesName c = true := by
  have hall : ∀ n < 128, Text.isHexDigit (Char.ofNat n) = true →
      continuesName (Char.ofNat n) = true := by decide
  have hc := hall c.toNat (Text.toNat_lt_of_isHexDigit h)
  rw [Char.ofNat_toNat] at hc
  exact hc h

/-- The pattern of hexadecimal numbers is the first, so nothing is preferred to it. -/
theorem scans_hexadecimal {ds : List Char} (hne : ds ≠ [])
    (hds : ∀ d ∈ ds, Text.isHexDigit d = true) (hrest : EndsWord rest) :
    Scans .hexadecimal ('0' :: 'x' :: ds) rest := by
  have hnext : ∀ c ∈ rest.head?, Text.isHexDigit c = false := fun c hc =>
    Bool.eq_false_iff.2 fun h =>
      Bool.false_ne_true ((hrest c hc).symm.trans (continuesName_of_isHexDigit h))
  obtain ⟨d, ds, rfl⟩ := List.exists_cons_of_ne_nil hne
  refine .of_unmatched (by decide) nofun ?_
  rw [List.cons_append, List.cons_append, matchTerminal_hexadecimal_digits, run,
    Text.takeWhile_append_of_head hds hnext, Text.dropWhile_append_of_head hds hnext]
  rfl

theorem stringBody_of_plain {cs : List Char} (hcs : ∀ c ∈ cs, c ≠ '"' ∧ c ≠ '\\' ∧ c ≠ '\n')
    (rest : List Char) : stringBody (cs ++ '"' :: rest) = some (cs ++ ['"'], rest) := by
  induction cs with
  | nil => rfl
  | cons c cs ih =>
    obtain ⟨⟨hquote, hslash, hline⟩, hcs⟩ := List.forall_mem_cons.1 hcs
    rw [List.cons_append, stringBody]
    · rw [ih hcs]
      rfl
    all_goals simp_all

/-- A string without escapes. -/
theorem scans_string {cs : List Char} (hcs : ∀ c ∈ cs, c ≠ '"' ∧ c ≠ '\\' ∧ c ≠ '\n')
    (rest : List Char) : Scans .string ('"' :: cs ++ ['"']) rest := by
  have htext : '"' :: cs ++ ['"'] ++ rest = '"' :: (cs ++ '"' :: rest) := by simp
  refine scans_sign (by decide) ?_ ?_
  · rw [htext]
    rfl
  · rw [htext, matchTerminal_string, stringBody_of_plain hcs]
    rfl

/-! ## The meaning of words -/

theorem decimalValue_toDigits (n : Nat) :
    decimalValue (String.ofList (Nat.toDigits 10 n)) = n := by
  rw [decimalValue, String.toList_ofList]
  exact Nat.ofDigitChars_toDigits (by decide) (by decide)

theorem hexadecimalValue_upperHexPadded (width n : Nat) :
    hexadecimalValue (String.ofList ('0' :: 'x' :: Text.upperHexPadded width n)) = n := by
  rw [hexadecimalValue, String.toList_ofList]
  exact Text.hexValue_upperHexPadded width n

theorem unescape_of_plain {cs : List Char} (hcs : '\\' ∉ cs) : unescape cs = cs := by
  induction cs with
  | nil => rfl
  | cons c cs ih =>
    obtain ⟨hc, hcs⟩ : c ≠ '\\' ∧ '\\' ∉ cs := by simpa [eq_comm] using hcs
    rw [unescape, ih hcs]
    all_goals simp [hc]

theorem literalText_of_plain {s : String} (hs : '\\' ∉ s.toList) :
    literalText (String.ofList ('"' :: s.toList ++ ['"'])) = s := by
  rw [literalText, String.toList_ofList]
  simp [unescape_of_plain hs]

end Grammar

end AchievementLang
