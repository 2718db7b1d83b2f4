import AchievementLang.Json.Reader
import AchievementLang.Json.Writer
import AchievementLang.Proofs.Text.Numeral

/-!
# Strings and numbers of documents

A string is read back up to its closing quote (`Json.readChars_stringText`), and a number up to
what ends it (`Json.readValue_numberText`). What may stand behind a number is what may stand behind
any part of a document (`Json.ValueEnd`).
-/

namespace AchievementLang.Json

/-! ## Blanks -/

/-- The characters that may stand between the parts of a document. -/
def IsBlanks (b : List Char) : Prop := ∀ c ∈ b, c = ' ' ∨ c = '\t' ∨ c = '\n' ∨ c = '\r'

theorem skipBlanks_append {b : List Char} (hb : IsBlanks b) (cs : List Char) :
    skipBlanks (b ++ cs) = skipBlanks cs :=
  List.dropWhile_append_of_pos fun c hc => by simpa [or_assoc] using hb c hc

theorem skipBlanks_cons {c : Char} (h : c ∉ [' ', '\t', '\n', '\r']) (cs : List Char) :
    skipBlanks (c :: cs) = c :: cs :=
  List.dropWhile_cons_of_neg (by simpa [or_assoc] using h)

/-- What may stand behind a document: nothing, blanks, or what goes on with the array or object
around it. -/
def ValueEnd (rest : List Char) : Prop :=
  ∀ c ∈ rest.head?, c ∈ [' ', '\t', '\n', '\r', ',', ']', '\x7d']

theorem ValueEnd.append {b rest : List Char} (hb : IsBlanks b) (h : ValueEnd rest) :
    ValueEnd (b ++ rest) := by
  cases b with
  | nil => exact h
  | cons c b =>
    rintro _ ⟨⟩
    obtain rfl | rfl | rfl | rfl := hb c (by simp) <;> simp

/-! ## Strings -/

/-- The code of a control character is read from the four digits of its escape. -/
theorem readUnit_hexPadded {n : Nat} (h : n < 0x20) (rest : List Char) :
    readUnit (Text.hexPadded 4 n ++ rest) = some (n, rest) := by
  have hlength : ∀ m < 0x20, (Text.hexPadded 4 m).length = 4 := by decide
  obtain ⟨a, b, c, d, e⟩ : ∃ a b c d, Text.hexPadded 4 n = [a, b, c, d] := by
    match Text.hexPadded 4 n, hlength n h with
    | [a, b, c, d], _ => exact ⟨a, b, c, d, rfl⟩
  have hdigits : [a, b, c, d].all Text.isHexDigit = true :=
    List.all_eq_true.2 fun x hx => Text.isHexDigit_of_mem_hexPadded (e ▸ hx)
  rw [e, List.cons_append, List.cons_append, List.cons_append, List.cons_append, List.nil_append,
    readUnit, if_pos hdigits, ← e, Text.hexValue_hexPadded]

theorem readEscapedUnit_hexPadded {c : Char} (h : c.toNat < 0x20) (rest : List Char) :
    readEscapedUnit (Text.hexPadded 4 c.toNat ++ rest) = some (c, rest) := by
  rw [readEscapedUnit, readUnit_hexPadded h]
  dsimp only
  rw [if_neg (by omega), if_neg (by omega), Char.ofNat_toNat]

/-- One step of reading a string takes the text of one character. -/
theorem readChars_escapedChar (fuel : Nat) (before : List Char) (c : Char) (rest : List Char) :
    readChars (fuel + 1) before (escapedChar c ++ rest) = readChars fuel (c :: before) rest := by
  unfold escapedChar
  split
  case h_8 hquote hbackslash _ _ _ _ _ =>
    split
    next h =>
      rw [List.cons_append, List.cons_append, readChars]
      simp only [readEscapedUnit_hexPadded h]
    next h =>
      rw [List.cons_append, List.nil_append, readChars, if_neg h] <;> simp_all
  all_goals rfl

theorem escapedChar_ne_nil (c : Char) : escapedChar c ≠ [] := by
  unfold escapedChar
  split <;> try exact List.cons_ne_nil _ _
  split <;> exact List.cons_ne_nil _ _

theorem length_le_length_flatMap_escapedChar (cs : List Char) :
    cs.length ≤ (cs.flatMap escapedChar).length := by
  induction cs with
  | nil => rfl
  | cons c cs ih =>
    have := List.length_pos_iff.2 (escapedChar_ne_nil c)
    simp only [List.flatMap_cons, List.length_cons, List.length_append]
    omega

theorem readChars_flatMap_escapedChar (cs rest : List Char) {fuel : Nat} (before : List Char)
    (h : cs.length < fuel) :
    readChars fuel before (cs.flatMap escapedChar ++ '"' :: rest) =
      some (String.ofList (before.reverse ++ cs), rest) := by
  induction cs generalizing fuel before with
  | nil =>
    obtain ⟨fuel, rfl⟩ := Nat.exists_eq_add_one_of_ne_zero (by omega : fuel ≠ 0)
    rw [List.append_nil]
    rfl
  | cons c cs ih =>
    obtain ⟨fuel, rfl⟩ := Nat.exists_eq_add_one_of_ne_zero (by omega : fuel ≠ 0)
    rw [List.flatMap_cons, List.append_assoc, readChars_escapedChar,
      ih _ (by simpa using h), List.reverse_cons, List.append_assoc, List.singleton_append]

theorem toList_stringText (s : String) :
    (stringText s).toList = '"' :: (s.toList.flatMap escapedChar ++ ['"']) := by
  simp [stringText]

/-- **A string is read up to its closing quote.** -/
theorem readChars_stringText (s : String) (rest : List Char) :
    let body := s.toList.flatMap escapedChar ++ '"' :: rest
    readChars (body.length + 1) [] body = some (s, rest) := by
  intro body
  have h := length_le_length_flatMap_escapedChar s.toList
  rw [readChars_flatMap_escapedChar _ _ _ (by simp only [body, List.length_append]; omega)]
  simp

/-! ## Numbers -/

theorem isPlainDigit_of_mem_toDigits {n : Nat} {c : Char} (h : c ∈ Nat.toDigits 10 n) :
    isPlainDigit c = true := by
  obtain ⟨m, hm, rfl⟩ := Text.exists_digitChar_of_mem_toDigits (by decide) h
  have all : ∀ m < 10, isPlainDigit m.digitChar = true := by decide
  exact all m hm

theorem plainValue_toDigits (n : Nat) : plainValue (Nat.toDigits 10 n) = n :=
  Nat.ofDigitChars_toDigits (by decide) (by decide)

/-- No digit goes on with the number. -/
def DigitsEnd (rest : List Char) : Prop := ∀ c ∈ rest.head?, isPlainDigit c = false

theorem ValueEnd.digitsEnd {rest : List Char} (h : ValueEnd rest) : DigitsEnd rest := by
  intro c hc
  have all : [' ', '\t', '\n', '\r', ',', ']', '\x7d'].all (!isPlainDigit ·) = true := by decide
  simpa using List.all_eq_true.1 all c (h c hc)

section Digits

variable {rest : List Char} (n : Nat) (h : DigitsEnd rest)

include h

theorem takeWhile_toDigits :
    (Nat.toDigits 10 n ++ rest).takeWhile isPlainDigit = Nat.toDigits 10 n :=
  Text.takeWhile_append_of_head (fun _ => isPlainDigit_of_mem_toDigits) h

theorem dropWhile_toDigits : (Nat.toDigits 10 n ++ rest).dropWhile isPlainDigit = rest :=
  Text.dropWhile_append_of_head (fun _ => isPlainDigit_of_mem_toDigits) h

end Digits

/-- The digits of a number do not start with a zero that could be left out. -/
theorem no_leading_zero (n : Nat) (h : (Nat.toDigits 10 n).head? = some '0') :
    (Nat.toDigits 10 n).length = 1 := by
  obtain rfl | hn := eq_or_ne n 0
  · rfl
  · exact absurd h (Text.head?_toDigits_ne hn)

theorem exists_digits (n : Nat) :
    ∃ d ds, Nat.toDigits 10 n = d :: ds ∧ isPlainDigit d = true ∧ d ≠ '-' ∧ d ≠ '+' := by
  obtain ⟨d, ds, e⟩ := List.exists_cons_of_ne_nil (Nat.toDigits_ne_nil (n := n) (b := 10))
  have hd : isPlainDigit d = true := isPlainDigit_of_mem_toDigits (n := n) (by simp [e])
  refine ⟨d, ds, e, hd, ?_, ?_⟩ <;> rintro rfl <;> revert hd <;> decide

theorem readExponent_toString (e : Int) {rest : List Char} (h : DigitsEnd rest) :
    readExponent ((toString e).toList ++ rest) = some (e, rest) := by
  have htake := takeWhile_toDigits e.natAbs h
  have hdrop := dropWhile_toDigits e.natAbs h
  have hvalue := plainValue_toDigits e.natAbs
  obtain ⟨d, ds, hd, -, hminus, hplus⟩ := exists_digits e.natAbs
  rw [hd] at htake hdrop hvalue
  rw [Text.toList_toString_int, hd]
  rw [List.cons_append] at htake hdrop
  by_cases he : e < 0
  · have hneg : -(e.natAbs : Int) = e := by omega
    have hsigned : readExponent ('-' :: d :: (ds ++ rest)) = some (-(e.natAbs : Int), rest) := by
      simp [readExponent, htake, hdrop, hvalue]
    rw [if_pos he, List.singleton_append, List.cons_append, List.cons_append, hsigned, hneg]
  · have hpos : (e.natAbs : Int) = e := by omega
    have hunsigned : readExponent (d :: (ds ++ rest)) = some ((e.natAbs : Int), rest) := by
      simp [readExponent, hminus, hplus, htake, hdrop, hvalue]
    rw [if_neg he, List.nil_append, List.cons_append, hunsigned, hpos]

/-- Digits without point and exponent are an integer. -/
theorem readUnsigned_toDigits (negative : Bool) (n : Nat) {rest : List Char} (h : ValueEnd rest) :
    readUnsigned negative (Nat.toDigits 10 n ++ rest) =
      some (.int (if negative then -(n : Int) else n), rest) := by
  have head_ne {c : Char} {more : List Char} (hc : rest = c :: more) :
      c ≠ '.' ∧ c ≠ 'e' ∧ c ≠ 'E' := by
    have := h c (by simp [hc])
    refine ⟨?_, ?_, ?_⟩ <;> rintro rfl <;> simp at this
  simp only [readUnsigned, takeWhile_toDigits _ h.digitsEnd, dropWhile_toDigits _ h.digitsEnd]
  cases rest with
  | nil => simpa [plainValue_toDigits] using no_leading_zero n
  | cons c more =>
    obtain ⟨hpoint, he, hE⟩ := head_ne rfl
    simpa [plainValue_toDigits, hpoint, he, hE] using no_leading_zero n

theorem readUnsigned_exponent (negative : Bool) (n : Nat) (e : Int) {rest : List Char}
    (h : ValueEnd rest) :
    readUnsigned negative (Nat.toDigits 10 n ++ 'e' :: ((toString e).toList ++ rest)) =
      some (.decimal negative n e, rest) := by
  have hexponent := readExponent_toString e h.digitsEnd
  generalize (toString e).toList ++ rest = more at hexponent ⊢
  have hend : DigitsEnd ('e' :: more) := by
    rintro c ⟨⟩
    decide
  simp only [readUnsigned, takeWhile_toDigits _ hend, dropWhile_toDigits _ hend]
  simpa [plainValue_toDigits, hexponent] using no_leading_zero n

theorem numberText_ne_nil (n : JsonNumber) : (numberText n).toList ≠ [] := by
  cases n with
  | int n => simp [numberText, Text.toList_toString_int, -Int.toString_eq_repr]
  | decimal negative => cases negative <;> simp [numberText]
  | infinity negative => cases negative <;> simp [numberText]
  | notANumber => simp [numberText]

/-- A document that starts with a digit, or with a minus sign and a digit, is a number. -/
theorem readValue_sign_append (fuel : Nat) (negative : Bool) {d : Char} (cs : List Char)
    (hd : isPlainDigit d = true) :
    readValue (fuel + 1) ((if negative then ['-'] else []) ++ d :: cs) =
      (readUnsigned negative (d :: cs)).map fun (n, last) => (.number n, last) := by
  have hne : ∀ c ∈ ['n', 't', 'f', 'N', 'I', '"', '[', '\x7b', ' ', '\t', '\n', '\r', '-'],
      d ≠ c := by
    rintro c hc rfl
    have all : ['n', 't', 'f', 'N', 'I', '"', '[', '\x7b', ' ', '\t', '\n', '\r', '-'].all
      (!isPlainDigit ·) = true := by decide
    have := List.all_eq_true.1 all d hc
    simp [hd] at this
  simp only [List.forall_mem_cons] at hne
  cases negative with
  | true => simp [readValue, skipBlanks, readNumber, hne]
  | false => simp [readValue, skipBlanks, readNumber, hne]

/-- **A number is read up to what ends it.** -/
theorem readValue_numberText (fuel : Nat) (n : JsonNumber) {rest : List Char} (h : ValueEnd rest) :
    readValue (fuel + 1) ((numberText n).toList ++ rest) = some (.number n, rest) := by
  cases n with
  | int n =>
    obtain ⟨d, ds, e, hd, -⟩ := exists_digits n.natAbs
    have hread := readUnsigned_toDigits (decide (n < 0)) n.natAbs h
    have hsign : (if decide (n < 0) = true then -(n.natAbs : Int) else n.natAbs) = n := by
      simp only [decide_eq_true_eq]
      split <;> omega
    have hvalue := readValue_sign_append fuel (decide (n < 0)) (ds ++ rest) hd
    rw [hsign, e, List.cons_append] at hread
    rw [hread] at hvalue
    rw [numberText, Text.toList_toString_int, e]
    simpa using hvalue
  | decimal negative n e =>
    obtain ⟨d, ds, hds, hd, -⟩ := exists_digits n
    have hread := readUnsigned_exponent negative n e h
    have hvalue :=
      readValue_sign_append fuel negative (ds ++ 'e' :: ((toString e).toList ++ rest)) hd
    rw [hds, List.cons_append] at hread
    rw [hread] at hvalue
    have htext : (numberText (.decimal negative n e)).toList ++ rest =
        (if negative then ['-'] else []) ++
          d :: (ds ++ 'e' :: ((toString e).toList ++ rest)) := by
      cases negative <;> simp [numberText, hds]
    rw [htext, hvalue]
    rfl
  | infinity negative => cases negative <;> rfl
  | notANumber => rfl

/-! ## Line ends -/

theorem return_not_mem_escapedChar (c : Char) : '\r' ∉ escapedChar c := by
  unfold escapedChar
  split
  case h_8 _ _ _ _ _ hreturn _ =>
    split
    · have hex : '\r' ∉ Text.hexPadded 4 c.toNat := fun h =>
        absurd (Text.isHexDigit_of_mem_hexPadded h) (by decide)
      simp [hex]
    · simpa [eq_comm] using hreturn
  all_goals decide

theorem return_not_mem_stringText (s : String) : '\r' ∉ (stringText s).toList := by
  simp [toList_stringText, return_not_mem_escapedChar]

theorem return_not_mem_numberText (n : JsonNumber) : '\r' ∉ (numberText n).toList := by
  have digits (n : Nat) : '\r' ∉ Nat.toDigits 10 n := fun h =>
    absurd (isPlainDigit_of_mem_toDigits h) (by decide)
  have int (n : Int) : '\r' ∉ (toString n).toList := by
    rw [Text.toList_toString_int]
    split <;> simp [digits]
  cases n with
  | int n => exact int n
  | decimal negative n e =>
    have hn : '\r' ∉ (toString n).toList := int n
    have he := int e
    simp only [numberText, String.toList_append, List.mem_append, not_or]
    exact ⟨⟨⟨by cases negative <;> decide, hn⟩, by decide⟩, he⟩
  | infinity negative => cases negative <;> decide
  | notANumber => decide

end AchievementLang.Json
