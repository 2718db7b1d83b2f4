import AchievementLang.Proofs.Text.PlaceValue
import AchievementLang.Proofs.Wire.Combinators

/-!
# Two texts read in step

A text is read beside the one in which every digit has been given a place value
(`Text.withValue`). As long as the digits that are taken have a value of their own the texts are the
same, and so is what is read; at the first digit that has none the first reading fails, and the
second one goes on (`Reader.Abreast`). A reader that always behaves so is `Reader.InStep`. Ways of
combining readers keep this, so it is shown for the readers of digits, sizes, addresses and flags,
and follows for all others, up to `Reader.InStep.group` and `Reader.InStep.term`.
-/

namespace AchievementLang.Wire.Reader

open Text

variable {α β : Type}

/-! ## Reading in step -/

/-- Reading ends with no more than `n` characters left. -/
def Leaves (n : Nat) : Except Stop (α × List Char) → Prop
  | .ok (_, rest) => rest.length ≤ n
  | .error (.malformed _ left) => left ≤ n
  | .error (.valueless _) => True

theorem Leaves.mono {m n : Nat} {x : Except Stop (α × List Char)} (h : Leaves m x) (hle : m ≤ n) :
    Leaves n x := by
  match x with
  | .ok (_, rest) => exact Nat.le_trans h hle
  | .error (.malformed _ left) => exact Nat.le_trans h hle
  | .error (.valueless _) => trivial

/-- How reading a text, and reading it with every digit given a place value, go together: the
digits taken have a value and both end at the same place, or one of them has none and the second
reading ends behind it. -/
inductive Abreast (cs : List Char) :
    Except Stop (α × List Char) → Except Stop (α × List Char) → Prop
  | reads {taken rest : List Char} (a : α) (h : cs = taken ++ rest) (hv : HasValues taken) :
      Abreast cs (.ok (a, rest)) (.ok (a, rest.map withValue))
  | stops {taken rest : List Char} (flaw flaw' : Flaw) (h : cs = taken ++ rest)
      (hv : HasValues taken) :
      Abreast cs (.error (.malformed flaw rest.length)) (.error (.malformed flaw' rest.length))
  | stumbles {taken rest : List Char} {c : Char} {run : String}
      {y : Except Stop (α × List Char)} (h : cs = taken ++ c :: rest)
      (hc : lacksValue c = true) (hy : Leaves rest.length y) :
      Abreast cs (.error (.valueless run)) y

namespace Abreast

variable {cs taken : List Char} {x y : Except Stop (α × List Char)}

theorem leaves (h : Abreast cs x y) : Leaves cs.length x := by
  cases h with
  | reads a h hv => simp [Leaves, h]
  | stops flaw flaw' h hv => simp [Leaves, h]
  | stumbles h hc hy => trivial

/-- What was taken before does not matter if its digits have values. -/
theorem append_left (hv : HasValues taken) (h : Abreast cs x y) : Abreast (taken ++ cs) x y := by
  cases h with
  | reads a h hv' => exact .reads a (by rw [h, List.append_assoc]) (hv.append hv')
  | stops flaw flaw' h hv' => exact .stops flaw flaw' (by rw [h, List.append_assoc]) (hv.append hv')
  | stumbles h hc hy => exact .stumbles (by rw [h, List.append_assoc]) hc hy

end Abreast

/-- The reader reads a text in step with the text whose digits all have a place value. -/
def InStep (r : Reader α) : Prop := ∀ cs, Abreast cs (r cs) (r (cs.map withValue))

/-! ## Ways of combining readers -/

theorem dropPrefix?_map_withValue {lead : List Char} (hlead : ∀ p ∈ lead, p.toNat < 128)
    (cs : List Char) :
    (cs.map withValue).dropPrefix? lead = (cs.dropPrefix? lead).map (List.map withValue) := by
  induction lead generalizing cs with
  | nil => cases cs <;> rfl
  | cons p lead ih =>
    obtain ⟨hp, hlead⟩ := List.forall_mem_cons.1 hlead
    cases cs with
    | nil => rfl
    | cons c cs =>
      simp only [List.map_cons, List.dropPrefix?, beq_iff_eq, withValue_eq_iff hp, ih hlead]
      split <;> rfl

/-- No digit without a place value stands for a size. -/
theorem sizeOf?_of_lacksValue {c : Char} (h : lacksValue c = true) : sizeOf? c = none := by
  have hascii : ∀ s ∈ Size.all, s.letter.toNat < 128 := by decide +kernel
  have hc := toNat_of_lacksValue h
  rw [sizeOf?, upperChar_of_lacksValue h]
  refine List.find?_eq_none.2 fun s hs => ?_
  have := hascii s hs
  rw [beq_iff_eq]
  rintro rfl
  omega

/-- No digit without a place value is the letter of a flag. -/
theorem ofLetter?_of_lacksValue {c : Char} (h : lacksValue c = true) :
    Flag.ofLetter? c = none := by
  refine forall_lacksValue (p := fun c => Flag.ofLetter? c = none) ?_ h
  decide +kernel

namespace InStep

variable {r r' : Reader α}

theorem done (a : α) : InStep (done a) := fun _ => .reads a rfl .nil

/-- What is wrong where reading stops may depend on the digits there. -/
theorem stopAt (flaw : List Char → Flaw) : InStep (fun cs => stop (flaw cs) cs : Reader α) := by
  intro cs
  simpa [Reader.stop] using
    Abreast.stops (α := α) (flaw cs) (flaw (cs.map withValue)) (List.nil_append cs).symm .nil

theorem stop (flaw : Flaw) : InStep (stop flaw : Reader α) := stopAt fun _ => flaw

/-- What the next reader is given is no longer than the text, which inductions on the length
use. -/
theorem andThen_at {next : α → Reader β} {cs : List Char}
    (h : Abreast cs (r cs) (r (cs.map withValue)))
    (hnext : ∀ a rest, rest.length ≤ cs.length →
      Abreast rest (next a rest) (next a (rest.map withValue))) :
    Abreast cs (r.andThen next cs) (r.andThen next (cs.map withValue)) := by
  unfold andThen
  generalize r cs = x at h
  generalize r (cs.map withValue) = y at h
  cases h with
  | @reads taken rest a h hv =>
    subst h
    exact (hnext a rest (by simp)).append_left hv
  | stops flaw flaw' h hv => exact .stops flaw flaw' h hv
  | @stumbles taken rest c run _ h hc hy =>
    refine .stumbles h hc ?_
    match y with
    | .error (.malformed _ _) => exact hy
    | .error (.valueless _) => trivial
    | .ok (a, after) =>
      have hshort : after.length ≤ cs.length := by
        have : after.length ≤ rest.length := hy
        rw [h, List.length_append, List.length_cons]
        omega
      exact (hnext a after hshort).leaves.mono hy

theorem andThen {next : α → Reader β} (h : InStep r) (hnext : ∀ a, InStep (next a)) :
    InStep (r.andThen next) := fun cs => andThen_at (h cs) fun a rest _ => hnext a rest

theorem onLead {lead : List Char} (hlead : ∀ p ∈ lead, p.toNat < 128) (h : InStep r)
    (h' : InStep r') : InStep (onLead lead r r') := by
  intro cs
  simp only [Reader.onLead, dropPrefix?_map_withValue hlead]
  cases e : cs.dropPrefix? lead with
  | none => exact h' cs
  | some rest =>
    obtain rfl : cs = lead ++ rest := by
      obtain ⟨lead', hcs, hlead'⟩ := List.dropPrefix?_eq_some_iff.1 e
      rw [hcs, eq_of_beq hlead']
    exact (h rest).append_left (.of_ascii hlead)

/-! ## The readers of fields -/

/-- A run of digits is read in step: the digits taken have values, or one of them stumbles. -/
theorem digits : InStep digits := by
  intro cs
  have hcs := (List.takeWhile_append_dropWhile (p := isDigit) (l := cs)).symm
  have hdigit : ∀ c ∈ cs.takeWhile isDigit, isDigit c = true := fun c hc =>
    List.mem_takeWhile_imp hc
  have hcomp : isDigit ∘ withValue = isDigit := funext isDigit_withValue
  simp only [Reader.digits, List.takeWhile_map, List.dropWhile_map, hcomp]
  generalize cs.takeWhile isDigit = run at hcs hdigit
  generalize cs.dropWhile isDigit = rest at hcs
  cases run with
  | nil => simpa using stop .expectedNumber cs
  | cons d ds =>
    have hnumeral : IsNumeral ((d :: ds).map withValue) :=
      ⟨by simp, List.forall_mem_map.2 fun c hc => isSome_decimalDigit?_withValue (hdigit c hc)⟩
    obtain ⟨n, hn⟩ := hnumeral.exists_value
    obtain hv | ⟨taken, c, more, e, hc⟩ := hasValues_or_exists (d :: ds)
    · have hmap := hv.map_withValue
      rw [hmap] at hn
      rw [List.map_cons] at hmap
      simp only [List.map_cons, hmap, hn]
      exact .reads _ hcs hv
    · have hnone : decimalValue? (d :: ds) = none := by
        cases h : decimalValue? (d :: ds) with
        | none => rfl
        | some k =>
          have := isSome_of_decimalValue? h c (by simp [e])
          simp [lacksValue, ← Option.not_isSome, this] at hc
      simp only [List.map_cons] at hn
      simp only [hnone, List.map_cons, hn]
      have hsplit : cs = taken ++ c :: (more ++ rest) := by
        rw [hcs, e, List.append_assoc, List.cons_append]
      exact .stumbles hsplit hc (by simp [Leaves])

theorem size : InStep size := by
  intro cs
  cases cs with
  | nil => exact stop (.unknownSize none) []
  | cons c cs =>
    cases hc : lacksValue c with
    | false =>
      have hmap : (c :: cs).map withValue = c :: cs.map withValue := by
        rw [List.map_cons, withValue_of_not hc]
      rw [hmap, Reader.size, Reader.size]
      split
      · have htaken : c :: cs = [c] ++ cs := rfl
        exact .reads _ htaken (.cons hc .nil)
      · split
        · rw [← hmap]
          exact done Size.word (c :: cs)
        · rw [← hmap]
          exact stop (.unknownSize (some c)) (c :: cs)
    | true =>
      have hsize : sizeOf? '٣' = none := by decide +kernel
      have hhex : isHexDigit '٣' = false := by decide +kernel
      simpa [Reader.size, sizeOf?_of_lacksValue hc, isHexDigit_of_lacksValue hc,
        withValue_of_lacksValue hc, hsize, hhex] using
        stopAt (α := Size) (fun cs => .unknownSize cs.head?) (c :: cs)

theorem address : InStep address := by
  intro cs
  have hcs := (List.takeWhile_append_dropWhile (p := isHexDigit) (l := cs)).symm
  have hv : HasValues (cs.takeWhile isHexDigit) := .of_ascii fun c hc =>
    toNat_lt_of_isHexDigit (List.mem_takeWhile_imp hc)
  have hcomp : isHexDigit ∘ withValue = isHexDigit := funext isHexDigit_withValue
  simp only [Reader.address, List.takeWhile_map, List.dropWhile_map, hcomp, hv.map_withValue]
  split
  · simpa using stop .expectedAddress cs
  · split
    · exact .reads _ hcs hv
    · simpa [Reader.stop] using
        Abreast.stops (α := Word) .addressOutOfRange .addressOutOfRange hcs hv

theorem reference (kind : FieldKind) : InStep (reference kind) := by
  rw [reference_eq]
  exact size.andThen fun s => address.andThen fun a => done _

theorem literal : InStep literal := by
  rw [literal_eq]
  refine digits.andThen fun x => ?_
  split
  · exact done _
  · exact stop _

theorem field : InStep field := by
  rw [field_eq]
  refine onLead (by simp) (reference _) (onLead (by simp) (reference _) ?_)
  exact onLead (by simp) (stop _) literal

/-! ## The readers of rows and groups -/

theorem relationIfAny : InStep relationIfAny := by
  rw [relationIfAny_eq]
  exact onLead (by simp) (done _) (onLead (by simp) (done _) (onLead (by simp) (done _)
    (onLead (by simp) (done _) (onLead (by simp) (done _) (onLead (by simp) (done _)
      (done _))))))

theorem expect {c : Char} (hc : c.toNat < 128) : InStep (expect c) := by
  rw [expect_eq]
  exact onLead (by simpa using hc) (done ()) (stopAt _)

theorem closedCount {close : Char} (hclose : close.toNat < 128) : InStep (closedCount close) := by
  rw [closedCount_eq]
  exact digits.andThen fun x => (expect hclose).andThen fun _ => done _

theorem hits : InStep hits := by
  rw [hits_eq]
  exact onLead (by simp) (closedCount (by decide))
    (onLead (by simp) (closedCount (by decide)) (done 0))

/-- A row without flag is told by its second character. -/
theorem flag : InStep flag := by
  intro cs
  match cs with
  | [] => exact done Flag.none []
  | [c] => exact done Flag.none [c]
  | c :: d :: rest =>
    by_cases hd : d = ':'
    · subst hd
      have hcolon : withValue ':' = ':' := (withValue_eq_iff (by decide) _).2 rfl
      cases hc : lacksValue c with
      | false =>
        simp only [List.map_cons, withValue_of_not hc, hcolon, Reader.flag]
        split
        · have htaken : c :: ':' :: rest = [c, ':'] ++ rest := rfl
          exact .reads _ htaken (.cons hc (.cons (by decide +kernel) .nil))
        · simpa [withValue_of_not hc, hcolon] using
            stop (α := Flag) (.unknownFlag c) (c :: ':' :: rest)
      | true =>
        have hnone : Flag.ofLetter? '٣' = none := by decide
        simpa [Reader.flag, withValue_of_lacksValue hc, hcolon, ofLetter?_of_lacksValue hc, hnone]
          using stopAt (α := Flag) (fun cs => .unknownFlag (cs.headD ':')) (c :: ':' :: rest)
    · have hd' : withValue d ≠ ':' := mt (withValue_eq_iff (by decide) d).1 hd
      rw [List.map_cons, List.map_cons, flag_cons_cons hd, flag_cons_cons hd']
      exact done Flag.none (c :: d :: rest)

theorem comparison (f : Flag) (left : Field) : InStep (comparison f left) := by
  rw [comparison_eq]
  refine relationIfAny.andThen fun op => ?_
  cases op with
  | none =>
    dsimp only
    split
    · exact done _
    · exact stop _
  | some op => exact field.andThen fun right => hits.andThen fun n => done _

theorem requirement : InStep requirement := by
  rw [requirement_eq]
  exact flag.andThen fun f => field.andThen fun left => comparison f left

/-- An item leaves no more than it is given. -/
theorem length_le {item : Reader α} (h : InStep item) {cs rest : List Char} {a : α}
    (hread : item cs = .ok (a, rest)) : rest.length ≤ cs.length := by
  have hleaves := (h cs).leaves
  rwa [hread] at hleaves

/-- Items that are each led by a separator: by induction on the length of the text, since each
item leaves less than it was given. -/
theorem led {sep : Char} (hsep : sep.toNat < 128) {item : Reader α} (h : InStep item) :
    InStep (led sep item) := by
  intro cs
  induction hn : cs.length using Nat.strongRecOn generalizing cs with
  | ind n ih =>
    have hshorter : ∀ a rest, rest.length < n → Abreast rest
        (Reader.andThen (Reader.led sep item) (fun more => Reader.done (a :: more)) rest)
        (Reader.andThen (Reader.led sep item) (fun more => Reader.done (a :: more))
          (rest.map withValue)) := fun a rest hlt =>
      andThen_at (ih rest.length hlt rest rfl) fun more last _ => done (a :: more) last
    cases cs with
    | nil =>
      rw [List.map_nil, Reader.led]
      exact done [] []
    | cons c cs =>
      rw [List.length_cons] at hn
      by_cases hc : c = sep
      · have hmap : (c :: cs).map withValue = sep :: cs.map withValue := by
          rw [List.map_cons, hc, (withValue_eq_iff hsep sep).2 rfl]
        rw [hmap, hc, led_cons fun _ _ => h.length_le, led_cons fun _ _ => h.length_le]
        have hvalue : HasValues [sep] := .of_ascii (by simpa using hsep)
        exact (andThen_at (h cs) fun a rest hle => hshorter a rest (by omega)).append_left hvalue
      · have hc' : withValue c ≠ sep := mt (withValue_eq_iff hsep c).1 hc
        rw [List.map_cons, Reader.led, Reader.led, if_neg hc, if_neg hc', ← List.map_cons]
        exact done [] (c :: cs)

theorem joined {sep : Char} (hsep : sep.toNat < 128) {item : Reader α} (h : InStep item) :
    InStep (joined sep item) := by
  rw [joined_eq]
  exact h.andThen fun a => (led hsep h).andThen fun more => done _

theorem group : InStep group := by
  intro cs
  cases cs with
  | nil => exact done [] []
  | cons c cs =>
    by_cases hc : c = 'S'
    · have hdone := done (α := Group) [] ('S' :: cs)
      rw [List.map_cons, (withValue_eq_iff (by decide) 'S').2 rfl] at hdone
      rw [hc, List.map_cons, (withValue_eq_iff (by decide) 'S').2 rfl]
      exact hdone
    · rw [List.map_cons, group_cons hc, group_cons (mt (withValue_eq_iff (by decide) c).1 hc)]
      exact joined (by decide) requirement (c :: cs)

/-! ## The readers of terms -/

/-- A point belongs to a number if a digit follows, with or without a place value. -/
theorem decimals (negative : Bool) (whole : Nat) : InStep (decimals negative whole) := by
  intro cs
  by_cases hcs : ∃ c more, cs = '.' :: c :: more ∧ isDigit c = true
  · obtain ⟨c, more, rfl, hc⟩ := hcs
    have hpoint : withValue '.' = '.' := (withValue_eq_iff (by decide) _).2 rfl
    rw [List.map_cons, List.map_cons, hpoint, decimals_digit hc,
      decimals_digit ((isDigit_withValue c).trans hc)]
    have hvalue : HasValues ['.'] := .of_ascii (by simp)
    exact (digits.andThen (fun ds => done _) (c :: more)).append_left hvalue
  · have hmap : ¬ ∃ c more, cs.map withValue = '.' :: c :: more ∧ isDigit c = true := by
      rintro ⟨c', more', e, hc'⟩
      match cs with
      | [] | [_] => simp at e
      | p :: c :: more =>
        simp only [List.map_cons, List.cons.injEq, withValue_eq_iff (p := '.') (by decide)] at e
        obtain ⟨rfl, rfl, rfl⟩ := e
        exact hcs ⟨c, more, rfl, (isDigit_withValue c).symm.trans hc'⟩
    rw [decimals_of_not hcs, decimals_of_not hmap]
    exact done _ cs

theorem unsignedNumber (negative : Bool) : InStep (unsignedNumber negative) := by
  rw [unsignedNumber_eq]
  exact digits.andThen fun x => decimals negative x.2

theorem number : InStep number := by
  rw [number_eq]
  exact onLead (by simp) (unsignedNumber true) (unsignedNumber false)

theorem multiplied (f : Field) : InStep (multiplied f) := by
  rw [multiplied_eq]
  exact onLead (by simp) (number.andThen fun x => done _) (done _)

theorem term : InStep term := by
  rw [term_eq]
  exact onLead (by simp) (number.andThen fun x => done _) (field.andThen multiplied)

end InStep

end AchievementLang.Wire.Reader
