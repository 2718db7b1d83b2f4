import AchievementLang.Proofs.Wire.Combinators
import AchievementLang.Proofs.Wire.Leaderboard

/-!
# Definitions cut where they were joined

A text that is read as a trigger or as a value has no two colons side by side and none at its end
(`isBody_of_trigger`, `colon_not_mem_of_value`). So a definition joined from such texts is cut into
them again. A section that cannot be read fails as it does on its own, as many characters further on
as stand before it (`Section.check_eq`). Both together are the main statement,
`readDefinition_joined`.
-/

namespace AchievementLang.Wire

/-! ## Values have no colon -/

namespace Reader

variable {α β : Type} {r : Reader α}

/-- The reader takes no colon. -/
def Colonless (r : Reader α) : Prop := Takes r fun t _ => ':' ∉ t

namespace Colonless

theorem done (a : α) : Colonless (done a) := by
  rintro cs b rest h
  cases h
  exact ⟨[], rfl, by simp⟩

theorem andThen {next : α → Reader β} (h : Colonless r) (hnext : ∀ a, Colonless (next a)) :
    Colonless (r.andThen next) := by
  intro cs b rest hread
  unfold Reader.andThen at hread
  split at hread
  · cases hread
  next a after ha =>
    obtain ⟨t, rfl, ht⟩ := h _ _ _ ha
    obtain ⟨u, rfl, hu⟩ := hnext a _ _ _ hread
    exact ⟨t ++ u, by simp, by simp [ht, hu]⟩

theorem onLead {lead : List Char} {otherwise : Reader α} (hlead : ':' ∉ lead) (h : Colonless r)
    (hotherwise : Colonless otherwise) : Colonless (onLead lead r otherwise) := by
  intro cs a rest hread
  unfold Reader.onLead at hread
  split at hread
  next after hafter =>
    obtain ⟨lead', rfl, heq⟩ := List.dropPrefix?_eq_some_iff.1 hafter
    obtain ⟨t, rfl, ht⟩ := h _ _ _ hread
    rw [← eq_of_beq heq] at hlead
    exact ⟨lead' ++ t, by simp, by simp [hlead, ht]⟩
  · exact hotherwise _ _ _ hread

theorem led {sep : Char} (hsep : sep ≠ ':') (h : Colonless r) : Colonless (led sep r) := by
  intro cs as rest hread
  obtain ⟨t, rfl, ts, rfl, hts⟩ := Takes.led h _ _ _ hread
  refine ⟨_, rfl, ?_⟩
  clear hread
  induction hts with
  | nil => simp
  | cons ht _ ih => simpa [ht, Ne.symm hsep] using ih

theorem joined {sep : Char} (hsep : sep ≠ ':') (h : Colonless r) : Colonless (joined sep r) := by
  rw [joined_eq]
  exact h.andThen fun a => (led hsep h).andThen fun more => done _

theorem digits : Colonless digits := by
  intro cs x rest hread
  obtain ⟨t, rfl, hne, hvalue⟩ := takes_digits _ _ _ hread
  exact ⟨t, rfl, fun hc => absurd
    (Text.IsNumeral.isDigit ⟨hne, Text.isSome_of_decimalValue? hvalue⟩ ':' hc) (by decide)⟩

theorem field : Colonless field := by
  intro cs f rest hread
  obtain ⟨t, rfl, ht⟩ := takes_field _ _ _ hread
  exact ⟨t, rfl, ht.colon_not_mem⟩

theorem decimals (negative : Bool) (whole : Nat) : Colonless (decimals negative whole) := by
  intro cs x rest hread
  by_cases h : ∃ c more, cs = '.' :: c :: more ∧ Text.isDigit c = true
  · obtain ⟨c, more, rfl, hc⟩ := h
    rw [decimals_digit hc] at hread
    obtain ⟨t, ht, hcolon⟩ := (digits.andThen fun _ => done _) _ _ _ hread
    exact ⟨'.' :: t, by rw [ht, List.cons_append], by simp [hcolon]⟩
  · rw [decimals_of_not h] at hread
    exact done _ _ _ _ hread

theorem number : Colonless number := by
  have hunsigned (negative : Bool) : Colonless (unsignedNumber negative) := by
    rw [unsignedNumber_eq]
    exact digits.andThen fun x => decimals negative x.2
  rw [number_eq]
  exact onLead (by decide) (hunsigned true) (hunsigned false)

theorem term : Colonless term := by
  have hmultiplied (f : Field) : Colonless (multiplied f) := by
    rw [multiplied_eq]
    exact onLead (by decide) (number.andThen fun _ => done _) (done _)
  rw [term_eq]
  exact onLead (by decide) (number.andThen fun _ => done _) (field.andThen hmultiplied)

end Colonless

end Reader

/-- **There is no colon in a text that is read as a value.** -/
theorem colon_not_mem_of_value {cs : List Char} {v : Value} (h : Reader.value cs = .ok v) :
    ':' ∉ cs := by
  have hsum : Reader.Colonless (Reader.joined '_' Reader.term) := .joined (by decide) .term
  have hmore : Reader.Colonless (Reader.led '$' (Reader.joined '_' Reader.term)) :=
    .led (by decide) hsum
  have hvalue := hsum.andThen fun first => hmore.andThen fun more => .done (first :: more)
  rw [Reader.value_eq] at h
  unfold Reader.closing at h
  split at h
  · cases h
  next hread =>
    obtain ⟨t, rfl, ht⟩ := hvalue _ _ _ hread
    rwa [List.append_nil]
  · cases h

theorem readValue_eq_ok_iff {s : String} {v : Value} :
    readValue s = .ok v ↔ Reader.value s.toList = .ok v := by
  rw [readValue, readAt]
  cases Reader.value s.toList <;> simp

/-! ## Failures of sections -/

/-- Reads the body of a section on its own. -/
def SectionKey.read (key : SectionKey) (body : List Char) : Except ReadFailure Unit :=
  match key with
  | .value => (readValue (String.ofList body)).map fun _ => ()
  | _ => (readTrigger (String.ofList body)).map fun _ => ()

/-- The failure if so many characters stand in front of the text. -/
def ReadFailure.behind (offset : Nat) : ReadFailure → ReadFailure
  | .malformed e => .malformed ⟨e.flaw, offset + e.position⟩
  | .valueless digits => .valueless digits

theorem readAt_eq_mapError {α : Type} (offset : Nat) (reader : List Char → Except Stop α)
    (cs : List Char) :
    readAt offset reader cs = (readAt 0 reader cs).mapError (ReadFailure.behind offset) := by
  unfold readAt
  cases reader cs with
  | ok a => rfl
  | error e => cases e <;> simp [Stop.at, Except.mapError, ReadFailure.behind]

/-- **A section is checked as it is read on its own**, with positions counted from the start of the
definition. -/
theorem Section.check_eq (s : Section) :
    s.check = (s.key.read s.body).mapError (ReadFailure.behind s.bodyStart) := by
  have hmap {α : Type} (x : Except ReadFailure α) :
      (x.mapError (ReadFailure.behind s.bodyStart)).map (fun _ => ()) =
        (x.map fun _ => ()).mapError (ReadFailure.behind s.bodyStart) := by
    cases x <;> rfl
  obtain ⟨key, start, bodyStart, body⟩ := s
  cases key <;>
    simp only [check, SectionKey.read, readTrigger, readValue, String.toList_ofList,
      readAt_eq_mapError bodyStart, hmap]

/-- Sections are checked up to the first one that fails. -/
theorem checkSections_eq_error {ss : List Section} {before after : List SectionKey}
    {key : SectionKey} {s : Section} {f : ReadFailure}
    (hbefore : ∀ k ∈ before, ∀ s' ∈ findSection? k ss, s'.check = .ok ())
    (hs : findSection? key ss = some s) (hcheck : s.check = .error f) :
    checkSections ss (before ++ key :: after) = .error f := by
  induction before with
  | nil => simp only [List.nil_append, checkSections, hs, hcheck]
  | cons k before ih =>
    obtain ⟨hk, hbefore⟩ := List.forall_mem_cons.1 hbefore
    rw [List.cons_append, checkSections]
    cases hfind : findSection? k ss with
    | none => exact ih hbefore
    | some s' => simp only [hk s' hfind, ih hbefore]

/-! ## Definitions -/

/-- The sections that come before one in the order in which definitions are written. -/
def SectionKey.earlier (key : SectionKey) : List SectionKey := all.takeWhile (· ≠ key)

theorem SectionKey.exists_all_eq (key : SectionKey) :
    ∃ later, all = key.earlier ++ key :: later := by
  cases key <;> exact ⟨_, rfl⟩

/-- The body of the section cannot be read on its own, and those of all that come before it can. -/
structure FirstMalformed (es : List Entry) (key : SectionKey) (body : List Char) (e : ReadError) :
    Prop where
  earlier : ∀ x ∈ es, x.1 ∈ key.earlier → x.1.read x.2 = .ok ()
  malformed : key.read body = .error (.malformed e)

/-- What can be read has bodies. -/
theorem Definition.hasBodies_of_read {d : Definition} (hstart : ∃ t, readTrigger d.start = .ok t)
    (hcancel : ∃ t, readTrigger d.cancel = .ok t) (hsubmit : ∃ t, readTrigger d.submit = .ok t)
    (hvalue : ∃ v, readValue d.value = .ok v) : d.HasBodies := by
  have htrigger {s : String} : (∃ t, readTrigger s = .ok t) → IsBody s.toList := fun ⟨t, ht⟩ =>
    isBody_of_trigger (readTrigger_eq_ok_iff.1 ht)
  obtain ⟨v, hv⟩ := hvalue
  exact ⟨htrigger hstart, htrigger hcancel, htrigger hsubmit,
    isBody_of_not_mem (colon_not_mem_of_value (readValue_eq_ok_iff.1 hv))⟩

/-- The body of a section, and what is written behind it, end the text. -/
theorem IsCut.exists_before {cs body : List Char} {front rest : List Entry} {key : SectionKey}
    (h : IsCut cs (front ++ (key, body) :: rest)) :
    ∃ before, cs = before ++ (body ++ written rest) := by
  have hwritten : written (front ++ (key, body) :: rest) =
      (written front ++ key.mark) ++ (body ++ written rest) := by simp
  obtain rfl | hcolons := h.text
  · exact ⟨_, hwritten⟩
  · have hlength := congrArg List.length hcolons
    rw [hwritten] at hcolons hlength
    have hsuffix : body ++ written rest <:+ cs := by
      have hends : body ++ written rest <:+ ':' :: ':' :: cs := hcolons ▸ List.suffix_append _ _
      refine List.suffix_of_suffix_length_le hends (List.suffix_append [':', ':'] cs) ?_
      simp at hlength ⊢
      omega
    obtain ⟨before, hbefore⟩ := hsuffix
    exact ⟨before, hbefore.symm⟩

/-- Texts that can be read are found again in the definition joined from them. -/
theorem readDefinition_wire_of_read {d : Definition} (hstart : ∃ t, readTrigger d.start = .ok t)
    (hcancel : ∃ t, readTrigger d.cancel = .ok t) (hsubmit : ∃ t, readTrigger d.submit = .ok t)
    (hvalue : ∃ v, readValue d.value = .ok v) : readDefinition d.wire = .ok d := by
  rw [readDefinition_wire_iff (Definition.hasBodies_of_read hstart hcancel hsubmit hvalue)]
  simp only [readTrigger_eq_ok_iff, readValue_eq_ok_iff] at hstart hcancel hsubmit hvalue
  exact ⟨hstart, hcancel, hsubmit, hvalue⟩

/-- The first malformed section fails behind what stands before it. -/
theorem readDefinition_eq_error {text : String} {front rest : List Entry} {key : SectionKey}
    {before body : List Char} {e : ReadError}
    (h : IsDefinition text.toList (front ++ (key, body) :: rest))
    (hfirst : FirstMalformed (front ++ (key, body) :: rest) key body e)
    (hbefore : text.toList = before ++ (body ++ written rest)) :
    readDefinition text = .error (.malformed ⟨e.flaw, before.length + e.position⟩) := by
  have hfront : key ∉ front.map Prod.fst := by
    have hnodup := h.once.nodup_iff.2 (by decide)
    rw [List.map_append, List.map_cons] at hnodup
    exact fun hmem => List.disjoint_of_nodup_append hnodup hmem List.mem_cons_self
  have hlength : text.toList.length - (body ++ written rest).length = before.length := by
    rw [hbefore, List.length_append, Nat.add_sub_cancel]
  have hfound := @findSection?_placed front rest key body hfront text.toList.length
  rw [hlength] at hfound
  have hearlier : ∀ k ∈ key.earlier, ∀ s ∈ findSection? k
      (placed text.toList.length (front ++ (key, body) :: rest)), s.check = .ok () := by
    intro k hk s hs
    obtain rfl : s.key = k := by simpa using List.find?_some hs
    have hmem := mem_of_mem_placed (List.mem_of_find?_eq_some hs)
    rw [s.check_eq, hfirst.earlier _ hmem hk]
    rfl
  obtain ⟨later, hall⟩ := key.exists_all_eq
  have hcheck (start : Nat) : Section.check ⟨key, start, before.length, body⟩ =
      .error (.malformed ⟨e.flaw, before.length + e.position⟩) := by
    refine (Section.check_eq _).trans ?_
    dsimp only
    rw [hfirst.malformed]
    rfl
  rw [readDefinition_of_isDefinition h, hall, checkSections_eq_error hearlier hfound (hcheck _)]
  rfl

/-- **Definitions are cut where they were joined.** A definition joined from texts that can be read
gives these texts back. A text that consists of the four sections fails on the first one that is
malformed, in the order start, cancel, submit and value, for what is wrong with it on its own, and
as many characters further on as stand before it. -/
theorem readDefinition_joined :
    (∀ d : Definition, (∃ t, readTrigger d.start = .ok t) → (∃ t, readTrigger d.cancel = .ok t) →
      (∃ t, readTrigger d.submit = .ok t) → (∃ v, readValue d.value = .ok v) →
      readDefinition d.wire = .ok d) ∧
    ∀ (text : String) (front rest : List Entry) (key : SectionKey) (body : List Char)
      (e : ReadError), IsDefinition text.toList (front ++ (key, body) :: rest) →
      FirstMalformed (front ++ (key, body) :: rest) key body e →
      ∃ before, text.toList = before ++ (body ++ written rest) ∧
        readDefinition text = .error (.malformed ⟨e.flaw, before.length + e.position⟩) := by
  refine ⟨fun d => readDefinition_wire_of_read, fun text front rest key body e h hfirst => ?_⟩
  obtain ⟨before, hbefore⟩ := h.exists_before
  exact ⟨before, hbefore, readDefinition_eq_error h hfirst hbefore⟩

/-- An empty section, one that ends in an empty alternate, flags, and a value of two alternatives;
and sections in another order, of which the last but one is the first that is malformed. -/
theorem readDefinition_joined_submit :
    let d : Definition := ⟨"", "P:0xS5=1S", "A:1_R:1=1.2.", "v-1$0xH1*2"⟩
    readDefinition d.wire = .ok d ∧
      readDefinition "::STA:::VAL:v::SUB:R:1==1::CAN:P:0xS5=1S" =
        .error (.malformed ⟨.expectedNumber, 23⟩) := by
  intro d
  let one : Field := .literal ⟨1, by decide⟩
  let cancel : Trigger :=
    ⟨[{ left := .memory (.bit 6) ⟨5, by decide⟩, operator := some .eq, right := one,
        flag := .pauseIf }], [[]]⟩
  have hcancel : readTrigger "P:0xS5=1S" = .ok cancel := by decide +kernel
  have hsubmit : readTrigger d.submit = .ok ⟨[{ left := one, flag := .addSource },
      { left := one, operator := some .eq, right := one, hits := 2, flag := .resetIf }], []⟩ := by
    decide +kernel
  have hvalue : readValue d.value =
      .ok [[.constant (-1)], [⟨some (.memory .byte ⟨1, by decide⟩), 2⟩]] := by decide +kernel
  refine ⟨readDefinition_joined.1 d ⟨⟨[], []⟩, by decide +kernel⟩ ⟨cancel, hcancel⟩ ⟨_, hsubmit⟩
    ⟨_, hvalue⟩, ?_⟩
  let body : List Char := "R:1==1".toList
  let front : List Entry := [(.start, []), (.value, ['v'])]
  let rest : List Entry := [(.cancel, "P:0xS5=1S".toList)]
  have hbody : IsBody body ∧ IsBody "P:0xS5=1S".toList := by
    constructor <;> simp [IsBody, body]
  have hdefinition : IsDefinition "::STA:::VAL:v::SUB:R:1==1::CAN:P:0xS5=1S".toList
      (front ++ (.submit, body) :: rest) :=
    { text := .inl (by decide +kernel)
      apart := ⟨unmarked_nil _, (isBody_of_not_mem (by decide)).unmarked _, hbody.1.unmarked _,
        hbody.2.unmarked _, trivial⟩
      once := by decide
      first := rfl }
  have hfirst : FirstMalformed (front ++ (.submit, body) :: rest) .submit body
      ⟨.expectedNumber, 4⟩ :=
    { earlier := by decide +kernel
      malformed := by decide +kernel }
  obtain ⟨before, hbefore, herror⟩ := readDefinition_joined.2 _ front rest .submit body _
    hdefinition hfirst
  have hlength : before.length = 19 := by
    have h := congrArg List.length hbefore
    rw [List.length_append] at h
    have hrest : (body ++ written rest).length = 21 := by decide +kernel
    have htext : "::STA:::VAL:v::SUB:R:1==1::CAN:P:0xS5=1S".toList.length = 40 := by decide +kernel
    omega
  rwa [hlength] at herror

end AchievementLang.Wire
