import AchievementLang.Wire.Reader
import Mathlib.Data.List.Basic

/-!
# Readers made of others

What holds of a reader because it holds of its parts need not be shown for each reader anew. Every
reader but the ones of digits, sizes and flags is made of others in one of three ways: it takes
nothing (`Reader.done`), goes on with another reader (`Reader.andThen`), or goes by the characters
that lead the text (`Reader.onLead`). The equations below say how. Those of whole texts are closed
at the end (`Reader.closing`).
-/

namespace AchievementLang.Wire.Reader

variable {α β : Type}

/-! ## The ways of combining -/

/-- Takes nothing. -/
def done (a : α) : Reader α := fun cs => .ok (a, cs)

/-- Reads with one reader, and goes on with another. -/
def andThen (r : Reader α) (next : α → Reader β) : Reader β := fun cs =>
  match r cs with
  | .error e => .error e
  | .ok (a, rest) => next a rest

/-- Reads with the first reader what follows the lead, or else with the second one. -/
def onLead (lead : List Char) (r otherwise : Reader α) : Reader α := fun cs =>
  match cs.dropPrefix? lead with
  | some rest => r rest
  | none => otherwise cs

/-- Reads a whole text; `flaw` tells what is wrong if a character is left. -/
def closing (flaw : Char → Flaw) (r : Reader α) (cs : List Char) : Except Stop α :=
  match r cs with
  | .error e => .error e
  | .ok (a, []) => .ok a
  | .ok (_, c :: rest) => .error (.malformed (flaw c) (rest.length + 1))

theorem onLead_append (lead : List Char) (r otherwise : Reader α) (rest : List Char) :
    onLead lead r otherwise (lead ++ rest) = r rest := by
  have e : (lead ++ rest).dropPrefix? lead = some rest :=
    List.dropPrefix?_eq_some_iff.2 ⟨lead, rfl, by simp⟩
  simp only [onLead, e]

theorem onLead_of_ne {lead cs : List Char} (r otherwise : Reader α)
    (h : ∀ rest, cs ≠ lead ++ rest) : onLead lead r otherwise cs = otherwise cs := by
  unfold onLead
  split
  next rest e =>
    obtain ⟨lead', hcs, hlead⟩ := List.dropPrefix?_eq_some_iff.1 e
    rw [eq_of_beq hlead] at hcs
    exact absurd hcs (h rest)
  · rfl

/-! ## Fields -/

theorem reference_eq (kind : FieldKind) : reference kind =
    size.andThen fun s => address.andThen fun a => done ⟨kind, some s, a⟩ := by
  funext cs
  unfold reference andThen
  cases size cs with
  | error => rfl
  | ok x => cases h : address x.2 <;> simp [done, h]

theorem literal_eq : literal = digits.andThen fun x =>
    if h : x.2 < wordCount then done (.literal ⟨x.2, h⟩) else stop .valueOutOfRange := by
  funext cs
  unfold literal andThen
  cases digits cs with
  | error => rfl
  | ok x =>
    dsimp only
    split <;> rfl

theorem field_eq : field = onLead ['0', 'x'] (reference .memory)
    (onLead ['d', '0', 'x'] (reference .previous)
      (onLead ['d'] (stop .expectedMemory) literal)) := by
  funext cs
  unfold field
  split
  next rest => exact (onLead_append ['0', 'x'] _ _ rest).symm
  next rest =>
    rw [onLead_of_ne _ _ (by simp)]
    exact (onLead_append ['d', '0', 'x'] _ _ rest).symm
  next rest h =>
    rw [onLead_of_ne _ _ (by simp), onLead_of_ne _ _ (by simpa using h)]
    exact (onLead_append ['d'] _ _ rest).symm
  next h h' h'' => rw [onLead_of_ne _ _ h, onLead_of_ne _ _ h', onLead_of_ne _ _ h'']

/-! ## Rows -/

/-- Reads a relation, if there is one. -/
def relationIfAny : Reader (Option Relation) := fun cs => .ok (relation cs)

theorem relationIfAny_eq : relationIfAny =
    onLead ['!', '='] (done (some .ne)) (onLead ['<', '='] (done (some .le))
      (onLead ['>', '='] (done (some .ge)) (onLead ['='] (done (some .eq))
        (onLead ['<'] (done (some .lt)) (onLead ['>'] (done (some .gt)) (done none)))))) := by
  funext cs
  unfold relationIfAny relation
  split
  next rest => exact (onLead_append ['!', '='] (done _) _ rest).symm
  next rest =>
    rw [onLead_of_ne _ _ (by simp)]
    exact (onLead_append ['<', '='] (done _) _ rest).symm
  next rest =>
    rw [onLead_of_ne _ _ (by simp), onLead_of_ne _ _ (by simp)]
    exact (onLead_append ['>', '='] (done _) _ rest).symm
  next rest =>
    rw [onLead_of_ne _ _ (by simp), onLead_of_ne _ _ (by simp), onLead_of_ne _ _ (by simp)]
    exact (onLead_append ['='] (done _) _ rest).symm
  next rest h =>
    rw [onLead_of_ne _ _ (by simp), onLead_of_ne _ _ (by simpa using h),
      onLead_of_ne _ _ (by simp), onLead_of_ne _ _ (by simp)]
    exact (onLead_append ['<'] (done _) _ rest).symm
  next rest h =>
    rw [onLead_of_ne _ _ (by simp), onLead_of_ne _ _ (by simp), onLead_of_ne _ _ (by simpa using h),
      onLead_of_ne _ _ (by simp), onLead_of_ne _ _ (by simp)]
    exact (onLead_append ['>'] (done _) _ rest).symm
  next hne hle hge heq hlt hgt =>
    rw [onLead_of_ne _ _ hne, onLead_of_ne _ _ hle, onLead_of_ne _ _ hge, onLead_of_ne _ _ heq,
      onLead_of_ne _ _ hlt, onLead_of_ne _ _ hgt]
    rfl

/-- A row whose second character is no colon has no flag. -/
theorem flag_cons_cons {d : Char} (hd : d ≠ ':') (c : Char) (rest : List Char) :
    flag (c :: d :: rest) = done .none (c :: d :: rest) := by
  unfold flag
  split
  next heq => simp_all
  · rfl

theorem expect_eq (c : Char) : expect c =
    onLead [c] (done ()) fun cs => stop (.expected c.toString cs.head?) cs := by
  funext cs
  unfold expect
  split
  next d rest =>
    split
    next hd =>
      rw [hd]
      exact (onLead_append [c] (done _) _ rest).symm
    next hd => rw [onLead_of_ne _ _ (by simpa using hd), List.head?_cons]
  · rw [onLead_of_ne _ _ (by simp), List.head?_nil]

theorem closedCount_eq (close : Char) : closedCount close =
    digits.andThen fun x => (expect close).andThen fun _ => done x.2 := by
  funext cs
  unfold closedCount andThen
  cases digits cs with
  | error => rfl
  | ok x => cases h : expect close x.2 <;> simp [done, h]

theorem hits_eq : hits =
    onLead ['.'] (closedCount '.') (onLead ['('] (closedCount ')') (done 0)) := by
  funext cs
  unfold hits
  split
  next rest => exact (onLead_append ['.'] _ _ rest).symm
  next rest =>
    rw [onLead_of_ne _ _ (by simp)]
    exact (onLead_append ['('] _ _ rest).symm
  next h h' =>
    rw [onLead_of_ne _ _ h, onLead_of_ne _ _ h']
    rfl

theorem comparison_eq (f : Flag) (left : Field) : comparison f left = relationIfAny.andThen fun
    | none =>
      if f.isAccumulator then done { left := left, flag := f } else stop .expectedComparison
    | some op => field.andThen fun right => hits.andThen fun n =>
      done { left := left, operator := some op, right := right, hits := n, flag := f } := by
  funext cs
  unfold comparison relationIfAny andThen
  rcases h : relation cs with ⟨_ | op, rest⟩
  · simp only [h]
    split <;> rfl
  · simp only [h]
    cases field rest with
    | error => rfl
    | ok x => cases h : hits x.2 <;> simp [done, h]

theorem requirement_eq : requirement =
    flag.andThen fun f => field.andThen fun left => comparison f left := by
  funext cs
  unfold requirement andThen
  cases flag cs with
  | error => rfl
  | ok x => cases h : field x.2 <;> simp [h]

/-! ## Lists -/

/-- Behind a separator comes an item and what is led by the next separator, if no item takes back
what stands before it. -/
theorem led_cons {sep : Char} {item : Reader α} {cs : List Char}
    (h : ∀ a rest, item cs = .ok (a, rest) → rest.length ≤ cs.length) :
    led sep item (sep :: cs) = item.andThen
      (fun a => andThen (led sep item) fun more => done (a :: more)) cs := by
  rw [led, if_pos rfl]
  unfold andThen
  cases hitem : item cs with
  | error => rfl
  | ok x =>
    simp only [h x.1 x.2 hitem, dif_pos]
    cases led sep item x.2 <;> rfl

theorem joined_eq (sep : Char) (item : Reader α) : joined sep item =
    item.andThen fun a => andThen (led sep item) fun more => done (a :: more) := by
  funext cs
  unfold joined andThen
  cases item cs with
  | error => rfl
  | ok x => cases h : led sep item x.2 <;> simp [done, h]

theorem group_cons {c : Char} (hc : c ≠ 'S') (cs : List Char) :
    group (c :: cs) = joined '_' requirement (c :: cs) := by
  unfold group
  split <;> simp_all

/-! ## Terms -/

/-- Reads what may follow the whole part of a number. A point belongs to it only if a digit
follows. -/
def decimals (negative : Bool) (whole : Nat) : Reader Rat
  | '.' :: c :: more =>
    if Text.isDigit c then
      (digits.andThen fun ds => done (decimalNumber negative whole ds)) (c :: more)
    else done (decimalNumber negative whole ([], 0)) ('.' :: c :: more)
  | cs => done (decimalNumber negative whole ([], 0)) cs

theorem decimals_digit {negative : Bool} {whole : Nat} {c : Char} {more : List Char}
    (hc : Text.isDigit c = true) : decimals negative whole ('.' :: c :: more) =
      (digits.andThen fun ds => done (decimalNumber negative whole ds)) (c :: more) := by
  rw [decimals, if_pos hc]

theorem decimals_of_not {negative : Bool} {whole : Nat} {cs : List Char}
    (h : ¬ ∃ c more, cs = '.' :: c :: more ∧ Text.isDigit c = true) :
    decimals negative whole cs = done (decimalNumber negative whole ([], 0)) cs := by
  unfold decimals
  split
  next c more => rw [if_neg fun hc => h ⟨c, more, rfl, hc⟩]
  · rfl

theorem unsignedNumber_eq (negative : Bool) : unsignedNumber negative =
    digits.andThen fun x => decimals negative x.2 := by
  funext cs
  unfold unsignedNumber andThen
  cases digits cs with
  | error => rfl
  | ok x =>
    obtain ⟨x, rest⟩ := x
    dsimp only
    split
    next c more =>
      split
      next hc =>
        rw [decimals_digit hc]
        unfold andThen
        cases digits (c :: more) <;> rfl
      next hc =>
        rw [decimals_of_not (by simpa using hc)]
        rfl
    next h =>
      rw [decimals_of_not fun ⟨c, more, hrest, _⟩ => h c more hrest]
      rfl

theorem number_eq : number = onLead ['-'] (unsignedNumber true) (unsignedNumber false) := by
  funext cs
  unfold number
  split
  next rest => exact (onLead_append ['-'] _ _ rest).symm
  next h => rw [onLead_of_ne _ _ h]

theorem multiplied_eq (f : Field) : multiplied f =
    onLead ['*'] (number.andThen fun x => done ⟨some f, x⟩) (done ⟨some f, 1⟩) := by
  funext cs
  unfold multiplied
  split
  next rest =>
    refine Eq.trans ?_ (onLead_append ['*'] _ _ rest).symm
    unfold andThen
    cases number rest <;> rfl
  next h =>
    rw [onLead_of_ne _ _ h]
    rfl

theorem term_eq : term = onLead ['v'] (number.andThen fun x => done (.constant x))
    (field.andThen multiplied) := by
  funext cs
  unfold term
  split
  next rest =>
    refine Eq.trans ?_ (onLead_append ['v'] _ _ rest).symm
    unfold andThen
    cases number rest <;> rfl
  next h =>
    rw [onLead_of_ne _ _ h]
    unfold andThen
    cases field cs <;> rfl

/-! ## Whole texts -/

theorem wholeField_eq : wholeField = closing .afterOperand field := by
  funext cs
  unfold wholeField closing
  rcases field cs with e | ⟨f, _ | ⟨c, rest⟩⟩ <;> rfl

theorem trigger_eq : trigger = closing (fun c => .expected "S" (some c))
    (group.andThen fun core => andThen (led 'S' group) fun alternates =>
      done ⟨core, alternates⟩) := by
  funext cs
  unfold trigger toEnd closing andThen
  cases group cs with
  | error => rfl
  | ok x =>
    obtain ⟨core, rest⟩ := x
    dsimp only
    rcases led 'S' group rest with e | ⟨alternates, _ | ⟨c, rest⟩⟩ <;> rfl

theorem value_eq : value = closing (fun c => .expected "$" (some c))
    (andThen (joined '_' term) fun first => andThen (led '$' (joined '_' term))
      fun more => done (first :: more)) := by
  funext cs
  unfold value toEnd closing andThen
  cases joined '_' term cs with
  | error => rfl
  | ok x =>
    obtain ⟨first, rest⟩ := x
    dsimp only
    rcases led '$' (joined '_' term) rest with e | ⟨more, _ | ⟨c, rest⟩⟩ <;> rfl

end AchievementLang.Wire.Reader
