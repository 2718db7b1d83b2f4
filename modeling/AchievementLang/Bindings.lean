/-!
# Bindings

Values by name, in the order in which the names were first bound. Binding a name again keeps
its place. The one view of bindings is `get?`: `get?_set` says what it finds after `set`.
-/

namespace AchievementLang

/-- Values by name. -/
abbrev Bindings (α : Type) := List (String × α)

namespace Bindings

variable {α : Type}

/-- The value bound to a name. -/
def get? : Bindings α → String → Option α
  | [], _ => none
  | (k, v) :: rest, name => if k = name then some v else get? rest name

/-- Binds a name, in its place if it is bound already and else at the end. -/
def set : Bindings α → String → α → Bindings α
  | [], name, value => [(name, value)]
  | (k, v) :: rest, name, value =>
    if k = name then (k, value) :: rest else (k, v) :: set rest name value

/-- The bindings made one after the other. -/
def ofPairs (pairs : List (String × α)) : Bindings α :=
  pairs.foldl (fun b (name, value) => b.set name value) []

/-- The name is bound. -/
def has (b : Bindings α) (name : String) : Bool := (b.get? name).isSome

@[simp] theorem get?_nil (name : String) : get? ([] : Bindings α) name = none := rfl

theorem get?_set (b : Bindings α) (name : String) (value : α) (other : String) :
    get? (set b name value) other = if name = other then some value else get? b other := by
  induction b with
  | nil => rfl
  | cons p rest ih =>
    obtain ⟨k, v⟩ := p
    simp only [set, get?]
    by_cases hk : k = name
    · subst hk
      by_cases ho : k = other <;> simp [get?, ho]
    · by_cases ho : k = other
      · subst ho
        simp [hk, get?, Ne.symm hk]
      · simp [hk, get?, ho, ih]

/-- A name that is not bound yet is bound at the end. -/
theorem set_of_not_mem {b : Bindings α} {name : String} (h : name ∉ b.map Prod.fst) (value : α) :
    set b name value = b ++ [(name, value)] := by
  induction b with
  | nil => rfl
  | cons p rest ih =>
    obtain ⟨hne, hrest⟩ : name ≠ p.1 ∧ name ∉ rest.map Prod.fst := by simpa using h
    rw [set, if_neg hne.symm, ih hrest, List.cons_append]

@[simp] theorem get?_set_self (b : Bindings α) (name : String) (value : α) :
    get? (set b name value) name = some value := by
  simp [get?_set]

/-- Only what a name is bound to last can be seen. -/
theorem set_set (b : Bindings α) (name : String) (value value' : α) :
    set (set b name value) name value' = set b name value' := by
  induction b with
  | nil => simp [set]
  | cons p rest ih =>
    obtain ⟨k, v⟩ := p
    by_cases hk : k = name <;> simp [set, hk, ih]

theorem mem_of_get? {b : Bindings α} {name : String} {value : α} (h : get? b name = some value) :
    (name, value) ∈ b := by
  induction b with
  | nil => cases h
  | cons p rest ih =>
    obtain ⟨k, v⟩ := p
    rw [get?] at h
    split at h
    next hk =>
      cases h
      exact hk ▸ List.mem_cons_self
    next => exact List.mem_cons_of_mem _ (ih h)

theorem mem_set {b : Bindings α} {name : String} {value : α}
    {p : String × α} (h : p ∈ set b name value) : p ∈ b ∨ p = (name, value) := by
  induction b with
  | nil => exact .inr (List.mem_singleton.1 h)
  | cons q rest ih =>
    obtain ⟨k, v⟩ := q
    rw [set] at h
    split at h
    next hk =>
      obtain rfl | h := List.mem_cons.1 h
      · exact .inr (by rw [hk])
      · exact .inl (List.mem_cons_of_mem _ h)
    next =>
      obtain rfl | h := List.mem_cons.1 h
      · exact .inl List.mem_cons_self
      · exact (ih h).imp_left (List.mem_cons_of_mem _)

theorem mem_ofPairs {pairs : List (String × α)} {p : String × α}
    (h : p ∈ ofPairs pairs) : p ∈ pairs := by
  have more : ∀ (pairs : List (String × α)) (b : Bindings α),
      p ∈ pairs.foldl (fun b (name, value) => set b name value) b → p ∈ b ∨ p ∈ pairs := by
    intro pairs
    induction pairs with
    | nil => exact fun b => .inl
    | cons q rest ih =>
      intro b h
      obtain h | h := ih _ h
      · obtain h | rfl := mem_set h
        · exact .inl h
        · exact .inr List.mem_cons_self
      · exact .inr (List.mem_cons_of_mem _ h)
  exact (more pairs [] h).resolve_left List.not_mem_nil

end Bindings

end AchievementLang
