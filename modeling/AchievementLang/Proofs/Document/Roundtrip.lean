import AchievementLang.Document.Basic
import AchievementLang.Proofs.Compile.Rows
import AchievementLang.Proofs.Eval.Run
import AchievementLang.Proofs.Json.Roundtrip

/-!
# Documents of compilations read back

A document is what its text reads as, if no achievement in it has negative points
(`Document.read_text`). Its triggers are in wire form, from which those that have been compiled can
be read (`Document.readAchievements_of`). So nothing is lost when what a script declares is written
and read again (`Script.read_document_of_compileText`).
-/

namespace AchievementLang

namespace Document

/-! ## Values that checks accept -/

section Accepts

variable {α : Type} {check : Check α} {j : Json} {a : α}

/-- Wherever it stands, the value is checked and found to be `a`. -/
def Accepts (check : Check α) (j : Json) (a : α) : Prop := ∀ path, check path j = .ok a

theorem accepts_string (s : String) : Accepts Check.string (.string s) s := fun _ => rfl

theorem accepts_integer (n : Int) : Accepts Check.integer (.int n) n := fun _ => rfl

theorem accepts_unsigned {n : Int} (h : 0 ≤ n) : Accepts Check.unsigned (.int n) n := by
  intro path
  have hcheck : Check.integer path (.int n) = .ok n := accepts_integer n path
  simp only [Check.unsigned, hcheck, if_neg (not_lt.2 h)]

/-- A value that may be missing is accepted if it is, and if it is not null when it is there. -/
theorem accepts_orNull {f : α → Json} (h : ∀ a, Accepts check (f a) a)
    (hnull : ∀ a, f a ≠ .null) (o : Option α) : Accepts check.orNull (orNullJson f o) o := by
  intro path
  cases o with
  | none => rfl
  | some a =>
    rw [orNullJson, Check.orNull, h a path]
    · rfl
    · exact hnull a

theorem accepts_list {f : α → Json} {as : List α} (h : ∀ a ∈ as, Accepts check (f a) a) :
    Accepts (Check.list check) (.array (as.map f)) as := by
  intro path
  have items (n : Nat) : Check.items check path n (as.map f) = .ok as := by
    induction as generalizing n with
    | nil => rfl
    | cons a as ih =>
      obtain ⟨ha, has⟩ := List.forall_mem_cons.1 h
      rw [List.map_cons, Check.items, ha, ih has]
      rfl
  exact items 0

variable {path : List PathStep} {key : String} {value : Json}

theorem required_eq_ok (h : Accepts check value a) (hkey : j.get? key = some value) :
    Check.required check path j key = .ok a := by
  rw [Check.required, hkey]
  exact h _

theorem optional_eq_ok {default : α} (h : Accepts check value a)
    (hkey : j.get? key = some value) : Check.optional check default path j key = .ok a := by
  rw [Check.optional, hkey]
  exact h _

end Accepts

/-! ## Entries and documents -/

theorem accepts_optionalInteger (o : Option Int) :
    Accepts Check.integer.orNull (orNullJson .int o) o :=
  accepts_orNull accepts_integer (fun _ h => by cases h) o

theorem accepts_optionalString (o : Option String) :
    Accepts Check.string.orNull (orNullJson .string o) o :=
  accepts_orNull accepts_string (fun _ h => by cases h) o

theorem accepts_achievementEntry {e : AchievementEntry} (h : 0 ≤ e.points) :
    Accepts AchievementEntry.check e.toJson e := by
  intro path
  simp only [AchievementEntry.check, AchievementEntry.toJson, Check.object]
  rw [optional_eq_ok (accepts_integer e.id) rfl, required_eq_ok (accepts_string e.title) rfl,
    required_eq_ok (accepts_string e.description) rfl, required_eq_ok (accepts_unsigned h) rfl,
    required_eq_ok (accepts_string e.trigger) rfl,
    optional_eq_ok (accepts_optionalInteger e.sourceLine) rfl]
  rfl

theorem accepts_leaderboardEntry (e : LeaderboardEntry) :
    Accepts LeaderboardEntry.check e.toJson e := by
  intro path
  simp only [LeaderboardEntry.check, LeaderboardEntry.toJson, Check.object]
  rw [required_eq_ok (accepts_string e.title) rfl,
    required_eq_ok (accepts_string e.description) rfl,
    required_eq_ok (accepts_string e.start) rfl, required_eq_ok (accepts_string e.cancel) rfl,
    required_eq_ok (accepts_string e.submit) rfl, required_eq_ok (accepts_string e.value) rfl,
    required_eq_ok (accepts_string e.format) rfl, required_eq_ok (accepts_string e.definition) rfl,
    optional_eq_ok (accepts_optionalInteger e.sourceLine) rfl]
  rfl

variable {d : Document}

/-- **A document is what it is checked to be**, if no achievement in it has negative points. -/
theorem accepts_document (h : ∀ e ∈ d.achievements, 0 ≤ e.points) : Accepts check d.toJson d := by
  intro path
  simp only [check, toJson, Check.object]
  rw [optional_eq_ok (accepts_optionalString d.title) rfl,
    optional_eq_ok (accepts_optionalInteger d.gameId) rfl,
    optional_eq_ok (accepts_list fun e he => accepts_achievementEntry (h e he)) rfl,
    optional_eq_ok (accepts_list fun e _ => accepts_leaderboardEntry e) rfl]
  rfl

theorem distinctKeys_orNullJson {α : Type} {f : α → Json} (h : ∀ a, (f a).DistinctKeys)
    (o : Option α) : (orNullJson f o).DistinctKeys := by
  cases o with
  | none => exact .null
  | some a => exact h a

theorem AchievementEntry.distinctKeys_toJson (e : AchievementEntry) : e.toJson.DistinctKeys := by
  have hline := distinctKeys_orNullJson (fun n => .number (.int n)) e.sourceLine
  refine .object (by simp) ?_
  simp only [List.forall_mem_cons]
  exact ⟨.number _, .string _, .string _, .number _, .string _, hline, by simp⟩

theorem LeaderboardEntry.distinctKeys_toJson (e : LeaderboardEntry) : e.toJson.DistinctKeys := by
  have hline := distinctKeys_orNullJson (fun n => .number (.int n)) e.sourceLine
  refine .object (by simp) ?_
  simp only [List.forall_mem_cons]
  exact ⟨.string _, .string _, .string _, .string _, .string _, .string _, .string _, .string _,
    hline, by simp⟩

theorem distinctKeys_toJson (d : Document) : d.toJson.DistinctKeys := by
  refine .object (by simp) ?_
  simp only [List.forall_mem_cons]
  refine ⟨distinctKeys_orNullJson .string d.title,
    distinctKeys_orNullJson (fun n => .number (.int n)) d.gameId, .array ?_, .array ?_, by simp⟩
  · exact List.forall_mem_map.2 fun e _ => e.distinctKeys_toJson
  · exact List.forall_mem_map.2 fun e _ => e.distinctKeys_toJson

/-- **Reading a document undoes writing it.** -/
theorem read_text (h : ∀ e ∈ d.achievements, 0 ≤ e.points) : read d.text = .ok d := by
  rw [read, text, Json.read?_pretty d.distinctKeys_toJson]
  exact accepts_document h []

/-- The lines of a document end alike, so its text is the same when it is read from a file. -/
theorem unifyLineEnds_text (d : Document) : Text.unifyLineEnds d.text.toList = d.text.toList :=
  Text.unifyLineEnds_of_not_mem (d.distinctKeys_toJson.return_not_mem_indented 0)

section Compiled

variable {c : Compilation} (h : ∀ a ∈ c.achievements, a.IsCompiled)

include h

/-- The document of what has been compiled is what its text reads as. -/
theorem read_text_of : read (of c).text = .ok (of c) :=
  read_text (List.forall_mem_map.2 fun a ha => (h a ha).1)

/-- Achievements that have been compiled can be rebuilt from their document. -/
theorem readAchievements_of : (of c).readAchievements = .ok c.achievements := by
  have entries (as : List Achievement) (has : ∀ a ∈ as, a.IsCompiled) :
      (as.map AchievementEntry.of).mapM AchievementEntry.achievement = .ok as := by
    induction as with
    | nil => rfl
    | cons a as ih =>
      obtain ⟨⟨-, t, e, -, -, htrigger⟩, has⟩ := List.forall_mem_cons.1 has
      have hread := Wire.readTrigger_eq_ok_iff.2
        (Wire.Reader.trigger_wire (Compile.wellFormed_trigger htrigger))
      have hentry : (AchievementEntry.of a).achievement = .ok a := by
        rw [AchievementEntry.achievement, AchievementEntry.of, hread]
        rfl
      rw [List.map_cons, List.mapM_cons, hentry, ih has]
      rfl
  exact entries c.achievements h

end Compiled

end Document

/-! ## Scripts -/

namespace Script

theorem isCompiled_of_compileText {limit : Int} {text : String} {c : Compilation}
    (h : compileText limit text = .ok c) : ∀ a ∈ c.achievements, a.IsCompiled := by
  unfold compileText at h
  split at h
  · cases h
  · exact (compile_eq_ok h).1

/-- **Nothing is lost when what a script declares is written and read again**: its achievements can
be rebuilt, and the document has its title, its number and the definitions of its leaderboards. -/
theorem read_document_of_compileText (limit : Int) (text : String) (c : Compilation)
    (h : compileText limit text = .ok c) :
    ∃ d, Document.read (Document.of c).text = .ok d ∧ d.readAchievements = .ok c.achievements ∧
      d.title = c.title ∧ d.gameId = c.gameId ∧
      d.leaderboards.map (·.definition) = c.leaderboards.map (·.definition.wire) := by
  have hcompiled := isCompiled_of_compileText h
  exact ⟨Document.of c, Document.read_text_of hcompiled, Document.readAchievements_of hcompiled,
    rfl, rfl, by simp [Document.of, Document.LeaderboardEntry.of]⟩

/-- Two achievements: one with an empty core, a sum and a hit count, whose title is a quotation
mark, and one without alternates. -/
def declaringScript : String :=
  "// G
achievement(\"\\\"\", \"\", 5, byte(1) - prev(word(2)) == 1 || once(byte(3) < 4), id = 12)
achievement(\"b\", \"\", 0, byte(1) == 1)"

set_option maxRecDepth 1024 in
theorem read_document_declaringScript :
    ∃ c, compileText defaultCallDepth declaringScript = .ok c ∧
      c.achievements.map (fun a => (a.title, a.trigger.wire)) =
        [("\"", "SB:d0x 000002_0xH000001=1S0xH000003<4.1."), ("b", "0xH000001=1")] ∧
      ∃ d, Document.read (Document.of c).text = .ok d ∧
        d.readAchievements = .ok c.achievements ∧ d.title = c.title ∧ d.gameId = c.gameId ∧
        d.leaderboards.map (·.definition) = c.leaderboards.map (·.definition.wire) := by
  have hchars : declaringScript.toList = _ := String.toList_ofList
  obtain ⟨c, hc, hdeclared⟩ := exists_compileText_eq_ok defaultCallDepth declaringScript
    (fun c => c.achievements.map fun a => (a.title, a.trigger.wire))
    (a := [("\"", "SB:d0x 000002_0xH000001=1S0xH000003<4.1."), ("b", "0xH000001=1")])
    (by
      rw [compileText, parse, hchars]
      decide +kernel)
  exact ⟨c, hc, hdeclared, read_document_of_compileText _ _ c hc⟩

end Script

end AchievementLang
