import AchievementLang.CommandLine.Commands
import AchievementLang.Proofs.Diff.Unchanged
import AchievementLang.Proofs.Document.Roundtrip

/-!
# A script compared with its own document

A run of the command line that succeeds gives a value and adds to what is printed, logged and
written (`Console.Yields`). What a run adds is made of what its parts add, so the output of a
command is read off its steps.

Among the achievements of a script each finds itself, whatever numbers and titles they share
(`matchAll_self`), and does not differ from itself. The document that is written for a script gives
its achievements again. So comparing the two, in either order, prints that every achievement is
unchanged (`Command.compare_compiled`).
-/

namespace AchievementLang.CommandLine

/-! ## Matching -/

/-- The first of the candidates is found by its number or its title. -/
theorem match?_cons_self (a : Achievement) (candidates : List Achievement) :
    match? a (a :: candidates) = some a := by
  by_cases h : a.id = 0
  · have hnone : (a :: candidates).find? (fun c => a.id ≠ 0 ∧ a.id = c.id) = none := by simp [h]
    rw [match?, hnone, Option.none_or, List.find?_cons_of_pos (by simp)]
  · rw [match?, List.find?_cons_of_pos (by simp [h]), Option.some_or]

/-- **Each of the achievements is matched with itself**, whatever numbers and titles they share. -/
theorem matchAll_self (as : List Achievement) : matchAll as as = as.map fun a => .both a a := by
  induction as with
  | nil => rfl
  | cons a as ih =>
    rw [matchAll, match?_cons_self]
    dsimp only
    rw [List.erase_cons_head, ih, List.map_cons]

theorem compareLines_self (format : Wire.NumberFormat) (leftName rightName : String)
    (as : List Achievement) :
    compareLines format leftName rightName as as = as.map fun a => "Unchanged: " ++ a.title := by
  have hlines (a : Achievement) :
      findingLines format leftName rightName (.both a a) = ["Unchanged: " ++ a.title] := by
    simp [findingLines, diffLines, Diff.isModified_self]
  rw [compareLines, matchAll_self, List.flatMap_map, List.map_eq_flatMap]
  simp only [hlines]

/-! ## Runs that succeed -/

/-- What is printed, logged and written, one after the other. -/
def Output.append (o more : Output) : Output where
  stdout := o.stdout ++ more.stdout
  stderr := o.stderr ++ more.stderr
  written := o.written ++ more.written

namespace Console

variable {α β : Type} {x : Console α} {f : α → Console β} {a : α} {b : β} {out more : Output}

/-- The run gives the value and adds the output, whatever has been put out before. -/
def Yields (x : Console α) (a : α) (out : Output) : Prop :=
  ∀ o, x.run.run o = (.ok a, o.append out)

theorem yields_pure (a : α) : Yields (pure a) a {} := by
  intro o
  show (Except.ok a, o) = _
  simp [Output.append]

theorem Yields.bind (hx : Yields x a out) (hf : Yields (f a) b more) :
    Yields (x >>= f) b (out.append more) := by
  intro o
  have hrun : (x >>= f).run.run o = (f a).run.run (o.append out) := by
    show (ExceptT.bindCont f (x.run.run o).1).run (x.run.run o).2 = _
    rw [hx o]
    rfl
  rw [hrun, hf]
  simp [Output.append, String.append_assoc]

theorem Yields.run_empty (h : Yields x a out) :
    x.run.run {} = (.ok a, out) := by
  rw [h]
  simp [Output.append]

theorem yields_print (line : String) :
    Yields (print line) () { stdout := Text.plain line ++ "\n" } := by
  intro o
  show (Except.ok (), _) = _
  simp [Output.append, String.append_assoc]

/-- Lines are printed one after the other. -/
theorem yields_forM_print (lines : List String) :
    Yields (lines.forM print) ()
      { stdout := String.join (lines.map fun line => Text.plain line ++ "\n") } := by
  induction lines with
  | nil => exact yields_pure ()
  | cons line lines ih =>
    have h := (yields_print line).bind (f := fun _ => lines.forM print) ih
    simpa [Output.append] using h

theorem yields_readFile {files : Files} {path text : String} (h : files.read path = .ok text) :
    Yields (readFile files path) (String.ofList (Text.unifyLineEnds text.toList)) {} := by
  rw [readFile, h]
  exact yields_pure _

theorem yields_writeFile {files : Files} {path : String} (text : String)
    (h : files.write path = .ok ()) :
    Yields (writeFile files path text) () { written := [(path, text)] } := by
  intro o
  rw [writeFile, h]
  show (Except.ok (), _) = _
  simp [Output.append]

/-! ### The log -/

/-- The run gives the value and only writes to the log, and nothing if the level is above that of
information. -/
def Logs (ctx : Context) (x : Console α) (a : α) : Prop :=
  ∃ text, Yields x a { stderr := text } ∧ (LogLevel.info.rank < ctx.level.rank → text = "")

variable {ctx : Context}

theorem logs_pure (a : α) : Logs ctx (pure a) a := ⟨"", yields_pure a, fun _ => rfl⟩

theorem Logs.bind (hx : Logs ctx x a) (hf : Logs ctx (f a) b) : Logs ctx (x >>= f) b := by
  obtain ⟨t, ht, hquiet⟩ := hx
  obtain ⟨u, hu, hquiet'⟩ := hf
  refine ⟨t ++ u, ?_, fun h => by rw [hquiet h, hquiet' h]; rfl⟩
  simpa [Output.append] using ht.bind hu

theorem logs_log {e : LogEntry} (h : e.level = .debug ∨ e.level = .info) :
    Logs ctx (log ctx e) () := by
  have hrank : e.level.rank ≤ LogLevel.info.rank := by
    obtain h | h := h <;> simp [h, LogLevel.rank]
  by_cases hlevel : ctx.level.rank ≤ e.level.rank
  · refine ⟨e.line ++ "\n", fun o => ?_, fun habove => by omega⟩
    rw [log, if_pos hlevel]
    show (Except.ok (), _) = _
    simp [Output.append, String.append_assoc]
  · rw [log, if_neg hlevel]
    exact logs_pure ()

theorem level_ofEvent? {event : Event} {e : LogEntry} (h : LogEntry.ofEvent? event = some e) :
    e.level = .debug ∨ e.level = .info := by
  cases event <;> cases h <;> simp

theorem logs_logEvents (events : List Event) : Logs ctx (logEvents ctx events) () := by
  have entries (es : List LogEntry) (hes : ∀ e ∈ es, e.level = .debug ∨ e.level = .info) :
      Logs ctx (es.forM (log ctx)) () := by
    induction es with
    | nil => exact logs_pure ()
    | cons e es ih =>
      obtain ⟨he, hes⟩ := List.forall_mem_cons.1 hes
      exact (logs_log he).bind (f := fun _ => es.forM (log ctx)) (ih hes)
  rw [logEvents]
  split
  · refine entries _ fun e he => ?_
    obtain ⟨event, -, hevent⟩ := List.mem_filterMap.1 he
    exact level_ofEvent? hevent
  · exact logs_pure ()

/-- **A script that compiles is compiled from its file**, and only the log is written to. -/
theorem logs_compile {path text : String} {c : Compilation}
    (hread : ctx.files.read path = .ok text)
    (hcompiles : Script.compileText ctx.settings.callDepth
      (String.ofList (Text.unifyLineEnds text.toList)) = .ok c) :
    Logs ctx (compile ctx path) c := by
  have hfile :
      Logs ctx (readFile ctx.files path) (String.ofList (Text.unifyLineEnds text.toList)) :=
    ⟨"", yields_readFile hread, fun _ => rfl⟩
  unfold Script.compileText at hcompiles
  split at hcompiles
  · cases hcompiles
  next script hparse =>
    unfold compile
    refine hfile.bind ?_
    dsimp only
    rw [hparse]
    dsimp only
    refine (logs_log (.inl rfl)).bind ((logs_logEvents _).bind ?_)
    rw [hcompiles]
    exact (logs_log (.inr rfl)).bind (logs_pure c)

end Console

/-! ## Reading either side -/

section Sides

open Console

variable {ctx : Context} {path : String}

theorem logs_achievementsIn_script {text : String} {c : Compilation}
    (hname : path.endsWith ".json" = false) (hread : ctx.files.read path = .ok text)
    (hcompiles : Script.compileText ctx.settings.callDepth
      (String.ofList (Text.unifyLineEnds text.toList)) = .ok c) :
    Logs ctx (achievementsIn ctx path) c.achievements := by
  rw [achievementsIn, hname, if_neg Bool.false_ne_true]
  exact (logs_compile hread hcompiles).bind (logs_pure _)

theorem logs_achievementsIn_document {d : Document} {as : List Achievement}
    (hname : path.endsWith ".json" = true) (hread : ctx.files.read path = .ok d.text)
    (hdocument : Document.read d.text = .ok d) (has : d.readAchievements = .ok as) :
    Logs ctx (achievementsIn ctx path) as := by
  have hfile := yields_readFile hread
  rw [d.unifyLineEnds_text, String.ofList_toList] at hfile
  rw [achievementsIn, hname, if_pos rfl]
  refine Logs.bind ⟨"", hfile, fun _ => rfl⟩ ?_
  rw [documentAchievements, hdocument]
  dsimp only
  rw [has]
  exact logs_pure as

/-- **The same achievements on both sides are unchanged.** -/
theorem yields_compareFiles {left right : String} {as : List Achievement}
    (hleft : Logs ctx (achievementsIn ctx left) as)
    (hright : Logs ctx (achievementsIn ctx right) as) (format : Wire.NumberFormat) :
    ∃ out, Yields (compareFiles ctx format left right) () out ∧
      out.stdout = String.join (as.map fun a => Text.plain ("Unchanged: " ++ a.title) ++ "\n") ∧
      out.written = [] ∧ (LogLevel.info.rank < ctx.level.rank → out.stderr = "") := by
  obtain ⟨t, ht, hquiet⟩ := hright
  obtain ⟨u, hu, hquiet'⟩ := hleft
  have hprint := yields_forM_print (compareLines format left right as as)
  refine ⟨_, ht.bind (hu.bind hprint), ?_, ?_, fun h => ?_⟩
  · simp [Output.append, compareLines_self, Function.comp_def]
  · simp [Output.append]
  · simp [Output.append, hquiet h, hquiet' h]

end Sides

/-! ## The commands -/

/-- The files after some have been written. -/
def Files.after (files : Files) (written : List (String × String)) : Files where
  read path :=
    match written.reverse.lookup path with
    | some text => .ok text
    | none => files.read path
  write := files.write

namespace Command

open Console

/-- The command writes the document of the script. -/
theorem yields_compile {ctx : Context} {given : Given} {script out text : String}
    {c : Compilation} (hread : ctx.files.read script = .ok text)
    (hcompiles : Script.compileText ctx.settings.callDepth
      (String.ofList (Text.unifyLineEnds text.toList)) = .ok c)
    (hwrite : ctx.files.write out = .ok ()) (hoperands : given.operands = [script])
    (hout : (given.value? "--out").getD "out.json" = out) :
    ∃ o, Yields (compile.run ctx given) () o ∧ o.written = [(out, (Document.of c).text)] := by
  obtain ⟨t, ht, -⟩ := logs_compile hread hcompiles
  have hoperand : given.operands.getD 0 "" = script := by rw [hoperands]; rfl
  unfold run
  dsimp only
  rw [hoperand, hout]
  refine ⟨_, ht.bind ((yields_writeFile _ hwrite).bind (yields_print _)), ?_⟩
  simp [Output.append]

theorem yields_compare {ctx : Context} {given : Given} {left right : String}
    {as : List Achievement} (hleft : Logs ctx (achievementsIn ctx left) as)
    (hright : Logs ctx (achievementsIn ctx right) as) (hoperands : given.operands = [left, right]) :
    ∃ out, Yields (compare.run ctx given) () out ∧
      out.stdout = String.join (as.map fun a => Text.plain ("Unchanged: " ++ a.title) ++ "\n") ∧
      out.written = [] ∧ (LogLevel.info.rank < ctx.level.rank → out.stderr = "") := by
  have hoperand : given.operands.getD 0 "" = left ∧ given.operands.getD 1 "" = right := by
    rw [hoperands]
    exact ⟨rfl, rfl⟩
  unfold run
  dsimp only
  rw [hoperand.1, hoperand.2]
  exact yields_compareFiles hleft hright _

/-- **A script compared with the document that was written for it is unchanged.** In either order,
every achievement is reported as unchanged, one line each in the order of the script, and nothing
else is printed or written. -/
theorem compare_compiled (ctx : Context) (script out text : String) (c : Compilation)
    (built given : Given) (hread : ctx.files.read script = .ok text)
    (hcompiles : Script.compileText ctx.settings.callDepth
      (String.ofList (Text.unifyLineEnds text.toList)) = .ok c)
    (hwrite : ctx.files.write out = .ok ())
    (hnames : script.endsWith ".json" = false ∧ out.endsWith ".json" = true)
    (hbuilt : built.operands = [script] ∧ (built.value? "--out").getD "out.json" = out)
    (hgiven : given.operands = [script, out] ∨ given.operands = [out, script]) :
    ∃ first second : Output, (compile.run ctx built).run.run {} = (.ok (), first) ∧
      (compare.run { ctx with files := ctx.files.after first.written } given).run.run {} =
        (.ok (), second) ∧
      second.stdout =
        String.join (c.achievements.map fun a => Text.plain ("Unchanged: " ++ a.title) ++ "\n") ∧
      second.written = [] ∧ (LogLevel.info.rank < ctx.level.rank → second.stderr = "") := by
  obtain ⟨first, hfirst, hwritten⟩ := yields_compile hread hcompiles hwrite hbuilt.1 hbuilt.2
  refine ⟨first, ?_⟩
  let after : Context := { ctx with files := ctx.files.after first.written }
  have hne : script ≠ out := by
    rintro rfl
    exact Bool.false_ne_true (hnames.1.symm.trans hnames.2)
  have hscript : after.files.read script = .ok text := by
    simp [after, Files.after, hwritten, hne, hread]
  have hout : after.files.read out = .ok (Document.of c).text := by
    simp [after, Files.after, hwritten]
  have hcompiled := Script.isCompiled_of_compileText hcompiles
  have fromScript : Logs after (achievementsIn after script) c.achievements :=
    logs_achievementsIn_script hnames.1 hscript hcompiles
  have fromDocument : Logs after (achievementsIn after out) c.achievements :=
    logs_achievementsIn_document hnames.2 hout (Document.read_text_of hcompiled)
      (Document.readAchievements_of hcompiled)
  obtain h | h := hgiven
  · obtain ⟨second, hsecond, hprinted⟩ := yields_compare fromScript fromDocument h
    exact ⟨second, hfirst.run_empty, hsecond.run_empty, hprinted⟩
  · obtain ⟨second, hsecond, hprinted⟩ := yields_compare fromDocument fromScript h
    exact ⟨second, hfirst.run_empty, hsecond.run_empty, hprinted⟩

/-- Achievements that share their number or their title. -/
def sharingScript : String :=
  "achievement(\"t\", \"\", 0, byte(1) == 1, id = 3)
achievement(\"u\", \"\", 0, byte(2) == 1, id = 3)
achievement(\"t\", \"\", 0, byte(1) == 1)"

/-- The script is in a file, and every file can be written. -/
def sharingContext : Context where
  settings := {}
  level := .warning
  files :=
    { read := fun path => if path = "a.txt" then .ok sharingScript else .error .missing
      write := fun _ => .ok () }

set_option maxRecDepth 1024 in
theorem compare_compiled_sharingScript :
    ∃ first second : Output,
      (compile.run sharingContext { operands := ["a.txt"] }).run.run {} = (.ok (), first) ∧
      (compare.run { sharingContext with files := sharingContext.files.after first.written }
        { operands := ["out.json", "a.txt"] }).run.run {} = (.ok (), second) ∧
      second.stdout = "Unchanged: t\nUnchanged: u\nUnchanged: t\n" ∧ second.written = [] ∧
      second.stderr = "" := by
  have hchars : sharingScript.toList = _ := String.toList_ofList
  obtain ⟨c, hc, htitles⟩ := Script.exists_compileText_eq_ok defaultCallDepth
    (String.ofList (Text.unifyLineEnds sharingScript.toList))
    (fun c => c.achievements.map (·.title)) (a := ["t", "u", "t"])
    (by
      rw [Script.compileText, Script.parse, String.toList_ofList, hchars]
      decide +kernel)
  obtain ⟨first, second, hfirst, hsecond, hstdout, hwritten, hstderr⟩ :=
    compare_compiled sharingContext "a.txt" "out.json" sharingScript c { operands := ["a.txt"] }
      { operands := ["out.json", "a.txt"] } rfl hc rfl (by decide +kernel) ⟨rfl, rfl⟩ (.inr rfl)
  refine ⟨first, second, hfirst, hsecond, ?_, hwritten, hstderr (by decide)⟩
  have hlines : c.achievements.map (fun a => Text.plain ("Unchanged: " ++ a.title) ++ "\n") =
      ["t", "u", "t"].map fun title => Text.plain ("Unchanged: " ++ title) ++ "\n" := by
    rw [← htitles, List.map_map]
    rfl
  rw [hstdout, hlines]
  decide +kernel

end Command

end AchievementLang.CommandLine
