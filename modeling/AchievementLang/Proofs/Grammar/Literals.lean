import AchievementLang.Proofs.Grammar.Roundtrip
import AchievementLang.Proofs.Grammar.Twins

/-!
# Literals of any text

A string literal can say any text: a backslash before a backslash or a quote keeps it, and a line
feed is written as `\n` (`Grammar.escaped`). The literal ends at its own closing quote, whatever the
text is and whatever follows (`Grammar.scans_literal`), and it is read back as the text
(`Grammar.literalText_literal`). Both go character by character: what is written for a character is
passed over together and read together.

In a script the literal can stand for the number that is assigned first. It ends on the line on
which it starts, so that all that follows stands where it stood, and it is read as before
(`Script.parse_escaped`).
-/

namespace AchievementLang

namespace Grammar

/-- What is written in a string literal for a character. -/
def escape (c : Char) : List Char :=
  if c = '\\' then ['\\', '\\']
  else if c = '"' then ['\\', '"']
  else if c = '\n' then ['\\', 'n']
  else [c]

/-- What is written between the quotes for a text. -/
def escaped (s : String) : String := String.ofList (s.toList.flatMap escape)

/-- The characters of the literal that writes a text. -/
def literal (s : String) : List Char := '"' :: s.toList.flatMap escape ++ ['"']

/-- A character is written as itself, if no backslash is needed. -/
theorem escape_cases (c : Char) :
    c = '\\' ∨ c = '"' ∨ c = '\n' ∨
      (c ≠ '\\' ∧ c ≠ '"' ∧ c ≠ '\n' ∧ escape c = [c]) := by
  unfold escape
  split_ifs <;> simp_all

/-- What is written for a character does not end the literal. -/
theorem stringBody_escape (c : Char) (cs : List Char) :
    stringBody (escape c ++ cs) =
      (stringBody cs).map fun (text, last) => (escape c ++ text, last) := by
  obtain rfl | rfl | rfl | ⟨hslash, hquote, hline, hc⟩ := escape_cases c
  · rfl
  · rfl
  · rfl
  · rw [hc, List.singleton_append, stringBody]
    · rfl
    all_goals simp_all

theorem unescape_escape (c : Char) (cs : List Char) :
    unescape (escape c ++ cs) = c :: unescape cs := by
  obtain rfl | rfl | rfl | ⟨hslash, -, -, hc⟩ := escape_cases c
  · rfl
  · rfl
  · rfl
  · rw [hc, List.singleton_append, unescape]
    all_goals simp_all

/-- The literal ends at its own closing quote. -/
theorem stringBody_flatMap_escape (cs rest : List Char) :
    stringBody (cs.flatMap escape ++ '"' :: rest) = some (cs.flatMap escape ++ ['"'], rest) := by
  induction cs with
  | nil => rfl
  | cons c cs ih =>
    rw [List.flatMap_cons, List.append_assoc, stringBody_escape, ih, List.append_assoc]
    rfl

theorem unescape_flatMap_escape (cs : List Char) : unescape (cs.flatMap escape) = cs := by
  induction cs with
  | nil => rfl
  | cons c cs ih => rw [List.flatMap_cons, unescape_escape, ih]

/-- **A literal is read as one word**, whatever text it writes and whatever follows. -/
theorem scans_literal (s : String) (rest : List Char) : Scans .string (literal s) rest := by
  have htext : literal s ++ rest = '"' :: (s.toList.flatMap escape ++ '"' :: rest) := by
    simp [literal]
  refine scans_sign (by decide) ?_ ?_
  · rw [htext]
    rfl
  · rw [htext, matchTerminal_string, stringBody_flatMap_escape]
    rfl

/-- **The literal of a text is read back as the text.** -/
theorem literalText_literal (s : String) : literalText (String.ofList (literal s)) = s := by
  rw [literalText, String.toList_ofList, literal]
  simp [unescape_flatMap_escape]

/-- The literal stands on one line. -/
theorem not_mem_literal (s : String) : '\n' ∉ literal s := by
  have hescape (c : Char) : '\n' ∉ escape c := by
    obtain rfl | rfl | rfl | ⟨-, -, hline, hc⟩ := escape_cases c
    · decide
    · decide
    · decide
    · rw [hc]
      simpa using hline.symm
  simp [literal, hescape]

/-! ## Assignments -/

theorem line_after {cs : List Char} (h : '\n' ∉ cs) (l : Loc) : (l.after cs).line = l.line := by
  induction cs generalizing l with
  | nil => rfl
  | cons c cs ih =>
    obtain ⟨hc, hcs⟩ := not_or.1 (List.mem_cons.not.1 h)
    rw [Loc.after]
    · exact ih hcs _
    · exact fun heq => hc heq.symm

/-- Where a line started does not matter for the next one. -/
theorem parseFrom_newline (st : Stack) {here here' : Loc} (hline : here.line = here'.line)
    (last : Loc) (cs : List Char) :
    parseFrom ⟨st, here, last⟩ ('\n' :: cs) = parseFrom ⟨st, here', last⟩ ('\n' :: cs) := by
  have hbreak : isSeparator '\n' = true := rfl
  rw [parseFrom_blanks _ hbreak, parseFrom_blanks _ hbreak, List.takeWhile_cons_of_pos hbreak,
    Loc.after, Loc.after, hline]

/-- The stack of a script that starts by assigning a value to `x`, in front of the value. -/
def assigning : Stack :=
  [⟨33, .token ⟨.equal, "=", ⟨1, 3⟩⟩, ⟨1, 3⟩⟩, ⟨9, .token ⟨.name, "x", ⟨1, 1⟩⟩, ⟨1, 1⟩⟩]

/-- A script that starts by assigning a word to `x` is read on from the end of the line. -/
theorem parseStatements_assigning {t : Terminal} {text rest : List Char} {k : State}
    (hscan : Scans t text ('\n' :: rest)) (htext : text ≠ []) (ht : t ≠ .name)
    (hshift : (row assigning.state).shifts.lookup t = some k) (hline : '\n' ∉ text) :
    parseStatements ('x' :: ' ' :: '=' :: ' ' :: (text ++ '\n' :: rest)) =
      parseFrom ⟨⟨k, .token ⟨t, String.ofList text, ⟨1, 5⟩⟩, ⟨1, 5⟩⟩ :: assigning, ⟨1, 5⟩, ⟨1, 5⟩⟩
        ('\n' :: rest) := by
  have hname : parseFrom {} ("x".toList ++ ' ' :: '=' :: ' ' :: (text ++ '\n' :: rest)) =
      parseFrom ⟨assigning.tail, ⟨1, 2⟩, ⟨1, 1⟩⟩ (' ' :: '=' :: ' ' :: (text ++ '\n' :: rest)) :=
    parseFrom_word (scans_name isIdentifier_x (endsWord_cons rfl _)) (by decide)
      (fun _ => isIdentifier_x.not_keyword) (by decide) _ (settle_shift rfl)
  have hequal : parseFrom ⟨assigning.tail, ⟨1, 3⟩, ⟨1, 1⟩⟩
        (['='] ++ ' ' :: (text ++ '\n' :: rest)) =
      parseFrom ⟨assigning, ⟨1, 4⟩, ⟨1, 3⟩⟩ (' ' :: (text ++ '\n' :: rest)) :=
    parseFrom_word (scans_equal _) (by simp) nofun (by decide) _ (settle_shift rfl)
  have hvalue : parseFrom ⟨assigning, ⟨1, 5⟩, ⟨1, 3⟩⟩ (text ++ '\n' :: rest) =
      parseFrom ⟨⟨k, .token ⟨t, String.ofList text, ⟨1, 5⟩⟩, ⟨1, 5⟩⟩ :: assigning,
        Loc.after ⟨1, 5⟩ text, ⟨1, 5⟩⟩ ('\n' :: rest) :=
    parseFrom_word hscan htext (fun h => absurd h ht) (actionable_of_shift hshift) _
      (settle_shift hshift)
  calc parseStatements ('x' :: ' ' :: '=' :: ' ' :: (text ++ '\n' :: rest))
    _ = _ := hname
    _ = _ := parseFrom_blank _ ⟨1, 2⟩ _ _
    _ = _ := hequal
    _ = _ := parseFrom_blank _ ⟨1, 4⟩ _ _
    _ = _ := hvalue
    _ = _ := parseFrom_newline _ (line_after hline ⟨1, 5⟩) _ _

/-- The literal of a text is read in place of the number 0. -/
theorem parseStatements_literal (s : String) {cs : List Char} {es : List Expr}
    (h : parseStatements ('x' :: ' ' :: '=' :: ' ' :: '0' :: '\n' :: cs) = .ok es) :
    ∃ es', parseStatements ('x' :: ' ' :: '=' :: ' ' :: (literal s ++ '\n' :: cs)) = .ok es' ∧
      Stands (.integer 0 (some ⟨1, 5⟩)) (.string s (some ⟨1, 5⟩)) [] (.exprs es) (.exprs es') := by
  have hzero : Scans .decimal ['0'] ('\n' :: cs) :=
    scans_decimal (by simp) (by simp) (endsWord_cons rfl cs)
  have htwins : Twins (.integer 0 (some ⟨1, 5⟩)) (.string s (some ⟨1, 5⟩))
      (⟨2, .token ⟨.decimal, "0", ⟨1, 5⟩⟩, ⟨1, 5⟩⟩ :: assigning)
      (⟨3, .token ⟨.string, String.ofList (literal s), ⟨1, 5⟩⟩, ⟨1, 5⟩⟩ :: assigning) :=
    .word (by rfl) (by rw [literalText_literal]) _ _ _ _ _
  have hread := parseStatements_assigning hzero (by simp) nofun rfl (by decide)
  rw [List.singleton_append, h] at hread
  rw [parseStatements_assigning (scans_literal s _) (by simp [literal]) nofun rfl
    (not_mem_literal s)]
  exact Twins.parseFrom htwins hread.symm

end Grammar

namespace Script

open Grammar

theorem parseStatements_of_parse {text : String} {script : Script} (h : parse text = .ok script) :
    parseStatements text.toList = .ok script.statements ∧
      misplacedEllipsisIn? script.statements = none := by
  unfold parse at h
  split at h
  next => cases h
  next statements hstatements =>
    split at h
    next => cases h
    next hellipsis =>
      cases h
      exact ⟨hstatements, hellipsis⟩

/-- **Every text is read back from its literal**, whatever follows the literal: a script that starts
by assigning the literal is read like one that starts by assigning the number 0, and assigns the
text. -/
theorem parse_escaped (s r : String) {script : Script} {l l' : Option Loc} {rest : List Expr}
    (h : parse ("x = 0\n" ++ r) = .ok script)
    (hfirst : script.statements = .assign "x" (.integer 0 l) l' :: rest) :
    ∃ script', parse ("x = \"" ++ escaped s ++ "\"\n" ++ r) = .ok script' ∧
      script'.statements = .assign "x" (.string s l) l' :: rest := by
  have hnumber : ("x = 0\n" ++ r).toList =
      'x' :: ' ' :: '=' :: ' ' :: '0' :: '\n' :: r.toList := by
    rw [String.toList_append]
    rfl
  have hliteral : ("x = \"" ++ escaped s ++ "\"\n" ++ r).toList =
      'x' :: ' ' :: '=' :: ' ' :: (literal s ++ '\n' :: r.toList) := by
    simp [String.toList_append, escaped, literal]
  obtain ⟨hparse, hellipsis⟩ := parseStatements_of_parse h
  rw [hnumber] at hparse
  obtain ⟨es', hparse', hes'⟩ := parseStatements_literal s hparse
  rw [hfirst] at hes' hellipsis
  cases hes' with
  | statements hassigns =>
    obtain ⟨⟨⟩, rfl⟩ := hassigns _ _ _ rfl rfl
    exact parse_eq_ok (by rw [hliteral, hparse']) hellipsis

/-- A backslash, a quote, what starts a comment, and a line feed. -/
def awkwardText : String := "\\\"//\n"

/-- A comment with a quote in it, and one more literal. -/
def quotingRest : String := "// \"\ny = \"b\""

/-- The script starts by assigning the number 0 to `x`. -/
def startsWithZero (script : Script) : Bool :=
  match script.statements with
  | .assign x (.integer n _) _ :: _ => x == "x" && n == 0
  | _ => false

theorem exists_of_startsWithZero {script : Script} (h : script.startsWithZero = true) :
    ∃ l l' rest, script.statements = .assign "x" (.integer 0 l) l' :: rest := by
  unfold startsWithZero at h
  split at h
  next x n l l' rest hstatements =>
    obtain ⟨rfl, rfl⟩ : x = "x" ∧ n = 0 := by simpa using h
    exact ⟨l, l', rest, hstatements⟩
  next => cases h

/-- The text is read back in front of the quotes that follow. -/
theorem parse_escaped_awkwardText :
    escaped awkwardText = "\\\\\\\"//\\n" ∧ ∃ script l l' rest script',
      parse ("x = 0\n" ++ quotingRest) = .ok script ∧
        script.statements = .assign "x" (.integer 0 l) l' :: rest ∧
        parse ("x = \"" ++ escaped awkwardText ++ "\"\n" ++ quotingRest) = .ok script' ∧
        script'.statements = .assign "x" (.string awkwardText l) l' :: rest := by
  have hline : "x = 0\n".toList = _ := String.toList_ofList
  have hrest : quotingRest.toList = _ := String.toList_ofList
  have hzero : (parse ("x = 0\n" ++ quotingRest)).toOption.any startsWithZero = true := by
    rw [parse, String.toList_append, hline, hrest]
    decide +kernel
  cases hparse : parse ("x = 0\n" ++ quotingRest) with
  | error f =>
    rw [hparse] at hzero
    cases hzero
  | ok script =>
    rw [hparse] at hzero
    obtain ⟨l, l', rest, hfirst⟩ := exists_of_startsWithZero hzero
    obtain ⟨script', hparse', hfirst'⟩ := parse_escaped awkwardText quotingRest hparse hfirst
    exact ⟨by decide, script, l, l', rest, script', rfl, hfirst, hparse', hfirst'⟩

end Script

end AchievementLang
