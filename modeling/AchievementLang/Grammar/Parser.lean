import AchievementLang.Error
import AchievementLang.Grammar.Automaton
import AchievementLang.Grammar.Tree

/-!
# Parsing

The shift-reduce parser. Words are read one at a time, each with the patterns that the current
state can use; a word then reduces what it completes and is shifted.

A script that is refused is refused at a word: either no pattern that is possible in the state
matches, or the word reduces to a state that has no use for it. The two cases list what was
expected at different times, before and after the reductions.
-/

namespace AchievementLang.Grammar

/-- A symbol on the stack. -/
structure Entry where
  /-- The state entered with the symbol. -/
  state : State
  meaning : Meaning
  /-- Where the symbol starts. -/
  start : Loc

/-- The symbols read so far, the last one first. -/
abbrev Stack := List Entry

/-- The current state. -/
def Stack.state : Stack → State
  | [] => 0
  | e :: _ => e.state

/-- Replaces the right side of a rule by its left side. A phrase starts where its first symbol
does; the empty one starts at `here`. -/
def reduce? (here : Loc) (r : Rule) (stack : Stack) : Option Stack :=
  let right := (stack.take r.size).reverse
  let below := stack.drop r.size
  let start := (right.head?.map (·.start)).getD here
  match r.build start (right.map (·.meaning)), goto? (Stack.state below) r.left with
  | some m, some s => some (⟨s, m, start⟩ :: below)
  | _, _ => none

/-- How many rules in a row can still rename the symbol that entered the state: largest for
words, less for each kind of phrase that contains the other. -/
def height : State → Nat
  -- words
  | 2 | 3 | 5 | 9 | 26 | 51 | 64 | 65 => 11
  -- atom
  | 14 => 10
  -- unary
  | 25 | 32 | 58 | 59 | 60 => 9
  -- product
  | 20 | 62 | 63 => 8
  -- sum
  | 24 | 61 => 7
  -- comparison
  | 15 => 6
  -- negation
  | 18 | 27 | 56 => 5
  -- conjunction
  | 12 | 57 => 4
  -- disjunction
  | 19 => 3
  -- expression, assignment, declaration, return
  | 13 | 16 | 17 | 21 | 55 => 2
  -- first statement, argument, parameter
  | 23 | 53 | 67 => 1
  | _ => 0

/-- A bound for the reductions that a stack allows before the next word is shifted. -/
def Stack.potential (stack : Stack) : Nat := 12 * stack.length + height stack.state

/-- What becomes of a stack when a word comes next. -/
inductive Settled
  /-- The word can be shifted into the state. -/
  | shift (target : State) (stack : Stack)
  /-- The script is complete. -/
  | complete (statements : List Expr)
  /-- The word has no use in the state. -/
  | refused (s : State)
  /-- The stack is not one of the parser's. -/
  | stuck

/-- Reduces what the terminal completes. Each reduction lowers the potential of the stack,
which is checked, so that the definition ends on any stack. -/
def settle (here : Loc) (t : Terminal) (stack : Stack) : Settled :=
  match (row stack.state).shifts.lookup t with
  | some target => .shift target stack
  | none =>
    match (row stack.state).reduction with
    | none => .refused stack.state
    | some (r, followers) =>
      if followers.contains t then
        match reduce? here r stack with
        | none => .stuck
        | some next =>
          match next with
          | ⟨22, .exprs es, _⟩ :: _ => .complete es
          | _ => if Stack.potential next < stack.potential then settle here t next else .stuck
      else .refused stack.state
termination_by stack.potential

/-! ## Reading words -/

/-- The place of the reader in the script. -/
structure Cursor where
  stack : Stack := []
  /-- Where the text that is left starts. -/
  here : Loc := ⟨1, 1⟩
  /-- Where the last word started. -/
  lastWord : Loc := ⟨1, 1⟩

/-- The labels of the terminals that a state could read, as listed when no pattern matches. -/
def readable (s : State) : List String :=
  ((expected s).filter fun t => t != .finish && t != .function && t != .ret).map (·.label)

/-- The error for a text that no pattern of the state matches. -/
def unreadable (c : Cursor) (cs : List Char) : Fault :=
  match scan (fun _ => true) cs with
  | some (_, text, _) =>
    ⟨.unexpectedToken (String.ofList text) (readable c.stack.state), some c.here⟩
  | none => ⟨.unexpectedCharacter (cs.headD ' '), some c.here⟩

/-- The error for a word that a state has no use for. -/
def useless (s : State) (text : String) (loc : Loc) : Fault :=
  ⟨.unexpectedToken text ((expected s).map (·.label)), some loc⟩

/-- Reads the word `text` of the terminal `t`. -/
def takeWord (c : Cursor) (t : Terminal) (text : List Char) : Except Fault Cursor :=
  let token : Token := ⟨t, String.ofList text, c.here⟩
  match settle c.here t c.stack with
  | .shift target stack =>
    .ok { stack := ⟨target, .token token, c.here⟩ :: stack, here := c.here.after text,
          lastWord := c.here }
  | .refused s => .error (useless s token.text c.here)
  | .complete _ | .stuck => .error ⟨.unexpectedEnd, none⟩

/-- Reads the end of the script. -/
def takeEnd (c : Cursor) : Except Fault (List Expr) :=
  match settle c.lastWord .finish c.stack with
  | .complete es => .ok es
  | .refused s => .error (useless s "" c.lastWord)
  | .shift .. | .stuck => .error ⟨.unexpectedEnd, none⟩

/-- Reads what a pattern matched. -/
def takeMatch (c : Cursor) (p : Pattern) (text : List Char) : Except Fault Cursor :=
  match p with
  | .word t => takeWord c (retype (actionable c.stack.state) t (String.ofList text)) text
  | _ => .ok { c with here := c.here.after text }

/-- The statements of a script that goes on with the text. A match takes at least one
character, which is checked, so that the definition ends whatever the patterns are. -/
def parseFrom (c : Cursor) (cs : List Char) : Except Fault (List Expr) :=
  if cs.isEmpty then takeEnd c
  else
    match scan (actionable c.stack.state) cs with
    | none => .error (unreadable c cs)
    | some (p, text, rest) =>
      match takeMatch c p text with
      | .error e => .error e
      | .ok next =>
        if _h : rest.length < cs.length then parseFrom next rest
        else .error ⟨.unexpectedEnd, none⟩
termination_by cs.length

/-- The statements of a script. -/
def parseStatements (cs : List Char) : Except Fault (List Expr) := parseFrom {} cs

end AchievementLang.Grammar
