/-!
# Control sequences

Characters that steer a terminal instead of being shown: an escape character with an opening
bracket, then parameters, intermediate characters, and one final character that ends the
sequence. `dropControls` leaves out every complete sequence and keeps everything else, so an
opening stays that no final character ends.
-/

namespace AchievementLang.Text

/-- The characters of the parameters: digits, and the marks between them. -/
def isParameter (c : Char) : Bool := 0x30 ≤ c.toNat && c.toNat ≤ 0x3f

/-- The characters that may stand between the parameters and the final one. -/
def isIntermediate (c : Char) : Bool := 0x20 ≤ c.toNat && c.toNat ≤ 0x2f

/-- The characters that end a sequence. -/
def isFinal (c : Char) : Bool := 0x40 ≤ c.toNat && c.toNat ≤ 0x7e

/-- The text from where a sequence must end, after its opening has been read. -/
def afterParameters (cs : List Char) : List Char :=
  (cs.dropWhile isParameter).dropWhile isIntermediate

theorem length_afterParameters_le (cs : List Char) :
    (afterParameters cs).length ≤ cs.length :=
  Nat.le_trans (List.dropWhile_suffix _).length_le (List.dropWhile_suffix _).length_le

/-- The characters that do not belong to a control sequence. -/
def dropControls : List Char → List Char
  | [] => []
  | '\x1b' :: '[' :: rest =>
    match _h : afterParameters rest with
    | [] => '\x1b' :: '[' :: dropControls rest
    | c :: after =>
      if isFinal c then dropControls after else '\x1b' :: '[' :: dropControls rest
  | c :: rest => c :: dropControls rest
termination_by cs => cs.length
decreasing_by
  all_goals simp only [List.length_cons]
  case _ => omega
  case _ =>
    have := length_afterParameters_le rest
    rw [_h, List.length_cons] at this
    omega
  case _ => omega
  case _ => omega

/-- The text without its control sequences. -/
def plain (s : String) : String := String.ofList (dropControls s.toList)

end AchievementLang.Text
