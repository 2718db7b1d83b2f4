import AchievementLang.Json.Basic
import AchievementLang.Numeric.Binary64
import AchievementLang.Text.IntLiteral

/-!
# Checking documents

Reading parts of a document into values. A check that fails tells everything that is wrong, and
where: `Checked.app` collects the problems of both its sides, in order.
-/

namespace AchievementLang.Document

/-- A step on the way to a part of a document. -/
inductive PathStep
  | key (name : String)
  | index (n : Nat)
  deriving DecidableEq, Repr

/-- What can be wrong with a part of a document. -/
inductive Flaw
  | notJson
  | missing
  | notAnObject
  | notAList
  | notAString
  | notAnInteger
  /-- A text that writes no integer. -/
  | unreadableInteger
  /-- A number with a fraction. -/
  | fractional
  | notFinite
  /-- A number without a fraction, but beyond 64 bits in double precision. -/
  | tooLarge
  | negative
  deriving DecidableEq, Repr

/-- A flaw with its place. -/
structure Problem where
  path : List PathStep
  flaw : Flaw
  deriving DecidableEq, Repr

/-- A value, or everything that is wrong. -/
abbrev Checked (α : Type) := Except (List Problem) α

namespace Checked

variable {α β : Type}

/-- A function applied to a value; the problems of both are collected. -/
def app (f : Checked (α → β)) (x : Checked α) : Checked β :=
  match f, x with
  | .ok f, .ok a => .ok (f a)
  | .ok _, .error problems => .error problems
  | .error problems, .ok _ => .error problems
  | .error problems, .error more => .error (problems ++ more)

end Checked

/-- A check of the part of a document at a path. -/
abbrev Check (α : Type) := List PathStep → Json → Checked α

namespace Check

variable {α : Type}

/-- Fails with one problem. -/
def fail (path : List PathStep) (flaw : Flaw) : Checked α := .error [⟨path, flaw⟩]

/-- A text. -/
def string : Check String
  | _, .string s => .ok s
  | path, _ => fail path .notAString

/-- Numbers in double precision count as integers below this bound, two to the power of 63. -/
def topInteger : Int := 9223372036854775808

/-- The integer that a number of double precision is. -/
def ofDouble (path : List PathStep) (negative : Bool) :
    Numeric.Binary64.Rounded → Checked Int
  | .zero => .ok 0
  | .overflow => fail path .notFinite
  | .finite b =>
    if b.value.den ≠ 1 then fail path .fractional
    else if topInteger ≤ b.value.num then fail path .tooLarge
    else .ok (if negative then -b.value.num else b.value.num)

/-- An integer. Truth values count as one and zero, and texts are read. -/
def integer : Check Int
  | _, .number (.int n) => .ok n
  | path, .number (.decimal negative coefficient exponent) =>
    ofDouble path negative (Numeric.Binary64.ofDecimal coefficient exponent)
  | path, .number _ => fail path .notFinite
  | _, .bool b => .ok (if b then 1 else 0)
  | path, .string s =>
    match Text.readTypedInt? s with
    | some n => .ok n
    | none => fail path .unreadableInteger
  | path, _ => fail path .notAnInteger

/-- An integer that is not negative. -/
def unsigned : Check Int := fun path j =>
  match integer path j with
  | .error problems => .error problems
  | .ok n => if n < 0 then fail path .negative else .ok n

/-- What the check accepts, or null. -/
def orNull (check : Check α) : Check (Option α)
  | _, .null => .ok none
  | path, j => (check path j).map some

/-- The items of a list, counted from `n`. -/
def items (check : Check α) (path : List PathStep) : Nat → List Json → Checked (List α)
  | _, [] => .ok []
  | n, j :: rest =>
    .app ((check (path ++ [.index n]) j).map List.cons) (items check path (n + 1) rest)

/-- A list. -/
def list (check : Check α) : Check (List α)
  | path, .array js => items check path 0 js
  | path, _ => fail path .notAList

/-- The value of a key that must be there. -/
def required (check : Check α) (path : List PathStep) (j : Json) (key : String) : Checked α :=
  match j.get? key with
  | some value => check (path ++ [.key key]) value
  | none => fail (path ++ [.key key]) .missing

/-- The value of a key, or what stands for it if it is not there. -/
def optional (check : Check α) (default : α) (path : List PathStep) (j : Json) (key : String) :
    Checked α :=
  match j.get? key with
  | some value => check (path ++ [.key key]) value
  | none => .ok default

/-- An object that the check accepts. -/
def object (check : Check α) : Check α
  | path, .object fields => check path (.object fields)
  | path, _ => fail path .notAnObject

end Check

end AchievementLang.Document
