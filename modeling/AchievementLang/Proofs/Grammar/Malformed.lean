import AchievementLang.Script

/-!
# Scripts that do not parse

A script that is refused is malformed (`Script.kind_of_parse`): at a word that no pattern matches or
that the state has no use for, at its end, or for a declaration with `...` in the wrong place.
-/

namespace AchievementLang

namespace Grammar

theorem kind_of_takeWord {c : Cursor} {t : Terminal} {text : List Char} {f : Fault}
    (h : takeWord c t text = .error f) : f.cause.kind = .malformedScript := by
  unfold takeWord at h
  dsimp only at h
  split at h <;> cases h <;> rfl

theorem kind_of_takeEnd {c : Cursor} {f : Fault} (h : takeEnd c = .error f) :
    f.cause.kind = .malformedScript := by
  unfold takeEnd at h
  split at h <;> cases h <;> rfl

theorem kind_of_takeMatch {c : Cursor} {p : Pattern} {text : List Char} {f : Fault}
    (h : takeMatch c p text = .error f) : f.cause.kind = .malformedScript := by
  unfold takeMatch at h
  split at h
  · exact kind_of_takeWord h
  · cases h

theorem kind_unreadable (c : Cursor) (cs : List Char) :
    (unreadable c cs).cause.kind = .malformedScript := by
  unfold unreadable
  split <;> rfl

theorem kind_of_parseFrom {c : Cursor} {cs : List Char} {f : Fault}
    (h : parseFrom c cs = .error f) : f.cause.kind = .malformedScript := by
  fun_induction parseFrom c cs with
  | case1 c cs hempty => exact kind_of_takeEnd h
  | case2 c cs hempty hscan =>
    cases h
    exact kind_unreadable c cs
  | case3 c cs hempty p text rest hscan e hmatch =>
    cases h
    exact kind_of_takeMatch hmatch
  | case4 c cs hempty p text rest hscan next hmatch hshorter ih => exact ih h
  | case5 =>
    cases h
    rfl

end Grammar

namespace Script

mutual

theorem kind_of_misplacedEllipsis? {f : Fault} :
    ∀ {e : Expr}, misplacedEllipsis? e = some f → f.cause.kind = .malformedScript
  | .declare name params defaults body loc, h => by
    rw [misplacedEllipsis?] at h
    split at h
    next g hbody =>
      cases h
      exact kind_of_misplacedEllipsisIn? hbody
    next =>
      split at h
      · cases h
        rfl
      · cases h
  | .string .., h | .integer .., h | .var .., h | .call .., h | .compare .., h | .math .., h
  | .not .., h | .logic .., h | .array .., h | .assign .., h | .ret .., h => by
    cases h

theorem kind_of_misplacedEllipsisIn? {f : Fault} :
    ∀ {es : List Expr}, misplacedEllipsisIn? es = some f → f.cause.kind = .malformedScript
  | [], h => by cases h
  | e :: rest, h => by
    rw [misplacedEllipsisIn?] at h
    split at h
    next g he =>
      cases h
      exact kind_of_misplacedEllipsis? he
    next => exact kind_of_misplacedEllipsisIn? h

end

/-- **What is wrong with a script that does not parse** is that it is malformed. -/
theorem kind_of_parse {text : String} {f : Fault} (h : parse text = .error f) :
    f.cause.kind = .malformedScript := by
  unfold parse at h
  split at h
  next g hparse =>
    cases h
    exact Grammar.kind_of_parseFrom hparse
  next statements hparse =>
    split at h
    next g hellipsis =>
      cases h
      exact kind_of_misplacedEllipsisIn? hellipsis
    next => cases h

end Script

end AchievementLang
