import AchievementLang.Compile.Comparison

/-!
# Rows written one at a time

The rows of a comparison can be added to a list as they come up, each as soon as the field of its
operand is known (`Compile.writeComparison`). Then rows that were written before a failure stay in
the list, which the rows of the comparison by themselves do not tell.

Both ways come to the same (`Compile.writesAs_writeComparison`): the same failure, or the rows of
the comparison behind those that were there. If every operand denotes a field, then a failure leaves
the list as it was, since all else is checked before the first row is written.
-/

namespace AchievementLang.Compile

open Wire

/-- What writing comes to, and the rows afterwards. -/
abbrev Written := Except Failure Unit × Group

/-- Writes a row for each operand. -/
def writeOperands (functions : FunctionTable) (flag : Flag) : List Expr → Group → Written
  | [], rows => (.ok (), rows)
  | e :: rest, rows =>
    match operandField functions e with
    | .error f => (.error f, rows)
    | .ok field => writeOperands functions flag rest (rows ++ [{ left := field, flag := flag }])

/-- Writes the rows of a comparison whose right side has become a field. -/
def writeSum (functions : FunctionTable) (op : Relation) (ss : List Summand) (right : Field)
    (loc : Option Loc) (rows : Group) : Written :=
  match (operandsOf true ss).getLast? with
  | none => (.error (.at? .nothingAdded loc), rows)
  | some last =>
    match writeOperands functions .subSource (operandsOf false ss) rows with
    | (.error f, rows) => (.error f, rows)
    | (.ok (), rows) =>
      match writeOperands functions .addSource (operandsOf true ss).dropLast rows with
      | (.error f, rows) => (.error f, rows)
      | (.ok (), rows) =>
        match operandField functions last with
        | .error f => (.error f, rows)
        | .ok field => (.ok (), rows ++ [{ left := field, operator := some op, right := right }])

/-- Writes the rows of a comparison whose constant sides have been ordered. -/
def writeOrdered (functions : FunctionTable) (op : Relation) (left right : Expr)
    (loc : Option Loc) (rows : Group) : Written :=
  match summands true left with
  | .error f => (.error f, rows)
  | .ok ss =>
    match right with
    | .integer n rightLoc =>
      let limit := n - constantOf ss
      if ss.all (!·.isOperand) then (.ok (), rows ++ [constantRow (op.holds 0 limit)])
      else if limit < 0 then (.error (.at? (.negativeLimit limit) loc), rows)
      else
        match operandField functions (.integer limit rightLoc) with
        | .error f => (.error f, rows)
        | .ok field => writeSum functions op ss field loc rows
    | _ =>
      if constantOf ss ≠ 0 then (.error (.at? .constantsOnLeft loc), rows)
      else
        match operandField functions right with
        | .error f => (.error f, rows)
        | .ok field => writeSum functions op ss field loc rows

/-- Writes the rows of a comparison. -/
def writeComparison (functions : FunctionTable) (op : Relation) (left right : Expr)
    (loc : Option Loc) (rows : Group) : Written :=
  if left.integer?.isSome && right.integer?.isNone then
    writeOrdered functions op.mirrored right left loc rows
  else writeOrdered functions op left right loc rows

variable {functions : FunctionTable}

/-- Writing comes to the rows, behind those that were there, or to the failure. Rows written before
the failure stay; if `clean`, there are none. -/
def WritesAs (clean : Prop) (new : Except Failure Group) (rows : Group) (written : Written) :
    Prop :=
  match new with
  | .ok new => written = (.ok (), rows ++ new)
  | .error f => ∃ more, written = (.error f, rows ++ more) ∧ (clean → more = [])

theorem writesAs_error {clean : Prop} (f : Failure) (rows : Group) :
    WritesAs clean (.error f) rows (.error f, rows) :=
  ⟨[], by rw [List.append_nil], fun _ => rfl⟩

theorem WritesAs.mono {clean clean' : Prop} {new : Except Failure Group} {rows : Group}
    {written : Written} (h : WritesAs clean new rows written) (hclean : clean' → clean) :
    WritesAs clean' new rows written := by
  cases new with
  | ok new => exact h
  | error f =>
    obtain ⟨more, hwritten, hmore⟩ := h
    exact ⟨more, hwritten, fun hc => hmore (hclean hc)⟩

/-- The expressions denote fields. -/
def HaveFields (functions : FunctionTable) (es : List Expr) : Prop :=
  ∀ e ∈ es, ∃ field, operandField functions e = .ok field

theorem HaveFields.exists_operandFields {es : List Expr} (h : HaveFields functions es) :
    ∃ fields, operandFields functions es = .ok fields := by
  induction es with
  | nil => exact ⟨[], rfl⟩
  | cons e rest ih =>
    obtain ⟨field, hfield⟩ := h e List.mem_cons_self
    obtain ⟨fields, hfields⟩ := ih fun e' he' => h e' (List.mem_cons_of_mem e he')
    exact ⟨field :: fields, by rw [operandFields, hfield, hfields]⟩

theorem HaveFields.operandFields_ne_error {es : List Expr} (h : HaveFields functions es)
    (f : Failure) : operandFields functions es ≠ .error f := by
  obtain ⟨fields, hfields⟩ := h.exists_operandFields
  rw [hfields]
  nofun

/-! ## Operands -/

theorem writesAs_writeOperands (functions : FunctionTable) (flag : Flag) (es : List Expr)
    (rows : Group) :
    WritesAs False ((operandFields functions es).map fun fs => fs.map fun f =>
      { left := f, flag := flag }) rows (writeOperands functions flag es rows) := by
  induction es generalizing rows with
  | nil => exact congrArg (Prod.mk _) (List.append_nil rows).symm
  | cons e rest ih =>
    rw [operandFields, writeOperands]
    cases operandField functions e with
    | error f => exact writesAs_error f rows
    | ok field =>
      have ih := ih (rows ++ [{ left := field, flag := flag }])
      dsimp only
      revert ih
      cases operandFields functions rest with
      | error f =>
        rintro ⟨more, hwritten, -⟩
        exact ⟨_, by rw [hwritten, List.append_assoc], False.elim⟩
      | ok fields =>
        intro ih
        exact ih.trans (by rw [List.append_assoc]; rfl)

/-- The fields of all operands but the last are looked up before the last one is. -/
theorem operandFields_concat (functions : FunctionTable) (es : List Expr) (last : Expr) :
    operandFields functions (es ++ [last]) =
      match operandFields functions es with
      | .error f => .error f
      | .ok fields => (operandField functions last).map fun field => fields ++ [field] := by
  induction es with
  | nil =>
    rw [List.nil_append, operandFields, operandFields, operandFields]
    cases operandField functions last <;> rfl
  | cons e rest ih =>
    rw [List.cons_append, operandFields, operandFields, ih]
    cases operandField functions e with
    | error f => rfl
    | ok field =>
      cases operandFields functions rest with
      | error f => rfl
      | ok fields => cases operandField functions last <;> rfl

theorem writesAs_writeSum (functions : FunctionTable) (op : Relation) (ss : List Summand)
    (right : Field) (loc : Option Loc) (rows : Group) :
    WritesAs
      (HaveFields functions (operandsOf true ss) ∧ HaveFields functions (operandsOf false ss))
      (sumRows functions op ss right loc) rows (writeSum functions op ss right loc rows) := by
  unfold sumRows writeSum
  cases hlast : (operandsOf true ss).getLast? with
  | none =>
    rw [List.getLast?_eq_none_iff.1 hlast]
    exact writesAs_error _ rows
  | some last =>
    obtain ⟨init, hadded⟩ := List.getLast?_eq_some_iff.1 hlast
    rw [hadded, if_neg (by simp), List.dropLast_concat]
    dsimp only
    have hfirst := writesAs_writeOperands functions .subSource (operandsOf false ss)
      rows
    cases hsubtracted : operandFields functions (operandsOf false ss) with
    | error f =>
      rw [hsubtracted] at hfirst
      obtain ⟨more, hwritten, -⟩ := hfirst
      exact ⟨more, by rw [hwritten], fun h => absurd hsubtracted (h.2.operandFields_ne_error f)⟩
    | ok subtracted =>
      rw [hsubtracted] at hfirst
      rw [(hfirst : writeOperands _ _ _ rows = _)]
      dsimp only
      have hnext := writesAs_writeOperands functions .addSource init
        (rows ++ subtracted.map fun f => { left := f, flag := .subSource })
      have hconcat := operandFields_concat functions init last
      cases hinit : operandFields functions init with
      | error f =>
        rw [hinit] at hnext hconcat
        obtain ⟨more, hwritten, -⟩ := hnext
        rw [hconcat, hwritten]
        exact ⟨_, by rw [List.append_assoc],
          fun h => absurd hconcat (h.1.operandFields_ne_error f)⟩
      | ok fields =>
        rw [hinit] at hnext hconcat
        rw [hconcat, (hnext : writeOperands _ _ init _ = _)]
        cases hfield : operandField functions last with
        | error f =>
          rw [hfield] at hconcat
          exact ⟨_, by rw [List.append_assoc],
            fun h => absurd hconcat (h.1.operandFields_ne_error f)⟩
        | ok field =>
          simp [WritesAs, Except.map, comparingRows]

/-- The operands of a side of a comparison denote fields. -/
def SideHasFields (functions : FunctionTable) (side : Expr) : Prop :=
  ∀ ss, summands true side = .ok ss → ∀ added, HaveFields functions (operandsOf added ss)

theorem writesAs_writeOrdered (functions : FunctionTable) (op : Relation) (left right : Expr)
    (loc : Option Loc) (rows : Group) :
    WritesAs (SideHasFields functions left) (orderedRows functions op left right loc) rows
      (writeOrdered functions op left right loc rows) := by
  unfold orderedRows writeOrdered
  cases hss : summands true left with
  | error f => exact writesAs_error f rows
  | ok ss =>
    have hsum (field : Field) :
        WritesAs (SideHasFields functions left) (sumRows functions op ss field loc) rows
          (writeSum functions op ss field loc rows) :=
      (writesAs_writeSum functions op ss field loc rows).mono fun h =>
        ⟨h ss hss true, h ss hss false⟩
    cases right with
    | integer n rightLoc =>
      dsimp only
      split
      · exact rfl
      split
      · exact writesAs_error _ rows
      cases operandField functions (.integer (n - constantOf ss) rightLoc) with
      | error f => exact writesAs_error f rows
      | ok field => exact hsum field
    | _ =>
      dsimp only
      split
      · exact writesAs_error _ rows
      cases operandField functions _ with
      | error f => exact writesAs_error f rows
      | ok field => exact hsum field

/-- **Writing the rows of a comparison** one at a time comes to the rows of the comparison. After a
failure the list is as it was, if the operands of both sides denote fields. -/
theorem writesAs_writeComparison (functions : FunctionTable) (op : Relation) (left right : Expr)
    (loc : Option Loc) (rows : Group) :
    WritesAs (SideHasFields functions left ∧ SideHasFields functions right)
      (comparisonRows functions op left right loc) rows
      (writeComparison functions op left right loc rows) := by
  unfold comparisonRows writeComparison
  split
  · exact (writesAs_writeOrdered functions _ right left loc rows).mono And.right
  · exact (writesAs_writeOrdered functions op left right loc rows).mono And.left

end AchievementLang.Compile
