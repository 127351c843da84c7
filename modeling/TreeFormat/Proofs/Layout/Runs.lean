import TreeFormat.Proofs.Layout.Lowering

/-!
# Runs of the two layout machines

The machine with relative indentation and the one with absolute indentation both
work the parts of a document off their stacks.  Each does to a part what
recursion on the part does, in no more steps than the part weighs, and leaves the
commands behind it alone.  Since the two recursions agree, so do the layouts
(`Layout.pieces_eq_absolute`).
-/

namespace TreeFormat

namespace Layout

/-! ## Runs with relative indentation -/

section Machine

variable {width : Nat}

theorem run_add
    (first second : Nat) (state : State) :
    run width (first + second) state = run width second (run width first state) := by
  induction first generalizing state with
  | zero => simp [run]
  | succ first ih =>
      rw [Nat.succ_add, run, run]
      cases hstep : step width state with
      | none =>
          cases second with
          | zero => rfl
          | succ second => simp only [run, hstep]
      | some next => exact ih next

/-- The context of a part in front of a stack. -/
def Context.ofStack (width : Nat) (stack : List Command) : Context where
  next := stack.head?.map Command.indent
  fits column := measureStack width column stack

@[simp] theorem next_ofStack
    (own : Nat) (stack : List Command) :
    (Context.ofStack width stack).next.getD own = breakIndent own stack := by
  cases stack <;> rfl

theorem ofStack_cons
    (own : Nat) (mode : Mode) (doc : Relative) (stack : List Command) :
    Context.ofStack width (⟨own, mode, doc⟩ :: stack) =
      (Context.ofStack width stack).inFront width own doc := by
  rfl

/-- The machine works a part off in as many steps as the part weighs, and does
what `Relative.lay` says. -/
theorem run_weight
    (doc : Relative) (own : Nat) (mode : Mode) (stack : List Command) (column : Nat)
    (pieces : List Piece) :
    let laid := doc.lay width own mode (Context.ofStack width stack) column
    run width doc.weight ⟨⟨own, mode, doc⟩ :: stack, column, pieces⟩ =
      ⟨stack, laid.1, laid.2.reverse ++ pieces⟩ := by
  induction doc generalizing own mode stack column pieces with
  | nil => rfl
  | text content => rfl
  | append first second hfirst hsecond =>
      rw [Relative.weight, run]
      simp only [step]
      rw [run_add, hfirst, hsecond, ofStack_cons]
      simp [Relative.lay]
  | line =>
      cases mode with
      | flat => rfl
      | broken => simp [Relative.weight, run, step, State.break, Relative.lay, breakAt]
  | hardLine => simp [Relative.weight, run, step, State.break, Relative.lay, breakAt]
  | group inner ih =>
      rw [Relative.weight, run]
      cases mode with
      | flat =>
          simp only [step]
          rw [ih]
          rfl
      | broken =>
          simp only [step]
          rw [ih]
          rfl
  | nest offset inner ih =>
      rw [Relative.weight, run]
      simp only [step]
      rw [ih]
      rfl
  | anchor => rfl

/-- The machine lays a document out as recursion on it does. -/
theorem layOut_eq_lay (doc : Relative) :
    layOut width doc = (doc.lay width 0 .broken .atEnd 0).2 := by
  rw [layOut, State.start, run_weight]
  simp [Context.ofStack, Context.atEnd, measureStack]

end Machine

end Layout

/-! ## Runs with absolute indentation -/

namespace Layout.Absolute

section Machine

variable {width size : Nat}

theorem run_add
    (first second : Nat) (state : State) :
    run width size (first + second) state =
      run width size second (run width size first state) := by
  induction first generalizing state with
  | zero => simp [run]
  | succ first ih =>
      rw [Nat.succ_add, run, run]
      cases hstep : step width size state with
      | none =>
          cases second with
          | zero => rfl
          | succ second => simp only [run, hstep]
      | some next => exact ih next

/-- One state comes after another one within a number of steps. -/
def Reaches (width size bound : Nat) (state later : State) : Prop :=
  ∃ steps ≤ bound, run width size steps state = later

theorem Reaches.trans
    {bound bound' : Nat} {state between later : State}
    (hfirst : Reaches width size bound state between)
    (hsecond : Reaches width size bound' between later) :
    Reaches width size (bound + bound') state later := by
  obtain ⟨first, hfirstBound, rfl⟩ := hfirst
  obtain ⟨second, hsecondBound, rfl⟩ := hsecond
  exact ⟨first + second, by omega, run_add first second state⟩

theorem Reaches.of_step
    {bound : Nat} {state next later : State}
    (hstep : step width size state = some next)
    (hnext : Reaches width size bound next later) :
    Reaches width size (bound + 1) state later := by
  obtain ⟨steps, hbound, hrun⟩ := hnext
  refine ⟨steps + 1, by omega, ?_⟩
  rw [run, hstep]
  exact hrun

theorem Reaches.mono
    {bound bound' : Nat} {state later : State}
    (hreaches : Reaches width size bound state later) (hbound : bound ≤ bound') :
    Reaches width size bound' state later := by
  obtain ⟨steps, hsteps, hrun⟩ := hreaches
  exact ⟨steps, Nat.le_trans hsteps hbound, hrun⟩

theorem Reaches.refl (bound : Nat) (state : State) : Reaches width size bound state state :=
  ⟨0, Nat.zero_le _, rfl⟩

/-- The context of a part in front of a stack. -/
def contextOf (width : Nat) (stack : List Command) : Context where
  next := stack.head?.map Command.indent
  fits column := measureStack width column stack

@[simp] theorem next_contextOf
    (own : Nat) (stack : List Command) :
    (contextOf width stack).next.getD own = breakIndent own stack := by
  cases stack <;> rfl

theorem contextOf_cons
    (size own base : Nat) (mode : Mode) (doc : Doc) (stack : List Command) :
    contextOf width (⟨own, base, mode, doc⟩ :: stack) =
      (contextOf width stack).inFront width own (toRelative size own base doc) := by
  simp only [contextOf, Context.inFront, List.head?_cons, Option.map_some, Context.mk.injEq,
    true_and, measure_toRelative]
  rfl

theorem commands_cons
    (own base : Nat) (mode : Mode) (part : Doc) (parts : List Doc) :
    commands own base mode (part :: parts) =
      if part.isTextless then commands own base mode parts
      else ⟨own, base, mode, part⟩ :: commands own base mode parts := by
  cases hpart : part.isTextless <;> simp [commands, hpart]

theorem contextOf_commands
    (size own base : Nat) (mode : Mode) (parts : List Doc) (stack : List Command) :
    contextOf width (commands own base mode parts ++ stack) =
      (contextOf width stack).inFrontOfAll width own parts := by
  induction parts with
  | nil => rfl
  | cons part parts ih =>
      rw [commands_cons, inFrontOfAll_cons size own base]
      by_cases hpart : part.isTextless = true
      · simp only [hpart, if_true, (toRelative_eq_nil_iff part own base).2 hpart]
        exact ih
      · have hnil : toRelative size own base part ≠ .nil := by
          rwa [ne_eq, toRelative_eq_nil_iff]
        simp only [hpart, if_neg hnil, List.cons_append, contextOf_cons size, ih,
          Bool.false_eq_true, if_false]

/-- A document without text or line breaks is laid out to nothing. -/
theorem lay_of_isTextless
    {doc : Doc} (hdoc : doc.isTextless = true) (own base : Nat) (mode : Mode)
    (context : Context) (column : Nat) :
    doc.lay width size own base mode context column = (column, []) := by
  rw [← lay_toRelative, (toRelative_eq_nil_iff doc own base).2 hdoc]
  rfl

mutual

/-- The machine works a part off in at most as many steps as the part weighs, and
does what `Doc.lay` says. -/
theorem reaches_lay :
    ∀ (doc : Doc) (own base : Nat) (mode : Mode) (stack : List Command) (column : Nat)
      (pieces : List Piece),
      let laid := doc.lay width size own base mode (contextOf width stack) column
      Reaches width size doc.weight ⟨⟨own, base, mode, doc⟩ :: stack, column, pieces⟩
        ⟨stack, laid.1, laid.2.reverse ++ pieces⟩
  | .nil, _, _, _, _, _, _ => .of_step rfl (.refl _ _)
  | .text content, own, base, mode, stack, column, pieces => by
      apply Reaches.of_step rfl
      simp only [Doc.lay]
      split <;> exact .refl _ _
  | .concat parts, own, base, mode, stack, column, pieces => by
      apply Reaches.of_step rfl
      exact reaches_layAll parts own base mode stack column pieces
  | .line, own, base, mode, stack, column, pieces => by
      apply Reaches.of_step rfl
      cases mode <;> simp [Doc.lay, State.break, breakAt, Reaches.refl]
  | .hardLine, own, base, mode, stack, column, pieces => by
      apply Reaches.of_step rfl
      simp [Doc.lay, State.break, breakAt, Reaches.refl]
  | .literalLine, own, base, mode, stack, column, pieces => .of_step rfl (.refl _ _)
  | .group inner, own, base, mode, stack, column, pieces => by
      rw [Doc.weight]
      cases mode with
      | flat => exact .of_step rfl (reaches_lay inner _ _ _ _ _ _)
      | broken => exact .of_step rfl (reaches_lay inner _ _ _ _ _ _)
  | .indent inner, own, base, mode, stack, column, pieces => by
      rw [Doc.weight]
      exact .of_step rfl (reaches_lay inner _ _ _ _ _ _)
  | .dedent inner, own, base, mode, stack, column, pieces => by
      rw [Doc.weight]
      exact .of_step rfl (reaches_lay inner _ _ _ _ _ _)
  | .align columns inner, own, base, mode, stack, column, pieces => by
      rw [Doc.weight]
      exact .of_step rfl (reaches_lay inner _ _ _ _ _ _)
  | .root inner, own, base, mode, stack, column, pieces => by
      rw [Doc.weight]
      exact .of_step rfl (reaches_lay inner _ _ _ _ _ _)

theorem reaches_layAll :
    ∀ (parts : List Doc) (own base : Nat) (mode : Mode) (stack : List Command) (column : Nat)
      (pieces : List Piece),
      let laid := Doc.layAll width size parts own base mode (contextOf width stack) column
      Reaches width size (Doc.weights parts)
        ⟨commands own base mode parts ++ stack, column, pieces⟩
        ⟨stack, laid.1, laid.2.reverse ++ pieces⟩
  | [], _, _, _, _, _, _ => .refl _ _
  | part :: parts, own, base, mode, stack, column, pieces => by
      rw [commands_cons, Doc.weights]
      by_cases hpart : part.isTextless = true
      · have hrest := reaches_layAll parts own base mode stack column pieces
        simp only [hpart, if_true, Doc.layAll, lay_of_isTextless hpart, List.nil_append]
        exact hrest.mono (Nat.le_add_left _ _)
      · simp only [hpart, Bool.false_eq_true, if_false, List.cons_append]
        have hfirst := reaches_lay part own base mode (commands own base mode parts ++ stack)
          column pieces
        have hrest := reaches_layAll parts own base mode stack
          (part.lay width size own base mode
            (contextOf width (commands own base mode parts ++ stack)) column).1
          ((part.lay width size own base mode
            (contextOf width (commands own base mode parts ++ stack)) column).2.reverse ++ pieces)
        rw [contextOf_commands size] at hfirst hrest
        simpa [Doc.layAll] using hfirst.trans hrest

end

/-- A run that has nothing left to do stays where it is. -/
theorem run_of_done
    (steps column : Nat) (pieces : List Piece) :
    run width size steps ⟨[], column, pieces⟩ = ⟨[], column, pieces⟩ := by
  cases steps <;> rfl

/-- The machine lays a document out as recursion on it does. -/
theorem pieces_eq_lay
    (settings : Settings) (doc : Doc) :
    pieces settings doc =
      (doc.lay settings.width settings.indentSize 0 0 .broken .atEnd 0).2 := by
  have hreaches : Reaches settings.width settings.indentSize doc.weight (.start doc) ⟨[], _, _⟩ :=
    reaches_lay doc 0 0 .broken [] 0 []
  obtain ⟨steps, hbound, hrun⟩ := hreaches
  obtain ⟨extra, hextra⟩ := Nat.exists_eq_add_of_le hbound
  rw [pieces, hextra, run_add, hrun, run_of_done, List.append_nil, List.reverse_reverse]
  rfl

end Machine

end Layout.Absolute

/-- Nesting by offsets and absolute indentation give the same layout. -/
theorem Layout.pieces_eq_absolute
    (settings : Settings) (doc : Doc) :
    pieces settings doc = Absolute.pieces settings doc := by
  rw [pieces, layOut_eq_lay, lay_toRelative, Absolute.pieces_eq_lay]

end TreeFormat
