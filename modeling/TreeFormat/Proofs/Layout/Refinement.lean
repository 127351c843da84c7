import TreeFormat.Proofs.Layout.Runs
import TreeFormat.Proofs.Layout.Tasks

/-!
# Offsets refine absolute indentation

The machine only ever sees offsets.  `Tracks` says that its stack nevertheless
holds, in order, tasks of the document at their absolute indentation, and that
these tasks are what is left of the document behind the pieces laid out so far.
Every step keeps this up, and so does every run.
-/

namespace TreeFormat

open Layout

/-- The commands for tasks, each with its mode. -/
def Task.commands (size : Nat) (tasks : List (Task × Mode)) : List Command :=
  tasks.map fun (task, mode) => task.command size mode

/-- The positions of the texts and line breaks that several tasks lay out. -/
def Task.allLeaves (tasks : List (Task × Mode)) : List (List Nat) :=
  tasks.flatMap fun (task, _) => task.leaves

/-- A state of the machine on its way through a document: the commands on the
stack do tasks of the document, and these tasks take up the leaves, in order, at
the one where the pieces laid out so far end. -/
structure Tracks (size : Nat) (doc : Doc) (tasks : List (Task × Mode)) (state : State) :
    Prop where
  stack : state.stack = Task.commands size tasks
  isOf : ∀ task ∈ tasks, task.1.IsOf size doc
  leaves : ∃ done, done.length = state.pieces.length ∧
    doc.leafPositions = done ++ Task.allLeaves tasks

namespace Tracks

variable {width size column : Nat} {doc : Doc} {task : Task} {mode : Mode}
  {rest : List (Task × Mode)} {pieces : List Piece}

theorem start (size : Nat) (doc : Doc) :
    Tracks size doc [(.part [] ⟨0, 0, doc⟩, .broken)] (.start (toRelative size 0 0 doc)) where
  stack := rfl
  isOf := by
    intro task htask
    rw [List.mem_singleton.1 htask]
    exact .inl rfl
  leaves := ⟨[], rfl, by simp [Task.allLeaves, Task.leaves]⟩

/-- The task on top gives way to tasks that cover the same leaves. -/
theorem replace
    (htracks : Tracks size doc ((task, mode) :: rest)
      ⟨Task.commands size ((task, mode) :: rest), column, pieces⟩)
    (parts : List (Task × Mode)) (hparts : ∀ part ∈ parts, part.1.IsOf size doc)
    (hleaves : task.leaves = Task.allLeaves parts) :
    Tracks size doc (parts ++ rest)
      ⟨Task.commands size parts ++ Task.commands size rest, column, pieces⟩ where
  stack := by simp [Task.commands]
  isOf := by
    intro part hpart
    rcases List.mem_append.1 hpart with hpart | hpart
    · exact hparts part hpart
    · exact htracks.isOf part (List.mem_cons_of_mem _ hpart)
  leaves := by
    obtain ⟨done, hdone, hall⟩ := htracks.leaves
    refine ⟨done, hdone, ?_⟩
    rw [hall]
    simp only [Task.allLeaves] at hleaves
    simp [Task.allLeaves, hleaves]

/-- The task on top lays out its one leaf. -/
theorem emit
    (htracks : Tracks size doc ((task, mode) :: rest)
      ⟨Task.commands size ((task, mode) :: rest), column, pieces⟩)
    {position : List Nat} (hleaves : task.leaves = [position]) (piece : Piece) (after : Nat) :
    Tracks size doc rest ⟨Task.commands size rest, after, piece :: pieces⟩ where
  stack := rfl
  isOf part hpart := htracks.isOf part (List.mem_cons_of_mem _ hpart)
  leaves := by
    obtain ⟨done, hdone, hall⟩ := htracks.leaves
    refine ⟨done ++ [position], by simpa using hdone, ?_⟩
    rw [hall]
    simp [Task.allLeaves, hleaves]

/-- One step of the machine keeps to the document. -/
theorem step
    {tasks : List (Task × Mode)} {state next : State}
    (htracks : Tracks size doc tasks state) (hstep : Layout.step width state = some next) :
    ∃ later, Tracks size doc later next := by
  obtain ⟨stack, column, pieces⟩ := state
  have hstack : stack = Task.commands size tasks := htracks.stack
  subst hstack
  cases tasks with
  | nil => simp [Task.commands, Layout.step] at hstep
  | cons top rest =>
      obtain ⟨task, mode⟩ := top
      have hcommands : Task.commands size ((task, mode) :: rest) =
          ⟨task.indent, mode, task.relative size⟩ :: Task.commands size rest := rfl
      rw [hcommands] at hstep
      cases Task.opening (htracks.isOf (task, mode) List.mem_cons_self) with
      | done hrelative hleaves =>
          have hnext := htracks.replace [] (by simp) hleaves
          rcases hrelative with hrelative | hrelative
          · simp only [hrelative, Layout.step, Option.some.injEq] at hstep
            exact hstep ▸ ⟨_, hnext⟩
          · simp only [hrelative, Layout.step, Option.some.injEq] at hstep
            exact hstep ▸ ⟨_, hnext⟩
      | text content position hrelative hleaves =>
          simp only [hrelative, Layout.step, Option.some.injEq] at hstep
          exact hstep ▸ ⟨_, htracks.emit hleaves _ _⟩
      | line position hrelative hleaves =>
          cases mode with
          | flat =>
              simp only [hrelative, Layout.step, Option.some.injEq] at hstep
              exact hstep ▸ ⟨_, htracks.emit hleaves _ _⟩
          | broken =>
              simp only [hrelative, Layout.step, Option.some.injEq] at hstep
              exact hstep ▸ ⟨_, htracks.emit hleaves _ _⟩
      | hardLine position hrelative hleaves =>
          simp only [hrelative, Layout.step, Option.some.injEq] at hstep
          exact hstep ▸ ⟨_, htracks.emit hleaves _ _⟩
      | append first second hrelative hfirst hsecond hfirstOf hsecondOf hleaves =>
          simp only [hrelative, Layout.step, Option.some.injEq] at hstep
          have hnext := htracks.replace [(first, mode), (second, mode)]
            (by simp [hfirstOf, hsecondOf]) (by simp [Task.allLeaves, hleaves])
          simp only [Task.commands, Task.command, List.map_cons, List.map_nil, hfirst, hsecond]
            at hnext
          exact hstep ▸ ⟨_, hnext⟩
      | group inner hrelative hinner hinnerOf hleaves =>
          have hnext (inside : Mode) := htracks.replace [(inner, inside)]
            (by simp [hinnerOf]) (by simp [Task.allLeaves, hleaves])
          simp only [Task.commands, Task.command, List.map_cons, List.map_nil, hinner] at hnext
          cases mode with
          | flat =>
              simp only [hrelative, Layout.step, Option.some.injEq] at hstep
              exact hstep ▸ ⟨_, hnext .flat⟩
          | broken =>
              simp only [hrelative, Layout.step, Option.some.injEq] at hstep
              exact hstep ▸ ⟨_, hnext _⟩
      | nest offset inner hrelative hinner hinnerOf hleaves =>
          simp only [hrelative, Layout.step, Option.some.injEq] at hstep
          have hnext := htracks.replace [(inner, mode)]
            (by simp [hinnerOf]) (by simp [Task.allLeaves, hleaves])
          simp only [Task.commands, Task.command, List.map_cons, List.map_nil, hinner] at hnext
          exact hstep ▸ ⟨_, hnext⟩

/-- Every state that the machine comes to keeps to the document. -/
theorem run
    {tasks : List (Task × Mode)} {state : State} (htracks : Tracks size doc tasks state)
    (steps : Nat) : ∃ later, Tracks size doc later (Layout.run width steps state) := by
  induction steps generalizing tasks state with
  | zero => exact ⟨tasks, htracks⟩
  | succ steps ih =>
      rw [Layout.run]
      cases hstep : Layout.step width state with
      | none => exact ⟨tasks, htracks⟩
      | some next =>
          obtain ⟨later, hlater⟩ := htracks.step hstep
          exact ih hlater

end Tracks

namespace Layout

/-- In every state of the machine on a document, each command does a task of the
document at its absolute indentation, and the rendered text is the one of the
layout with absolute indentation. -/
theorem render_refines_absolute (settings : Settings) (doc : Doc) :
    (∀ steps, ∃ tasks, Tracks settings.indentSize doc tasks
      (run settings.width steps (.start (toRelative settings.indentSize 0 0 doc)))) ∧
      render settings doc = String.ofList (write 0 (Absolute.pieces settings doc)) := by
  constructor
  · exact (Tracks.start settings.indentSize doc).run
  · rw [render, pieces_eq_absolute]

end Layout

end TreeFormat
