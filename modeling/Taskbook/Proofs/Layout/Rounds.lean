/-
The rounds of the layout. A symbol is followed by a blank, which is all that a line needs to be further on than where it
begins, whatever the symbols are. Lines carry this to tasks and lists, so no loop of a document gives up: each one
goes on to a place where its rule misses, or fails there. Behind its name nothing of a task can be missing.
-/
import Taskbook.Document.Layout
import Taskbook.Proofs.Parser.Machine

namespace Taskbook.Layout

open Taskbook.Parser

variable {s : Symbols} {z : Zone}

/-! ## Lines and what they make up -/

theorem advances_symbol (t : Text) : (symbol t).Advances := by
  have hblank : (andThen (literal t) (char ' ') : Parser Failure Char).Advances :=
    advances_of_next fun _ => advances_satisfy _
  exact hblank.bind _

theorem advances_lineOf (t : Text) : (lineOf t).Advances := (advances_symbol t).bind _

theorem advances_subtask : (subtask s).Advances := (advances_symbol s.subtask).bind _

theorem advances_task : (task s z).Advances := (advances_lineOf s.task).bind _

theorem advances_taskList : (taskList s z).Advances := (advances_lineOf s.title).bind _

/-! ## The loops within -/

theorem productive_line : (line : Parser Failure Text).Productive := trivial

theorem productive_symbol (t : Text) : (symbol t).Productive := by
  simp [symbol, Parser.map, Parser.andThen, char, Productive]

theorem productive_lineOf (t : Text) : (lineOf t).Productive := (productive_symbol t).andThen productive_line

theorem productive_mark : mark.Productive := by
  simp [mark, Parser.map, Parser.sequence, char, Productive]

theorem productive_subtask : (subtask s).Productive :=
  (productive_symbol s.subtask).andThen (productive_mark.bind fun _ => productive_line.map _)

theorem productive_description : (description s).Productive :=
  ((productive_lineOf s.description).many (advances_lineOf s.description)).map _

theorem productive_dueOf (c : Cursor) (text : Option Text) : (dueOf s z c text).Productive := by
  unfold dueOf
  split
  · trivial
  · split <;> trivial

theorem productive_due : (due s z).Productive :=
  .bind trivial fun _ => .bind (p := .optional (lineOf s.due)) (productive_lineOf s.due) (productive_dueOf _)

theorem productive_task : (task s z).Productive :=
  (productive_lineOf s.task).bind fun _ => productive_due.bind fun _ => productive_description.bind fun _ =>
    (productive_subtask.many advances_subtask).map _

theorem productive_taskList : (taskList s z).Productive :=
  (productive_lineOf s.title).bind fun _ => (productive_task.many advances_task).map _

theorem productive_document : (document s z).Productive :=
  (productive_taskList.many1 advances_taskList).bind fun _ => productive_skipBlanks.andThen (.andThen trivial trivial)

/-! ## Behind the name of a task -/

theorem neverMisses_dueOf (c : Cursor) (text : Option Text) : (dueOf s z c text).NeverMisses := by
  intro d
  unfold dueOf
  split
  · rintro ⟨⟩
  · split <;> rintro ⟨⟩

theorem neverMisses_due : (due s z).NeverMisses :=
  .bind (fun _ => by rintro ⟨⟩) fun c => (neverMisses_optional _).bind (neverMisses_dueOf c)

/-- A task is missing only where its name is. -/
theorem run_task_eq_miss_iff {c : Cursor} : (task s z).run c = .miss ↔ (taskName s).run c = .miss := by
  refine run_bind_eq_miss_iff fun _ => neverMisses_due.bind fun _ => ?_
  refine ((neverMisses_many _).map _).bind fun _ => ?_
  exact (neverMisses_many _).map _

/-! ## The loops of a document -/

/-- The loops of a document are greedy, whatever the symbols are, and also where they are empty or begin one another.
Every success of a rule that is repeated is further on in the text, so that a loop over it ends where the rule misses,
or fails with it; no loop in a description, a task, a list or a document ever gives up. Behind its name a task does not
miss any more: it succeeds or fails. -/
theorem loops_greedy (s : Symbols) (z : Zone) :
    ((lineOf s.description).Greedy ∧ (subtask s).Greedy ∧ (task s z).Greedy ∧ (taskList s z).Greedy) ∧
      (Machine.NeverGivesUp (description s) ∧ Machine.NeverGivesUp (task s z) ∧
        Machine.NeverGivesUp (taskList s z) ∧ Machine.NeverGivesUp (document s z)) ∧
      ∀ c, (task s z).run c = .miss ↔ (taskName s).run c = .miss := by
  refine ⟨⟨?_, ?_, ?_, ?_⟩, ⟨?_, ?_, ?_, ?_⟩, fun _ => run_task_eq_miss_iff⟩
  · exact (advances_lineOf s.description).greedy
  · exact advances_subtask.greedy
  · exact advances_task.greedy
  · exact advances_taskList.greedy
  · exact Machine.neverGivesUp_of_productive productive_description
  · exact Machine.neverGivesUp_of_productive productive_task
  · exact Machine.neverGivesUp_of_productive productive_taskList
  · exact Machine.neverGivesUp_of_productive productive_document

/-- Behind an empty symbol a blank alone is a line, and the loop ends where no blank stands. -/
example : (many (lineOf [])).run (.start " a\n \nb".toList) =
    .done ["a".toList, []] ((Cursor.start " a\n \nb".toList).advance 5) := by
  cbv

end Taskbook.Layout
