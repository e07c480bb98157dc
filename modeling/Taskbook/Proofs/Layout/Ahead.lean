/-
The parser of documents asks for its place, but only to tell where a bad due stands. So it reads a document in the same
way wherever the text stands, and with another text above it fails alike, if it fails, at the place in the whole text.
-/
import Taskbook.Document.Layout
import Taskbook.Proofs.Parser.Ahead

namespace Taskbook

/-- The two are the same failure, but a bad due may stand at another place. -/
inductive Failure.SameButPlace : Failure → Failure → Prop
  | badDue (text : Text) (line column line' column' : Int) :
    SameButPlace (.badDue text line column) (.badDue text line' column')
  | same (f : Failure) : SameButPlace f f

namespace Layout

open Outcome Taskbook.Parser Failure

variable {u : Text} {s : Symbols} {z : Zone}

/-! ## The parts of a document -/

theorem placeless_lineOf (symbol : Text) : (lineOf symbol).Placeless :=
  .andThen (.map (.andThen (.literal symbol) (.char ' ')) _) .line

theorem placeless_description (s : Symbols) : (description s).Placeless := (placeless_lineOf s.description).many.map _

theorem placeless_mark : mark.Placeless := by
  refine .map (.sequence ?_) _
  simp only [List.forall_mem_cons]
  exact ⟨.char '[', .orElse (.char 'x') (.char ' '), .char ']', .char ' ', nofun⟩

theorem placeless_subtask (s : Symbols) : (subtask s).Placeless :=
  .andThen (.map (.andThen (.literal s.subtask) (.char ' ')) _) (.bind placeless_mark fun _ => .map .line _)

theorem agrees_placeless {α : Type} {p : Parser Failure α} (hp : p.Placeless) : Agrees u SameButPlace p p :=
  agrees_of_placeless .same hp

/-- The place of a due decides nothing but what is said of a bad one. -/
theorem agrees_due : Agrees u SameButPlace (due s z) (due s z) := by
  intro c
  have hdueOf : ∀ text, Agrees u SameButPlace (dueOf s z c text) (dueOf s z (c.under u) text) := by
    rintro (_ | text) d
    · exact .done none d
    · simp only [dueOf]
      rcases Due.read text z with fault | _ | moment
      · exact .failed (.same _)
      · exact .failed (.badDue ..)
      · exact .done (some moment) d
  have hline : Agrees u SameButPlace (.optional (lineOf s.due)) (.optional (lineOf s.due)) :=
    agrees_placeless (.optional (placeless_lineOf s.due))
  unfold due
  rw [run, run]
  exact hline.bind hdueOf c

theorem agrees_task : Agrees u SameButPlace (task s z) (task s z) := by
  refine (agrees_placeless (placeless_lineOf s.task)).bind fun name => ?_
  refine agrees_due.bind fun moment => ?_
  refine (agrees_placeless (placeless_description s)).bind fun lines => ?_
  exact (agrees_placeless (placeless_subtask s).many).map _

theorem agrees_taskList : Agrees u SameButPlace (taskList s z) (taskList s z) :=
  (agrees_placeless (placeless_lineOf s.title)).bind fun _ => agrees_task.many.map _

theorem agrees_document : Agrees u SameButPlace (document s z) (document s z) :=
  agrees_taskList.many1.bind fun lists =>
    agrees_placeless (.andThen .skipBlanks (.andThen .endOfText (.succeed lists)))

/-! ## Reading behind another text -/

/-- What stands behind a place has no say in what is read from there. Put another text in front of a text: from the same
place in it a parser that does not ask for its place ends in the same way, with the same value, at a place that is
further from the start by that text, or with the same failure. So does the parser of documents, except that a bad due
is reported at its place in the whole text. -/
theorem run_behind_text (u t : Text) (i : Nat) :
    (∀ (ε α : Type) (p : Parser ε α), p.Placeless →
      Outcome.Under u Eq (p.run ((Cursor.start t).advance i))
        (p.run ((Cursor.start (u ++ t)).advance (u.length + i)))) ∧
    ∀ (s : Symbols) (z : Zone),
      Outcome.Under u SameButPlace ((document s z).run ((Cursor.start t).advance i))
        ((document s z).run ((Cursor.start (u ++ t)).advance (u.length + i))) := by
  rw [Cursor.advance_under]
  refine ⟨?_, ?_⟩
  · intro ε α p hp
    exact agrees_of_placeless (fun _ => rfl) hp _
  · intro s z
    exact agrees_document _

/-- A text that ends inside a break takes nothing from the break behind it, and a document is found behind a line that
is none of its own. -/
theorem run_behind_text_of_cut_break :
    (.line : Parser Failure Text).Placeless ∧
      (∃ c, c.offset = 3 ∧
        (.line : Parser Failure Text).run ((Cursor.start "a\r\nb".toList).advance 2) = .done [] c) ∧
      ∃ c, (document {} .utc).run ((Cursor.start "a\r\n## A\n".toList).advance 3) = .done [⟨"A".toList, []⟩] c := by
  have hline : (.line : Parser Failure Text).Placeless := .line
  refine ⟨hline, ?_, ?_⟩
  · have h := (run_behind_text "a\r".toList "\nb".toList 0).1 Failure Text .line hline
    exact ⟨_, rfl, h.eq_done⟩
  · have h := (run_behind_text "a\r\n".toList "## A\n".toList 0).2 {} .utc
    have hrun : (document {} .utc).run (.start "## A\n".toList) =
        .done [⟨"A".toList, []⟩] ((Cursor.start "## A\n".toList).advance 5) := by
      cbv
    exact ⟨_, (hrun ▸ h).eq_done⟩

end Layout

end Taskbook
