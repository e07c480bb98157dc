/-
What a check and a listing show of a document. Where its dues can be written, showing it succeeds from every world and
does nothing else; and documents that are the same but for dues which are written in the same way show the same.
-/
import Taskbook.Command.Run
import Taskbook.Proofs.Document.Writing
import Taskbook.Proofs.Session.Steps

namespace Taskbook.Command

open Session Calendar

/-! ## Steps that show -/

/-- From every world the step succeeds, adds this text to what is shown and does nothing else. -/
def Shows (m : Session Unit) (t : Text) : Prop := ∀ w, outcome m w = (.ok (), { w with shown := w.shown ++ t })

theorem shows_pure : Shows (pure ()) [] := by
  intro w
  rw [outcome_pure, List.append_nil]

theorem shows_say (line : Text) : Shows (say line) (line ++ ['\n']) := by
  intro w
  rw [← List.append_assoc]
  rfl

theorem Shows.bind {m m' : Session Unit} {t t' : Text} (h : Shows m t) (h' : Shows m' t') :
    Shows (m >>= fun _ => m') (t ++ t') := by
  intro w
  rw [outcome_bind, h w]
  dsimp only
  rw [h', List.append_assoc]

theorem shows_settle {α : Type} {r : Except Failure α} {a : α} {f : α → Session Unit} {t : Text} (hr : r = .ok a)
    (h : Shows (f a) t) : Shows (settle r >>= f) t := by
  intro w
  rw [outcome_bind, outcome_settle.2 ⟨hr, rfl⟩]
  exact h w

theorem shows_forM {α : Type} {f : α → Session Unit} {as : List α} (h : ∀ a ∈ as, ∃ t, Shows (f a) t) :
    ∃ t, Shows (as.forM f) t := by
  induction as with
  | nil => exact ⟨[], shows_pure⟩
  | cons a as ih =>
    obtain ⟨ha, has⟩ := List.forall_mem_cons.1 h
    obtain ⟨t, ht⟩ := ha
    obtain ⟨t', ht'⟩ := ih has
    exact ⟨t ++ t', ht.bind ht'⟩

theorem forM_congr {α β : Type} {f : α → Session Unit} {g : β → Session Unit} {as : List α} {bs : List β}
    (h : List.Forall₂ (fun a b => f a = g b) as bs) : as.forM f = bs.forM g := by
  induction h with
  | nil => rfl
  | @cons a b as bs hab _ ih =>
    show (f a >>= fun _ => as.forM f) = (g b >>= fun _ => bs.forM g)
    rw [hab, ih]

theorem forall₂_zipIdx {α β : Type} {R : α → β → Prop} {as : List α} {bs : List β} (h : List.Forall₂ R as bs)
    (n : Nat) :
    List.Forall₂ (fun x y => R x.1 y.1 ∧ x.2 = y.2) (as.zipIdx n) (bs.zipIdx n) := by
  induction h generalizing n with
  | nil => exact .nil
  | cons hab _ ih => exact .cons ⟨hab, rfl⟩ (ih (n + 1))

/-! ## The lines of a task -/

variable [Atlas] {s : Symbols} {showDone : Bool} {style : TimeStyle}

theorem taskLine_eq (number : Nat) (t : Task) : taskLine number t style =
    (t.due.elim (.ok []) fun m => (style.write m).map fun d => "  (due ".toList ++ d ++ [')']).map fun due =>
      Text.alignRight 3 (Text.digits number) ++ ". ".toList ++ t.name ++ due := by
  unfold taskLine
  rcases t.due with _ | m
  · rfl
  · dsimp only [Option.elim]
    cases style.write m <;> rfl

theorem shows_showTask {t : Task} (h : ∀ m ∈ t.due, ∃ text, style.write m = .ok text) (number : Nat) :
    ∃ text, Shows (showTask showDone style number t) text := by
  obtain ⟨line, hline⟩ : ∃ line, taskLine number t style = .ok line := by
    rw [taskLine_eq]
    rcases hdue : t.due with _ | m
    · exact ⟨_, rfl⟩
    · obtain ⟨text, htext⟩ := h m hdue
      rw [Option.elim, htext]
      exact ⟨_, rfl⟩
  obtain ⟨items, hitems⟩ := @shows_forM _ (fun st : Subtask => say ("       ".toList ++
    Text.spaced (Subtask.mark st.complete) st.name)) (t.subtasks.filter fun st => showDone || !st.complete)
    fun st _ => ⟨_, shows_say _⟩
  unfold showTask
  rw [hline]
  exact ⟨_, shows_settle rfl ((shows_say line).bind hitems)⟩

theorem showTask_congr {t t' : Task} (h : t.Alike (fun m m' => style.write m = style.write m') t') (number : Nat) :
    showTask showDone style number t = showTask showDone style number t' := by
  unfold showTask
  rw [taskLine_eq, taskLine_eq, h.elim_due _ (Except.map _), h.name, h.subtasks]

/-! ## The lines of a document -/

/-- What stands in the place of tasks where there is none. -/
def emptyNote (l : TaskList) : Session Unit := if l.tasks.isEmpty then say "  (no tasks)".toList else pure ()

theorem showList_eq (l : TaskList) : showList s showDone style l = say (Text.spaced s.title l.title) >>= fun _ =>
    emptyNote l >>= fun _ => (l.tasks.zipIdx 1).forM fun x => showTask showDone style x.2 x.1 := by
  unfold showList emptyNote
  split
  · rfl
  · rw [pure_bind]

theorem shows_showList {l : TaskList} (h : ∀ m ∈ l.dues, ∃ text, style.write m = .ok text) :
    ∃ text, Shows (showList s showDone style l) text := by
  obtain ⟨tasks, htasks⟩ : ∃ text, Shows ((l.tasks.zipIdx 1).forM fun x => showTask showDone style x.2 x.1) text := by
    refine shows_forM ?_
    rintro ⟨t, number⟩ ht
    refine shows_showTask (fun m hm => h m ?_) number
    exact List.mem_flatMap.2 ⟨t, List.fst_mem_of_mem_zipIdx ht, Option.mem_toList.2 hm⟩
  obtain ⟨note, hnote⟩ : ∃ text, Shows (emptyNote l) text := by
    unfold emptyNote
    split
    · exact ⟨_, shows_say _⟩
    · exact ⟨_, shows_pure⟩
  rw [showList_eq]
  exact ⟨_, (shows_say _).bind (hnote.bind htasks)⟩

theorem showList_congr {l l' : TaskList} (h : l.Alike (fun m m' => style.write m = style.write m') l') :
    showList s showDone style l = showList s showDone style l' := by
  have hempty : emptyNote l = emptyNote l' := by
    have htasks := h.tasks
    unfold emptyNote
    generalize l.tasks = ts, l'.tasks = ts' at htasks
    cases htasks <;> rfl
  have htasks : (l.tasks.zipIdx 1).forM (fun x => showTask showDone style x.2 x.1) =
      (l'.tasks.zipIdx 1).forM fun x => showTask showDone style x.2 x.1 := by
    refine forM_congr ((forall₂_zipIdx h.tasks 1).imp ?_)
    rintro ⟨t, number⟩ ⟨t', _⟩ ⟨halike, rfl⟩
    exact showTask_congr halike number
  rw [showList_eq, showList_eq, h.title, hempty, htasks]

/-! ## What an action shows -/

/-- What an action shows of the document that it has read. -/
def display (a : Action) (s : Symbols) (style : TimeStyle) (d : Document) : Session Unit :=
  match a with
  | .convert => pure ()
  | .check => say (counts d)
  | .list showDone => d.forM (showList s showDone style)

theorem shows_display {d : Document} (h : ∀ m ∈ d.dues, ∃ text, style.write m = .ok text) (a : Action) :
    ∃ text, Shows (display a s style d) text := by
  cases a with
  | convert => exact ⟨_, shows_pure⟩
  | check => exact ⟨_, shows_say _⟩
  | list showDone =>
    refine shows_forM fun l hl => shows_showList fun m hm => h m ?_
    exact List.mem_flatMap.2 ⟨l, hl, hm⟩

omit [Atlas] in
theorem counts_congr {R : Moment → Moment → Prop} {d d' : Document} (h : d.Alike R d') : counts d = counts d' := by
  have htasks : List.Forall₂ (Task.Alike R) d.tasks d'.tasks := List.rel_flatMap h fun _ _ hl => hl.tasks
  have hsubtasks : (Document.tasks d).flatMap (fun t => t.subtasks) =
      (Document.tasks d').flatMap fun t => t.subtasks := by
    generalize Document.tasks d = ts, Document.tasks d' = ts' at htasks
    induction htasks with
    | nil => rfl
    | cons ht _ ih => rw [List.flatMap_cons, List.flatMap_cons, ht.subtasks, ih]
  unfold counts
  rw [htasks.length_eq, hsubtasks, List.Forall₂.length_eq h]

theorem display_congr {d d' : Document} (h : d.Alike (fun m m' => style.write m = style.write m') d') (a : Action) :
    display a s style d = display a s style d' := by
  cases a with
  | convert => rfl
  | check => exact congrArg say (counts_congr h)
  | list showDone => exact forM_congr (List.Forall₂.imp (fun _ _ => showList_congr) h)

end Taskbook.Command
