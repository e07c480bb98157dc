/-
Writing documents. All that can go wrong is a due that cannot be written, and the first such due decides how. Where
each due of one document is written as that of another, and the rest is the same, the two documents are.
-/
import Taskbook.Proofs.Document.Sound
import Taskbook.Proofs.Due.Writing
import Taskbook.Proofs.Rows

namespace Taskbook

open Text Calendar

/-! ## Dues -/

def TaskList.dues (l : TaskList) : List Moment := l.tasks.flatMap fun t => t.due.toList

def Document.dues (d : Document) : List Moment := d.flatMap TaskList.dues

theorem Document.Sound.zone_of_mem_dues {x : Document} (hx : x.Sound) {m : Moment} (hm : m ∈ x.dues) :
    m.zone ≠ none := by
  obtain ⟨l, hl, hm⟩ := List.mem_flatMap.1 hm
  obtain ⟨t, ht, hm⟩ := List.mem_flatMap.1 hm
  exact ((hx l hl).tasks t ht).due m (Option.mem_toList.1 hm)

namespace Layout

variable [Atlas] {s : Symbols} {style : TimeStyle}

/-! ## The parts of a text -/

/-- The line of a due that may be absent. -/
def dueLine (s : Symbols) (style : TimeStyle) : Option Moment → Except Fault Text
  | none => .ok []
  | some m => Task.renderDue m s style

theorem render_task_eq (t : Task) : t.render s style = (dueLine s style t.due).map fun due =>
    joinLines ([Task.renderName t.name s, due, ofOption (fun d => Task.renderDescription d s) t.description,
      Subtask.renderAll t.subtasks s].filter fun part => !part.isEmpty) := by
  unfold Task.render
  rcases t.due with _ | m
  · rfl
  · dsimp only [dueLine]
    cases Task.renderDue m s style <;> rfl

theorem render_list_eq (l : TaskList) : l.render s style = (l.tasks.mapM fun t : Task => t.render s style).map fun us =>
    spaced s.title l.title ++ '\n' :: ('\n' :: (joinLines us ++ if allBlank (joinLines us) then [] else ['\n'])) := by
  unfold TaskList.render
  rcases l.tasks.mapM fun t : Task => t.render s style with g | us
  · rfl
  · simp [Except.map, Bind.bind, Except.bind, pure, Except.pure, spaced]

theorem render_document_eq (x : Document) :
    x.render s style = (List.mapM (fun l => TaskList.render l s style) x).map joinLines := by
  unfold Document.render
  cases List.mapM (fun l => TaskList.render l s style) x <;> rfl

/-! ## What decides whether a document is written -/

/-- It is the writing of these moments that decides the outcome: all are written, or it fails as one of them does. -/
structure DecidedBy {α : Type} (style : TimeStyle) (ms : List Moment) (r : Except Fault α) : Prop where
  ok : ∀ {a}, r = .ok a → ∀ m ∈ ms, ∃ t, style.write m = .ok t
  error : ∀ {f}, r = .error f → ∃ m ∈ ms, style.write m = .error f

theorem DecidedBy.map {α β : Type} {ms : List Moment} {r : Except Fault α} (h : DecidedBy style ms r) (f : α → β) :
    DecidedBy style ms (r.map f) where
  ok := by
    intro b hb
    rcases r with g | a <;> cases hb
    exact h.ok rfl
  error := by
    intro g hg
    rcases r with g' | a <;> cases hg
    exact h.error rfl

theorem decidedBy_mapM {α : Type} {f : α → Except Fault Text} {dues : α → List Moment} {as : List α}
    (h : ∀ a ∈ as, DecidedBy style (dues a) (f a)) : DecidedBy style (as.flatMap dues) (as.mapM f) where
  ok := by
    intro us hus m hm
    obtain ⟨a, ha, hm⟩ := List.mem_flatMap.1 hm
    obtain ⟨u, hu⟩ := Rows.exists_mapM_eq_ok_iff.1 ⟨us, hus⟩ a ha
    exact (h a ha).ok hu m hm
  error := by
    intro g hg
    obtain ⟨before, a, after, -, rfl, -, ha⟩ := Rows.mapM_eq_error hg
    have hmem : a ∈ before ++ a :: after := List.mem_append_right _ (List.mem_cons_self ..)
    obtain ⟨m, hm, hw⟩ := (h a hmem).error ha
    exact ⟨m, List.mem_flatMap.2 ⟨a, hmem, hm⟩, hw⟩

/-- A due that may be absent decides whatever is made of its text. -/
theorem decidedBy_elim {α : Type} (due : Option Moment) (a : α) (f : Text → α) :
    DecidedBy style due.toList (due.elim (.ok a) fun m => (style.write m).map f) := by
  rcases due with _ | m
  · constructor
    · rintro _ - m ⟨⟩
    · rintro f ⟨⟩
  · have hw : DecidedBy style [m] (style.write m) := by
      constructor
      · intro t ht
        exact List.forall_mem_singleton.2 ⟨t, ht⟩
      · intro f hf
        exact ⟨m, List.mem_singleton_self m, hf⟩
    exact hw.map f

theorem decidedBy_dueLine (due : Option Moment) : DecidedBy style due.toList (dueLine s style due) := by
  cases due <;> exact decidedBy_elim _ [] (spaced s.due)

theorem decidedBy_render_task (t : Task) : DecidedBy style t.due.toList (t.render s style) := by
  rw [render_task_eq]
  exact (decidedBy_dueLine t.due).map _

theorem decidedBy_render_list (l : TaskList) : DecidedBy style l.dues (l.render s style) := by
  rw [render_list_eq]
  exact (decidedBy_mapM fun t _ => decidedBy_render_task t).map _

theorem decidedBy_render (x : Document) : DecidedBy style x.dues (x.render s style) := by
  rw [render_document_eq]
  exact (decidedBy_mapM fun l _ => decidedBy_render_list l).map _

end Layout

/-! ## Documents that differ in their dues -/

/-- The two tasks are the same but for their dues, which are related. -/
structure Task.Alike (R : Moment → Moment → Prop) (a b : Task) : Prop where
  name : a.name = b.name
  due : Option.Rel R a.due b.due
  description : a.description = b.description
  subtasks : a.subtasks = b.subtasks

structure TaskList.Alike (R : Moment → Moment → Prop) (a b : TaskList) : Prop where
  title : a.title = b.title
  tasks : List.Forall₂ (Task.Alike R) a.tasks b.tasks

def Document.Alike (R : Moment → Moment → Prop) : Document → Document → Prop := List.Forall₂ (TaskList.Alike R)

section Alike

variable {R S : Moment → Moment → Prop}

theorem Task.Alike.imp {a b : Task} (h : a.Alike R b) (himp : ∀ m ∈ a.due, ∀ m', R m m' → S m m') : a.Alike S b where
  name := h.name
  due := by
    have hdue := h.due
    generalize a.due = due, b.due = due' at hdue himp
    rcases hdue with hr | _
    · exact .some (himp _ rfl _ hr)
    · exact .none
  description := h.description
  subtasks := h.subtasks

theorem TaskList.Alike.imp {a b : TaskList} (h : a.Alike R b) (himp : ∀ m ∈ a.dues, ∀ m', R m m' → S m m') :
    a.Alike S b where
  title := h.title
  tasks := by
    refine Rows.forall₂_imp_of_mem h.tasks ?_
    intro t ht t' halike
    refine halike.imp fun m hm => himp m ?_
    exact List.mem_flatMap.2 ⟨t, ht, Option.mem_toList.2 hm⟩

theorem Document.Alike.imp {x y : Document} (h : x.Alike R y) (himp : ∀ m ∈ x.dues, ∀ m', R m m' → S m m') :
    x.Alike S y := by
  refine Rows.forall₂_imp_of_mem h ?_
  intro l hl l' halike
  exact halike.imp fun m hm => himp m (List.mem_flatMap.2 ⟨l, hl, hm⟩)

theorem Document.Alike.dues {x y : Document} (h : x.Alike R y) : List.Forall₂ R x.dues y.dues := by
  refine List.rel_flatMap h ?_
  intro l l' hl
  refine List.rel_flatMap hl.tasks ?_
  rintro ⟨_, due, _, _⟩ ⟨_, due', _, _⟩ ht
  rcases ht.due with hr | _
  · exact .cons hr .nil
  · exact .nil

variable [Atlas] {s : Symbols} {style : TimeStyle}

/-- Whatever is made of how a due is written is the same for both. -/
theorem Task.Alike.elim_due {β : Type} {a b : Task} (h : a.Alike (fun m m' => style.write m = style.write m') b)
    (absent : β) (f : Except Fault Text → β) :
    a.due.elim absent (fun m => f (style.write m)) = b.due.elim absent fun m => f (style.write m) := by
  have hdue := h.due
  generalize a.due = due, b.due = due' at hdue
  rcases hdue with hw | _
  · exact congrArg f hw
  · rfl

theorem Task.Alike.render_eq {a b : Task} (h : a.Alike (fun m m' => style.write m = style.write m') b) :
    a.render s style = b.render s style := by
  have hline : ∀ due, Layout.dueLine s style due = due.elim (.ok []) fun m => (style.write m).map (spaced s.due) := by
    rintro (_ | m) <;> rfl
  rw [Layout.render_task_eq, Layout.render_task_eq, hline, hline, h.elim_due, h.name, h.description, h.subtasks]

theorem TaskList.Alike.render_eq {a b : TaskList} (h : a.Alike (fun m m' => style.write m = style.write m') b) :
    a.render s style = b.render s style := by
  have htasks : List.Forall₂ (fun t t' => Task.render t s style = Task.render t' s style) a.tasks b.tasks :=
    h.tasks.imp fun _ _ ht => ht.render_eq
  rw [Layout.render_list_eq, Layout.render_list_eq, h.title, Rows.mapM_congr htasks]

theorem Document.Alike.render_eq {x y : Document} (h : x.Alike (fun m m' => style.write m = style.write m') y) :
    x.render s style = y.render s style := by
  have hlists : List.Forall₂ (fun l l' => TaskList.render l s style = TaskList.render l' s style) x y :=
    List.Forall₂.imp (fun _ _ hl => hl.render_eq) h
  rw [Layout.render_document_eq, Layout.render_document_eq, Rows.mapM_congr hlists]

end Alike

/-! ## Documents that were read -/

/-- A document that was read is written unless one of its dues leads out of the calendar in the zone in which it is
shown, whatever the zone and the symbols; nothing else goes wrong. Dues that are two days away from both ends of the
calendar never do. -/
theorem Document.render_of_parse [Atlas] {t : Text} {s : Symbols} {z : Zone} {x : Document}
    (h : Document.parse t s z = .ok x) (s' : Symbols) (style : TimeStyle) :
    ((∃ u, x.render s' style = .ok u) ↔ ∀ m ∈ x.dues, m.Fits style.zone) ∧
      (∀ f, x.render s' style = .error f → f = .overflow) ∧
      ((∀ m ∈ x.dues, 2 * microsPerDay ≤ m.wall.micros ∧
          m.wall.micros + 2 * microsPerDay ≤ dayCount * microsPerDay) → ∃ u, x.render s' style = .ok u) := by
  have hzone : ∀ m ∈ x.dues, m.zone ≠ none := fun m hm => (Document.sound_of_parse h).1.zone_of_mem_dues hm
  have hdecided := @Layout.decidedBy_render _ s' style x
  have hiff : (∃ u, x.render s' style = .ok u) ↔ ∀ m ∈ x.dues, m.Fits style.zone := by
    constructor
    · rintro ⟨u, hu⟩ m hm
      exact (TimeStyle.exists_write_iff (hzone m hm)).1 (hdecided.ok hu m hm)
    · intro hfits
      rcases hr : x.render s' style with f | u
      · obtain ⟨m, hm, hw⟩ := hdecided.error hr
        obtain ⟨text, htext⟩ := (TimeStyle.exists_write_iff (hzone m hm)).2 (hfits m hm)
        rw [hw] at htext
        cases htext
      · exact ⟨u, rfl⟩
  refine ⟨hiff, ?_, ?_⟩
  · intro f hf
    obtain ⟨m, hm, hw⟩ := hdecided.error hf
    exact TimeStyle.write_eq_error (hzone m hm) hw
  · intro hbetween
    exact hiff.2 fun m hm => Moment.fits_of_between (hbetween m hm).1 (hbetween m hm).2 _

/-- A text that spells a single task with a due. -/
theorem Layout.parse_of_scan_due {s : Symbols} {z : Zone} {t text : Text} {m : Moment} (title name : Text)
    (hscan : (scan s [.title] (.start t)).1.map Found.entry = [.title title, .task name, .due text] ∧
      (scan s [.title] (.start t)).2.ahead = []) (hread : Due.read text z = .ok (some m)) :
    Document.parse t s z = .ok [⟨title, [⟨name, some m, none, []⟩]⟩] := by
  obtain ⟨htitle, hend⟩ := hscan
  have hspell : spell s z (scan s [.title] (.start t)).1 = .ok { lists := [⟨title, [⟨name, some m, none, []⟩]⟩] } := by
    generalize (scan s [.title] (.start t)).1 = es at htitle
    obtain ⟨⟨p, _⟩, es, rfl, rfl, htask⟩ := List.map_eq_cons_iff.1 htitle
    obtain ⟨⟨p', _⟩, es, rfl, rfl, hdue⟩ := List.map_eq_cons_iff.1 htask
    obtain ⟨⟨p'', _⟩, es, rfl, rfl, hnil⟩ := List.map_eq_cons_iff.1 hdue
    cases List.map_eq_nil_iff.1 hnil
    unfold spell
    simp only [List.mapM_cons, resolve, hread]
    rfl
  refine parse_of_spell hspell (List.cons_ne_nil _ _) ?_
  rw [hend]
  rfl

open scoped Place in
/-- The second day begins an hour to the east while it is still the first one in universal time. -/
theorem Document.render_of_parse_of_second_day : ∃ x : Document,
    Document.parse "## A\n- t\n    @ 0001-01-02T00:00+01:00\n".toList {} .system = .ok x ∧
      ∃ u, x.render {} .universal = .ok u := by
  have hread : Due.read "0001-01-02T00:00+01:00".toList .system =
      .ok (some { wall := ⟨86400000000, by decide⟩, zone := some (.written { micros := 3600000000 }) }) := by
    decide +kernel
  have hparse : Document.parse "## A\n- t\n    @ 0001-01-02T00:00+01:00\n".toList {} .system = _ :=
    Layout.parse_of_scan_due "A".toList "t".toList (by decide +kernel) hread
  refine ⟨_, hparse, (Document.render_of_parse hparse {} .universal).1.2 ?_⟩
  exact List.forall_mem_singleton.2 (.inr ⟨by decide, by decide⟩)

open scoped Place in
/-- The first day of the calendar in the mean time of a place is read, and cannot be written in universal time or in
that of the place. -/
theorem Document.render_overflows_on_first_day : ∃ x : Document,
    Document.parse "## A\n\n- t\n    @ 0001-01-01T00:00:00+05:53:28\n".toList {} (.place Place.kolkata.name) = .ok x ∧
      x.render {} .universal = .error .overflow ∧
      x.render {} (.zoned (.place Place.kolkata.name)) = .error .overflow := by
  have hread : Due.read "0001-01-01T00:00:00+05:53:28".toList (.place Place.kolkata.name) =
      .ok (some { wall := ⟨0, by decide⟩, zone := some (.written { micros := 21208000000 }) }) := by
    decide +kernel
  have hparse :
      Document.parse "## A\n\n- t\n    @ 0001-01-01T00:00:00+05:53:28\n".toList {} (.place Place.kolkata.name) = _ :=
    Layout.parse_of_scan_due "A".toList "t".toList (by decide +kernel) hread
  exact ⟨_, hparse, rfl, rfl⟩

end Taskbook
