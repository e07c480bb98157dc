/-
Writing and reading back. Each part of a document is written as the lines of its entries, and these are
read as a document that concurs with the first one: it differs at most in how the instants of its dues are
told.
-/
import Taskbook.Proofs.Document.Writing

namespace Taskbook

open Text Layout Calendar

/-! ## Concurring documents -/

/-- The two say the same; their dues may be those of different zones, but at the same instants. -/
structure Task.Concurs [Atlas] (a b : Task) : Prop where
  name : a.name = b.name
  due : Option.Rel (fun m m' => m.instant = m'.instant) a.due b.due
  description : a.description = b.description
  subtasks : a.subtasks = b.subtasks

structure TaskList.Concurs [Atlas] (a b : TaskList) : Prop where
  title : a.title = b.title
  tasks : List.Forall₂ Task.Concurs a.tasks b.tasks

def Document.Concurs [Atlas] : Document → Document → Prop := List.Forall₂ TaskList.Concurs

namespace Layout

variable {s : Symbols} {style : TimeStyle}

/-! ## Texts that spell entries -/

/-- The lines of the text are read as these entries. -/
def Spells (s : Symbols) (u : Text) (es' : List (Entry Moment)) : Prop :=
  ∃ es, lineTexts u = es.map (Entry.line s) ∧ List.Forall₂ Reads es es'

theorem spells_nil : Spells s [] [] := ⟨[], lineTexts_nil, .nil⟩

theorem Spells.append_lf {u t : Text} {es es' : List (Entry Moment)} (hne : u ≠ []) (hu : Spells s u es)
    (ht : Spells s (t.dropWhile isBreak) es') : Spells s (u ++ '\n' :: t) (es ++ es') := by
  obtain ⟨fs, hl, hr⟩ := hu
  obtain ⟨fs', hl', hr'⟩ := ht
  exact ⟨fs ++ fs', by rw [lineTexts_append_lf hne, hl, hl', List.map_append], List.rel_append hr hr'⟩

/-- Texts that each spell some entries spell all of them when they are joined. -/
theorem spells_joinLines {us : List Text} {ess : List (List (Entry Moment))} (hs : ∀ u ∈ us, Started u)
    (h : List.Forall₂ (Spells s) us ess) : Spells s (joinLines us) ess.flatten := by
  induction h with
  | nil => exact spells_nil
  | @cons u es us ess hu h ih =>
    obtain ⟨hu', hus⟩ := List.forall_mem_cons.1 hs
    rcases eq_or_ne us [] with rfl | hne
    · cases h
      simpa using hu
    · rw [joinLines_cons u hne]
      exact hu.append_lf hu'.ne_nil (by rw [(started_joinLines hne hus).dropWhile_eq]; exact ih hus)

theorem started_spaced {p : Text} (hp : Unbroken p) (t : Text) : Started (spaced p t) := by
  cases p with
  | nil => exact ⟨' ', t, rfl, isBreak_blank⟩
  | cons c p => exact ⟨c, p ++ ' ' :: t, rfl, (unbroken_cons.1 hp).1⟩

theorem unbroken_spaced {p t : Text} (hp : Unbroken p) (ht : Unbroken t) : Unbroken (spaced p t) := by
  unfold spaced
  rw [unbroken_append, unbroken_cons]
  exact ⟨hp, isBreak_blank, ht⟩

variable (hs : s.Compatible)
include hs

/-- The line of an entry without breaks spells this entry. -/
theorem started_line (e : Entry Text) : Started (e.line s) := by
  cases e with
  | title t => exact started_spaced (hs.unbroken .title) t
  | task name => exact started_spaced (hs.unbroken .task) name
  | due text => exact started_spaced (hs.unbroken .due) text
  | description l => exact started_spaced (hs.unbroken .description) l
  | subtask st => exact started_spaced (hs.unbroken .subtask) _

theorem unbroken_line {e : Entry Text} (he : e.Sound Unbroken) : Unbroken (e.line s) := by
  cases e with
  | title t => exact unbroken_spaced (hs.unbroken .title) he
  | task name => exact unbroken_spaced (hs.unbroken .task) he
  | due text => exact unbroken_spaced (hs.unbroken .due) he
  | description l => exact unbroken_spaced (hs.unbroken .description) he
  | subtask st =>
    have hm : Unbroken (Subtask.mark st.complete) := (unbroken_append.1 (LineMachine.unbroken_mark st.complete)).1
    exact unbroken_spaced (hs.unbroken .subtask) (unbroken_spaced hm he)

theorem spells_line {e : Entry Text} {e' : Entry Moment} (he : e.Sound Unbroken) (hr : Reads e e') :
    Spells s (e.line s) [e'] :=
  ⟨[e], lineTexts_unbroken (unbroken_line hs he) (started_line hs e).ne_nil, .cons hr .nil⟩

/-- The lines of some entries, one under the other, spell these entries. -/
theorem spells_lines {es : List (Entry Text)} {es' : List (Entry Moment)} (he : ∀ e ∈ es, e.Sound Unbroken)
    (hr : List.Forall₂ Reads es es') : Spells s (joinLines (es.map (Entry.line s))) es' := by
  have hlines : ∀ e ∈ es, lineTexts (e.line s) = [e.line s] := fun e hm =>
    lineTexts_unbroken (unbroken_line hs (he e hm)) (started_line hs e).ne_nil
  refine ⟨es, ?_, hr⟩
  rw [lineTexts_joinLines (List.forall_mem_map.2 fun e _ => started_line hs e), List.flatMap_map]
  clear he hr
  induction es with
  | nil => rfl
  | cons e es ih =>
    obtain ⟨h, hlines⟩ := List.forall_mem_cons.1 hlines
    rw [List.flatMap_cons, h, ih hlines]
    rfl

theorem started_lines {es : List (Entry Text)} (hne : es ≠ []) : Started (joinLines (es.map (Entry.line s))) :=
  started_joinLines (by simpa using hne) (List.forall_mem_map.2 fun e _ => started_line hs e)

omit hs

/-! ## What comes back -/

/-- The text is read as `b`, which is alike to what was written. -/
structure Echo {α : Type} (s : Symbols) (entries : α → List (Entry Moment)) (alike : α → α → Prop) (good : α → Prop)
    (a : α) (u : Text) (b : α) : Prop where
  alike : alike a b
  good : good b
  started : Started u
  spells : Spells s u (entries b)

/-- What is written of a row comes back entry by entry. -/
theorem Echo.mapM {α : Type} {f : α → Except Fault Text} {entries : α → List (Entry Moment)} {alike : α → α → Prop}
    {good : α → Prop} {as : List α} {us : List Text}
    (h : ∀ a ∈ as, ∀ u, f a = .ok u → ∃ b, Echo s entries alike good a u b) (hm : as.mapM f = .ok us) :
    ∃ bs, List.Forall₂ alike as bs ∧ (∀ b ∈ bs, good b) ∧ (∀ u ∈ us, Started u) ∧
      Spells s (joinLines us) (bs.flatMap entries) := by
  have hrows : ∃ bs, List.Forall₂ alike as bs ∧ (∀ b ∈ bs, good b) ∧ (∀ u ∈ us, Started u) ∧
      List.Forall₂ (Spells s) us (bs.map entries) := by
    rw [Rows.mapM_eq_ok_iff] at hm
    induction hm with
    | nil => exact ⟨[], .nil, nofun, nofun, .nil⟩
    | @cons a u as us hu _ ih =>
      obtain ⟨ha, has⟩ := List.forall_mem_cons.1 h
      obtain ⟨b, hb⟩ := ha u hu
      obtain ⟨bs, halike, hgood, hstart, hspell⟩ := ih has
      exact ⟨b :: bs, .cons hb.alike halike, List.forall_mem_cons.2 ⟨hb.good, hgood⟩,
        List.forall_mem_cons.2 ⟨hb.started, hstart⟩, .cons hb.spells hspell⟩
  obtain ⟨bs, halike, hgood, hstart, hspell⟩ := hrows
  refine ⟨bs, halike, hgood, hstart, ?_⟩
  rw [List.flatMap_def]
  exact spells_joinLines hstart hspell

/-! ## Tasks -/

/-- The line of a due, and the due that is read of it. -/
theorem due_echo [Atlas] (hz : style.zone.Legible) {due : Option Moment} {t : Text} (hd : ∀ m ∈ due, m.zone ≠ none)
    (h : dueLine s style due = .ok t) : ∃ due', Option.Rel style.Echoes due due' ∧
      ∃ es, t = joinLines (es.map (Entry.line s)) ∧ (∀ e ∈ es, e.Sound Unbroken) ∧
        List.Forall₂ Reads es (due'.toList.map .due) := by
  cases due with
  | none =>
    cases h
    exact ⟨none, .none, [], rfl, by simp, .nil⟩
  | some m =>
    rw [dueLine, Task.renderDue] at h
    rcases hw : style.write m with g | text
    · rw [hw] at h; cases h
    · rw [hw] at h
      cases h
      have hm := hd m rfl
      obtain ⟨m', hread, -⟩ := Due.read_write hz hm hw
      have hreads : Reads (.due text) (.due m') := by
        intro s z place
        unfold resolve
        simp only [hread z]
      refine ⟨some m', .some ⟨hm, text, hw, hread⟩, [.due text], (joinLines_singleton _).symm, ?_, .cons hreads .nil⟩
      exact List.forall_mem_singleton.2 (Due.unbroken_of_write hz hm hw)

/-- Blocks of lines, those without a line left out, make up all the lines. -/
theorem joinLines_blocks {blocks : List (List Text)} (h : ∀ b ∈ blocks, ∀ l ∈ b, l ≠ []) :
    joinLines ((blocks.map joinLines).filter fun t => !t.isEmpty) = joinLines blocks.flatten := by
  have hempty : ∀ b ∈ blocks, (!(joinLines b).isEmpty) = !b.isEmpty := by
    intro b hb
    rcases eq_or_ne b [] with rfl | hne
    · rfl
    · rw [List.isEmpty_eq_false_iff.2 (joinLines_ne_nil hne (h b hb)), List.isEmpty_eq_false_iff.2 hne]
  have hfilter : (blocks.map joinLines).filter (fun t => !t.isEmpty) =
      (blocks.filter fun b => !b.isEmpty).map joinLines := by
    rw [List.filter_map]
    exact congrArg _ (List.filter_congr hempty)
  have hkept : ∀ b ∈ blocks.filter fun b => !b.isEmpty, b ≠ [] := by
    intro b hb
    simpa using (List.mem_filter.1 hb).2
  rw [hfilter, joinLines_flatten hkept, List.flatten_filter_not_isEmpty]

/-- A task in writing is the lines of its entries, with that of the due as it is written. -/
theorem render_task [Atlas] (hs : s.Compatible) (t : Task) {es : List (Entry Text)}
    (hdue : dueLine s style t.due = .ok (joinLines (es.map (Entry.line s)))) :
    t.render s style = .ok (joinLines ((.task t.name :: (es ++
      (((t.description.map splitLines).getD []).map .description ++
        t.subtasks.map .subtask))).map (Entry.line s))) := by
  have hdescription : ofOption (fun d => Task.renderDescription d s) t.description =
      joinLines ((((t.description.map splitLines).getD []).map .description).map (Entry.line s)) := by
    rcases t.description with _ | d
    · rfl
    · unfold ofOption Task.renderDescription
      rw [List.map_map]
      rfl
  have hsubtasks : Subtask.renderAll t.subtasks s = joinLines ((t.subtasks.map .subtask).map (Entry.line s)) := by
    unfold Subtask.renderAll
    rw [List.map_map]
    rfl
  have hblocks := @joinLines_blocks [[(Entry.task t.name).line s], es.map (Entry.line s),
    (((t.description.map splitLines).getD []).map .description).map (Entry.line s),
    (t.subtasks.map .subtask).map (Entry.line s)] (by simp [(started_line hs _).ne_nil])
  simp only [List.map_cons, List.map_nil, joinLines_singleton, ← hdescription, ← hsubtasks] at hblocks
  rw [render_task_eq, hdue]
  simp only [Except.map]
  rw [Task.renderName, show spaced s.task t.name = (Entry.task t.name).line s from rfl, hblocks]
  simp

theorem task_echo [Atlas] (hz : style.zone.Legible) (hs : s.Compatible) {t : Task} {u : Text} (ht : t.Sound)
    (h : t.render s style = .ok u) : ∃ t', Echo s Task.entries (Task.Alike style.Echoes) Task.Described t u t' := by
  rcases hdue : dueLine s style t.due with g | line
  · rw [render_task_eq, hdue] at h; cases h
  · obtain ⟨due', hrel, es, rfl, hes, hreads⟩ := due_echo hz ht.due hdue
    rw [render_task hs t hdue] at h
    cases h
    have hlines : ∀ l ∈ (t.description.map splitLines).getD [], Unbroken l := by
      intro l hl
      rcases hd : t.description with _ | d <;> rw [hd] at hl
      · cases hl
      · exact unbroken_of_mem_splitLines hl
    -- only the due may come back as another one
    refine ⟨{ t with due := due' }, ⟨rfl, hrel, rfl, rfl⟩, ht.description, started_lines hs (List.cons_ne_nil _ _), ?_⟩
    have hlinesRead := reads_map fun l : Text => (fun _ _ _ => rfl : Reads (.description l) (.description l))
    have hitemsRead := reads_map fun st : Subtask => (fun _ _ _ => rfl : Reads (.subtask st) (.subtask st))
    refine spells_lines hs ?_
      (.cons (fun _ _ _ => rfl) (List.rel_append hreads (List.rel_append (hlinesRead _) (hitemsRead _))))
    simp only [List.forall_mem_cons, List.forall_mem_append, List.forall_mem_map]
    exact ⟨ht.name, hes, hlines, ht.subtasks⟩

theorem list_echo [Atlas] (hz : style.zone.Legible) (hs : s.Compatible) {l : TaskList} {u : Text} (hl : l.Sound)
    (h : l.render s style = .ok u) :
    ∃ l', Echo s TaskList.entries (TaskList.Alike style.Echoes) (fun l => ∀ t ∈ l.tasks, t.Described) l u l' := by
  rw [render_list_eq] at h
  rcases hm : l.tasks.mapM fun t : Task => t.render s style with g | us <;> rw [hm] at h <;> cases h
  obtain ⟨ts, halike, hd, hstart, hspell⟩ := Echo.mapM (fun t ht u hu => task_echo hz hs (hl.tasks t ht) hu) hm
  refine ⟨{ l with tasks := ts }, ⟨rfl, halike⟩, hd, ?_, ?_⟩
  · exact (started_spaced (hs.unbroken .title) _).append _
  · have htitle : Spells s (spaced s.title l.title) [.title l.title] :=
      @spells_line s hs (.title l.title) (.title l.title) hl.title fun _ _ _ => rfl
    refine htitle.append_lf (started_spaced (hs.unbroken .title) _).ne_nil ?_
    rw [List.dropWhile_cons_of_pos isBreak_lf]
    rcases eq_or_ne us [] with rfl | hne
    · exact hspell
    · -- the body begins with a task, and a line feed at its end makes no line
      have hbody := started_joinLines hne hstart
      rw [(hbody.append _).dropWhile_eq]
      split
      · rw [List.append_nil]; exact hspell
      · have hend : Spells s (joinLines us ++ ['\n']) _ := hspell.append_lf hbody.ne_nil spells_nil
        rwa [List.append_nil] at hend

end Layout

section Documents

variable [Atlas] {x y : Document} {s : Symbols} {style : TimeStyle} {u : Text}

theorem Task.Alike.concurs {a b : Task} (h : a.Alike (fun m m' => m.instant = m'.instant) b) : a.Concurs b :=
  ⟨h.name, h.due, h.description, h.subtasks⟩

theorem Document.Alike.concurs (h : x.Alike (fun m m' => m.instant = m'.instant) y) : x.Concurs y :=
  List.Forall₂.imp (fun _ _ hl => ⟨hl.title, hl.tasks.imp fun _ _ ht => ht.concurs⟩) h

/-- A sound document that is written is read back, in every zone, as one that is the same but for its dues, which come
back as they were written. -/
theorem Document.exists_echo (hz : style.zone.Legible) (hs : s.Compatible) (hx : x.Sound) (hne : x ≠ [])
    (h : x.render s style = .ok u) : ∃ y : Document, (∀ z, Document.parse u s z = .ok y) ∧ x.Alike style.Echoes y := by
  rw [render_document_eq] at h
  rcases hm : List.mapM (fun l => TaskList.render l s style) x with g | us <;> rw [hm] at h <;> cases h
  obtain ⟨y, halike, hd, -, es, hlines, hreads⟩ := Echo.mapM (fun l hl u hu => list_echo hz hs (hx l hl) hu) hm
  have hyne : y ≠ [] := by
    rintro rfl
    cases halike
    exact hne rfl
  exact ⟨y, parse_of_lineTexts hs hyne hd hlines hreads, halike⟩

/-- A sound document that is written is read back, in every zone, as one that concurs with it; in universal
time that one is written in the same way. -/
theorem Document.echo (hz : style.zone.Legible) (hs : s.Compatible) (hx : x.Sound) (hne : x ≠ [])
    (h : x.render s style = .ok u) :
    ∃ y : Document, (∀ z, Document.parse u s z = .ok y) ∧ Document.Concurs x y ∧
      (style = .universal → y.render s style = .ok u) := by
  obtain ⟨y, hparse, halike⟩ := Document.exists_echo hz hs hx hne h
  refine ⟨y, hparse, (halike.imp fun m _ m' hm => (hm.spec hz).1).concurs, ?_⟩
  intro hstyle
  rw [← h, (halike.imp fun m _ m' hm => ((hm.spec hz).2 hstyle).symm).render_eq]

/-- A document that was written in the time of a zone and read back is written in the same way again exactly if the
clocks of the zone show, as they stand, the dues that belonged to this zone. -/
theorem Document.render_again_iff {z z' : Zone} (hz : z.Legible) (hs : s.Compatible) (hx : x.Sound) (hne : x ≠ [])
    (h : x.render s (.zoned z) = .ok u) (hy : Document.parse u s z' = .ok y) :
    y.render s (.zoned z) = .ok u ↔ ∀ m ∈ x.dues, m.zone = some z → m.ShownBy z := by
  have hstyle : (TimeStyle.zoned z).zone.Legible := hz
  obtain ⟨y', hparse, halike⟩ := Document.exists_echo hstyle hs hx hne h
  cases (hparse z').symm.trans hy
  constructor
  · intro hagain
    -- the text is read as the same document again, so its dues echo themselves
    obtain ⟨hsound, hyne⟩ := Document.sound_of_parse hy
    obtain ⟨y', hparse', hself⟩ := Document.exists_echo hstyle hs hsound hyne hagain
    cases (hparse' z').symm.trans hy
    intro m hm
    obtain ⟨m', hm', hecho⟩ := Rows.exists_mem_of_forall₂ halike.dues m hm
    have hecho' := List.forall₂_same.1 hself.dues m' hm'
    exact (hecho.write_iff hz).1 (hecho.write_of_self hz hecho')
  · intro hshown
    rw [← h]
    exact (halike.imp fun m hm m' hecho => ((hecho.write_iff hz).2 (hshown m hm)).symm).render_eq.symm

/-- Reading undoes writing. A document whose titles and names break no line, whose descriptions hold more than white
space and whose dues are moments of a zone is read, in every zone, as one with the same lists, tasks and checklists,
whose dues are at the same instants, however and in whatever zone they are written, be it a place or a shift that can
be told. -/
theorem Document.parse_render (ha : Atlas.Lawful) (hz : style.zone.Tellable) (hs : s.Compatible) (hx : x.Sound)
    (hne : x ≠ []) (h : x.render s style = .ok u) (z : Zone) :
    ∃ y : Document, Document.parse u s z = .ok y ∧ Document.Concurs x y ∧ y.Sound := by
  obtain ⟨y, hparse, hc, -⟩ := Document.echo (Zone.legible ha hz) hs hx hne h
  exact ⟨y, hparse z, hc, (Document.sound_of_parse (hparse z)).1⟩

end Documents

open scoped Place in
/-- A name that looks like a mark, a description that begins with an empty line, an item without a name. -/
theorem Document.parse_render_of_errand :
    ∃ y : Document, Document.parse
        "## A\n\n- [x] b\n    @ 2024-01-02T08:34:05+05:30\n    > \n    > c\n    * [x] \n".toList {} .system = .ok y ∧
      Document.Concurs [⟨"A".toList, [Task.of "[x] b".toList
        (some { wall := ⟨63839761445000000, by decide⟩, zone := some .utc }) (some "\r\nc".toList) [⟨true, []⟩]]⟩] y ∧
      y.Sound := by
  refine @Document.parse_render _ _ _ (.zoned (.place Place.kolkata.name)) _ Place.lawful trivial
    Symbols.compatible_default ?_ (by simp) (by rfl) .system
  refine List.forall_mem_singleton.2 ⟨by decide, List.forall_mem_singleton.2 (Task.sound_of ?_ ?_ ?_ ?_)⟩
  · decide
  · simp
  · simp [allBlank, isBlank]
  · simp

open scoped Place in
/-- A shift of half a second, which cannot be told: the due is written with it and comes back half a second later. -/
theorem Document.parse_render_loses_half_second : ∃ x y : Document, x.Sound ∧ x ≠ [] ∧
    x.render {} (.zoned (.chosen { micros := 500000 })) =
      .ok "## A\n\n- t\n    @ 2024-01-01T00:00:00.500000+00:00:00.500000\n".toList ∧
    Document.parse "## A\n\n- t\n    @ 2024-01-01T00:00:00.500000+00:00:00.500000\n".toList {} .utc = .ok y ∧
    ¬ x.Concurs y := by
  have hread : Due.read "2024-01-01T00:00:00.500000+00:00:00.500000".toList .utc =
      .ok (some { wall := ⟨63839664000500000, by decide⟩, zone := some .utc }) := by decide +kernel
  have hparse : Document.parse "## A\n\n- t\n    @ 2024-01-01T00:00:00.500000+00:00:00.500000\n".toList {} .utc = _ :=
    Layout.parse_of_scan_due "A".toList "t".toList (by decide +kernel) hread
  refine ⟨[⟨"A".toList, [Task.of "t".toList
    (some { wall := ⟨63839664000000000, by decide⟩, zone := some .utc }) none []]⟩],
    _, ?_, by simp, by decide +kernel, hparse, ?_⟩
  · refine List.forall_mem_singleton.2 ⟨by decide, List.forall_mem_singleton.2 (Task.sound_of ?_ ?_ ?_ ?_)⟩
    · decide
    · simp
    · rintro _ ⟨⟩
    · simp
  · intro hconcurs
    obtain ⟨-, htasks⟩ := (List.forall₂_cons.1 hconcurs).1
    obtain ⟨-, hdue, -, -⟩ := (List.forall₂_cons.1 htasks).1
    cases hdue with
    | some h => exact absurd h (by decide)

end Taskbook
