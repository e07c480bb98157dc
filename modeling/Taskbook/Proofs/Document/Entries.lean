/-
The entries of a document: one for each line that is written for it, in their order. Entries in such an
order are taken one after the other by the machine, and what they spell is the document again.
-/
import Taskbook.Proofs.Layout.LineMachine

namespace Taskbook

open Text Layout Layout.LineMachine

/-! ## Entries -/

/-- The line of an entry. -/
def Layout.Entry.line (s : Symbols) : Entry Text → Text
  | title t => spaced s.title t
  | task name => spaced s.task name
  | due text => spaced s.due text
  | description l => spaced s.description l
  | subtask st => st.render s

def Task.entries (t : Task) : List (Entry Moment) :=
  .task t.name :: (t.due.toList.map .due ++
    (((t.description.map splitLines).getD []).map .description ++ t.subtasks.map .subtask))

def TaskList.entries (l : TaskList) : List (Entry Moment) := .title l.title :: l.tasks.flatMap Task.entries

def Document.entries (x : Document) : List (Entry Moment) := x.flatMap TaskList.entries

/-- The description is one that lines can make up: its breaks are unified, and it is not all white space. -/
def Task.Described (t : Task) : Prop := ∀ d ∈ t.description, unifyBreaks d = d ∧ allBlank d = false

namespace Layout

/-! ## Their order -/

variable {δ : Type} {s : Symbols} {z : Zone} {last : Option Kind}

/-- Every entry is allowed behind the one before it. -/
def Orderly : Option Kind → List (Entry δ) → Prop
  | _, [] => True
  | last, e :: es => allows last e.kind = true ∧ Orderly (some e.kind) es

/-- The entries are orderly behind every line. -/
def Free (es : List (Entry δ)) : Prop := ∀ k, Orderly (some k) es

theorem free_nil : Free ([] : List (Entry δ)) := fun _ => trivial

theorem orderly_subtasks {rest : List (Entry δ)} (hr : Free rest) (sts : List Subtask) {k : Kind}
    (hk : k ≠ .title) : Orderly (some k) (sts.map .subtask ++ rest) := by
  induction sts generalizing k with
  | nil => exact hr k
  | cons st sts ih =>
    refine ⟨?_, ih nofun⟩
    cases k <;> first | rfl | exact absurd rfl hk

theorem orderly_descriptions {rest : List (Entry δ)} (hr : Free rest) (lines : List Text) (sts : List Subtask)
    {k : Kind}
    (hk : k ≠ .title) (hk' : k ≠ .subtask) :
    Orderly (some k) (lines.map .description ++ (sts.map .subtask ++ rest)) := by
  induction lines generalizing k with
  | nil => exact orderly_subtasks hr sts hk
  | cons l lines ih =>
    refine ⟨?_, ih nofun nofun⟩
    cases k <;> first | rfl | exact absurd rfl hk | exact absurd rfl hk'

theorem free_task (t : Task) {rest : List (Entry Moment)} (hr : Free rest) : Free (t.entries ++ rest) := by
  intro k
  unfold Task.entries
  rw [List.cons_append, List.append_assoc, List.append_assoc]
  constructor
  · cases k <;> rfl
  cases t.due with
  | none => exact orderly_descriptions hr _ _ nofun nofun
  | some m => exact ⟨rfl, orderly_descriptions hr _ _ nofun nofun⟩

theorem free_tasks (ts : List Task) {rest : List (Entry Moment)} (hr : Free rest) :
    Free (ts.flatMap Task.entries ++ rest) := by
  induction ts with
  | nil => exact hr
  | cons t ts ih =>
    rw [List.flatMap_cons, List.append_assoc]
    exact free_task t ih

theorem free_entries (x : Document) : Free x.entries := by
  unfold Document.entries
  induction x with
  | nil => exact free_nil
  | cons l x ih =>
    intro k
    rw [List.flatMap_cons, TaskList.entries, List.cons_append]
    constructor
    · cases k <;> rfl
    · exact free_tasks l.tasks ih _

/-- A document begins with a title, so its entries are orderly from the start on. -/
theorem orderly_entries (x : Document) : Orderly none x.entries := by
  cases x with
  | nil => exact trivial
  | cons l x => exact ⟨rfl, free_tasks l.tasks (free_entries x) _⟩

/-! ## What the machine makes of them -/

theorem entryAs?_line (e : Entry Text) : entryAs? s (e.line s) e.kind = some e := by
  have hb : ∀ (p body : Text), behind? (p ++ [' ']) (spaced p body) = some body := by
    intro p body
    rw [behind?_eq_some_iff]
    simp [spaced]
  cases e with
  | subtask st =>
    have hitem : item? (spaced (Subtask.mark st.complete) st.name) = some st := by
      unfold item?
      rcases st with ⟨_ | _, name⟩
      · have hx : behind? (Subtask.mark true ++ [' ']) (spaced (Subtask.mark false) name) = none := by
          simp [behind?, Subtask.mark, spaced]
        simp [hx, hb]
      · simp [hb]
    simp [entryAs?, Entry.kind, Entry.line, Kind.opening, Kind.symbol, Subtask.render, hb, hitem]
  | _ => simp [entryAs?, Entry.kind, Entry.line, Kind.opening, Kind.symbol, hb]

theorem allowed?_line (hs : s.Compatible) {e : Entry Text} (h : allows last e.kind = true) :
    allowed? s last (e.line s) = some e :=
  (allowed?_eq_some_iff hs).2 ⟨e.kind, entryAs?_line e, h⟩

/-- The machine takes orderly entries to the last one. -/
theorem pass_orderly (hs : s.Compatible) (passed : Text) {es : List (Entry Text)} {ls : List Line}
    (hl : ls.map Line.text = es.map (Entry.line s)) (ho : Orderly last es) :
    (pass s last passed ls).1.map Found.entry = es ∧ (pass s last passed ls).2.2 = [] := by
  induction es generalizing last passed ls with
  | nil =>
    rw [List.map_nil, List.map_eq_nil_iff] at hl
    rw [hl]
    exact ⟨rfl, rfl⟩
  | cons e es ih =>
    obtain ⟨l, ls, rfl, htext, hl⟩ := List.map_eq_cons_iff.1 hl
    obtain ⟨hf, hrest⟩ := ih (passed ++ l.whole) hl ho.2
    rw [pass_some (by rw [htext]; exact allowed?_line hs ho.1)]
    exact ⟨by rw [List.map_cons, hf], hrest⟩

/-- The entry is read as the other one, wherever it stands, with every symbol table and in every zone. -/
def Reads (e : Entry Text) (e' : Entry Moment) : Prop := ∀ s z place, resolve s z ⟨place, e⟩ = .ok e'

theorem kind_of_reads {e : Entry Text} {e' : Entry Moment} (h : Reads e e') : e'.kind = e.kind := by
  have hr := h {} .utc (1, 1)
  unfold resolve at hr
  cases e with
  | due text =>
    dsimp only at hr
    split at hr <;> cases hr
    rfl
  | _ => cases hr; rfl

/-- What is read one by one is read in a row. -/
theorem reads_map {α : Type} {f : α → Entry Text} {g : α → Entry Moment} (h : ∀ a, Reads (f a) (g a)) (as : List α) :
    List.Forall₂ Reads (as.map f) (as.map g) := by
  rw [List.forall₂_map_left_iff, List.forall₂_map_right_iff]
  exact List.forall₂_same.2 fun a _ => h a

theorem orderly_of_reads {es : List (Entry Text)} {es' : List (Entry Moment)} (h : List.Forall₂ Reads es es')
    (ho : Orderly last es') : Orderly last es := by
  induction h generalizing last with
  | nil => exact trivial
  | cons h _ ih =>
    rw [Orderly, kind_of_reads h] at ho
    exact ⟨ho.1, ih ho.2⟩

theorem mapM_resolve_of_reads {fs : List Found} {es' : List (Entry Moment)}
    (h : List.Forall₂ Reads (fs.map Found.entry) es') : fs.mapM (resolve s z) = .ok es' :=
  mapM_resolve_eq_ok_iff.2 (h.imp fun _ _ hr => hr s z)

/-! ## What they spell -/

/-- The lines of a text are read as the text with its breaks unified, or as none if it is all white space. -/
theorem described_splitLines (d : Text) :
    Draft.described (splitLines d) = if allBlank d then none else some (unifyBreaks d) := by
  have hunified : joinLines (splitLines d) = unifyBreaks d := rfl
  unfold Draft.described
  rw [hunified, allBlank_unifyBreaks]

theorem foldr_add_task {t : Task} (ht : t.Described) (x : Draft) (hx : x = x.betweenTasks) :
    t.entries.foldr (fun e d => d.add e) x = x.addTask t := by
  have hd : Draft.described ((t.description.map splitLines).getD []) = t.description := by
    rcases h : t.description with _ | d
    · rfl
    · obtain ⟨hu, hb⟩ := ht d h
      rw [Option.map_some, Option.getD_some, described_splitLines, hu, hb]
      rfl
  -- what lies behind the task has no parts of its own that could come into it
  rw [hx]
  obtain ⟨name, due, description, subtasks⟩ := t
  unfold Task.entries Draft.betweenTasks
  simp only [List.foldr_cons, List.foldr_append, List.foldr_map, foldr_add_subtask, foldr_add_description]
  dsimp only at hd
  cases due <;> simp [Draft.add, Draft.addTask, hd]

theorem foldr_add_tasks {ts : List Task} (ht : ∀ t ∈ ts, t.Described) (ls : Document) :
    (ts.flatMap Task.entries).foldr (fun e (d : Draft) => d.add e) { lists := ls } = { tasks := ts, lists := ls } := by
  induction ts with
  | nil => rfl
  | cons t ts ih =>
    rw [List.flatMap_cons, List.foldr_append, ih fun t' ht' => ht t' (List.mem_cons_of_mem _ ht'),
      foldr_add_task (ht t (List.mem_cons_self ..)) _ rfl]
    rfl

/-- The entries of a document spell it. -/
theorem assemble_entries {x : Document} (hx : ∀ l ∈ x, ∀ t ∈ l.tasks, t.Described) :
    assemble x.entries = { lists := x } := by
  unfold assemble Document.entries
  induction x with
  | nil => rfl
  | cons l x ih =>
    rw [List.flatMap_cons, List.foldr_append, ih fun l' hl' => hx l' (List.mem_cons_of_mem _ hl'), TaskList.entries,
      List.foldr_cons, foldr_add_tasks (hx l (List.mem_cons_self ..))]
    rfl

/-- A text whose lines are those of the entries of a document is read as this document. -/
theorem parse_of_lineTexts (hs : s.Compatible) {u : Text} {es : List (Entry Text)} {y : Document} (hne : y ≠ [])
    (hy : ∀ l ∈ y, ∀ t ∈ l.tasks, t.Described) (hl : lineTexts u = es.map (Entry.line s))
    (hr : List.Forall₂ Reads es y.entries) (z : Zone) : Document.parse u s z = .ok y := by
  obtain ⟨hf, hrest⟩ := pass_orderly hs [] hl (orderly_of_reads hr (orderly_entries y))
  have hm : (pass s none [] (logicalLines u)).1.mapM (resolve s z) = .ok y.entries :=
    mapM_resolve_of_reads (by rw [hf]; exact hr)
  rw [parse_eq_machine hs, LineMachine.read]
  unfold spell
  simp only [hm, Except.map, assemble_entries hy, hrest]
  rw [if_pos ⟨hne, rfl⟩]

end Layout

end Taskbook
