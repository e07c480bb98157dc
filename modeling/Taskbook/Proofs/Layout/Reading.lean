/-
The nested parsers read a document as a row of entries. `reading` scans for entries and spells what
they say; every loop of the layout is a stretch of this scan (`loop_reading`), so that `parse` is one
scan, an end of blanks, and the failures that go with them (`parse_eq_scan`). This holds for every
symbol table, and also where symbols are empty or overlap.
-/
import Taskbook.Proofs.Layout.Rounds
import Taskbook.Proofs.Parser.Characters

namespace Taskbook

namespace Layout

open Outcome Taskbook.Parser

/-! ## Lines -/

theorem run_symbol (p : Text) (c : Cursor) :
    (symbol p).run c = ofOption ((c.after? (p ++ [' '])).map ((), ·)) := by
  rw [← Cursor.after?_append]
  unfold symbol Parser.map Parser.andThen
  rw [run, run, run_literal]
  rcases c.after? p with _ | d
  · rfl
  · rw [Option.map_some, ofOption_some, andThen_done, run_char, Option.bind_some]
    cases d.after? [' '] <;> rfl

theorem run_lineOf (p : Text) (c : Cursor) : (lineOf p).run c = ofOption (lineBehind? p c) := by
  unfold lineOf lineBehind? Parser.andThen
  simp only [run, run_symbol]
  cases c.after? (p ++ [' ']) <;> rfl

theorem mark_eq (complete : Bool) :
    Subtask.mark complete ++ [' '] = ['['] ++ ([if complete then 'x' else ' '] ++ ([']'] ++ [' '])) := by
  cases complete <;> rfl

theorem after?_blank_of_x {c d : Cursor} (h : c.after? ['x'] = some d) : c.after? [' '] = none := by
  obtain ⟨-, r, hr, -⟩ := Cursor.after?_eq_some_iff.1 h
  by_contra hne
  obtain ⟨e, he⟩ := Option.ne_none_iff_exists'.1 hne
  obtain ⟨-, r', hr', -⟩ := Cursor.after?_eq_some_iff.1 he
  rw [hr] at hr'; simp at hr'

theorem run_mark (c : Cursor) : mark.run c = ofOption (markAhead? c) := by
  unfold mark markAhead?
  simp only [mark_eq, ← Cursor.after?_append, List.findSome?_cons, List.findSome?_nil]
  simp only [Parser.map, Parser.sequence, run, run_char, Bool.false_eq_true, if_true, if_false]
  cases c.after? ['['] with
  | none => rfl
  | some c1 =>
    -- at most one of the two marks stands behind the bracket
    simp only [Option.map_some, ofOption_some, andThen_done, Option.bind_some]
    cases hx : c1.after? ['x'] with
    | some c2 =>
      simp only [after?_blank_of_x hx, Option.map_some, ofOption_some, orElse_done, andThen_done, Option.bind_some,
        Option.bind_none, Option.map_none]
      cases c2.after? [']'] with
      | none => rfl
      | some c3 =>
        simp only [Option.map_some, ofOption_some, andThen_done, Option.bind_some]
        cases c3.after? [' '] <;> rfl
    | none =>
      simp only [Option.map_none, ofOption_none, orElse_miss, Option.bind_none]
      cases c1.after? [' '] with
      | none => rfl
      | some c2 =>
        simp only [Option.map_some, ofOption_some, andThen_done, Option.bind_some]
        cases c2.after? [']'] with
        | none => rfl
        | some c3 =>
          simp only [Option.map_some, ofOption_some, andThen_done, Option.bind_some]
          cases c3.after? [' '] <;> rfl

theorem run_subtask (s : Symbols) (c : Cursor) : (subtask s).run c = ofOption (itemBehind? s.subtask c) := by
  unfold subtask itemBehind? Parser.andThen Parser.map
  simp only [run, run_symbol]
  cases c.after? (s.subtask ++ [' ']) with
  | none => rfl
  | some d =>
    simp only [Option.map_some, ofOption_some, andThen_done, Option.bind_some, run_mark]
    rcases markAhead? d with _ | ⟨complete, d'⟩ <;> rfl

/-! ## A reading is a scan and what it spells -/

/-- Reads entries and spells them. -/
def reading (s : Symbols) (z : Zone) (ks : List Kind) (c : Cursor) : Outcome Failure Draft :=
  match spell s z (scan s ks c).1 with
  | .ok d => .done d (scan s ks c).2
  | .error f => .failed f

/-- What an entry adds to a reading of what comes behind it. -/
def addTo (entry : Except Failure (Entry Moment)) (behind : Outcome Failure Draft) : Outcome Failure Draft :=
  match entry with
  | .ok e => behind.map (·.add e)
  | .error f => .failed f

variable {s : Symbols} {z : Zone} {k : Kind} {ks : List Kind} {c d : Cursor} {e : Entry Text}

theorem reading_none (h : next? s ks c = none) : reading s z ks c = done {} c := by
  unfold reading; rw [scan_none h]; rfl

theorem reading_some (h : next? s ks c = some (e, d)) :
    reading s z ks c = addTo (resolve s z ⟨c.location, e⟩) (reading s z e.kind.followers d) := by
  unfold reading; rw [scan_some h]
  unfold spell
  rw [List.mapM_cons]
  cases resolve s z ⟨c.location, e⟩ with
  | error f => rfl
  | ok i =>
    show (match Except.map assemble (do let is ← (scan s e.kind.followers d).1.mapM (resolve s z); pure (i :: is)) with
      | .ok d' => _ | .error f => _) = addTo (.ok i) _
    cases (scan s e.kind.followers d).1.mapM (resolve s z) <;> rfl

theorem reading_ne_miss (s : Symbols) (z : Zone) (ks : List Kind) (c : Cursor) : reading s z ks c ≠ miss := by
  unfold reading; split <;> simp

theorem reading_cons_miss (h : k.read? s c = none) : reading s z (k :: ks) c = reading s z ks c := by
  have hn : next? s (k :: ks) c = next? s ks c := by
    unfold next?; rw [List.findSome?_cons, h]
  rcases hk : next? s ks c with _ | ⟨e, d⟩
  · rw [reading_none (hn.trans hk), reading_none hk]
  · rw [reading_some (hn.trans hk), reading_some hk]

theorem reading_cons_hit (h : k.read? s c = some (e, d)) :
    reading s z (k :: ks) c = addTo (resolve s z ⟨c.location, e⟩) (reading s z k.followers d) := by
  have hn : next? s (k :: ks) c = some (e, d) := by
    unfold next?; rw [List.findSome?_cons, h]
  rw [reading_some hn, read?_kind h]

theorem excess_of_read? (h : k.read? s c = some (e, d)) : d.excess = 0 := by
  obtain ⟨-, c', -, -, -, rfl⟩ := exists_of_read? h
  rfl

theorem read?_room (h : k.read? s c = some (e, d)) : d.room < c.room := by
  have hlen := read?_length h
  have h0 := excess_of_read? h
  unfold Cursor.room; omega

/-! ## The loops of a task -/

/-- The loop over the lines of a kind that may follow itself. -/
theorem reading_loop {α : Type} {find : Cursor → Option (α × Cursor)} {found : α → Entry Text}
    {entry : α → Entry Moment} (hk : k.followers = k :: ks)
    (hread : ∀ c, k.read? s c = (find c).map fun x => (found x.1, x.2))
    (hentry : ∀ p a, resolve s z ⟨p, found a⟩ = .ok (entry a)) (c : Cursor) :
    reading s z (k :: ks) c =
      (loop (fun c => ofOption (find c)) c).andThen fun as d =>
        (reading s z ks d).map fun x => as.foldr (fun a x => x.add (entry a)) x := by
  refine loop_reading (reading_ne_miss _ _ _) (fun c => ?_) c
  rcases hf : find c with _ | ⟨a, d⟩
  · left
    have hr : k.read? s c = none := by rw [hread, hf]; rfl
    exact ⟨rfl, reading_cons_miss hr⟩
  · right
    have hr : k.read? s c = some (found a, d) := by rw [hread, hf]; rfl
    constructor
    · rw [reading_cons_hit hr, hentry, hk]
      rfl
    · intro _ _ h
      cases h
      exact read?_room hr

theorem reading_descriptions (c : Cursor) :
    reading s z [.description, .subtask, .task, .title] c =
      (loop (lineOf s.description).run c).andThen fun lines d =>
        (reading s z [.subtask, .task, .title] d).map fun x => lines.foldr (fun l x => x.add (.description l)) x := by
  rw [show (lineOf s.description).run = fun c => ofOption (lineBehind? s.description c) from funext (run_lineOf _)]
  exact reading_loop (k := .description) rfl (fun _ => rfl) (fun _ _ => rfl) c

theorem reading_subtasks (c : Cursor) :
    reading s z [.subtask, .task, .title] c =
      (loop (subtask s).run c).andThen fun sts d =>
        (reading s z [.task, .title] d).map fun x => sts.foldr (fun st x => x.add (.subtask st)) x := by
  rw [show (subtask s).run = fun c => ofOption (itemBehind? s.subtask c) from funext (run_subtask s)]
  exact reading_loop (k := .subtask) rfl (fun _ => rfl) (fun _ _ => rfl) c

/-- The draft with a due in front, if there is one. -/
def Draft.withDue (x : Draft) : Option Moment → Draft
  | none => x
  | some moment => x.add (.due moment)

theorem reading_due (c : Cursor) :
    reading s z [.due, .description, .subtask, .task, .title] c =
      ((due s z).run c).andThen fun m d =>
        (reading s z [.description, .subtask, .task, .title] d).map (·.withDue m) := by
  unfold due
  simp only [run, run_lineOf, andThen_done]
  rcases h : lineBehind? s.due c with _ | ⟨text, d⟩
  · have hr : Kind.read? s c .due = none := by unfold Kind.read?; rw [h]; rfl
    rw [reading_cons_miss hr]
    simp [dueOf, run, Draft.withDue]
  · have hr : Kind.read? s c .due = some (.due text, d) := by unfold Kind.read?; rw [h]; rfl
    rw [reading_cons_hit hr]
    simp only [ofOption_some, map_done, orElse_done, andThen_done, dueOf, resolve]
    rcases Due.read text z with fault | (_ | moment) <;> simp [addTo, run, Draft.withDue, Kind.followers]

/-! ## What is left over in front of a name or a title -/

/-- The draft without the parts of a task. -/
def Draft.betweenTasks (x : Draft) : Draft := { tasks := x.tasks, lists := x.lists }

/-- The draft without the parts of a list. -/
def Draft.betweenLists (x : Draft) : Draft := { lists := x.lists }

/-- Where a name or a title comes next, nothing of a task is pending. -/
theorem reading_betweenTasks (c : Cursor) :
    reading s z [.task, .title] c = (reading s z [.task, .title] c).map Draft.betweenTasks := by
  cases h : next? s [.task, .title] c with
  | none => rw [reading_none h]; rfl
  | some r =>
    obtain ⟨e, d⟩ := r
    obtain ⟨k, hk, hr⟩ := List.exists_of_findSome?_eq_some h
    have hkind := read?_kind hr
    rw [reading_some h]
    rcases e with title | name | text | line | st <;> simp only [Entry.kind] at hkind <;> subst hkind <;> simp at hk
    all_goals simp [resolve, addTo, Function.comp_def, Draft.add, Draft.betweenTasks]

/-- Where a title comes next, no task is pending. -/
theorem reading_betweenLists (c : Cursor) :
    reading s z [.title] c = (reading s z [.title] c).map Draft.betweenLists := by
  cases h : next? s [.title] c with
  | none => rw [reading_none h]; rfl
  | some r =>
    obtain ⟨e, d⟩ := r
    obtain ⟨k, hk, hr⟩ := List.exists_of_findSome?_eq_some h
    have hkind := read?_kind hr
    rw [reading_some h]
    rcases e with title | name | text | line | st <;> simp only [Entry.kind] at hkind <;> subst hkind <;> simp at hk
    simp [resolve, addTo, Function.comp_def, Draft.add, Draft.betweenLists]

/-! ## Tasks and lists -/

/-- The draft with one more task in front. -/
def Draft.addTask (t : Task) (x : Draft) : Draft := { tasks := t :: x.tasks, lists := x.lists }

/-- The draft with one more list in front. -/
def Draft.addList (l : TaskList) (x : Draft) : Draft := { lists := l :: x.lists }

theorem foldr_add_description (lines : List Text) (x : Draft) :
    lines.foldr (fun l x => x.add (.description l)) x = { x with description := lines ++ x.description } := by
  induction lines with
  | nil => rfl
  | cons l lines ih => rw [List.foldr_cons, ih]; rfl

theorem foldr_add_subtask (sts : List Subtask) (x : Draft) :
    sts.foldr (fun st x => x.add (.subtask st)) x = { x with subtasks := sts ++ x.subtasks } := by
  induction sts with
  | nil => rfl
  | cons st sts ih => rw [List.foldr_cons, ih]; rfl

theorem foldr_addTask (ts : List Task) (x : Draft) (hx : x = x.betweenTasks) :
    ts.foldr Draft.addTask x = { tasks := ts ++ x.tasks, lists := x.lists } := by
  induction ts with
  | nil => exact hx
  | cons t ts ih => rw [List.foldr_cons, ih]; rfl

theorem foldr_addList (ls : List TaskList) : ls.foldr Draft.addList {} = { lists := ls } := by
  induction ls with
  | nil => rfl
  | cons l ls ih => rw [List.foldr_cons, ih]; rfl

theorem joinDescription_eq (lines : List Text) : joinDescription lines = Draft.described lines := rfl

/-- A task made of lines is the one that its constructor makes: joined lines hold no other breaks. -/
theorem task_of_joinDescription (name : Text) (m : Option Moment) {lines : List Text}
    (h : ∀ l ∈ lines, Text.Unbroken l) (sts : List Subtask) :
    Task.of name m (joinDescription lines) sts = ⟨name, m, Draft.described lines, sts⟩ := by
  rw [joinDescription_eq]
  unfold Task.of Draft.described
  split
  · rfl
  · rw [Option.map_some, Text.unifyBreaks_joinLines h]

theorem unbroken_of_run_lineOf {p l : Text} (h : (lineOf p).run c = done l d) : Text.Unbroken l := by
  rw [run_lineOf] at h
  unfold lineBehind? at h
  cases hc : c.after? (p ++ [' ']) with
  | none => rw [hc] at h; cases h
  | some c' => rw [hc] at h; cases h; exact Text.unbroken_firstLine _

/-- A task is read where a name is found, and is a stretch of the reading. -/
theorem reading_task {name : Text} (h : lineBehind? s.task c = some (name, d)) (ks : List Kind) :
    reading s z (.task :: ks) c =
      ((task s z).run c).andThen fun t d => (reading s z [.task, .title] d).map (Draft.addTask t) := by
  have hr : Kind.read? s c .task = some (.task name, d) := by unfold Kind.read?; rw [h]; rfl
  rw [reading_cons_hit hr]
  show (reading s z [.due, .description, .subtask, .task, .title] d).map (·.add (.task name)) = _
  unfold task taskName description Parser.map
  simp only [run, run_lineOf, h, ofOption_some, andThen_done, andThen_andThen]
  -- part after part of the task is a stretch of the scan, which goes on behind it
  rw [reading_due, map_andThen]
  refine andThen_congr fun m c1 _ => ?_
  rw [reading_descriptions, map_andThen, map_andThen]
  refine andThen_congr fun lines c2 hlines => ?_
  rw [reading_subtasks, map_andThen, map_andThen, map_andThen]
  refine andThen_congr fun sts c3 _ => ?_
  -- the parts belong to this task, as none is pending in front of the next name or title
  rw [reading_betweenTasks]
  simp only [map_map]
  have hl : ∀ l ∈ lines, Text.Unbroken l :=
    forall_mem_of_loop (fun _ _ _ h => unbroken_of_run_lineOf h) hlines
  rw [task_of_joinDescription name m hl]
  congr 1
  funext x
  simp only [Function.comp_apply, foldr_add_description, foldr_add_subtask]
  cases m <;> simp [Draft.withDue, Draft.add, Draft.betweenTasks, Draft.addTask]

theorem run_task_miss (h : lineBehind? s.task c = none) : (task s z).run c = miss := by
  unfold task taskName
  simp only [run, run_lineOf, h, ofOption_none, andThen_miss]

theorem reading_tasks (c : Cursor) :
    reading s z [.task, .title] c =
      (loop (task s z).run c).andThen fun ts d =>
        (reading s z [.title] d).map fun x => ts.foldr Draft.addTask x := by
  refine loop_reading (reading_ne_miss _ _ _) (fun c => ?_) c
  rcases hn : lineBehind? s.task c with _ | ⟨name, d⟩
  · left
    have hr : Kind.read? s c .task = none := by unfold Kind.read?; rw [hn]; rfl
    exact ⟨run_task_miss hn, reading_cons_miss hr⟩
  · right
    exact ⟨reading_task hn _, fun _ _ h => room_lt_of_run h (advances_task h)⟩

/-- A list is read where a title is found, and is a stretch of the reading. -/
theorem reading_taskList {text : Text} (h : lineBehind? s.title c = some (text, d)) :
    reading s z [.title] c =
      ((taskList s z).run c).andThen fun l d => (reading s z [.title] d).map (Draft.addList l) := by
  have hr : Kind.read? s c .title = some (.title text, d) := by unfold Kind.read?; rw [h]; rfl
  rw [reading_cons_hit hr]
  show (reading s z [.task, .title] d).map (·.add (.title text)) = _
  unfold taskList title Parser.map
  simp only [run, run_lineOf, h, ofOption_some, andThen_done, andThen_andThen]
  rw [reading_tasks, map_andThen]
  refine andThen_congr fun ts c1 _ => ?_
  rw [reading_betweenLists]
  simp only [map_map]
  congr 1
  funext x
  simp only [Function.comp_apply, foldr_addTask ts x.betweenLists rfl]
  simp [Draft.add, Draft.betweenLists, Draft.addList]

theorem run_taskList_miss (h : lineBehind? s.title c = none) : (taskList s z).run c = miss := by
  unfold taskList title
  rw [run, run_lineOf, h]; rfl

theorem room_lt_of_run_taskList {l : TaskList} (h : (taskList s z).run c = done l d) : d.room < c.room :=
  room_lt_of_run h (advances_taskList h)

theorem reading_lists (c : Cursor) :
    reading s z [.title] c = (loop (taskList s z).run c).map fun ls => { lists := ls } := by
  have hloop : reading s z [.title] c =
      (loop (taskList s z).run c).andThen fun ls d => (done {} d).map fun x => ls.foldr Draft.addList x := by
    refine loop_reading (reading_ne_miss _ _ _) (fun c => ?_) c
    rcases hn : lineBehind? s.title c with _ | ⟨text, d⟩
    · left
      have hm : Kind.read? s c .title = none := by unfold Kind.read?; rw [hn]; rfl
      exact ⟨run_taskList_miss hn, (reading_cons_miss hm).trans (reading_none rfl)⟩
    · right
      exact ⟨reading_taskList hn, fun _ _ => room_lt_of_run_taskList⟩
  rw [hloop]
  simp only [map_done, foldr_addList]
  cases loop (taskList s z).run c <;> rfl

/-! ## Whole documents -/

theorem run_skipBlanks (c : Cursor) (h0 : c.excess = 0) :
    (skipBlanks : Parser Failure Text).run c = done (c.ahead.takeWhile Text.isBlank) c.pastBlanks :=
  run_many_satisfy Text.isBlank h0

theorem run_many1 {α : Type} {p : Parser Failure α} (h : ∀ a d, p.run c = done a d → d.room < c.room) :
    (many1 p).run c = (loop p.run c).andThen fun as d => if as = [] then miss else done as d := by
  unfold many1 Parser.map
  simp only [run]
  rcases hp : p.run c with ⟨a, d⟩ | _ | f
  · rw [loop_done hp (h a d hp), andThen_done]
    cases loop p.run d <;> simp
  · rw [loop_miss hp]; rfl
  · rw [loop_failed hp]; rfl

theorem excess_scan {s : Symbols} {ks : List Kind} {c : Cursor} (h : c.excess = 0) : (scan s ks c).2.excess = 0 :=
  scan_rest (fun hr _ => excess_of_read? hr) h

/-- The failure of a text whose entries end at `c`: it stops to be a document behind the blanks there. -/
def unmatchedAt (c : Cursor) : Failure :=
  .unmatched c.pastBlanks.location.1 c.pastBlanks.location.2 c.pastBlanks.restOfLine

/-- The second reading of a text that did not match goes as far as its entries and the white space behind them. -/
theorem run_opening {t : Text} {x : Draft} (hx : spell s z (scan s [.title] (.start t)).1 = .ok x) :
    ∃ blanks, (Layout.opening s z).run (.start t) = done blanks (scan s [.title] (.start t)).2.pastBlanks := by
  have hread := reading_lists (s := s) (z := z) (.start t)
  have h0 : (scan s [.title] (.start t)).2.excess = 0 := excess_scan rfl
  unfold reading at hread
  rw [hx] at hread
  unfold Layout.opening Parser.andThen
  simp only [run]
  rcases hl : loop (taskList s z).run (.start t) with ⟨lists, d⟩ | _ | g <;> rw [hl] at hread <;> cases hread
  rw [andThen_done, run_skipBlanks _ h0]
  exact ⟨_, rfl⟩

/-- A text is read as one scan from the title on. It is a document if a title is found and only white
space is left behind the entries, and the first due that cannot be read goes before everything else. -/
theorem parse_eq_scan (t : Text) (s : Symbols) (z : Zone) :
    Document.parse t s z =
      match spell s z (scan s [.title] (.start t)).1 with
      | .error f => .error f
      | .ok x =>
        if x.lists ≠ [] ∧ Text.allBlank (scan s [.title] (.start t)).2.ahead = true then .ok x.lists
        else .error (unmatchedAt (scan s [.title] (.start t)).2) := by
  have hread := reading_lists (s := s) (z := z) (.start t)
  have h0 : (scan s [.title] (.start t)).2.excess = 0 := excess_scan rfl
  unfold reading at hread
  unfold Document.parse document
  simp only [run, run_many1 fun _ _ => room_lt_of_run_taskList]
  rcases hl : loop (taskList s z).run (.start t) with ⟨ls, d⟩ | _ | f
  · rw [hl] at hread
    rcases hs : spell s z (scan s [.title] (.start t)).1 with f | x <;> rw [hs] at hread <;>
      simp only [map_done, Outcome.done.injEq, reduceCtorEq] at hread
    obtain ⟨rfl, rfl⟩ := hread
    have hstop : Document.unmatched t s z = unmatchedAt (scan s [.title] (.start t)).2 := by
      obtain ⟨blanks, hopening⟩ := run_opening hs
      unfold Document.unmatched Document.stop
      rw [hopening]
      rfl
    rw [hstop]
    simp only [andThen_done]
    -- `many1` misses without a list, and otherwise the blanks behind the last one have to end the text
    by_cases hne : ls = []
    · simp [hne]
    · simp only [hne, if_false, andThen_done, Parser.andThen, run, run_skipBlanks _ h0]
      by_cases hb : Text.allBlank (scan s [.title] (.start t)).2.ahead = true
      · simp [hb, hne, Cursor.atEnd_pastBlanks]
      · simp [hb, Cursor.atEnd_pastBlanks]
  · -- the scan never misses, so the loop does not
    rw [hl] at hread
    rcases hs : spell s z (scan s [.title] (.start t)).1 with f | x <;> rw [hs] at hread <;> cases hread
  · rw [hl] at hread
    rcases hs : spell s z (scan s [.title] (.start t)).1 with f' | x <;> rw [hs] at hread <;> cases hread
    rfl

theorem parse_of_spell {t : Text} {x : Draft} (hx : spell s z (scan s [.title] (.start t)).1 = .ok x)
    (hne : x.lists ≠ []) (hend : Text.allBlank (scan s [.title] (.start t)).2.ahead = true) :
    Document.parse t s z = .ok x.lists := by
  rw [parse_eq_scan, hx]
  exact if_pos ⟨hne, hend⟩

end Layout

end Taskbook
