/-
Documents as rows of entries. An entry is what one line says; after an entry of one kind only some
kinds may come next, and a line is tried for them in a fixed order. `scan` reads entry after entry
until no kind that may come next matches, `assemble` makes a document of the entries, and `resolve`
reads the text of a due. No symbol table is excluded here: where two symbols match, the order decides.
-/
import Taskbook.Document.Layout
import Taskbook.Document.Render
import Taskbook.Proofs.Text.Lines
import Taskbook.Text.Blank

namespace Taskbook

namespace Text

/-- The line and the column, counted from one, where a text ends. -/
def endOf (t : Text) : Nat × Nat :=
  ((splitLines t).length, ((splitLines t).getLastD []).length + 1)

end Text

namespace Cursor

/-- The place behind `t`, if `t` lies directly ahead. -/
def after? (c : Cursor) (t : Text) : Option Cursor :=
  if c.startsWith t then some (c.past t (c.ahead.drop t.length)) else none

/-- The place behind the current line and the breaks that follow it. -/
def nextLine (c : Cursor) : Cursor :=
  c.past (c.restOfLine ++ Text.firstBreaks c.ahead) (Text.afterFirstLine c.ahead)

/-- The place behind the white space ahead. -/
def pastBlanks (c : Cursor) : Cursor := c.past (c.ahead.takeWhile Text.isBlank) (c.ahead.dropWhile Text.isBlank)

theorem past_nil (c : Cursor) (h : c.excess = 0) : c.past [] c.ahead = c := by
  cases c; subst h; rfl

@[simp] theorem past_past (c : Cursor) (a b r r' : Text) : (c.past a r).past b r' = c.past (a ++ b) r' := by
  simp [past]

@[simp] theorem ahead_past (c : Cursor) (a r : Text) : (c.past a r).ahead = r := rfl

@[simp] theorem excess_past (c : Cursor) (a r : Text) : (c.past a r).excess = 0 := rfl

@[simp] theorem behind_past (c : Cursor) (a r : Text) : (c.past a r).behind = a.reverse ++ c.behind := rfl

theorem location_eq_endOf (c : Cursor) : c.location = Text.endOf c.behind.reverse := rfl

theorem atEnd_pastBlanks (c : Cursor) : c.pastBlanks.atEnd = Text.allBlank c.ahead := by
  unfold pastBlanks atEnd Text.allBlank past
  rw [Bool.eq_iff_iff, List.isEmpty_iff, List.dropWhile_eq_nil_iff, List.all_eq_true]

theorem after?_eq_some_iff {c d : Cursor} {t : Text} :
    c.after? t = some d ↔ c.excess = 0 ∧ ∃ r, c.ahead = t ++ r ∧ d = c.past t r := by
  unfold after? startsWith
  simp only [Bool.and_eq_true, beq_iff_eq, List.isPrefixOf_iff_prefix, Option.ite_none_right_eq_some,
    Option.some.injEq]
  constructor
  · rintro ⟨⟨h0, r, hr⟩, rfl⟩
    exact ⟨h0, r, hr.symm, by rw [← hr, List.drop_left]⟩
  · rintro ⟨h0, r, hr, rfl⟩
    exact ⟨⟨h0, r, hr.symm⟩, by rw [hr, List.drop_left]⟩

theorem length_after? {c d : Cursor} {t : Text} (h : c.after? t = some d) :
    d.ahead.length + t.length = c.ahead.length := by
  obtain ⟨-, r, hr, rfl⟩ := after?_eq_some_iff.1 h
  rw [hr, List.length_append, ahead_past, Nat.add_comm]

/-- One text and then another are the two as one. -/
theorem after?_append (c : Cursor) (a b : Text) : (c.after? a).bind (·.after? b) = c.after? (a ++ b) := by
  ext d
  simp only [Option.bind_eq_some_iff, after?_eq_some_iff]
  constructor
  · rintro ⟨_, ⟨h0, r, hr, rfl⟩, -, r', hr', rfl⟩
    exact ⟨h0, r', by simpa [hr] using hr', by simp⟩
  · rintro ⟨h0, r, hr, rfl⟩
    exact ⟨_, ⟨h0, b ++ r, by simpa using hr, rfl⟩, rfl, r, rfl, by simp⟩

theorem length_nextLine_le (c : Cursor) : c.nextLine.ahead.length ≤ c.ahead.length :=
  Text.length_afterFirstLine_le c.ahead

end Cursor

namespace Layout

/-! ## Entries -/

/-- The kinds of lines. -/
inductive Kind
  | title
  | task
  | due
  | description
  | subtask
  deriving DecidableEq, Repr

/-- What a line says. A due is a text as long as it is not read, and then a moment. -/
inductive Entry (δ : Type)
  | title (title : Text)
  | task (name : Text)
  | due (due : δ)
  | description (line : Text)
  | subtask (subtask : Subtask)
  deriving DecidableEq, Repr

namespace Kind

/-- What a line of this kind begins with. -/
def symbol (s : Symbols) : Kind → Text
  | title => s.title
  | task => s.task
  | due => s.due
  | description => s.description
  | subtask => s.subtask

/-- The kinds that a line may have behind a line of this kind, in the order in which they are tried. -/
def followers : Kind → List Kind
  | title => [task, title]
  | task => [due, description, subtask, task, title]
  | due => [description, subtask, task, title]
  | description => [description, subtask, task, title]
  | subtask => [subtask, task, title]

end Kind

/-- What stands on the line behind a symbol and a blank, and the place behind the line. -/
def lineBehind? (symbol : Text) (c : Cursor) : Option (Text × Cursor) :=
  (c.after? (symbol ++ [' '])).map fun d => (d.restOfLine, d.nextLine)

/-- A mark in brackets and a blank: whether the mark is an x. -/
def markAhead? (c : Cursor) : Option (Bool × Cursor) :=
  [true, false].findSome? fun complete => (c.after? (Subtask.mark complete ++ [' '])).map (complete, ·)

/-- The item of a checklist behind its symbol, and the place behind the line. -/
def itemBehind? (symbol : Text) (c : Cursor) : Option (Subtask × Cursor) :=
  ((c.after? (symbol ++ [' '])).bind markAhead?).map fun (complete, d) =>
    ({ complete, name := d.restOfLine }, d.nextLine)

/-- The entry of a kind on the line ahead, and the place behind the line. -/
def Kind.read? (s : Symbols) (c : Cursor) : Kind → Option (Entry Text × Cursor)
  | title => (lineBehind? s.title c).map fun (line, d) => (.title line, d)
  | task => (lineBehind? s.task c).map fun (line, d) => (.task line, d)
  | due => (lineBehind? s.due c).map fun (line, d) => (.due line, d)
  | description => (lineBehind? s.description c).map fun (line, d) => (.description line, d)
  | subtask => (itemBehind? s.subtask c).map fun (st, d) => (.subtask st, d)

namespace Entry

variable {δ : Type}

def kind : Entry δ → Kind
  | title _ => .title
  | task _ => .task
  | due _ => .due
  | description _ => .description
  | subtask _ => .subtask

/-- What stands behind the symbol, and behind the mark if there is one. -/
def body : Entry Text → Text
  | title t => t
  | task name => name
  | due text => text
  | description l => l
  | subtask st => st.name

end Entry

/-- An entry as it stands in a text: where its line begins, in lines and columns. -/
structure Found where
  place : Nat × Nat
  entry : Entry Text
  deriving DecidableEq, Repr

/-! ## Reading entry after entry -/

/-- The first of some kinds that matches the line ahead. -/
def next? (s : Symbols) (ks : List Kind) (c : Cursor) : Option (Entry Text × Cursor) :=
  ks.findSome? (Kind.read? s c)

theorem read?_kind {s : Symbols} {k : Kind} {c d : Cursor} {e : Entry Text} (h : k.read? s c = some (e, d)) :
    e.kind = k := by
  cases k <;> obtain ⟨_, -, h⟩ := Option.map_eq_some_iff.1 h <;> cases h <;> rfl

theorem markAhead?_eq_some {c d : Cursor} {complete : Bool} (h : markAhead? c = some (complete, d)) :
    c.after? (Subtask.mark complete ++ [' ']) = some d := by
  obtain ⟨b, -, h⟩ := List.exists_of_findSome?_eq_some h
  obtain ⟨d', hd, h⟩ := Option.map_eq_some_iff.1 h
  cases h; exact hd

/-- A line of any kind begins with a text that holds a blank at least; what the entry says is the rest of the line, and
the reading goes on behind the line. -/
theorem exists_of_read? {s : Symbols} {k : Kind} {c d : Cursor} {e : Entry Text} (h : k.read? s c = some (e, d)) :
    ∃ p c', p ≠ [] ∧ c.after? p = some c' ∧ e.body = c'.restOfLine ∧ d = c'.nextLine := by
  cases k with
  | subtask =>
    obtain ⟨_, hitem, ⟨⟩⟩ := Option.map_eq_some_iff.1 h
    obtain ⟨⟨complete, c'⟩, hc, ⟨⟩⟩ := Option.map_eq_some_iff.1 hitem
    obtain ⟨c₁, hsymbol, hmark⟩ := Option.bind_eq_some_iff.1 hc
    refine ⟨s.subtask ++ [' '] ++ (Subtask.mark complete ++ [' ']), c', by simp, ?_, rfl, rfl⟩
    rw [← Cursor.after?_append, hsymbol]
    exact markAhead?_eq_some hmark
  | _ =>
    obtain ⟨_, hline, ⟨⟩⟩ := Option.map_eq_some_iff.1 h
    obtain ⟨c', hc, ⟨⟩⟩ := Option.map_eq_some_iff.1 hline
    exact ⟨_, c', by simp, hc, rfl, rfl⟩

theorem read?_length {s : Symbols} {k : Kind} {c d : Cursor} {e : Entry Text} (h : k.read? s c = some (e, d)) :
    d.ahead.length < c.ahead.length := by
  obtain ⟨p, c', hp, hc, -, rfl⟩ := exists_of_read? h
  have hpos := List.length_pos_of_ne_nil hp
  have hlen := Cursor.length_after? hc
  have hle := Cursor.length_nextLine_le c'
  omega

theorem next?_length {s : Symbols} {ks : List Kind} {c d : Cursor} {e : Entry Text}
    (h : next? s ks c = some (e, d)) : d.ahead.length < c.ahead.length := by
  obtain ⟨k, -, h⟩ := List.exists_of_findSome?_eq_some h
  exact read?_length h

/-- Reads entries as long as one of the kinds that may come next matches. -/
def scan (s : Symbols) (ks : List Kind) (c : Cursor) : List Found × Cursor :=
  match _h : next? s ks c with
  | none => ([], c)
  | some (e, d) =>
    let rest := scan s e.kind.followers d
    (⟨c.location, e⟩ :: rest.1, rest.2)
termination_by c.ahead.length
decreasing_by exact next?_length _h

theorem scan_none {s : Symbols} {ks : List Kind} {c : Cursor} (h : next? s ks c = none) : scan s ks c = ([], c) := by
  rw [scan]; split
  · rfl
  · rename_i h'; rw [h] at h'; cases h'

theorem scan_some {s : Symbols} {ks : List Kind} {c d : Cursor} {e : Entry Text} (h : next? s ks c = some (e, d)) :
    scan s ks c = (⟨c.location, e⟩ :: (scan s e.kind.followers d).1, (scan s e.kind.followers d).2) := by
  rw [scan]; split
  · rename_i h'; rw [h] at h'; cases h'
  · rename_i h'; rw [h] at h'; cases h'; rfl

/-- What no line changes holds where a scan ends. -/
theorem scan_rest {s : Symbols} {P : Cursor → Prop}
    (hstep : ∀ {k c d} {e : Entry Text}, Kind.read? s c k = some (e, d) → P c → P d) {ks : List Kind} {c : Cursor}
    (h : P c) : P (scan s ks c).2 := by
  induction ks, c using scan.induct s with
  | case1 ks c hn =>
    rw [scan_none hn]
    exact h
  | case2 ks c e d hs ih =>
    rw [scan_some hs]
    obtain ⟨k, -, hr⟩ := List.exists_of_findSome?_eq_some hs
    exact ih (hstep hr h)

/-! ## Reading dues -/

/-- The entry with its due read. A text that is no date fails at the place where the text begins. -/
def resolve (s : Symbols) (z : Zone) (f : Found) : Except Failure (Entry Moment) :=
  match f.entry with
  | .title title => .ok (.title title)
  | .task name => .ok (.task name)
  | .description line => .ok (.description line)
  | .subtask st => .ok (.subtask st)
  | .due text =>
    match Due.read text z with
    | .ok (some moment) => .ok (.due moment)
    | .ok none => .error (.badDue text f.place.1 (f.place.2 + s.due.length + 1 : Nat))
    | .error fault => .error (.calendar fault)

/-! ## Putting entries together -/

/-- What some entries spell, from behind: the parts of a task whose name is still to come, the tasks
of a list whose title is still to come, and whole lists. -/
structure Draft where
  subtasks : List Subtask := []
  description : List Text := []
  due : Option Moment := none
  tasks : List Task := []
  lists : Document := []

namespace Draft

/-- The description that some lines make up: none if they hold only white space. -/
def described (lines : List Text) : Option Text :=
  if Text.allBlank (Text.joinLines lines) then none else some (Text.joinLines lines)

/-- The draft with one more entry in front. -/
def add (d : Draft) : Entry Moment → Draft
  | .subtask st => { d with subtasks := st :: d.subtasks }
  | .description line => { d with description := line :: d.description }
  | .due moment => { d with due := some moment }
  | .task name =>
    { tasks := ⟨name, d.due, described d.description, d.subtasks⟩ :: d.tasks, lists := d.lists }
  | .title title => { lists := ⟨title, d.tasks⟩ :: d.lists }

end Draft

/-- What entries spell. -/
def assemble (es : List (Entry Moment)) : Draft := es.foldr (fun e d => d.add e) {}

/-- What found entries spell once their dues are read; the first due that cannot be read ends this. -/
def spell (s : Symbols) (z : Zone) (fs : List Found) : Except Failure Draft :=
  (fs.mapM (resolve s z)).map assemble

end Layout

end Taskbook
