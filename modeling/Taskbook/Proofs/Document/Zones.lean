/-
One text read in two zones. The entries of a text are found without looking at a zone, and whether the text of a due is
a date does not depend on one either. So both readings fail, and then in the same way, or both give documents that
differ in nothing but where they place the dues that are written without a zone.
-/
import Taskbook.Proofs.Document.Writing
import Taskbook.Proofs.Layout.Failures
import Taskbook.Zone.Place

namespace Taskbook

open Calendar

/-! ## Dues -/

/-- One due as two zones read it: the same moment where a shift is written beside the time, and otherwise the same wall
time on the clocks of either zone. No text writes the second showing of a wall time. -/
inductive Moment.ReadIn (z z' : Zone) : Moment → Moment → Prop
  | own (w : WallTime) (shift : Shift) :
    ReadIn z z' { wall := w, zone := some (.ofWritten shift) } { wall := w, zone := some (.ofWritten shift) }
  | floating (w : WallTime) : ReadIn z z' { wall := w, zone := some z } { wall := w, zone := some z' }

variable {s : Symbols} {z z' : Zone}

/-- A text is a date in both zones or in neither; the zones place every moment, so that neither reading fails. -/
theorem Due.read_in_two_zones (hz : z ≠ .system) (hz' : z' ≠ .system) (t : Text) :
    ∃ m m', Due.read t z = .ok m ∧ Due.read t z' = .ok m' ∧ Option.Rel (Moment.ReadIn z z') m m' := by
  rcases hw : written? t with _ | m
  · exact ⟨none, none, read_eq_none_iff.2 hw, read_eq_none_iff.2 hw, .none⟩
  · refine ⟨_, _, read_of_written? hz hw, read_of_written? hz' hw, .some ?_⟩
    have hlater := later_of_written? hw
    obtain ⟨wall, later, own⟩ := m
    subst hlater
    cases own with
    | none => exact .floating wall
    | some own =>
      obtain ⟨shift, rfl⟩ := zone_of_written? hw rfl
      exact .own wall shift

/-! ## Entries -/

/-- Both readings fail in one way, which says what is wrong with the text. -/
def Failure.Shared (f f' : Failure) : Prop := f = f' ∧ f.isOfText = true

namespace Layout

/-- The entries are the same but for a due, which is related. -/
inductive Entry.Alike (R : Moment → Moment → Prop) : Entry Moment → Entry Moment → Prop
  | due {m m' : Moment} (h : R m m') : Alike R (.due m) (.due m')
  | same {e : Entry Moment} (h : e.kind ≠ .due) : Alike R e e

theorem resolve_in_two_zones (hz : z ≠ .system) (hz' : z' ≠ .system) (f : Found) :
    Rows.Related Failure.Shared (Entry.Alike (Moment.ReadIn z z')) (resolve s z f) (resolve s z' f) := by
  obtain ⟨place, entry⟩ := f
  cases entry with
  | due text =>
    obtain ⟨m, m', hm, hm', hrel⟩ := Due.read_in_two_zones hz hz' text
    simp only [resolve, hm, hm']
    cases hrel with
    | none => exact .error ⟨rfl, rfl⟩
    | some h => exact .ok (.due h)
  | _ => exact .ok (.same (by rintro ⟨⟩))

/-! ## What the entries spell -/

/-- The drafts are the same but for their dues, which are related. -/
structure Draft.Alike (R : Moment → Moment → Prop) (x y : Draft) : Prop where
  subtasks : x.subtasks = y.subtasks
  description : x.description = y.description
  due : Option.Rel R x.due y.due
  tasks : List.Forall₂ (Task.Alike R) x.tasks y.tasks
  lists : Document.Alike R x.lists y.lists

variable {R : Moment → Moment → Prop}

theorem Draft.Alike.add {x y : Draft} {e e' : Entry Moment} (h : x.Alike R y) (he : e.Alike R e') :
    (x.add e).Alike R (y.add e') := by
  cases he with
  | due hm => exact { h with due := .some hm }
  | @same e he =>
    cases e with
    | title title => exact ⟨rfl, rfl, .none, .nil, .cons ⟨rfl, h.tasks⟩ h.lists⟩
    | task name =>
      have htask : Task.Alike R ⟨name, x.due, described x.description, x.subtasks⟩
          ⟨name, y.due, described y.description, y.subtasks⟩ :=
        ⟨rfl, h.due, congrArg described h.description, h.subtasks⟩
      exact ⟨rfl, rfl, .none, .cons htask h.tasks, h.lists⟩
    | due m => exact absurd rfl he
    | description line => exact { h with description := congrArg (line :: ·) h.description }
    | subtask st => exact { h with subtasks := congrArg (st :: ·) h.subtasks }

theorem assemble_alike {es es' : List (Entry Moment)} (h : List.Forall₂ (Entry.Alike R) es es') :
    (assemble es).Alike R (assemble es') := by
  induction h with
  | nil => exact ⟨rfl, rfl, .none, .nil, .nil⟩
  | cons he _ ih => exact ih.add he

theorem spell_in_two_zones (hz : z ≠ .system) (hz' : z' ≠ .system) (fs : List Found) :
    Rows.Related Failure.Shared (Draft.Alike (Moment.ReadIn z z')) (spell s z fs) (spell s z' fs) := by
  have hrows : List.Forall₂ (fun f f' => Rows.Related Failure.Shared (Entry.Alike (Moment.ReadIn z z'))
      (resolve s z f) (resolve s z' f')) fs fs :=
    List.forall₂_same.2 fun f _ => resolve_in_two_zones hz hz' f
  exact (Rows.related_mapM hrows).map fun _ _ => assemble_alike

end Layout

/-! ## Documents -/

/-- The zone decides nothing but where the dues without a zone are placed. In any two zones that are not the system's a
text is read as the same document up to its dues, each of which is the same moment or the same wall time in either
zone; or both readings fail in the same way, and say where the text is no document or which due is no date. -/
theorem Document.parse_in_two_zones (t : Text) (s : Symbols) {z z' : Zone} (hz : z ≠ .system) (hz' : z' ≠ .system) :
    Rows.Related Failure.Shared (Document.Alike (Moment.ReadIn z z'))
      (Document.parse t s z) (Document.parse t s z') := by
  have hspell := Layout.spell_in_two_zones (s := s) hz hz' (Layout.scan s [.title] (.start t)).1
  rw [Layout.parse_eq_scan, Layout.parse_eq_scan]
  generalize Layout.spell s z _ = r, Layout.spell s z' _ = r' at hspell
  cases hspell with
  | error h => exact .error h
  | @ok x x' h =>
    have hlists : x.lists ≠ [] ↔ x'.lists ≠ [] := by
      have hlength := h.lists.length_eq
      rw [← List.length_pos_iff_ne_nil, hlength, List.length_pos_iff_ne_nil]
    -- what is left behind the entries is the same for both, as no zone has a say in the scan
    dsimp only
    rw [if_congr (and_congr_left' hlists) rfl rfl]
    split
    · exact .ok h.lists
    · exact .error ⟨rfl, rfl⟩

/-- The clocks of New York skip this half hour; they show a due at it all the same, as those of Kolkata do. -/
theorem Document.parse_in_two_zones_of_skipped_hour : ∃ (w : WallTime) (x y : Document),
    Document.parse "## A\n- t\n    @ 2024-03-10 02:30\n".toList {} (.place Place.newYork.name) = .ok x ∧
      Document.parse "## A\n- t\n    @ 2024-03-10 02:30\n".toList {} (.place Place.kolkata.name) = .ok y ∧
      x.dues = [{ wall := w, zone := some (.place Place.newYork.name) }] ∧
      y.dues = [{ wall := w, zone := some (.place Place.kolkata.name) }] ∧
      x.Alike (Moment.ReadIn (.place Place.newYork.name) (.place Place.kolkata.name)) y := by
  have hread : Due.read "2024-03-10 02:30".toList (.place Place.newYork.name) =
      .ok (some { wall := ⟨63845634600000000, by decide⟩, zone := some (.place Place.newYork.name) }) := by
    decide +kernel
  have hread' : Due.read "2024-03-10 02:30".toList (.place Place.kolkata.name) =
      .ok (some { wall := ⟨63845634600000000, by decide⟩, zone := some (.place Place.kolkata.name) }) := by
    decide +kernel
  have hparse : Document.parse "## A\n- t\n    @ 2024-03-10 02:30\n".toList {} (.place Place.newYork.name) = _ :=
    Layout.parse_of_scan_due "A".toList "t".toList (by decide +kernel) hread
  have hparse' : Document.parse "## A\n- t\n    @ 2024-03-10 02:30\n".toList {} (.place Place.kolkata.name) = _ :=
    Layout.parse_of_scan_due "A".toList "t".toList (by decide +kernel) hread'
  have hnewYork : Zone.place Place.newYork.name ≠ .system := by decide
  have hkolkata : Zone.place Place.kolkata.name ≠ .system := by decide
  have h := parse_in_two_zones "## A\n- t\n    @ 2024-03-10 02:30\n".toList {} hnewYork hkolkata
  rw [hparse, hparse'] at h
  cases h with
  | ok h => exact ⟨_, _, _, hparse, hparse', rfl, rfl, h⟩

end Taskbook
