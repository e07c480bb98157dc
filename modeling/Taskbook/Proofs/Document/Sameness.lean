/-
When a document that is written and read back is the same again. Sameness of documents is sameness of their dues, all
else being equal. A due comes back as a moment with a shift of its own, at the same instant; it is the same as the first
one unless the wall time of that one has two readings, being one that the clocks of its place repeat or skip.
-/
import Taskbook.Proofs.Document.RoundTrip
import Taskbook.Proofs.Zone.Showings

namespace Taskbook

open Calendar

/-! ## Sameness, part by part -/

theorem optionsMatch_iff {α : Type} {related : α → α → Bool} {a b : Option α} :
    optionsMatch related a b = true ↔ Option.Rel (fun x y => related x y = true) a b := by
  cases a <;> cases b <;> simp [optionsMatch]

theorem listsMatch_iff {α : Type} {related : α → α → Bool} {as bs : List α} :
    listsMatch related as bs = true ↔ List.Forall₂ (fun a b => related a b = true) as bs := by
  induction as generalizing bs with
  | nil => cases bs <;> simp [listsMatch]
  | cons a as ih => cases bs <;> simp [listsMatch, ih]

theorem Task.same_iff [Atlas] {a b : Task} : a.same b = true ↔ a.Alike (fun m m' => m.same m' = true) b := by
  unfold Task.same
  simp only [Bool.and_eq_true, beq_iff_eq, optionsMatch_iff]
  constructor
  · rintro ⟨⟨⟨hname, hdue⟩, hdescription⟩, hsubtasks⟩
    exact ⟨hname, hdue, hdescription, hsubtasks⟩
  · rintro ⟨hname, hdue, hdescription, hsubtasks⟩
    exact ⟨⟨⟨hname, hdue⟩, hdescription⟩, hsubtasks⟩

theorem TaskList.same_iff [Atlas] {a b : TaskList} : a.same b = true ↔ a.Alike (fun m m' => m.same m' = true) b := by
  unfold TaskList.same
  simp only [Bool.and_eq_true, beq_iff_eq, listsMatch_iff, Task.same_iff]
  constructor
  · rintro ⟨htitle, htasks⟩
    exact ⟨htitle, htasks⟩
  · rintro ⟨htitle, htasks⟩
    exact ⟨htitle, htasks⟩

theorem Document.same_iff [Atlas] {x y : Document} : x.same y = true ↔ x.Alike (fun m m' => m.same m' = true) y := by
  unfold Document.same Document.Alike
  simp only [listsMatch_iff, TaskList.same_iff]

section Alike

variable {R S : Moment → Moment → Prop}

theorem Task.Alike.flip {a b : Task} (h : a.Alike R b) : b.Alike (fun m m' => R m' m) a where
  name := h.name.symm
  due := by
    have hdue := h.due
    generalize a.due = due, b.due = due' at hdue
    rcases hdue with hr | _
    · exact .some hr
    · exact .none
  description := h.description.symm
  subtasks := h.subtasks.symm

theorem TaskList.Alike.flip {a b : TaskList} (h : a.Alike R b) : b.Alike (fun m m' => R m' m) a where
  title := h.title.symm
  tasks := (h.tasks.imp fun _ _ ht => ht.flip).flip

theorem Document.Alike.flip {x y : Document} (h : x.Alike R y) : y.Alike (fun m m' => R m' m) x :=
  List.Forall₂.flip (List.Forall₂.imp (fun _ _ hl => hl.flip) h)

/-- Where the dues of two documents are related one by one, so that a further relation between two of them comes to a
property of the first, the documents are alike by this relation exactly if all dues have the property. -/
theorem Document.Alike.flip_iff {P : Moment → Prop} {x y : Document} (h : x.Alike R y)
    (hP : ∀ m m', R m m' → (S m' m ↔ P m)) : y.Alike S x ↔ ∀ m ∈ x.dues, P m := by
  constructor
  · intro hs
    exact Rows.forall_of_forall₂ h.dues hs.dues.flip fun m m' hr hs => (hP m m' hr).1 hs
  · intro hall
    exact (h.imp fun m hm m' hr => (hP m m' hr).2 (hall m hm)).flip

end Alike

/-! ## Dues that come back -/

section Dues

variable [Atlas] {style : TimeStyle} {m m' : Moment}

/-- What is read of a moment of a zone in writing is a first showing in the zone of a shift, at the same instant. -/
theorem TimeStyle.Echoes.exists_shift (hz : style.zone.Legible) (h : style.Echoes m m') :
    ∃ (w : WallTime) (s : Shift), m' = { wall := w, zone := some (.ofWritten s) } ∧
      w.micros - s.micros = m.instant := by
  obtain ⟨hm, t, hw, hread⟩ := h
  obtain ⟨w, s, ht, hi, ⟨-, rfl, rfl⟩ | ⟨-, rfl⟩⟩ := Due.stamp_of_write hz hm hw
  · cases (hread .utc).symm.trans (Due.read_zulu w .utc)
    exact ⟨w, .zero, rfl, hi⟩
  · cases (hread .utc).symm.trans (Due.read_stamp w ht .utc)
    exact ⟨w, s, rfl, hi⟩

theorem Moment.isAmbiguousIn_ofWritten (m : Moment) (s : Shift) : m.isAmbiguousIn (.ofWritten s) = false := by
  unfold isAmbiguousIn
  rw [Zone.shiftOfWall_ofWritten, Zone.shiftOfWall_ofWritten, bne_self_eq_false]

/-- The wall time of the moment is one that the clocks of its place repeat or skip. -/
def Moment.Doubtful (m : Moment) : Prop :=
  ∃ name, m.zone = some (.place name) ∧
    ((Zone.place name).Repeats m.wall.micros ∨ (Zone.place name).Skips m.wall.micros)

theorem Moment.doubtful_iff (ha : Atlas.Lawful) (hp : Atlas.Paired) {own : Zone} (h : m.zone = some own) :
    m.Doubtful ↔ m.isAmbiguousIn own = true := by
  unfold Doubtful isAmbiguousIn
  rw [bne_iff_ne, h]
  constructor
  · rintro ⟨name, hname, hw⟩
    cases hname
    exact (Zone.shiftOfWall_ne_iff ha hp _ _).2 hw
  · intro hne
    obtain ⟨name, rfl⟩ := Zone.exists_place_of_ne hne
    exact ⟨name, rfl, (Zone.shiftOfWall_ne_iff ha hp _ _).1 hne⟩

/-- An echo is the same moment again unless the wall time of the first one is in doubt. -/
theorem TimeStyle.Echoes.same_iff (ha : Atlas.Lawful) (hp : Atlas.Paired) (hz : style.zone.Tellable)
    (h : style.Echoes m m') : m'.same m = true ↔ ¬ m.Doubtful := by
  obtain ⟨own, hown⟩ := Option.ne_none_iff_exists'.1 h.1
  obtain ⟨w, s, rfl, hi⟩ := h.exists_shift (Zone.legible ha hz)
  have hinstant : m.instant = m.instantIn own := by rw [Moment.instant, hown, Option.getD_some]
  rw [Moment.doubtful_iff ha hp hown, Bool.not_eq_true]
  unfold Moment.same
  rw [hown]
  dsimp only
  by_cases hsame : (Zone.ofWritten s).isSame own = true
  · -- both of universal time, which repeats and skips nothing
    obtain ⟨rfl, rfl⟩ := Due.ofWritten_isSame hsame
    have hwall : w = m.wall := by
      refine WallTime.ext ?_
      rw [hinstant, Moment.instantIn] at hi
      have hzero : Shift.zero.micros = 0 ∧ (m.shiftIn .utc).micros = 0 := ⟨rfl, rfl⟩
      omega
    rw [if_pos hsame, hwall, beq_self_eq_true]
    exact ⟨fun _ => rfl, fun _ => rfl⟩
  · have hinstant' : Moment.instantIn { wall := w, zone := some (.ofWritten s) } (.ofWritten s) = m.instantIn own := by
      rw [← hinstant, ← hi, Moment.instantIn, Moment.shiftIn, Zone.shiftOfWall_ofWritten]
    rw [if_neg hsame, Moment.isAmbiguousIn_ofWritten, hinstant', beq_self_eq_true]
    simp

end Dues

/-! ## Documents that come back -/

/-- A document that was read and is written, in universal time or in that of its zone, be it a place or a shift that
can be told, is read back; and it is the same document again exactly if none of its dues is at a wall time that the
clocks of its place repeat or skip. -/
theorem Document.same_of_parse_render_iff [Atlas] (ha : Atlas.Lawful) (hp : Atlas.Paired) {t u : Text} {s : Symbols}
    {z : Zone} {localTimes : Bool} {x : Document} (hs : s.Compatible)
    (hz : (TimeStyle.of localTimes z).zone.Tellable) (hx : Document.parse t s z = .ok x)
    (hu : x.render s (.of localTimes z) = .ok u) :
    ∃ y, Document.parse u s z = .ok y ∧ (y.same x = true ↔ ∀ m ∈ x.dues, ¬ m.Doubtful) := by
  obtain ⟨hsound, hne⟩ := Document.sound_of_parse hx
  obtain ⟨y, hparse, hechoes⟩ := Document.exists_echo (Zone.legible ha hz) hs hsound hne hu
  refine ⟨y, hparse z, ?_⟩
  rw [Document.same_iff]
  exact hechoes.flip_iff fun m m' h => h.same_iff ha hp hz

open scoped Place in
/-- A due in the hour that the clocks of the place show twice comes back as another one, though at the same
instant. -/
theorem Document.same_of_parse_render_iff_of_repeated_hour : ∃ x y : Document,
    Document.parse "## A\n- t\n    @ 2024-11-03 01:30\n".toList {} (.place Place.newYork.name) = .ok x ∧
      x.render {} (.of true (.place Place.newYork.name)) =
        .ok "## A\n\n- t\n    @ 2024-11-03T01:30:00-04:00\n".toList ∧
      Document.parse "## A\n\n- t\n    @ 2024-11-03T01:30:00-04:00\n".toList {} (.place Place.newYork.name) = .ok y ∧
      y.same x = false := by
  have hread : Due.read "2024-11-03 01:30".toList (.place Place.newYork.name) =
      .ok (some { wall := ⟨63866194200000000, by decide⟩, zone := some (.place Place.newYork.name) }) := by
    decide +kernel
  have hparse :
      Document.parse "## A\n- t\n    @ 2024-11-03 01:30\n".toList {} (.place Place.newYork.name) = _ :=
    Layout.parse_of_scan_due "A".toList "t".toList (by decide +kernel) hread
  have hrender : Document.render [⟨"A".toList, [⟨"t".toList,
      some { wall := ⟨63866194200000000, by decide⟩, zone := some (.place Place.newYork.name) }, none, []⟩]⟩] {}
        (.of true (.place Place.newYork.name)) =
      .ok "## A\n\n- t\n    @ 2024-11-03T01:30:00-04:00\n".toList := by decide +kernel
  have hz : (TimeStyle.of true (.place Place.newYork.name)).zone.Tellable := trivial
  obtain ⟨y, hy, hsame⟩ := Document.same_of_parse_render_iff Place.lawful Place.paired Symbols.compatible_default hz
    hparse hrender
  refine ⟨_, y, hparse, hrender, hy, ?_⟩
  have hdoubtful :
      Moment.Doubtful { wall := ⟨63866194200000000, by decide⟩, zone := some (.place Place.newYork.name) } :=
    (Moment.doubtful_iff Place.lawful Place.paired rfl).2 (by decide +kernel)
  rw [Bool.eq_false_iff, Ne, hsame]
  exact fun hall => hall _ (List.mem_singleton_self _) hdoubtful

open scoped Place in
/-- In a zone of half a second, which cannot be told, a due comes back as another one, although no place repeats or
skips its wall time. -/
theorem Document.same_of_parse_render_loses_half_second : ∃ x y : Document,
    Document.parse "## A\n- t\n    @ 2024-01-01\n".toList {} (.chosen { micros := 500000 }) = .ok x ∧
      x.render {} (.of true (.chosen { micros := 500000 })) =
        .ok "## A\n\n- t\n    @ 2024-01-01T00:00:00+00:00:00.500000\n".toList ∧
      Document.parse "## A\n\n- t\n    @ 2024-01-01T00:00:00+00:00:00.500000\n".toList {}
        (.chosen { micros := 500000 }) = .ok y ∧
      y.same x = false ∧ ∀ m ∈ x.dues, ¬ m.Doubtful := by
  have hread : Due.read "2024-01-01".toList (.chosen { micros := 500000 }) =
      .ok (some { wall := ⟨63839664000000000, by decide⟩, zone := some (.chosen { micros := 500000 }) }) := by
    decide +kernel
  have hread' : Due.read "2024-01-01T00:00:00+00:00:00.500000".toList (.chosen { micros := 500000 }) =
      .ok (some { wall := ⟨63839664000000000, by decide⟩, zone := some .utc }) := by decide +kernel
  have hparse : Document.parse "## A\n- t\n    @ 2024-01-01\n".toList {} (.chosen { micros := 500000 }) = _ :=
    Layout.parse_of_scan_due "A".toList "t".toList (by decide +kernel) hread
  have hparse' : Document.parse "## A\n\n- t\n    @ 2024-01-01T00:00:00+00:00:00.500000\n".toList {}
      (.chosen { micros := 500000 }) = _ :=
    Layout.parse_of_scan_due "A".toList "t".toList (by decide +kernel) hread'
  refine ⟨_, _, hparse, by decide +kernel, hparse', by decide +kernel, List.forall_mem_singleton.2 ?_⟩
  rintro ⟨name, hname, -⟩
  cases hname

end Taskbook
