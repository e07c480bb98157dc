/-
What reading a due text can give. A text writes the first showing of a wall time, with a shift or without a zone, and
what is read is always a moment of a zone. Placing a moment fails in one case only: the system looks one day back from
a floating moment, which on the first day of the calendar leads out of it.
-/
import Taskbook.Due.Reading
import Mathlib.Logic.Basic

namespace Taskbook

open Calendar

namespace Due

/-! ## What texts write -/

theorem Iso.later_of_read? {t : Text} {m : Moment} (h : Iso.read? t = some m) : m.later = false := by
  unfold Iso.read? at h
  obtain ⟨length, -, h⟩ := Option.bind_eq_some_iff.1 h
  obtain ⟨day, -, h⟩ := Option.bind_eq_some_iff.1 h
  split at h
  · obtain ⟨wall, -, h⟩ := Option.bind_eq_some_iff.1 h
    cases h; rfl
  · obtain ⟨⟨clock, zone⟩, -, h⟩ := Option.bind_eq_some_iff.1 h
    obtain ⟨wall, -, h⟩ := Option.bind_eq_some_iff.1 h
    cases h; rfl

theorem Stamp.later_of_moment? {st : Stamp} {m : Moment} (h : st.moment? = some m) : m.later = false := by
  unfold Stamp.moment? at h
  obtain ⟨day, -, h⟩ := Option.bind_eq_some_iff.1 h
  obtain ⟨wall, -, h⟩ := Option.bind_eq_some_iff.1 h
  cases h; rfl

theorem Form.later_of_readAny? {t : Text} {m : Moment} (h : Form.readAny? t = some m) : m.later = false := by
  obtain ⟨f, -, h⟩ := List.exists_of_findSome?_eq_some h
  obtain ⟨st, -, h⟩ := Option.bind_eq_some_iff.1 h
  exact Stamp.later_of_moment? h

/-- No text writes the second showing of a wall time. -/
theorem later_of_written? {t : Text} {m : Moment} (h : written? t = some m) : m.later = false := by
  unfold written? at h
  simp only [Option.ite_none_left_eq_some] at h
  obtain ⟨-, h⟩ := h
  rcases hi : Iso.read? (normalize (Text.strip t)) with _ | m'
  · rw [hi] at h; exact Form.later_of_readAny? h
  · rw [hi] at h; cases h; exact Iso.later_of_read? hi

/-- What an offset writes is a shift; one of less than a second is universal time. -/
theorem Iso.zone_of_zone? {sign : Char} {t : Text} {z : Zone} (h : zone? sign t = some z) :
    ∃ shift, z = .ofWritten shift := by
  unfold zone? at h
  obtain ⟨parts, -, h⟩ := Option.bind_eq_some_iff.1 h
  dsimp only at h
  split at h
  · cases h
  split at h
  · cases h; exact ⟨Shift.zero, rfl⟩
  · rename_i hlong
    obtain ⟨shift, hshift, h⟩ := Option.bind_eq_some_iff.1 h
    cases h
    refine ⟨shift, (if_neg ?_).symm⟩
    rintro rfl
    obtain ⟨_, hmicros⟩ := Option.dite_none_right_eq_some.1 hshift
    have hzero : (if sign = '-' then -(parts.clock.micros : Int) else parts.clock.micros) = 0 :=
      congrArg Shift.micros (Option.some.inj hmicros)
    have hpos : 0 < microsPerSecond := by decide
    split at hzero <;> omega

theorem Iso.zone_of_timeOfDay? {t : Text} {clock : Clock} {z : Zone} (h : timeOfDay? t = some (clock, some z)) :
    ∃ shift, z = .ofWritten shift := by
  unfold timeOfDay? at h
  obtain ⟨parts, -, h⟩ := Option.bind_eq_some_iff.1 h
  split at h
  · split at h <;> cases h
  · split at h <;> cases h
    exact ⟨Shift.zero, rfl⟩
  · obtain ⟨own, hown, h⟩ := Option.bind_eq_some_iff.1 h
    cases h; exact zone_of_zone? hown

theorem Iso.zone_of_read? {t : Text} {m : Moment} {z : Zone} (h : read? t = some m) (hz : m.zone = some z) :
    ∃ shift, z = .ofWritten shift := by
  unfold read? at h
  obtain ⟨length, -, h⟩ := Option.bind_eq_some_iff.1 h
  obtain ⟨day, -, h⟩ := Option.bind_eq_some_iff.1 h
  split at h
  · obtain ⟨wall, -, h⟩ := Option.bind_eq_some_iff.1 h
    cases h; cases hz
  · obtain ⟨⟨clock, own⟩, htime, h⟩ := Option.bind_eq_some_iff.1 h
    obtain ⟨wall, -, h⟩ := Option.bind_eq_some_iff.1 h
    cases h; cases hz
    exact zone_of_timeOfDay? htime

theorem Form.zone_of_readAny? {t : Text} {m : Moment} (h : Form.readAny? t = some m) : m.zone = none := by
  obtain ⟨f, -, h⟩ := List.exists_of_findSome?_eq_some h
  obtain ⟨st, -, h⟩ := Option.bind_eq_some_iff.1 h
  obtain ⟨day, -, h⟩ := Option.bind_eq_some_iff.1 h
  obtain ⟨wall, -, h⟩ := Option.bind_eq_some_iff.1 h
  cases h; rfl

/-- The only zone that a text can write is that of a shift. -/
theorem zone_of_written? {t : Text} {m : Moment} {z : Zone} (h : written? t = some m) (hz : m.zone = some z) :
    ∃ shift, z = .ofWritten shift := by
  unfold written? at h
  simp only [Option.ite_none_left_eq_some] at h
  obtain ⟨-, h⟩ := h
  rcases hi : Iso.read? (normalize (Text.strip t)) with _ | m'
  · rw [hi] at h
    rw [Form.zone_of_readAny? h] at hz
    cases hz
  · rw [hi] at h; cases h; exact Iso.zone_of_read? hi hz

/-- The text writes a floating moment on the first day of the calendar. -/
def onFirstDay (t : Text) : Bool :=
  (written? t).any fun m => m.zone.isNone && decide (m.wall.micros < microsPerDay)

theorem onFirstDay_iff {t : Text} :
    onFirstDay t = true ↔ ∃ m, written? t = some m ∧ m.zone = none ∧ m.wall.micros < microsPerDay := by
  simp [onFirstDay, Option.any_eq_true]

end Due

/-! ## Placing -/

/-- A first showing cannot be placed exactly where the system would have to look back from the first day. -/
theorem Moment.placeIn_eq_error_iff {m : Moment} {z : Zone} {f : Fault} (h : m.later = false) :
    m.placeIn z = .error f ↔ f = .year 0 ∧ z = .system ∧ m.zone = none ∧ m.wall.micros < microsPerDay := by
  unfold placeIn systemWall
  rw [h]
  rcases hz : m.zone with _ | own
  · cases z with
    | system =>
      by_cases hw : m.wall.micros < microsPerDay
      · simp [hw, Except.map, eq_comm]
      · simp [hw, Except.map]
    | _ => simp
  · simp

/-- What is placed is a moment of a zone. -/
theorem Moment.zone_of_placeIn {m m' : Moment} {z : Zone} (h : m.placeIn z = .ok m') : m'.zone ≠ none := by
  unfold placeIn at h
  split at h
  · rename_i own hz
    cases h; rw [hz]; exact Option.some_ne_none own
  · rcases hw : m.systemWall with f | w <;> rw [hw] at h <;> cases h
    exact Option.some_ne_none _
  · cases h; exact Option.some_ne_none _

namespace Due

/-- Reading fails exactly where the system is asked to place a floating moment of the first day. -/
theorem read_eq_error_iff {t : Text} {z : Zone} {f : Fault} :
    read t z = .error f ↔ f = .year 0 ∧ z = .system ∧ onFirstDay t = true := by
  rw [onFirstDay_iff]
  unfold read
  rcases hw : written? t with _ | m
  · simp
  · have hm : m.placeIn z = .error f ↔ _ := Moment.placeIn_eq_error_iff (later_of_written? hw)
    simp only [Option.some.injEq, exists_eq_left']
    rw [← hm]
    cases m.placeIn z <;> simp [Except.map]

/-- Whether a text is a date does not depend on the zone. -/
theorem read_eq_none_iff {t : Text} {z : Zone} : read t z = .ok none ↔ written? t = none := by
  unfold read
  rcases written? t with _ | m
  · exact ⟨fun _ => rfl, fun _ => rfl⟩
  · rcases hp : m.placeIn z with f | m' <;> simp [hp, Except.map]

/-- In every zone but the system's a text is read as it is written, and placed in the zone if it has none. -/
theorem read_of_written? {t : Text} {m : Moment} {z : Zone} (hz : z ≠ .system) (h : written? t = some m) :
    read t z = .ok (some { m with zone := some (m.zone.getD z) }) := by
  unfold read
  rw [h]
  obtain ⟨wall, later, zone⟩ := m
  cases zone with
  | some own => rfl
  | none => cases z <;> first | rfl | exact absurd rfl hz

theorem zone_of_read {t : Text} {z : Zone} {m : Moment} (h : read t z = .ok (some m)) : m.zone ≠ none := by
  unfold read at h
  rcases hw : written? t with _ | m'
  · rw [hw] at h; cases h
  · rw [hw] at h
    rcases hp : m'.placeIn z with f | p <;> simp only [hp] at h <;> cases h
    exact Moment.zone_of_placeIn hp

/-- A named zone, a shift and universal time place every moment. -/
theorem read_ne_error {t : Text} {z : Zone} (h : z ≠ .system) (f : Fault) : read t z ≠ .error f :=
  fun he => h (read_eq_error_iff.1 he).2.1

end Due

end Taskbook
