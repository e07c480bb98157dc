/-
Instants and what the clocks show. Of a zone database it is taken for granted that the wall time which the clocks show
at an instant has, in one of its two readings, the shift in force then, and that shifts are whole seconds. So in every
zone and across every change of the clocks a wall time with the right choice of its reading denotes the instant at
which it was taken, and moving a moment between zones keeps its instant.
-/
import Taskbook.Moment
import Taskbook.Proofs.Calendar.WallTime

namespace Taskbook

open Calendar

/-! ## Shifts that can be told -/

/-- The shift is none or at least a second. What is written as a shift of less than a second is read as none. -/
def Shift.Tellable (s : Shift) : Prop := s.micros = 0 ∨ microsPerSecond ≤ s.micros.natAbs

instance (s : Shift) : Decidable s.Tellable := inferInstanceAs (Decidable (_ ∨ _))

theorem Shift.tellable_zero : Shift.zero.Tellable := .inl rfl

theorem Shift.tellable_of_dvd {s : Shift} (h : (microsPerSecond : Int) ∣ s.micros) : s.Tellable := by
  rcases eq_or_ne s.micros 0 with h0 | hne
  · exact .inl h0
  · exact .inr (Nat.le_of_dvd (Int.natAbs_pos.2 hne) (Int.natCast_dvd.1 h))

/-! ## The laws of a zone database -/

/-- What every rule in a zone database keeps to. -/
structure Rule.Lawful (r : Rule) : Prop where
  /-- The wall time that the clocks show at an instant has, in one of its two readings, the shift of that instant. -/
  reading : ∀ i, ∃ later, r.shiftOfWall (i + (r.shiftAt i).micros) later = r.shiftAt i
  /-- Wall times are read with whole seconds. -/
  seconds : ∀ wall later, (microsPerSecond : Int) ∣ (r.shiftOfWall wall later).micros

/-- The rules of the atlas are those of a zone database. -/
def Atlas.Lawful [Atlas] : Prop := ∀ name r, Atlas.rule? name = some r → r.Lawful

/-- A name that the atlas does not have is given a rule that keeps to the laws as well. -/
theorem Atlas.Lawful.rule [Atlas] (h : Atlas.Lawful) (name : Text) : (Atlas.rule name).Lawful := by
  unfold Atlas.rule
  rcases hr : Atlas.rule? name with _ | r
  · exact ⟨fun _ => ⟨false, rfl⟩, fun _ _ => Int.dvd_zero _⟩
  · exact h name r hr

/-! ## Zones -/

namespace Zone

theorem eq_of_isSame {a b : Zone} (h : a.isSame b = true) : a = b := by
  unfold isSame at h
  split at h
  · rfl
  · rw [eq_of_beq h]
  · rw [eq_of_beq h]
  · cases h

/-- A shift that was written or chosen as the zone can be told. -/
def Tellable : Zone → Prop
  | written s | chosen s => s.Tellable
  | _ => True

variable [Atlas] {z : Zone} {i : Int}

/-- The clocks of every zone show a wall time that has the shift in force in one of its readings. -/
theorem exists_reading (ha : Atlas.Lawful) (z : Zone) (i : Int) :
    ∃ later, z.shiftOfWall (i + (z.shiftAt i).micros) later = z.shiftAt i := by
  cases z with
  | place name => exact (ha.rule name).reading i
  | _ => exact ⟨false, rfl⟩

/-- The time of the zone can be written to be read back: one reading of what its clocks show has the shift in force,
and every shift that a wall time is read with can be told. -/
structure Legible (z : Zone) : Prop where
  reading : ∀ i, ∃ later, z.shiftOfWall (i + (z.shiftAt i).micros) later = z.shiftAt i
  tellable : ∀ wall later, (z.shiftOfWall wall later).Tellable

theorem legible_utc : Zone.utc.Legible := ⟨fun _ => ⟨false, rfl⟩, fun _ _ => Shift.tellable_zero⟩

theorem legible (ha : Atlas.Lawful) (hz : z.Tellable) : z.Legible where
  reading := exists_reading ha z
  tellable wall later := by
    cases z with
    | place name => exact Shift.tellable_of_dvd ((ha.rule name).seconds wall later)
    | written s | chosen s => exact hz
    | utc | system => exact Shift.tellable_zero

/-- The zone of a configured name is never a shift in numbers. -/
theorem tellable_of_named? {name : Option Text} (h : named? name = some z) : z.Tellable := by
  unfold named? at h
  split at h
  · cases h
    trivial
  · cases h
    trivial
  · obtain ⟨r, -, rfl⟩ := Option.map_eq_some_iff.1 h
    trivial

/-- The reading chosen by comparing the first one with the shift in force gives that shift. -/
theorem Legible.shiftOfWall_shiftAt (hz : z.Legible) (i : Int) :
    z.shiftOfWall (i + (z.shiftAt i).micros) (z.shiftOfWall (i + (z.shiftAt i).micros) false != z.shiftAt i) =
      z.shiftAt i := by
  by_cases hfirst : z.shiftOfWall (i + (z.shiftAt i).micros) false = z.shiftAt i
  · rw [bne_eq_false_iff_eq.2 hfirst]
    exact hfirst
  · rw [bne_iff_ne.2 hfirst]
    obtain ⟨later, hlater⟩ := hz.reading i
    cases later with
    | false => exact absurd hlater hfirst
    | true => exact hlater

theorem Legible.tellable_shiftAt (hz : z.Legible) (i : Int) : (z.shiftAt i).Tellable := by
  obtain ⟨later, hlater⟩ := hz.reading i
  rw [← hlater]
  exact hz.tellable _ _

end Zone

/-! ## Moments -/

namespace Moment

variable [Atlas] {m m' : Moment} {z : Zone} {i : Int}

/-- What the clocks of a zone show at an instant denotes that instant, and is read with the shift in force. -/
theorem ofInstant_spec (hz : z.Legible) (h : ofInstant i z = .ok m) :
    m.zone = some z ∧ m.shiftIn z = z.shiftAt i ∧ m.instantIn z = i := by
  unfold ofInstant at h
  dsimp only at h
  split at h
  · rename_i _ wall _ hwall
    cases h
    have hw := WallTime.ofMicros?_eq_some_iff.1 hwall
    have hshift : z.shiftOfWall wall.micros (z.shiftOfWall wall.micros false != z.shiftAt i) = z.shiftAt i := by
      rw [hw, hz.shiftOfWall_shiftAt]
    refine ⟨rfl, hshift, ?_⟩
    unfold instantIn shiftIn
    dsimp only
    rw [hshift]
    omega
  · cases h

/-- Moving a moment of a zone to another one keeps its instant. -/
theorem moveTo_spec (hz : z.Legible) (hm : m.zone ≠ none) (h : m.moveTo z = .ok m') :
    m'.zone = some z ∧ m'.instant = m.instant := by
  obtain ⟨own, hown⟩ := Option.ne_none_iff_exists'.1 hm
  unfold moveTo at h
  rw [hown] at h
  dsimp only at h
  unfold instant
  split at h
  · rename_i hsame
    cases h
    exact ⟨by rw [hown, Zone.eq_of_isSame hsame], rfl⟩
  · obtain ⟨hown', -, hi⟩ := ofInstant_spec hz h
    rw [hown', hown]
    exact ⟨rfl, hi⟩

end Moment

end Taskbook
