/-
Wall times that are shown once, twice or never. The clocks of a zone show a wall time at the instants that are this
wall time less the shift in force at them, and no other instants come into question than those of its two readings.
Of a zone database it is taken for granted that both readings give the shift in force or neither does. Then a wall time
is shown once where the readings agree; where they differ, it is shown at both of them or at none.
-/
import Taskbook.Proofs.Zone.Readings

namespace Taskbook

theorem Shift.ext_micros {a b : Shift} (h : a.micros = b.micros) : a = b := by
  cases a; cases b; cases h; rfl

/-! ## Paired readings -/

/-- The two readings of a wall time: both give the shift in force or neither does, and they both do if they are the
same. -/
structure Rule.Paired (r : Rule) (wall : Int) (first second : Shift) : Prop where
  iff : r.shiftAt (wall - first.micros) = first ↔ r.shiftAt (wall - second.micros) = second
  of_eq : first = second → r.shiftAt (wall - first.micros) = first

/-- Under every rule of the atlas the readings of all wall times are paired. -/
def Atlas.Paired [Atlas] : Prop :=
  ∀ name r, Atlas.rule? name = some r → ∀ wall, r.Paired wall (r.shiftOfWall wall false) (r.shiftOfWall wall true)

theorem Atlas.Paired.rule [Atlas] (h : Atlas.Paired) (name : Text) (wall : Int) :
    (Atlas.rule name).Paired wall ((Atlas.rule name).shiftOfWall wall false)
      ((Atlas.rule name).shiftOfWall wall true) := by
  unfold Atlas.rule
  rcases hr : Atlas.rule? name with _ | r
  · exact ⟨Iff.rfl, fun _ => rfl⟩
  · exact h name r hr wall

/-! ## Showings -/

namespace Zone

variable [Atlas]

/-- The clocks of the zone show the wall time at this instant. -/
def Shows (z : Zone) (instant wall : Int) : Prop := instant + (z.shiftAt instant).micros = wall

/-- The clocks of the zone show the wall time at two instants. -/
def Repeats (z : Zone) (wall : Int) : Prop := ∃ i j, i ≠ j ∧ z.Shows i wall ∧ z.Shows j wall

/-- The clocks of the zone never show the wall time. -/
def Skips (z : Zone) (wall : Int) : Prop := ∀ i, ¬ z.Shows i wall

/-- A wall time is shown at the instant of one of its readings. -/
theorem Shows.reading (ha : Atlas.Lawful) {z : Zone} {i wall : Int} (h : z.Shows i wall) :
    ∃ later, z.shiftOfWall wall later = z.shiftAt i ∧ i = wall - (z.shiftOfWall wall later).micros := by
  obtain ⟨later, hr⟩ := z.exists_reading ha i
  rw [show i + (z.shiftAt i).micros = wall from h] at hr
  refine ⟨later, hr, ?_⟩
  rw [hr, ← h]
  omega

theorem shows_reading_iff {z : Zone} {wall : Int} {s : Shift} :
    z.Shows (wall - s.micros) wall ↔ z.shiftAt (wall - s.micros) = s := by
  unfold Shows
  constructor
  · intro h
    exact Shift.ext_micros (by omega)
  · intro h
    rw [h]
    omega

/-- A wall time is shown at both of its readings or at neither, and it is shown at them if they are the same. -/
theorem shows_readings (hp : Atlas.Paired) (z : Zone) (wall : Int) :
    (z.Shows (wall - (z.shiftOfWall wall false).micros) wall ↔
        z.Shows (wall - (z.shiftOfWall wall true).micros) wall) ∧
      (z.shiftOfWall wall false = z.shiftOfWall wall true →
        z.Shows (wall - (z.shiftOfWall wall false).micros) wall) := by
  rw [shows_reading_iff, shows_reading_iff]
  cases z with
  | place name => exact ⟨(hp.rule name wall).iff, (hp.rule name wall).of_eq⟩
  | _ => exact ⟨⟨fun _ => rfl, fun _ => rfl⟩, fun _ => rfl⟩

/-- The readings of a wall time differ exactly if it is shown twice or never. -/
theorem shiftOfWall_ne_iff (ha : Atlas.Lawful) (hp : Atlas.Paired) (z : Zone) (wall : Int) :
    z.shiftOfWall wall false ≠ z.shiftOfWall wall true ↔ z.Repeats wall ∨ z.Skips wall := by
  obtain ⟨hboth, hsame⟩ := z.shows_readings hp wall
  constructor
  · intro hne
    by_cases hshown : z.Shows (wall - (z.shiftOfWall wall false).micros) wall
    · left
      refine ⟨_, _, fun he => hne (Shift.ext_micros ?_), hshown, hboth.1 hshown⟩
      omega
    · right
      intro i hi
      obtain ⟨later, -, rfl⟩ := hi.reading ha
      cases later with
      | false => exact hshown hi
      | true => exact hshown (hboth.2 hi)
  · intro h heq
    -- all showings are at the one instant of both readings
    have honce : ∀ i, z.Shows i wall → i = wall - (z.shiftOfWall wall false).micros := by
      intro i hi
      obtain ⟨later, -, rfl⟩ := hi.reading ha
      cases later with
      | false => rfl
      | true => rw [heq]
    rcases h with ⟨i, j, hne, hi, hj⟩ | hskips
    · exact hne ((honce i hi).trans (honce j hj).symm)
    · exact hskips _ (hsame heq)

/-- Only places repeat or skip wall times. -/
theorem exists_place_of_ne {z : Zone} {wall : Int} (h : z.shiftOfWall wall false ≠ z.shiftOfWall wall true) :
    ∃ name, z = .place name := by
  cases z with
  | place name => exact ⟨name, rfl⟩
  | _ => exact absurd rfl h

end Zone

end Taskbook
