/-
The few places at hand keep to the laws of a zone database. Their clocks change between two shifts in the course of a
year, and mean time ends at the turn of a year, where no place has a yearly change; so at every instant one reading of
what the clocks show gives the shift in force, and both readings of a wall time give it or neither does.
-/
import Taskbook.Proofs.Zone.Showings
import Taskbook.Zone.Place
import Mathlib.Tactic.IntervalCases

namespace Taskbook

open Calendar

/-! ## One reading gives the shift in force -/

namespace Seasons

variable {r : Seasons} {i wall : Int}

/-- The yearly changes switch between two shifts. -/
theorem yearly_eq (r : Seasons) (i : Int) : r.yearly i = r.greatest ∨ r.yearly i = r.least := by
  unfold yearly greatest least
  rcases r.daylight with _ | d
  · exact .inl rfl
  · dsimp only
    split_ifs <;> simp

theorem least_le_greatest (r : Seasons) : r.least.micros ≤ r.greatest.micros := by
  unfold least greatest
  rcases r.daylight with _ | d
  · exact Int.le_refl _
  · dsimp only
    split <;> omega

theorem shiftAt_of_lt (h : i < r.reform) : r.shiftAt i = r.mean := by
  unfold shiftAt
  rw [if_pos h]

theorem shiftAt_of_le (h : r.reform ≤ i) : r.shiftAt i = r.yearly i := by
  unfold shiftAt
  rw [if_neg (by omega)]

/-- Mean time and the yearly changes fit together: where there are two shifts, mean time is not ahead of
the greater one, and where the lesser one is in force after mean time has ended, the clocks are past the
lesser of the two wall times at which it may be said to end. -/
structure Fitting (r : Seasons) : Prop where
  mean_le : r.greatest = r.least ∨ r.mean.micros ≤ r.greatest.micros
  past : ∀ i, r.reform ≤ i → r.yearly i = r.least →
    r.reform + min r.mean.micros (r.yearly r.reform).micros ≤ i + r.least.micros

/-- One of the two readings gives the shift in force. -/
theorem Fitting.exists_reading (h : r.Fitting) (i : Int) :
    ∃ later, r.shiftOfWall (i + (r.shiftAt i).micros) later = r.shiftAt i := by
  by_cases hi : i < r.reform
  · refine ⟨false, ?_⟩
    rw [shiftAt_of_lt hi]
    unfold shiftOfWall
    rw [if_pos (by simp; omega)]
  · rw [shiftAt_of_le (by omega)]
    by_cases hl : r.yearly i = r.least
    · -- the second reading takes the lesser shift off again
      refine ⟨true, ?_⟩
      have hp := h.past i (by omega) hl
      unfold shiftOfWall
      simp only [if_true]
      rw [hl, if_neg (by omega), Int.add_sub_cancel, hl]
    · -- the first one takes the greater shift off again
      refine ⟨false, ?_⟩
      have hg : r.yearly i = r.greatest := (r.yearly_eq i).resolve_right hl
      have hm : r.mean.micros ≤ r.greatest.micros := h.mean_le.resolve_left fun he => hl (hg.trans he)
      have hn : (r.yearly r.reform).micros ≤ r.greatest.micros := by
        have hle := r.least_le_greatest
        rcases r.yearly_eq r.reform with he | he <;> rw [he]
        exact hle
      unfold shiftOfWall
      simp only [Bool.false_eq_true, if_false]
      rw [hg, if_neg (by omega), Int.add_sub_cancel, hg]

/-- Wall times are read with mean time or with one of the two shifts of the yearly changes. -/
theorem shiftOfWall_eq (r : Seasons) (wall : Int) (later : Bool) : r.shiftOfWall wall later = r.mean ∨
    r.shiftOfWall wall later = r.greatest ∨ r.shiftOfWall wall later = r.least := by
  unfold shiftOfWall
  cases later <;> simp only [Bool.false_eq_true, if_false, if_true] <;> split_ifs
  · exact .inl rfl
  · exact .inr (r.yearly_eq _)
  · exact .inl rfl
  · exact .inr (r.yearly_eq _)

/-- The three shifts are whole seconds. -/
def InSeconds (r : Seasons) : Prop := ∀ s ∈ [r.mean, r.greatest, r.least], (microsPerSecond : Int) ∣ s.micros

instance (r : Seasons) : Decidable r.InSeconds := inferInstanceAs (Decidable (∀ s ∈ _, _))

theorem Fitting.lawful (h : r.Fitting) (hs : r.InSeconds) : r.rule.Lawful where
  reading := h.exists_reading
  seconds wall later := by
    rw [rule_shiftOfWall]
    apply hs
    rcases r.shiftOfWall_eq wall later with he | he | he <;> simp [he]

/-! ## The end of mean time -/

/-- For two days before and behind the end of mean time no yearly change of the clocks falls. -/
def Steady (r : Seasons) : Prop :=
  ∀ i, r.reform - 2 * microsPerDay ≤ i → i ≤ r.reform + 2 * microsPerDay → r.yearly i = r.yearly r.reform

/-- Then only the greater shift has to be compared with mean time. -/
theorem Steady.fitting (hs : r.Steady) (hm : r.greatest = r.least ∨ r.mean.micros ≤ r.greatest.micros) :
    r.Fitting where
  mean_le := hm
  past i hi hl := by
    by_cases hnear : i ≤ r.reform + 2 * microsPerDay
    · rw [← hs i (by omega) hnear, hl]
      omega
    · have hmean := r.mean.greatest
      have hleast := r.least.least
      omega

theorem steady_of_always (h : r.daylight = none) : r.Steady := by
  intro i _ _
  unfold yearly
  rw [h]

/-- Mean time ends at the turn of a year. -/
theorem year_near_reform {n : Nat} (hl : daysBeforeYear 1840 ≤ n + 4) (hg : n < daysBeforeYear 1840 + 4) :
    (yearOfDay n).1 = 1839 ∨ (yearOfDay n).1 = 1840 := by
  have hdays : daysBeforeYear 1840 = 671680 := by decide
  rw [hdays] at hl hg
  have hl' : 671676 ≤ n := by omega
  have hg' : n < 671684 := by omega
  interval_cases n <;> decide

/-- The instant of a year at which daylight time starts. -/
def start (r : Seasons) (d : Daylight) (year : Nat) : Int := d.starts.wall year - r.standard.micros

/-- The instant of a year at which daylight time stops. -/
def stop (d : Daylight) (year : Nat) : Int := d.stops.wall year - d.shift.micros

/-- Around the end of mean time the shift of the yearly changes is told by those of 1839 or of 1840. -/
theorem yearly_near_reform {d : Daylight} (hd : r.daylight = some d) (hl : r.reform - 2 * microsPerDay ≤ i)
    (hg : i ≤ r.reform + 2 * microsPerDay) : ∃ year, (year = 1839 ∨ year = 1840) ∧
      (r.start d year < stop d year →
        r.yearly i = if r.start d year ≤ i ∧ i < stop d year then d.shift else r.standard) ∧
      (stop d year ≤ r.start d year →
        r.yearly i = if stop d year ≤ i ∧ i < r.start d year then r.standard else d.shift) := by
  have hm := r.mean.least
  have hm' := r.mean.greatest
  have hs := r.standard.least
  have hs' := r.standard.greatest
  refine ⟨_, year_near_reform (n := ((i + r.standard.micros) / (microsPerDay : Int)).toNat) ?_ ?_, ?_, ?_⟩
  · unfold reform microsPerDay microsPerSecond at *
    omega
  · unfold reform microsPerDay microsPerSecond at *
    omega
  · intro hlt
    unfold start stop at *
    unfold yearly
    simp [hd, hlt]
  · intro hle
    unfold start stop at *
    unfold yearly
    simp only [hd, if_neg (Int.not_lt.2 hle), ← Bool.decide_and, ← decide_not, decide_eq_true_eq, ite_not]

/-- North of the equator mean time ends in winter. -/
theorem steady_of_north {d : Daylight} (hd : r.daylight = some d)
    (hstop : r.start d 1839 < stop d 1839 ∧ stop d 1839 ≤ r.reform - 2 * microsPerDay)
    (hstart : r.reform + 2 * microsPerDay < r.start d 1840 ∧ r.start d 1840 < stop d 1840) : r.Steady := by
  have hwinter : ∀ i, r.reform - 2 * microsPerDay ≤ i → i ≤ r.reform + 2 * microsPerDay → r.yearly i = r.standard := by
    intro i hl hg
    obtain ⟨year, rfl | rfl, hy, -⟩ := yearly_near_reform hd hl hg
    · rw [hy hstop.1, if_neg (by omega)]
    · rw [hy hstart.2, if_neg (by omega)]
  intro i hl hg
  rw [hwinter i hl hg, hwinter _ (by omega) (by omega)]

/-- South of it mean time ends in summer. -/
theorem steady_of_south {d : Daylight} (hd : r.daylight = some d)
    (hstart : stop d 1839 ≤ r.start d 1839 ∧ r.start d 1839 ≤ r.reform - 2 * microsPerDay)
    (hstop : r.reform + 2 * microsPerDay < stop d 1840 ∧ stop d 1840 ≤ r.start d 1840) : r.Steady := by
  have hsummer : ∀ i, r.reform - 2 * microsPerDay ≤ i → i ≤ r.reform + 2 * microsPerDay → r.yearly i = d.shift := by
    intro i hl hg
    obtain ⟨year, rfl | rfl, -, hy⟩ := yearly_near_reform hd hl hg
    · rw [hy hstart.1, if_neg (by omega)]
    · rw [hy hstop.2, if_neg (by omega)]
  intro i hl hg
  rw [hsummer i hl hg, hsummer _ (by omega) (by omega)]

/-! ## Both readings or neither -/

/-- Before the end of mean time. -/
theorem paired_mean (h : wall < r.reform + r.mean.micros) : r.rule.Paired wall r.mean r.mean where
  iff := Iff.rfl
  of_eq _ := shiftAt_of_lt (by omega)

/-- At the end of mean time, between the wall times that its two readings take for it. -/
theorem Steady.paired_reform (hs : r.Steady)
    (hl : r.reform + min r.mean.micros (r.yearly r.reform).micros ≤ wall)
    (hg : wall < r.reform + max r.mean.micros (r.yearly r.reform).micros) :
    r.rule.Paired wall r.mean (r.yearly r.reform) := by
  have hm := r.mean.least
  have hm' := r.mean.greatest
  have hn := (r.yearly r.reform).least
  have hn' := (r.yearly r.reform).greatest
  have hne : r.mean ≠ r.yearly r.reform := by
    intro he
    rw [← he] at hl hg
    omega
  refine ⟨?_, fun he => absurd he hne⟩
  by_cases hlt : r.mean.micros < (r.yearly r.reform).micros
  · -- the clocks go forward, over this wall time
    rw [rule_shiftAt, shiftAt_of_le (by omega), shiftAt_of_lt (by omega), hs _ (by omega) (by omega)]
    exact ⟨fun he => absurd he.symm hne, fun he => absurd he hne⟩
  · -- the clocks go back, to show it again
    rw [rule_shiftAt, shiftAt_of_lt (by omega), shiftAt_of_le (by omega), hs _ (by omega) (by omega)]
    exact ⟨fun _ => rfl, fun _ => rfl⟩

/-- Behind the end of mean time only the yearly changes count. -/
theorem Steady.paired_yearly (hs : r.Steady)
    (hw : r.reform + max r.mean.micros (r.yearly r.reform).micros ≤ wall) :
    r.rule.Paired wall (r.yearly (wall - r.greatest.micros)) (r.yearly (wall - r.least.micros)) := by
  have hl := r.least.least
  have hg := r.greatest.greatest
  have hle := r.least_le_greatest
  have hleast : r.reform ≤ wall - r.least.micros := by
    rcases r.yearly_eq r.reform with hn | hn <;> rw [hn] at hw <;> omega
  -- an instant before the reform would have the shift that is in force at the reform
  have hgreatest : r.reform ≤ wall - r.greatest.micros ∨
      r.yearly (wall - r.greatest.micros) = r.least ∧ r.yearly (wall - r.least.micros) = r.least := by
    by_cases hlt : r.reform ≤ wall - r.greatest.micros
    · exact .inl hlt
    · have hbound := (r.yearly r.reform).least
      have hnew : r.yearly r.reform = r.least := by
        refine (r.yearly_eq r.reform).resolve_left fun hn => ?_
        rw [hn] at hw
        omega
      right
      rw [hs (wall - r.greatest.micros) (by omega) (by omega), hs (wall - r.least.micros) (by omega) (by omega), hnew]
      exact ⟨rfl, rfl⟩
  have hat := shiftAt_of_le hleast
  rcases hgreatest with hgreatest | ⟨hfirst, hsecond⟩
  · have hat' := shiftAt_of_le hgreatest
    rcases r.yearly_eq (wall - r.greatest.micros) with ha | ha <;>
      rcases r.yearly_eq (wall - r.least.micros) with hb | hb <;> rw [ha] at hat' ⊢ <;> rw [hb] at hat ⊢
    · exact ⟨Iff.rfl, fun _ => hat'⟩
    · exact ⟨⟨fun _ => hat, fun _ => hat'⟩, fun _ => hat'⟩
    · refine ⟨?_, fun he => hat.trans he.symm⟩
      rw [rule_shiftAt, hat, hat', eq_comm]
    · exact ⟨Iff.rfl, fun _ => hat⟩
  · rw [hfirst, hsecond]
    exact ⟨Iff.rfl, fun _ => hat.trans hsecond⟩

theorem Steady.paired (hs : r.Steady) (wall : Int) :
    r.rule.Paired wall (r.shiftOfWall wall false) (r.shiftOfWall wall true) := by
  have hm := r.mean.least
  have hm' := r.mean.greatest
  have hn := (r.yearly r.reform).least
  have hn' := (r.yearly r.reform).greatest
  have hl := r.least.least
  have hl' := r.least.greatest
  unfold shiftOfWall
  simp only [Bool.false_eq_true, if_false, if_true]
  by_cases hbefore : wall < r.reform + min r.mean.micros (r.yearly r.reform).micros
  · rw [if_pos hbefore, if_pos (by omega)]
    exact paired_mean (by omega)
  · rw [if_neg hbefore]
    by_cases hbehind : wall < r.reform + max r.mean.micros (r.yearly r.reform).micros
    · rw [if_pos hbehind, hs (wall - r.least.micros) (by omega) (by omega)]
      exact hs.paired_reform (by omega) hbehind
    · rw [if_neg hbehind]
      exact hs.paired_yearly (by omega)

end Seasons

/-! ## Places -/

namespace Place

theorem steady (p : Place) : p.seasons.Steady := by
  cases p with
  | newYork | stJohns | london => exact Seasons.steady_of_north rfl (by decide) (by decide)
  | lordHowe => exact Seasons.steady_of_south rfl (by decide) (by decide)
  | _ => exact Seasons.steady_of_always rfl

theorem fitting (p : Place) : p.seasons.Fitting := by
  cases p with
  | newYork | stJohns | london | lordHowe => exact Seasons.Steady.fitting (steady _) (.inr (by decide))
  | _ => exact Seasons.Steady.fitting (steady _) (.inl rfl)

theorem inSeconds (p : Place) : p.seasons.InSeconds := by
  cases p <;> decide

theorem exists_of_rule? {name : Text} {r : Rule} (h : Atlas.rule? name = some r) : ∃ p : Place, r = p.seasons.rule := by
  obtain ⟨p, -, rfl⟩ := Option.map_eq_some_iff.1 h
  exact ⟨p, rfl⟩

/-- The places at hand keep to the laws of a zone database. -/
theorem lawful : Atlas.Lawful := by
  intro name r h
  obtain ⟨p, rfl⟩ := exists_of_rule? h
  exact p.fitting.lawful p.inSeconds

/-- And their readings are paired. -/
theorem paired : Atlas.Paired := by
  intro name r h
  obtain ⟨p, rfl⟩ := exists_of_rule? h
  exact p.steady.paired

end Place

end Taskbook
