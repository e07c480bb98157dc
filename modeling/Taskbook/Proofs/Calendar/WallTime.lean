/-
Wall times and their parts. The date and the clock of a wall time exist and make up the wall time again; and every
date and time of day that exist are those of a wall time.
-/
import Taskbook.Calendar.WallTime
import Taskbook.Proofs.Calendar.Date

namespace Taskbook.Calendar

/-! ## The time of day -/

namespace Clock

/-- Below a day, the parts of a time of day are in their ranges and count up to it again. -/
theorem ofMicros_spec {m : Nat} (h : m < microsPerDay) :
    (ofMicros m).micros = m ∧ (ofMicros m).hour < 24 ∧ (ofMicros m).minute < 60 ∧ (ofMicros m).second < 60 ∧
      (ofMicros m).micro < microsPerSecond := by
  unfold microsPerDay microsPerSecond at h
  unfold ofMicros micros microsPerSecond
  dsimp only
  refine ⟨by omega, by omega, by omega, by omega, by omega⟩

theorem fault?_ofMicros {m : Nat} (h : m < microsPerDay) : (ofMicros m).fault? = none := by
  obtain ⟨-, hh, hm, hs, hu⟩ := ofMicros_spec h
  unfold fault?
  rw [if_neg (by omega), if_neg (by omega), if_neg (by omega), if_neg (by omega)]

theorem fault?_eq_none_iff {c : Clock} :
    c.fault? = none ↔ c.hour < 24 ∧ c.minute < 60 ∧ c.second < 60 ∧ c.micro < microsPerSecond := by
  unfold fault?
  split_ifs <;> simp_all

/-- A time of day that exists is that of its microseconds, of which a day has more. -/
theorem ofMicros_micros {c : Clock} (h : c.fault? = none) : ofMicros c.micros = c ∧ c.micros < microsPerDay := by
  obtain ⟨hh, hm, hs, hu⟩ := fault?_eq_none_iff.1 h
  obtain ⟨hour, minute, second, micro⟩ := c
  unfold ofMicros micros microsPerDay
  unfold microsPerSecond at hu ⊢
  dsimp only at hh hm hs hu ⊢
  refine ⟨?_, by omega⟩
  rw [mk.injEq]
  refine ⟨by omega, by omega, by omega, by omega⟩

end Clock

/-! ## Wall times -/

namespace WallTime

@[ext] theorem ext {a b : WallTime} (h : a.micros = b.micros) : a = b := by
  cases a; cases b; cases h; rfl

theorem ofMicros?_eq_some_iff {m : Int} {w : WallTime} : ofMicros? m = some w ↔ (w.micros : Int) = m := by
  unfold ofMicros?
  constructor
  · intro h
    split at h <;> cases h
    rename_i hm
    exact Int.toNat_of_nonneg hm.1
  · rintro rfl
    have hb := w.bound
    rw [dif_pos ⟨by omega, by omega⟩]
    congr 1

@[simp] theorem ofMicros?_micros (w : WallTime) : ofMicros? w.micros = some w := ofMicros?_eq_some_iff.2 rfl

theorem micros_mod_lt (w : WallTime) : w.micros % microsPerDay < microsPerDay := Nat.mod_lt _ (by decide)

theorem day_lt (w : WallTime) : w.micros / microsPerDay < dayCount :=
  Nat.div_lt_of_lt_mul (by rw [Nat.mul_comm]; exact w.bound)

/-- The day and the clock of a wall time make it up again. -/
theorem ofDay?_clock (w : WallTime) : ofDay? (w.micros / microsPerDay) w.clock = some w := by
  unfold ofDay? clock
  rw [if_pos (Clock.fault?_ofMicros w.micros_mod_lt), (Clock.ofMicros_spec w.micros_mod_lt).1, Nat.mul_comm,
    Nat.div_add_mod]
  exact ofMicros?_micros w

/-- A date and a time of day that exist are those of a wall time. -/
theorem exists_ofDay? {date : Date} {clock : Clock} (hd : date.fault? = none) (hc : clock.fault? = none) :
    ∃ w, ofDay? date.dayNumber clock = some w ∧ w.date = date ∧ w.clock = clock := by
  obtain ⟨hdate, hday⟩ := Date.ofDay_dayNumber hd
  obtain ⟨hclock, hmicros⟩ := Clock.ofMicros_micros hc
  have hbound : date.dayNumber * microsPerDay + clock.micros < dayCount * microsPerDay := by
    unfold dayCount at hday ⊢
    unfold microsPerDay microsPerSecond at hmicros ⊢
    omega
  refine ⟨⟨_, hbound⟩, ?_, ?_, ?_⟩
  · unfold ofDay?
    rw [if_pos hc]
    exact ofMicros?_eq_some_iff.2 rfl
  · have hdiv : (date.dayNumber * microsPerDay + clock.micros) / microsPerDay = date.dayNumber := by
      rw [Nat.add_comm, Nat.add_mul_div_right _ _ (by decide), Nat.div_eq_of_lt hmicros, Nat.zero_add]
    unfold WallTime.date
    rw [hdiv, hdate]
  · have hmod : (date.dayNumber * microsPerDay + clock.micros) % microsPerDay = clock.micros := by
      rw [Nat.add_comm, Nat.add_mul_mod_self_right, Nat.mod_eq_of_lt hmicros]
    unfold WallTime.clock
    rw [hmod, hclock]

end WallTime

end Taskbook.Calendar
