/-
Dates and the numbers of their days. `yearOfDay` finds the year in which a day lies and `monthOfDay` the
month, so the date of a day exists and has that day as its number; and a date that exists is the date of its day.
-/
import Taskbook.Calendar.Date
import Mathlib.Tactic.SplitIfs
import Mathlib.Tactic.NormNum

namespace Taskbook.Calendar

/-! ## Years -/

/-- The length of a year. -/
def yearLength (leap : Bool) : Nat := if leap then 366 else 365

/-- A day by its place in the cycles of 400, 100 and 4 years: the years before it have so many days. -/
theorem daysBeforeYear_of_cycles {q c f y : Nat} (hc : c ≤ 3) (hf : f ≤ 24) (hy : y ≤ 3) :
    daysBeforeYear (400 * q + 100 * c + 4 * f + y + 1) = 146097 * q + 36524 * c + 1461 * f + 365 * y := by
  unfold daysBeforeYear
  omega

/-- In a cycle of four years the last one is a leap year, but not the last of a century, unless it is the
last of 400 years. -/
theorem isLeap_of_cycles {q c f y : Nat} (hc : c ≤ 3) (hf : f ≤ 24) (hy : y ≤ 3) :
    isLeap (400 * q + 100 * c + 4 * f + y + 1) = true ↔ y = 3 ∧ (f = 24 → c = 3) := by
  have h4 : (400 * q + 100 * c + 4 * f + y + 1) % 4 = 0 ↔ y = 3 := by omega
  have h100 : (400 * q + 100 * c + 4 * f + y + 1) % 100 = 0 ↔ y = 3 ∧ f = 24 := by omega
  have h400 : (400 * q + 100 * c + 4 * f + y + 1) % 400 = 0 ↔ y = 3 ∧ f = 24 ∧ c = 3 := by omega
  unfold isLeap
  simp only [Bool.and_eq_true, Bool.or_eq_true, beq_iff_eq, bne_iff_ne, ne_eq, h4, h100, h400]
  omega

/-- The days before the year of a day, and those of that year before it, are all the days before it. -/
theorem yearOfDay_spec (n : Nat) :
    1 ≤ (yearOfDay n).1 ∧ daysBeforeYear (yearOfDay n).1 + (yearOfDay n).2 = n ∧
      (yearOfDay n).2 < yearLength (isLeap (yearOfDay n).1) := by
  unfold yearOfDay
  dsimp only
  -- cycles of 400 years
  have hq : n = 146097 * (n / 146097) + n % 146097 := (Nat.div_add_mod n 146097).symm
  have hr : n % 146097 < 146097 := Nat.mod_lt _ (by norm_num)
  generalize n / 146097 = q at hq ⊢
  generalize n % 146097 = r at hq hr ⊢
  -- centuries, the last of which has a day more
  have hc : min (r / 36524) 3 ≤ 3 := Nat.min_le_right _ _
  have hcr : 36524 * min (r / 36524) 3 ≤ r ∧
      r < 36524 * min (r / 36524) 3 + (if min (r / 36524) 3 = 3 then 36525 else 36524) := by
    split <;> omega
  generalize min (r / 36524) 3 = c at hc hcr ⊢
  have hi : c * 36524 + (r - c * 36524) = r := by omega
  generalize r - c * 36524 = i at hi ⊢
  -- cycles of four years, then the years of one
  have hf : i = 1461 * (i / 1461) + i % 1461 := (Nat.div_add_mod i 1461).symm
  have hj : i % 1461 < 1461 := Nat.mod_lt _ (by norm_num)
  generalize i / 1461 = f at hf ⊢
  generalize i % 1461 = j at hf hj ⊢
  have hf24 : f ≤ 24 := by split at hcr <;> omega
  have hy : min (j / 365) 3 ≤ 3 := Nat.min_le_right _ _
  have hyj : 365 * min (j / 365) 3 ≤ j ∧ j < 365 * min (j / 365) 3 + (if min (j / 365) 3 = 3 then 366 else 365) := by
    split <;> omega
  generalize min (j / 365) 3 = y at hy hyj ⊢
  rw [daysBeforeYear_of_cycles hc hf24 hy]
  refine ⟨by omega, by omega, ?_⟩
  -- the last day of a leap year is the only one that needs the rule for leap years
  unfold yearLength
  rcases hl : isLeap (400 * q + 100 * c + 4 * f + y + 1) with _ | _
  · have hnot : ¬ (y = 3 ∧ (f = 24 → c = 3)) := by
      rw [← isLeap_of_cycles (q := q) hc hf24 hy, hl]; simp
    rw [if_neg (by simp)]
    split at hcr <;> split at hyj <;> omega
  · rw [if_pos rfl]
    split at hyj <;> omega

theorem year_le_lastYear {n : Nat} (h : n < dayCount) : (yearOfDay n).1 ≤ lastYear := by
  obtain ⟨-, hn, -⟩ := yearOfDay_spec n
  by_contra hy
  have hmono : dayCount ≤ daysBeforeYear (yearOfDay n).1 := by
    unfold daysBeforeYear dayCount
    unfold lastYear at hy
    omega
  omega

/-! ## Months -/

theorem sum_monthLengths (leap : Bool) : (monthLengths leap).sum = yearLength leap := by cases leap <;> rfl

theorem daysBeforeMonth_eq_sum (year month : Nat) :
    daysBeforeMonth year month = ((monthLengths (isLeap year)).take (month - 1)).sum := rfl

theorem length_monthLengths (leap : Bool) : (monthLengths leap).length = 12 := rfl

theorem monthLength_le (leap : Bool) {i : Nat} (h : i < 12) : (monthLengths leap).getD i 0 ≤ 31 := by
  revert i; cases leap <;> decide

/-- The days before the month found, and those of that month before the day, are all that were left. -/
theorem monthOfDay_spec {lengths : List Nat} {left : Nat} (h : left < lengths.sum) (month : Nat) :
    ∃ i day, monthOfDay lengths month left = (month + i, day + 1) ∧ i < lengths.length ∧
      (lengths.take i).sum + day = left ∧ day < lengths.getD i 0 := by
  induction lengths generalizing left month with
  | nil => simp at h
  | cons length lengths ih =>
    rw [List.sum_cons] at h
    by_cases hl : left < length
    · exact ⟨0, left, by simp [monthOfDay, hl], by simp, by simp, by simpa using hl⟩
    · obtain ⟨i, day, hm, hi, hsum, hday⟩ := ih (show left - length < lengths.sum by omega) (month + 1)
      refine ⟨i + 1, day, ?_, by simpa using hi, ?_, by simpa using hday⟩
      · rw [monthOfDay, if_neg hl, hm]; congr 1; omega
      · rw [List.take_succ_cons, List.sum_cons]; omega

/-! ## Dates -/

namespace Date

/-- The date of a day, in its parts. -/
theorem ofDay_spec {n : Nat} (h : n < dayCount) :
    (ofDay n).fault? = none ∧ (ofDay n).dayNumber = n ∧ (ofDay n).year ≤ 9999 ∧ (ofDay n).month ≤ 12 ∧
      (ofDay n).day ≤ 31 := by
  obtain ⟨hy1, hn, hleft⟩ := yearOfDay_spec n
  have hy := year_le_lastYear h
  rw [← sum_monthLengths] at hleft
  obtain ⟨i, day, hm, hi, hsum, hday⟩ := monthOfDay_spec hleft 1
  have hof : ofDay n = ⟨(yearOfDay n).1, 1 + i, day + 1⟩ := by
    unfold ofDay; dsimp only; rw [hm]
  rw [length_monthLengths] at hi
  have hlength : day + 1 ≤ daysInMonth (yearOfDay n).1 (1 + i) := by
    unfold daysInMonth
    rw [Nat.add_sub_cancel_left]
    omega
  have h31 := monthLength_le (isLeap (yearOfDay n).1) hi
  rw [hof]
  refine ⟨?_, ?_, hy, by dsimp only; omega, by dsimp only; omega⟩
  · unfold fault?
    rw [if_neg (by simp; omega), if_neg (by simp; omega), if_neg (by simp; omega)]
  · unfold dayNumber
    dsimp only
    rw [daysBeforeMonth_eq_sum, Nat.add_sub_cancel_left, Nat.add_sub_cancel]
    omega

end Date

/-! ## From a date to its day and back -/

theorem daysBeforeYear_succ (n : Nat) :
    daysBeforeYear (n + 1 + 1) = daysBeforeYear (n + 1) + yearLength (isLeap (n + 1)) := by
  -- each quotient grows by one where its divisor divides the year
  have h4 : (n + 1) / 4 = n / 4 + if (n + 1) % 4 = 0 then 1 else 0 := by split <;> omega
  have h100 : (n + 1) / 100 = n / 100 + if (n + 1) % 100 = 0 then 1 else 0 := by split <;> omega
  have h400 : (n + 1) / 400 = n / 400 + if (n + 1) % 400 = 0 then 1 else 0 := by split <;> omega
  have hle : n / 100 ≤ n / 4 := Nat.div_le_div_left (by norm_num) (by norm_num)
  have hlen : yearLength (isLeap (n + 1)) + (if (n + 1) % 100 = 0 then 1 else 0) =
      365 + (if (n + 1) % 4 = 0 then 1 else 0) + if (n + 1) % 400 = 0 then 1 else 0 := by
    unfold yearLength isLeap
    simp only [Bool.and_eq_true, Bool.or_eq_true, beq_iff_eq, bne_iff_ne, ne_eq]
    split_ifs <;> omega
  unfold daysBeforeYear
  simp only [Nat.add_sub_cancel, h4, h100, h400]
  generalize n / 4 = a, n / 100 = b at hle
  omega

theorem daysBeforeYear_le {y y' : Nat} (hy : 1 ≤ y) (h : y ≤ y') : daysBeforeYear y ≤ daysBeforeYear y' := by
  induction y', h using Nat.le_induction with
  | base => exact le_rfl
  | succ y' hle ih =>
    obtain ⟨n, rfl⟩ := Nat.exists_eq_add_of_le' (hy.trans hle)
    exact ih.trans (daysBeforeYear_succ n ▸ Nat.le_add_right _ _)

/-- All days of a year lie before the years that follow it. -/
theorem daysBeforeYear_add_lt {y y' left : Nat} (hy : 1 ≤ y) (hl : left < yearLength (isLeap y)) (h : y < y') :
    daysBeforeYear y + left < daysBeforeYear y' := by
  obtain ⟨n, rfl⟩ := Nat.exists_eq_add_of_le' hy
  have hle := daysBeforeYear_le (Nat.le_add_left 1 (n + 1)) (Nat.succ_le_of_lt h)
  rw [daysBeforeYear_succ] at hle
  omega

/-- A day lies in one year only. -/
theorem year_of_day_unique {y y' left left' : Nat} (hy : 1 ≤ y) (hy' : 1 ≤ y') (hl : left < yearLength (isLeap y))
    (hl' : left' < yearLength (isLeap y')) (h : daysBeforeYear y + left = daysBeforeYear y' + left') :
    y = y' ∧ left = left' := by
  rcases Nat.lt_trichotomy y y' with hlt | rfl | hlt
  · have := daysBeforeYear_add_lt hy hl hlt
    omega
  · exact ⟨rfl, Nat.add_left_cancel h⟩
  · have := daysBeforeYear_add_lt hy' hl' hlt
    omega

theorem monthOfDay_take_sum {lengths : List Nat} {i day : Nat} (h : day < lengths.getD i 0) (month : Nat) :
    monthOfDay lengths month ((lengths.take i).sum + day) = (month + i, day + 1) := by
  induction lengths generalizing i month with
  | nil => simp at h
  | cons length lengths ih =>
    cases i with
    | zero =>
      have hd : day < length := by simpa using h
      simp [monthOfDay, hd]
    | succ i =>
      have hrest := ih (show day < lengths.getD i 0 by simpa using h) (month + 1)
      have hsum : ((length :: lengths).take (i + 1)).sum + day = length + ((lengths.take i).sum + day) := by
        rw [List.take_succ_cons, List.sum_cons, Nat.add_assoc]
      rw [hsum, monthOfDay, if_neg (by omega), Nat.add_sub_cancel_left, hrest, Nat.add_assoc, Nat.add_comm 1 i]

theorem take_sum_add_lt {lengths : List Nat} {i day : Nat} (h : day < lengths.getD i 0) :
    (lengths.take i).sum + day < lengths.sum := by
  induction lengths generalizing i with
  | nil => simp at h
  | cons length lengths ih =>
    cases i with
    | zero =>
      have hd : day < length := by simpa using h
      simp only [List.take_zero, List.sum_nil, List.sum_cons]
      omega
    | succ i =>
      have hrest := ih (show day < lengths.getD i 0 by simpa using h)
      rw [List.take_succ_cons, List.sum_cons, List.sum_cons]
      omega

namespace Date

theorem fault?_eq_none_iff {d : Date} : d.fault? = none ↔
    (1 ≤ d.year ∧ d.year ≤ 9999) ∧ (1 ≤ d.month ∧ d.month ≤ 12) ∧ 1 ≤ d.day ∧ d.day ≤ daysInMonth d.year d.month := by
  unfold fault? lastYear
  split_ifs <;> simp_all <;> omega

/-- The day within the year. -/
theorem dayOfYear_lt {d : Date} (h : d.fault? = none) :
    daysBeforeMonth d.year d.month + (d.day - 1) < yearLength (isLeap d.year) := by
  obtain ⟨-, -, hd, hle⟩ := fault?_eq_none_iff.1 h
  rw [daysBeforeMonth_eq_sum, ← sum_monthLengths]
  refine take_sum_add_lt ?_
  unfold daysInMonth at hle
  omega

/-- A date that exists is that of its day, and this day lies in the calendar. -/
theorem ofDay_dayNumber {d : Date} (h : d.fault? = none) : ofDay d.dayNumber = d ∧ d.dayNumber < dayCount := by
  obtain ⟨⟨hy, hy'⟩, ⟨hm, -⟩, hd, hle⟩ := fault?_eq_none_iff.1 h
  have hlt := dayOfYear_lt h
  have hn : d.dayNumber = daysBeforeYear d.year + (daysBeforeMonth d.year d.month + (d.day - 1)) := by
    unfold dayNumber
    rw [Nat.add_assoc]
  obtain ⟨hy1, hsum, hleft⟩ := yearOfDay_spec d.dayNumber
  obtain ⟨hyear, hday⟩ := year_of_day_unique hy1 hy hleft hlt (hsum.trans hn)
  constructor
  · unfold ofDay
    dsimp only
    rw [hyear, hday, daysBeforeMonth_eq_sum, monthOfDay_take_sum (by unfold daysInMonth at hle; omega)]
    rw [Nat.add_sub_cancel' hm, Nat.sub_add_cancel hd]
  · have hend : daysBeforeYear 10000 = dayCount := by decide
    rw [hn, ← hend]
    exact daysBeforeYear_add_lt hy hlt (by omega)

end Date

end Taskbook.Calendar
