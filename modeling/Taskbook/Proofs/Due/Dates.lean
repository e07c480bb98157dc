/-
The dates of ISO 8601. A text is read as a moment only if it begins with the date of some day, a calendar date or a
week date with or without its hyphens; what stands behind the date tells the time of day.
-/
import Taskbook.Proofs.Due.Codec
import Taskbook.Proofs.Due.Spelling

namespace Taskbook.Due.Iso

open Text Calendar

/-! ## Dates in writing -/

/-- A date writes a day. A week without a day stands for its Monday. -/
inductive DateText : Text → Nat → Prop
  | calendar (dashes : Bool) {d : Date} : d.fault? = none →
    DateText (fixed 4 d.year ++ (separator dashes '-' ++ (fixed 2 d.month ++ (separator dashes '-' ++ fixed 2 d.day))))
      d.dayNumber
  | week (dashes : Bool) {year week n : Nat} : dayOfWeekDate? year week 1 = some n →
    DateText (fixed 4 year ++ (separator dashes '-' ++ 'W' :: fixed 2 week)) n
  | weekday (dashes : Bool) {year week day n : Nat} : dayOfWeekDate? year week day = some n →
    DateText (fixed 4 year ++ (separator dashes '-' ++ 'W' :: (fixed 2 week ++ (separator dashes '-' ++ fixed 1 day))))
      n

/-- The moment of a day and of what stands behind its date. -/
def behind? (day : Nat) : Text → Option Moment
  | [] => do
    let wall ← WallTime.ofDay? day {}
    return { wall }
  | _ :: rest => do
    let (clock, zone) ← timeOfDay? rest
    let wall ← WallTime.ofDay? day clock
    return { wall, zone }

theorem read?_eq (t : Text) :
    read? t = (dateLength? t).bind fun length => (day? t length).bind fun day => behind? day (t.drop length) := by
  unfold read?
  rcases dateLength? t with _ | length
  · rfl
  · simp only [Option.bind_eq_bind, Option.bind_some]
    congr 1

theorem behind?_cons_eq_some_iff {day : Nat} {c : Char} {t : Text} {m : Moment} :
    behind? day (c :: t) = some m ↔ ∃ clock zone w, timeOfDay? t = some (clock, zone) ∧
      WallTime.ofDay? day clock = some w ∧ m = { wall := w, zone := zone } := by
  constructor
  · intro h
    obtain ⟨⟨clock, zone⟩, hclock, h⟩ := Option.bind_eq_some_iff.1 h
    obtain ⟨w, hw, h⟩ := Option.bind_eq_some_iff.1 h
    cases h
    exact ⟨clock, zone, w, hclock, hw, rfl⟩
  · rintro ⟨clock, zone, w, hclock, hw, rfl⟩
    simp [behind?, hclock, hw]

theorem lt_of_fault? {d : Date} (h : d.fault? = none) : d.year < 10 ^ 4 ∧ d.month < 10 ^ 2 ∧ d.day < 10 ^ 2 := by
  obtain ⟨⟨-, hy⟩, ⟨-, hm⟩, -, hle⟩ := Date.fault?_eq_none_iff.1 h
  have hday := monthLength_le (isLeap d.year) (show d.month - 1 < 12 by omega)
  unfold daysInMonth at hle
  exact ⟨by omega, by omega, by omega⟩

theorem lt_of_dayOfWeekDate? {year week day n : Nat} (h : dayOfWeekDate? year week day = some n) :
    year < 10 ^ 4 ∧ week < 10 ^ 2 ∧ day < 10 ^ 1 := by
  have hweeks : weeksInYear year ≤ 53 := by
    unfold weeksInYear
    dsimp only
    split <;> omega
  unfold dayOfWeekDate? lastYear at h
  split at h
  · cases h
  · rename_i hbounds
    simp only [Bool.or_eq_true, decide_eq_true_eq] at hbounds
    omega

theorem lt_dayCount_of_dayOfWeekDate? {year week day n : Nat} (h : dayOfWeekDate? year week day = some n) :
    n < dayCount := by
  unfold dayOfWeekDate? at h
  simp only [Option.ite_none_left_eq_some, Option.ite_none_right_eq_some, Option.some.injEq] at h
  obtain ⟨-, hlt, rfl⟩ := h
  exact hlt

/-- A date is a day of the calendar. -/
theorem DateText.lt {b : Text} {n : Nat} (h : DateText b n) : n < dayCount := by
  cases h with
  | calendar _ hd => exact (Date.ofDay_dayNumber hd).2
  | week _ hn => exact lt_dayCount_of_dayOfWeekDate? hn
  | weekday _ hn => exact lt_dayCount_of_dayOfWeekDate? hn

/-- A date is written with digits, hyphens and the letter W. -/
theorem DateText.not_mem {b : Text} {n : Nat} (h : DateText b n) {c : Char} (hd : isAsciiDigit c = false)
    (hc : c ≠ '-' ∧ c ≠ 'W') : c ∉ b := by
  have hseparator : ∀ dashes, c ∉ separator dashes '-' := not_mem_separator hc.1
  cases h <;> simp (disch := assumption) [hseparator, hc.2]

theorem digit_ne_hyphen (n : Nat) : digit (n % 10) ≠ '-' :=
  (by decide : ∀ d < 10, digit d ≠ '-') _ (Nat.mod_lt _ (by norm_num))

/-! ## What is read begins with a date -/

theorem mark?_eq_some_iff {c : Char} {t r : Text} : mark? c t = some r ↔ t = c :: r := by
  unfold mark?
  cases t <;> simp [eq_comm]

theorem dateLength?_week_dashed (year week : Nat) {t : Text} {length : Nat}
    (h : dateLength? (fixed 4 year ++ '-' :: 'W' :: (fixed 2 week ++ t)) = some length) : length = 8 ∨ length = 10 := by
  rw [fixed_four, fixed_two] at h
  unfold dateLength? at h
  simp at h
  split_ifs at h <;> simp_all

theorem dateLength?_week_basic (year week : Nat) {t : Text} {length : Nat}
    (h : dateLength? (fixed 4 year ++ 'W' :: (fixed 2 week ++ t)) = some length) : length = 7 ∨ length = 8 := by
  rw [fixed_four, fixed_two] at h
  unfold dateLength? at h
  simp at h
  split_ifs at h <;> simp_all
  all_goals omega

/-- A date with hyphens goes on behind the next one, and a date without goes on at once. -/
theorem exists_of_bind_mark? {α : Type} {dashes : Bool} {t : Text} {k : Text → Option α} {a : α}
    (h : (if dashes = true then (mark? '-' t).bind k else (some t).bind k) = some a) :
    ∃ r, t = separator dashes '-' ++ r ∧ k r = some a := by
  cases dashes with
  | false => exact ⟨t, rfl, h⟩
  | true =>
    obtain ⟨r, hr, hk⟩ := Option.bind_eq_some_iff.1 h
    exact ⟨r, mark?_eq_some_iff.1 hr, hk⟩

theorem exists_separator (t : Text) : ∃ (dashes : Bool) (r : Text), t = separator dashes '-' ++ r ∧
    (t.head? = some '-' ↔ dashes = true) ∧ (if t.head? = some '-' then t.tail else t) = r := by
  by_cases hhead : t.head? = some '-'
  · obtain ⟨r, rfl⟩ := List.head?_eq_some_iff.1 hhead
    exact ⟨true, r, rfl, by simp, by simp⟩
  · exact ⟨false, t, rfl, by simpa using hhead, if_neg hhead⟩

/-- A day is read from a text that begins with a date of just the length that was told before. -/
theorem exists_of_day? {t : Text} {length n : Nat} (hl : dateLength? t = some length) (h : day? t length = some n) :
    ∃ b r, t = b ++ r ∧ b.length = length ∧ DateText b n := by
  unfold day? at h
  obtain ⟨⟨year, rest⟩, hyear, h⟩ := Option.bind_eq_some_iff.1 h
  obtain ⟨-, rfl⟩ := digits?_eq_some_iff.1 hyear
  obtain ⟨dashes, rest, rfl, hdashes, htail⟩ := exists_separator rest
  simp only [htail] at h
  simp only [hdashes, Option.bind_eq_bind] at h
  clear hyear hdashes htail
  split at h
  · -- a week of the year, with its day or without
    rename_i rest
    obtain ⟨⟨week, afterWeek⟩, hweek, h⟩ := Option.bind_eq_some_iff.1 h
    obtain ⟨-, rfl⟩ := digits?_eq_some_iff.1 hweek
    have hlength : length = (if dashes then 8 else 7) ∨ length = if dashes then 10 else 8 := by
      cases dashes with
      | false => exact dateLength?_week_basic year week hl
      | true => exact dateLength?_week_dashed year week hl
    dsimp only at h
    split at h
    · rename_i hlt
      obtain ⟨_, rfl, hday⟩ := exists_of_bind_mark? h
      obtain ⟨⟨day, afterDay⟩, hdigit, hn⟩ := Option.bind_eq_some_iff.1 hday
      obtain ⟨-, rfl⟩ := digits?_eq_some_iff.1 hdigit
      refine ⟨_, afterDay, ?_, ?_, .weekday dashes hn⟩
      · simp
      · cases dashes <;> simp [separator] at hlt hlength ⊢ <;> omega
    · rename_i hlt
      refine ⟨_, afterWeek, ?_, ?_, .week dashes h⟩
      · simp
      · cases dashes <;> simp [separator] at hlt hlength ⊢ <;> omega
  · obtain ⟨⟨month, _⟩, hmonth, h⟩ := Option.bind_eq_some_iff.1 h
    obtain ⟨-, rfl⟩ := digits?_eq_some_iff.1 hmonth
    obtain ⟨_, rfl, hday⟩ := exists_of_bind_mark? h
    obtain ⟨⟨day, afterDay⟩, hdigits, hn⟩ := Option.bind_eq_some_iff.1 hday
    obtain ⟨-, rfl⟩ := digits?_eq_some_iff.1 hdigits
    simp only [Date.dayNumber?, Option.ite_none_right_eq_some, Option.some.injEq] at hn
    obtain ⟨hlength, hfault, rfl⟩ := hn
    refine ⟨_, afterDay, ?_, ?_, .calendar dashes hfault⟩
    · simp
    · cases dashes <;> simp [separator] at hlength ⊢ <;> omega

/-- Four digits stand at the start of a date, and a hyphen, a W or another digit behind them. -/
theorem DateText.exists_head {b : Text} {n : Nat} (h : DateText b n) :
    ∃ year c t, b = fixed 4 year ++ c :: t ∧ (isDigit c = true ∨ c = '-' ∨ c = 'W') := by
  cases h with
  | calendar dashes =>
    cases dashes
    · exact ⟨_, _, _, by rw [fixed_two]; rfl, .inl (isDigit_digit _)⟩
    · exact ⟨_, _, _, rfl, .inr (.inl rfl)⟩
  | week dashes =>
    cases dashes
    · exact ⟨_, _, _, rfl, .inr (.inr rfl)⟩
    · exact ⟨_, _, _, rfl, .inr (.inl rfl)⟩
  | weekday dashes =>
    cases dashes
    · exact ⟨_, _, _, rfl, .inr (.inr rfl)⟩
    · exact ⟨_, _, _, rfl, .inr (.inl rfl)⟩

/-- Only a calendar date with hyphens has a hyphen and a digit behind the year. -/
theorem DateText.exists_calendar {b r y u : Text} {n : Nat} (h : DateText b n) (hb : y ++ '-' :: u = b ++ r)
    (hy : y.length = 4) (hu : ∀ c ∈ u.head?, isDigit c = true) :
    ∃ d : Date, d.fault? = none ∧ d.dayNumber = n ∧ y = fixed 4 d.year ∧
      u = fixed 2 d.month ++ '-' :: (fixed 2 d.day ++ r) := by
  have hyear : ∀ {year : Nat} {v : Text}, y ++ '-' :: u = fixed 4 year ++ v → y = fixed 4 year ∧ '-' :: u = v :=
    fun h => List.append_inj h (by rw [hy, length_fixed])
  have hweek : ∀ {dashes : Bool} {v : Text}, '-' :: u ≠ separator dashes '-' ++ 'W' :: v := by
    intro dashes v hv
    cases dashes with
    | false => cases hv
    | true =>
      rw [(List.cons.inj hv).2] at hu
      exact absurd (hu 'W' rfl) (by decide)
  cases h with
  | @calendar dashes d hd =>
    obtain ⟨hyear, htail⟩ := hyear (by simpa using hb)
    cases dashes with
    | false =>
      rw [fixed_two] at htail
      exact absurd (List.cons.inj htail).1.symm (digit_ne_hyphen _)
    | true => exact ⟨d, hd, rfl, hyear, (List.cons.inj htail).2⟩
  | week dashes => exact absurd (hyear (by simpa using hb)).2 hweek
  | weekday dashes => exact absurd (hyear (by simpa using hb)).2 hweek

/-- What stands behind the date decides the moment. -/
theorem exists_of_read? {t : Text} {m : Moment} (h : read? t = some m) :
    ∃ b r n, t = b ++ r ∧ DateText b n ∧ behind? n r = some m := by
  rw [read?_eq] at h
  obtain ⟨length, hlength, h⟩ := Option.bind_eq_some_iff.1 h
  obtain ⟨n, hn, h⟩ := Option.bind_eq_some_iff.1 h
  obtain ⟨b, r, rfl, hb, hdate⟩ := exists_of_day? hlength hn
  rw [List.drop_left' hb] at h
  exact ⟨b, r, n, rfl, hdate, h⟩

theorem exists_head_of_read? {t : Text} {m : Moment} (h : read? t = some m) :
    ∃ year c r, t = fixed 4 year ++ c :: r ∧ (isDigit c = true ∨ c = '-' ∨ c = 'W') := by
  obtain ⟨b, r, n, rfl, hb, -⟩ := exists_of_read? h
  obtain ⟨year, c, u, rfl, hc⟩ := hb.exists_head
  exact ⟨year, c, u ++ r, by simp, hc⟩

/-! ## What begins with a date is read -/

/-- A plus sign behind a date does not continue it. -/
theorem DateText.dateLength?_append {b : Text} {n : Nat} (h : DateText b n) (t : Text) :
    dateLength? (b ++ '+' :: t) = some b.length := by
  have hplus : isAsciiDigit '+' = false := by decide
  cases h with
  | @calendar dashes d =>
    have hhyphen := digit_ne_hyphen (d.month / 10)
    have hW := digit_ne_W (d.month / 10)
    cases dashes <;> simp [dateLength?, separator, fixed_four, fixed_two, hhyphen, hW]
  | @week dashes =>
    cases dashes <;> simp [dateLength?, separator, fixed_four, fixed_two, hplus]
  | @weekday dashes year week day =>
    have hday : fixed 1 day = [digit (day % 10)] := rfl
    have hdigit : isAsciiDigit (digit (day % 10)) = true :=
      isAsciiDigit_of_mem_fixed (w := 1) (n := day) _ (List.mem_singleton_self _)
    cases dashes <;> simp [dateLength?, separator, fixed_four, fixed_two, hday, hdigit, hplus, digitAt]

/-- A month opens with a digit, so behind a year it is neither a hyphen nor a week. -/
theorem day?_basic {d : Date} (hd : d.fault? = none) (t : Text) :
    day? (fixed 4 d.year ++ (fixed 2 d.month ++ (fixed 2 d.day ++ t))) 8 = some d.dayNumber := by
  obtain ⟨hyear, hmonth, hday⟩ := lt_of_fault? hd
  have hhead : (fixed 2 d.month ++ (fixed 2 d.day ++ t)).head? ≠ some '-' := by
    simp [fixed_two, digit_ne_hyphen]
  unfold day?
  simp only [digits?_fixed_of_lt hyear, Option.bind_eq_bind, Option.bind_some, hhead, if_false]
  split
  · rename_i rest heq
    rw [fixed_two, List.cons_append, List.cons.injEq] at heq
    exact absurd heq.1 (digit_ne_W _)
  · simp only [digits?_fixed_of_lt hmonth, Option.bind_some, digits?_fixed_of_lt hday]
    rw [if_pos (by simp; omega), Date.dayNumber?, if_pos hd]

/-- Whatever stands behind a date, it is read where it ends. -/
theorem DateText.day?_append {b : Text} {n : Nat} (h : DateText b n) (t : Text) : day? (b ++ t) b.length = some n := by
  cases h with
  | @calendar dashes d hd =>
    cases dashes with
    | false => simpa [separator] using day?_basic hd t
    | true => simpa [separator, Date.text] using day?_date hd t
  | @week dashes year week _ hn =>
    obtain ⟨hyear, hweek, -⟩ := lt_of_dayOfWeekDate? hn
    cases dashes <;> simp [day?, separator, digits?_fixed_of_lt hyear, digits?_fixed_of_lt hweek, hn] <;> omega
  | @weekday dashes year week day _ hn =>
    obtain ⟨hyear, hweek, hday⟩ := lt_of_dayOfWeekDate? hn
    have hdigit := digits?_fixed_of_lt hday t
    cases dashes <;>
      simp [day?, separator, digits?_fixed_of_lt hyear, digits?_fixed_of_lt hweek, hdigit, hn, mark?] <;> omega

theorem DateText.read?_append {b : Text} {n : Nat} (h : DateText b n) (t : Text) :
    read? (b ++ '+' :: t) = behind? n ('+' :: t) := by
  rw [read?_eq, h.dateLength?_append, Option.bind_some, h.day?_append, Option.bind_some, List.drop_left]

end Taskbook.Due.Iso
