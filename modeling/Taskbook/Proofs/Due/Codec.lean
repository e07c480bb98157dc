/-
Reading back what is written. The text of a wall time with a shift that can be told, or with a final Z, is read as that
wall time in the zone of the shift, so a moment of a zone is read as the same instant whichever way it is written and
whatever zone the reader has.
-/
import Taskbook.Proofs.Due.Extended
import Taskbook.Proofs.Due.Placing
import Taskbook.Proofs.Text.Lines
import Taskbook.Proofs.Zone.Readings

namespace Taskbook

open Text Calendar

namespace Due.Iso

/-! ## The time -/

theorem fraction?_fixed {u : Nat} (h : u < 10 ^ 6) : fraction? (fixed 6 u) = some { numbers := [], micro := u } := by
  have hd := digits?_fixed_of_lt h []
  rw [List.append_nil] at hd
  unfold fraction?
  simp only [length_fixed, Nat.min_self, hd]
  simp

/-- The next number is made of two digits. -/
theorem exists_of_parts? {left : Nat} {colons : Option Bool} {t : Text} {p : Parts}
    (h : parts? (left + 1) colons t = some p) : ∃ n rest, n < 100 ∧ t = fixed 2 n ++ rest := by
  unfold parts? at h
  obtain ⟨⟨n, rest⟩, hn, -⟩ := Option.bind_eq_some_iff.1 h
  obtain ⟨hlt, rfl⟩ := digits?_eq_some_iff.1 hn
  exact ⟨n, rest, hlt, rfl⟩

/-- Two digits and a colon with anything behind it are the next number. -/
theorem parts?_colon_of_ne_nil {left : Nat} {colons : Option Bool} {n : Nat} (hn : n < 100) (hc : colons ≠ some false)
    {t : Text} (ht : t ≠ []) :
    parts? (left + 1) colons (fixed 2 n ++ ':' :: t) =
      (parts? left (some true) t).map fun p => { p with numbers := n :: p.numbers } := by
  have hcolons : colons.getD true = true := by
    rcases colons with _ | _ | _
    · rfl
    · exact absurd rfl hc
    · rfl
  obtain ⟨c, t, rfl⟩ := List.exists_cons_of_ne_nil ht
  rw [parts?]
  simp only [digits?_fixed_of_lt (w := 2) hn]
  rcases hp : parts? left (some true) (c :: t) with _ | p <;> simp [hcolons, hp]

theorem parts?_colon {left : Nat} {colons : Option Bool} {n m : Nat} (hn : n < 100) (hc : colons ≠ some false)
    (t : Text) :
    parts? (left + 1) colons (fixed 2 n ++ ':' :: (fixed 2 m ++ t)) =
      (parts? left (some true) (fixed 2 m ++ t)).map fun p => { p with numbers := n :: p.numbers } :=
  parts?_colon_of_ne_nil hn hc (List.cons_ne_nil _ _)

/-- The last two digits. -/
theorem parts?_end (left : Nat) (colons : Option Bool) {n : Nat} (hn : n < 100) :
    parts? (left + 1) colons (fixed 2 n) = some { numbers := [n] } := by
  have hd := digits?_fixed_of_lt (w := 2) hn []
  rw [List.append_nil] at hd
  rw [parts?, hd]
  rfl

/-- The last two digits, with a fraction behind them. -/
theorem parts?_fraction (left : Nat) (colons : Option Bool) {n u : Nat} (hn : n < 100) (hu : u < 10 ^ 6) :
    parts? (left + 1) colons (fixed 2 n ++ '.' :: fixed 6 u) = some { numbers := [n], micro := u } := by
  have hf := fraction?_fixed hu
  obtain ⟨d, t, -, ht⟩ := exists_digit_of_fixed 5 u
  rw [parts?]
  simp only [digits?_fixed_of_lt (w := 2) hn]
  rw [ht] at hf ⊢
  simp [hf]

/-- The last two digits, with nothing or with a fraction behind them. -/
theorem parts?_last (left : Nat) (colons : Option Bool) {n u : Nat} (hn : n < 100) (hu : u < 10 ^ 6) :
    parts? (left + 1) colons (fixed 2 n ++ WallTime.fractionText u) = some { numbers := [n], micro := u } := by
  unfold WallTime.fractionText
  split
  · rename_i h0
    rw [List.append_nil, parts?_end left colons hn, h0]
  · exact parts?_fraction left colons hn hu

theorem clock?_text {c : Clock} (h : c.hour < 100 ∧ c.minute < 100 ∧ c.second < 100 ∧ c.micro < 10 ^ 6) :
    clock? c.text = some { numbers := [c.hour, c.minute, c.second], micro := c.micro } := by
  obtain ⟨hh, hm, hs, hu⟩ := h
  unfold clock? Clock.text
  rw [parts?_colon hh (by simp), parts?_colon hm (by simp), parts?_last _ _ hs hu]
  rfl

/-- A time of day is read back, whether its seconds are written or left out. -/
theorem clock?_shortText {c : Clock} (h : c.hour < 100 ∧ c.minute < 100 ∧ c.second < 100 ∧ c.micro < 10 ^ 6) :
    ∃ p, clock? c.shortText = some p ∧ p.leftOver = false ∧ p.clock = c := by
  unfold Clock.shortText
  split
  · rename_i h0
    refine ⟨{ numbers := [c.hour, c.minute] }, ?_, rfl, ?_⟩
    · have hl := parts?_last 1 (some true) h.2.1 (u := 0) (by norm_num)
      unfold clock?
      rw [← List.append_nil (fixed 2 c.minute), parts?_colon h.1 (by simp)]
      rw [WallTime.fractionText, if_pos rfl] at hl
      rw [hl]
      rfl
    · cases c; cases h0.1; cases h0.2; rfl
  · exact ⟨_, clock?_text h, rfl, rfl⟩

/-- The clock of less than a day, in the bounds of its digits. -/
theorem ofMicros_lt {m : Nat} (h : m < microsPerDay) :
    (Clock.ofMicros m).hour < 100 ∧ (Clock.ofMicros m).minute < 100 ∧ (Clock.ofMicros m).second < 100 ∧
      (Clock.ofMicros m).micro < 10 ^ 6 := by
  obtain ⟨-, hh, hm, hs, hu⟩ := Clock.ofMicros_spec h
  exact ⟨by omega, by omega, by omega, hu⟩

theorem natAbs_lt (s : Shift) : s.micros.natAbs < microsPerDay := by
  have hl := s.least
  have hg := s.greatest
  omega

/-- An offset is read as the zone of its shift, unless this is more than none and less than a second. -/
theorem zone?_of_clock {sign : Char} {t : Text} {p : Parts} {s : Shift} (ht : s.Tellable) (hp : clock? t = some p)
    (hl : p.leftOver = false) (hs : s.micros = if sign = '-' then -(p.clock.micros : Int) else p.clock.micros) :
    zone? sign t = some (Zone.ofWritten s) := by
  have hmicros : s.micros.natAbs = p.clock.micros := by split at hs <;> omega
  unfold zone? Zone.ofWritten
  rw [hp]
  simp only [Option.bind_eq_bind, Option.bind_some, hl, Bool.false_eq_true, if_false]
  -- no shift is universal time, and every other one is long enough to be told
  rcases ht with h0 | h1
  · have hz : s = Shift.zero := by cases s; cases h0; rfl
    rw [if_pos (by rw [← hmicros, h0]; decide), if_pos hz]
    rfl
  · have hz : s ≠ Shift.zero := by
      rintro rfl
      exact absurd h1 (by decide)
    rw [if_neg (by omega), if_neg hz, ← hs]
    unfold Shift.ofMicros?
    rw [dif_pos ⟨s.least, s.greatest⟩]
    rfl

/-- A shift is read as the zone of that shift. -/
theorem zone?_isoText {s : Shift} (ht : s.Tellable) :
    zone? s.sign (Clock.ofMicros s.micros.natAbs).shortText = some (Zone.ofWritten s) := by
  obtain ⟨p, hp, hl, hc⟩ := clock?_shortText (ofMicros_lt (natAbs_lt s))
  refine zone?_of_clock ht hp hl ?_
  rw [hc, (Clock.ofMicros_spec (natAbs_lt s)).1]
  unfold Shift.sign
  by_cases hn : s.micros < 0
  · rw [if_pos hn, if_pos rfl]
    omega
  · rw [if_neg hn, if_neg (by decide)]
    omega

section timeOfDay

variable {t u : Text} {p : Parts} {sign : Char} {z : Zone}

/-- Without a sign and without the letter Z there is no zone. -/
theorem timeOfDay?_eq (ht : ∀ c ∈ t, opensOffset c = false) :
    timeOfDay? t = (clock? t).bind fun p => if p.leftOver then none else some (p.clock, none) := by
  have htake : t.takeWhile (fun c => !opensOffset c) = t := List.takeWhile_eq_self_iff.2 (by simpa using ht)
  have hdrop : t.dropWhile (fun c => !opensOffset c) = [] := List.dropWhile_eq_nil_iff.2 (by simpa using ht)
  unfold timeOfDay?
  rw [htake, hdrop]
  rfl

/-- A time of day alone. -/
theorem timeOfDay?_of_clock (ht : ∀ c ∈ t, opensOffset c = false) (hp : clock? t = some p) (hl : p.leftOver = false) :
    timeOfDay? t = some (p.clock, none) := by
  rw [timeOfDay?_eq ht, hp, Option.bind_some, hl]
  rfl

/-- A time of day with an offset behind it. -/
theorem timeOfDay?_of_zone (ht : ∀ c ∈ t, opensOffset c = false) (hp : clock? t = some p)
    (hsign : sign = '+' ∨ sign = '-') (hz : zone? sign u = some z) :
    timeOfDay? (t ++ sign :: u) = some (p.clock, some z) := by
  have hopens : opensOffset sign = true := by rcases hsign with rfl | rfl <;> rfl
  have htake : (t ++ sign :: u).takeWhile (fun c => !opensOffset c) = t := by
    rw [List.takeWhile_append_of_pos (by simpa using ht), List.takeWhile_cons_of_neg (by simp [hopens]),
      List.append_nil]
  have hdrop : (t ++ sign :: u).dropWhile (fun c => !opensOffset c) = sign :: u := by
    rw [List.dropWhile_append_of_pos (by simpa using ht), List.dropWhile_cons_of_neg (by simp [hopens])]
  unfold timeOfDay?
  rw [htake, hdrop]
  rcases hsign with rfl | rfl <;> simp [hp, hz]

end timeOfDay

theorem timeOfDay?_text (w : WallTime) {s : Shift} (ht : s.Tellable) :
    timeOfDay? (w.clock.text ++ s.isoText) = some (w.clock, some (Zone.ofWritten s)) := by
  have hplain : ∀ c ∈ w.clock.text, opensOffset c = false := fun c hc => by
    simpa using List.all_eq_true.1 (by decide : clockChars.all (!opensOffset ·) = true) c (w.clock.text_subset hc)
  have hclock := clock?_text (ofMicros_lt w.micros_mod_lt)
  rw [s.isoText_eq, timeOfDay?_of_zone hplain hclock s.sign_eq (zone?_isoText ht)]
  rfl

/-! ## The date -/

theorem digit_ne_W (n : Nat) : digit (n % 10) ≠ 'W' :=
  (by decide : ∀ d < 10, digit d ≠ 'W') _ (Nat.mod_lt _ (by norm_num))

theorem dateLength?_date (d : Date) (t : Text) : dateLength? (d.text ++ t) = some 10 := by
  have hW := digit_ne_W (d.month / 10)
  rw [Date.text, fixed_four, fixed_two d.month]
  unfold dateLength?
  simp [hW]

theorem day?_date {d : Date} (hd : d.fault? = none) (t : Text) : day? (d.text ++ t) 10 = some d.dayNumber := by
  obtain ⟨⟨-, hy⟩, ⟨-, hm⟩, -, hle⟩ := Date.fault?_eq_none_iff.1 hd
  have hday := monthLength_le (isLeap d.year) (show d.month - 1 < 12 by omega)
  have hyear := digits?_fixed_of_lt (w := 4) (n := d.year) (by omega)
  have hmonth := digits?_fixed_of_lt (w := 2) (n := d.month) (by omega)
  have hdays := digits?_fixed_of_lt (w := 2) (n := d.day) (by unfold daysInMonth at hle; omega)
  unfold day? Date.text
  simp only [List.append_assoc, List.cons_append, hyear, Option.bind_eq_bind, Option.bind_some, List.head?_cons,
    List.tail_cons, if_true]
  split
  · -- a week of the year, which no digit opens
    rename_i rest heq
    rw [fixed_two, List.cons_append, List.cons.injEq] at heq
    exact absurd heq.1 (digit_ne_W _)
  · simp only [hmonth, Option.bind_some, mark?, List.head?_cons, if_true, List.tail_cons, hdays]
    rw [if_pos (by simp; omega)]
    unfold Date.dayNumber?
    rw [if_pos hd]

/-- A date with a time of day behind it. -/
theorem read?_date {d : Date} {t : Text} {c : Clock} {z : Option Zone} {w : WallTime} (hd : d.fault? = none)
    (ht : timeOfDay? t = some (c, z)) (hw : WallTime.ofDay? d.dayNumber c = some w) :
    read? (d.text ++ 'T' :: t) = some { wall := w, zone := z } := by
  have hdrop : (d.text ++ 'T' :: t).drop 10 = 'T' :: t := List.drop_left' (by simp [Date.text])
  unfold read?
  rw [dateLength?_date]
  simp only [Option.bind_eq_bind, Option.bind_some, day?_date hd, hdrop, ht, hw]
  rfl

/-- The text of a wall time with a shift is read as this wall time in the zone of the shift. -/
theorem read?_stamp (w : WallTime) {s : Shift} (ht : s.Tellable) :
    read? (stamp w s) = some { wall := w, zone := some (Zone.ofWritten s) } := by
  obtain ⟨hd, hn, -⟩ := Date.ofDay_spec w.day_lt
  rw [stamp, w.isoText_eq, List.append_assoc, List.cons_append]
  refine read?_date hd (timeOfDay?_text w ht) ?_
  rw [WallTime.date, hn]
  exact w.ofDay?_clock

end Due.Iso

/-! ## Dues -/

theorem Zone.shiftOfWall_ofWritten [Atlas] (s : Shift) (wall : Int) (later : Bool) :
    (Zone.ofWritten s).shiftOfWall wall later = s := by
  unfold Zone.ofWritten
  split
  · rename_i h; exact h.symm
  · rfl

theorem Moment.instant_ofWritten [Atlas] (w : WallTime) (s : Shift) (later : Bool) :
    Moment.instant { wall := w, later := later, zone := some (.ofWritten s) } = w.micros - s.micros := by
  unfold instant instantIn shiftIn
  simp only [Option.getD_some, Zone.shiftOfWall_ofWritten]

/-- The zone in which a style shows moments. -/
def TimeStyle.zone : TimeStyle → Zone
  | universal => .utc
  | zoned z => z

namespace Due

/-- No zone has a say in a text that is of the extended form and writes a zone. -/
theorem read_of_normal {t : Text} {m : Moment} (hne : t ≠ []) (hb : ∀ c ∈ t, isBlank c = false)
    (h : Iso.read? (normalize t) = some m) (hm : m.zone ≠ none) (z : Zone) : read t z = .ok (some m) := by
  obtain ⟨own, hown⟩ := Option.ne_none_iff_exists'.1 hm
  unfold read written?
  rw [strip_of_no_blank hb, if_neg hne, h]
  simp only [Option.orElse_some, Moment.placeIn, hown]
  rfl

theorem read_stamp (w : WallTime) {s : Shift} (ht : s.Tellable) (z : Zone) :
    read (stamp w s) z = .ok (some { wall := w, zone := some (Zone.ofWritten s) }) := by
  refine read_of_normal ?_ ?_ ?_ (Option.some_ne_none _) z
  · rw [stamp, s.isoText_eq]; simp
  · intro c hc
    exact isBlank_of_mem_stampChars c (stamp_subset w s hc)
  · rw [normalize_stamp, Iso.read?_stamp w ht]

theorem read_zulu (w : WallTime) (z : Zone) :
    read (w.isoText ++ ['Z']) z = .ok (some { wall := w, zone := some .utc }) := by
  refine read_of_normal (by simp) ?_ ?_ (Option.some_ne_none _) z
  · intro c hc
    rcases List.mem_append.1 hc with hc | hc
    · exact isBlank_of_mem_stampChars c (w.isoText_subset hc)
    · rw [List.mem_singleton.1 hc]; decide
  · rw [normalize_zulu, normalize_stamp, Iso.read?_stamp w Shift.tellable_zero]
    rfl

variable [Atlas] {style : TimeStyle} {m : Moment} {t : Text}

/-- What is written of a moment of a zone is a wall time and a shift that denote its instant. -/
theorem stamp_of_write (hz : style.zone.Legible) (hm : m.zone ≠ none) (h : style.write m = .ok t) :
    ∃ (w : WallTime) (s : Shift), s.Tellable ∧ w.micros - s.micros = m.instant ∧
      (style = .universal ∧ s = .zero ∧ t = w.isoText ++ ['Z'] ∨ style ≠ .universal ∧ t = stamp w s) := by
  have hmove : ∀ {u : Moment}, m.moveTo style.zone = .ok u →
      u.zone = some style.zone ∧ u.wall.micros - (u.shiftIn style.zone).micros = m.instant := by
    intro u hu
    obtain ⟨hown, hi⟩ := Moment.moveTo_spec hz hm hu
    refine ⟨hown, ?_⟩
    rw [← hi]
    unfold Moment.instant
    rw [hown]
    rfl
  cases style with
  | universal =>
    rw [TimeStyle.write] at h
    rcases hu : m.moveTo .utc with f | u <;> rw [hu] at h <;> cases h
    exact ⟨u.wall, .zero, Shift.tellable_zero, (hmove hu).2, .inl ⟨rfl, rfl, rfl⟩⟩
  | zoned z =>
    rw [TimeStyle.write] at h
    rcases hu : m.moveTo z with f | u <;> rw [hu] at h <;> cases h
    obtain ⟨hown, hi⟩ := hmove hu
    refine ⟨u.wall, u.shiftIn z, hz.tellable _ _, hi, .inr ⟨TimeStyle.noConfusion, ?_⟩⟩
    unfold Moment.isoText
    rw [hown]
    rfl

/-- A moment of a zone that is written, in either style, is read as the same instant in every zone; in
universal time what is read is written in the same way again. -/
theorem read_write (hz : style.zone.Legible) (hm : m.zone ≠ none) (h : style.write m = .ok t) :
    ∃ m', (∀ z, read t z = .ok (some m')) ∧ m'.zone ≠ none ∧ m'.instant = m.instant ∧
      (style = .universal → style.write m' = .ok t) := by
  obtain ⟨w, s, ht, hi, ⟨rfl, rfl, rfl⟩ | ⟨hstyle, rfl⟩⟩ := stamp_of_write hz hm h
  · -- universal time writes by the instant alone, so the same again
    exact ⟨_, read_zulu w, Option.some_ne_none _, hi, fun _ => rfl⟩
  · refine ⟨_, read_stamp w ht, Option.some_ne_none _, ?_, fun h => absurd h hstyle⟩
    rw [Moment.instant_ofWritten, hi]

/-- A written due breaks no line. -/
theorem unbroken_of_write (hz : style.zone.Legible) (hm : m.zone ≠ none) (h : style.write m = .ok t) :
    Unbroken t := by
  have hs : Unbroken stampChars := by decide
  obtain ⟨w, s, -, -, ⟨rfl, rfl, rfl⟩ | ⟨-, rfl⟩⟩ := stamp_of_write hz hm h
  · rw [unbroken_append]
    exact ⟨hs.of_subset w.isoText_subset, by simp [isBreak]⟩
  · exact hs.of_subset (stamp_subset w s)

end Due

end Taskbook
