/-
Every spelling of a date and a time of day is read as the moment it spells. The normal form leaves the time in the
extended form or in the basic one; the reader takes both, so it does not matter which of them an offset to the west
has kept.
-/
import Taskbook.Proofs.Due.Codec
import Taskbook.Proofs.Due.Spelling

namespace Taskbook.Due

open Text Calendar

/-! ## What a spelling says -/

/-- The microseconds of a fraction: its first six digits, or all of them with zeros behind. -/
def Fraction.micro (f : Fraction) : Nat := rowNumber f.even.digits

/-- The microseconds that the clocks of a designator are ahead of universal time. -/
def Designator.micros : Designator → Int
  | zulu _ => 0
  | offset west _ hour minute =>
    if west then -((Clock.mk hour minute 0 0).micros : Int) else (Clock.mk hour minute 0 0).micros

/-- An offset is less than 24 hours, and its minutes are less than 60. -/
def Designator.Valid : Designator → Prop
  | zulu _ => True
  | offset _ _ hour minute => hour < 24 ∧ minute < 60

namespace Spelling

def clock (s : Spelling) : Clock where
  hour := s.hour
  minute := s.minute
  second := (s.seconds.map Seconds.whole).getD 0
  micro := (s.fraction.map Fraction.micro).getD 0

/-- The date, the time of day and the offset exist. -/
structure Valid (s : Spelling) : Prop where
  date : s.date.fault? = none
  clock : s.clock.fault? = none
  designator : ∀ d, s.designator = some d → d.Valid

end Spelling

/-- Less than a day is a shift to either side. -/
theorem exists_shift_of_micros {n : Nat} (hday : n < microsPerDay) (west : Bool) :
    ∃ s : Shift, s.micros = if west then -(n : Int) else n := by
  cases west with
  | false => exact ⟨⟨n, by omega, by omega⟩, rfl⟩
  | true => exact ⟨⟨-n, by omega, by omega⟩, rfl⟩

/-- A valid designator writes a shift. -/
theorem Designator.Valid.exists_shift {d : Designator} (hd : d.Valid) : ∃ s : Shift, s.micros = d.micros := by
  cases d with
  | zulu lower => exact ⟨.zero, rfl⟩
  | offset west colon hour minute =>
    obtain ⟨hh, hm⟩ := hd
    refine exists_shift_of_micros ?_ west
    simp only [Clock.micros, microsPerDay, microsPerSecond]
    omega

namespace Iso

/-! ## The time of day -/

/-- Two digits with two more behind them are the next number, where no time before has had colons. -/
theorem parts?_joined {left : Nat} {colons : Option Bool} {n m : Nat} (hn : n < 100) (hc : colons ≠ some true)
    (t : Text) :
    parts? (left + 1) colons (fixed 2 n ++ (fixed 2 m ++ t)) =
      (parts? left (some false) (fixed 2 m ++ t)).map fun p => { p with numbers := n :: p.numbers } := by
  have hdigit : ∀ d < 10, digit d ≠ ':' ∧ digit d ≠ '.' ∧ digit d ≠ ',' := by decide
  obtain ⟨hcolon, hpoint, hcomma⟩ := hdigit (m / 10 % 10) (Nat.mod_lt _ (by norm_num))
  have hcolons : colons.getD (digit (m / 10 % 10) == ':') = false := by
    rcases colons with _ | _ | _
    · simpa using hcolon
    · rfl
    · exact absurd rfl hc
  rw [parts?]
  simp only [digits?_fixed_of_lt (w := 2) hn, fixed_two m, List.cons_append, List.nil_append]
  rcases hp : parts? left (some false) (digit (m / 10 % 10) :: digit (m % 10) :: t) with _ | p <;>
    simp [hcolons, hcolon, hpoint, hcomma, hp]

/-- Two digits are the next number, with a colon behind them or without. -/
theorem parts?_separator {left : Nat} {b : Bool} {colons : Option Bool} {n m : Nat} (hn : n < 100)
    (hc : colons = none ∨ colons = some b) (t : Text) :
    parts? (left + 1) colons (fixed 2 n ++ (separator b ':' ++ (fixed 2 m ++ t))) =
      (parts? left (some b) (fixed 2 m ++ t)).map fun p => { p with numbers := n :: p.numbers } := by
  cases b with
  | true => exact parts?_colon hn (by rcases hc with rfl | rfl <;> simp) t
  | false => exact parts?_joined hn (by rcases hc with rfl | rfl <;> simp) t

/-- The digits of a fraction with six of them. -/
theorem evenText_eq (f : Fraction) : f.even.text = '.' :: fixed 6 f.micro ∧ f.micro < 10 ^ 6 := by
  have hlength : f.even.digits.length = 6 := by simp [Fraction.even]
  refine ⟨?_, ?_⟩
  · rw [Fraction.text, rowText_eq_fixed, hlength]
    rfl
  · have h := rowNumber_lt f.even.digits
    rwa [hlength] at h

/-- The time of day of a spelling, once its fraction has six digits. -/
theorem clock?_spelling {s : Spelling} (hs : s.clock.fault? = none) (colons : Bool) :
    ∃ p, clock? (s.even.timeText colons) = some p ∧ p.leftOver = false ∧ p.clock = s.clock := by
  obtain ⟨hhour, hminute, hsecond, -⟩ := Clock.fault?_eq_none_iff.1 hs
  have hh : s.hour < 100 := Nat.lt_trans hhour (by norm_num)
  have hm : s.minute < 100 := Nat.lt_trans hminute (by norm_num)
  rw [Spelling.timeText, Spelling.clockText_even, Spelling.fraction_even]
  obtain ⟨date, hour, minute, seconds, designator⟩ := s
  rcases seconds with _ | ⟨second, fraction⟩
  · refine ⟨{ numbers := [hour, minute] }, ?_, rfl, rfl⟩
    have h : parts? 3 none (fixed 2 hour ++ (separator colons ':' ++ (fixed 2 minute ++ []))) = _ :=
      parts?_separator hh (.inl rfl) []
    rw [List.append_nil, parts?_end 1 _ hm] at h
    simpa [clock?, Spelling.clockText, Spelling.fraction, ofOption] using h
  · have hx : second < 100 := Nat.lt_trans hsecond (by norm_num)
    have hnumbers : ∀ (r : Text) (p : Parts), parts? 1 (some colons) (fixed 2 second ++ r) = some p →
        clock? (fixed 2 hour ++ (separator colons ':' ++ (fixed 2 minute ++ (separator colons ':' ++
          (fixed 2 second ++ r))))) = some { p with numbers := hour :: minute :: p.numbers } := by
      intro r p hp
      rw [clock?, parts?_separator hh (.inl rfl), parts?_separator hm (.inr rfl), hp]
      rfl
    rcases fraction with _ | f
    · refine ⟨{ numbers := [hour, minute, second] }, ?_, rfl, rfl⟩
      have hlast := hnumbers [] _ (by rw [List.append_nil, parts?_end 0 _ hx])
      simpa [Spelling.clockText, Spelling.fraction, ofOption] using hlast
    · obtain ⟨htext, hmicro⟩ := evenText_eq f
      refine ⟨{ numbers := [hour, minute, second], micro := f.micro }, ?_, rfl, rfl⟩
      have hlast := hnumbers f.even.text _ (by rw [htext, parts?_fraction 0 _ hx hmicro])
      simpa [Spelling.clockText, Spelling.fraction, ofOption] using hlast

/-! ## The offset -/

theorem zone?_offset {hour minute : Nat} (hh : hour < 24) (hm : minute < 60) (west colon : Bool) {s : Shift}
    (hs : s.micros = (Designator.offset west colon hour minute).micros) :
    zone? (if west then '-' else '+') (fixed 2 hour ++ ':' :: fixed 2 minute) = some (Zone.ofWritten s) := by
  have hclock : clock? (fixed 2 hour ++ ':' :: fixed 2 minute) = some { numbers := [hour, minute] } := by
    have h : parts? 3 none (fixed 2 hour ++ ':' :: (fixed 2 minute ++ [])) = _ := parts?_colon (by omega) (by simp) []
    rw [List.append_nil, parts?_end 1 _ (by omega)] at h
    exact h
  refine zone?_of_clock ?_ hclock rfl ?_
  · -- a whole number of minutes
    rw [Shift.Tellable, hs]
    simp only [Designator.micros, Clock.micros, microsPerSecond]
    split <;> omega
  · rw [hs]
    cases west <;> rfl

/-- The zone of a designator that is spelled out and has its colon. -/
theorem zone?_designator {d : Designator} (hd : d.Valid) {s : Shift} (hs : s.micros = d.micros) :
    ∃ sign t, (sign = '+' ∨ sign = '-') ∧ d.spelledOut.marked.text = sign :: t ∧
      zone? sign t = some (Zone.ofWritten s) := by
  cases d with
  | zulu lower =>
    exact ⟨'+', _, .inl rfl, rfl, zone?_offset (by norm_num) (by norm_num) false true hs⟩
  | offset west colon hour minute =>
    refine ⟨if west then '-' else '+', _, ?_, rfl, zone?_offset hd.1 hd.2 west colon hs⟩
    cases west <;> simp

/-! ## The whole spelling -/

/-- What stands behind the date of a normal spelling. -/
theorem timeText_normal (s : Spelling) (colons : Bool) :
    s.normal.clockText colons ++ s.normal.tailText =
      s.even.timeText colons ++ ofOption Designator.text (s.designator.map fun d => d.spelledOut.marked) := by
  have hdesignator : s.normal.designator = s.designator.map fun d => d.spelledOut.marked := Option.map_map ..
  rw [Spelling.clockText_append_tailText, hdesignator]
  rfl

/-- Neither a sign nor the letter Z stands before the designator. -/
theorem opensOffset_timeText (s : Spelling) (colons : Bool) : ∀ c ∈ s.timeText colons, opensOffset c = false := by
  have hplain : ∀ c ∈ ['+', '-', 'Z'], c ∉ s.timeText colons := by
    intro c hc
    have h : isAsciiDigit c = false ∧ c ∉ [':', '.', ','] := by fin_cases hc <;> decide
    exact s.not_mem_timeText h.1 h.2 colons
  intro c hc
  unfold opensOffset
  rw [Bool.eq_false_iff]
  intro h
  refine hplain c ?_ hc
  simpa [or_assoc] using h

/-- The time of day and the zone of a normal spelling. -/
theorem timeOfDay?_spelling {s : Spelling} (hs : s.Valid) (colons : Bool) :
    (s.designator = none → timeOfDay? (s.normal.clockText colons ++ s.normal.tailText) = some (s.clock, none)) ∧
      ∀ d, s.designator = some d → ∀ sh : Shift, sh.micros = d.micros →
        timeOfDay? (s.normal.clockText colons ++ s.normal.tailText) = some (s.clock, some (Zone.ofWritten sh)) := by
  obtain ⟨p, hp, hl, hclock⟩ := clock?_spelling hs.clock colons
  have hopens := opensOffset_timeText s.even colons
  rw [timeText_normal, ← hclock]
  refine ⟨fun hd => ?_, fun d hd sh hsh => ?_⟩
  · rw [hd, Option.map_none, ofOption, List.append_nil]
    exact timeOfDay?_of_clock hopens hp hl
  · obtain ⟨sign, t, hsign, htext, hzone⟩ := zone?_designator (hs.designator d hd) hsh
    rw [hd, Option.map_some, ofOption, htext]
    exact timeOfDay?_of_zone hopens hp hsign hzone

end Iso

theorem isAsciiDigit_of_isBlank {c : Char} (h : isBlank c = true) : isAsciiDigit c = false := by
  unfold isBlank at h
  unfold isAsciiDigit asciiDigit?
  simp only [Bool.or_eq_true, Bool.and_eq_true, decide_eq_true_eq, beq_iff_eq] at h
  rw [if_neg (by simp only [Bool.and_eq_true, decide_eq_true_eq]; omega)]
  rfl

/-- No blank is in a spelling. -/
theorem isBlank_of_mem_text (s : Spelling) (dashes colons : Bool) : ∀ c ∈ s.text dashes colons, isBlank c = false := by
  intro c hc
  by_contra hblank
  rw [Bool.not_eq_false] at hblank
  refine Spelling.not_mem_text (isAsciiDigit_of_isBlank hblank) ?_ s dashes colons hc
  intro hm
  have hplain : ['-', 'T', ':', '.', ',', 'Z', 'z', '+'].any isBlank = false := by decide
  exact List.any_eq_false.1 hplain c hm hblank

/-- Every spelling of a date and a time of day that exist, in the extended form or the basic one, is read as just that
date and time, to the first six digits of its fraction, and in the zone of its designator. Without a designator it is
of the zone in which it is read; the system, which does not reach the first day, is left aside. -/
theorem read_spelling {s : Spelling} (hs : s.Valid) {z : Zone} (hz : z ≠ .system) (extended : Bool) :
    ∃ m, read (s.text extended extended) z = .ok (some m) ∧ m.wall.date = s.date ∧ m.wall.clock = s.clock ∧
      m.later = false ∧ (s.designator = none → m.zone = some z) ∧
      ∀ d, s.designator = some d → ∃ sh : Shift, sh.micros = d.micros ∧ m.zone = some (.ofWritten sh) := by
  obtain ⟨colons, hnormal⟩ : ∃ colons, normalize (s.text extended extended) = s.normal.text true colons := by
    cases extended with
    | true => exact ⟨_, s.normalize_extended true⟩
    | false => exact ⟨_, s.normalize_basic⟩
  obtain ⟨w, hw, hdate, hclock⟩ := WallTime.exists_ofDay? hs.date hs.clock
  obtain ⟨hbare, hzoned⟩ := Iso.timeOfDay?_spelling hs colons
  have hread : ∀ zone, Iso.timeOfDay? (s.normal.clockText colons ++ s.normal.tailText) = some (s.clock, zone) →
      written? (s.text extended extended) = some { wall := w, zone := zone } := by
    intro zone ht
    have hne : s.text extended extended ≠ [] := by simp [Spelling.text]
    have htext : s.normal.text true colons =
        s.date.text ++ 'T' :: (s.normal.clockText colons ++ s.normal.tailText) := by
      rw [Spelling.text, Spelling.dateText_dashed]
      rfl
    unfold written?
    rw [strip_of_no_blank (isBlank_of_mem_text s extended extended), if_neg hne, hnormal, htext,
      Iso.read?_date hs.date ht hw, Option.orElse_some]
  rcases hd : s.designator with _ | d
  · refine ⟨{ wall := w, zone := some z }, ?_, hdate, hclock, rfl, fun _ => rfl, by simp⟩
    unfold read
    rw [hread none (hbare hd)]
    cases z with
    | system => exact absurd rfl hz
    | _ => rfl
  · obtain ⟨sh, hsh⟩ := (hs.designator d hd).exists_shift
    refine ⟨{ wall := w, zone := some (.ofWritten sh) }, ?_, hdate, hclock, rfl, by simp, ?_⟩
    · unfold read
      rw [hread _ (hzoned d hd sh hsh)]
      rfl
    · rintro d' ⟨⟩
      exact ⟨sh, hsh, rfl⟩

/-- A fraction of seven digits in the basic form, before an offset to the west. -/
theorem read_spelling_of_leap_day :
    ∃ m, read "20240229T235959,1234567-0530".toList .utc = .ok (some m) ∧ m.wall.date = ⟨2024, 2, 29⟩ ∧
      m.wall.clock = ⟨23, 59, 59, 123456⟩ ∧ m.later = false ∧
      ∃ sh : Shift, sh.micros = -19800000000 ∧ m.zone = some (.ofWritten sh) := by
  obtain ⟨m, hread, hdate, hclock, hlater, -, hzone⟩ :=
    read_spelling (s := ⟨⟨2024, 2, 29⟩, 23, 59, some ⟨59, some ⟨true, [1, 2, 3, 4, 5, 6, 7], by decide⟩⟩,
      some (.offset true false 5 30)⟩) ⟨by decide, by decide, by rintro d ⟨⟩; exact ⟨by decide, by decide⟩⟩
      (z := .utc) (by decide) false
  exact ⟨m, hread, hdate, hclock, hlater, hzone _ rfl⟩

end Taskbook.Due
