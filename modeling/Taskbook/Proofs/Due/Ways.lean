/-
The ways of reading a due text agree. Of the everyday forms only those with hyphens share texts with ISO 8601: the
others begin with fewer digits than a year has, or go on with a slash. A text with hyphens is in the extended form
already, and where both read it, each of its numbers has all its digits and stands for the same part of the moment.
-/
import Taskbook.Proofs.Due.Dates
import Taskbook.Proofs.Due.Forms
import Taskbook.Proofs.Rows

namespace Taskbook.Due

open Text Calendar

/-! ## The forms with hyphens -/

/-- One digit or two. -/
def IsNumber (t : Text) : Prop := (∀ c ∈ t, isDigit c = true) ∧ (t.length = 1 ∨ t.length = 2)

/-- A text of the forms with hyphens, in its parts. The day may be padded by a blank. -/
structure Hyphened where
  year : Text
  month : Text
  pad : Text
  day : Text
  gap : Text
  hour : Text
  minute : Text
  second : Option Text
  year_row : year.length = 4 ∧ ∀ c ∈ year, isDigit c = true
  month_row : IsNumber month
  pad_eq : pad = [] ∨ pad = [' ']
  day_row : IsNumber day
  gap_blank : gap ≠ [] ∧ ∀ c ∈ gap, isBlank c = true
  hour_row : IsNumber hour
  minute_row : IsNumber minute
  second_row : ∀ t ∈ second, IsNumber t

namespace Hyphened

def timeText (h : Hyphened) : Text := h.hour ++ ':' :: (h.minute ++ ofOption (':' :: ·) h.second)

def text (h : Hyphened) : Text :=
  h.year ++ '-' :: (h.month ++ '-' :: (h.pad ++ (h.day ++ (h.gap ++ h.timeText))))

def clock (h : Hyphened) : Clock := ⟨rowValue h.hour, rowValue h.minute, h.second.elim 0 rowValue, 0⟩

def stamp (h : Hyphened) : Stamp where
  date := ⟨rowValue h.year, rowValue h.month, rowValue h.day⟩
  clock := h.clock

end Hyphened

/-- The forms with hyphens, which are close to ISO 8601. -/
def Form.hyphened (seconds : Bool) : Form :=
  [.number .year, .mark '-', .number .month, .mark '-', .number .day, .blanks, .number .hour, .mark ':',
    .number .minute] ++ if seconds then [.mark ':', .number .second] else []

namespace Item

variable {part : Part} {p : Text} {s s' : Stamp}

theorem Takes.of_year (h : (Item.number .year).Takes p s s') :
    (p.length = 4 ∧ ∀ c ∈ p, isDigit c = true) ∧ s' = s.set .year (rowValue p) := by
  cases h with
  | number hpad hlen hrow =>
    obtain rfl | ⟨⟨⟩, -⟩ := hpad
    exact ⟨⟨List.mem_singleton.1 hlen, hrow⟩, rfl⟩

theorem Takes.of_day (h : (Item.number .day).Takes p s s') :
    ∃ pad row, p = pad ++ row ∧ (pad = [] ∨ pad = [' ']) ∧ IsNumber row ∧ s' = s.set .day (rowValue row) := by
  cases h with
  | @number _ pad row _ hpad hlen hrow =>
    exact ⟨pad, row, rfl, hpad.imp_right And.right, ⟨hrow, by simpa [Part.widths] using hlen⟩, rfl⟩

/-- Only a year has more than two digits, and only a day a blank before it. -/
theorem Takes.of_other (h : (Item.number part).Takes p s s') (hyear : part ≠ .year) (hday : part ≠ .day) :
    IsNumber p ∧ s' = s.set part (rowValue p) := by
  cases h with
  | number hpad hlen hrow =>
    obtain rfl | ⟨rfl, -⟩ := hpad
    · refine ⟨⟨hrow, ?_⟩, rfl⟩
      cases part <;> first | exact absurd rfl hyear | simpa [Part.widths] using hlen
    · exact absurd rfl hday

theorem Takes.of_blanks (h : Item.blanks.Takes p s s') : (p ≠ [] ∧ ∀ c ∈ p, isBlank c = true) ∧ s' = s := by
  cases h with
  | blanks hne hblank => exact ⟨⟨hne, hblank⟩, rfl⟩

end Item

theorem Hyphened.exists_of_takes {seconds : Bool} {t : Text} {s : Stamp} (h : (Form.hyphened seconds).Takes t {} s) :
    ∃ d : Hyphened, t = d.text ∧ s = d.stamp := by
  unfold Form.hyphened at h
  rcases h with _ | ⟨hyear, _ | ⟨⟨⟩, _ | ⟨hmonth, _ | ⟨⟨⟩, _ | ⟨hday, _ | ⟨hgap, _ | ⟨hhour, _ | ⟨⟨⟩,
    _ | ⟨hminute, h⟩⟩⟩⟩⟩⟩⟩⟩⟩
  obtain ⟨hyear_row, rfl⟩ := hyear.of_year
  obtain ⟨hmonth_row, rfl⟩ := hmonth.of_other (by decide) (by decide)
  obtain ⟨pad, day, rfl, hpad, hday_row, rfl⟩ := hday.of_day
  obtain ⟨hgap_blank, rfl⟩ := hgap.of_blanks
  obtain ⟨hhour_row, rfl⟩ := hhour.of_other (by decide) (by decide)
  obtain ⟨hminute_row, rfl⟩ := hminute.of_other (by decide) (by decide)
  cases seconds with
  | false =>
    cases h
    exact ⟨⟨_, _, pad, day, _, _, _, none, hyear_row, hmonth_row, hpad, hday_row, hgap_blank, hhour_row, hminute_row,
      by simp⟩, by simp [text, timeText, ofOption], rfl⟩
  | true =>
    rcases h with _ | ⟨⟨⟩, _ | ⟨hsecond, _ | _⟩⟩
    obtain ⟨hsecond_row, rfl⟩ := hsecond.of_other (by decide) (by decide)
    exact ⟨⟨_, _, pad, day, _, _, _, some _, hyear_row, hmonth_row, hpad, hday_row, hgap_blank, hhour_row, hminute_row,
      by rintro _ ⟨⟩; exact hsecond_row⟩, by simp [text, timeText, ofOption], rfl⟩

/-! ## They are in the extended form -/

namespace Hyphened

variable (d : Hyphened)

theorem pad_blank : ∀ c ∈ d.pad, isBlank c = true := by
  have hblank : isBlank ' ' = true := by decide
  rcases d.pad_eq with h | h <;> simp [h, hblank]

theorem not_mem_timeText {c : Char} (hd : isDigit c = false) (hcolon : c ≠ ':') : c ∉ d.timeText := by
  have hrow : ∀ {t : Text}, IsNumber t → c ∉ t := fun ht => not_mem_of_digits ht.1 hd
  have hsecond : c ∉ ofOption (':' :: ·) d.second := by
    rcases hs : d.second with _ | t
    · exact List.not_mem_nil
    · simp [ofOption, hcolon, hrow (d.second_row t hs)]
  simp [timeText, hrow d.hour_row, hrow d.minute_row, hcolon, hsecond]

theorem not_mem_text {c : Char} (hd : isDigit c = false) (hblank : isBlank c = false) (hc : c ≠ '-' ∧ c ≠ ':') :
    c ∉ d.text := by
  have hrow : ∀ {t : Text}, (∀ x ∈ t, isDigit x = true) → c ∉ t := fun ht => not_mem_of_digits ht hd
  have hgap : ∀ {t : Text}, (∀ x ∈ t, isBlank x = true) → c ∉ t := by
    intro t ht hc
    rw [ht c hc] at hblank
    cases hblank
  simp [text, hrow d.year_row.2, hrow d.month_row.1, hrow d.day_row.1, hgap d.pad_blank, hgap d.gap_blank.2, hc.1,
    d.not_mem_timeText hd hc.2]

/-- Of its signs none begins a final offset: the first has the other one behind it, and the second a blank. -/
theorem settled_text : Settled d.text := by
  have hplain : ∀ {t : Text}, (∀ c ∈ t, isDigit c = true) → '+' ∉ t ∧ '-' ∉ t :=
    fun ht => ⟨not_mem_of_digits ht (by decide), not_mem_of_digits ht (by decide)⟩
  have hblank : ∀ {t : Text}, (∀ c ∈ t, isBlank c = true) → '+' ∉ t ∧ '-' ∉ t :=
    fun ht => ⟨fun h => absurd (ht _ h) (by decide), fun h => absurd (ht _ h) (by decide)⟩
  obtain ⟨c, gap, hgap⟩ := List.exists_cons_of_ne_nil d.gap_blank.1
  have hc : isBlank c = true := d.gap_blank.2 c (hgap ▸ List.mem_cons_self ..)
  have htime : Settled d.timeText := by
    have h := separates_append ⟨d.not_mem_timeText (c := '+') (by decide) (by decide),
      d.not_mem_timeText (c := '-') (by decide) (by decide)⟩ settled_nil
    rwa [List.append_nil] at h
  have hday : Settled (d.pad ++ (d.day ++ (d.gap ++ d.timeText))) :=
    separates_append (hblank d.pad_blank)
      (separates_append (hplain d.day_row.1) (separates_append (hblank d.gap_blank.2) htime))
  have hsecond : finalOffset? ('-' :: (d.pad ++ (d.day ++ (d.gap ++ d.timeText)))) = none := by
    have hsplit : d.pad ++ (d.day ++ (d.gap ++ d.timeText)) = (d.pad ++ d.day) ++ c :: (gap ++ d.timeText) := by
      simp [hgap]
    rw [hsplit]
    refine finalOffset?_eq_none_of_inner (isDigit_of_isBlank hc) ?_ (by simp [timeText])
    rintro rfl
    exact absurd hc (by decide)
  exact separates_append (hplain d.year_row.2) (separates_cons (finalOffset?_eq_none (.inr (by simp)))
    (separates_append (hplain d.month_row.1) (separates_cons hsecond hday)))

theorem normalize_text : normalize d.text = d.text := by
  have hhyphen : '-' ∈ d.text.take 8 := by
    simp [text, List.take_append, d.year_row.1]
  unfold normalize
  rw [expandZulu_of_not_mem (d.not_mem_text (by decide) (by decide) (by decide))
      (d.not_mem_text (by decide) (by decide) (by decide)),
    separate_of_takeDigits?_eq_none (takeDigits?_eq_none hhyphen (by decide)),
    evenFraction_of_not_mem ⟨d.not_mem_text (by decide) (by decide) (by decide),
      d.not_mem_text (by decide) (by decide) (by decide)⟩]
  exact d.settled_text false

end Hyphened

/-! ## They are read the same -/

/-- Two digits read from a number are all of it. -/
theorem IsNumber.eq_fixed {t u r : Text} (ht : IsNumber t) (hu : ∀ c ∈ u.head?, isDigit c = false) {n : Nat}
    (h : t ++ u = fixed 2 n ++ r) : t = fixed 2 n ∧ u = r := by
  refine List.append_inj h ?_
  rw [length_fixed]
  rcases ht.2 with hlen | hlen
  · obtain ⟨c, rfl⟩ := List.length_eq_one_iff.1 hlen
    rw [fixed_two] at h
    cases u with
    | nil => cases h
    | cons x u =>
      cases h
      exact absurd (isDigit_digit n) (by simpa using hu _ rfl)
  · exact hlen


namespace Hyphened

variable {d : Hyphened}

/-- A time of day that is read has two digits in each of its numbers. -/
theorem clock_of_clock? {p : Iso.Parts} (h : Iso.clock? d.timeText = some p) : p.clock = d.clock := by
  have hvalue : ∀ {n : Nat}, n < 100 → rowValue (fixed 2 n) = n := by
    intro n hn
    rw [rowValue_fixed, Nat.mod_eq_of_lt (by simpa using hn)]
  have hcolon : ∀ (t : Text), ∀ c ∈ (':' :: t).head?, isDigit c = false := by
    rintro t c ⟨⟩
    decide
  have hne : ∀ {t : Text} (u : Text), IsNumber t → t ++ u ≠ [] := by
    intro t u ht
    refine List.append_ne_nil_of_left_ne_nil (List.ne_nil_of_length_pos ?_) u
    rcases ht.2 with h | h <;> omega
  unfold Iso.clock? timeText at h
  obtain ⟨hour, _, hhour_lt, htext⟩ := Iso.exists_of_parts? h
  obtain ⟨hhour, -⟩ := d.hour_row.eq_fixed (hcolon _) htext
  rw [hhour, Iso.parts?_colon_of_ne_nil hhour_lt (by simp) (hne _ d.minute_row)] at h
  obtain ⟨q, hq, rfl⟩ := Option.map_eq_some_iff.1 h
  obtain ⟨minute, _, hminute_lt, htext⟩ := Iso.exists_of_parts? hq
  unfold clock
  rcases hs : d.second with _ | second <;> rw [hs] at hq htext
  · obtain ⟨hminute, -⟩ := d.minute_row.eq_fixed (by simp [ofOption]) htext
    rw [hminute, ofOption, List.append_nil, Iso.parts?_end _ _ hminute_lt] at hq
    cases hq
    simp [Iso.Parts.clock, hhour, hminute, hvalue hhour_lt, hvalue hminute_lt]
  · have hsecond_row := d.second_row second hs
    obtain ⟨hminute, -⟩ := d.minute_row.eq_fixed (hcolon _) htext
    rw [hminute, ofOption, Iso.parts?_colon_of_ne_nil hminute_lt (by simp) (by simpa using hne [] hsecond_row)] at hq
    obtain ⟨q, hlast, rfl⟩ := Option.map_eq_some_iff.1 hq
    obtain ⟨n, rest, hsecond_lt, htext⟩ := Iso.exists_of_parts? hlast
    obtain ⟨hsecond, -⟩ := hsecond_row.eq_fixed (u := []) (by simp) (by rwa [List.append_nil])
    rw [hsecond, Iso.parts?_end _ _ hsecond_lt] at hlast
    cases hlast
    simp [Iso.Parts.clock, hhour, hminute, hsecond, hvalue hhour_lt, hvalue hminute_lt, hvalue hsecond_lt]

/-- In a date of ISO 8601 the numbers have all their digits. -/
theorem date_of_text {b r : Text} {n : Nat} (hb : Iso.DateText b n) (h : d.text = b ++ r) :
    d.stamp.date.dayNumber? = some n ∧ r = d.gap ++ d.timeText := by
  have hmonth : ∀ c ∈ (d.month ++ '-' :: (d.pad ++ (d.day ++ (d.gap ++ d.timeText)))).head?, isDigit c = true := by
    obtain ⟨x, month, hmonth⟩ := List.exists_cons_of_length_pos (show 0 < d.month.length by
      rcases d.month_row.2 with h | h <;> omega)
    rw [hmonth]
    rintro c ⟨⟩
    exact d.month_row.1 x (hmonth ▸ List.mem_cons_self ..)
  have hgap : ∀ c ∈ (d.gap ++ d.timeText).head?, isDigit c = false := by
    obtain ⟨x, gap, hgap⟩ := List.exists_cons_of_ne_nil d.gap_blank.1
    rw [hgap]
    rintro c ⟨⟩
    exact isDigit_of_isBlank (d.gap_blank.2 x (hgap ▸ List.mem_cons_self ..))
  obtain ⟨date, hfault, rfl, hyear, h⟩ := hb.exists_calendar h d.year_row.1 hmonth
  obtain ⟨hy, hm, hd⟩ := Iso.lt_of_fault? hfault
  obtain ⟨hmonth, h⟩ := d.month_row.eq_fixed (by rintro c ⟨⟩; decide) h
  have h : d.pad ++ (d.day ++ (d.gap ++ d.timeText)) = fixed 2 date.day ++ r := (List.cons.inj h).2
  have hpad : d.pad = [] := by
    refine d.pad_eq.resolve_right fun hpad => ?_
    rw [hpad, fixed_two] at h
    exact absurd (isDigit_digit (date.day / 10)) (by rw [← (List.cons.inj h).1]; decide)
  rw [hpad, List.nil_append] at h
  obtain ⟨hday, hr⟩ := d.day_row.eq_fixed hgap h
  refine ⟨?_, hr.symm⟩
  unfold stamp
  rw [hyear, hmonth, hday, rowValue_fixed, rowValue_fixed, rowValue_fixed, Nat.mod_eq_of_lt hy, Nat.mod_eq_of_lt hm,
    Nat.mod_eq_of_lt hd]
  exact if_pos hfault

/-- No offset begins in a time, nor in the blanks before it. -/
theorem not_opensOffset {gap : Text} (h : ∀ c ∈ gap, isBlank c = true) :
    ∀ c ∈ gap ++ d.timeText, Iso.opensOffset c = false := by
  intro c hc
  rw [Bool.eq_false_iff]
  intro hopens
  have hsign : c ∈ ['+', '-', 'Z'] := by simpa [Iso.opensOffset, or_assoc] using hopens
  have hother : isDigit c = false ∧ isBlank c = false ∧ c ≠ ':' := by fin_cases hsign <;> decide
  rcases List.mem_append.1 hc with hc | hc
  · rw [h c hc] at hother
    exact absurd hother.2.1 nofun
  · exact d.not_mem_timeText hother.1 hother.2.2 hc

/-- A text of these forms that is read as ISO 8601 is read the same. -/
theorem moment?_of_read? {m : Moment} (h : Iso.read? d.text = some m) : d.stamp.moment? = some m := by
  obtain ⟨b, r, n, htext, hb, hr⟩ := Iso.exists_of_read? h
  obtain ⟨hn, rfl⟩ := date_of_text hb htext
  obtain ⟨x, gap, hgap⟩ := List.exists_cons_of_ne_nil d.gap_blank.1
  have hblank : ∀ c ∈ gap, isBlank c = true := fun c hc => d.gap_blank.2 c (hgap ▸ List.mem_cons_of_mem x hc)
  rw [hgap, List.cons_append, Iso.behind?_cons_eq_some_iff] at hr
  obtain ⟨clock, zone, w, hclock, hw, rfl⟩ := hr
  rw [Iso.timeOfDay?_eq (d.not_opensOffset hblank)] at hclock
  obtain ⟨p, hp, hclock⟩ := Option.bind_eq_some_iff.1 hclock
  simp only [Option.ite_none_left_eq_some, Option.some.injEq, Prod.mk.injEq] at hclock
  obtain ⟨-, rfl, rfl⟩ := hclock
  -- a second blank would have to be a digit of the hour
  have hone : gap = [] := by
    obtain ⟨hour, rest, -, htime⟩ := Iso.exists_of_parts? hp
    cases gap with
    | nil => rfl
    | cons y gap =>
      rw [fixed_two] at htime
      exact absurd (isDigit_digit (hour / 10))
        (by rw [← (List.cons.inj htime).1, isDigit_of_isBlank (hblank y (List.mem_cons_self ..))]; nofun)
  rw [hone, List.nil_append] at hp
  rw [clock_of_clock? hp] at hw
  unfold Stamp.moment?
  rw [hn]
  simp [stamp, Stamp.timeOfDay, hw]

end Hyphened


/-! ## ISO 8601 and the forms -/

/-- What stands before any mark of a fraction or an offset stays as it is. -/
theorem normalize_append {p r : Text} (hp : ∀ c ∈ ['.', ',', '+', '-'], c ∉ p) (hz : 'Z' ∉ p ++ r ∧ 'z' ∉ p ++ r)
    (hj : ¬ Joined (p ++ r)) :
    normalize (p ++ r) = p ++ separateOffset (p.getLast?.elim false isDigit) (evenFraction r) := by
  unfold normalize
  rw [expandZulu_of_not_mem hz.1 hz.2, separate_of_not_joined hj,
    evenFraction_append ⟨hp _ (by simp), hp _ (by simp)⟩, separateOffset_append ⟨hp _ (by simp), hp _ (by simp)⟩]

/-- The digits at the start stay as they are, unless they are a whole date. -/
theorem takeWhile_normalize {t : Text} (hz : 'Z' ∉ t ∧ 'z' ∉ t) (hj : ¬ Joined t) :
    (normalize t).takeWhile isDigit = t.takeWhile isDigit := by
  obtain ⟨p, r, rfl, hp, hr⟩ := exists_lead t
  have hplain : ∀ c ∈ ['.', ',', '+', '-'], c ∉ p := by
    intro c hc
    exact not_mem_of_digits hp (by fin_cases hc <;> decide)
  have hr' : ∀ c ∈ (separateOffset (p.getLast?.elim false isDigit) (evenFraction r)).head?, isDigit c = false := by
    rw [← any_head?_eq_false_iff] at hr ⊢
    rw [head?_separateOffset, any_head?_evenFraction, hr]
  rw [normalize_append hplain hz hj, (lead_append hp hr').1, (lead_append hp hr).1]

/-- No date of ISO 8601 goes on with a slash behind the year. -/
theorem read?_normalize_of_slash {items : Form} {t : Text} {s s' : Stamp} (hz : 'Z' ∉ t ∧ 'z' ∉ t) (hj : ¬ Joined t)
    (h : Form.Takes (.number .year :: .mark '/' :: items) t s s') : Iso.read? (normalize t) = none := by
  rcases h with _ | ⟨hyear, _ | ⟨⟨⟩, _⟩⟩
  rename_i p _ u _
  obtain ⟨⟨hlen, hdigits⟩, -⟩ := hyear.of_year
  have hplain : ∀ c ∈ ['.', ',', '+', '-'], c ∉ p ++ ['/'] := by
    intro c hc
    have hc : isDigit c = false ∧ c ≠ '/' := by fin_cases hc <;> decide
    simp [not_mem_of_digits hdigits hc.1, hc.2]
  rw [← List.append_assoc] at hz hj ⊢
  rw [normalize_append hplain hz hj, ← Option.not_isSome_iff_eq_none, Option.isSome_iff_exists]
  rintro ⟨m, hm⟩
  obtain ⟨year, c, r, htext, hc⟩ := Iso.exists_head_of_read? hm
  rw [List.append_assoc] at htext
  obtain ⟨-, hrest⟩ := List.append_inj htext (by rw [hlen, length_fixed])
  rw [← (List.cons.inj hrest).1] at hc
  exact absurd hc (by decide)

theorem hyphened_or_slash_of_mem_all : ∀ f ∈ Form.all, (f = Form.hyphened false ∨ f = Form.hyphened true) ∨
    f.take 2 = [.number .year, .mark '/'] ∨ f.head? ≠ some (.number .year) := by
  decide

/-- What is read as ISO 8601 is read the same by a form that reads it too. -/
theorem eq_of_read?_normalize {f : Form} (hf : f ∈ Form.all) {t : Text} {m m' : Moment}
    (h : Iso.read? (normalize t) = some m) (h' : f.read? t = some m') : m = m' := by
  obtain ⟨s, hs, hm⟩ := Form.takes_of_read? h'
  obtain ⟨hlead, hyear⟩ := hs.lead (Form.opens_of_mem_all f hf)
  have hz : 'Z' ∉ t ∧ 'z' ∉ t :=
    ⟨fun h => hs.kind_ne_other hf h (by decide), fun h => hs.kind_ne_other hf h (by decide)⟩
  have hj : ¬ Joined t := by
    intro hj
    rw [hj.1] at hlead
    omega
  rcases hyphened_or_slash_of_mem_all f hf with hhyphened | hslash | hfirst
  · obtain ⟨d, rfl, rfl⟩ : ∃ d : Hyphened, t = d.text ∧ s = d.stamp := by
      rcases hhyphened with rfl | rfl <;> exact Hyphened.exists_of_takes hs
    rw [d.normalize_text] at h
    exact Option.some.inj ((Hyphened.moment?_of_read? h).symm.trans hm)
  · obtain ⟨items, rfl⟩ : ∃ items, f = .number .year :: .mark '/' :: items :=
      ⟨f.drop 2, by rw [← List.take_append_drop 2 f, hslash]; rfl⟩
    rw [read?_normalize_of_slash hz hj hs] at h
    cases h
  · -- a date of ISO 8601 begins with four digits, and the form with fewer
    obtain ⟨year, c, r, htext, -⟩ := Iso.exists_head_of_read? h
    have hfour : 4 ≤ ((normalize t).takeWhile isDigit).length := by
      rw [htext, List.takeWhile_append_of_pos isDigit_of_mem_fixed, List.length_append, length_fixed]
      omega
    rw [takeWhile_normalize hz hj] at hfour
    exact absurd (hyear.1 (Nat.le_antisymm hlead hfour)) hfirst

/-! ## The ways of reading -/

/-- The ways of reading a text: as ISO 8601, in its normal form, and by each of the forms. -/
def ways : List (Text → Option Moment) := (fun t => Iso.read? (normalize t)) :: Form.all.map Form.read?

/-- The moment that a text writes, by the first way that reads it. -/
def writtenBy? (order : List (Text → Option Moment)) (t : Text) : Option Moment :=
  if strip t = [] then none else order.findSome? fun way => way (strip t)

/-- The moment of a due text, if one of the ways reads it. -/
def readBy (order : List (Text → Option Moment)) (t : Text) (z : Zone) : Except Fault (Option Moment) :=
  match writtenBy? order t with
  | none => .ok none
  | some m => (m.placeIn z).map some

theorem readBy_ways (t : Text) (z : Zone) : readBy ways t z = read t z := by
  have hwritten : writtenBy? ways t = written? t := by
    unfold writtenBy? written? ways Form.readAny?
    rw [List.findSome?_cons, List.findSome?_map]
    dsimp only
    cases Iso.read? (normalize (strip t)) <;> rfl
  rcases hw : written? t with _ | m <;> simp only [readBy, read, hwritten, hw]

theorem eq_of_mem_ways (t : Text) :
    ∀ way ∈ ways, ∀ way' ∈ ways, ∀ m m', way t = some m → way' t = some m' → m = m' := by
  intro way hway way' hway' m m' h h'
  rcases List.mem_cons.1 hway with rfl | hform <;> rcases List.mem_cons.1 hway' with rfl | hform'
  · exact Option.some.inj (h.symm.trans h')
  · obtain ⟨f, hf, rfl⟩ := List.mem_map.1 hform'
    exact eq_of_read?_normalize hf h h'
  · obtain ⟨f, hf, rfl⟩ := List.mem_map.1 hform
    exact (eq_of_read?_normalize hf h' h).symm
  · obtain ⟨f, hf, rfl⟩ := List.mem_map.1 hform
    obtain ⟨g, hg, rfl⟩ := List.mem_map.1 hform'
    exact Form.eq_of_read? hf hg h h'

/-- Any two ways that read a text read the same moment from it, so a due text is read the same in whatever order the
ways are tried. -/
theorem read_in_any_order (t : Text) :
    (∀ way ∈ ways, ∀ way' ∈ ways, ∀ m m', way t = some m → way' t = some m' → m = m') ∧
      ∀ order : List (Text → Option Moment), order.Perm ways → ∀ z, readBy order t z = read t z := by
  refine ⟨eq_of_mem_ways t, fun order hp z => ?_⟩
  have hwritten : writtenBy? order t = writtenBy? ways t := by
    unfold writtenBy?
    rw [Rows.findSome?_of_perm hp (eq_of_mem_ways (strip t))]
  rw [← readBy_ways, readBy, hwritten]
  rfl

/-- A blank in place of the letter T: the text is both of ISO 8601 and of a form, which is tried first here. -/
theorem read_in_any_order_of_blank :
    (∃ m m', Iso.read? (normalize "2024-02-29 10:00".toList) = some m ∧
      (Form.hyphened false).read? "2024-02-29 10:00".toList = some m' ∧ m = m') ∧
      readBy ways.reverse "2024-02-29 10:00".toList .utc = read "2024-02-29 10:00".toList .utc := by
  obtain ⟨m, hm⟩ := Option.isSome_iff_exists.1
    (by decide : (Iso.read? (normalize "2024-02-29 10:00".toList)).isSome = true)
  obtain ⟨m', hm'⟩ := Option.isSome_iff_exists.1
    (by decide : ((Form.hyphened false).read? "2024-02-29 10:00".toList).isSome = true)
  have hmem : Form.read? (Form.hyphened false) ∈ ways :=
    List.mem_cons_of_mem _ (List.mem_map_of_mem (by decide))
  obtain ⟨hsame, horder⟩ := read_in_any_order "2024-02-29 10:00".toList
  exact ⟨⟨m, m', hm, hm', hsame _ (List.mem_cons_self ..) _ hmem m m' hm hm'⟩,
    horder ways.reverse (List.reverse_perm _) .utc⟩

end Taskbook.Due
