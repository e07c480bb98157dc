/-
The spellings of a date and a time of day in ISO 8601, and what the normal form makes of them. Whatever a spelling
leaves out or abbreviates, its normal form is in the extended form, with six digits in the fraction and a colon in the
offset. One thing is not brought there: behind a time of the basic form without a fraction the hyphen of an offset to
the west is taken for one that continues the time, which then keeps its form.
-/
import Taskbook.Proofs.Due.Extended
import Mathlib.Tactic.FinCases

namespace Taskbook.Due

open Text Calendar

/-! ## Spellings -/

/-- A row of digits in writing. -/
def rowText (ds : List (Fin 10)) : Text := ds.map fun d => digit d.val

/-- The number that a row of digits writes. -/
def rowNumber (ds : List (Fin 10)) : Nat := ds.foldl (fun n d => 10 * n + d.val) 0

/-- A fraction of a second, behind a point or a comma. -/
structure Fraction where
  comma : Bool
  digits : List (Fin 10)
  nonempty : digits ≠ []

/-- The second of a minute, maybe with a fraction. -/
structure Seconds where
  whole : Nat
  fraction : Option Fraction

/-- What tells the zone: the letter Z in either case, or a sign with hours and minutes, a colon between them or not. -/
inductive Designator
  | zulu (lower : Bool)
  | offset (west colon : Bool) (hour minute : Nat)

/-- A date and a time of day as they are spelled. Each number is written in its count of digits, so the spellings have
every row of digits in every place, also where no date or time has it. -/
structure Spelling where
  date : Date
  hour : Nat
  minute : Nat
  seconds : Option Seconds
  designator : Option Designator

/-- A character that a spelling may do without. -/
def separator (b : Bool) (c : Char) : Text := if b then [c] else []

def Fraction.text (f : Fraction) : Text := (if f.comma then ',' else '.') :: rowText f.digits

def Designator.text : Designator → Text
  | zulu lower => [if lower then 'z' else 'Z']
  | offset west colon hour minute =>
    (if west then '-' else '+') :: (fixed 2 hour ++ (separator colon ':' ++ fixed 2 minute))

namespace Spelling

def fraction (s : Spelling) : Option Fraction := s.seconds.bind Seconds.fraction

def dateText (s : Spelling) (dashes : Bool) : Text :=
  fixed 4 s.date.year ++
    (separator dashes '-' ++ (fixed 2 s.date.month ++ (separator dashes '-' ++ fixed 2 s.date.day)))

/-- The hours, the minutes and the whole seconds. -/
def clockText (s : Spelling) (colons : Bool) : Text :=
  fixed 2 s.hour ++ (separator colons ':' ++ (fixed 2 s.minute ++
    ofOption (fun x => separator colons ':' ++ fixed 2 x.whole) s.seconds))

/-- The time of day with its fraction. -/
def timeText (s : Spelling) (colons : Bool) : Text := s.clockText colons ++ ofOption Fraction.text s.fraction

/-- What stands behind the whole seconds. -/
def tailText (s : Spelling) : Text := ofOption Fraction.text s.fraction ++ ofOption Designator.text s.designator

/-- The text of a spelling. The extended form has hyphens in the date and colons in the time, the basic form neither. -/
def text (s : Spelling) (dashes colons : Bool) : Text := s.dateText dashes ++ 'T' :: (s.clockText colons ++ s.tailText)

end Spelling

/-! ## Their normal form -/

/-- A point and exactly six digits: the first six, or all of them with zeros behind. -/
def Fraction.even (f : Fraction) : Fraction where
  comma := false
  digits := (f.digits ++ List.replicate 6 0).take 6
  nonempty := by simp

/-- The letter Z is an offset of no hours and no minutes. -/
def Designator.spelledOut : Designator → Designator
  | zulu _ => offset false true 0 0
  | offset west colon hour minute => offset west colon hour minute

def Designator.marked : Designator → Designator
  | zulu lower => zulu lower
  | offset west _ hour minute => offset west true hour minute

def Designator.isWest : Designator → Bool
  | zulu _ => false
  | offset west _ _ _ => west

namespace Spelling

def spelledOut (s : Spelling) : Spelling := { s with designator := s.designator.map Designator.spelledOut }

def even (s : Spelling) : Spelling :=
  { s with seconds := s.seconds.map fun x => { x with fraction := x.fraction.map Fraction.even } }

def marked (s : Spelling) : Spelling := { s with designator := s.designator.map Designator.marked }

/-- The spelling with six digits in its fraction, and with an offset that has a colon. -/
def normal (s : Spelling) : Spelling := s.spelledOut.even.marked

/-- An offset to the west stands directly behind the digits of the time. -/
def abutsWest (s : Spelling) : Bool := s.fraction.isNone && s.designator.any Designator.isWest

end Spelling

/-! ## The characters -/

theorem rowText_eq_fixed (ds : List (Fin 10)) : rowText ds = fixed ds.length (rowNumber ds) := by
  induction ds using List.reverseRecOn with
  | nil => rfl
  | append_singleton ds d ih =>
    have hd := d.isLt
    have hn : rowNumber (ds ++ [d]) = 10 * rowNumber ds + d := by simp [rowNumber]
    have hdiv : (10 * rowNumber ds + d) / 10 = rowNumber ds := by omega
    have hmod : (10 * rowNumber ds + d) % 10 = d := by omega
    rw [List.length_append, List.length_singleton, fixed, hn, hdiv, hmod, ← ih]
    simp [rowText]

theorem rowNumber_lt (ds : List (Fin 10)) : rowNumber ds < 10 ^ ds.length := by
  induction ds using List.reverseRecOn with
  | nil => decide
  | append_singleton ds d ih =>
    have hd := d.isLt
    have hn : rowNumber (ds ++ [d]) = 10 * rowNumber ds + d := by simp [rowNumber]
    rw [List.length_append, List.length_singleton, hn, pow_succ]
    omega

theorem not_mem_separator {c x : Char} (h : c ≠ x) (b : Bool) : c ∉ separator b x := by
  unfold separator
  split <;> simp [h]

theorem not_mem_rowText {c : Char} (hc : isAsciiDigit c = false) (ds : List (Fin 10)) : c ∉ rowText ds := by
  rw [rowText_eq_fixed]
  exact not_mem_fixed hc _ _

theorem not_mem_fractionText {c : Char} (hc : isAsciiDigit c = false) (h : c ∉ ['.', ',']) (f : Option Fraction) :
    c ∉ ofOption Fraction.text f := by
  simp only [List.mem_cons, List.not_mem_nil, or_false, not_or] at h
  rcases f with _ | f
  · exact List.not_mem_nil
  · rw [ofOption, Fraction.text, List.mem_cons, not_or]
    exact ⟨by split <;> simp [h], not_mem_rowText hc _⟩

theorem not_mem_designatorText {c : Char} (hc : isAsciiDigit c = false) (h : c ∉ ['Z', 'z', '+', '-', ':'])
    (d : Option Designator) : c ∉ ofOption Designator.text d := by
  simp only [List.mem_cons, List.not_mem_nil, or_false, not_or] at h
  rcases d with _ | ⟨lower⟩ | ⟨west, colon, hour, minute⟩
  · exact List.not_mem_nil
  · cases lower <;> simp [ofOption, Designator.text, h]
  · -- the sign, and a colon if there is one
    have hcolon := not_mem_separator h.2.2.2.2 colon
    cases west <;> simp (disch := assumption) [ofOption, Designator.text, h, hcolon]

namespace Spelling

theorem not_mem_dateText {c : Char} (hc : isAsciiDigit c = false) (h : c ≠ '-') (s : Spelling) (dashes : Bool) :
    c ∉ s.dateText dashes := by
  simp (disch := assumption) [dateText, not_mem_separator]

theorem not_mem_clockText {c : Char} (hc : isAsciiDigit c = false) (h : c ≠ ':') (s : Spelling) (colons : Bool) :
    c ∉ s.clockText colons := by
  unfold clockText
  rcases s.seconds with _ | x <;> simp (disch := assumption) [ofOption, not_mem_separator]

theorem not_mem_timeText {c : Char} (hc : isAsciiDigit c = false) (h : c ∉ [':', '.', ',']) (s : Spelling)
    (colons : Bool) : c ∉ s.timeText colons := by
  have hfraction : c ∉ ['.', ','] := not_mem_of_subset (by decide) h
  simp only [List.mem_cons, List.not_mem_nil, or_false, not_or] at h
  rw [timeText, List.mem_append, not_or]
  exact ⟨s.not_mem_clockText hc h.1 colons, not_mem_fractionText hc hfraction _⟩

/-- A spelling has no characters but digits, those that separate its parts, and those that open one. -/
theorem not_mem_text {c : Char} (hc : isAsciiDigit c = false) (h : c ∉ ['-', 'T', ':', '.', ',', 'Z', 'z', '+'])
    (s : Spelling) (dashes colons : Bool) : c ∉ s.text dashes colons := by
  have hfraction : c ∉ ['.', ','] := not_mem_of_subset (by decide) h
  have hdesignator : c ∉ ['Z', 'z', '+', '-', ':'] := not_mem_of_subset (by decide) h
  simp only [List.mem_cons, List.not_mem_nil, or_false, not_or] at h
  obtain ⟨hhyphen, hT, hcolon, -⟩ := h
  simp [text, tailText, s.not_mem_dateText hc hhyphen, hT, s.not_mem_clockText hc hcolon,
    not_mem_fractionText hc hfraction, not_mem_designatorText hc hdesignator]

theorem clockText_append_tailText (s : Spelling) (colons : Bool) :
    s.clockText colons ++ s.tailText = s.timeText colons ++ ofOption Designator.text s.designator :=
  (List.append_assoc ..).symm

theorem clockText_ne_nil (s : Spelling) (colons : Bool) : s.clockText colons ≠ [] := by
  simp [clockText, fixed_two]

end Spelling

/-! ## The letter Z -/

/-- A designator opens with a letter or a sign. -/
theorem Designator.exists_cons (d : Designator) : ∃ c t, isDigit c = false ∧ d.text = c :: t := by
  cases d with
  | zulu lower => cases lower <;> exact ⟨_, _, by decide, rfl⟩
  | offset west colon hour minute => cases west <;> exact ⟨_, _, by decide, rfl⟩

theorem Designator.text_ne_nil (d : Designator) : d.text ≠ [] := by
  obtain ⟨c, t, -, ht⟩ := d.exists_cons
  rw [ht]
  exact List.cons_ne_nil _ _

theorem expandZulu_fraction (f : Option Fraction) : expandZulu (ofOption Fraction.text f) = ofOption Fraction.text f :=
  expandZulu_of_not_mem (not_mem_fractionText (by decide) (by decide) f)
    (not_mem_fractionText (by decide) (by decide) f)

theorem expandZulu_designator (d : Designator) : expandZulu d.text = d.spelledOut.text := by
  cases d with
  | zulu lower => cases lower <;> rfl
  | offset west colon hour minute =>
    have hcolon : ∀ c, c ≠ ':' → c ∉ separator colon ':' := fun c h => not_mem_separator h colon
    refine expandZulu_of_not_mem ?_ ?_ <;> cases west <;> simp (disch := decide) [Designator.text, hcolon]

namespace Spelling

variable (s : Spelling) (dashes colons : Bool)

theorem expandZulu_text : expandZulu (s.text dashes colons) = s.spelledOut.text dashes colons := by
  have hclock : expandZulu (s.clockText colons) = s.clockText colons :=
    expandZulu_of_not_mem (s.not_mem_clockText (by decide) (by decide) colons)
      (s.not_mem_clockText (by decide) (by decide) colons)
  have htail : expandZulu (s.clockText colons ++ s.tailText) = s.clockText colons ++ s.spelledOut.tailText := by
    unfold tailText
    show _ = _ ++
      (ofOption Fraction.text s.fraction ++ ofOption Designator.text (s.designator.map Designator.spelledOut))
    rcases s.designator with _ | d
    · -- without a designator the last part is the fraction, or else the time
      rw [Option.map_none, ofOption, List.append_nil]
      rcases hf : s.fraction with _ | f
      · rw [ofOption, List.append_nil, hclock]
      · rw [expandZulu_append _ (by simp [ofOption, Fraction.text]), ← hf, expandZulu_fraction]
    · rw [ofOption, Option.map_some, ofOption, ← List.append_assoc, expandZulu_append _ d.text_ne_nil,
        expandZulu_designator, List.append_assoc]
  have hsplit : ∀ t, s.dateText dashes ++ 'T' :: t = (s.dateText dashes ++ ['T']) ++ t := by simp
  rw [text, hsplit, expandZulu_append _ (by simp [s.clockText_ne_nil]), htail, ← hsplit]
  rfl

/-! ## The basic form -/

/-- The hyphen behind the year keeps eight digits from standing at the start. -/
theorem separate_dashed : separate (s.text true colons) = s.text true colons := by
  have hyear : '-' ∈ (s.text true colons).take 8 := by
    simp [text, dateText, separator, fixed_four]
  exact separate_of_takeDigits?_eq_none (takeDigits?_eq_none hyear (by decide))

/-- A date of eight digits gets its hyphens, and a time behind it is read in the longest way that leaves nothing which
would continue it. -/
theorem separate_dateText {t time rest : Text}
    (h : (basicTimes t).find? (fun reading => endsHere reading.2) = some (time, rest)) :
    separate (s.dateText false ++ t) = s.dateText true ++ (time ++ rest) := by
  have hdigits : ∀ c ∈ s.dateText false, isDigit c = true := by
    simp only [dateText, separator, Bool.false_eq_true, if_false, List.nil_append, List.mem_append]
    rintro c (hc | hc | hc) <;> exact isDigit_of_mem_fixed c hc
  unfold separate
  rw [takeDigits?_append (by simp [dateText, separator]) hdigits]
  dsimp only
  rw [h]
  simp [dateText, separator, fixed_four, fixed_two]

theorem endsHere_tailText : endsHere s.tailText = !s.abutsWest := by
  unfold tailText abutsWest
  rcases s.fraction with _ | f
  · rw [ofOption, List.nil_append, Option.isNone_none, Bool.true_and]
    rcases s.designator with _ | ⟨lower⟩ | ⟨west, colon, hour, minute⟩
    · rfl
    · cases lower <;> rfl
    · cases west <;> rfl
  · rw [Option.isNone_some, Bool.false_and, ofOption, Fraction.text]
    cases f.comma <;> rfl

/-- What stands behind the digits of the time begins with none. -/
theorem takeDigits?_tailText : takeDigits? 2 s.tailText = none := by
  unfold tailText
  rcases s.fraction with _ | f
  · rw [ofOption, List.nil_append]
    rcases hd : s.designator with _ | d
    · rfl
    · obtain ⟨c, t, hc, ht⟩ := d.exists_cons
      rw [ofOption, ht]
      exact takeDigits?_eq_none (List.mem_cons_self ..) hc
  · refine takeDigits?_eq_none (c := if f.comma then ',' else '.') (List.mem_cons_self ..) ?_
    cases f.comma <;> decide

theorem endsHere_fixed (n : Nat) (t : Text) : endsHere (fixed 2 n ++ t) = false := by
  have hd : isDigit (digit (n / 10 % 10)) = true := isDigit_of_mem_fixed (w := 2) (n := n) _ (List.mem_cons_self ..)
  rw [fixed_two, List.cons_append, endsHere, hd]
  rfl

/-- A time of the basic form is read to its end unless an offset to the west abuts it, and then not at all. -/
theorem find?_basicTimes :
    (basicTimes ('T' :: (s.clockText false ++ s.tailText))).find? (fun reading => endsHere reading.2) =
      some (if s.abutsWest then ([], 'T' :: (s.clockText false ++ s.tailText))
        else ('T' :: s.clockText true, s.tailText)) := by
  have hT : ∀ t, endsHere ('T' :: t) = true := fun _ => rfl
  have htail := s.endsHere_tailText
  have hnone := s.takeDigits?_tailText
  unfold basicTimes clockText
  rcases s.seconds with _ | x
  · cases ha : s.abutsWest <;>
      simp [ofOption, separator, takeDigits?_fixed, hnone, htail, ha, hT]
  · cases ha : s.abutsWest <;>
      simp [ofOption, separator, takeDigits?_fixed, htail, ha, hT, endsHere_fixed]

/-- A date of eight digits gets its hyphens, and the time behind it its colons unless an offset to the west abuts
it. -/
theorem separate_basic : separate (s.text false false) = s.text true (!s.abutsWest) := by
  have htimes := s.find?_basicTimes
  rw [text, text]
  cases ha : s.abutsWest <;> rw [ha] at htimes
  · rw [s.separate_dateText htimes]
    rfl
  · rw [s.separate_dateText htimes]
    rfl

theorem dateText_dashed : s.dateText true = s.date.text := by
  simp [dateText, separator, Date.text]

/-! ## The fraction -/

theorem even_text (f : Fraction) : f.even.text = '.' :: sixDigits (rowText f.digits) := by
  simp [Fraction.text, Fraction.even, rowText, sixDigits, List.map_take]
  rfl

theorem clockText_even : s.even.clockText colons = s.clockText colons := by
  unfold clockText even
  rcases s.seconds with _ | x <;> rfl

theorem fraction_even : s.even.fraction = s.fraction.map Fraction.even := by
  unfold fraction even
  rcases s.seconds with _ | x <;> rfl

theorem evenFraction_tailText : evenFraction s.tailText = s.even.tailText := by
  have hplain : ∀ c ∈ ['.', ','], c ∉ ofOption Designator.text s.designator := by
    intro c hc
    have hd : isAsciiDigit c = false ∧ c ∉ ['Z', 'z', '+', '-', ':'] := by fin_cases hc <;> decide
    exact not_mem_designatorText hd.1 hd.2 _
  have hhead : ∀ x ∈ (ofOption Designator.text s.designator).head?, isDigit x = false := by
    rcases s.designator with _ | d
    · simp [ofOption]
    · obtain ⟨c, t, hc, ht⟩ := d.exists_cons
      rw [ofOption, ht]
      simpa using hc
  rw [tailText, tailText, fraction_even]
  rcases s.fraction with _ | f
  · exact evenFraction_of_not_mem ⟨hplain _ (by decide), hplain _ (by decide)⟩
  · have hne : rowText f.digits ≠ [] := by simpa [rowText] using f.nonempty
    have hdigits : ∀ c ∈ rowText f.digits, isDigit c = true := by
      rw [rowText_eq_fixed]
      exact isDigit_of_mem_fixed
    rw [ofOption, Option.map_some, ofOption, even_text, Fraction.text, List.cons_append,
      evenFraction_mark (by cases f.comma <;> simp) hne hdigits hhead]
    rfl

theorem evenFraction_text : evenFraction (s.text true colons) = s.even.text true colons := by
  have hsplit : ∀ r, s.dateText true ++ 'T' :: (s.clockText colons ++ r) =
      (s.dateText true ++ 'T' :: s.clockText colons) ++ r := by
    simp
  have hplain : ∀ c, isAsciiDigit c = false → c ≠ '-' → c ≠ 'T' → c ≠ ':' →
      c ∉ s.dateText true ++ 'T' :: s.clockText colons := by
    intro c hc hhyphen hT hcolon
    simp [s.not_mem_dateText hc hhyphen, hT, s.not_mem_clockText hc hcolon]
  rw [text, hsplit, evenFraction_append ⟨hplain _ (by decide) (by decide) (by decide) (by decide),
    hplain _ (by decide) (by decide) (by decide) (by decide)⟩, evenFraction_tailText, ← hsplit, text, clockText_even]
  rfl

end Spelling

/-! ## The offset -/

theorem finalOffset?_designator (west colon : Bool) (hour minute : Nat) :
    finalOffset? (Designator.text (.offset west colon hour minute)) =
      some (Designator.text (.offset west true hour minute)) := by
  have hm := takeDigits?_fixed 2 minute []
  rw [List.append_nil] at hm
  have hsign : ((if west then '-' else '+') = '+' || (if west then '-' else '+') = '-' : Bool) = true := by
    cases west <;> rfl
  unfold Designator.text
  rw [finalOffset?, if_pos hsign, takeDigits?_fixed]
  cases colon with
  | true => simp [separator, hm]
  | false =>
    -- the minute opens with a digit, which is no colon
    obtain ⟨d, t, hd, ht⟩ : ∃ d t, d < 10 ∧ fixed 2 minute = digit d :: t := exists_digit_of_fixed 1 minute
    have hcolon : digit d ≠ ':' := (by decide : ∀ d < 10, digit d ≠ ':') d hd
    rw [ht] at hm
    simp [separator, ht, hm, hcolon]

theorem separateOffset_designator (d : Designator) : separateOffset true d.text = d.marked.text := by
  cases d with
  | zulu lower => cases lower <;> rfl
  | offset west colon hour minute =>
    have hf := finalOffset?_designator west colon hour minute
    unfold Designator.text at hf ⊢
    rw [separateOffset, if_pos rfl, hf]
    rfl

namespace Spelling

variable (s : Spelling) (dashes colons : Bool)

/-- What stands before the designator ends in a digit. -/
theorem exists_getLast?_timeText : ∃ n, (s.timeText colons).getLast? = some (digit (n % 10)) := by
  unfold timeText clockText fraction
  rcases s.seconds with _ | ⟨whole, _ | f⟩
  · exact ⟨s.minute, by simp [ofOption, List.getLast?_append, getLast?_fixed]⟩
  · exact ⟨whole, by simp [ofOption, List.getLast?_append, getLast?_fixed]⟩
  · obtain ⟨k, hk⟩ := Nat.exists_eq_add_one.2 (List.length_pos_iff.2 f.nonempty)
    exact ⟨rowNumber f.digits, by
      simp [ofOption, List.getLast?_append, List.getLast?_cons, Fraction.text, rowText_eq_fixed, hk, getLast?_fixed]⟩

/-- The only sign that may begin a final offset is that of the designator. -/
theorem separateOffset_text : separateOffset false (s.text true colons) = s.marked.text true colons := by
  obtain ⟨n, hlast⟩ := s.exists_getLast?_timeText colons
  have hplain : ∀ c ∈ ['+', '-'], c ∉ 'T' :: s.timeText colons := by
    intro c hc
    have h : c ≠ 'T' ∧ isAsciiDigit c = false ∧ c ∉ [':', '.', ','] := by fin_cases hc <;> decide
    rw [List.mem_cons, not_or]
    exact ⟨h.1, s.not_mem_timeText h.2.1 h.2.2 colons⟩
  have hdesignator : separateOffset true (ofOption Designator.text s.designator) =
      ofOption Designator.text s.marked.designator := by
    unfold marked
    rcases s.designator with _ | d
    · rfl
    · exact separateOffset_designator d
  have htime : Separates ('T' :: (s.clockText colons ++ s.tailText))
      ('T' :: (s.marked.clockText colons ++ s.marked.tailText)) := by
    intro b
    have hdigit : ('T' :: s.timeText colons).getLast?.elim b isDigit = true := by
      rw [List.getLast?_cons, hlast]
      exact isDigit_digit n
    rw [clockText_append_tailText, clockText_append_tailText, ← List.cons_append,
      separateOffset_append ⟨hplain _ (by decide), hplain _ (by decide)⟩, hdigit, hdesignator]
    rfl
  rw [text, dateText_dashed, separates_date _ htime, text, dateText_dashed]
  rfl

/-! ## The normal form -/

theorem abutsWest_spelledOut : s.spelledOut.abutsWest = s.abutsWest := by
  unfold abutsWest spelledOut
  rcases s.designator with _ | ⟨lower⟩ | ⟨west, colon, hour, minute⟩ <;> rfl

/-- The normal form of a spelling in the extended form. -/
theorem normalize_extended : normalize (s.text true colons) = s.normal.text true colons := by
  unfold normalize
  rw [expandZulu_text, separate_dashed, evenFraction_text, separateOffset_text]
  rfl

/-- The normal form of a spelling in the basic form, whose time keeps its form if an offset to the west abuts it. -/
theorem normalize_basic : normalize (s.text false false) = s.normal.text true (!s.abutsWest) := by
  unfold normalize
  rw [expandZulu_text, separate_basic, evenFraction_text, separateOffset_text, abutsWest_spelledOut]
  rfl

theorem length_text_lt : (s.text true false).length < (s.text true true).length := by
  have hclock : (s.clockText false).length < (s.clockText true).length := by
    unfold clockText
    rcases s.seconds with _ | x
    · simp [ofOption, separator]
    · simp [ofOption, separator]
  simp only [text, List.length_append, List.length_cons]
  omega

/-- The extended form is what the basic one becomes, unless an offset to the west abuts the time. Then the date gets
its hyphens, the offset its colon, and the time stays in the basic form. -/
theorem normalize_basic_iff :
    (normalize (s.text false false) = s.normal.text true true ↔ s.abutsWest = false) ∧
      (s.abutsWest = true → normalize (s.text false false) = s.normal.text true false) := by
  rw [normalize_basic]
  cases s.abutsWest with
  | false => simp
  | true =>
    have hne : s.normal.text true false ≠ s.normal.text true true := fun h =>
      absurd (congrArg List.length h) (Nat.ne_of_lt s.normal.length_text_lt)
    simp [hne]

/-- A time of four digits and one of six, each with an offset to the west directly behind it. -/
theorem normalize_leaves_time_before_west :
    normalize "20240101T1000-0530".toList = "2024-01-01T1000-05:30".toList ∧
      "2024-01-01T1000-05:30".toList ≠ "2024-01-01T10:00-05:30".toList ∧
      normalize "20240101T100000-05:30".toList = "2024-01-01T100000-05:30".toList ∧
      "2024-01-01T100000-05:30".toList ≠ "2024-01-01T10:00:00-05:30".toList := by
  decide

end Spelling

end Taskbook.Due
