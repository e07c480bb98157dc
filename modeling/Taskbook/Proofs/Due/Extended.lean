/-
Written moments are in the extended form already. Each step of the normal form leaves the text of a wall
time and a shift as it is; only a final Z is spelled out as the shift of universal time.
-/
import Taskbook.Due.Reading
import Taskbook.Proofs.Text.Digits

namespace Taskbook

open Text Calendar

/-! ## The texts -/

/-- A time of day in writing. -/
def Calendar.Clock.text (c : Clock) : Text :=
  fixed 2 c.hour ++ ':' :: (fixed 2 c.minute ++ ':' :: (fixed 2 c.second ++ WallTime.fractionText c.micro))

/-- A time of day in writing, without seconds if they are zero. -/
def Calendar.Clock.shortText (c : Clock) : Text :=
  if c.second = 0 ∧ c.micro = 0 then fixed 2 c.hour ++ ':' :: fixed 2 c.minute else c.text

/-- A date in writing. -/
def Calendar.Date.text (d : Date) : Text := fixed 4 d.year ++ '-' :: (fixed 2 d.month ++ '-' :: fixed 2 d.day)

theorem Calendar.WallTime.isoText_eq (w : WallTime) : w.isoText = w.date.text ++ 'T' :: w.clock.text := by
  simp [isoText, Date.text, Clock.text]

/-- The sign of a shift. -/
def Shift.sign (s : Shift) : Char := if s.micros < 0 then '-' else '+'

theorem Shift.isoText_eq (s : Shift) : s.isoText = s.sign :: (Clock.ofMicros s.micros.natAbs).shortText := by
  unfold isoText Clock.shortText Clock.text sign
  dsimp only
  split <;> split <;> simp_all

theorem Shift.sign_eq (s : Shift) : s.sign = '+' ∨ s.sign = '-' := by
  unfold sign
  split
  · exact .inr rfl
  · exact .inl rfl

/-- The characters of times of day. -/
def clockChars : Text := ['0', '1', '2', '3', '4', '5', '6', '7', '8', '9', ':', '.']

/-- The characters of wall times and shifts. -/
def stampChars : Text := '+' :: '-' :: 'T' :: clockChars

theorem colon_mem_clockChars : ':' ∈ clockChars := by decide

theorem Text.fixed_subset (w n : Nat) : fixed w n ⊆ clockChars := forall_mem_fixed (by decide)

theorem fractionText_subset (u : Nat) : WallTime.fractionText u ⊆ clockChars := by
  unfold WallTime.fractionText
  split
  · exact List.nil_subset _
  · exact List.cons_subset.2 ⟨by decide, Text.fixed_subset _ _⟩

theorem Calendar.Clock.text_subset (c : Clock) : c.text ⊆ clockChars := by
  simp [Clock.text, Text.fixed_subset, fractionText_subset, colon_mem_clockChars]

theorem Calendar.Clock.shortText_subset (c : Clock) : c.shortText ⊆ clockChars := by
  unfold shortText
  split
  · simp [Text.fixed_subset, colon_mem_clockChars]
  · exact c.text_subset

theorem clockChars_subset : clockChars ⊆ stampChars := by decide

theorem Calendar.WallTime.isoText_subset (w : WallTime) : w.isoText ⊆ stampChars := by
  have hd : '-' ∈ stampChars := by decide
  have ht : 'T' ∈ stampChars := by decide
  have hf : ∀ k n, fixed k n ⊆ stampChars := fun k n => List.Subset.trans (Text.fixed_subset k n) clockChars_subset
  rw [w.isoText_eq, Date.text]
  simp [hd, ht, hf, List.Subset.trans w.clock.text_subset clockChars_subset]

theorem Shift.isoText_subset (s : Shift) : s.isoText ⊆ stampChars := by
  rw [s.isoText_eq, List.cons_subset]
  refine ⟨?_, List.Subset.trans (Clock.shortText_subset _) clockChars_subset⟩
  rcases s.sign_eq with h | h <;> rw [h] <;> decide

/-- The text of a wall time with a shift. -/
def stamp (w : WallTime) (s : Shift) : Text := w.isoText ++ s.isoText

theorem stamp_subset (w : WallTime) (s : Shift) : stamp w s ⊆ stampChars :=
  List.append_subset.2 ⟨w.isoText_subset, s.isoText_subset⟩

/-- A character that does not occur in a row of characters occurs in none of its parts. -/
theorem not_mem_of_subset {t u : Text} {c : Char} (ht : t ⊆ u) (hc : c ∉ u) : c ∉ t := fun h => hc (ht h)

theorem isBlank_of_mem_stampChars : ∀ c ∈ stampChars, isBlank c = false := by
  have h : stampChars.any isBlank = false := by decide
  simpa using h

namespace Due

/-! ## Each step of the normal form -/

theorem strip_of_no_blank {t : Text} (h : ∀ c ∈ t, isBlank c = false) : strip t = t := by
  have hl : ∀ {u : Text}, (∀ c ∈ u, isBlank c = false) → u.dropWhile isBlank = u := by
    intro u hu
    cases u with
    | nil => rfl
    | cons c u => rw [List.dropWhile_cons_of_neg]; simp [hu c (List.mem_cons_self ..)]
  unfold strip stripRight
  rw [hl h, hl (by simpa using h), List.reverse_reverse]

theorem expandZulu_of_not_mem {t : Text} (h : 'Z' ∉ t) (h' : 'z' ∉ t) : expandZulu t = t := by
  induction t with
  | nil => rfl
  | cons c t ih =>
    simp only [List.mem_cons, not_or] at h h'
    cases t with
    | nil => rw [expandZulu, if_neg (by simp [Ne.symm h.1, Ne.symm h'.1])]
    | cons c' t => rw [expandZulu.eq_3 _ _ (by simp), ih h.2 h'.2]

/-- Only what stands at the end can be the letter Z that is spelled out. -/
theorem expandZulu_append (t : Text) {r : Text} (hr : r ≠ []) : expandZulu (t ++ r) = t ++ expandZulu r := by
  induction t with
  | nil => rfl
  | cons c t ih =>
    rw [List.cons_append, expandZulu.eq_3 _ _ (by simp [hr]), ih]
    rfl

theorem takeDigits?_eq_none {n : Nat} {t : Text} {c : Char} (hc : c ∈ t.take n) (hd : isDigit c = false) :
    takeDigits? n t = none := by
  unfold takeDigits?
  rw [if_neg]
  simp only [Bool.and_eq_true, List.all_eq_true, not_and]
  intro _ h
  rw [h c hc] at hd
  cases hd

theorem separate_of_takeDigits?_eq_none {t : Text} (h : takeDigits? 8 t = none) : separate t = t := by
  unfold separate
  rw [h]

theorem takeDigits?_append {n : Nat} {p : Text} (hn : p.length = n) (hp : ∀ c ∈ p, isDigit c = true) (t : Text) :
    takeDigits? n (p ++ t) = some (p, t) := by
  unfold takeDigits?
  rw [List.take_left' hn, List.drop_left' hn, if_pos]
  simp only [Bool.and_eq_true, decide_eq_true_eq, List.all_eq_true, List.length_append, hn]
  exact ⟨Nat.le_add_right _ _, hp⟩

theorem takeDigits?_fixed (w n : Nat) (t : Text) : takeDigits? w (fixed w n ++ t) = some (fixed w n, t) :=
  takeDigits?_append (length_fixed w n) isDigit_of_mem_fixed t

/-! ### The fraction -/

/-- A fraction opens with a point or a comma. -/
theorem evenFraction_append {p : Text} (h : '.' ∉ p ∧ ',' ∉ p) (t : Text) :
    evenFraction (p ++ t) = p ++ evenFraction t := by
  induction p with
  | nil => rfl
  | cons c p ih =>
    simp only [List.mem_cons, not_or] at h
    obtain ⟨⟨hpoint, hp⟩, hcomma, hp'⟩ := h
    rw [List.cons_append, evenFraction, if_neg (by simp [Ne.symm hpoint, Ne.symm hcomma]), ih ⟨hp, hp'⟩]
    rfl

/-- Without a point or a comma there is no fraction. -/
theorem evenFraction_of_not_mem {t : Text} (h : '.' ∉ t ∧ ',' ∉ t) : evenFraction t = t := by
  rw [← List.append_nil t, evenFraction_append h, evenFraction]

/-- A fraction gets a point and six digits, whatever stands behind its digits. -/
theorem evenFraction_mark {c : Char} {p t : Text} (hc : c = '.' ∨ c = ',') (hne : p ≠ [])
    (hp : ∀ x ∈ p, isDigit x = true) (ht : ∀ x ∈ t.head?, isDigit x = false) :
    evenFraction (c :: (p ++ t)) = '.' :: (sixDigits p ++ t) := by
  have htake : (p ++ t).takeWhile isDigit = p := by
    rw [List.takeWhile_append_of_pos hp]
    cases t with
    | nil => simp
    | cons x t => rw [List.takeWhile_cons_of_neg (by simp [ht x rfl]), List.append_nil]
  have hdrop : (p ++ t).dropWhile isDigit = t := by
    rw [List.dropWhile_append_of_pos hp]
    cases t with
    | nil => rfl
    | cons x t => rw [List.dropWhile_cons_of_neg (by simp [ht x rfl])]
  have hhead : (p ++ t).head?.any isDigit = true := by
    obtain ⟨x, r, rfl⟩ := List.exists_cons_of_ne_nil hne
    exact hp x (List.mem_cons_self ..)
  rw [evenFraction, if_pos (by rw [hhead]; rcases hc with rfl | rfl <;> rfl), htake, hdrop]
  rfl

/-- A fraction of six digits is even already. -/
theorem evenFraction_fixed (u : Nat) {t : Text} (h : ∀ c ∈ t.head?, isDigit c = false) :
    evenFraction ('.' :: (fixed 6 u ++ t)) = '.' :: (fixed 6 u ++ t) := by
  have hne : fixed 6 u ≠ [] := List.ne_nil_of_length_pos (by rw [length_fixed]; norm_num)
  rw [evenFraction_mark (.inl rfl) hne isDigit_of_mem_fixed h]
  unfold sixDigits
  rw [List.take_left' (length_fixed 6 u)]

/-- The fraction of a time of day is even already. -/
theorem evenFraction_fractionText (u : Nat) {t : Text} (h : ∀ c ∈ t.head?, isDigit c = false)
    (ht : u = 0 → evenFraction t = t) :
    evenFraction (WallTime.fractionText u ++ t) = WallTime.fractionText u ++ t := by
  unfold WallTime.fractionText
  split
  · rename_i hu; exact ht hu
  · exact evenFraction_fixed u h

theorem evenFraction_clockText (c : Clock) {t : Text} (h : ∀ x ∈ t.head?, isDigit x = false)
    (ht : evenFraction t = t) : evenFraction (c.text ++ t) = c.text ++ t := by
  have hsplit : c.text ++ t = (fixed 2 c.hour ++ ':' :: (fixed 2 c.minute ++ ':' :: fixed 2 c.second)) ++
      (WallTime.fractionText c.micro ++ t) := by
    simp [Clock.text]
  rw [hsplit, evenFraction_append (by simp (disch := decide)), evenFraction_fractionText _ h fun _ => ht]

/-! ### The offset -/

/-- Whatever stands before `t`, the colon of its final offset makes it `u`. -/
def Separates (t u : Text) : Prop := ∀ b, separateOffset b t = u

/-- A text whose final offset has its colon already. -/
def Settled (t : Text) : Prop := Separates t t

theorem settled_nil : Settled [] := fun _ => rfl

theorem settled_of_finalOffset? {c : Char} {t : Text} (h : finalOffset? (c :: t) = some (c :: t)) (ht : Settled t) :
    Settled (c :: t) := by
  intro b
  unfold separateOffset
  cases b <;> simp [h, ht (isDigit c)]

theorem separates_cons {c : Char} {t u : Text} (h : finalOffset? (c :: t) = none) (ht : Separates t u) :
    Separates (c :: t) (c :: u) := by
  intro b
  unfold separateOffset
  cases b <;> simp [h, ht (isDigit c)]

/-- An offset opens with its sign, and the last character before it tells whether it stands behind a digit. -/
theorem separateOffset_append {p : Text} (h : '+' ∉ p ∧ '-' ∉ p) (b : Bool) (t : Text) :
    separateOffset b (p ++ t) = p ++ separateOffset (p.getLast?.elim b isDigit) t := by
  induction p generalizing b with
  | nil => rfl
  | cons c p ih =>
    simp only [List.mem_cons, not_or] at h
    obtain ⟨⟨hplus, hp⟩, hminus, hp'⟩ := h
    have hsign : finalOffset? (c :: (p ++ t)) = none := by
      rw [finalOffset?, if_neg (by simp [Ne.symm hplus, Ne.symm hminus])]
    have hlast : (c :: p).getLast?.elim b isDigit = p.getLast?.elim (isDigit c) isDigit := by
      rw [List.getLast?_cons]
      cases p.getLast? <;> rfl
    rw [List.cons_append, separateOffset, hsign, ite_self, hlast, List.cons_append, ← ih ⟨hp, hp'⟩]

theorem separates_append {p t u : Text} (h : '+' ∉ p ∧ '-' ∉ p) (ht : Separates t u) : Separates (p ++ t) (p ++ u) := by
  intro b
  rw [separateOffset_append h, ht]

/-- A hyphen of a date is no sign of a final offset. -/
theorem finalOffset?_of_hyphen {n : Nat} {c : Char} {t : Text} (hc : isDigit c = false) (hc' : c ≠ ':') :
    finalOffset? ('-' :: (fixed 2 n ++ c :: t)) = none := by
  rw [finalOffset?, if_pos (by decide), takeDigits?_fixed]
  dsimp only
  have hn : takeDigits? 2 (c :: t) = none := takeDigits?_eq_none (List.mem_cons_self ..) hc
  split <;> simp_all

/-- The hyphens of a date have a character behind their digits that ends no offset. -/
theorem separates_date (d : Date) {t u : Text} (h : Separates ('T' :: t) ('T' :: u)) :
    Separates (d.text ++ 'T' :: t) (d.text ++ 'T' :: u) := by
  have hday : Separates ('-' :: (fixed 2 d.day ++ 'T' :: t)) ('-' :: (fixed 2 d.day ++ 'T' :: u)) :=
    separates_cons (finalOffset?_of_hyphen (by decide) (by decide)) (separates_append (by simp (disch := decide)) h)
  have hmonth : Separates ('-' :: (fixed 2 d.month ++ '-' :: (fixed 2 d.day ++ 'T' :: t)))
      ('-' :: (fixed 2 d.month ++ '-' :: (fixed 2 d.day ++ 'T' :: u))) :=
    separates_cons (finalOffset?_of_hyphen (by decide) (by decide)) (separates_append (by simp (disch := decide)) hday)
  have hyear : Separates (fixed 4 d.year ++ _) (fixed 4 d.year ++ _) :=
    separates_append (by simp (disch := decide)) hmonth
  simpa [Date.text] using hyear

/-- A written shift has its colon already, with or without seconds behind it. -/
theorem finalOffset?_isoText (s : Shift) : finalOffset? s.isoText = none ∨ finalOffset? s.isoText = some s.isoText := by
  rw [s.isoText_eq]
  have hs : (s.sign = '+' || s.sign = '-' : Bool) = true := by
    rcases s.sign_eq with h | h <;> rw [h] <;> decide
  generalize Clock.ofMicros s.micros.natAbs = c
  unfold Clock.shortText
  split
  · right
    have hm := takeDigits?_fixed 2 c.minute []
    rw [List.append_nil] at hm
    rw [finalOffset?, if_pos hs]
    simp only [takeDigits?_fixed, hm]
    rfl
  · left
    rw [Clock.text, finalOffset?, if_pos hs]
    simp only [takeDigits?_fixed]
    rfl

/-! ## The normal form -/

theorem settled_isoText (s : Shift) : Settled s.isoText := by
  have hf := finalOffset?_isoText s
  rw [s.isoText_eq] at hf ⊢
  have hc := (Clock.ofMicros s.micros.natAbs).shortText_subset
  have ht := separates_append ⟨not_mem_of_subset hc (by decide), not_mem_of_subset hc (by decide)⟩ settled_nil
  rw [List.append_nil] at ht
  rcases hf with hf | hf
  · exact separates_cons hf ht
  · exact settled_of_finalOffset? hf ht

theorem evenFraction_isoText (s : Shift) : evenFraction s.isoText = s.isoText := by
  have hs : evenFraction (s.sign :: (Clock.ofMicros s.micros.natAbs).shortText) =
      s.sign :: evenFraction (Clock.ofMicros s.micros.natAbs).shortText := by
    rcases s.sign_eq with h | h <;> rw [h] <;> rfl
  rw [s.isoText_eq, hs]
  congr 1
  unfold Clock.shortText
  split
  · exact evenFraction_of_not_mem (by simp (disch := decide))
  · rw [← List.append_nil (Clock.text _)]
    exact evenFraction_clockText _ (by simp) rfl

theorem expandZulu_stamp (w : WallTime) (s : Shift) : expandZulu (stamp w s) = stamp w s :=
  expandZulu_of_not_mem (not_mem_of_subset (stamp_subset w s) (by decide))
    (not_mem_of_subset (stamp_subset w s) (by decide))

/-- The hyphen behind the year keeps eight digits from standing at the start. -/
theorem separate_stamp (w : WallTime) (s : Shift) : separate (stamp w s) = stamp w s := by
  have hyear : '-' ∈ (stamp w s).take 8 := by
    simp [stamp, w.isoText_eq, Date.text, fixed_four]
  exact separate_of_takeDigits?_eq_none (takeDigits?_eq_none hyear (by decide))

theorem not_mem_dateText {c : Char} (hc : isAsciiDigit c = false) (hne : c ≠ '-') (d : Date) : c ∉ d.text := by
  simp (disch := assumption) [Date.text, hne]

theorem evenFraction_stamp (w : WallTime) (s : Shift) : evenFraction (stamp w s) = stamp w s := by
  have hsplit : stamp w s = (w.date.text ++ ['T']) ++ (w.clock.text ++ s.isoText) := by
    simp [stamp, w.isoText_eq]
  have hsign : ∀ c ∈ s.isoText.head?, isDigit c = false := by
    intro c hc
    rw [s.isoText_eq, List.head?_cons] at hc
    cases hc
    rcases s.sign_eq with h | h <;> rw [h] <;> decide
  rw [hsplit, evenFraction_append (by simp (disch := decide) [not_mem_dateText]),
    evenFraction_clockText _ hsign (evenFraction_isoText s)]

/-- The only sign that may begin a final offset is that of the shift, which is settled. -/
theorem settled_stamp (w : WallTime) (s : Shift) : Settled (stamp w s) := by
  have hclock : Settled ('T' :: (w.clock.text ++ s.isoText)) :=
    separates_append (p := ['T']) (by decide)
      (separates_append ⟨not_mem_of_subset w.clock.text_subset (by decide),
        not_mem_of_subset w.clock.text_subset (by decide)⟩ (settled_isoText s))
  rw [stamp, w.isoText_eq, List.append_assoc, List.cons_append]
  exact separates_date w.date hclock

theorem normalize_stamp (w : WallTime) (s : Shift) : normalize (stamp w s) = stamp w s := by
  unfold normalize
  rw [expandZulu_stamp, separate_stamp, evenFraction_stamp, settled_stamp w s]

/-- The letter Z is spelled out as the shift of universal time. -/
theorem normalize_zulu (w : WallTime) : normalize (w.isoText ++ ['Z']) = normalize (stamp w .zero) := by
  unfold normalize
  rw [expandZulu_append _ (List.cons_ne_nil _ _), expandZulu_stamp]
  rfl

end Due

end Taskbook
