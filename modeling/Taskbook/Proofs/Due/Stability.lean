/-
The normal form is stable. A text that has been through its four steps ends in no letter Z, opens with no eight digits
that could be a date, has six digits in its first fraction and a colon in its final offset; so none of the steps finds
anything to do in it, whatever the text was.
-/
import Taskbook.Proofs.Due.Spelling
import Mathlib.Data.List.Infix

namespace Taskbook.Due

open Text

/-! ## The letter Z -/

/-- No letter Z stands at the end. -/
def Unmarked (t : Text) : Prop := ∀ c ∈ t.getLast?, c ≠ 'Z' ∧ c ≠ 'z'

theorem unmarked_append {t : Text} (p : Text) (ht : t ≠ []) : Unmarked (p ++ t) ↔ Unmarked t := by
  unfold Unmarked
  rw [List.getLast?_append_of_ne_nil _ ht]

theorem unmarked_cons {t : Text} (c : Char) (ht : t ≠ []) : Unmarked (c :: t) ↔ Unmarked t := unmarked_append [c] ht

theorem unmarked_of_getLast? {t : Text} {d : Char} (h : t.getLast? = some d) (hd : isDigit d = true) : Unmarked t := by
  intro c hc
  rw [h] at hc
  cases hc
  constructor <;> rintro rfl <;> exact absurd hd (by decide)

theorem unmarked_of_digits {t : Text} (h : ∀ c ∈ t, isDigit c = true) : Unmarked t := by
  intro c hc
  exact unmarked_of_getLast? hc (h c (List.mem_of_getLast? hc)) c hc

theorem expandZulu_of_unmarked {t : Text} (h : Unmarked t) : expandZulu t = t := by
  rcases List.eq_nil_or_concat t with rfl | ⟨p, c, rfl⟩
  · rfl
  · obtain ⟨hZ, hz⟩ := h c (by simp)
    rw [List.concat_eq_append, expandZulu_append p (List.cons_ne_nil _ _), expandZulu, if_neg (by simp [hZ, hz])]

theorem unmarked_expandZulu (t : Text) : Unmarked (expandZulu t) := by
  rcases List.eq_nil_or_concat t with rfl | ⟨p, c, rfl⟩
  · rintro c ⟨⟩
  · rw [List.concat_eq_append, expandZulu_append p (List.cons_ne_nil _ _), expandZulu]
    split
    · rw [unmarked_append _ (List.cons_ne_nil _ _)]
      simp [Unmarked]
    · rename_i hc
      rw [unmarked_append _ (List.cons_ne_nil _ _)]
      simpa [Unmarked] using hc

/-! ## The digits at the start -/

theorem takeDigits?_eq_some_iff {n : Nat} {t p r : Text} :
    takeDigits? n t = some (p, r) ↔ t = p ++ r ∧ p.length = n ∧ ∀ c ∈ p, isDigit c = true := by
  constructor
  · intro h
    unfold takeDigits? at h
    split at h
    · rename_i hc
      cases h
      rw [Bool.and_eq_true, decide_eq_true_eq, List.all_eq_true] at hc
      exact ⟨(List.take_append_drop n t).symm, List.length_take_of_le hc.1, hc.2⟩
    · cases h
  · rintro ⟨rfl, hn, hp⟩
    exact takeDigits?_append hn hp r

theorem not_mem_of_digits {p : Text} (hp : ∀ x ∈ p, isDigit x = true) {c : Char} (hc : isDigit c = false) : c ∉ p := by
  intro hmem
  rw [hp c hmem] at hc
  cases hc

/-- A text is a row of digits and what opens with none. -/
theorem exists_lead (t : Text) :
    ∃ p r, t = p ++ r ∧ (∀ c ∈ p, isDigit c = true) ∧ ∀ c ∈ r.head?, isDigit c = false := by
  refine ⟨t.takeWhile isDigit, t.dropWhile isDigit, List.takeWhile_append_dropWhile.symm, ?_, ?_⟩
  · exact List.all_eq_true.1 (List.all_takeWhile)
  · intro c hc
    have h := List.head?_dropWhile_not isDigit t
    rw [Option.mem_def.1 hc] at h
    simpa using h

theorem lead_append {p r : Text} (hp : ∀ c ∈ p, isDigit c = true) (hr : ∀ c ∈ r.head?, isDigit c = false) :
    (p ++ r).takeWhile isDigit = p ∧ (p ++ r).dropWhile isDigit = r := by
  rw [List.takeWhile_append_of_pos hp, List.dropWhile_append_of_pos hp]
  cases r with
  | nil => simp
  | cons c r => simp [hr c rfl]

theorem not_digit_of_endsHere {t : Text} (h : endsHere t = true) : ∀ c ∈ t.head?, isDigit c = false := by
  cases t with
  | nil => rintro c ⟨⟩
  | cons x t =>
    rintro c ⟨⟩
    unfold endsHere at h
    simp only [Bool.not_eq_true', Bool.or_eq_false_iff] at h
    exact h.1.1

/-- Eight digits stand at the start, and nothing that would continue the date that they are. -/
def Joined (t : Text) : Prop := (t.takeWhile isDigit).length = 8 ∧ endsHere (t.dropWhile isDigit) = true

theorem joined_append_iff {p r : Text} (hp : ∀ c ∈ p, isDigit c = true) (hr : ∀ c ∈ r.head?, isDigit c = false) :
    Joined (p ++ r) ↔ p.length = 8 ∧ endsHere r = true := by
  obtain ⟨htake, hdrop⟩ := lead_append hp hr
  unfold Joined
  rw [htake, hdrop]

theorem exists_getLast?_append (t : Text) {p : Text} (hlen : p.length = 2) (hp : ∀ c ∈ p, isDigit c = true) :
    ∃ d, (t ++ p).getLast? = some d ∧ isDigit d = true := by
  have hne : p ≠ [] := List.ne_nil_of_length_pos (by omega)
  rw [List.getLast?_append_of_ne_nil t hne, List.getLast?_eq_some_getLast hne]
  exact ⟨_, rfl, hp _ (List.getLast_mem hne)⟩

/-- The ways to read a time are not to read one, or to read some characters of the text for a time that ends in a
digit. -/
theorem mem_basicTimes {t time rest : Text} (h : (time, rest) ∈ basicTimes t) :
    time = [] ∧ rest = t ∨ ∃ raw d, t = raw ++ rest ∧ time.getLast? = some d ∧ isDigit d = true := by
  unfold basicTimes at h
  dsimp only at h
  rcases List.mem_append.1 h with h | h
  · right
    split at h
    · rename_i u
      split at h
      · cases h
      · rename_i hour u' hhour
        obtain ⟨rfl, -, -⟩ := takeDigits?_eq_some_iff.1 hhour
        split at h
        · cases h
        · rename_i minute u'' hminute
          obtain ⟨rfl, hlen, hdigits⟩ := takeDigits?_eq_some_iff.1 hminute
          have hshort : ∃ d, ('T' :: hour ++ ':' :: minute).getLast? = some d ∧ isDigit d = true := by
            simpa using exists_getLast?_append ('T' :: hour ++ [':']) hlen hdigits
          split at h
          · cases List.mem_singleton.1 h
            obtain ⟨d, hd⟩ := hshort
            exact ⟨'T' :: (hour ++ minute), d, by simp, hd⟩
          · rename_i second u3 hsecond
            obtain ⟨rfl, hlen', hdigits'⟩ := takeDigits?_eq_some_iff.1 hsecond
            rcases List.mem_cons.1 h with h | h
            · cases h
              obtain ⟨d, hd⟩ := exists_getLast?_append ('T' :: hour ++ ':' :: minute ++ [':']) hlen' hdigits'
              refine ⟨'T' :: (hour ++ (minute ++ second)), d, by simp, ?_⟩
              simpa using hd
            · cases List.mem_singleton.1 h
              obtain ⟨d, hd⟩ := hshort
              exact ⟨'T' :: (hour ++ minute), d, by simp, hd⟩
    · cases h
  · cases List.mem_singleton.1 h
    exact .inl ⟨rfl, rfl⟩

theorem separate_of_not_joined {t : Text} (h : ¬ Joined t) : separate t = t := by
  unfold separate
  rcases hd : takeDigits? 8 t with _ | ⟨date, rest⟩
  · rfl
  · obtain ⟨rfl, hlen, hdigits⟩ := takeDigits?_eq_some_iff.1 hd
    have hends : endsHere rest = false := by
      by_contra hends
      rw [Bool.not_eq_false] at hends
      exact h ((joined_append_iff hdigits (not_digit_of_endsHere hends)).2 ⟨hlen, hends⟩)
    -- what continues a date is no letter T, so no time is read
    cases rest with
    | nil => cases hends
    | cons c rest =>
      have hT : c ≠ 'T' := by
        rintro rfl
        cases hends
      have htimes : basicTimes (c :: rest) = [([], c :: rest)] := by
        unfold basicTimes
        split
        · rename_i heq
          cases heq
          exact absurd rfl hT
        · rfl
      simp [htimes, hends]

/-- The date gets its hyphens, and what is read of a time behind it becomes a text that ends in a digit. -/
theorem exists_of_joined {t : Text} (h : Joined t) :
    ∃ date raw time rest, t = date ++ (raw ++ rest) ∧ date.length = 8 ∧ (∀ c ∈ date, isDigit c = true) ∧
      separate t = date.take 4 ++ '-' :: ((date.drop 4).take 2 ++ '-' :: (date.drop 6 ++ (time ++ rest))) ∧
      (time = [] ∧ raw = [] ∨ ∃ d, time.getLast? = some d ∧ isDigit d = true) := by
  obtain ⟨date, rest, rfl, hdigits, hhead⟩ := exists_lead t
  obtain ⟨hlen, hends⟩ := (joined_append_iff hdigits hhead).1 h
  rcases hf : (basicTimes rest).find? fun reading => endsHere reading.2 with _ | ⟨time, rest'⟩
  · -- not to read a time is always one of the ways
    have hmem : ([], rest) ∈ basicTimes rest := by
      unfold basicTimes
      exact List.mem_append_right _ (List.mem_singleton_self _)
    exact absurd hends (List.find?_eq_none.1 hf _ hmem)
  · have hseparate : separate (date ++ rest) =
        date.take 4 ++ '-' :: ((date.drop 4).take 2 ++ '-' :: (date.drop 6 ++ (time ++ rest'))) := by
      unfold separate
      rw [takeDigits?_append hlen hdigits]
      simp [hf]
    rw [hseparate]
    rcases mem_basicTimes (List.mem_of_find?_eq_some hf) with ⟨rfl, rfl⟩ | ⟨raw, d, rfl, hd⟩
    · exact ⟨date, [], [], rest', rfl, hlen, hdigits, rfl, .inl ⟨rfl, rfl⟩⟩
    · exact ⟨date, raw, time, rest', rfl, hlen, hdigits, rfl, .inr ⟨d, hd⟩⟩

theorem not_joined_separate (t : Text) : ¬ Joined (separate t) := by
  by_cases h : Joined t
  · obtain ⟨date, raw, time, rest, -, hlen, hdigits, hseparate, -⟩ := exists_of_joined h
    rw [hseparate, joined_append_iff (fun c hc => hdigits c (List.mem_of_mem_take hc)) (by simp; decide)]
    simp [hlen]
  · rwa [separate_of_not_joined h]

theorem unmarked_separate {t : Text} (h : Unmarked t) : Unmarked (separate t) := by
  by_cases hj : Joined t
  · obtain ⟨date, raw, time, rest, rfl, hlen, hdigits, hseparate, htime⟩ := exists_of_joined hj
    have hdays : date.drop 6 ≠ [] := List.ne_nil_of_length_pos (by rw [List.length_drop]; omega)
    have hend : Unmarked (date.drop 6 ++ (time ++ rest)) := by
      rcases eq_or_ne rest [] with rfl | hrest
      · rw [List.append_nil]
        rcases htime with ⟨rfl, -⟩ | ⟨d, hd, hdigit⟩
        · rw [List.append_nil]
          exact unmarked_of_digits fun c hc => hdigits c (List.mem_of_mem_drop hc)
        · exact unmarked_of_getLast? (by rw [List.getLast?_append, hd]; rfl) hdigit
      · rw [← List.append_assoc, unmarked_append _ hrest] at h ⊢
        exact h
    have hsplit : ∀ a b r : Text, a ++ '-' :: (b ++ '-' :: r) = (a ++ '-' :: (b ++ ['-'])) ++ r := by simp
    rw [hseparate, hsplit, unmarked_append _ (List.append_ne_nil_of_left_ne_nil hdays _)]
    exact hend
  · rwa [separate_of_not_joined hj]

/-! ## The fraction -/

/-- A text keeps its first character, but for a comma that becomes a point. -/
theorem head?_evenFraction (t : Text) :
    (evenFraction t).head? = t.head? ∨ t.head? = some ',' ∧ (evenFraction t).head? = some '.' := by
  cases t with
  | nil => exact .inl rfl
  | cons c t =>
    unfold evenFraction
    split
    · rename_i hc
      rw [Bool.and_eq_true, Bool.or_eq_true, decide_eq_true_eq, decide_eq_true_eq] at hc
      rcases hc.1 with rfl | rfl
      · exact .inl rfl
      · exact .inr ⟨rfl, rfl⟩
    · exact .inl rfl

theorem any_head?_eq_false_iff {t : Text} : t.head?.any isDigit = false ↔ ∀ c ∈ t.head?, isDigit c = false := by
  cases t <;> simp

theorem any_head?_evenFraction (t : Text) : (evenFraction t).head?.any isDigit = t.head?.any isDigit := by
  rcases head?_evenFraction t with h | ⟨h, h'⟩
  · rw [h]
  · rw [h, h']
    decide

theorem endsHere_eq (t : Text) : endsHere t = !t.head?.any fun c => isDigit c || c == ':' || c == '-' := by
  cases t <;> rfl

theorem endsHere_evenFraction (t : Text) : endsHere (evenFraction t) = endsHere t := by
  rw [endsHere_eq, endsHere_eq]
  rcases head?_evenFraction t with h | ⟨h, h'⟩
  · rw [h]
  · rw [h, h']
    decide

/-- A point or a comma with a digit behind it. -/
def OpensFraction (c : Char) (t : Text) : Prop := (c = '.' ∨ c = ',') ∧ t.head?.any isDigit = true

theorem evenFraction_cons_of_opens {c : Char} {t : Text} (h : OpensFraction c t) :
    evenFraction (c :: t) = '.' :: (sixDigits (t.takeWhile isDigit) ++ t.dropWhile isDigit) := by
  obtain ⟨hc, ht⟩ := h
  rw [evenFraction, if_pos (by simpa [hc] using ht)]
  rfl

theorem evenFraction_cons_of_not_opens {c : Char} {t : Text} (h : ¬ OpensFraction c t) :
    evenFraction (c :: t) = c :: evenFraction t := by
  rw [evenFraction, if_neg (by simpa [OpensFraction] using h)]

theorem sixDigits_sixDigits (p : Text) : sixDigits (sixDigits p) = sixDigits p := by
  have hlen : (sixDigits p).length = 6 := by simp [sixDigits]
  rw [sixDigits, List.take_left' hlen]

theorem isDigit_of_mem_sixDigits {p : Text} (hp : ∀ c ∈ p, isDigit c = true) : ∀ c ∈ sixDigits p, isDigit c = true := by
  intro c hc
  rcases List.mem_append.1 (List.mem_of_mem_take hc) with hc | hc
  · exact hp c hc
  · rw [List.eq_of_mem_replicate hc]
    decide

theorem evenFraction_evenFraction (t : Text) : evenFraction (evenFraction t) = evenFraction t := by
  induction t with
  | nil => rfl
  | cons c t ih =>
    by_cases h : OpensFraction c t
    · obtain ⟨p, r, rfl, hp, hr⟩ := exists_lead t
      obtain ⟨htake, hdrop⟩ := lead_append hp hr
      have hne : sixDigits p ≠ [] := by simp [sixDigits]
      rw [evenFraction_cons_of_opens h, htake, hdrop,
        evenFraction_mark (.inl rfl) hne (isDigit_of_mem_sixDigits hp) hr, sixDigits_sixDigits]
    · have h' : ¬ OpensFraction c (evenFraction t) := by
        unfold OpensFraction
        rwa [any_head?_evenFraction]
      rw [evenFraction_cons_of_not_opens h, evenFraction_cons_of_not_opens h', ih]

theorem joined_evenFraction_iff (t : Text) : Joined (evenFraction t) ↔ Joined t := by
  obtain ⟨p, r, rfl, hp, hr⟩ := exists_lead t
  have hplain : '.' ∉ p ∧ ',' ∉ p := ⟨not_mem_of_digits hp (by decide), not_mem_of_digits hp (by decide)⟩
  have hr' : ∀ c ∈ (evenFraction r).head?, isDigit c = false := by
    rw [← any_head?_eq_false_iff] at hr ⊢
    rw [any_head?_evenFraction, hr]
  rw [evenFraction_append hplain, joined_append_iff hp hr, joined_append_iff hp hr', endsHere_evenFraction]

theorem unmarked_evenFraction {t : Text} (h : Unmarked t) : Unmarked (evenFraction t) := by
  induction t with
  | nil => exact h
  | cons c t ih =>
    by_cases ho : OpensFraction c t
    · obtain ⟨p, r, rfl, hp, hr⟩ := exists_lead t
      obtain ⟨htake, hdrop⟩ := lead_append hp hr
      rw [evenFraction_cons_of_opens ho, htake, hdrop, ← List.cons_append]
      rcases eq_or_ne r [] with rfl | hne
      · have hsix : sixDigits p ≠ [] := by simp [sixDigits]
        rw [List.append_nil, unmarked_cons _ hsix]
        exact unmarked_of_digits (isDigit_of_mem_sixDigits hp)
      · rw [← List.cons_append, unmarked_append _ hne] at h
        rwa [unmarked_append _ hne]
    · rw [evenFraction_cons_of_not_opens ho]
      cases t with
      | nil => exact h
      | cons c' t =>
        have hne : evenFraction (c' :: t) ≠ [] := by
          intro hnil
          rcases head?_evenFraction (c' :: t) with hh | ⟨-, hh⟩ <;> rw [hnil] at hh <;> cases hh
        rw [unmarked_cons _ hne]
        rw [unmarked_cons _ (List.cons_ne_nil _ _)] at h
        exact ih h

/-! ## The offset -/

/-- An offset at the end of a text, maybe with a line feed behind it. -/
structure FinalOffset where
  sign : Char
  hour : Text
  minute : Text
  ending : Text
  signed : sign = '+' ∨ sign = '-'
  hours : hour.length = 2 ∧ ∀ c ∈ hour, isDigit c = true
  minutes : minute.length = 2 ∧ ∀ c ∈ minute, isDigit c = true
  ended : ending = [] ∨ ending = ['\n']

namespace FinalOffset

/-- What stands behind the sign. -/
def body (o : FinalOffset) (colon : Bool) : Text := o.hour ++ (separator colon ':' ++ (o.minute ++ o.ending))

def text (o : FinalOffset) (colon : Bool) : Text := o.sign :: o.body colon

theorem finalOffset?_text (o : FinalOffset) (colon : Bool) : finalOffset? (o.text colon) = some (o.text true) := by
  have hs : (o.sign = '+' || o.sign = '-' : Bool) = true := by simpa using o.signed
  have hcolon : ∀ c ∈ o.minute, c ≠ ':' := by
    rintro c hc rfl
    exact absurd (o.minutes.2 ':' hc) (by decide)
  have hm := takeDigits?_append o.minutes.1 o.minutes.2 o.ending
  unfold text body
  rw [finalOffset?, if_pos hs, takeDigits?_append o.hours.1 o.hours.2]
  obtain ⟨d, minute, hd⟩ := List.exists_cons_of_length_pos (show 0 < o.minute.length by rw [o.minutes.1]; norm_num)
  rw [hd] at hm hcolon
  have hne : d ≠ ':' := hcolon d (List.mem_cons_self ..)
  rcases o.ended with he | he <;> rw [he] at hm <;> cases colon <;> simp_all [separator]

theorem body_eq (o : FinalOffset) (colon : Bool) :
    o.body colon = o.hour ++ (separator colon ':' ++ o.minute) ++ o.ending := by
  simp [body]

theorem not_mem_inner (o : FinalOffset) {c : Char} (hd : isDigit c = false) (hcolon : c ≠ ':') (colon : Bool) :
    c ∉ o.hour ++ (separator colon ':' ++ o.minute) := by
  simp [not_mem_of_digits o.hours.2 hd, not_mem_of_digits o.minutes.2 hd, not_mem_separator hcolon]

theorem not_mem_body (o : FinalOffset) {c : Char} (hd : isDigit c = false) (hcolon : c ≠ ':') (hlf : c ≠ '\n')
    (colon : Bool) : c ∉ o.body colon := by
  have hend : c ∉ o.ending := by rcases o.ended with h | h <;> rw [h] <;> simp [hlf]
  rw [body_eq, List.mem_append, not_or]
  exact ⟨o.not_mem_inner hd hcolon colon, hend⟩

/-- The line feed is the last character if there is one. -/
theorem not_mem_dropLast_body (o : FinalOffset) {c : Char} (hd : isDigit c = false) (hcolon : c ≠ ':') (colon : Bool) :
    c ∉ (o.body colon).dropLast := by
  intro hmem
  rw [body_eq] at hmem
  rcases o.ended with he | he <;> rw [he] at hmem
  · rw [List.append_nil] at hmem
    exact o.not_mem_inner hd hcolon colon (List.mem_of_mem_dropLast hmem)
  · rw [List.dropLast_concat] at hmem
    exact o.not_mem_inner hd hcolon colon hmem

end FinalOffset

theorem exists_of_finalOffset? {t u : Text} (h : finalOffset? t = some u) :
    ∃ (o : FinalOffset) (colon : Bool), t = o.text colon ∧ u = o.text true := by
  cases t with
  | nil => cases h
  | cons sign rest =>
    by_cases hs : sign = '+' ∨ sign = '-'
    · rw [finalOffset?, if_pos (by simpa using hs)] at h
      rcases hhour : takeDigits? 2 rest with _ | ⟨hour, rest'⟩ <;> rw [hhour] at h
      · cases h
      · obtain ⟨rfl, hhours⟩ := takeDigits?_eq_some_iff.1 hhour
        dsimp only at h
        -- the rest is looked at behind its colon, if it opens with one
        obtain ⟨colon, r, rfl, hr⟩ : ∃ (colon : Bool) (r : Text), rest' = separator colon ':' ++ r ∧
            ∃ minute ending, takeDigits? 2 r = some (minute, ending) ∧ (ending = [] ∨ ending = ['\n']) ∧
              u = sign :: (hour ++ ':' :: (minute ++ ending)) := by
          split at h <;> rename_i hminute <;> cases h <;> split at hminute
          · exact ⟨true, _, rfl, _, _, hminute, .inl rfl, by simp⟩
          · exact ⟨false, _, rfl, _, _, hminute, .inl rfl, by simp⟩
          · exact ⟨true, _, rfl, _, _, hminute, .inr rfl, by simp⟩
          · exact ⟨false, _, rfl, _, _, hminute, .inr rfl, by simp⟩
        obtain ⟨minute, ending, hminute, hend, rfl⟩ := hr
        obtain ⟨rfl, hminutes⟩ := takeDigits?_eq_some_iff.1 hminute
        exact ⟨⟨sign, hour, minute, ending, hs, hhours, hminutes, hend⟩, colon, rfl, rfl⟩
    · rw [finalOffset?, if_neg (by simpa using hs)] at h
      cases h

/-- Behind the sign of a final offset there is no other sign. -/
theorem finalOffset?_eq_none {c : Char} {t : Text} (h : '+' ∈ t ∨ '-' ∈ t) : finalOffset? (c :: t) = none := by
  by_contra hsome
  obtain ⟨u, hu⟩ := Option.ne_none_iff_exists'.1 hsome
  obtain ⟨o, colon, htext, -⟩ := exists_of_finalOffset? hu
  cases htext
  rcases h with h | h
  · exact o.not_mem_body (by decide) (by decide) (by decide) colon h
  · exact o.not_mem_body (by decide) (by decide) (by decide) colon h

/-- Before the last character of a final offset there are only digits and a colon. -/
theorem finalOffset?_eq_none_of_inner {sign c : Char} {p r : Text} (hd : isDigit c = false) (hcolon : c ≠ ':')
    (hr : r ≠ []) : finalOffset? (sign :: (p ++ c :: r)) = none := by
  by_contra hsome
  obtain ⟨u, hu⟩ := Option.ne_none_iff_exists'.1 hsome
  obtain ⟨o, colon, htext, -⟩ := exists_of_finalOffset? hu
  have hbody : p ++ c :: r = o.body colon := (List.cons.inj htext).2
  refine o.not_mem_dropLast_body hd hcolon colon ?_
  rw [← hbody, List.dropLast_append_of_ne_nil (List.cons_ne_nil _ _), List.dropLast_cons_of_ne_nil hr]
  exact List.mem_append_right _ (List.mem_cons_self ..)

/-- What is done to a text with a character in front: its final offset begins there and gets its colon, or else the
rest of the text is looked at. -/
theorem separateOffset_cons (b : Bool) (c : Char) (t : Text) :
    (b = true ∧ ∃ (o : FinalOffset) (colon : Bool), c :: t = o.text colon ∧ separateOffset b (c :: t) = o.text true) ∨
      (b = true → finalOffset? (c :: t) = none) ∧
        separateOffset b (c :: t) = c :: separateOffset (isDigit c) t := by
  rw [separateOffset]
  cases b with
  | false => exact .inr ⟨fun h => absurd h Bool.false_ne_true, rfl⟩
  | true =>
    rw [if_pos rfl]
    rcases hf : finalOffset? (c :: t) with _ | u
    · exact .inr ⟨fun _ => rfl, rfl⟩
    · obtain ⟨o, colon, htext, rfl⟩ := exists_of_finalOffset? hf
      exact .inl ⟨rfl, o, colon, htext, rfl⟩

/-- A text stays as it is unless it has a sign. -/
theorem separateOffset_eq_or (b : Bool) (t : Text) :
    separateOffset b t = t ∨ '+' ∈ separateOffset b t ∨ '-' ∈ separateOffset b t := by
  induction t generalizing b with
  | nil => exact .inl rfl
  | cons c t ih =>
    rcases separateOffset_cons b c t with ⟨-, o, colon, -, h⟩ | ⟨-, h⟩
    · right
      rw [h]
      exact o.signed.imp (fun hs => by simp [FinalOffset.text, hs]) fun hs => by simp [FinalOffset.text, hs]
    · rw [h]
      rcases ih (isDigit c) with he | hs
      · exact .inl (by rw [he])
      · exact .inr (hs.imp (List.mem_cons_of_mem c) (List.mem_cons_of_mem c))

theorem separateOffset_separateOffset (b : Bool) (t : Text) :
    separateOffset b (separateOffset b t) = separateOffset b t := by
  induction t generalizing b with
  | nil => rfl
  | cons c t ih =>
    rcases separateOffset_cons b c t with ⟨rfl, o, colon, -, h⟩ | ⟨hnone, h⟩
    · have hagain := o.finalOffset?_text true
      rw [h]
      unfold FinalOffset.text at hagain ⊢
      unfold separateOffset
      rw [if_pos rfl, hagain]
    · rw [h]
      have hnone' : b = true → finalOffset? (c :: separateOffset (isDigit c) t) = none := by
        intro hb
        rcases separateOffset_eq_or (isDigit c) t with he | hs
        · rw [he, hnone hb]
        · exact finalOffset?_eq_none hs
      rw [separateOffset, ih]
      cases b with
      | false => rfl
      | true => rw [if_pos rfl, hnone' rfl]

theorem head?_separateOffset (b : Bool) (t : Text) : (separateOffset b t).head? = t.head? := by
  cases t with
  | nil => rfl
  | cons c t =>
    rcases separateOffset_cons b c t with ⟨-, o, colon, htext, h⟩ | ⟨-, h⟩
    · rw [h, htext]
      rfl
    · rw [h]
      rfl

theorem unmarked_separateOffset {b : Bool} {t : Text} (h : Unmarked t) : Unmarked (separateOffset b t) := by
  induction t generalizing b with
  | nil => exact h
  | cons c t ih =>
    rcases separateOffset_cons b c t with ⟨-, o, colon, htext, hs⟩ | ⟨-, hs⟩
    · -- what stands behind the colon is not changed
      have hne : o.minute ++ o.ending ≠ [] :=
        List.ne_nil_of_length_pos (by rw [List.length_append, o.minutes.1]; omega)
      have htail : ∀ colon, Unmarked (o.text colon) ↔ Unmarked (o.minute ++ o.ending) := by
        intro colon
        rw [FinalOffset.text, FinalOffset.body, ← List.append_assoc, ← List.cons_append, unmarked_append _ hne]
      rw [hs, htail true, ← htail colon, ← htext]
      exact h
    · rw [hs]
      rcases eq_or_ne t [] with rfl | hne
      · exact h
      · have hne' : separateOffset (isDigit c) t ≠ [] := by
          intro hnil
          have hhead := head?_separateOffset (isDigit c) t
          rw [hnil, List.head?_nil, eq_comm, List.head?_eq_none_iff] at hhead
          exact hne hhead
        rw [unmarked_cons _ hne] at h
        rw [unmarked_cons _ hne']
        exact ih h

theorem joined_separateOffset_iff (b : Bool) (t : Text) : Joined (separateOffset b t) ↔ Joined t := by
  obtain ⟨p, r, rfl, hp, hr⟩ := exists_lead t
  have hplain : '+' ∉ p ∧ '-' ∉ p := ⟨not_mem_of_digits hp (by decide), not_mem_of_digits hp (by decide)⟩
  rw [separateOffset_append hplain, joined_append_iff hp hr, joined_append_iff hp (by rwa [head?_separateOffset]),
    endsHere_eq, endsHere_eq, head?_separateOffset]

/-- A text without any fraction to change keeps none when its final offset gets its colon. -/
theorem evenFraction_separateOffset {t : Text} (h : evenFraction t = t) (b : Bool) :
    evenFraction (separateOffset b t) = separateOffset b t := by
  induction t generalizing b with
  | nil => rfl
  | cons c t ih =>
    rcases separateOffset_cons b c t with ⟨-, o, colon, -, hs⟩ | ⟨-, hs⟩
    · rw [hs]
      have hsign : o.sign ≠ '.' ∧ o.sign ≠ ',' := by rcases o.signed with hs | hs <;> rw [hs] <;> decide
      refine evenFraction_of_not_mem ⟨?_, ?_⟩ <;> unfold FinalOffset.text <;> rw [List.mem_cons, not_or]
      · exact ⟨hsign.1.symm, o.not_mem_body (by decide) (by decide) (by decide) true⟩
      · exact ⟨hsign.2.symm, o.not_mem_body (by decide) (by decide) (by decide) true⟩
    · rw [hs]
      by_cases ho : OpensFraction c t
      · -- the digits of the fraction stand before the sign
        obtain ⟨p, r, rfl, hp, hr⟩ := exists_lead t
        obtain ⟨htake, hdrop⟩ := lead_append hp hr
        have hplain : '+' ∉ p ∧ '-' ∉ p := ⟨not_mem_of_digits hp (by decide), not_mem_of_digits hp (by decide)⟩
        rw [evenFraction_cons_of_opens ho, htake, hdrop, List.cons.injEq] at h
        have hsix : sixDigits p = p := List.append_cancel_right h.2
        have hne : p ≠ [] := by
          rw [← hsix]
          simp [sixDigits]
        rw [separateOffset_append hplain, ← h.1,
          evenFraction_mark (.inl rfl) hne hp (by rwa [head?_separateOffset]), hsix]
      · rw [evenFraction_cons_of_not_opens ho, List.cons.injEq] at h
        have ho' : ¬ OpensFraction c (separateOffset (isDigit c) t) := by
          unfold OpensFraction
          rwa [head?_separateOffset]
        rw [evenFraction_cons_of_not_opens ho', ih h.2]

/-! ## All four steps -/

/-- A text in the normal form stays as it is when it is normalized again, whatever it was made of. -/
theorem normalize_normalize (t : Text) : normalize (normalize t) = normalize t := by
  have hjoined : ¬ Joined (normalize t) := by
    unfold normalize
    rw [joined_separateOffset_iff, joined_evenFraction_iff]
    exact not_joined_separate _
  have hunmarked : Unmarked (normalize t) :=
    unmarked_separateOffset (unmarked_evenFraction (unmarked_separate (unmarked_expandZulu t)))
  have heven : evenFraction (normalize t) = normalize t := evenFraction_separateOffset (evenFraction_evenFraction _) _
  have hoffset : separateOffset false (normalize t) = normalize t := separateOffset_separateOffset _ _
  calc normalize (normalize t)
      = separateOffset false (evenFraction (separate (normalize t))) := by
        rw [normalize, expandZulu_of_unmarked hunmarked]
    _ = separateOffset false (evenFraction (normalize t)) := by rw [separate_of_not_joined hjoined]
    _ = normalize t := by rw [heven, hoffset]

end Taskbook.Due
