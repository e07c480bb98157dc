/-
A final Z and the zone that due texts are read in. The normal form spells the letter out as an offset of zero and leaves
what stands before it in its own normal form. Behind a time of day the offset is read as one. Behind a date alone the
plus sign is taken for what separates a time of day from its date, and the zeros for the time, so that the moment has
no zone of its own and is placed in the zone.
-/
import Taskbook.Proofs.Due.Dates
import Taskbook.Proofs.Due.Forms
import Taskbook.Proofs.Due.Stability
import Taskbook.Zone.Place

namespace Taskbook.Due

open Text Calendar

/-! ## The normal form

A plus sign ends everything that the passes of the normal form look for, so they treat what stands before it as if the
text ended there. -/

theorem takeDigits?_plus (n : Nat) (t r : Text) :
    takeDigits? n (t ++ '+' :: r) = (takeDigits? n t).map fun (p, u) => (p, u ++ '+' :: r) := by
  rcases ht : takeDigits? n t with _ | ⟨p, u⟩
  · by_contra hsome
    obtain ⟨⟨p, u⟩, hp⟩ := Option.ne_none_iff_exists'.1 hsome
    obtain ⟨happend, hlen, hdigits⟩ := takeDigits?_eq_some_iff.1 hp
    obtain ⟨q, rfl, hq⟩ | ⟨q, rfl, -⟩ := List.append_eq_append_iff.1 happend
    · cases q with
      | nil =>
        rw [List.append_nil] at hlen hdigits
        have htake := takeDigits?_append hlen hdigits []
        rw [List.append_nil] at htake
        cases ht.symm.trans htake
      | cons c q =>
        cases hq
        exact not_mem_of_digits hdigits (by decide) (List.mem_append_right t (List.mem_cons_self ..))
    · rw [takeDigits?_append hlen hdigits] at ht
      cases ht
  · obtain ⟨rfl, hlen, hdigits⟩ := takeDigits?_eq_some_iff.1 ht
    rw [List.append_assoc, takeDigits?_append hlen hdigits]
    rfl

theorem basicTimes_plus (t r : Text) :
    basicTimes (t ++ '+' :: r) = (basicTimes t).map fun (time, u) => (time, u ++ '+' :: r) := by
  unfold basicTimes
  cases t with
  | nil => rfl
  | cons c t =>
    by_cases hT : c = 'T'
    · subst hT
      simp only [List.cons_append, takeDigits?_plus]
      rcases takeDigits? 2 t with _ | ⟨hour, u⟩
      · rfl
      · simp only [Option.map_some, takeDigits?_plus]
        rcases takeDigits? 2 u with _ | ⟨minute, w⟩
        · rfl
        · simp only [Option.map_some, takeDigits?_plus]
          rcases takeDigits? 2 w with _ | ⟨second, x⟩ <;> rfl
    · simp [hT]

theorem separate_plus (t r : Text) : separate (t ++ '+' :: r) = separate t ++ '+' :: r := by
  have hends : ∀ u : Text, endsHere (u ++ '+' :: r) = endsHere u := by
    intro u
    cases u <;> rfl
  unfold separate
  rw [takeDigits?_plus]
  rcases takeDigits? 8 t with _ | ⟨date, u⟩
  · rfl
  · simp only [Option.map_some, basicTimes_plus, List.find?_map]
    have hcomp : ((fun reading : Text × Text => endsHere reading.2) ∘ fun (time, u) => (time, u ++ '+' :: r)) =
        fun reading => endsHere reading.2 := funext fun reading => hends reading.2
    rw [hcomp]
    rcases hf : (basicTimes u).find? fun reading => endsHere reading.2 with _ | ⟨time, w⟩ <;> simp [hf]

theorem evenFraction_plus {r : Text} (hr : '.' ∉ r ∧ ',' ∉ r) (t : Text) :
    evenFraction (t ++ '+' :: r) = evenFraction t ++ '+' :: r := by
  induction t with
  | nil => exact evenFraction_of_not_mem ⟨by simp [hr.1], by simp [hr.2]⟩
  | cons c t ih =>
    have hhead : (t ++ '+' :: r).head?.any isDigit = t.head?.any isDigit := by
      cases t <;> simp [show isDigit '+' = false by decide]
    by_cases h : OpensFraction c t
    · have h' : OpensFraction c (t ++ '+' :: r) := ⟨h.1, hhead.trans h.2⟩
      obtain ⟨p, q, rfl, hp, hq⟩ := exists_lead t
      have hq' : ∀ x ∈ (q ++ '+' :: r).head?, isDigit x = false := by
        cases q with
        | nil => simp [show isDigit '+' = false by decide]
        | cons x q => exact hq
      obtain ⟨htake, hdrop⟩ := lead_append hp hq
      rw [List.append_assoc] at h'
      obtain ⟨htake', hdrop'⟩ := lead_append hp hq'
      rw [List.cons_append, List.append_assoc, evenFraction_cons_of_opens h', evenFraction_cons_of_opens h, htake,
        hdrop, htake', hdrop']
      simp
    · have h' : ¬ OpensFraction c (t ++ '+' :: r) := by
        unfold OpensFraction
        rwa [hhead]
      rw [List.cons_append, evenFraction_cons_of_not_opens h', ih, evenFraction_cons_of_not_opens h, List.cons_append]

/-- Universal time, spelled out as an offset. -/
def zeroOffset : Text := '+' :: "00:00".toList

theorem settled_zeroOffset (t : Text) : Settled (t ++ zeroOffset) := by
  induction t with
  | nil =>
    have hrest : Settled "00:00".toList := by
      have h := separates_append (p := "00:00".toList) (by decide) settled_nil
      rwa [List.append_nil] at h
    exact settled_of_finalOffset? (by decide) hrest
  | cons c t ih => exact separates_cons (finalOffset?_eq_none (.inl (by simp [zeroOffset]))) ih

/-- A final Z is spelled out, and nothing before it depends on it. -/
theorem normalize_of_zulu (d : Text) {c : Char} (hc : c = 'Z' ∨ c = 'z') :
    normalize (d ++ [c]) = evenFraction (separate d) ++ zeroOffset := by
  have hzulu : expandZulu (d ++ [c]) = d ++ zeroOffset := by
    rw [expandZulu_append d (List.cons_ne_nil _ _)]
    rcases hc with rfl | rfl <;> rfl
  unfold normalize
  rw [hzulu, zeroOffset, separate_plus, evenFraction_plus (by decide)]
  exact settled_zeroOffset _ false

/-! ## Dates and the normal form -/

theorem evenFraction_eq_or (t : Text) : evenFraction t = t ∨ '.' ∈ evenFraction t := by
  induction t with
  | nil => exact .inl rfl
  | cons c t ih =>
    by_cases h : OpensFraction c t
    · rw [evenFraction_cons_of_opens h]
      exact .inr (List.mem_cons_self ..)
    · rw [evenFraction_cons_of_not_opens h]
      exact ih.imp (fun h => by rw [h]) (List.mem_cons_of_mem c)

/-- A date of eight digits gets its hyphens, and the other dates stay as they are. -/
theorem separate_of_dateText {t : Text} {n : Nat} (h : Iso.DateText t n) : Iso.DateText (separate t) n := by
  have hstays : ∀ {year : Nat} {c : Char} {u : Text}, isDigit c = false →
      separate (fixed 4 year ++ c :: u) = fixed 4 year ++ c :: u := by
    intro year c u hc
    exact separate_of_takeDigits?_eq_none (takeDigits?_eq_none (c := c) (by simp [fixed_four]) hc)
  have hhyphen : isDigit '-' = false := by decide
  have hW : isDigit 'W' = false := by decide
  cases h with
  | @calendar dashes d hd =>
    cases dashes with
    | false =>
      have htime : (basicTimes []).find? (fun reading => endsHere reading.2) = some ([], []) := rfl
      have hdate := Spelling.separate_dateText ⟨d, 0, 0, none, none⟩ htime
      rw [List.append_nil, List.append_nil, List.append_nil] at hdate
      unfold Spelling.dateText at hdate
      rw [hdate]
      exact .calendar true hd
    | true => simpa [separator, hstays hhyphen] using Iso.DateText.calendar true hd
  | week dashes hn =>
    cases dashes with
    | false => simpa [separator, hstays hW] using Iso.DateText.week false hn
    | true => simpa [separator, hstays hhyphen] using Iso.DateText.week true hn
  | weekday dashes hn =>
    cases dashes with
    | false => simpa [separator, hstays hW] using Iso.DateText.weekday false hn
    | true => simpa [separator, hstays hhyphen] using Iso.DateText.weekday true hn

/-- A text that the hyphens make a date is one without them, and nothing stands behind it. -/
theorem dateText_of_separate {t : Text} {n : Nat} (h : Iso.DateText (separate t) n) : Iso.DateText t n := by
  by_cases hj : Joined t
  · obtain ⟨date, raw, time, rest, rfl, hlen, hdigits, hseparate, htime⟩ := exists_of_joined hj
    rw [hseparate] at h
    have hmonth : ((date.drop 4).take 2).length = 2 := by simp [hlen]
    have hday : (date.drop 6).length = 2 := by simp [hlen]
    have hhead : ∀ c ∈ ((date.drop 4).take 2 ++ '-' :: (date.drop 6 ++ (time ++ rest))).head?, isDigit c = true := by
      obtain ⟨x, u, hu⟩ := List.exists_cons_of_length_pos (hmonth ▸ Nat.zero_lt_two)
      rw [hu]
      rintro c ⟨⟩
      exact hdigits x (List.mem_of_mem_drop (List.mem_of_mem_take (hu ▸ List.mem_cons_self ..)))
    obtain ⟨d, hd, rfl, hyear, hrest⟩ :=
      h.exists_calendar (r := []) (List.append_nil _).symm (by simp [hlen]) hhead
    obtain ⟨hmonth, hrest⟩ := List.append_inj hrest (by rw [hmonth, length_fixed])
    obtain ⟨hday, hend⟩ := List.append_inj (List.cons.inj hrest).2 (by rw [hday, length_fixed])
    obtain ⟨rfl, rfl⟩ := List.append_eq_nil_iff.1 hend
    obtain ⟨-, rfl⟩ | ⟨x, hx, -⟩ := htime
    · have hdate : date = fixed 4 d.year ++ (fixed 2 d.month ++ fixed 2 d.day) := by
        have hdrop : (date.drop 4).drop 2 = date.drop 6 := by rw [List.drop_drop]
        rw [← hyear, ← hmonth, ← hday, ← hdrop, List.take_append_drop, List.take_append_drop]
      rw [hdate]
      simpa [separator] using Iso.DateText.calendar false hd
    · cases hx
  · rwa [separate_of_not_joined hj] at h

/-- A text is brought to a date by the normal form only if it is one. -/
theorem dateText_evenFraction_separate {t : Text} {n : Nat} :
    Iso.DateText (evenFraction (separate t)) n ↔ Iso.DateText t n := by
  constructor
  · intro h
    have hdot : '.' ∉ evenFraction (separate t) := h.not_mem (by decide) (by decide)
    rw [(evenFraction_eq_or (separate t)).resolve_right hdot] at h
    exact dateText_of_separate h
  · intro h
    have hseparate := separate_of_dateText h
    have hdot : '.' ∉ separate t := hseparate.not_mem (by decide) (by decide)
    have hcomma : ',' ∉ separate t := hseparate.not_mem (by decide) (by decide)
    rwa [evenFraction_of_not_mem ⟨hdot, hcomma⟩]

/-! ## Reading -/

/-- A time of day is read without an offset only where no offset opens. -/
theorem opensOffset_of_timeOfDay? {t : Text} {clock : Clock} (h : Iso.timeOfDay? t = some (clock, none)) :
    ∀ c ∈ t, Iso.opensOffset c = false := by
  unfold Iso.timeOfDay? at h
  obtain ⟨p, hp, h⟩ := Option.bind_eq_some_iff.1 h
  split at h
  · rename_i hdrop
    intro c hc
    simpa using List.dropWhile_eq_nil_iff.1 hdrop c hc
  · split at h <;> cases h
  · obtain ⟨z, hz, h⟩ := Option.bind_eq_some_iff.1 h
    cases h

/-- A moment without a zone is read from a date alone: the plus sign is then taken for what separates the time. -/
theorem exists_dateText_of_read? {t : Text} {m : Moment} (h : Iso.read? (t ++ zeroOffset) = some m)
    (hm : m.zone = none) : ∃ n, Iso.DateText t n := by
  obtain ⟨b, r, n, htext, hb, hr⟩ := Iso.exists_of_read? h
  have hplus : '+' ∉ b := hb.not_mem (by decide) (by decide)
  obtain ⟨q, rfl, hq⟩ | ⟨q, rfl, rfl⟩ := List.append_eq_append_iff.1 htext
  · cases q with
    | nil => exact ⟨n, by rwa [List.append_nil] at hb⟩
    | cons x q =>
      rw [← (List.cons.inj hq).1] at hplus
      exact absurd (List.mem_append_right t (List.mem_cons_self ..)) hplus
  · cases q with
    | nil => exact ⟨n, by rwa [List.append_nil]⟩
    | cons x q =>
      rw [List.cons_append, Iso.behind?_cons_eq_some_iff] at hr
      obtain ⟨clock, zone, w, hclock, -, rfl⟩ := hr
      cases hm
      exact absurd (opensOffset_of_timeOfDay? hclock '+' (by simp [zeroOffset])) (by decide)

theorem read?_of_dateText {t : Text} {n : Nat} (h : Iso.DateText t n) :
    ∃ w : WallTime, w.micros = n * microsPerDay ∧ Iso.read? (t ++ zeroOffset) = some { wall := w } := by
  have hbound : n * microsPerDay < dayCount * microsPerDay := Nat.mul_lt_mul_of_pos_right h.lt (by decide)
  refine ⟨⟨n * microsPerDay, hbound⟩, rfl, ?_⟩
  rw [zeroOffset, h.read?_append, Iso.behind?_cons_eq_some_iff]
  have htime : Iso.timeOfDay? "00:00".toList = some ({}, none) :=
    Iso.timeOfDay?_of_clock (p := { numbers := [0, 0] }) (by simp [Iso.opensOffset]) rfl rfl
  refine ⟨{}, none, _, htime, ?_, rfl⟩
  rw [WallTime.ofDay?, if_pos (by decide)]
  exact WallTime.ofMicros?_eq_some_iff.2 (by simp [Clock.micros])

theorem readAny?_of_zulu (d : Text) {c : Char} (hc : c = 'Z' ∨ c = 'z') : Form.readAny? (d ++ [c]) = none := by
  rw [Form.readAny?, List.findSome?_eq_none_iff]
  intro f hf
  rw [← Option.not_isSome_iff_eq_none, Option.isSome_iff_exists]
  rintro ⟨m, hm⟩
  obtain ⟨s, hs, -⟩ := Form.takes_of_read? hm
  have hkind : kind c = .other := by rcases hc with rfl | rfl <;> decide
  exact hs.kind_ne_other hf (List.mem_append_right d (List.mem_singleton_self c)) hkind

theorem written?_of_zulu {t d : Text} {c : Char} (ht : strip t = d ++ [c]) (hc : c = 'Z' ∨ c = 'z') :
    written? t = Iso.read? (evenFraction (separate d) ++ zeroOffset) := by
  unfold written?
  rw [ht, if_neg (by simp), normalize_of_zulu d hc, readAny?_of_zulu d hc]
  cases Iso.read? _ <;> rfl

/-! ## Reading in a zone -/

/-- The zone counts only for a text whose moment has none. -/
theorem read_eq_of_zone_ne_none {t : Text} (h : ∀ m, written? t = some m → m.zone ≠ none) (z z' : Zone) :
    read t z = read t z' := by
  unfold read
  rcases hw : written? t with _ | ⟨wall, later, zone⟩
  · rfl
  · cases zone with
    | none => exact absurd rfl (h _ hw)
    | some own => rfl

/-- The shift of an hour to the east. -/
def hourEast : Shift := { micros := 3600 * microsPerSecond }

/-- A text that ends with the letter Z denotes the same instant in every zone, or none, exactly if something else than a
date alone stands before the letter. A date alone is the start of its day in the zone that it is read in. -/
theorem read_of_zulu [Atlas] {t d : Text} {c : Char} (ht : strip t = d ++ [c]) (hc : c = 'Z' ∨ c = 'z') :
    ((∀ z z', z ≠ .system → z' ≠ .system →
        (read t z).map (Option.map Moment.instant) = (read t z').map (Option.map Moment.instant)) ↔
      ¬ ∃ n, Iso.DateText d n) ∧
    (∀ n, Iso.DateText d n → ∀ z, z ≠ .system →
      ∃ w : WallTime, w.micros = n * microsPerDay ∧ read t z = .ok (some { wall := w, zone := some z })) ∧
    ((¬ ∃ n, Iso.DateText d n) → ∀ z z', read t z = read t z') := by
  have hwritten := written?_of_zulu ht hc
  have hdate : ∀ n, Iso.DateText d n → ∀ z, z ≠ .system →
      ∃ w : WallTime, w.micros = n * microsPerDay ∧ read t z = .ok (some { wall := w, zone := some z }) := by
    intro n hn z hz
    obtain ⟨w, hw, hread⟩ := read?_of_dateText (dateText_evenFraction_separate.2 hn)
    exact ⟨w, hw, read_of_written? hz (hwritten.trans hread)⟩
  have hown : (¬ ∃ n, Iso.DateText d n) → ∀ z z', read t z = read t z' := by
    intro hno
    refine read_eq_of_zone_ne_none fun m hm hzone => hno ?_
    obtain ⟨n, hn⟩ := exists_dateText_of_read? (hwritten.symm.trans hm) hzone
    exact ⟨n, dateText_evenFraction_separate.1 hn⟩
  refine ⟨⟨?_, fun hno z z' _ _ => by rw [hown hno z z']⟩, hdate, hown⟩
  rintro hsame ⟨n, hn⟩
  -- Two zones an hour apart begin the day at different instants.
  have hutc : Zone.utc ≠ .system := by rintro ⟨⟩
  have heast : Zone.chosen hourEast ≠ .system := by rintro ⟨⟩
  obtain ⟨w, hw, hread⟩ := hdate n hn .utc hutc
  obtain ⟨w', hw', hread'⟩ := hdate n hn (.chosen hourEast) heast
  have h := hsame .utc (.chosen hourEast) hutc heast
  rw [hread, hread', WallTime.ext (hw'.trans hw.symm)] at h
  have hinstant : (w.micros : Int) - 0 = w.micros - 3600 * microsPerSecond := Option.some.inj (Except.ok.inj h)
  unfold microsPerSecond at hinstant
  omega

open scoped Place in
/-- With a time of day the letter stands for universal time. -/
theorem read_of_zulu_of_time :
    strip "2024-01-01T10:00Z ".toList = "2024-01-01T10:00".toList ++ ['Z'] ∧
      read "2024-01-01T10:00Z ".toList (.place Place.kolkata.name) = read "2024-01-01T10:00Z ".toList .utc := by
  have ht : strip "2024-01-01T10:00Z ".toList = "2024-01-01T10:00".toList ++ ['Z'] := by decide
  have hno : ¬ ∃ n, Iso.DateText "2024-01-01T10:00".toList n := by
    rintro ⟨n, hn⟩
    exact hn.not_mem (c := ':') (by decide) (by decide) (by decide)
  exact ⟨ht, (read_of_zulu ht (.inl rfl)).2.2 hno (.place Place.kolkata.name) .utc⟩

open scoped Place in
/-- A date alone is read at different instants in two zones, although the letter stands behind it. -/
theorem read_moves_day_of_zulu :
    (read "2024-01-01Z".toList .utc).map (Option.map Moment.instant) ≠
      (read "2024-01-01Z".toList (.place Place.kolkata.name)).map (Option.map Moment.instant) := by
  decide

end Taskbook.Due
