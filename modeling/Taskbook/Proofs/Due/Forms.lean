/-
The texts of the everyday forms. A text that a form reads is made up of parts, one for each item. What tells the forms
from each other can be seen in the text: its marks, whether it has letters, and whether it begins with a year. Only the
forms with the name of a month come in pairs that share texts, and these read the same from them.
-/
import Taskbook.Proofs.Due.Stability

namespace Taskbook.Due

open Text Calendar

/-! ## Characters -/

/-- A character whose lower case is a letter of ASCII is one itself. -/
theorem toNat_of_toLower {c : Char} (h : 97 ≤ c.toLower.toNat ∧ c.toLower.toNat ≤ 122) :
    65 ≤ c.toNat ∧ c.toNat ≤ 122 := by
  unfold Char.toLower at h
  split at h
  · rename_i hupper
    have hl := UInt32.le_iff_toNat_le.1 hupper.1
    have hg := UInt32.le_iff_toNat_le.1 hupper.2
    exact ⟨hl, hg.trans (by decide)⟩
  · omega

/-- What a character can stand for in a form. -/
inductive Kind
  | digit
  | blank
  | letter
  | mark
  | other
  deriving DecidableEq

/-- The letters of the names of the months and of the halves of the day. -/
def nameChars : Text := monthNames.flatten ++ ['a', 'm', 'p']

def kind (c : Char) : Kind :=
  if isDigit c then .digit
  else if isBlank c then .blank
  else if c.toLower ∈ nameChars then .letter
  else if c ∈ ['-', '/', ':', ','] then .mark
  else .other

theorem kind_eq_digit_iff {c : Char} : kind c = .digit ↔ isDigit c = true := by
  unfold kind
  split_ifs <;> simp_all

theorem kind_of_isBlank {c : Char} (h : isBlank c = true) : kind c = .blank := by
  unfold kind
  rw [isDigit_of_isBlank h, if_neg (by simp), if_pos h]

theorem kind_of_mem_nameChars {c : Char} (h : c.toLower ∈ nameChars) : kind c = .letter := by
  have hletters : ∀ d ∈ nameChars, 97 ≤ d.toNat ∧ d.toNat ≤ 122 := by
    simpa using List.all_eq_true.1 (by decide : nameChars.all (fun d => 97 ≤ d.toNat && d.toNat ≤ 122) = true)
  obtain ⟨hl, hg⟩ := toNat_of_toLower (hletters _ h)
  have hblank : isBlank c = false := by
    simp [isBlank]
    omega
  unfold kind
  rw [isDigit_of_ascii (by omega) (by omega), if_neg (by simp), hblank, if_neg (by simp), if_pos h]

/-! ## Numbers -/

/-- The number that a row of digits of any script writes. -/
def rowValue (t : Text) : Nat := t.foldl (fun n c => 10 * n + (digitValue? c).getD 0) 0

theorem rowValue_fixed (w n : Nat) : rowValue (fixed w n) = n % 10 ^ w := by
  induction w generalizing n with
  | zero => rw [pow_zero, Nat.mod_one]; rfl
  | succ w ih =>
    have hdigit : digitValue? (digit (n % 10)) = some (n % 10) :=
      (by decide : ∀ d < 10, digitValue? (digit d) = some d) _ (Nat.mod_lt _ (by norm_num))
    have happend : rowValue (fixed w (n / 10) ++ [digit (n % 10)]) = 10 * rowValue (fixed w (n / 10)) + n % 10 := by
      simp [rowValue, hdigit]
    rw [fixed, happend, ih, pow_succ', Nat.mod_mul, Nat.add_comm]

/-- How many digits a number can have. -/
def Part.widths : Part → List Nat
  | year => [4]
  | _ => [1, 2]

theorem Digit.digitValue?_of_value? {p : Digit} (hp : p ≠ .blank) {c : Char} {v : Nat} (h : p.value? c = some v) :
    digitValue? c = some v := by
  cases p with
  | among lo hi =>
    obtain ⟨hv, -⟩ := Option.filter_eq_some_iff.1 h
    obtain ⟨hlt, rfl⟩ := Iso.asciiDigit?_eq_some_iff.1 hv
    exact (by decide : ∀ v < 10, digitValue? (digit v) = some v) v hlt
  | any => exact h
  | blank => exact absurd rfl hp

/-- Places without a blank are filled by as many digits. -/
theorem Digit.exists_row {places : List Digit} (hp : .blank ∉ places) {n v : Nat} {t rest : Text}
    (h : read? places n t = some (v, rest)) :
    ∃ row, t = row ++ rest ∧ row.length = places.length ∧ (∀ c ∈ row, isDigit c = true) ∧
      v = row.foldl (fun n c => 10 * n + (digitValue? c).getD 0) n := by
  induction places generalizing n t with
  | nil => cases h; exact ⟨[], rfl, rfl, nofun, rfl⟩
  | cons p places ih =>
    cases t with
    | nil => cases h
    | cons c t =>
      simp only [List.mem_cons, not_or] at hp
      obtain ⟨d, hd, h⟩ := Option.bind_eq_some_iff.1 h
      have hc := digitValue?_of_value? (Ne.symm hp.1) hd
      obtain ⟨row, rfl, hlen, hrow, rfl⟩ := ih hp.2 h
      refine ⟨c :: row, rfl, by simp [hlen], ?_, by simp [hc]⟩
      rintro x (_ | ⟨_, hx⟩)
      · simp [isDigit, hc]
      · exact hrow x hx

/-- What a number of a form is read from: a row of digits, behind a blank if it is a day of one digit. -/
theorem Part.exists_row {part : Part} {places : List Digit} (hp : places ∈ part.spellings) {n : Nat} {t rest : Text}
    (h : Digit.read? places 0 t = some (n, rest)) :
    ∃ pre row, t = pre ++ row ++ rest ∧ (pre = [] ∨ part = .day ∧ pre = [' ']) ∧
      row.length ∈ part.widths ∧ (∀ c ∈ row, isDigit c = true) ∧ n = rowValue row := by
  have hspellings : ∀ places ∈ part.spellings, .blank ∉ places ∧ places.length ∈ part.widths ∨
      part = .day ∧ places = [.blank, .among 1 9] := by
    cases part <;> decide
  rcases hspellings places hp with ⟨hblank, hlen⟩ | ⟨rfl, rfl⟩
  · obtain ⟨row, rfl, hrow, hdigits, rfl⟩ := Digit.exists_row hblank h
    exact ⟨[], row, rfl, .inl rfl, hrow ▸ hlen, hdigits, rfl⟩
  · cases t with
    | nil => cases h
    | cons c t =>
      obtain ⟨d, hd, h⟩ := Option.bind_eq_some_iff.1 h
      obtain ⟨row, rfl, hrow, hdigits, rfl⟩ := Digit.exists_row (by decide) h
      unfold Digit.value? at hd
      simp only [Option.ite_none_right_eq_some, Option.some.injEq] at hd
      obtain ⟨rfl, rfl⟩ := hd
      exact ⟨[' '], row, by simp, .inr ⟨rfl, rfl⟩, by simp [hrow, widths], hdigits, rfl⟩

/-! ## Items -/

namespace Item

/-- An item takes the whole text, and fills its part into the stamp. -/
inductive Takes : Item → Text → Stamp → Stamp → Prop
  | number {part : Part} {pre row : Text} {s : Stamp} :
      pre = [] ∨ part = .day ∧ pre = [' '] → row.length ∈ part.widths →
    (∀ c ∈ row, isDigit c = true) → Takes (.number part) (pre ++ row) s (s.set part (rowValue row))
  | monthName {name : Text} {n : Nat} {s : Stamp} : (name.map Char.toLower, n) ∈ monthNames.zipIdx 1 →
    Takes .monthName name s (s.set .month n)
  | shortName {name : Text} {n : Nat} {s : Stamp} :
    (name.map Char.toLower, n) ∈ (monthNames.map (·.take 3)).zipIdx 1 → Takes .shortName name s (s.set .month n)
  | am {word : Text} {s : Stamp} : word.map Char.toLower = ['a', 'm'] → Takes .half word s { s with half := some .am }
  | pm {word : Text} {s : Stamp} : word.map Char.toLower = ['p', 'm'] → Takes .half word s { s with half := some .pm }
  | blanks {p : Text} {s : Stamp} : p ≠ [] → (∀ c ∈ p, isBlank c = true) → Takes .blanks p s s
  | mark {c : Char} {s : Stamp} : Takes (.mark c) [c] s s

theorem exists_of_takeWord? {word t rest : Text} (h : takeWord? word t = some rest) :
    ∃ p, t = p ++ rest ∧ p.map Char.toLower = word := by
  unfold takeWord? at h
  split at h
  · rename_i hword
    cases h
    exact ⟨t.take word.length, (List.take_append_drop _ _).symm, hword⟩
  · cases h

theorem exists_of_mem_nameReadings {names : List Text} {t rest : Text} {n : Nat}
    (h : (n, rest) ∈ nameReadings names t) :
    ∃ p, t = p ++ rest ∧ (p.map Char.toLower, n) ∈ names.zipIdx 1 := by
  unfold nameReadings at h
  obtain ⟨⟨name, k⟩, hmem, h⟩ := List.mem_filterMap.1 h
  obtain ⟨r, hr, h⟩ := Option.map_eq_some_iff.1 h
  cases h
  obtain ⟨p, rfl, rfl⟩ := exists_of_takeWord? hr
  exact ⟨p, rfl, hmem⟩

/-- Of the blanks at the start some are taken. -/
theorem take_blanks {t : Text} {i : Nat} (h : i < (t.takeWhile isBlank).length) :
    t.take (i + 1) ≠ [] ∧ ∀ c ∈ t.take (i + 1), isBlank c = true := by
  have hstart : t.take (i + 1) <+: t.takeWhile isBlank :=
    List.prefix_of_prefix_length_le (List.take_prefix _ _) (List.takeWhile_prefix _)
      ((List.length_take_le _ _).trans h)
  refine ⟨fun hnil => ?_, fun c hc => List.all_eq_true.1 List.all_takeWhile c (hstart.subset hc)⟩
  obtain ⟨⟨⟩⟩ | rfl := List.take_eq_nil_iff.1 hnil
  exact absurd h (Nat.not_lt_zero i)

theorem takes_of_mem_readings {item : Item} {s s' : Stamp} {t rest : Text} (h : (s', rest) ∈ item.readings s t) :
    ∃ p, t = p ++ rest ∧ item.Takes p s s' := by
  cases item with
  | number part =>
    obtain ⟨places, hp, h⟩ := List.mem_filterMap.1 h
    obtain ⟨⟨n, r⟩, hread, h⟩ := Option.map_eq_some_iff.1 h
    cases h
    obtain ⟨pre, row, rfl, hpre, hlen, hrow, rfl⟩ := Part.exists_row hp hread
    exact ⟨pre ++ row, rfl, .number hpre hlen hrow⟩
  | monthName =>
    obtain ⟨⟨n, r⟩, hmem, h⟩ := List.mem_map.1 h
    cases h
    obtain ⟨p, rfl, hname⟩ := exists_of_mem_nameReadings hmem
    exact ⟨p, rfl, .monthName hname⟩
  | shortName =>
    obtain ⟨⟨n, r⟩, hmem, h⟩ := List.mem_map.1 h
    cases h
    obtain ⟨p, rfl, hname⟩ := exists_of_mem_nameReadings hmem
    exact ⟨p, rfl, .shortName hname⟩
  | half =>
    rcases List.mem_append.1 h with h | h <;> rw [Option.mem_toList, Option.map_eq_some_iff] at h <;>
      obtain ⟨r, hr, h⟩ := h <;> cases h <;> obtain ⟨p, rfl, hword⟩ := exists_of_takeWord? hr
    · exact ⟨p, rfl, .am hword⟩
    · exact ⟨p, rfl, .pm hword⟩
  | blanks =>
    obtain ⟨i, hi, h⟩ := List.mem_map.1 h
    cases h
    rw [List.mem_reverse, List.mem_range] at hi
    obtain ⟨hne, hblank⟩ := take_blanks hi
    exact ⟨t.take (i + 1), (List.take_append_drop _ _).symm, .blanks hne hblank⟩
  | mark c =>
    cases t with
    | nil => cases h
    | cons x t =>
      rcases eq_or_ne x c with rfl | hx
      · have h : (s', rest) ∈ [(s, t)] := by simpa [readings] using h
        cases List.mem_singleton.1 h
        exact ⟨[x], rfl, .mark⟩
      · simp [readings, hx] at h

end Item

/-! ## Forms -/

namespace Form

/-- The items of a form take a text from a stamp to another one, each of them its part. -/
inductive Takes : Form → Text → Stamp → Stamp → Prop
  | nil {s : Stamp} : Takes [] [] s s
  | cons {item : Item} {items : Form} {p t : Text} {s s' s'' : Stamp} : item.Takes p s s' → Takes items t s' s'' →
    Takes (item :: items) (p ++ t) s s''

theorem takes_of_mem_readings {f : Form} {s s' : Stamp} {t : Text} (h : s' ∈ f.readings s t) : f.Takes t s s' := by
  induction f generalizing s t with
  | nil =>
    cases t with
    | nil => cases List.mem_singleton.1 h; exact .nil
    | cons c t => cases h
  | cons item items ih =>
    obtain ⟨⟨s'', rest⟩, hitem, hitems⟩ := List.mem_flatMap.1 h
    obtain ⟨p, rfl, hp⟩ := Item.takes_of_mem_readings hitem
    exact .cons hp (ih hitems)

theorem takes_of_read? {f : Form} {t : Text} {m : Moment} (h : f.read? t = some m) :
    ∃ s, f.Takes t {} s ∧ s.moment? = some m := by
  obtain ⟨s, hs, hm⟩ := Option.bind_eq_some_iff.1 h
  exact ⟨s, takes_of_mem_readings (List.mem_of_mem_head? hs), hm⟩

end Form

/-! ## What items and forms show -/

namespace Item

/-- What the characters of an item are, but for the blank before a day. -/
def kind : Item → Kind
  | number _ => .digit
  | monthName | shortName | half => .letter
  | blanks => .blank
  | mark c => Due.kind c

/-- The marks that an item shows. -/
def marks : Item → Text
  | mark c => [c].filter (Due.kind · = .mark)
  | _ => []

theorem kind_of_mem_name (short : Bool) {name : Text} {n : Nat}
    (h : (name.map Char.toLower, n) ∈ (if short then monthNames.map (·.take 3) else monthNames).zipIdx 1) :
    name ≠ [] ∧ ∀ c ∈ name, Due.kind c = .letter := by
  have hnames : ∀ e ∈ (if short then monthNames.map (·.take 3) else monthNames).zipIdx 1,
      e.1 ≠ [] ∧ e.1 ⊆ nameChars := by
    cases short <;> decide
  obtain ⟨hne, hsub⟩ := hnames _ h
  refine ⟨fun hnil => hne (by rw [hnil]; rfl), fun c hc => ?_⟩
  exact kind_of_mem_nameChars (hsub (List.mem_map_of_mem hc))

theorem kind_of_mem_word {word half : Text} (h : word.map Char.toLower = half) (hne : half ≠ [])
    (hsub : half ⊆ nameChars) :
    word ≠ [] ∧ ∀ c ∈ word, Due.kind c = .letter := by
  refine ⟨fun hnil => hne (by rw [← h, hnil]; rfl), fun c hc => ?_⟩
  exact kind_of_mem_nameChars (hsub (h ▸ List.mem_map_of_mem hc))

variable {item : Item} {p : Text} {s s' : Stamp}

theorem Takes.ne_nil (h : item.Takes p s s') : p ≠ [] := by
  cases h with
  | @number part pre row _ _ hlen _ =>
    have hrow : row ≠ [] := by
      rintro rfl
      revert hlen
      cases part <;> decide
    exact List.append_ne_nil_of_right_ne_nil _ hrow
  | monthName hname => exact (kind_of_mem_name false hname).1
  | shortName hname => exact (kind_of_mem_name true hname).1
  | am hword => exact (kind_of_mem_word hword (by decide) (by decide)).1
  | pm hword => exact (kind_of_mem_word hword (by decide) (by decide)).1
  | blanks hne _ => exact hne
  | mark => exact List.cons_ne_nil _ _

theorem Takes.kind_of_mem (h : item.Takes p s s') {c : Char} (hc : c ∈ p) :
    Due.kind c = item.kind ∨ item.kind = .digit ∧ Due.kind c = .blank := by
  cases h with
  | number hpre _ hrow =>
    rcases List.mem_append.1 hc with hc | hc
    · rcases hpre with rfl | ⟨-, rfl⟩
      · cases hc
      · cases List.mem_singleton.1 hc
        exact .inr ⟨rfl, kind_of_isBlank (by decide)⟩
    · exact .inl (kind_eq_digit_iff.2 (hrow c hc))
  | monthName hname => exact .inl ((kind_of_mem_name false hname).2 c hc)
  | shortName hname => exact .inl ((kind_of_mem_name true hname).2 c hc)
  | am hword => exact .inl ((kind_of_mem_word hword (by decide) (by decide)).2 c hc)
  | pm hword => exact .inl ((kind_of_mem_word hword (by decide) (by decide)).2 c hc)
  | blanks _ hblank => exact .inl (kind_of_isBlank (hblank c hc))
  | mark => cases List.mem_singleton.1 hc; exact .inl rfl

theorem Takes.filter_eq_nil (h : item.Takes p s s') {k : Kind} (hk : item.kind ≠ k) (hblank : k ≠ .blank) :
    p.filter (Due.kind · = k) = [] := by
  rw [List.filter_eq_nil_iff]
  intro c hc
  rcases h.kind_of_mem hc with h | ⟨-, h⟩ <;> simp [h, hk, hblank.symm]

theorem Takes.filter_eq_self (h : item.Takes p s s') (hk : item.kind ≠ .digit) :
    p.filter (Due.kind · = item.kind) = p := by
  rw [List.filter_eq_self]
  intro c hc
  rcases h.kind_of_mem hc with h | ⟨h, -⟩
  · simp [h]
  · exact absurd h hk

/-- The first character behind the digits before an item that takes none. -/
theorem Takes.head?_append (h : item.Takes p s s') (hk : item.kind ≠ .digit) (u : Text) :
    ∀ c ∈ (p ++ u).head?, isDigit c = false := by
  intro c hc
  obtain ⟨x, p, rfl⟩ := List.exists_cons_of_ne_nil h.ne_nil
  cases hc
  rw [Bool.eq_false_iff, Ne, ← kind_eq_digit_iff]
  rcases h.kind_of_mem (List.mem_cons_self ..) with h | ⟨h, -⟩
  · rwa [h]
  · exact absurd h hk

theorem Takes.filter_mark (h : item.Takes p s s') : p.filter (Due.kind · = .mark) = item.marks := by
  cases item with
  | mark c => cases h; rfl
  | _ => exact h.filter_eq_nil nofun nofun

theorem Takes.filter_letter (h : item.Takes p s s') : p.filter (Due.kind · = .letter) = [] ↔ item.kind ≠ .letter := by
  constructor
  · intro hnil hk
    rw [← hk, h.filter_eq_self (by rw [hk]; nofun)] at hnil
    exact h.ne_nil hnil
  · intro hk
    exact h.filter_eq_nil hk nofun

/-- A number is that of the digits in what it takes. -/
theorem Takes.of_number {part : Part} (h : (Item.number part).Takes p s s') :
    s' = s.set part (rowValue (p.filter (Due.kind · = .digit))) ∧
      (p.filter (Due.kind · = .digit)).length ∈ part.widths ∧ p.filter (Due.kind · = .letter) = [] := by
  have hletter : p.filter (Due.kind · = .letter) = [] := h.filter_eq_nil nofun nofun
  cases h with
  | @number _ pre row _ hpre hlen hrow =>
    have hdigits : (pre ++ row).filter (Due.kind · = .digit) = row := by
      have hrow' : row.filter (Due.kind · = .digit) = row :=
        List.filter_eq_self.2 fun c hc => decide_eq_true (kind_eq_digit_iff.2 (hrow c hc))
      rw [List.filter_append, hrow']
      rcases hpre with rfl | ⟨-, rfl⟩
      · rfl
      · simp [kind_of_isBlank (show isBlank ' ' = true by decide)]
    rw [hdigits]
    exact ⟨rfl, hlen, hletter⟩

theorem Takes.of_separator (h : item.Takes p s s') (hi : item = .blanks ∨ item = .mark ',') :
    s' = s ∧ p.filter (Due.kind · = .digit) = [] ∧ p.filter (Due.kind · = .letter) = [] := by
  rcases hi with rfl | rfl
  · exact ⟨by cases h; rfl, h.filter_eq_nil nofun nofun, h.filter_eq_nil nofun nofun⟩
  · exact ⟨by cases h; rfl, h.filter_eq_nil (by decide) nofun, h.filter_eq_nil (by decide) nofun⟩

/-- The name of a month, in full or in three letters. -/
def name (short : Bool) : Item := if short then .shortName else .monthName

theorem Takes.of_name {short : Bool} (h : (name short).Takes p s s') :
    ∃ n, (p.map Char.toLower, n) ∈ monthNames.zipIdx 1 ++ (monthNames.map (·.take 3)).zipIdx 1 ∧ s' = s.set .month n ∧
      p.filter (Due.kind · = .digit) = [] ∧ p.filter (Due.kind · = .letter) = p := by
  have hkind : (name short).kind = .letter := by cases short <;> rfl
  have hdigit : p.filter (Due.kind · = .digit) = [] := h.filter_eq_nil (by rw [hkind]; nofun) nofun
  have hletter := h.filter_eq_self (by rw [hkind]; nofun)
  rw [hkind] at hletter
  cases short with
  | false =>
    cases h with
    | monthName hname => exact ⟨_, List.mem_append_left _ hname, rfl, hdigit, hletter⟩
  | true =>
    cases h with
    | shortName hname => exact ⟨_, List.mem_append_right _ hname, rfl, hdigit, hletter⟩

end Item

namespace Form

def marks (f : Form) : Text := f.flatMap Item.marks

variable {f : Form} {t : Text} {s s' : Stamp}

theorem Takes.exists_item (h : f.Takes t s s') {c : Char} (hc : c ∈ t) :
    kind c = .blank ∨ ∃ item ∈ f, kind c = item.kind := by
  induction h with
  | nil => cases hc
  | @cons item items p t s s' s'' hp _ ih =>
    rcases List.mem_append.1 hc with hc | hc
    · rcases hp.kind_of_mem hc with h | ⟨-, h⟩
      · exact .inr ⟨item, List.mem_cons_self .., h⟩
      · exact .inl h
    · exact (ih hc).imp_right fun ⟨item, hmem, h⟩ => ⟨item, List.mem_cons_of_mem _ hmem, h⟩

theorem Takes.kind_ne_other (hf : f ∈ all) (h : f.Takes t s s') {c : Char} (hc : c ∈ t) : kind c ≠ .other := by
  have hkinds : ∀ f ∈ all, ∀ item ∈ f, item.kind ≠ .other := by decide
  rcases h.exists_item hc with h | ⟨item, hmem, h⟩ <;> rw [h]
  · nofun
  · exact hkinds f hf item hmem

theorem Takes.filter_mark (h : f.Takes t s s') : t.filter (kind · = .mark) = f.marks := by
  induction h with
  | nil => rfl
  | cons hp _ ih => rw [List.filter_append, hp.filter_mark, ih]; rfl

theorem Takes.filter_letter (h : f.Takes t s s') :
    t.filter (kind · = .letter) = [] ↔ ∀ item ∈ f, item.kind ≠ .letter := by
  induction h with
  | nil => simp
  | cons hp _ ih => rw [List.filter_append, List.append_eq_nil_iff, hp.filter_letter, ih, List.forall_mem_cons]

/-- Behind a number in the first place there is no other one. -/
def opens : Form → Bool
  | .number _ :: item :: _ => item.kind ≠ .digit
  | item :: _ => item.kind ≠ .digit
  | [] => false

theorem opens_of_mem_all : ∀ f ∈ all, f.opens = true := by decide

/-- At most four digits stand at the start, and four exactly if the year is the first item. -/
theorem Takes.lead (hf : f.opens = true) (h : f.Takes t s s') :
    (t.takeWhile isDigit).length ≤ 4 ∧
      ((t.takeWhile isDigit).length = 4 ↔ f.head? = some (.number .year)) := by
  cases h with
  | nil => cases hf
  | @cons item items p t _ s'' _ hp ht =>
    by_cases hnumber : ∃ part, item = .number part
    · obtain ⟨part, rfl⟩ := hnumber
      cases ht with
      | nil => cases hf
      | @cons item' items' p' t' _ _ _ hp' _ =>
        have hnext := hp'.head?_append (by simpa [opens] using hf) t'
        cases hp with
        | @number _ pre row _ hpre hlen hrow =>
          rcases hpre with rfl | ⟨rfl, rfl⟩
          · rw [List.nil_append, (lead_append hrow hnext).1, List.head?_cons]
            revert hlen
            cases part <;> simp [Part.widths] <;> omega
          · have hblank : isDigit ' ' = false := by decide
            simp [hblank]
    · have hk : item.kind ≠ .digit := by
        cases item <;> simp_all [opens]
      have hempty : (p ++ t).takeWhile isDigit = [] := (lead_append (p := []) nofun (hp.head?_append hk t)).1
      rw [hempty]
      refine ⟨by simp, nofun, fun h => ?_⟩
      cases h
      exact absurd rfl hk

end Form

/-- What tells the forms: the marks, whether there are no letters, and whether a year stands at the start. -/
structure Outline where
  marks : Text
  unlettered : Bool
  yearFirst : Bool
  deriving DecidableEq

def outline (t : Text) : Outline where
  marks := t.filter (kind · = .mark)
  unlettered := t.filter (kind · = .letter) = []
  yearFirst := (t.takeWhile isDigit).length = 4

namespace Form

def outline (f : Form) : Outline where
  marks := f.marks
  unlettered := List.all f (·.kind ≠ .letter)
  yearFirst := f.head? = some (.number .year)

theorem Takes.outline_eq (hf : f ∈ all) (h : f.Takes t s s') : Due.outline t = f.outline := by
  unfold Due.outline outline
  rw [h.filter_mark, Outline.mk.injEq]
  refine ⟨rfl, ?_, ?_⟩
  · rw [Bool.eq_iff_iff, decide_eq_true_eq, h.filter_letter]
    simp
  · exact decide_eq_decide.2 (h.lead (opens_of_mem_all f hf)).2

/-- The forms with the name of a month. -/
def named : List Form :=
  [false, true].flatMap fun short =>
    [[.number .day, .blanks, .name short, .blanks, .number .year],
      [.name short, .blanks, .number .day, .mark ',', .blanks, .number .year]]

theorem eq_or_named_of_outline :
    ∀ f ∈ all, ∀ g ∈ all, f.outline = g.outline → f = g ∨ f ∈ named ∧ g ∈ named := by
  decide

end Form

/-! ## The names of the months -/

/-- The stamp that the digits and the letters of a text tell, the year being the last four digits. -/
def Tells (t : Text) (s : Stamp) : Prop :=
  ∃ day year n, t.filter (kind · = .digit) = day ++ year ∧ year.length = 4 ∧
    ((t.filter (kind · = .letter)).map Char.toLower, n) ∈ monthNames.zipIdx 1 ++ (monthNames.map (·.take 3)).zipIdx 1 ∧
    s = { date := ⟨rowValue year, n, rowValue day⟩ }

theorem Tells.unique {t : Text} {s s' : Stamp} (h : Tells t s) (h' : Tells t s') : s = s' := by
  obtain ⟨day, year, n, hdigits, hyear, hname, rfl⟩ := h
  obtain ⟨day', year', n', hdigits', hyear', hname', rfl⟩ := h'
  -- May has three letters, and every other name differs from the short ones
  have hnames : ∀ e ∈ monthNames.zipIdx 1 ++ (monthNames.map (·.take 3)).zipIdx 1,
      ∀ e' ∈ monthNames.zipIdx 1 ++ (monthNames.map (·.take 3)).zipIdx 1, e.1 = e'.1 → e.2 = e'.2 := by decide
  obtain ⟨rfl, rfl⟩ := List.append_inj' (hdigits.symm.trans hdigits') (hyear.trans hyear'.symm)
  cases hnames _ hname _ hname' rfl
  rfl

theorem tells_of_takes {f : Form} (hf : f ∈ Form.named) {t : Text} {s : Stamp} (h : f.Takes t {} s) : Tells t s := by
  obtain ⟨short, rfl | rfl⟩ : ∃ short : Bool, f = [.number .day, .blanks, .name short, .blanks, .number .year] ∨
      f = [.name short, .blanks, .number .day, .mark ',', .blanks, .number .year] := by
    simpa [Form.named, or_assoc] using hf
  · rcases h with _ | ⟨hday, _ | ⟨hblanks, _ | ⟨hname, _ | ⟨hblanks', _ | ⟨hyear, _ | _⟩⟩⟩⟩⟩
    obtain ⟨rfl, -, hletter⟩ := hday.of_number
    obtain ⟨rfl, hdigit₁, hletter₁⟩ := hblanks.of_separator (.inl rfl)
    obtain ⟨n, hn, rfl, hdigit₂, hletter₂⟩ := hname.of_name
    obtain ⟨rfl, hdigit₃, hletter₃⟩ := hblanks'.of_separator (.inl rfl)
    obtain ⟨rfl, hwidth, hletter₄⟩ := hyear.of_number
    refine ⟨_, _, n, ?_, List.mem_singleton.1 hwidth, ?_, rfl⟩
    · simp [hdigit₁, hdigit₂, hdigit₃]
    · simpa [hletter, hletter₁, hletter₂, hletter₃, hletter₄] using hn
  · rcases h with _ | ⟨hname, _ | ⟨hblanks, _ | ⟨hday, _ | ⟨hmark, _ | ⟨hblanks', _ | ⟨hyear, _ | _⟩⟩⟩⟩⟩⟩
    obtain ⟨n, hn, rfl, hdigit, hletter⟩ := hname.of_name
    obtain ⟨rfl, hdigit₁, hletter₁⟩ := hblanks.of_separator (.inl rfl)
    obtain ⟨rfl, -, hletter₂⟩ := hday.of_number
    obtain ⟨rfl, hdigit₃, hletter₃⟩ := hmark.of_separator (.inr rfl)
    obtain ⟨rfl, hdigit₄, hletter₄⟩ := hblanks'.of_separator (.inl rfl)
    obtain ⟨rfl, hwidth, hletter₅⟩ := hyear.of_number
    refine ⟨_, _, n, ?_, List.mem_singleton.1 hwidth, ?_, rfl⟩
    · simp [hdigit, hdigit₁, hdigit₃, hdigit₄]
    · simpa [hletter, hletter₁, hletter₂, hletter₃, hletter₄, hletter₅] using hn

/-- No text is read in two ways by two forms. -/
theorem Form.eq_of_read? {f g : Form} (hf : f ∈ Form.all) (hg : g ∈ Form.all) {t : Text} {m m' : Moment}
    (h : f.read? t = some m) (h' : g.read? t = some m') : m = m' := by
  obtain ⟨s, hs, hm⟩ := takes_of_read? h
  obtain ⟨s', hs', hm'⟩ := takes_of_read? h'
  rcases eq_or_named_of_outline f hf g hg ((hs.outline_eq hf).symm.trans (hs'.outline_eq hg)) with rfl | ⟨hf, hg⟩
  · exact Option.some.inj (h.symm.trans h')
  · rw [(tells_of_takes hf hs).unique (tells_of_takes hg hs')] at hm
    exact Option.some.inj (hm.symm.trans hm')

end Taskbook.Due
