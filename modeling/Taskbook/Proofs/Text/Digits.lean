/-
Numbers in a fixed count of digits. Every character that `fixed` writes is one of the ten ASCII digits,
and the texts of which a number is read are the ones that `fixed` writes.
-/
import Taskbook.Due.Iso
import Taskbook.Text.Blank
import Mathlib.Data.List.Induction
import Mathlib.Tactic.NormNum

namespace Taskbook

namespace Text

/-- What holds of the ten digits holds of all characters of a number. -/
theorem forall_mem_fixed {P : Char → Prop} (h : ∀ d < 10, P (digit d)) {w n : Nat} : ∀ c ∈ fixed w n, P c := by
  induction w generalizing n with
  | zero => intro c hc; cases hc
  | succ w ih =>
    intro c hc
    rw [fixed, List.mem_append, List.mem_singleton] at hc
    rcases hc with hc | rfl
    · exact ih c hc
    · exact h _ (Nat.mod_lt _ (by norm_num))

theorem isDigit_of_mem_fixed {w n : Nat} : ∀ c ∈ fixed w n, isDigit c = true := forall_mem_fixed (by decide)

theorem isDigit_digit (n : Nat) : isDigit (digit (n % 10)) = true :=
  isDigit_of_mem_fixed (w := 1) (n := n) _ (List.mem_singleton_self _)

theorem isAsciiDigit_of_mem_fixed {w n : Nat} : ∀ c ∈ fixed w n, isAsciiDigit c = true := forall_mem_fixed (by decide)

@[simp] theorem not_mem_fixed {c : Char} (hc : isAsciiDigit c = false) (w n : Nat) : c ∉ fixed w n := by
  intro h
  rw [isAsciiDigit_of_mem_fixed c h] at hc
  cases hc

theorem fixed_two (n : Nat) : fixed 2 n = [digit (n / 10 % 10), digit (n % 10)] := rfl

theorem fixed_four (n : Nat) :
    fixed 4 n = [digit (n / 10 / 10 / 10 % 10), digit (n / 10 / 10 % 10), digit (n / 10 % 10), digit (n % 10)] := rfl

/-- A number of at least one digit begins with a digit. -/
theorem getLast?_fixed (w n : Nat) : (fixed (w + 1) n).getLast? = some (digit (n % 10)) := by
  rw [fixed, List.getLast?_append]
  rfl

theorem exists_digit_of_fixed (w n : Nat) : ∃ d t, d < 10 ∧ fixed (w + 1) n = digit d :: t := by
  have hne : fixed (w + 1) n ≠ [] := by
    intro h
    have := length_fixed (w + 1) n
    rw [h] at this
    cases this
  obtain ⟨c, t, hc⟩ := List.exists_cons_of_ne_nil hne
  obtain ⟨d, hd, he⟩ : ∃ d < 10, digit d = c :=
    forall_mem_fixed (P := fun c => ∃ d < 10, digit d = c) (fun d hd => ⟨d, hd, rfl⟩) c (hc ▸ List.mem_cons_self ..)
  exact ⟨d, t, hd, by rw [hc, he]⟩

/-! ## Digits among the other characters -/

theorem isDigit_eq_false_iff {c : Char} : isDigit c = false ↔ ∀ z ∈ zeros, ¬ (z ≤ c.toNat ∧ c.toNat < z + 10) := by
  unfold isDigit digitValue?
  rw [Option.isSome_map, Bool.eq_false_iff, Ne, List.find?_isSome]
  simp

/-- No script but the first has its digits in ASCII. -/
theorem isDigit_of_ascii {c : Char} (h : 58 ≤ c.toNat) (h' : c.toNat < 128) : isDigit c = false := by
  have hzeros : ∀ z ∈ zeros, z = 48 ∨ 128 ≤ z := by decide
  rw [isDigit_eq_false_iff]
  intro z hz
  have := hzeros z hz
  omega

theorem isDigit_of_isBlank {c : Char} (h : isBlank c = true) : isDigit c = false := by
  -- the white space lies between the digits of two scripts
  have hzeros : ∀ z ∈ zeros, 32 < z ∧ (z + 10 ≤ 0x85 ∨ 0xA0 < z) ∧ (z + 10 ≤ 0x1680 ∨ 0x1680 < z) ∧
      (z + 10 ≤ 0x2000 ∨ 0x3000 < z) := by decide
  unfold isBlank at h
  simp only [Bool.or_eq_true, Bool.and_eq_true, decide_eq_true_eq, beq_iff_eq] at h
  rw [isDigit_eq_false_iff]
  intro z hz
  have := hzeros z hz
  omega

end Text

namespace Due.Iso

open Text

theorem asciiDigit?_digit {d : Nat} (h : d < 10) : asciiDigit? (digit d) = some d := by
  revert d; decide

theorem asciiDigit?_eq_some_iff {c : Char} {d : Nat} : asciiDigit? c = some d ↔ d < 10 ∧ c = digit d := by
  constructor
  · intro h
    unfold asciiDigit? at h
    split at h
    · rename_i hc
      simp only [Bool.and_eq_true, decide_eq_true_eq] at hc
      cases h
      refine ⟨by omega, ?_⟩
      rw [digit, Nat.add_sub_cancel' hc.1, Char.ofNat_toNat]
    · cases h
  · rintro ⟨hd, rfl⟩
    exact asciiDigit?_digit hd

theorem number?_append (t : Text) (c : Char) :
    number? (t ++ [c]) = (number? t).bind fun n => (asciiDigit? c).map (10 * n + ·) := by
  unfold number?
  rw [List.foldl_append, List.foldl_cons, List.foldl_nil]

/-- A number is read from its digits, as far as it fits into them. -/
theorem number?_fixed (w n : Nat) : number? (fixed w n) = some (n % 10 ^ w) := by
  induction w generalizing n with
  | zero => rw [pow_zero, Nat.mod_one]; rfl
  | succ w ih =>
    rw [fixed, number?_append, ih, asciiDigit?_digit (Nat.mod_lt _ (by norm_num)), Option.bind_some, Option.map_some,
      pow_succ', Nat.mod_mul, Nat.add_comm]

theorem number?_eq_some_iff {t : Text} {n : Nat} : number? t = some n ↔ n < 10 ^ t.length ∧ t = fixed t.length n := by
  constructor
  · intro h
    induction t using List.reverseRecOn generalizing n with
    | nil => cases h; exact ⟨by norm_num, rfl⟩
    | append_singleton t c ih =>
      rw [number?_append] at h
      obtain ⟨m, hm, h⟩ := Option.bind_eq_some_iff.1 h
      obtain ⟨d, hd, rfl⟩ := Option.map_eq_some_iff.1 h
      obtain ⟨hlt, rfl⟩ := asciiDigit?_eq_some_iff.1 hd
      obtain ⟨hm, ht⟩ := ih hm
      have hdiv : (10 * m + d) / 10 = m := by omega
      have hmod : (10 * m + d) % 10 = d := by omega
      rw [List.length_append, List.length_singleton, fixed, hdiv, hmod, ← ht, pow_succ]
      exact ⟨by omega, rfl⟩
  · rintro ⟨hn, ht⟩
    rw [ht, number?_fixed, Nat.mod_eq_of_lt hn]

theorem digits?_fixed (w n : Nat) (t : Text) : digits? w (fixed w n ++ t) = some (n % 10 ^ w, t) := by
  unfold digits?
  rw [if_pos (by rw [List.length_append, length_fixed]; omega), List.take_left' (length_fixed w n),
    List.drop_left' (length_fixed w n), number?_fixed]
  rfl

theorem digits?_fixed_of_lt {w n : Nat} (h : n < 10 ^ w) (t : Text) : digits? w (fixed w n ++ t) = some (n, t) := by
  rw [digits?_fixed, Nat.mod_eq_of_lt h]

theorem digits?_eq_some_iff {w n : Nat} {t r : Text} : digits? w t = some (n, r) ↔ n < 10 ^ w ∧ t = fixed w n ++ r := by
  constructor
  · intro h
    unfold digits? at h
    split at h
    · rename_i hw
      obtain ⟨m, hm, h⟩ := Option.map_eq_some_iff.1 h
      cases h
      have hlen : (t.take w).length = w := List.length_take_of_le hw
      obtain ⟨hn, ht⟩ := number?_eq_some_iff.1 hm
      rw [hlen] at hn ht
      refine ⟨hn, ?_⟩
      rw [← ht, List.take_append_drop]
    · cases h
  · rintro ⟨hn, rfl⟩
    exact digits?_fixed_of_lt hn r

end Due.Iso

end Taskbook
