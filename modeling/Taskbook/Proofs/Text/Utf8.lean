/-
UTF-8 and back. The octets written for a character begin with one that promises exactly the others, so
reading what is written gives the text again.
-/
import Taskbook.Text.Utf8
import Mathlib.Logic.Basic

namespace Taskbook.Utf8

theorem toNat_ofNat {n : Nat} (h : n < 256) : (UInt8.ofNat n).toNat = n := by
  rw [UInt8.toNat_ofNat', Nat.mod_eq_of_lt (by simpa using h)]

/-- An octet that continues a character within bounds adds six bits. -/
theorem following_cons (owed taken value : Nat) {least greatest n : Nat} (hn : n < 256) (hl : least ≤ n)
    (hg : n ≤ greatest) (rest : Octets) :
    following (owed + 1) least greatest taken value (UInt8.ofNat n :: rest) =
      following owed 0x80 0xBF (taken + 1) (value * 0x40 + (n - 0x80)) rest := by
  rw [following, toNat_ofNat hn, if_pos (by simp [hl, hg])]

/-- The first octet of a character and those that follow it. -/
theorem decodeFrom_cons {octet : UInt8} {l : Lead} {value : Nat} {rest tail : Octets} (hl : lead? octet = some l)
    (hf : following l.following l.least l.greatest 1 l.value rest = .ok (value, tail)) (position : Nat) :
    decodeFrom position (octet :: rest) =
      (decodeFrom (position + 1 + l.following) tail).map (Char.ofNat value :: ·) := by
  rw [decodeFrom]
  split
  · rename_i h; rw [hl] at h; cases h
  · rename_i l' h
    rw [hl] at h
    cases h
    split
    · rename_i h; rw [hf] at h; cases h
    · rename_i h; rw [hf] at h; cases h; rfl

/-! ## The first octet of each length -/

variable {n : Nat}

theorem lead?_one (h : n < 0x80) : lead? (UInt8.ofNat n) = some ⟨0, 0x80, 0xBF, n⟩ := by
  unfold lead?
  rw [toNat_ofNat (by omega), if_pos h]

theorem lead?_two (h : 0x80 ≤ n) (h' : n < 0x800) :
    lead? (UInt8.ofNat (0xC0 + n / 0x40)) = some ⟨1, 0x80, 0xBF, n / 0x40⟩ := by
  unfold lead?
  rw [toNat_ofNat (by omega)]
  dsimp only
  rw [if_neg (by omega), if_neg (by omega), if_pos (by omega), Nat.add_sub_cancel_left]

/-- Three octets spell at least U+0800, and no surrogate. -/
theorem lead?_three (h : n < 0x10000) : lead? (UInt8.ofNat (0xE0 + n / 0x1000)) =
    some ⟨2, if n / 0x1000 = 0 then 0xA0 else 0x80, if n / 0x1000 = 13 then 0x9F else 0xBF, n / 0x1000⟩ := by
  unfold lead?
  rw [toNat_ofNat (by omega)]
  dsimp only
  rw [if_neg (by omega), if_neg (by omega), if_neg (by omega), if_pos (by omega), Nat.add_sub_cancel_left]
  congr 2 <;> split <;> split <;> omega

/-- Four octets spell at least U+10000 and at most U+10FFFF. -/
theorem lead?_four (h : n < 0x110000) : lead? (UInt8.ofNat (0xF0 + n / 0x40000)) =
    some ⟨3, if n / 0x40000 = 0 then 0x90 else 0x80, if n / 0x40000 = 4 then 0x8F else 0xBF, n / 0x40000⟩ := by
  unfold lead?
  rw [toNat_ofNat (by omega)]
  dsimp only
  rw [if_neg (by omega), if_neg (by omega), if_neg (by omega), if_neg (by omega), if_pos (by omega),
    Nat.add_sub_cancel_left]
  congr 2 <;> split <;> split <;> omega

/-! ## Whole characters -/

/-- What is written for a code point is read as this code point, if no surrogate is. -/
theorem decodeFrom_encodeNat (hn : n < 0x110000) (hs : ¬ (0xD800 ≤ n ∧ n < 0xE000)) (position : Nat) (rest : Octets) :
    ∃ position', decodeFrom position (encodeNat n ++ rest) = (decodeFrom position' rest).map (Char.ofNat n :: ·) := by
  unfold encodeNat
  split
  · rename_i h1
    exact ⟨_, decodeFrom_cons (lead?_one h1) rfl position⟩
  split
  · rename_i h1 h2
    refine ⟨_, decodeFrom_cons (lead?_two (by omega) h2) ?_ position⟩
    dsimp only [List.append_eq, List.cons_append, List.nil_append]
    rw [following_cons _ _ _ (by omega) (by omega) (by omega), following]
    have hv : n / 0x40 * 0x40 + (0x80 + n % 0x40 - 0x80) = n := by omega
    rw [hv]
  split
  · rename_i h1 h2 h3
    refine ⟨_, decodeFrom_cons (lead?_three h3) ?_ position⟩
    dsimp only [List.append_eq, List.cons_append, List.nil_append]
    -- the bounds of the second octet leave out short forms and surrogates
    rw [following_cons _ _ _ (by omega) (by split <;> omega) (by split <;> omega),
      following_cons _ _ _ (by omega) (by omega) (by omega), following]
    have hv : (n / 0x1000 * 0x40 + (0x80 + n / 0x40 % 0x40 - 0x80)) * 0x40 + (0x80 + n % 0x40 - 0x80) = n := by omega
    rw [hv]
  · rename_i h1 h2 h3
    refine ⟨_, decodeFrom_cons (lead?_four hn) ?_ position⟩
    dsimp only [List.append_eq, List.cons_append, List.nil_append]
    rw [following_cons _ _ _ (by omega) (by split <;> omega) (by split <;> omega),
      following_cons _ _ _ (by omega) (by omega) (by omega), following_cons _ _ _ (by omega) (by omega) (by omega),
      following]
    have hv : ((n / 0x40000 * 0x40 + (0x80 + n / 0x1000 % 0x40 - 0x80)) * 0x40 + (0x80 + n / 0x40 % 0x40 - 0x80)) *
        0x40 + (0x80 + n % 0x40 - 0x80) = n := by omega
    rw [hv]

/-- Reading what is written gives the text again. -/
theorem decode_encode (t : Text) : decode (encode t) = .ok t := by
  have hfrom : ∀ position, decodeFrom position (encode t) = .ok t := by
    induction t with
    | nil => intro position; rw [encode, List.flatMap_nil, decodeFrom]
    | cons c t ih =>
      intro position
      have hc : c.toNat < 0xD800 ∨ 0xDFFF < c.toNat ∧ c.toNat < 0x110000 := c.valid
      obtain ⟨position', h⟩ := decodeFrom_encodeNat (n := c.toNat) (by omega) (by omega) position (encode t)
      rw [encode, List.flatMap_cons, ← encode, h, ih position', Except.map, Char.ofNat_toNat]
  exact hfrom 0

end Taskbook.Utf8
