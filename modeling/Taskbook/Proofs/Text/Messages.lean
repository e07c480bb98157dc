/-
The words of failures. Numbers and quoted texts break no line, whatever is quoted, so a failure that is reported in
words takes one line; only a wording of its own may take more.
-/
import Mathlib.Tactic.NormNum
import Taskbook.Failure
import Taskbook.Proofs.Text.Lines

namespace Taskbook

namespace Text

/-! ## Numbers -/

theorem isBreak_digit (n : Nat) : isBreak (digit (n % 10)) = false :=
  (by decide : ∀ d < 10, isBreak (digit d) = false) _ (Nat.mod_lt _ (by norm_num))

theorem unbroken_digits (n : Nat) : Unbroken (digits n) := by
  induction n using digits.induct with
  | case1 n h =>
    rw [digits, if_pos h, ← Nat.mod_eq_of_lt h]
    exact unbroken_cons.2 ⟨isBreak_digit n, unbroken_nil⟩
  | case2 n h ih =>
    rw [digits, if_neg h, unbroken_append]
    exact ⟨ih, unbroken_cons.2 ⟨isBreak_digit n, unbroken_nil⟩⟩

theorem unbroken_integer (i : Int) : Unbroken (integer i) := by
  unfold integer
  split
  · exact unbroken_cons.2 ⟨by decide, unbroken_digits _⟩
  · exact unbroken_digits _

theorem unbroken_hex (width n : Nat) : Unbroken (hex width n) := by
  have hdigit : ∀ d < 16, isBreak (if d < 10 then digit d else Char.ofNat (87 + d)) = false := by decide
  induction width generalizing n with
  | zero => exact unbroken_nil
  | succ width ih =>
    rw [hex, unbroken_append]
    exact ⟨ih _, unbroken_cons.2 ⟨hdigit _ (Nat.mod_lt _ (by norm_num)), unbroken_nil⟩⟩

/-! ## Quotes -/

/-- What breaks a line is escaped. -/
theorem unbroken_escape {q : Char} (hq : isBreak q = false) (c : Char) : Unbroken (escape q c) := by
  have hcode : ∀ x width, isBreak x = false → Unbroken ('\\' :: x :: hex width c.toNat) := fun x width hx =>
    unbroken_cons.2 ⟨by decide, unbroken_cons.2 ⟨hx, unbroken_hex _ _⟩⟩
  unfold escape
  split_ifs with hquote htab hlf hcr hprint hbyte hshort
  · have hc : isBreak c = false := by
      rcases Bool.or_eq_true_iff.1 hquote with h | h
      · rwa [beq_iff_eq.1 h]
      · rw [beq_iff_eq.1 h]
        decide
    exact unbroken_cons.2 ⟨by decide, unbroken_cons.2 ⟨hc, unbroken_nil⟩⟩
  · decide
  · decide
  · decide
  · refine unbroken_cons.2 ⟨?_, unbroken_nil⟩
    rw [isBreak, Bool.or_eq_false_iff]
    exact ⟨Bool.eq_false_iff.2 hcr, Bool.eq_false_iff.2 hlf⟩
  · exact hcode 'x' 2 (by decide)
  · exact hcode 'u' 4 (by decide)
  · exact hcode 'U' 8 (by decide)

theorem isBreak_quoteOf (t : Text) : isBreak (quoteOf t) = false := by
  unfold quoteOf
  split <;> decide

theorem unbroken_quoted (t : Text) : Unbroken (quoted t) := by
  have hquote := isBreak_quoteOf t
  have hinside : Unbroken (t.flatMap (escape (quoteOf t))) := by
    intro c hc
    obtain ⟨x, -, hx⟩ := List.mem_flatMap.1 hc
    exact unbroken_escape hquote x c hx
  rw [quoted, List.cons_append, unbroken_cons, unbroken_append]
  exact ⟨hquote, hinside, unbroken_cons.2 ⟨hquote, unbroken_nil⟩⟩

end Text

namespace Failure

open Text

theorem unbroken_place (line column : Int) : Unbroken (place line column) := by
  have hline : Unbroken "line ".toList := by decide
  have hcolumn : Unbroken ", column ".toList := by decide
  unfold place
  simp only [unbroken_append, hline, hcolumn, unbroken_integer, and_self]

/-- The failure is reported to the user, and its words stand on one line. -/
def Told (f : Failure) : Prop := f.isReported = true ∧ Unbroken f.message

theorem told_unknownZone (name : Text) : (unknownZone name).Told := by
  have hwords : Unbroken "unknown time zone: ".toList := by decide
  exact ⟨rfl, unbroken_append.2 ⟨hwords, unbroken_quoted name⟩⟩

theorem told_unmatched (line column : Int) (context : Text) : (unmatched line column context).Told := by
  have hwords : Unbroken "could not parse document at ".toList := by decide
  refine ⟨rfl, unbroken_append.2 ⟨unbroken_append.2 ⟨hwords, unbroken_place line column⟩, ?_⟩⟩
  split
  · exact unbroken_nil
  · exact unbroken_append.2 ⟨by decide, unbroken_quoted context⟩

theorem told_badDue (text : Text) (line column : Int) : (badDue text line column).Told := by
  have hwords : Unbroken "invalid due date format: ".toList := by decide
  refine ⟨rfl, unbroken_append.2 ⟨unbroken_append.2 ⟨hwords, unbroken_quoted text⟩, ?_⟩⟩
  split
  · exact unbroken_nil
  · rw [unbroken_append, unbroken_append]
    exact ⟨⟨by decide, unbroken_place line column⟩, by decide⟩

/-- The file system's refusals are told, but for that of a null character. -/
theorem told_path (fault : PathFault) (p : Text) : (path fault p).Told ∨ fault = .null := by
  cases fault with
  | null => exact .inr rfl
  | _ => exact .inl ⟨rfl, unbroken_append.2 ⟨by decide, unbroken_quoted p⟩⟩

end Failure

end Taskbook
