/-
The order of places. One more character moves the end of a text on in its line or to the start of the next one, unless
it is the line feed that completes a break of two characters. So lines and columns, compared in this order, grow with
the offset, and where a place does not stand inside such a break they point at what is left of the line in the whole
text.
-/
import Mathlib.Data.Prod.Lex
import Taskbook.Proofs.Layout.Places

namespace Taskbook

namespace Text

variable {u : Text} {c : Char}

/-! ## One more character -/

/-- A line feed behind a carriage return belongs to the same break. -/
theorem endOf_append_of_cutsBreak (h : CutsBreak u [c]) : endOf (u ++ [c]) = endOf u := by
  obtain ⟨hu, hc⟩ := h
  obtain ⟨u, rfl⟩ := List.getLast?_eq_some_iff.1 hu
  cases hc
  have hcr : ¬ CutsBreak u ['\r'] := by
    rintro ⟨-, ⟨⟩⟩
  have hcrlf : ¬ CutsBreak u ['\r', '\n'] := by
    rintro ⟨-, ⟨⟩⟩
  unfold endOf
  rw [List.append_assoc, splitLines_append hcr, List.cons_append, List.nil_append, splitLines_append hcrlf]
  rfl

theorem exists_splitLines (u : Text) : ∃ ls l, splitLines u = ls ++ [l] :=
  ⟨_, _, (List.dropLast_concat_getLast (splitLines_ne_nil u)).symm⟩

theorem endOf_append_break (hb : isBreak c = true) (h : ¬ CutsBreak u [c]) :
    endOf (u ++ [c]) = ((endOf u).1 + 1, 1) := by
  obtain ⟨ls, l, hl⟩ := exists_splitLines u
  have hlines : splitLines [c] = [[], []] := splitLines_break hb fun _ _ => nofun
  unfold endOf
  rw [splitLines_append h, hlines, hl]
  simp

theorem endOf_append_other (hc : isBreak c = false) : endOf (u ++ [c]) = ((endOf u).1, (endOf u).2 + 1) := by
  obtain ⟨ls, l, hl⟩ := exists_splitLines u
  have h : ¬ CutsBreak u [c] := not_cutsBreak_of_unbroken (by simpa using hc)
  have hlines : splitLines [c] = [[c]] := splitLines_unbroken (unbroken_cons.2 ⟨hc, unbroken_nil⟩)
  unfold endOf
  rw [splitLines_append h, hlines, lastLine, hl]
  simp

theorem endOf_lt_append (h : ¬ CutsBreak u [c]) : toLex (endOf u) < toLex (endOf (u ++ [c])) := by
  rw [Prod.Lex.toLex_lt_toLex]
  cases hc : isBreak c with
  | true =>
    rw [endOf_append_break hc h]
    exact .inl (Nat.lt_succ_self _)
  | false =>
    rw [endOf_append_other hc]
    exact .inr ⟨rfl, Nat.lt_succ_self _⟩

/-! ## Any number of characters -/

theorem endOf_le_append (u v : Text) : toLex (endOf u) ≤ toLex (endOf (u ++ v)) := by
  induction v generalizing u with
  | nil => rw [List.append_nil]
  | cons c v ih =>
    rw [List.append_cons]
    refine le_trans ?_ (ih (u ++ [c]))
    by_cases h : CutsBreak u [c]
    · rw [endOf_append_of_cutsBreak h]
    · exact (endOf_lt_append h).le

theorem endOf_ne_append (h : ¬ CutsBreak u [c]) (v : Text) : endOf u ≠ endOf (u ++ [c] ++ v) := by
  intro heq
  have hlt : toLex (endOf u) < toLex (endOf (u ++ [c] ++ v)) := lt_of_lt_of_le (endOf_lt_append h) (endOf_le_append _ v)
  rw [← heq] at hlt
  exact lt_irrefl _ hlt

/-- Two texts of which one begins the other end at the same place only if one line feed completes a break. -/
theorem endOf_eq_append_iff {u v : Text} (hv : v ≠ []) : endOf u = endOf (u ++ v) ↔ v.length = 1 ∧ CutsBreak u v := by
  obtain ⟨c, v, rfl⟩ := List.exists_cons_of_ne_nil hv
  rw [List.append_cons]
  by_cases h : CutsBreak u [c]
  · -- the text now ends in a line feed, so that any further character is one of another break or line
    obtain ⟨hu, hc⟩ := id h
    cases hc
    rw [← endOf_append_of_cutsBreak h]
    rcases v with _ | ⟨d, v⟩
    · rw [List.append_nil]
      exact ⟨fun _ => ⟨rfl, h⟩, fun _ => rfl⟩
    · have hcut : ¬ CutsBreak (u ++ ['\n']) [d] := by
        rintro ⟨hlast, -⟩
        rw [List.getLast?_concat] at hlast
        cases hlast
      rw [List.append_cons _ d]
      constructor
      · intro heq
        exact absurd heq (endOf_ne_append hcut v)
      · rintro ⟨hlen, -⟩
        cases hlen
  · constructor
    · intro heq
      exact absurd heq (endOf_ne_append h v)
    · rintro ⟨-, hcut⟩
      exact absurd hcut h

end Text

namespace Cursor

open Text

theorem location_advance (t : Text) (i : Nat) : ((start t).advance i).location = endOf (t.take i) := by
  rw [location_eq_endOf]
  simp [advance, start]

/-- Lines and columns address a text. They grow with the offset, and two offsets have the same line and column only
where they are the two sides of a line feed that completes a break. An offset that does not stand inside a break has a
line among those of the whole text and a column in this line, and from there on the line is what is left of it. -/
theorem locations_address_text (t : Text) :
    (∀ i j, i ≤ j → j ≤ t.length →
      toLex ((start t).advance i).location ≤ toLex ((start t).advance j).location ∧
      (i < j → (((start t).advance i).location = ((start t).advance j).location ↔
        j = i + 1 ∧ CutsBreak (t.take i) (t.drop i)))) ∧
    ∀ i, i ≤ t.length → ¬ CutsBreak (t.take i) (t.drop i) →
      ∃ line column l, ((start t).advance i).location = (line + 1, column + 1) ∧ (splitLines t)[line]? = some l ∧
        l.drop column = ((start t).advance i).restOfLine := by
  constructor
  · intro i j hij hj
    have htake : t.take j = t.take i ++ (t.drop i).take (j - i) := by
      rw [← List.take_add, Nat.add_sub_cancel' hij]
    rw [location_advance, location_advance, htake]
    refine ⟨endOf_le_append _ _, ?_⟩
    intro hlt
    have hlen : ((t.drop i).take (j - i)).length = j - i := by
      rw [List.length_take, List.length_drop]
      omega
    have hne : (t.drop i).take (j - i) ≠ [] := List.ne_nil_of_length_pos (by omega)
    have hhead : ((t.drop i).take (j - i)).head? = (t.drop i).head? := by
      rw [List.head?_take, if_neg (by omega)]
    rw [endOf_eq_append_iff hne, hlen, CutsBreak, hhead]
    exact and_congr_left' (by omega)
  · intro i hi hcut
    have hpos : 0 < (splitLines (t.take i)).length := List.length_pos_of_ne_nil (splitLines_ne_nil _)
    have hline := getElem?_splitLines_append hcut
    rw [List.take_append_drop] at hline
    refine ⟨(endOf (t.take i)).1 - 1, (lastLine (t.take i)).length, _, ?_, hline, ?_⟩
    · rw [location_advance]
      unfold endOf lastLine
      rw [Nat.sub_add_cancel hpos]
    · rw [List.drop_left]
      rfl

/-- The line feed of the break is at the same line and column as what stands behind it, and from there on the second
line is left. -/
theorem locations_address_text_of_crlf :
    (2 ≤ 3 ∧ 3 ≤ "a\r\nb".toList.length) ∧
      ((start "a\r\nb".toList).advance 2).location = ((start "a\r\nb".toList).advance 3).location ∧
      ¬ CutsBreak ("a\r\nb".toList.take 3) ("a\r\nb".toList.drop 3) ∧
      ∃ line column l, ((start "a\r\nb".toList).advance 3).location = (line + 1, column + 1) ∧
        (splitLines "a\r\nb".toList)[line]? = some l ∧ l.drop column = "b".toList := by
  obtain ⟨horder, haddress⟩ := locations_address_text "a\r\nb".toList
  have hcut : CutsBreak ("a\r\nb".toList.take 2) ("a\r\nb".toList.drop 2) := ⟨by decide, by decide⟩
  have hbehind : ¬ CutsBreak ("a\r\nb".toList.take 3) ("a\r\nb".toList.drop 3) := fun h => absurd h.2 (by decide)
  obtain ⟨-, hsame⟩ := horder 2 3 (by decide) (by decide)
  exact ⟨⟨by decide, by decide⟩, (hsame (by decide)).2 ⟨rfl, hcut⟩, hbehind, haddress 3 (by decide) hbehind⟩

end Cursor

end Taskbook
