/-
Places as lines and columns. The lines of two texts, one behind the other, are the lines of both, with the last
line of the first and the first line of the second made one; so a place that is told by the text before it
points into the lines of the whole text, as long as it does not stand inside a break of two characters.
-/
import Taskbook.Proofs.Layout.Entries

namespace Taskbook

namespace Text

/-- The two texts meet inside a break of two characters. -/
def CutsBreak (u v : Text) : Prop := u.getLast? = some '\r' ∧ v.head? = some '\n'

theorem not_cutsBreak_of_unbroken {u v : Text} (hv : ∀ c ∈ v.head?, isBreak c = false) : ¬ CutsBreak u v := by
  rintro ⟨-, h⟩
  have := hv '\n' h
  cases this

theorem not_cutsBreak_cons {c : Char} {u v : Text} (h : ¬ CutsBreak (c :: u) v) : ¬ CutsBreak u v := by
  rintro ⟨hu, hv⟩
  exact h ⟨by rw [List.getLast?_cons, hu]; rfl, hv⟩

/-- The last line, which stands behind the last break. -/
def lastLine (t : Text) : Text := (splitLines t).getLastD []

theorem splitLines_append {u v : Text} (h : ¬ CutsBreak u v) :
    splitLines (u ++ v) = (splitLines u).dropLast ++ (splitLines v).modifyHead (lastLine u ++ ·) := by
  unfold lastLine
  induction u using splitLines.induct with
  | case1 =>
    obtain ⟨l, ls, hl⟩ := List.exists_cons_of_ne_nil (splitLines_ne_nil v)
    rw [List.nil_append, splitLines, hl]
    rfl
  | case2 u ih =>
    obtain ⟨l, ls, hl⟩ := List.exists_cons_of_ne_nil (splitLines_ne_nil u)
    rw [List.cons_append, List.cons_append, splitLines.eq_2, splitLines.eq_2,
      ih (not_cutsBreak_cons (not_cutsBreak_cons h)), hl]
    rfl
  | case3 c u hne hb ih =>
    obtain ⟨l, ls, hl⟩ := List.exists_cons_of_ne_nil (splitLines_ne_nil u)
    have hne' : ∀ r, c = '\r' → u ++ v ≠ '\n' :: r := by
      rintro r rfl hr
      rcases u with _ | ⟨x, u⟩
      · rw [List.nil_append] at hr
        exact h ⟨rfl, by rw [hr]; rfl⟩
      · cases hr
        exact hne u rfl rfl
    rw [List.cons_append, splitLines_break hb hne', splitLines_break hb fun r hc hr => hne r hc hr,
      ih (not_cutsBreak_cons h), hl]
    rfl
  | case4 c u hne hb ih =>
    have hc : isBreak c = false := by simpa using hb
    obtain ⟨l, ls, hl⟩ := List.exists_cons_of_ne_nil (splitLines_ne_nil u)
    obtain ⟨l', ls', hl'⟩ := List.exists_cons_of_ne_nil (splitLines_ne_nil v)
    rw [List.cons_append, splitLines_other _ hc, splitLines_other _ hc, ih (not_cutsBreak_cons h), hl, hl']
    cases ls <;> rfl

theorem head?_splitLines (t : Text) : (splitLines t).head? = some (firstLine t) := by
  induction t using splitLines.induct with
  | case1 => rfl
  | case2 t ih => rfl
  | case3 c t hne hb ih =>
    rw [splitLines_break hb fun r hc hr => hne r hc hr, firstLine, List.takeWhile_cons_of_neg (by simp [hb])]
    rfl
  | case4 c t hne hb ih =>
    have hc : isBreak c = false := by simpa using hb
    obtain ⟨l, ls, hl⟩ := List.exists_cons_of_ne_nil (splitLines_ne_nil t)
    rw [hl] at ih
    cases ih
    have hf : firstLine (c :: t) = c :: firstLine t := List.takeWhile_cons_of_pos (by simp [hc])
    rw [splitLines_other _ hc, hl, hf]
    rfl

/-- Where two texts meet, the line goes on from the last line of the first to the end of the first line of the
second. -/
theorem getElem?_splitLines_append {u v : Text} (h : ¬ CutsBreak u v) :
    (splitLines (u ++ v))[(endOf u).1 - 1]? = some (lastLine u ++ firstLine v) := by
  obtain ⟨l, ls, hl⟩ := List.exists_cons_of_ne_nil (splitLines_ne_nil v)
  have hv := head?_splitLines v
  rw [hl] at hv
  cases hv
  have hlen : (endOf u).1 - 1 = (splitLines u).dropLast.length := (List.length_dropLast ..).symm
  rw [splitLines_append h, hl, hlen, List.getElem?_append_right (Nat.le_refl _), Nat.sub_self]
  rfl

/-- Behind a break the line is empty. -/
theorem lastLine_append_break (u : Text) {b : Char} (hb : isBreak b = true) : lastLine (u ++ [b]) = [] := by
  have hlast : ∀ {u v : Text}, ¬ CutsBreak u v → splitLines v = [[], []] → lastLine (u ++ v) = [] := by
    intro u v h hv
    unfold lastLine
    rw [splitLines_append h, hv]
    simp
  by_cases h : CutsBreak u [b]
  · -- the last two characters are one break
    obtain ⟨hu, hb'⟩ := h
    obtain ⟨u, rfl⟩ := List.getLast?_eq_some_iff.1 hu
    cases hb'
    rw [List.append_assoc]
    refine hlast ?_ rfl
    rintro ⟨-, ⟨⟩⟩
  · exact hlast h (splitLines_break hb fun _ _ => nofun)

/-- The lines of a text that is cut where a line begins. -/
theorem splitLines_above {above below : Text} (hlast : lastLine above = []) (hcut : ¬ CutsBreak above below) :
    splitLines above = (splitLines (above ++ below)).take ((endOf above).1 - 1) ++ [[]] := by
  have hlen : (endOf above).1 - 1 = (splitLines above).dropLast.length := (List.length_dropLast ..).symm
  have hne : splitLines above ≠ [] := splitLines_ne_nil above
  have hget : (splitLines above).getLast hne = [] := by
    rw [← hlast, lastLine, List.getLastD_eq_getLast?, List.getLast?_eq_getLast_of_ne_nil hne]
    rfl
  rw [splitLines_append hcut, hlen, List.take_left, ← hget, List.dropLast_concat_getLast]

theorem endOf_of_lastLine {above : Text} (h : lastLine above = []) : endOf above = ((endOf above).1 - 1 + 1, 1) := by
  have hpos : 0 < (splitLines above).length := List.length_pos_of_ne_nil (splitLines_ne_nil above)
  unfold endOf
  rw [show (splitLines above).getLastD [] = [] from h, Nat.sub_add_cancel hpos]
  rfl

end Text

end Taskbook
