/-
Texts with other breaks. Where every run of breaks in a text is another one, be it of other characters or of more or
fewer of them, the lines between them are the same. So two scans of such texts keep in step: they take the same entries
and stop in front of the same line, and only the numbers of the lines are others.
-/
import Taskbook.Proofs.Layout.Diagnosis
import Taskbook.Proofs.Layout.LineMachine

namespace Taskbook

namespace Text

/-! ## Texts with other breaks -/

/-- Breaks, one or more of them. -/
def IsBreaks (b : Text) : Prop := b ≠ [] ∧ ∀ c ∈ b, isBreak c = true

/-- The second text is the first one with other breaks in the place of each of its longest runs of breaks. -/
inductive Rebroken : Text → Text → Prop
  | nil : Rebroken [] []
  | char {c : Char} {t t' : Text} (hc : isBreak c = false) (h : Rebroken t t') : Rebroken (c :: t) (c :: t')
  | breaks {b b' t t' : Text} (hb : IsBreaks b) (hb' : IsBreaks b') (hend : ∀ c ∈ t.head?, isBreak c = false)
    (h : Rebroken t t') : Rebroken (b ++ t) (b' ++ t')

namespace Rebroken

variable {t t' : Text}

theorem append {l : Text} (hl : Unbroken l) (h : Rebroken t t') : Rebroken (l ++ t) (l ++ t') := by
  induction l with
  | nil => exact h
  | cons c l ih =>
    obtain ⟨hc, hl⟩ := unbroken_cons.1 hl
    exact .char hc (ih hl)

/-- Every text has its own breaks. -/
theorem refl (t : Text) : Rebroken t t := by
  induction t using logicalLines.induct with
  | case1 => exact .nil
  | case2 t _ ih =>
    rw [← firstLine_append_rest t, List.append_assoc]
    refine append (unbroken_firstLine t) ?_
    by_cases hnone : firstBreaks t = []
    · rw [hnone, afterFirstLine_of_firstBreaks hnone]
      exact .nil
    · have hb : IsBreaks (firstBreaks t) := ⟨hnone, fun c hc => List.mem_takeWhile_imp hc⟩
      exact .breaks hb hb (head?_afterFirstLine t) ih

theorem head?_eq (h : Rebroken t t') (hend : ∀ c ∈ t.head?, isBreak c = false) : t'.head? = t.head? := by
  cases h with
  | nil => rfl
  | char => rfl
  | @breaks b b' t t' hb =>
    obtain ⟨c, b, rfl⟩ := List.exists_cons_of_ne_nil hb.1
    have hc := hb.2 c (List.mem_cons_self ..)
    rw [hend c rfl] at hc
    cases hc

theorem lines_of_breaks {b : Text} (hb : IsBreaks b) (hend : ∀ c ∈ t.head?, isBreak c = false) :
    firstLine (b ++ t) = [] ∧ afterFirstLine (b ++ t) = t := by
  obtain ⟨hl, -, hr⟩ := firstLine_of_parts unbroken_nil hb.2 hend fun h => absurd h hb.1
  exact ⟨hl, hr⟩

/-- The first line is the same, and what stands behind it and its breaks is the same but for the breaks. -/
theorem lines (h : Rebroken t t') :
    firstLine t' = firstLine t ∧ Rebroken (afterFirstLine t) (afterFirstLine t') := by
  induction h with
  | nil => exact ⟨rfl, .nil⟩
  | @char c t t' hc h ih =>
    have hu : Unbroken [c] := unbroken_cons.2 ⟨hc, unbroken_nil⟩
    show firstLine ([c] ++ t') = firstLine ([c] ++ t) ∧
      Rebroken (afterFirstLine ([c] ++ t)) (afterFirstLine ([c] ++ t'))
    rw [firstLine_append hu, firstLine_append hu, afterFirstLine_append hu, afterFirstLine_append hu, ih.1]
    exact ⟨rfl, ih.2⟩
  | @breaks b b' t t' hb hb' hend h ih =>
    have hend' : ∀ c ∈ t'.head?, isBreak c = false := by
      rw [h.head?_eq hend]
      exact hend
    obtain ⟨hl, hr⟩ := lines_of_breaks hb hend
    obtain ⟨hl', hr'⟩ := lines_of_breaks hb' hend'
    rw [hl, hl', hr, hr']
    exact ⟨rfl, h⟩

/-! ## White space -/

theorem isBlank_of_mem_breaks {b : Text} (hb : IsBreaks b) : ∀ c ∈ b, isBlank c = true :=
  fun c hc => isBlank_of_isBreak (hb.2 c hc)

theorem allBlank_eq (h : Rebroken t t') : allBlank t' = allBlank t := by
  unfold allBlank
  induction h with
  | nil => rfl
  | char hc h ih => rw [List.all_cons, List.all_cons, ih]
  | breaks hb hb' hend h ih =>
    rw [List.all_append, List.all_append, ih, List.all_eq_true.2 (isBlank_of_mem_breaks hb),
      List.all_eq_true.2 (isBlank_of_mem_breaks hb')]

theorem takeWhile_isBlank (h : Rebroken t t') : Rebroken (t.takeWhile isBlank) (t'.takeWhile isBlank) := by
  induction h with
  | nil => exact .nil
  | @char c t t' hc h ih =>
    rw [List.takeWhile_cons, List.takeWhile_cons]
    split
    · exact .char hc ih
    · exact .nil
  | @breaks b b' t t' hb hb' hend h ih =>
    rw [List.takeWhile_append_of_pos (isBlank_of_mem_breaks hb),
      List.takeWhile_append_of_pos (isBlank_of_mem_breaks hb')]
    refine .breaks hb hb' ?_ ih
    intro c hc
    rw [List.head?_takeWhile] at hc
    exact hend c (Option.mem_filter_iff.1 hc).1

theorem dropWhile_isBlank (h : Rebroken t t') : Rebroken (t.dropWhile isBlank) (t'.dropWhile isBlank) := by
  induction h with
  | nil => exact .nil
  | @char c t t' hc h ih =>
    rw [List.dropWhile_cons, List.dropWhile_cons]
    split
    · exact ih
    · exact .char hc h
  | breaks hb hb' hend h ih =>
    rw [List.dropWhile_append_of_pos (isBlank_of_mem_breaks hb),
      List.dropWhile_append_of_pos (isBlank_of_mem_breaks hb')]
    exact ih

/-- Both are one line, or both end with the same line behind breaks. -/
theorem ends (h : Rebroken t t') : t' = t ∧ Unbroken t ∨
    ∃ u u' b b' l, t = u ++ b ++ l ∧ t' = u' ++ b' ++ l ∧ IsBreaks b ∧ IsBreaks b' ∧ Unbroken l := by
  induction h with
  | nil => exact .inl ⟨rfl, unbroken_nil⟩
  | @char c t t' hc h ih =>
    rcases ih with ⟨rfl, ht⟩ | ⟨u, u', b, b', l, rfl, rfl, hb, hb', hl⟩
    · exact .inl ⟨rfl, unbroken_cons.2 ⟨hc, ht⟩⟩
    · exact .inr ⟨c :: u, c :: u', b, b', l, rfl, rfl, hb, hb', hl⟩
  | @breaks b b' t t' hb hb' hend h ih =>
    rcases ih with ⟨rfl, ht⟩ | ⟨u, u', d, d', l, rfl, rfl, hd, hd', hl⟩
    · exact .inr ⟨[], [], b, b', _, rfl, rfl, hb, hb', ht⟩
    · exact .inr ⟨b ++ u, b' ++ u', d, d', l, by simp, by simp, hd, hd', hl⟩

end Rebroken

theorem lastLine_append {u v : Text} (hu : lastLine u = []) (hcut : ¬ CutsBreak u v) :
    lastLine (u ++ v) = lastLine v := by
  obtain ⟨l, ls, hl⟩ := List.exists_cons_of_ne_nil (splitLines_ne_nil v)
  unfold lastLine
  rw [splitLines_append hcut, hu, hl, List.modifyHead_cons, List.nil_append, List.getLastD_eq_getLast?,
    List.getLastD_eq_getLast?, List.getLast?_append_of_ne_nil _ (List.cons_ne_nil _ _)]

theorem lastLine_of_breaks (u : Text) {b l : Text} (hb : IsBreaks b) (hl : Unbroken l) :
    lastLine (u ++ b ++ l) = l := by
  obtain ⟨b, x, rfl⟩ := (List.eq_nil_or_concat b).resolve_left hb.1
  have hx : isBreak x = true := hb.2 x (by simp)
  have hlast : lastLine (u ++ b ++ [x]) = [] := lastLine_append_break _ hx
  have hcut : ¬ CutsBreak (u ++ b ++ [x]) l := not_cutsBreak_of_unbroken fun c hc => hl c (List.mem_of_mem_head? hc)
  rw [List.concat_eq_append, ← List.append_assoc, lastLine_append hlast hcut, lastLine, splitLines_unbroken hl]
  rfl

theorem Rebroken.lastLine_eq {t t' : Text} (h : Rebroken t t') : lastLine t' = lastLine t := by
  rcases h.ends with ⟨rfl, -⟩ | ⟨u, u', b, b', l, rfl, rfl, hb, hb', hl⟩
  · rfl
  · rw [lastLine_of_breaks u hb hl, lastLine_of_breaks u' hb' hl]

end Text

/-! ## Two places in step -/

namespace Cursor

/-- A line begins at both places, and what lies ahead of them is the same but for the breaks. -/
structure InStep (c c' : Cursor) : Prop where
  excess : c.excess = 0
  excess' : c'.excess = 0
  starts : c.StartsLine
  starts' : c'.StartsLine
  ahead : Text.Rebroken c.ahead c'.ahead

theorem inStep_start {t t' : Text} (h : Text.Rebroken t t') : (start t).InStep (start t') :=
  ⟨rfl, rfl, startsLine_start t, startsLine_start t', h⟩

theorem InStep.nextLine {c c' : Cursor} (h : c.InStep c') : c.nextLine.InStep c'.nextLine :=
  ⟨rfl, rfl, startsLine_nextLine c, startsLine_nextLine c', h.ahead.lines.2⟩

/-- The column behind the white space ahead of the beginning of a line is told by that white space. -/
theorem column_pastBlanks {c : Cursor} (hc : c.StartsLine) (hne : c.ahead = [] → c.behind = []) :
    c.pastBlanks.location.2 = (Text.lastLine (c.ahead.takeWhile Text.isBlank)).length + 1 := by
  have hlast : Text.lastLine (c.behind.reverse ++ c.ahead.takeWhile Text.isBlank) =
      Text.lastLine (c.ahead.takeWhile Text.isBlank) := by
    by_cases ha : c.ahead = []
    · rw [hne ha]
      rfl
    · obtain ⟨hl, hcut⟩ := hc ha
      refine Text.lastLine_append hl ?_
      rintro ⟨hcr, hlf⟩
      rw [List.head?_takeWhile] at hlf
      exact hcut ⟨hcr, (Option.filter_eq_some_iff.1 hlf).1⟩
  unfold pastBlanks
  rw [location_eq_endOf, behind_past, List.reverse_append, List.reverse_reverse, ← hlast]
  rfl

end Cursor

/-- The two are failures of a text with the same words at the same column, but maybe on lines of other numbers. -/
inductive Failure.SameButLine : Failure → Failure → Prop
  | badDue (text : Text) (line line' column : Int) : SameButLine (.badDue text line column) (.badDue text line' column)
  | unmatched (line line' column : Int) (context : Text) :
    SameButLine (.unmatched line column context) (.unmatched line' column context)

namespace Layout

open Text LineMachine

/-! ## Two scans in step -/

/-- The two are the same entry at the same column. -/
structure Found.SameButLine (f f' : Found) : Prop where
  entry : f'.entry = f.entry
  column : f'.place.2 = f.place.2

variable {s : Symbols} {z : Zone} {ks : List Kind} {c c' d : Cursor} {e : Entry Text}

/-- Where the lines are the same the same is found, in front of the next line of each. -/
theorem next?_of_sameLine (hs : ∀ k : Kind, Unbroken (k.symbol s)) (h0 : c.excess = 0) (h0' : c'.excess = 0)
    (hline : c'.restOfLine = c.restOfLine) :
    (next? s ks c = none → next? s ks c' = none) ∧
      ∀ e d, next? s ks c = some (e, d) → d = c.nextLine ∧ next? s ks c' = some (e, c'.nextLine) := by
  rw [next?_of_line hs h0, next?_of_line hs h0', hline]
  rcases ks.findSome? (entryAs? s c.restOfLine) with _ | e
  · exact ⟨fun _ => rfl, nofun⟩
  · refine ⟨nofun, ?_⟩
    rintro _ _ ⟨⟩
    exact ⟨rfl, rfl⟩

theorem column_of_next? (hc : c.StartsLine) (h : next? s ks c = some (e, d)) : c.location.2 = 1 := by
  have hne : c.ahead ≠ [] := List.ne_nil_of_length_pos (Nat.zero_lt_of_lt (next?_length h))
  rw [Cursor.location_eq_endOf, endOf_of_lastLine (hc hne).1]

/-- What one scan takes the other one takes, and they end in step. -/
theorem scan_inStep (hs : ∀ k : Kind, Unbroken (k.symbol s)) (h : c.InStep c') :
    List.Forall₂ Found.SameButLine (scan s ks c).1 (scan s ks c').1 ∧ (scan s ks c).2.InStep (scan s ks c').2 := by
  -- on the scan from the first place, for every place in step with it
  induction ks, c using scan.induct s generalizing c' with
  | case1 ks c hn =>
    have hn' := (next?_of_sameLine hs h.excess h.excess' h.ahead.lines.1).1 hn
    rw [scan_none hn, scan_none hn']
    exact ⟨.nil, h⟩
  | case2 ks c e d hn ih =>
    obtain ⟨rfl, hn'⟩ := (next?_of_sameLine hs h.excess h.excess' h.ahead.lines.1).2 e d hn
    have hcolumn : c'.location.2 = c.location.2 :=
      (column_of_next? h.starts' hn').trans (column_of_next? h.starts hn).symm
    obtain ⟨hfound, hrest⟩ := ih h.nextLine
    rw [scan_some hn, scan_some hn']
    exact ⟨.cons ⟨rfl, hcolumn⟩ hfound, hrest⟩

/-! ## Documents with other breaks -/

theorem resolve_agree (hz : z ≠ .system) {f f' : Found} (h : f.SameButLine f') :
    Rows.Agree Failure.SameButLine (resolve s z f) (resolve s z f') := by
  unfold resolve
  rw [h.entry, h.column]
  cases f.entry with
  | due text =>
    dsimp only
    rcases hr : Due.read text z with fault | _ | m
    · exact absurd hr (Due.read_ne_error hz fault)
    · exact .error (.badDue ..)
    · exact .ok _
  | _ => exact .ok _

/-- A text that stops to match has something left, or nothing was taken from it. -/
theorem behind_of_unmatched {t : Text} {x : Draft} (hx : spell s z (scan s [.title] (.start t)).1 = .ok x)
    (hno : ¬ (x.lists ≠ [] ∧ allBlank (scan s [.title] (.start t)).2.ahead = true))
    (hend : (scan s [.title] (.start t)).2.ahead = []) : (scan s [.title] (.start t)).2.behind = [] := by
  have hlists : x.lists = [] := by
    by_contra hne
    refine hno ⟨hne, ?_⟩
    rw [hend]
    rfl
  rw [lists_eq_nil_iff hx] at hlists
  rw [scan_none hlists]
  rfl

/-- Breaks have no say in what a document is, whatever they are and however many stand together. With symbols that break
no line, and in every zone but the system's, a text with other breaks is read as the same document or fails in the same
way, with the same words at the same column. -/
theorem parse_rebroken (hs : ∀ k : Kind, Unbroken (k.symbol s)) (hz : z ≠ .system) {t t' : Text} (h : Rebroken t t') :
    Rows.Agree Failure.SameButLine (Document.parse t s z) (Document.parse t' s z) := by
  obtain ⟨hfound, hrest⟩ := @scan_inStep s [.title] _ _ hs (Cursor.inStep_start h)
  have hspell : Rows.Agree Failure.SameButLine (spell s z (scan s [.title] (.start t)).1)
      (spell s z (scan s [.title] (.start t')).1) :=
    (Rows.agree_mapM (hfound.imp fun _ _ => resolve_agree hz)).map assemble
  rw [parse_eq_scan, parse_eq_scan, hrest.ahead.allBlank_eq]
  rcases hx : spell s z (scan s [.title] (.start t)).1 with g | x <;> rw [hx] at hspell
  · generalize spell s z (scan s [.title] (.start t')).1 = r at hspell
    cases hspell with
    | error hg => exact .error hg
  · rcases hx' : spell s z (scan s [.title] (.start t')).1 with g | x' <;> rw [hx'] at hspell <;> cases hspell
    dsimp only
    split
    · exact .ok _
    · rename_i hno
      have hcolumn := Cursor.column_pastBlanks hrest.starts (behind_of_unmatched hx hno)
      have hcolumn' := Cursor.column_pastBlanks hrest.starts'
        (behind_of_unmatched hx' (by rwa [hrest.ahead.allBlank_eq]))
      have hcontext : (scan s [.title] (.start t')).2.pastBlanks.restOfLine =
          (scan s [.title] (.start t)).2.pastBlanks.restOfLine := hrest.ahead.dropWhile_isBlank.lines.1
      rw [hrest.ahead.takeWhile_isBlank.lastLine_eq, ← hcolumn] at hcolumn'
      unfold unmatchedAt
      rw [hcolumn', hcontext]
      exact .error (.unmatched ..)

/-- A blank line more, and carriage returns for line feeds. -/
theorem parse_rebroken_of_carriage_returns :
    (∀ k : Kind, Unbroken (k.symbol {})) ∧ Zone.utc ≠ .system ∧
      Rebroken "## A\n- b\n".toList "## A\r\n\r\n- b\r".toList ∧
      Document.parse "## A\r\n\r\n- b\r".toList {} .utc = .ok [⟨"A".toList, [⟨"b".toList, none, none, []⟩]⟩] := by
  have hs : ∀ k : Kind, Unbroken (k.symbol {}) := Symbols.compatible_default.unbroken
  have hz : Zone.utc ≠ .system := by decide
  have hlf : IsBreaks ['\n'] := ⟨List.cons_ne_nil _ _, by simp [isBreak]⟩
  have hcr : IsBreaks ['\r'] := ⟨List.cons_ne_nil _ _, by simp [isBreak]⟩
  have hblank : IsBreaks "\r\n\r\n".toList := ⟨List.cons_ne_nil _ _, by simp [isBreak]⟩
  have hend : Rebroken ['\n'] ['\r'] := .breaks hlf hcr (by simp) .nil
  have htask : Rebroken ("- b".toList ++ ['\n']) ("- b".toList ++ ['\r']) := .append (by decide) hend
  have hrest : Rebroken (['\n'] ++ ("- b".toList ++ ['\n'])) ("\r\n\r\n".toList ++ ("- b".toList ++ ['\r'])) :=
    .breaks hlf hblank (by simp [isBreak]) htask
  have h : Rebroken "## A\n- b\n".toList "## A\r\n\r\n- b\r".toList := .append (l := "## A".toList) (by decide) hrest
  have hparse := parse_rebroken hs hz h
  have hread : Document.parse "## A\n- b\n".toList {} .utc = .ok [⟨"A".toList, [⟨"b".toList, none, none, []⟩]⟩] := by
    cbv
  rw [hread] at hparse
  generalize Document.parse "## A\r\n\r\n- b\r".toList {} .utc = r at hparse ⊢
  cases hparse
  exact ⟨hs, hz, h, rfl⟩

end Layout

end Taskbook
