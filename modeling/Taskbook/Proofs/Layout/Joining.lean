/-
Documents one under the other. If nothing is left over behind the lists of a text, the line feed in front of another
text ends its last line and no more, so a scan of the two together takes the entries of the first and comes to the title
of the second. A title may follow every line, and what lists an entry belongs to is settled by the entries above it up
to the title; so the lists of both are read.
-/
import Taskbook.Proofs.Layout.Breaks

namespace Taskbook

namespace Text

theorem started_of_firstLine {t : Text} (h : firstLine t ≠ []) : Started t := by
  rcases t with _ | ⟨c, r⟩
  · exact absurd rfl h
  · refine ⟨c, r, rfl, ?_⟩
    by_contra hc
    exact h (List.takeWhile_cons_of_neg (by simpa using hc))

end Text

namespace Layout

open Text LineMachine Outcome Taskbook.Parser

variable {s : Symbols} {z : Zone} {ks : List Kind} {c c' d : Cursor} {t : Text} {x : Draft}

/-! ## What the entries of both spell -/

/-- The draft with more lists behind its own. -/
def Draft.behind (x : Draft) (lists : Document) : Draft := { x with lists := x.lists ++ lists }

theorem assemble_append (es : List (Entry Moment)) {es' : List (Entry Moment)} {lists : Document}
    (h : assemble es' = { lists }) : assemble (es ++ es') = (assemble es).behind lists := by
  unfold assemble at h ⊢
  rw [List.foldr_append, h]
  induction es with
  | nil => rfl
  | cons e es ih =>
    rw [List.foldr_cons, List.foldr_cons, ih]
    cases e <;> rfl

/-- Where a title comes first nothing is left in front of it. -/
theorem eq_of_spell_title (h : spell s z (scan s [.title] c).1 = .ok x) : x = { lists := x.lists } := by
  have hread := reading_lists (s := s) (z := z) c
  unfold reading at hread
  rw [h] at hread
  rcases hl : loop (taskList s z).run c with ⟨lists, d⟩ | _ | g <;> rw [hl] at hread <;> cases hread
  rfl

/-! ## One scan behind another -/

/-- Where all that lies ahead is taken and another text stands under it, the scan goes on with that text. -/
theorem scan_append_lf (hs : ∀ k : Kind, Unbroken (k.symbol s)) (h0 : c.excess = 0) (h0' : c'.excess = 0)
    (hne : c.ahead ≠ []) (ht : Started t) (hc' : c'.ahead = c.ahead ++ '\n' :: t)
    (hend : (scan s ks c).2.ahead = []) :
    ∃ k d, d.ahead = t ∧ d.excess = 0 ∧ d.StartsLine ∧
      (scan s ks c').1.map Found.entry =
        (scan s ks c).1.map Found.entry ++ (scan s (Kind.followers k) d).1.map Found.entry ∧
      (scan s ks c').2 = (scan s (Kind.followers k) d).2 := by
  -- on the scan of the upper text; the scan of both takes the same line at each of its steps
  induction ks, c using scan.induct s generalizing c' with
  | case1 ks c hn =>
    rw [scan_none hn] at hend
    exact absurd hend hne
  | case2 ks c e d hn ih =>
    have hline : c'.restOfLine = c.restOfLine := by
      unfold Cursor.restOfLine
      rw [hc', firstLine_append_lf]
    obtain ⟨rfl, hn'⟩ := (next?_of_sameLine hs h0 h0' hline).2 e d hn
    have hafter : c'.nextLine.ahead = _ := (congrArg afterFirstLine hc').trans (afterFirstLine_append_lf c.ahead t)
    rw [ht.dropWhile_eq] at hafter
    rw [scan_some hn] at hend
    rw [scan_some hn, scan_some hn']
    by_cases hlast : afterFirstLine c.ahead = []
    · -- the last line: the line feed is one of the breaks behind it
      rw [if_pos hlast] at hafter
      rw [scan_of_ahead_nil (s := s) (c := c.nextLine) hlast]
      exact ⟨e.kind, c'.nextLine, hafter, rfl, Cursor.startsLine_nextLine c', rfl, rfl⟩
    · rw [if_neg hlast] at hafter
      obtain ⟨k, d, hd, h0d, hstart, hentries, hrest⟩ := ih rfl rfl hlast hafter hend
      refine ⟨k, d, hd, h0d, hstart, ?_, hrest⟩
      rw [List.map_cons, List.map_cons, hentries]
      rfl

theorem entries_of_sameButLine {fs fs' : List Found} (h : List.Forall₂ Found.SameButLine fs fs') :
    fs'.map Found.entry = fs.map Found.entry := by
  induction h with
  | nil => rfl
  | cons hf _ ih => rw [List.map_cons, List.map_cons, hf.entry, ih]

/-- The first line of a document is one behind any other line too, so from there on the scans take the same. -/
theorem scan_followers (hs : s.Compatible) (h : c.InStep d) (hne : next? s [.title] c ≠ none) (k : Kind) :
    (scan s k.followers d).1.map Found.entry = (scan s [.title] c).1.map Found.entry ∧
      allBlank (scan s k.followers d).2.ahead = allBlank (scan s [.title] c).2.ahead := by
  obtain ⟨⟨e, c'⟩, hn⟩ := Option.ne_none_iff_exists'.1 hne
  have hallowed := hn
  rw [show [Kind.title] = tried none from rfl, next?_eq none hs h.excess] at hallowed
  obtain ⟨_, he, ⟨⟩⟩ := Option.map_eq_some_iff.1 hallowed
  have he' : allowed? s (some k) d.restOfLine = some e := by
    obtain ⟨k', hk', hallows⟩ := (allowed?_eq_some_iff hs).1 he
    rw [show d.restOfLine = c.restOfLine from h.ahead.lines.1]
    refine (allowed?_eq_some_iff hs).2 ⟨k', hk', ?_⟩
    cases k' <;> first | rfl | cases hallows
  have hn' : next? s k.followers d = some (e, d.nextLine) := by
    rw [show k.followers = tried (some k) from rfl, next?_eq (some k) hs h.excess', he']
    rfl
  obtain ⟨hfound, hrest⟩ := @scan_inStep s e.kind.followers _ _ hs.unbroken h.nextLine
  rw [scan_some hn, scan_some hn', List.map_cons, List.map_cons, entries_of_sameButLine hfound]
  exact ⟨rfl, hrest.ahead.allBlank_eq⟩

/-! ## Documents one under the other -/

/-- Lists that are read end where the scan ends. -/
theorem scan_of_run_many1 {lists : Document} (h : (many1 (taskList s z)).run c = .done lists d) :
    (scan s [.title] c).2 = d := by
  have hread := reading_lists (s := s) (z := z) c
  rw [run_many1 fun _ _ => room_lt_of_run_taskList] at h
  rcases hl : loop (taskList s z).run c with ⟨ls, d'⟩ | _ | g <;> rw [hl] at h hread
  · rw [andThen_done] at h
    split at h <;> cases h
    unfold reading at hread
    split at hread <;> cases hread
    rfl
  · cases h
  · cases h

/-- What is known of a text that is read as a document. -/
theorem exists_spell_of_parse {y : Document} (h : Document.parse t s z = .ok y) :
    ∃ es, (scan s [.title] (.start t)).1.mapM (resolve s z) = .ok es ∧ assemble es = { lists := y } ∧ y ≠ [] ∧
      allBlank (scan s [.title] (.start t)).2.ahead = true ∧ next? s [.title] (.start t) ≠ none := by
  rw [parse_eq_scan] at h
  rcases hx : spell s z (scan s [.title] (.start t)).1 with g | x <;> rw [hx] at h
  · cases h
  · dsimp only at h
    split at h
    · rename_i hdocument
      cases h
      have hne : next? s [.title] (.start t) ≠ none := fun hn => hdocument.1 ((lists_eq_nil_iff hx).2 hn)
      have heq := eq_of_spell_title hx
      obtain ⟨es, hes, rfl⟩ := spell_eq_ok hx
      exact ⟨es, hes, heq, hdocument.1, hdocument.2, hne⟩
    · cases h

theorem started_of_next?_title (hs : s.Compatible) (h : next? s [.title] (.start t) ≠ none) : Started t := by
  rw [show [Kind.title] = tried none from rfl, next?_eq none hs rfl, Ne, Option.map_eq_none_iff] at h
  obtain ⟨e, he⟩ := Option.ne_none_iff_exists'.1 h
  exact started_of_firstLine (line_ne_nil_of_allowed? hs he)

/-- A text whose lists leave nothing over, a line feed and another document are read as the lists of both, the first
ones first. It does not matter in which line of a list the first text ends, nor whether that line is ended. -/
theorem parse_append_lf (hs : s.Compatible) (z : Zone) {t t' : Text} {y y' lists : Document} {c : Cursor}
    (h : Document.parse t s z = .ok y) (h' : Document.parse t' s z = .ok y')
    (hread : (many1 (taskList s z)).run (.start t) = .done lists c) (hend : c.atEnd = true) :
    Document.parse (t ++ '\n' :: t') s z = .ok (y ++ y') := by
  obtain ⟨es, hes, hy, hne, -, hn⟩ := exists_spell_of_parse h
  obtain ⟨es', hes', hy', -, hblank, hn'⟩ := exists_spell_of_parse h'
  have hnil : (scan s [.title] (.start t)).2.ahead = [] := by
    rw [scan_of_run_many1 hread]
    exact List.isEmpty_iff.1 hend
  have ht : Started t := started_of_next?_title hs hn
  have ht' : Started t' := started_of_next?_title hs hn'
  obtain ⟨k, d, hd, h0, hstart, hentries, hrest⟩ :=
    @scan_append_lf s [.title] (.start t) (.start (t ++ '\n' :: t')) t' hs.unbroken rfl rfl ht.ne_nil ht' rfl hnil
  -- the scan comes to the second text as if to a start
  have hstep : (Cursor.start t').InStep d := ⟨rfl, h0, Cursor.startsLine_start t', hstart, by rw [hd]; exact .refl t'⟩
  obtain ⟨hentries', hblank'⟩ := scan_followers hs hstep hn' k
  have hall : (scan s [.title] (.start (t ++ '\n' :: t'))).1.mapM (resolve s z) = .ok (es ++ es') := by
    rw [mapM_resolve_eq_ok_iff, hentries, hentries']
    exact List.rel_append (mapM_resolve_eq_ok_iff.1 hes) (mapM_resolve_eq_ok_iff.1 hes')
  have hspell : spell s z (scan s [.title] (.start (t ++ '\n' :: t'))).1 = .ok { lists := y ++ y' } := by
    unfold spell
    rw [hall, Except.map, assemble_append es hy', hy]
    rfl
  refine parse_of_spell hspell ?_ ?_
  · exact List.append_ne_nil_of_left_ne_nil hne y'
  · rw [hrest, hblank', hblank]

/-- The last line of the first text is not ended, and white space is left over behind the second. -/
theorem parse_append_lf_of_unended_line :
    ({} : Symbols).Compatible ∧
      (many1 (taskList {} .utc)).run (.start "## A\n- b".toList) =
        .done [⟨"A".toList, [⟨"b".toList, none, none, []⟩]⟩] ((Cursor.start "## A\n- b".toList).advance 8) ∧
      Document.parse "## A\n- b\n## C\n \n".toList {} .utc =
        .ok [⟨"A".toList, [⟨"b".toList, none, none, []⟩]⟩, ⟨"C".toList, []⟩] := by
  have hs : ({} : Symbols).Compatible := Symbols.compatible_default
  have hread : (many1 (taskList {} .utc)).run (.start "## A\n- b".toList) =
      .done [⟨"A".toList, [⟨"b".toList, none, none, []⟩]⟩] ((Cursor.start "## A\n- b".toList).advance 8) := by
    cbv
  have h : Document.parse "## A\n- b".toList {} .utc = .ok [⟨"A".toList, [⟨"b".toList, none, none, []⟩]⟩] := by cbv
  have h' : Document.parse "## C\n \n".toList {} .utc = .ok [⟨"C".toList, []⟩] := by cbv
  exact ⟨hs, hread, parse_append_lf hs .utc h h' hread rfl⟩

end Layout

end Taskbook
