/-
What the failures of reading say about the text. A text that does not match is a document up to the place that is
reported and no further; a due that holds no date stands where it is reported, as the first such due, and the text
before its line is a document.
-/
import Mathlib.Order.Bounds.Defs
import Taskbook.Proofs.Layout.Beginnings
import Taskbook.Proofs.Layout.Failures

namespace Taskbook

namespace Text

theorem allBlank_take_iff {t : Text} {n : Nat} (h : n ≤ t.length) :
    allBlank (t.take n) = true ↔ n ≤ (t.takeWhile isBlank).length := by
  unfold allBlank
  rw [List.all_eq_true]
  constructor
  · intro hall
    have hn : (t.take n).length = n := List.length_take_of_le h
    rw [← List.take_append_drop n t, List.takeWhile_append_of_pos hall, List.length_append, hn]
    exact Nat.le_add_right ..
  · intro hle c hc
    rw [← List.takeWhile_append_dropWhile (p := isBlank) (l := t), List.take_append_of_le_length hle] at hc
    exact List.mem_takeWhile_imp (List.mem_of_mem_take hc)

end Text

namespace Cursor

theorem eq_advance {c : Cursor} (h : c.excess = 0) : c = (start c.text).advance c.behind.length := by
  obtain ⟨behind, ahead, excess, beyond⟩ := c
  cases h
  unfold start text advance
  simp

theorem length_behind_pastBlanks (c : Cursor) :
    c.pastBlanks.behind.length = c.behind.length + (c.ahead.takeWhile Text.isBlank).length := by
  unfold pastBlanks
  rw [behind_past, List.length_append, List.length_reverse, Nat.add_comm]

theorem text_pastBlanks (c : Cursor) : c.pastBlanks.text = c.text := by
  unfold pastBlanks text
  simp

end Cursor

namespace Layout

open Text Outcome Taskbook.Parser

variable {s : Symbols} {z : Zone} {t : Text} {x : Draft}

/-! ## Documents at the beginning of a text -/

theorem scan_eq_nil_iff {ks : List Kind} {c : Cursor} : (scan s ks c).1 = [] ↔ next? s ks c = none := by
  rcases hn : next? s ks c with _ | ⟨e, d⟩
  · rw [scan_none hn]
    exact ⟨fun _ => rfl, fun _ => rfl⟩
  · rw [scan_some hn]
    constructor <;> rintro ⟨⟩

theorem kind_of_next?_title {c d : Cursor} {e : Entry Text} (h : next? s [.title] c = some (e, d)) :
    e.kind = .title := by
  obtain ⟨k, hk, hr⟩ := List.exists_of_findSome?_eq_some h
  rw [List.mem_singleton] at hk
  exact (read?_kind hr).trans hk

theorem lists_eq_nil_iff {c : Cursor} (h : spell s z (scan s [.title] c).1 = .ok x) :
    x.lists = [] ↔ next? s [.title] c = none := by
  have hread : reading s z [.title] c = .done x (scan s [.title] c).2 := by
    unfold reading
    rw [h]
  rcases hn : next? s [.title] c with _ | ⟨e, d⟩
  · rw [scan_none hn] at h
    cases h
    exact ⟨fun _ => rfl, fun _ => rfl⟩
  · have hkind := kind_of_next?_title hn
    rw [reading_some hn] at hread
    rcases e with title | _ | _ | _ | _ <;> cases hkind
    rw [resolve, Entry.kind, Kind.followers] at hread
    rcases hd : reading s z [.task, .title] d with ⟨y, d'⟩ | _ | g <;> rw [hd] at hread <;> cases hread
    constructor <;> rintro ⟨⟩

/-- The text is a document for the parser of documents. -/
def Accepts (s : Symbols) (z : Zone) (t : Text) : Prop := ∃ lists rest, (document s z).run (.start t) = .done lists rest

theorem accepts_iff : Accepts s z t ↔ ∃ x, spell s z (scan s [.title] (.start t)).1 = .ok x ∧
    x.lists ≠ [] ∧ allBlank (scan s [.title] (.start t)).2.ahead = true := by
  have hparse : Accepts s z t ↔ ∃ lists, Document.parse t s z = .ok lists := by
    unfold Accepts Document.parse
    cases (document s z).run (.start t) <;> simp
  rw [hparse, parse_eq_scan]
  rcases spell s z (scan s [.title] (.start t)).1 with g | x
  · simp
  · by_cases h : x.lists ≠ [] ∧ allBlank (scan s [.title] (.start t)).2.ahead = true
    · simp [h]
    · simp [if_neg h]
      exact fun hne => by simpa [hne] using h

/-- Where the entries of a text stop, a beginning is a document as long as only white space follows them. -/
theorem accepts_take_iff (hx : spell s z (scan s [.title] (.start t)).1 = .ok x) (hne : x.lists ≠ []) {n : Nat}
    (hlow : (scan s [.title] (.start t)).2.behind.length ≤ n) (hn : n ≤ t.length) :
    Accepts s z (t.take n) ↔ n ≤ (scan s [.title] (.start t)).2.pastBlanks.behind.length := by
  have htext : (scan s [.title] (.start t)).2.text = t := text_scan s [.title] (.start t)
  generalize hc : (scan s [.title] (.start t)).2 = c at hlow htext ⊢
  have hlen : c.behind.length + c.ahead.length = t.length := by
    rw [← htext, Cursor.text, List.length_append, List.length_reverse]
  have hcut : t.length - n ≤ (scan s [.title] (.start t)).2.ahead.length := by
    rw [hc]
    omega
  rw [accepts_iff, Cursor.start_take, scan_dropEnd hcut, hx, hc]
  have hblank := allBlank_take_iff (t := c.ahead) (Nat.sub_le c.ahead.length (t.length - n))
  rw [Cursor.length_behind_pastBlanks]
  constructor
  · rintro ⟨-, -, -, hall⟩
    have := hblank.1 hall
    omega
  · intro hle
    exact ⟨x, rfl, hne, hblank.2 (by omega)⟩

theorem not_accepts_take (h : next? s [.title] (.start t) = none) (n : Nat) : ¬ Accepts s z (t.take n) := by
  rw [accepts_iff, Cursor.start_take, scan_none ((local_next? s [.title]).miss h)]
  rintro ⟨x, ⟨⟩, hne, -⟩
  exact hne rfl

/-! ## Where a text stops to match -/

/-- Where the text stops to be a document: behind its longest beginning that is one or, if none is, behind the white
space at its start. -/
def StopsAt (s : Symbols) (z : Zone) (t : Text) (n : Nat) : Prop :=
  IsGreatest {n | n ≤ t.length ∧ Accepts s z (t.take n)} n ∨
    (∀ n, ¬ Accepts s z (t.take n)) ∧ n = (t.takeWhile isBlank).length

theorem stopsAt_pastBlanks (hx : spell s z (scan s [.title] (.start t)).1 = .ok x) :
    StopsAt s z t (scan s [.title] (.start t)).2.pastBlanks.behind.length := by
  by_cases hne : x.lists = []
  · -- nothing is taken, so the white space is that at the start
    right
    rw [lists_eq_nil_iff hx] at hne
    refine ⟨not_accepts_take hne, ?_⟩
    rw [scan_none hne]
    unfold Cursor.pastBlanks
    simp [Cursor.start]
  · left
    have htext : (scan s [.title] (.start t)).2.pastBlanks.text = t := by
      rw [Cursor.text_pastBlanks, text_scan, Cursor.text_start]
    have hlow := Nat.le.intro (Cursor.length_behind_pastBlanks (scan s [.title] (.start t)).2).symm
    have hlen : (scan s [.title] (.start t)).2.pastBlanks.behind.length ≤ t.length := by
      conv => rhs; rw [← htext, Cursor.text, List.length_append, List.length_reverse]
      exact Nat.le_add_right ..
    constructor
    · exact ⟨hlen, (accepts_take_iff hx hne hlow hlen).2 (Nat.le_refl _)⟩
    · rintro n ⟨hn, haccepts⟩
      by_cases hle : (scan s [.title] (.start t)).2.behind.length ≤ n
      · exact (accepts_take_iff hx hne hle hn).1 haccepts
      · omega

/-- The failure of a text that does not match tells where it stops to be a document: the line and the column of that
place and the rest of the line there. The second reading, which looks for that place, finds it. -/
theorem parse_unmatched_spec {line column : Int} {context : Text}
    (h : Document.parse t s z = .error (.unmatched line column context)) :
    ∃ n, StopsAt s z t n ∧
      (∃ blanks, (Layout.opening s z).run (.start t) = .done blanks ((Cursor.start t).advance n)) ∧
      line = ((Cursor.start t).advance n).location.1 ∧ column = ((Cursor.start t).advance n).location.2 ∧
      context = firstLine (t.drop n) := by
  rw [parse_eq_scan] at h
  rcases hx : spell s z (scan s [.title] (.start t)).1 with g | x <;> rw [hx] at h
  · -- a due that is not read fails otherwise
    cases h
    obtain ⟨-, f, -, -, -, -, hf, -⟩ := spell_eq_error hx
    obtain ⟨text, -, ⟨-, ⟨⟩⟩ | ⟨g, -, ⟨⟩⟩⟩ := resolve_eq_error hf
  · dsimp only at h
    split at h
    · cases h
    · cases h
      have hstops := stopsAt_pastBlanks hx
      have hplace : (scan s [.title] (.start t)).2.pastBlanks =
          (Cursor.start t).advance (scan s [.title] (.start t)).2.pastBlanks.behind.length := by
        have htext : (scan s [.title] (.start t)).2.pastBlanks.text = t := by
          rw [Cursor.text_pastBlanks, text_scan, Cursor.text_start]
        have h := Cursor.eq_advance (c := (scan s [.title] (.start t)).2.pastBlanks) rfl
        rwa [htext] at h
      obtain ⟨blanks, hopening⟩ := run_opening hx
      generalize (scan s [.title] (.start t)).2.pastBlanks.behind.length = n at hstops hplace
      rw [hplace] at hopening ⊢
      exact ⟨n, hstops, ⟨blanks, hopening⟩, rfl, rfl, rfl⟩

/-- A mark that is neither an x nor a blank stops the text inside the line of its subtask. -/
theorem parse_unmatched_spec_of_checklist :
    Document.parse "## A\n- b\n\n    * [x] c\n    * [y] d\n".toList {} .utc =
        .error (.unmatched 5 5 "* [y] d".toList) ∧
      ∃ n, StopsAt {} .utc "## A\n- b\n\n    * [x] c\n    * [y] d\n".toList n ∧
        "* [y] d".toList = firstLine ("## A\n- b\n\n    * [x] c\n    * [y] d\n".toList.drop n) := by
  have h : Document.parse "## A\n- b\n\n    * [x] c\n    * [y] d\n".toList {} .utc =
      .error (.unmatched 5 5 "* [y] d".toList) := by decide +kernel
  obtain ⟨n, hstop, -, -, -, hcontext⟩ := parse_unmatched_spec h
  exact ⟨h, n, hstop, hcontext⟩

/-! ## Where the first bad due stands -/

/-- The line that a due of a text was read from, with what stands above it; the entries before the due are those of
the text above. -/
theorem due_line_of_scan {before after : List Found} {f : Found} {text : Text}
    (h : (scan s [.title] (.start t)).1 = before ++ f :: after) (hf : f.entry = .due text) :
    ∃ above rest, t = above ++ (s.due ++ ' ' :: rest) ∧ text = firstLine rest ∧ lastLine above = [] ∧
      ¬ CutsBreak above (s.due ++ ' ' :: rest) ∧ f.place = endOf above ∧
      (scan s [.title] (.start above)).1 = before ∧ (scan s [.title] (.start above)).2.ahead = [] := by
  obtain ⟨d, d', hstart, htext, -, hplace, hread, hscan⟩ := scan_found (Cursor.startsLine_start t) h
  rw [hf] at hread
  obtain ⟨⟨line, c⟩, hline, hentry⟩ := Option.map_eq_some_iff.1 hread
  cases hentry
  obtain ⟨c, hafter, hc⟩ := Option.map_eq_some_iff.1 hline
  obtain ⟨hbad, -⟩ := Prod.mk.inj hc
  obtain ⟨-, rest, hahead, rfl⟩ := Cursor.after?_eq_some_iff.1 hafter
  rw [List.append_assoc, List.singleton_append] at hahead
  obtain ⟨hlast, hcut⟩ := hstart (by simp [hahead])
  have ht : t = d.behind.reverse ++ d.ahead := htext.symm
  -- the text above the line is the whole text cut where the line begins
  have habove : Cursor.start d.behind.reverse = (Cursor.start t).dropEnd d.ahead.length := by
    have htake : t.take d.behind.reverse.length = d.behind.reverse := by rw [ht, List.take_left]
    have hlen : t.length - d.behind.reverse.length = d.ahead.length := by
      rw [ht, List.length_append, Nat.add_sub_cancel_left]
    have hcursor := Cursor.start_take t d.behind.reverse.length
    rwa [htake, hlen] at hcursor
  rw [hahead] at ht hcut
  refine ⟨d.behind.reverse, rest, ht, hbad.symm, hlast, hcut, hplace, ?_, ?_⟩
  · rw [habove, hscan]
  · rw [habove, hscan, Cursor.ahead_dropEnd, Nat.sub_self, List.take_zero]

theorem getElem?_splitLines_due (hs : Unbroken s.due) {above rest : Text} (hlast : lastLine above = [])
    (hcut : ¬ CutsBreak above (s.due ++ ' ' :: rest)) :
    (splitLines (above ++ (s.due ++ ' ' :: rest)))[(endOf above).1 - 1]? = some (s.due ++ [' '] ++ firstLine rest) := by
  have hopening : Unbroken (s.due ++ [' ']) := unbroken_append.2 ⟨hs, by simp [isBreak_blank]⟩
  rw [getElem?_splitLines_append hcut, hlast, List.nil_append, ← firstLine_append hopening, List.append_assoc]
  rfl

theorem ne_nil_of_scan_title {c : Cursor} {before after : List Found} {f : Found}
    (h : (scan s [.title] c).1 = before ++ f :: after) (hf : f.entry.kind ≠ .title) : before ≠ [] := by
  rintro rfl
  rcases hn : next? s [.title] c with _ | ⟨e, d⟩
  · rw [scan_none hn] at h
    cases h
  · have hkind := kind_of_next?_title hn
    rw [scan_some hn] at h
    cases h
    exact hf hkind

/-- The failure of a bad due tells its text and the line and the column where that stands, behind the symbol of dues
and a blank. It is the first bad due: those above it are read, and the text above its line is a document. -/
theorem parse_badDue_spec (hs : Unbroken s.due) {bad : Text} {line column : Int}
    (h : Document.parse t s z = .error (.badDue bad line column)) :
    ∃ (above rest : Text) (i j : Nat) (l : Text), t = above ++ (s.due ++ ' ' :: rest) ∧
      splitLines above = (splitLines t).take i ++ [[]] ∧ (splitLines t)[i]? = some l ∧
      line = i + 1 ∧ column = j + 1 ∧ l.take j = s.due ++ [' '] ∧ l.drop j = bad ∧
      (∀ z', Due.read bad z' = .ok none) ∧ (∃ d, Document.parse above s z = .ok d) ∧
      ∃ before after, (scan s [.title] (.start t)).1 = before ++ ⟨(i + 1, 1), .due bad⟩ :: after ∧
        (scan s [.title] (.start above)).1 = before ∧
        ∀ f ∈ before, ∀ text, f.entry = .due text → ∃ m, Due.read text z = .ok (some m) := by
  rw [parse_eq_scan] at h
  rcases hx : spell s z (scan s [.title] (.start t)).1 with g | x <;> rw [hx] at h
  swap
  · -- without a bad due the text can only fail where it stops to match
    dsimp only at h
    split at h <;> cases h
  cases h
  obtain ⟨before, f, after, y, hscan, hy, hf, hbefore⟩ := spell_eq_error hx
  obtain ⟨_, hentry, ⟨hread, hg⟩ | ⟨_, -, ⟨⟩⟩⟩ := resolve_eq_error hf
  cases hg
  obtain ⟨above, rest, ht, hbad, hlast, hcut, hplace, habove, hend⟩ := due_line_of_scan hscan hentry
  have hplace' : f.place = ((endOf above).1 - 1 + 1, 1) := hplace.trans (endOf_of_lastLine hlast)
  have hline : (splitLines t)[(endOf above).1 - 1]? = some (s.due ++ [' '] ++ bad) := by
    rw [ht, hbad]
    exact getElem?_splitLines_due hs hlast hcut
  have hcolumn : (s.due ++ [' ']).length = s.due.length + 1 := List.length_append
  refine ⟨above, rest, (endOf above).1 - 1, s.due.length + 1, s.due ++ [' '] ++ bad, ht, ?_, hline, ?_, ?_, ?_, ?_,
    ?_, ?_, before, after, ?_, habove, ?_⟩
  · rw [ht]
    exact splitLines_above hlast hcut
  · rw [hplace']
    simp
  · rw [hplace']
    push_cast
    omega
  · rw [← hcolumn, List.take_left]
  · rw [← hcolumn, List.drop_left]
  · intro z'
    rw [Due.read_eq_none_iff] at hread ⊢
    exact hread
  · have hne : before ≠ [] := ne_nil_of_scan_title hscan (by rw [hentry]; nofun)
    rw [← habove] at hy hne
    refine ⟨y.lists, parse_of_spell hy ?_ (by rw [hend]; rfl)⟩
    rwa [Ne, lists_eq_nil_iff hy, ← scan_eq_nil_iff]
  · rw [hscan, ← hplace', ← hentry]
  · intro f' hf' text htext
    obtain ⟨e, he⟩ := hbefore f' hf'
    exact read_of_resolve he htext

/-- The second due is the first bad one, and the four lines above it are a document. -/
theorem parse_badDue_spec_of_soon :
    Unbroken ({} : Symbols).due ∧
      Document.parse "## A\n- a\n    @ 2024-02-29\n- b\n    @ soon\n- c\n    @ later\n".toList {} .utc =
        .error (.badDue "soon".toList 5 7) ∧
      ∃ above, splitLines above = ["## A".toList, "- a".toList, "    @ 2024-02-29".toList, "- b".toList, []] ∧
        ∃ d, Document.parse above {} .utc = .ok d := by
  have hs : Unbroken ({} : Symbols).due := by decide
  have hread : Due.read "2024-02-29".toList .utc =
      .ok (some { wall := ⟨63844761600000000, by decide⟩, zone := some .utc }) := by decide +kernel
  have hbad : Due.read "soon".toList .utc = .ok none := by decide +kernel
  have hscan : (scan {} [.title]
      (.start "## A\n- a\n    @ 2024-02-29\n- b\n    @ soon\n- c\n    @ later\n".toList)).1 =
        [⟨(1, 1), .title "A".toList⟩, ⟨(2, 1), .task "a".toList⟩, ⟨(3, 1), .due "2024-02-29".toList⟩,
          ⟨(4, 1), .task "b".toList⟩, ⟨(5, 1), .due "soon".toList⟩, ⟨(6, 1), .task "c".toList⟩,
          ⟨(7, 1), .due "later".toList⟩] := by decide +kernel
  have h : Document.parse "## A\n- a\n    @ 2024-02-29\n- b\n    @ soon\n- c\n    @ later\n".toList {} .utc =
      .error (.badDue "soon".toList 5 7) := by
    rw [parse_eq_scan, hscan]
    unfold spell
    simp only [List.mapM_cons, resolve, hread, hbad]
    rfl
  obtain ⟨above, -, i, -, -, -, habove, -, hline, -, -, -, -, hd, -⟩ := parse_badDue_spec hs h
  obtain rfl : i = 4 := by omega
  exact ⟨hs, h, above, habove, hd⟩

end Layout

end Taskbook
