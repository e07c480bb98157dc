/-
Reading the beginning of a text. What finds something ahead of a cursor is local if it looks no further than
to where it comes: with a part of the text cut off behind that place it finds the same, and what it does not find
ahead it does not find in any beginning. All kinds of lines are found locally, so the scan of a text that is cut
behind its entries takes the same entries, and cut where an entry begins it takes those before.
-/
import Taskbook.Proofs.Layout.Places
import Taskbook.Proofs.Layout.Reading

namespace Taskbook

namespace Text

theorem head?_afterFirstLine (t : Text) : ∀ c ∈ (afterFirstLine t).head?, isBreak c = false := by
  intro c hc
  have h := List.head?_dropWhile_not isBreak (t.dropWhile fun c => !isBreak c)
  rw [show (List.dropWhile isBreak _).head? = some c from hc] at h
  simpa using h

theorem afterFirstLine_of_firstBreaks {t : Text} (h : firstBreaks t = []) : afterFirstLine t = [] := by
  unfold firstBreaks at h
  rw [drop_firstLine] at h
  unfold afterFirstLine
  rcases hd : t.dropWhile (fun c => !isBreak c) with _ | ⟨c, r⟩
  · rfl
  · have hc := List.head?_dropWhile_not (fun c => !isBreak c) t
    rw [hd] at h hc
    rw [List.takeWhile_cons_of_pos (by simpa using hc)] at h
    cases h

/-- A line, some breaks and what does not begin with a break are the first line, its breaks and the rest. -/
theorem firstLine_of_parts {l b r : Text} (hl : Unbroken l) (hb : ∀ c ∈ b, isBreak c = true)
    (hr : ∀ c ∈ r.head?, isBreak c = false) (hn : b = [] → r = []) :
    firstLine (l ++ (b ++ r)) = l ∧ firstBreaks (l ++ (b ++ r)) = b ∧ afterFirstLine (l ++ (b ++ r)) = r := by
  have htake : r.takeWhile isBreak = [] ∧ r.dropWhile isBreak = r := by
    rcases r with _ | ⟨c, r⟩
    · exact ⟨rfl, rfl⟩
    · have hc := hr c rfl
      exact ⟨List.takeWhile_cons_of_neg (by simp [hc]), List.dropWhile_cons_of_neg (by simp [hc])⟩
  have hline : firstLine (b ++ r) = [] ∧ (b ++ r).dropWhile (fun c => !isBreak c) = b ++ r := by
    rcases b with _ | ⟨c, b⟩
    · rw [hn rfl]
      exact ⟨rfl, rfl⟩
    · have hc := hb c (List.mem_cons_self ..)
      exact ⟨List.takeWhile_cons_of_neg (by simp [hc]), List.dropWhile_cons_of_neg (by simp [hc])⟩
  refine ⟨?_, ?_, ?_⟩
  · rw [firstLine_append hl, hline.1, List.append_nil]
  · rw [firstBreaks_append hl, firstBreaks, hline.1, List.length_nil, List.drop_zero,
      List.takeWhile_append_of_pos hb, htake.1, List.append_nil]
  · rw [afterFirstLine_append hl, afterFirstLine, hline.2, List.dropWhile_append_of_pos hb, htake.2]

theorem take_append_sub (a : Text) {b : Text} {k : Nat} (h : k ≤ b.length) :
    (a ++ b).take ((a ++ b).length - k) = a ++ b.take (b.length - k) := by
  rw [List.length_append, List.take_append, List.take_of_length_le (by omega)]
  congr 2
  omega

end Text

namespace Cursor

/-- The cursor in the text without the last `k` characters, as far as these lie ahead. -/
def dropEnd (c : Cursor) (k : Nat) : Cursor where
  behind := c.behind
  ahead := c.ahead.take (c.ahead.length - k)
  excess := c.excess
  beyond := by
    rcases c.beyond with h | h
    · left; rw [h, List.take_nil]
    · exact .inr h

@[simp] theorem ahead_dropEnd (c : Cursor) (k : Nat) : (c.dropEnd k).ahead = c.ahead.take (c.ahead.length - k) := rfl

theorem dropEnd_past {c : Cursor} {a r : Text} {k : Nat} (h : c.ahead = a ++ r) (hk : k ≤ r.length) :
    (c.dropEnd k).ahead = a ++ r.take (r.length - k) ∧
      (c.past a r).dropEnd k = (c.dropEnd k).past a (r.take (r.length - k)) := by
  refine ⟨?_, rfl⟩
  rw [ahead_dropEnd, h]
  exact Text.take_append_sub a hk

theorem start_take (t : Text) (n : Nat) : start (t.take n) = (start t).dropEnd (t.length - n) := by
  have h : t.take n = t.take (t.length - (t.length - n)) := by
    rcases Nat.le_total n t.length with hn | hn
    · rw [Nat.sub_sub_self hn]
    · rw [Nat.sub_eq_zero_of_le hn, Nat.sub_zero, List.take_of_length_le hn, List.take_length]
  unfold start dropEnd
  simp only [h]

open Text in
/-- A cut behind the breaks of a line leaves the line. -/
theorem line_dropEnd {c : Cursor} {k : Nat} (hk : k ≤ c.nextLine.ahead.length) :
    (c.dropEnd k).restOfLine = c.restOfLine ∧ (c.dropEnd k).nextLine = c.nextLine.dropEnd k := by
  generalize hrest : (afterFirstLine c.ahead).take ((afterFirstLine c.ahead).length - k) = rest
  have hahead : (c.dropEnd k).ahead = firstLine c.ahead ++ (firstBreaks c.ahead ++ rest) := by
    rw [← List.append_assoc, ← hrest]
    exact (dropEnd_past (firstLine_append_rest c.ahead).symm hk).1
  have hhead : ∀ x ∈ rest.head?, isBreak x = false := by
    intro x hx
    rw [← hrest, List.head?_take] at hx
    split at hx
    · cases hx
    · exact head?_afterFirstLine c.ahead x hx
  have hbreaks : ∀ x ∈ firstBreaks c.ahead, isBreak x = true := fun x hx => List.mem_takeWhile_imp hx
  have hnone : firstBreaks c.ahead = [] → rest = [] := by
    intro hb
    rw [← hrest, afterFirstLine_of_firstBreaks hb, List.take_nil]
  obtain ⟨hl, hb, hr⟩ := firstLine_of_parts (unbroken_firstLine c.ahead) hbreaks hhead hnone
  rw [← hahead] at hl hb hr
  refine ⟨hl, ?_⟩
  unfold nextLine restOfLine
  rw [hl, hb, hr, ← hrest]
  rfl

/-- A line begins here, if anything lies ahead. -/
def StartsLine (c : Cursor) : Prop :=
  c.ahead ≠ [] → Text.lastLine c.behind.reverse = [] ∧ ¬ Text.CutsBreak c.behind.reverse c.ahead

theorem startsLine_start (t : Text) : (start t).StartsLine := by
  rintro -
  refine ⟨rfl, ?_⟩
  rintro ⟨h, -⟩
  cases h

theorem startsLine_nextLine (c : Cursor) : c.nextLine.StartsLine := by
  intro hne
  refine ⟨?_, Text.not_cutsBreak_of_unbroken (Text.head?_afterFirstLine c.ahead)⟩
  have hb : Text.firstBreaks c.ahead ≠ [] := fun h => hne (Text.afterFirstLine_of_firstBreaks h)
  have hlast : Text.isBreak ((Text.firstBreaks c.ahead).getLast hb) = true :=
    List.mem_takeWhile_imp (List.getLast_mem hb)
  have hbehind : c.nextLine.behind.reverse =
      (c.behind.reverse ++ c.restOfLine ++ (Text.firstBreaks c.ahead).dropLast) ++
        [(Text.firstBreaks c.ahead).getLast hb] := by
    rw [List.append_assoc, List.dropLast_concat_getLast hb]
    simp [nextLine]
  rw [hbehind]
  exact Text.lastLine_append_break _ hlast

end Cursor

namespace Layout

open Text

variable {α β : Type}

/-! ## Local finders -/

/-- What is found lies ahead, and no more of the text than that has a say in it. -/
structure Local (find : Cursor → Option (α × Cursor)) : Prop where
  passes : ∀ {c d a}, find c = some (a, d) → ∃ p, c.ahead = p ++ d.ahead ∧ d.behind = p.reverse ++ c.behind
  hit : ∀ {c d a k}, find c = some (a, d) → k ≤ d.ahead.length → find (c.dropEnd k) = some (a, d.dropEnd k)
  miss : ∀ {c k}, find c = none → find (c.dropEnd k) = none

theorem Local.text_eq {find : Cursor → Option (α × Cursor)} (h : Local find) {c d : Cursor} {a : α}
    (hd : find c = some (a, d)) : d.text = c.text := by
  obtain ⟨p, hp, hb⟩ := h.passes hd
  unfold Cursor.text
  rw [hp, hb]
  simp

/-- A line behind a text that lies ahead: it is found in no beginning that ends within that text, and it is not cut
by a cut behind its breaks. -/
theorem local_lineAfter (t : Text) (f : Text → α) :
    Local fun c => (c.after? t).map fun d => (f d.restOfLine, d.nextLine) where
  passes := by
    intro c d a h
    obtain ⟨d', hd, ⟨⟩⟩ := Option.map_eq_some_iff.1 h
    obtain ⟨-, r, hr, rfl⟩ := Cursor.after?_eq_some_iff.1 hd
    refine ⟨t ++ (firstLine r ++ firstBreaks r), ?_, ?_⟩
    · rw [hr, List.append_assoc]
      exact congrArg (t ++ ·) (firstLine_append_rest r).symm
    · rw [List.reverse_append, List.append_assoc]
      rfl
  hit := by
    intro c d a k h hk
    obtain ⟨d', hd, ⟨⟩⟩ := Option.map_eq_some_iff.1 h
    obtain ⟨h0, r, hr, rfl⟩ := Cursor.after?_eq_some_iff.1 hd
    obtain ⟨hahead, hpast⟩ := Cursor.dropEnd_past hr (hk.trans (Cursor.length_nextLine_le _))
    obtain ⟨hl, hx⟩ := Cursor.line_dropEnd hk
    have hafter : (c.dropEnd k).after? t = some ((c.past t r).dropEnd k) :=
      Cursor.after?_eq_some_iff.2 ⟨h0, _, hahead, hpast⟩
    rw [hafter, Option.map_some, hl, hx]
  miss := by
    intro c k h
    rw [Option.map_eq_none_iff] at h ⊢
    by_contra hne
    obtain ⟨d, hd⟩ := Option.ne_none_iff_exists'.1 hne
    obtain ⟨h0, r, hr, -⟩ := Cursor.after?_eq_some_iff.1 hd
    -- what is left ahead is a beginning of all that lies ahead
    have hc : c.ahead = t ++ (r ++ c.ahead.drop (c.ahead.length - k)) := by
      rw [← List.append_assoc, ← hr]
      exact (List.take_append_drop ..).symm
    have hafter : c.after? t = some (c.past t (r ++ c.ahead.drop (c.ahead.length - k))) :=
      Cursor.after?_eq_some_iff.2 ⟨h0, _, hc, rfl⟩
    rw [hafter] at h
    cases h

theorem Local.map {find : Cursor → Option (α × Cursor)} (h : Local find) (f : α → β) :
    Local fun c => (find c).map fun x => (f x.1, x.2) where
  passes := by
    intro c d b hd
    obtain ⟨⟨a, d'⟩, hd', ⟨⟩⟩ := Option.map_eq_some_iff.1 hd
    exact h.passes hd'
  hit := by
    intro c d b k hd hk
    obtain ⟨⟨a, d'⟩, hd', ⟨⟩⟩ := Option.map_eq_some_iff.1 hd
    rw [h.hit hd' hk]
    rfl
  miss := by
    intro c k hd
    rw [Option.map_eq_none_iff] at hd
    rw [h.miss hd]
    rfl

theorem local_findSome? {ι : Type} {find : ι → Cursor → Option (α × Cursor)} :
    ∀ {is : List ι}, (∀ i ∈ is, Local (find i)) → Local fun c => is.findSome? fun i => find i c
  | [], _ => ⟨nofun, nofun, fun _ => rfl⟩
  | i :: is, h => by
    obtain ⟨hi, his⟩ := List.forall_mem_cons.1 h
    have ih := local_findSome? his
    refine ⟨?_, ?_, ?_⟩
    · intro c d a hd
      rw [List.findSome?_cons] at hd
      rcases hf : find i c with _ | x <;> rw [hf] at hd
      · exact ih.passes hd
      · cases hd
        exact hi.passes hf
    · intro c d a k hd hk
      rw [List.findSome?_cons] at hd ⊢
      rcases hf : find i c with _ | x <;> rw [hf] at hd
      · rw [hi.miss hf]
        exact ih.hit hd hk
      · cases hd
        rw [hi.hit hf hk]
    · intro c k hd
      rw [List.findSome?_cons] at hd ⊢
      rcases hf : find i c with _ | x <;> rw [hf] at hd
      · rw [hi.miss hf]
        exact ih.miss hd
      · cases hd

/-! ## Entries are found locally -/

variable {s : Symbols} {ks : List Kind} {k : Kind} {c d : Cursor} {e : Entry Text}

theorem local_lineBehind? (symbol : Text) : Local (lineBehind? symbol) := local_lineAfter (symbol ++ [' ']) id

/-- The item of a checklist is the line behind its symbol and one of the two marks. -/
theorem itemBehind?_eq_findSome? (symbol : Text) (c : Cursor) :
    itemBehind? symbol c = [true, false].findSome? fun complete =>
      (c.after? (symbol ++ [' '] ++ (Subtask.mark complete ++ [' ']))).map fun d =>
        (({ complete, name := d.restOfLine } : Subtask), d.nextLine) := by
  unfold itemBehind? markAhead?
  simp only [← Cursor.after?_append c (symbol ++ [' '])]
  rcases c.after? (symbol ++ [' ']) with _ | d
  · rfl
  · simp only [Option.bind_some, List.findSome?_cons, List.findSome?_nil]
    cases d.after? (Subtask.mark true ++ [' ']) <;> cases d.after? (Subtask.mark false ++ [' ']) <;> rfl

theorem local_itemBehind? (symbol : Text) : Local (itemBehind? symbol) := by
  rw [show itemBehind? symbol = _ from funext (itemBehind?_eq_findSome? symbol)]
  refine local_findSome? fun complete _ => ?_
  exact local_lineAfter _ fun name => ({ complete, name } : Subtask)

theorem local_read? (s : Symbols) (k : Kind) : Local fun c => k.read? s c := by
  cases k with
  | subtask => exact (local_itemBehind? s.subtask).map _
  | _ => exact (local_lineBehind? _).map _

theorem local_next? (s : Symbols) (ks : List Kind) : Local (next? s ks) :=
  local_findSome? fun k _ => local_read? s k

/-! ## The scan of a beginning -/

theorem length_scan_le (s : Symbols) (ks : List Kind) (c : Cursor) : (scan s ks c).2.ahead.length ≤ c.ahead.length :=
  scan_rest (P := fun d => d.ahead.length ≤ c.ahead.length)
    (fun hr hle => Nat.le_trans (Nat.le_of_lt (read?_length hr)) hle) (Nat.le_refl _)

theorem text_scan (s : Symbols) (ks : List Kind) (c : Cursor) : (scan s ks c).2.text = c.text :=
  scan_rest (P := fun d => d.text = c.text) (fun hr htext => ((local_read? s _).text_eq hr).trans htext) rfl

/-- Cut behind its entries, a text has the same entries. -/
theorem scan_dropEnd {n : Nat} (h : n ≤ (scan s ks c).2.ahead.length) :
    scan s ks (c.dropEnd n) = ((scan s ks c).1, (scan s ks c).2.dropEnd n) := by
  induction ks, c using scan.induct s with
  | case1 ks c hn =>
    rw [scan_none hn, scan_none ((local_next? s ks).miss hn)]
  | case2 ks c e d hs ih =>
    rw [scan_some hs] at h ⊢
    have hd : n ≤ d.ahead.length := h.trans (length_scan_le s _ d)
    rw [scan_some ((local_next? s ks).hit hs hd), ih h]
    rfl

theorem scan_of_ahead_nil (h : c.ahead = []) : scan s ks c = ([], c) := by
  refine scan_none ?_
  by_contra hne
  obtain ⟨⟨e, d⟩, hd⟩ := Option.ne_none_iff_exists'.1 hne
  have hlt : d.ahead.length < c.ahead.length := next?_length hd
  rw [h] at hlt
  exact absurd hlt (Nat.not_lt_zero _)

theorem startsLine_of_next? (h : next? s ks c = some (e, d)) : d.StartsLine := by
  obtain ⟨k, -, hr⟩ := List.exists_of_findSome?_eq_some h
  obtain ⟨-, c', -, -, -, rfl⟩ := exists_of_read? hr
  exact Cursor.startsLine_nextLine c'

/-- An entry of a scan is read where a line begins, and the text before that line holds the entries before. -/
theorem scan_found (hc : c.StartsLine) {before after : List Found} {f : Found}
    (h : (scan s ks c).1 = before ++ f :: after) :
    ∃ d d', d.StartsLine ∧ d.text = c.text ∧ d.ahead.length ≤ c.ahead.length ∧ f.place = d.location ∧
      f.entry.kind.read? s d = some (f.entry, d') ∧
      scan s ks (c.dropEnd d.ahead.length) = (before, d.dropEnd d.ahead.length) := by
  induction ks, c using scan.induct s generalizing before with
  | case1 ks c hn =>
    rw [scan_none hn] at h
    cases before <;> cases h
  | case2 ks c e d hs ih =>
    rw [scan_some hs] at h
    rcases before with _ | ⟨b, before⟩
    · -- the entry is the first one, and nothing is left in front of it
      cases h
      obtain ⟨k, -, hr⟩ := List.exists_of_findSome?_eq_some hs
      have hcut : (c.dropEnd c.ahead.length).ahead = [] := by
        rw [Cursor.ahead_dropEnd, Nat.sub_self, List.take_zero]
      refine ⟨c, d, hc, rfl, Nat.le_refl _, rfl, ?_, scan_of_ahead_nil hcut⟩
      rw [read?_kind hr]
      exact hr
    · rw [List.cons_append, List.cons.injEq] at h
      obtain ⟨rfl, h⟩ := h
      obtain ⟨x, x', hx, htext, hlen, hplace, hread, hscan⟩ := ih (startsLine_of_next? hs) h
      have hle : d.ahead.length ≤ c.ahead.length := Nat.le_of_lt (next?_length hs)
      have htext' : d.text = c.text := (local_next? s ks).text_eq hs
      refine ⟨x, x', hx, htext.trans htext', hlen.trans hle, hplace, hread, ?_⟩
      rw [scan_some ((local_next? s ks).hit hs hlen), hscan]
      rfl

end Layout

end Taskbook
