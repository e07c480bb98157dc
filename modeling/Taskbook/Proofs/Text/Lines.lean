/-
Texts and their lines. Splitting undoes the joining of unbroken lines, so a text whose breaks are
unified keeps its lines. A logical line is an unbroken run of characters with every break behind it:
the logical lines of a text, one behind the other, are the text, and each is found by the first line
of what is left.
-/
import Taskbook.Text.Blank
import Taskbook.Text.Break
import Mathlib.Data.List.TakeWhile
import Mathlib.Data.List.Basic

namespace Taskbook.Text

/-- No character breaks the line. -/
def Unbroken (t : Text) : Prop := ∀ c ∈ t, isBreak c = false

instance (t : Text) : Decidable (Unbroken t) := List.decidableBAll (fun c => isBreak c = false) t

@[simp] theorem unbroken_nil : Unbroken [] := by simp [Unbroken]

@[simp] theorem unbroken_cons {c : Char} {t : Text} : Unbroken (c :: t) ↔ isBreak c = false ∧ Unbroken t := by
  simp [Unbroken]

@[simp] theorem unbroken_append {a b : Text} : Unbroken (a ++ b) ↔ Unbroken a ∧ Unbroken b := by
  simp [Unbroken, or_imp, forall_and]

theorem Unbroken.of_subset {a b : Text} (hb : Unbroken b) (h : a ⊆ b) : Unbroken a := fun c hc => hb c (h hc)

theorem unbroken_iff {t : Text} : Unbroken t ↔ '\r' ∉ t ∧ '\n' ∉ t := by
  constructor
  · intro h
    exact ⟨fun hc => absurd (h _ hc) (by decide), fun hc => absurd (h _ hc) (by decide)⟩
  · rintro ⟨hcr, hlf⟩ c hc
    unfold isBreak
    rw [Bool.or_eq_false_iff, beq_eq_false_iff_ne, beq_eq_false_iff_ne]
    exact ⟨fun h => hcr (h ▸ hc), fun h => hlf (h ▸ hc)⟩

theorem isBreak_lf : isBreak '\n' = true := by decide

theorem isBreak_blank : isBreak ' ' = false := by decide

theorem isBlank_of_isBreak {c : Char} (h : isBreak c = true) : isBlank c = true := by
  unfold isBreak at h
  rw [Bool.or_eq_true, beq_iff_eq, beq_iff_eq] at h
  rcases h with rfl | rfl <;> decide

/-! ## Joined lines -/

@[simp] theorem joinLines_nil : joinLines [] = [] := rfl

@[simp] theorem joinLines_singleton (l : Text) : joinLines [l] = l := List.intercalate_singleton

theorem joinLines_cons_cons (l l' : Text) (ls : List Text) :
    joinLines (l :: l' :: ls) = l ++ '\n' :: joinLines (l' :: ls) := by
  unfold joinLines; rw [List.intercalate_cons_cons]; simp

theorem joinLines_cons (l : Text) {ls : List Text} (h : ls ≠ []) : joinLines (l :: ls) = l ++ '\n' :: joinLines ls := by
  obtain ⟨l', ls, rfl⟩ := List.exists_cons_of_ne_nil h
  exact joinLines_cons_cons l l' ls

theorem joinLines_append {as bs : List Text} (ha : as ≠ []) (hb : bs ≠ []) :
    joinLines (as ++ bs) = joinLines as ++ '\n' :: joinLines bs := by
  induction as with
  | nil => exact absurd rfl ha
  | cons a as ih =>
    rcases eq_or_ne as [] with rfl | has
    · simp [joinLines_cons a hb]
    · rw [List.cons_append, joinLines_cons a (by simp [has]), ih has, joinLines_cons a has]
      simp

theorem joinLines_ne_nil {ls : List Text} (hne : ls ≠ []) (h : ∀ l ∈ ls, l ≠ []) : joinLines ls ≠ [] := by
  obtain ⟨l, ls, rfl⟩ := List.exists_cons_of_ne_nil hne
  rcases eq_or_ne ls [] with rfl | hls
  · rw [joinLines_singleton]
    exact h l (List.mem_cons_self ..)
  · rw [joinLines_cons l hls]
    simp

/-- Blocks of lines are joined as all their lines are. -/
theorem joinLines_flatten {blocks : List (List Text)} (h : ∀ b ∈ blocks, b ≠ []) :
    joinLines (blocks.map joinLines) = joinLines blocks.flatten := by
  induction blocks with
  | nil => rfl
  | cons b blocks ih =>
    obtain ⟨hb, hblocks⟩ := List.forall_mem_cons.1 h
    rcases eq_or_ne blocks [] with rfl | hne
    · simp
    · have hlines : blocks.flatten ≠ [] := by
        obtain ⟨b', bs, rfl⟩ := List.exists_cons_of_ne_nil hne
        simp [hblocks b' (List.mem_cons_self ..)]
      rw [List.map_cons, joinLines_cons _ (by simpa using hne), ih hblocks, List.flatten_cons,
        joinLines_append hb hlines]

/-! ## Split lines -/

theorem splitLines_break {c : Char} {t : Text} (hc : isBreak c = true) (h : ∀ r, c = '\r' → t ≠ '\n' :: r) :
    splitLines (c :: t) = [] :: splitLines t := by
  rw [splitLines.eq_3 _ _ h, if_pos hc]

theorem splitLines_other {c : Char} (t : Text) (hc : isBreak c = false) :
    splitLines (c :: t) = (splitLines t).modifyHead (c :: ·) := by
  rw [splitLines.eq_3 _ _ (fun _ e => by subst e; exact absurd hc (by decide)), if_neg (by simp [hc])]

theorem splitLines_unbroken {l : Text} (h : Unbroken l) : splitLines l = [l] := by
  induction l with
  | nil => rfl
  | cons c l ih =>
    rw [unbroken_cons] at h
    rw [splitLines_other l h.1, ih h.2]
    rfl

theorem splitLines_unbroken_lf {l : Text} (h : Unbroken l) (t : Text) :
    splitLines (l ++ '\n' :: t) = l :: splitLines t := by
  induction l with
  | nil => exact splitLines_break isBreak_lf (by simp)
  | cons c l ih =>
    rw [unbroken_cons] at h
    rw [List.cons_append, splitLines_other _ h.1, ih h.2]
    rfl

theorem unbroken_of_mem_splitLines {t l : Text} (h : l ∈ splitLines t) : Unbroken l := by
  induction t using splitLines.induct generalizing l with
  | case1 => simp_all [splitLines]
  | case2 rest ih =>
    -- a carriage return and a line feed are one break
    rw [splitLines.eq_2] at h
    rcases List.mem_cons.1 h with rfl | h
    · exact unbroken_nil
    · exact ih h
  | case3 c rest hne hb ih =>
    rw [splitLines.eq_3 _ _ hne, if_pos hb] at h
    rcases List.mem_cons.1 h with rfl | h
    · exact unbroken_nil
    · exact ih h
  | case4 c rest hne hb ih =>
    rw [splitLines.eq_3 _ _ hne, if_neg hb] at h
    obtain ⟨first, ls, hs⟩ := List.exists_cons_of_ne_nil (splitLines_ne_nil rest)
    rw [hs] at h ih
    rcases List.mem_cons.1 h with rfl | h
    · exact unbroken_cons.2 ⟨by simpa using hb, ih (List.mem_cons_self ..)⟩
    · exact ih (List.mem_cons_of_mem _ h)

/-- Unbroken lines survive being joined and split. -/
theorem splitLines_joinLines {ls : List Text} (hne : ls ≠ []) (h : ∀ l ∈ ls, Unbroken l) :
    splitLines (joinLines ls) = ls := by
  induction ls with
  | nil => exact absurd rfl hne
  | cons l ls ih =>
    have hl : Unbroken l := h l (List.mem_cons_self ..)
    rcases eq_or_ne ls [] with rfl | hls
    · rw [joinLines_singleton, splitLines_unbroken hl]
    · rw [joinLines_cons l hls, splitLines_unbroken_lf hl, ih hls fun l' hl' => h l' (List.mem_cons_of_mem _ hl')]

theorem unifyBreaks_joinLines {ls : List Text} (h : ∀ l ∈ ls, Unbroken l) :
    unifyBreaks (joinLines ls) = joinLines ls := by
  rcases eq_or_ne ls [] with rfl | hls
  · rfl
  · unfold unifyBreaks; rw [splitLines_joinLines hls h]

theorem mem_joinLines {c : Char} {ls : List Text} (h : c ∈ joinLines ls) : c = '\n' ∨ ∃ l ∈ ls, c ∈ l := by
  induction ls with
  | nil => cases h
  | cons l ls ih =>
    rcases eq_or_ne ls [] with rfl | hls
    · rw [joinLines_singleton] at h
      exact .inr ⟨l, List.mem_cons_self .., h⟩
    · rw [joinLines_cons l hls, List.mem_append, List.mem_cons] at h
      rcases h with h | h | h
      · exact .inr ⟨l, List.mem_cons_self .., h⟩
      · exact .inl h
      · refine (ih h).imp_right ?_
        rintro ⟨l', hl', hc⟩
        exact ⟨l', List.mem_cons_of_mem _ hl', hc⟩

/-- Line feeds are the only breaks left. -/
theorem cr_not_mem_unifyBreaks (t : Text) : '\r' ∉ unifyBreaks t := by
  intro h
  rcases mem_joinLines h with h | ⟨l, hl, h⟩
  · cases h
  · exact (unbroken_iff.1 (unbroken_of_mem_splitLines hl)).1 h

theorem splitLines_unifyBreaks (t : Text) : splitLines (unifyBreaks t) = splitLines t :=
  splitLines_joinLines (splitLines_ne_nil t) fun _ h => unbroken_of_mem_splitLines h

theorem unifyBreaks_unifyBreaks (t : Text) : unifyBreaks (unifyBreaks t) = unifyBreaks t :=
  congrArg joinLines (splitLines_unifyBreaks t)

/-! ## White space in lines -/

theorem allBlank_append (a b : Text) : allBlank (a ++ b) = (allBlank a && allBlank b) := List.all_append

theorem allBlank_joinLines (ls : List Text) : allBlank (joinLines ls) = ls.all allBlank := by
  induction ls with
  | nil => rfl
  | cons l ls ih =>
    rcases eq_or_ne ls [] with rfl | hne
    · simp
    · have hlf : allBlank ('\n' :: joinLines ls) = allBlank (joinLines ls) := rfl
      rw [joinLines_cons l hne, allBlank_append, hlf, ih, List.all_cons]

theorem all_allBlank_splitLines (t : Text) : (splitLines t).all allBlank = allBlank t := by
  induction t using splitLines.induct with
  | case1 => rfl
  | case2 rest ih =>
    rw [splitLines.eq_2, List.all_cons, ih]
    rfl
  | case3 c rest hne hb ih =>
    rw [splitLines_break hb fun r hc hr => hne r hc hr, List.all_cons, ih]
    simp [allBlank, isBlank_of_isBreak hb]
  | case4 c rest hne hb ih =>
    obtain ⟨first, ls, hs⟩ := List.exists_cons_of_ne_nil (splitLines_ne_nil rest)
    rw [splitLines_other _ (by simpa using hb)]
    rw [hs] at ih ⊢
    have hrest : allBlank (c :: rest) = (isBlank c && allBlank rest) := rfl
    have hfirst : allBlank (c :: first) = (isBlank c && allBlank first) := rfl
    rw [List.modifyHead_cons, List.all_cons, hfirst, hrest, ← ih, List.all_cons, Bool.and_assoc]

/-- Unifying the breaks keeps the white space that a text has. -/
theorem allBlank_unifyBreaks (t : Text) : allBlank (unifyBreaks t) = allBlank t := by
  unfold unifyBreaks
  rw [allBlank_joinLines, all_allBlank_splitLines]

/-! ## The first line -/

theorem unbroken_firstLine (t : Text) : Unbroken (firstLine t) := by
  intro c hc
  have := List.mem_takeWhile_imp hc
  simpa using this

/-- The breaks between the first line and what stands behind it. -/
def firstBreaks (t : Text) : Text := (t.drop (firstLine t).length).takeWhile isBreak

theorem drop_firstLine (t : Text) : t.drop (firstLine t).length = t.dropWhile fun c => !isBreak c := by
  conv => lhs; rw [← List.takeWhile_append_dropWhile (p := fun c => !isBreak c) (l := t)]
  rw [show firstLine (_ ++ _) = firstLine t by rw [List.takeWhile_append_dropWhile]]
  exact List.drop_left

/-- A text is its first line, the breaks behind it and the rest. -/
theorem firstLine_append_rest (t : Text) : firstLine t ++ firstBreaks t ++ afterFirstLine t = t := by
  rw [List.append_assoc]
  unfold firstBreaks
  rw [drop_firstLine]
  unfold afterFirstLine
  rw [List.takeWhile_append_dropWhile]
  exact List.takeWhile_append_dropWhile

theorem length_afterFirstLine_le (t : Text) : (afterFirstLine t).length ≤ t.length := by
  conv => rhs; rw [← firstLine_append_rest t]
  simp; omega

theorem firstLine_append {a : Text} (h : Unbroken a) (t : Text) : firstLine (a ++ t) = a ++ firstLine t := by
  unfold firstLine
  exact List.takeWhile_append_of_pos fun c hc => by simp [h c hc]

theorem afterFirstLine_append {a : Text} (h : Unbroken a) (t : Text) : afterFirstLine (a ++ t) = afterFirstLine t := by
  unfold afterFirstLine
  rw [List.dropWhile_append_of_pos fun c hc => by simp [h c hc]]

theorem firstBreaks_append {a : Text} (h : Unbroken a) (t : Text) : firstBreaks (a ++ t) = firstBreaks t := by
  unfold firstBreaks
  rw [firstLine_append h, List.length_append, ← List.drop_drop, List.drop_left]

/-- An unbroken text begins a text exactly when it begins its first line. -/
theorem prefix_firstLine_iff {p t : Text} (h : Unbroken p) : p <+: firstLine t ↔ p <+: t := by
  constructor
  · exact fun hp => hp.trans (List.takeWhile_prefix _)
  · rintro ⟨r, rfl⟩
    rw [firstLine_append h]
    exact List.prefix_append _ _

/-! ## Logical lines -/

/-- A logical line: characters without a break, and all the breaks behind them. -/
structure Line where
  text : Text
  breaks : Text
  deriving DecidableEq, Repr

/-- All characters of a logical line. -/
def Line.whole (l : Line) : Text := l.text ++ l.breaks

theorem length_afterFirstLine_lt {t : Text} (h : t ≠ []) : (afterFirstLine t).length < t.length := by
  obtain ⟨c, r, rfl⟩ := List.exists_cons_of_ne_nil h
  by_cases hc : isBreak c = true
  · have : afterFirstLine (c :: r) = r.dropWhile isBreak := by
      unfold afterFirstLine; simp [hc]
    rw [this]
    exact Nat.lt_succ_of_le (List.length_dropWhile_le ..)
  · rw [← List.singleton_append, afterFirstLine_append (by simpa using hc)]
    exact Nat.lt_succ_of_le (length_afterFirstLine_le r)

/-- The logical lines of a text. -/
def logicalLines (t : Text) : List Line :=
  if _ : t = [] then [] else ⟨firstLine t, firstBreaks t⟩ :: logicalLines (afterFirstLine t)
termination_by t.length
decreasing_by exact length_afterFirstLine_lt ‹_›

theorem logicalLines_nil : logicalLines [] = [] := by
  rw [logicalLines, dif_pos rfl]

theorem logicalLines_of_ne_nil {t : Text} (h : t ≠ []) :
    logicalLines t = ⟨firstLine t, firstBreaks t⟩ :: logicalLines (afterFirstLine t) := by
  rw [logicalLines, dif_neg h]

/-- The logical lines of a text, one behind the other, are the text. -/
theorem flatMap_logicalLines (t : Text) : (logicalLines t).flatMap Line.whole = t := by
  induction t using logicalLines.induct with
  | case1 => rw [logicalLines_nil]; rfl
  | case2 t h ih =>
    rw [logicalLines_of_ne_nil h, List.flatMap_cons, ih]
    exact firstLine_append_rest t

/-! ## The texts of the lines -/

/-- The logical lines of a text without their breaks. -/
def lineTexts (t : Text) : List Text := (logicalLines t).map Line.text

theorem lineTexts_nil : lineTexts [] = [] := by rw [lineTexts, logicalLines_nil]; rfl

theorem lineTexts_of_ne_nil {t : Text} (h : t ≠ []) : lineTexts t = firstLine t :: lineTexts (afterFirstLine t) := by
  unfold lineTexts
  rw [logicalLines_of_ne_nil h]
  rfl

theorem lineTexts_unbroken {l : Text} (hl : Unbroken l) (hne : l ≠ []) : lineTexts l = [l] := by
  have h := firstLine_append hl []
  have h' := afterFirstLine_append hl []
  rw [List.append_nil] at h h'
  rw [lineTexts_of_ne_nil hne, h, h']
  exact congrArg₂ _ (List.append_nil l) lineTexts_nil

theorem firstLine_append_lf (a t : Text) : firstLine (a ++ '\n' :: t) = firstLine a := by
  unfold firstLine
  rw [List.takeWhile_append, List.takeWhile_cons_of_neg (by simp [isBreak_lf]), List.append_nil]
  split
  · rename_i h
    exact ((List.takeWhile_prefix _).eq_of_length h).symm
  · rfl

theorem afterFirstLine_append_lf (a t : Text) : afterFirstLine (a ++ '\n' :: t) =
    if afterFirstLine a = [] then t.dropWhile isBreak else afterFirstLine a ++ '\n' :: t := by
  have hrest : (a ++ '\n' :: t).dropWhile (fun c => !isBreak c) = a.dropWhile (fun c => !isBreak c) ++ '\n' :: t := by
    rw [List.dropWhile_append, List.dropWhile_cons_of_neg (by simp [isBreak_lf])]
    split
    · rename_i h
      rw [List.isEmpty_iff.1 h]
      rfl
    · rfl
  unfold afterFirstLine
  rw [hrest, List.dropWhile_append, List.dropWhile_cons_of_pos isBreak_lf]
  simp only [List.isEmpty_iff]

/-- A line feed behind a text ends its last line; it and the breaks behind it make no line of their own. -/
theorem lineTexts_append_lf {a : Text} (ha : a ≠ []) (t : Text) :
    lineTexts (a ++ '\n' :: t) = lineTexts a ++ lineTexts (t.dropWhile isBreak) := by
  induction a using logicalLines.induct with
  | case1 => exact absurd rfl ha
  | case2 a ha ih =>
    rw [lineTexts_of_ne_nil (by simp), lineTexts_of_ne_nil ha, firstLine_append_lf, afterFirstLine_append_lf]
    split
    · -- the last line of `a`: the line feed is one of the breaks behind it
      rename_i h
      rw [h, lineTexts_nil]
      rfl
    · rename_i h
      rw [ih h]
      rfl

/-- The text begins with a character that is no break. -/
def Started (t : Text) : Prop := ∃ c r, t = c :: r ∧ isBreak c = false

theorem Started.ne_nil {t : Text} (h : Started t) : t ≠ [] := by
  obtain ⟨c, r, rfl, -⟩ := h
  exact List.cons_ne_nil c r

theorem Started.append {t : Text} (h : Started t) (u : Text) : Started (t ++ u) := by
  obtain ⟨c, r, rfl, hc⟩ := h
  exact ⟨c, r ++ u, rfl, hc⟩

theorem Started.head? {t : Text} (h : Started t) : ∀ c ∈ t.head?, isBreak c = false := by
  obtain ⟨c, r, rfl, hc⟩ := h
  rintro _ ⟨⟩
  exact hc

theorem Started.dropWhile_eq {t : Text} (h : Started t) : t.dropWhile isBreak = t := by
  obtain ⟨c, r, rfl, hc⟩ := h
  rw [List.dropWhile_cons_of_neg (by simp [hc])]

theorem started_joinLines {parts : List Text} (hne : parts ≠ []) (h : ∀ p ∈ parts, Started p) :
    Started (joinLines parts) := by
  obtain ⟨p, ps, rfl⟩ := List.exists_cons_of_ne_nil hne
  have hp : Started p := h p (List.mem_cons_self ..)
  rcases eq_or_ne ps [] with rfl | hps
  · rwa [joinLines_singleton]
  · rw [joinLines_cons p hps]
    exact hp.append _

/-- The lines of joined texts are the lines of each, one after the other. -/
theorem lineTexts_joinLines {parts : List Text} (h : ∀ p ∈ parts, Started p) :
    lineTexts (joinLines parts) = parts.flatMap lineTexts := by
  induction parts with
  | nil => exact lineTexts_nil
  | cons p ps ih =>
    have hp : Started p := h p (List.mem_cons_self ..)
    have hps : ∀ q ∈ ps, Started q := fun q hq => h q (List.mem_cons_of_mem _ hq)
    rcases eq_or_ne ps [] with rfl | hne
    · simp
    · rw [joinLines_cons p hne, lineTexts_append_lf hp.ne_nil, (started_joinLines hne hps).dropWhile_eq, ih hps,
        List.flatMap_cons]

end Taskbook.Text
