/-
Documents as logical lines. With compatible symbols a line is of one kind at most, told by what it
begins with, so a document can be read in one pass: a machine that remembers the kind of the last line
takes line after line until one comes that is not allowed there. `parse_eq_read` says that the nested
parsers read what this machine reads, with the same failures at the same places.
-/
import Taskbook.Proofs.Layout.Failures
import Taskbook.Proofs.Rows

namespace Taskbook

open Text Layout

/-! ## Compatible symbols -/

namespace Layout.Kind

/-- The kinds, each once. -/
def all : List Kind := [title, task, due, description, subtask]

theorem mem_all (k : Kind) : k ∈ all := by cases k <;> decide

/-- What a line of this kind begins with: the symbol and a blank. -/
def opening (s : Symbols) (k : Kind) : Text := k.symbol s ++ [' ']

theorem unbroken_opening {s : Symbols} {k : Kind} (h : Unbroken (k.symbol s)) : Unbroken (k.opening s) :=
  unbroken_append.2 ⟨h, by simp [isBreak_blank]⟩

end Layout.Kind

/-- No symbol breaks the line, and no line can begin as lines of two kinds do: with its blank, no symbol
begins another one. -/
structure Symbols.Compatible (s : Symbols) : Prop where
  unbroken : ∀ k : Kind, Unbroken (k.symbol s)
  apart : ∀ k k' : Kind, k.opening s <+: k'.opening s → k = k'

theorem Symbols.compatible_default : ({} : Symbols).Compatible where
  unbroken k := by cases k <;> decide
  apart k k' := by cases k <;> cases k' <;> decide

namespace Layout

/-! ## The entry of a line -/

/-- What stands behind `p` in a text that begins with it. -/
def behind? (p t : Text) : Option Text := if p.isPrefixOf t then some (t.drop p.length) else none

theorem behind?_eq_some_iff {p t r : Text} : behind? p t = some r ↔ t = p ++ r := by
  unfold behind?
  simp only [List.isPrefixOf_iff_prefix, Option.ite_none_right_eq_some, Option.some.injEq]
  constructor
  · rintro ⟨⟨r', rfl⟩, h⟩
    rw [← h, List.drop_left]
  · rintro rfl
    exact ⟨List.prefix_append _ _, List.drop_left⟩

namespace LineMachine

/-- The item of a checklist that is written as a mark in brackets, a blank and a name. -/
def item? (t : Text) : Option Subtask :=
  [true, false].findSome? fun complete =>
    (behind? (Subtask.mark complete ++ [' ']) t).map fun name => { complete, name }

/-- What a line says as a line of one kind. -/
def entryAs? (s : Symbols) (line : Text) (k : Kind) : Option (Entry Text) :=
  (behind? (k.opening s) line).bind fun body =>
    match k with
    | .title => some (.title body)
    | .task => some (.task body)
    | .due => some (.due body)
    | .description => some (.description body)
    | .subtask => (item? body).map .subtask

/-- The kinds of lines that are allowed behind a line of a kind; at the start only a title is. -/
def allows : Option Kind → Kind → Bool
  | none, .title => true
  | none, _ => false
  | some _, .title => true
  | some _, .task => true
  | some last, .due => last == .task
  | some last, .description => last == .task || last == .due || last == .description
  | some last, .subtask => last == .task || last == .due || last == .description || last == .subtask

/-- What a line says, if it is of a kind that is allowed. -/
def allowed? (s : Symbols) (last : Option Kind) (line : Text) : Option (Entry Text) :=
  (Kind.all.findSome? (entryAs? s line)).filter fun e => allows last e.kind

/-- Takes lines until one is not allowed: the entries found, the text passed and the lines left over.
`last` is the kind of the last line taken, `passed` the text so far. -/
def pass (s : Symbols) : (last : Option Kind) → (passed : Text) → List Line → List Found × Text × List Line
  | _, passed, [] => ([], passed, [])
  | last, passed, l :: ls =>
    match allowed? s last l.text with
    | none => ([], passed, l :: ls)
    | some e =>
      let rest := pass s (some e.kind) (passed ++ l.whole) ls
      (⟨endOf passed, e⟩ :: rest.1, rest.2)

/-- Reads a document in one pass over its lines. -/
def read (s : Symbols) (z : Zone) (t : Text) : Except Failure Document :=
  let (found, passed, rest) := pass s none [] (logicalLines t)
  let left := rest.flatMap Line.whole
  match spell s z found with
  | .error f => .error f
  | .ok x =>
    if x.lists ≠ [] ∧ allBlank left = true then .ok x.lists
    else
      let stop := endOf (passed ++ left.takeWhile isBlank)
      .error (.unmatched stop.1 stop.2 (firstLine (left.dropWhile isBlank)))

/-! ## One line -/

variable {s : Symbols} {last : Option Kind} {line : Text} {k k' : Kind} {e e' : Entry Text} {c d : Cursor}

theorem entryAs?_kind (h : entryAs? s line k = some e) : e.kind = k := by
  obtain ⟨body, -, h⟩ := Option.bind_eq_some_iff.1 h
  cases k with
  | subtask => obtain ⟨st, -, rfl⟩ := Option.map_eq_some_iff.1 h; rfl
  | _ => cases h; rfl

/-- A line is of one kind at most. -/
theorem entryAs?_unique (hs : s.Compatible) (h : entryAs? s line k = some e) (h' : entryAs? s line k' = some e') :
    k = k' := by
  obtain ⟨r, hr, -⟩ := Option.bind_eq_some_iff.1 h
  obtain ⟨r', hr', -⟩ := Option.bind_eq_some_iff.1 h'
  have hp : k.opening s <+: line := ⟨r, (behind?_eq_some_iff.1 hr).symm⟩
  have hp' : k'.opening s <+: line := ⟨r', (behind?_eq_some_iff.1 hr').symm⟩
  rcases List.prefix_or_prefix_of_prefix hp hp' with h | h
  · exact hs.apart k k' h
  · exact (hs.apart k' k h).symm

/-- Where only one member of a list gives a value, the order of the list does not matter. -/
theorem findSome?_eq_some_iff_of_unique {α β : Type} {f : α → Option β} {l : List α} {b : β}
    (hf : ∀ x y b b', f x = some b → f y = some b' → x = y) :
    l.findSome? f = some b ↔ ∃ a ∈ l, f a = some b := by
  refine Rows.findSome?_eq_some_iff_of_agree fun x _ y _ b b' h h' => ?_
  cases hf x y b b' h h'
  exact Option.some.inj (h.symm.trans h')

theorem allowed?_eq_some_iff (hs : s.Compatible) :
    allowed? s last line = some e ↔ ∃ k, entryAs? s line k = some e ∧ allows last k = true := by
  unfold allowed?
  rw [Option.filter_eq_some_iff, findSome?_eq_some_iff_of_unique fun _ _ _ _ => entryAs?_unique hs]
  constructor
  · rintro ⟨⟨k, -, h⟩, ha⟩
    exact ⟨k, h, entryAs?_kind h ▸ ha⟩
  · rintro ⟨k, h, ha⟩
    exact ⟨⟨k, k.mem_all, h⟩, (entryAs?_kind h).symm ▸ ha⟩

/-! ## The line ahead -/

/-- An unbroken text lies ahead if the current line begins with it; behind it stands the rest of that
line, and the next line is the same. -/
theorem after?_of_unbroken {p : Text} (hp : Unbroken p) (h0 : c.excess = 0) :
    (behind? p c.restOfLine = none → c.after? p = none) ∧
      ∀ body, behind? p c.restOfLine = some body →
        ∃ d, c.after? p = some d ∧ d.excess = 0 ∧ d.restOfLine = body ∧ d.nextLine = c.nextLine := by
  constructor
  · intro h
    by_contra hne
    obtain ⟨d, hd⟩ := Option.ne_none_iff_exists'.1 hne
    obtain ⟨-, r, hr, -⟩ := Cursor.after?_eq_some_iff.1 hd
    have : behind? p c.restOfLine = some (firstLine r) := by
      rw [behind?_eq_some_iff, Cursor.restOfLine, hr, firstLine_append hp]
    rw [h] at this; cases this
  · intro body h
    rw [behind?_eq_some_iff] at h
    obtain ⟨r, hr⟩ : p <+: c.ahead := (prefix_firstLine_iff hp).1 ⟨body, h.symm⟩
    refine ⟨c.past p r, Cursor.after?_eq_some_iff.2 ⟨h0, r, hr.symm, rfl⟩, rfl, ?_, ?_⟩
    · rw [Cursor.restOfLine, ← hr, firstLine_append hp] at h
      exact List.append_cancel_left h
    · unfold Cursor.nextLine Cursor.restOfLine
      rw [Cursor.past_past, Cursor.ahead_past, ← hr, firstLine_append hp, firstBreaks_append hp,
        afterFirstLine_append hp, List.append_assoc]

theorem lineBehind?_eq {p : Text} (hp : Unbroken (p ++ [' '])) (h0 : c.excess = 0) :
    lineBehind? p c = (behind? (p ++ [' ']) c.restOfLine).map (·, c.nextLine) := by
  unfold lineBehind?
  obtain ⟨hn, hsome⟩ := after?_of_unbroken hp h0
  rcases h : behind? (p ++ [' ']) c.restOfLine with _ | body
  · rw [hn h]; rfl
  · obtain ⟨d, hd, -, hl, hx⟩ := hsome body h
    rw [hd, Option.map_some, hl, hx]; rfl

theorem unbroken_mark (complete : Bool) : Unbroken (Subtask.mark complete ++ [' ']) := by
  cases complete <;> decide

theorem markAhead?_eq (h0 : c.excess = 0) :
    (markAhead? c).map (fun x => (({ complete := x.1, name := x.2.restOfLine } : Subtask), x.2.nextLine)) =
      (item? c.restOfLine).map (·, c.nextLine) := by
  unfold markAhead? item?
  simp only [List.findSome?_cons, List.findSome?_nil]
  obtain ⟨hn, hsome⟩ := after?_of_unbroken (unbroken_mark true) h0
  obtain ⟨hn', hsome'⟩ := after?_of_unbroken (unbroken_mark false) h0
  rcases h : behind? (Subtask.mark true ++ [' ']) c.restOfLine with _ | body
  · rw [hn h]
    rcases h' : behind? (Subtask.mark false ++ [' ']) c.restOfLine with _ | body
    · rw [hn' h']; rfl
    · obtain ⟨d, hd, -, hl, hx⟩ := hsome' body h'
      rw [hd]; simp [hl, hx]
  · obtain ⟨d, hd, -, hl, hx⟩ := hsome body h
    rw [hd]; simp [hl, hx]

theorem itemBehind?_eq {p : Text} (hp : Unbroken (p ++ [' '])) (h0 : c.excess = 0) :
    itemBehind? p c = ((behind? (p ++ [' ']) c.restOfLine).bind item?).map (·, c.nextLine) := by
  unfold itemBehind?
  obtain ⟨hn, hsome⟩ := after?_of_unbroken hp h0
  rcases h : behind? (p ++ [' ']) c.restOfLine with _ | body
  · rw [hn h]; rfl
  · obtain ⟨d, hd, hd0, rfl, hx⟩ := hsome body h
    rw [hd, Option.bind_some, Option.bind_some, ← hx]
    exact markAhead?_eq hd0

/-- The entry that the parsers find ahead is the entry of the current line. -/
theorem read?_eq (hs : ∀ k : Kind, Unbroken (k.symbol s)) (h0 : c.excess = 0) (k : Kind) :
    Kind.read? s c k = (entryAs? s c.restOfLine k).map (·, c.nextLine) := by
  have hu := Kind.unbroken_opening (hs k)
  unfold Kind.read? entryAs? Kind.opening
  unfold Kind.opening at hu
  cases k with
  | subtask =>
    simp only [Kind.symbol] at hu ⊢
    rw [itemBehind?_eq hu h0]
    cases behind? (s.subtask ++ [' ']) c.restOfLine <;> simp [Option.map_map, Function.comp_def]
  | _ =>
    simp only [Kind.symbol] at hu ⊢
    rw [lineBehind?_eq hu h0, Option.map_map]
    rcases behind? (_ ++ [' ']) c.restOfLine with _ | _ <;> rfl

/-- What is found ahead is told by the current line. -/
theorem next?_of_line (hs : ∀ k : Kind, Unbroken (k.symbol s)) (h0 : c.excess = 0) (ks : List Kind) :
    next? s ks c = (ks.findSome? (entryAs? s c.restOfLine)).map (·, c.nextLine) := by
  unfold next?
  rw [List.map_findSome?]
  congr 1
  funext k
  exact read?_eq hs h0 k

/-! ## The whole pass -/

/-- The kinds that are tried at the start, or behind a line of a kind. -/
def tried : Option Kind → List Kind
  | none => [.title]
  | some k => k.followers

/-- The kinds that are tried are those that are allowed. -/
theorem mem_tried_iff {last : Option Kind} {k : Kind} : k ∈ tried last ↔ allows last k = true := by
  rcases last with _ | last
  · cases k <;> decide
  · cases last <;> cases k <;> decide

/-- What is tried next is found exactly where the current line holds an allowed entry. -/
theorem next?_eq (last : Option Kind) (hs : s.Compatible) (h0 : c.excess = 0) :
    next? s (tried last) c = (allowed? s last c.restOfLine).map (·, c.nextLine) := by
  rw [next?_of_line hs.unbroken h0]
  congr 1
  ext e
  rw [findSome?_eq_some_iff_of_unique fun _ _ _ _ => entryAs?_unique hs, allowed?_eq_some_iff hs]
  simp only [mem_tried_iff, and_comm]

theorem line_ne_nil_of_allowed? (hs : s.Compatible) (h : allowed? s last line = some e) : line ≠ [] := by
  obtain ⟨k, hk, -⟩ := (allowed?_eq_some_iff hs).1 h
  obtain ⟨r, hr, -⟩ := Option.bind_eq_some_iff.1 hk
  rw [behind?_eq_some_iff.1 hr]
  simp [Kind.opening]

theorem pass_none {l : Line} {ls : List Line} {passed : Text} (h : allowed? s last l.text = none) :
    pass s last passed (l :: ls) = ([], passed, l :: ls) := by
  rw [pass, h]

theorem pass_some {l : Line} {ls : List Line} {passed : Text} (h : allowed? s last l.text = some e) :
    pass s last passed (l :: ls) =
      (⟨endOf passed, e⟩ :: (pass s (some e.kind) (passed ++ l.whole) ls).1,
        (pass s (some e.kind) (passed ++ l.whole) ls).2) := by
  rw [pass, h]

/-- The scan of the parsers is the pass of the machine. -/
theorem scan_eq_pass (hs : s.Compatible) (last : Option Kind) (c : Cursor) (h0 : c.excess = 0) :
    (scan s (tried last) c).1 = (pass s last c.behind.reverse (logicalLines c.ahead)).1 ∧
      (scan s (tried last) c).2.behind.reverse = (pass s last c.behind.reverse (logicalLines c.ahead)).2.1 ∧
      (scan s (tried last) c).2.ahead =
        (pass s last c.behind.reverse (logicalLines c.ahead)).2.2.flatMap Line.whole := by
  -- on the length of the text ahead, for every last line at once, as each line taken becomes the last one
  generalize hn : c.ahead.length = n
  induction n using Nat.strong_induction_on generalizing c last with
  | _ n ih =>
    have hnext := next?_eq last hs h0
    rcases he : allowed? s last c.restOfLine with _ | e
    · -- both stop here, the machine with the logical lines of all that is left
      rw [he] at hnext
      rw [scan_none hnext]
      have hpass : pass s last c.behind.reverse (logicalLines c.ahead) =
          ([], c.behind.reverse, logicalLines c.ahead) := by
        rcases eq_or_ne c.ahead [] with ha | ha
        · rw [ha, logicalLines_nil]; rfl
        · rw [logicalLines_of_ne_nil ha]; exact pass_none he
      rw [hpass]
      exact ⟨rfl, rfl, (flatMap_logicalLines _).symm⟩
    · rw [he] at hnext
      have ha : c.ahead ≠ [] := by
        intro ha
        refine line_ne_nil_of_allowed? hs he ?_
        rw [Cursor.restOfLine, ha]; rfl
      have hlen : c.nextLine.ahead.length < n := hn ▸ length_afterFirstLine_lt ha
      obtain ⟨hf, hp, hr⟩ := ih _ hlen (some e.kind) c.nextLine rfl rfl
      -- the line taken is what `nextLine` moves past
      have hb : c.nextLine.behind.reverse =
          c.behind.reverse ++ (Line.mk (firstLine c.ahead) (firstBreaks c.ahead)).whole := by
        rw [Cursor.nextLine, Cursor.behind_past, List.reverse_append, List.reverse_reverse]; rfl
      rw [hb] at hf hp hr
      rw [scan_some hnext, logicalLines_of_ne_nil ha, pass_some he]
      refine ⟨?_, hp, hr⟩
      rw [Cursor.location_eq_endOf]
      exact congrArg _ hf

/-! ## The document -/

/-- Where the system has no say, all that can be wrong is the text. -/
theorem isOfText_of_read {t : Text} {z : Zone} {f : Failure} (hz : z ≠ .system) (h : read s z t = .error f) :
    f.isOfText = true := by
  unfold read at h
  dsimp only at h
  split at h
  · rename_i g hg
    obtain ⟨text, -, hu⟩ := unread_of_spell hg
    cases h; exact hu.isOfText hz
  · split at h <;> cases h
    rfl

theorem parse_eq_machine (hs : s.Compatible) (t : Text) (z : Zone) : Document.parse t s z = read s z t := by
  obtain ⟨hf, hp, hr⟩ := scan_eq_pass hs none (.start t) rfl
  change (scan s [.title] (.start t)).1 = _ at hf
  change (scan s [.title] (.start t)).2.behind.reverse = _ at hp
  change (scan s [.title] (.start t)).2.ahead = _ at hr
  have hstop : unmatchedAt (scan s [.title] (.start t)).2 =
      (let left := (pass s none [] (logicalLines t)).2.2.flatMap Line.whole
       let stop := endOf ((pass s none [] (logicalLines t)).2.1 ++ left.takeWhile isBlank)
       .unmatched stop.1 stop.2 (firstLine (left.dropWhile isBlank))) := by
    unfold unmatchedAt Cursor.pastBlanks Cursor.restOfLine
    rw [Cursor.location_eq_endOf, Cursor.behind_past, List.reverse_append, List.reverse_reverse, hp, hr]
    rfl
  rw [parse_eq_scan]
  unfold read
  rw [hf, hr, hstop]
  rfl

/-- The parsers read what the machine reads, and fail where and as it fails; in every zone but the
system's that is a line which is not allowed, or a due line in its place which holds no date. -/
theorem parse_eq_read (hs : s.Compatible) (t : Text) (z : Zone) :
    Document.parse t s z = read s z t ∧ (z ≠ .system → ∀ f, read s z t = .error f → f.isOfText = true) :=
  ⟨parse_eq_machine hs t z, fun hz _ => isOfText_of_read hz⟩

/-- A checklist line with any other mark stops the machine, even where a checklist line is allowed. -/
theorem parse_eq_read_of_checklist :
    ({} : Symbols).Compatible ∧ Zone.utc ≠ .system ∧
      Document.parse "## A\n- b\n\n    * [x] c\n    * [y] d\n".toList {} .utc =
        .error (.unmatched 5 5 "* [y] d".toList) :=
  ⟨Symbols.compatible_default, by decide,
    (parse_eq_read Symbols.compatible_default _ .utc).1.trans (by decide +kernel)⟩

end LineMachine

end Layout

end Taskbook
