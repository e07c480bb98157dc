/-
Lines and literals, character by character. A loop over one character passes the longest run of what it accepts, so
the rest of a line is such a run and the breaks behind it another; a literal passes its characters one by one, or none
of them. Lines read up to the end of a text, each with the breaks passed behind it, are the whole text.
-/
import Taskbook.Proofs.Layout.Entries
import Taskbook.Proofs.Parser.Progress

namespace Taskbook

namespace Cursor

variable {c : Cursor}

/-- The text between two places. -/
def between (c d : Cursor) : Text := (c.text.take d.offset).drop c.offset

theorem between_past {p r : Text} (h0 : c.excess = 0) (h : c.ahead = p ++ r) : c.between (c.past p r) = p := by
  have hplace : c.offset = c.behind.reverse.length := by
    rw [offset, h0, List.length_reverse, Nat.add_zero]
  have hpast : (c.past p r).offset = (c.behind.reverse ++ p).length := by
    simp [offset, Nat.add_comm]
  rw [between, text, h, hplace, hpast, ← List.append_assoc, List.take_left, List.drop_left]

theorem excess_advance_start {t : Text} {i : Nat} (hi : i ≤ t.length) : ((start t).advance i).excess = 0 := by
  unfold start advance
  dsimp only
  omega

end Cursor

namespace Parser

open Outcome Text

variable {ε : Type} {c : Cursor}

/-! ## Single characters -/

section Satisfy

variable {accepts : Char → Bool} {x : Char} {t : Text}

theorem run_satisfy_nil (h : c.ahead = []) : (satisfy accepts : Parser ε Char).run c = miss := by
  rw [run, h]

theorem run_satisfy_cons (h : c.ahead = x :: t) :
    (satisfy accepts : Parser ε Char).run c = if accepts x then done x (c.past [x] t) else miss := by
  rw [run, h]

end Satisfy

theorem run_char (x : Char) (c : Cursor) :
    (char x : Parser ε Char).run c = ofOption ((c.after? [x]).map (x, ·)) := by
  unfold char Cursor.after? Cursor.startsWith
  rcases h : c.ahead with _ | ⟨y, t⟩
  · rw [run_satisfy_nil h]
    simp
  · rw [run_satisfy_cons h, Cursor.excess_of_ahead_cons h]
    by_cases hy : y = x
    · simp [hy]
    · simp [hy, Ne.symm hy]

/-- A loop over one character passes the longest run of what it accepts. -/
theorem run_many_satisfy (accepts : Char → Bool) (h0 : c.excess = 0) :
    (many (satisfy accepts) : Parser ε Text).run c =
      done (c.ahead.takeWhile accepts) (c.past (c.ahead.takeWhile accepts) (c.ahead.dropWhile accepts)) := by
  have hstay := c.past_nil h0
  rw [run]
  generalize ht : c.ahead = t at hstay ⊢
  induction t generalizing c with
  | nil => rw [loop_miss (run_satisfy_nil ht), List.takeWhile_nil, List.dropWhile_nil, hstay]
  | cons x t ih =>
    have hstep : (satisfy accepts : Parser ε Char).run c = _ := run_satisfy_cons ht
    by_cases hx : accepts x = true
    · have hroom : (c.past [x] t).room < c.room := by
        simp [Cursor.room, ht]
        omega
      rw [if_pos hx] at hstep
      rw [loop_done hstep hroom, ih rfl rfl rfl, List.takeWhile_cons_of_pos hx, List.dropWhile_cons_of_pos hx, map_done,
        Cursor.past_past]
      rfl
    · rw [if_neg hx] at hstep
      rw [loop_miss hstep, List.takeWhile_cons_of_neg hx, List.dropWhile_cons_of_neg hx, hstay]

/-! ## Literals -/

theorem run_literal (t : Text) (c : Cursor) :
    (literal t : Parser ε Text).run c = ofOption ((c.after? t).map (t, ·)) := by
  rw [run]
  unfold Cursor.after?
  split <;> rfl

/-- The characters of a text, one behind the other. -/
def characters (t : Text) : Parser ε Text := sequence (t.map char)

theorem run_characters (t : Text) (h0 : c.excess = 0) :
    (characters t : Parser ε Text).run c = ofOption ((c.after? t).map (t, ·)) := by
  unfold characters
  induction t generalizing c with
  | nil =>
    have hnil : c.after? [] = some c := Cursor.after?_eq_some_iff.2 ⟨h0, c.ahead, rfl, (c.past_nil h0).symm⟩
    rw [hnil]
    rfl
  | cons x t ih =>
    rw [List.map_cons, sequence, run, run_char, show x :: t = [x] ++ t from rfl, ← Cursor.after?_append]
    rcases hx : c.after? [x] with _ | d
    · rfl
    · obtain ⟨-, r, -, rfl⟩ := Cursor.after?_eq_some_iff.1 hx
      rw [Option.map_some, ofOption_some, andThen_done, Parser.map, run, ih rfl, Option.bind_some]
      cases (c.past [x] r).after? t <;> rfl

/-! ## Lines -/

/-- The characters of a line and then the breaks behind it, of which nothing is kept. -/
def lineOfCharacters : Parser ε Text :=
  bind (many (satisfy fun x => !isBreak x)) fun first => map (fun _ => first) (many (satisfy isBreak))

theorem run_line (c : Cursor) : (line : Parser ε Text).run c = done c.restOfLine c.nextLine := rfl

theorem run_lineOfCharacters (h0 : c.excess = 0) :
    (lineOfCharacters : Parser ε Text).run c = done c.restOfLine c.nextLine := by
  unfold lineOfCharacters Parser.map
  rw [run, run_many_satisfy _ h0, andThen_done, run, run_many_satisfy _ rfl, andThen_done, run, Cursor.past_past,
    Cursor.ahead_past]
  unfold Cursor.nextLine Cursor.restOfLine firstBreaks
  rw [drop_firstLine]
  rfl

/-! ## Lines up to the end of a text -/

/-- One more line as long as text lies ahead: the value of `line`, and what is passed behind this value. -/
def wholeLine (c : Cursor) : Outcome ε Line :=
  if c.atEnd then miss
  else ((line : Parser ε Text).run c).andThen fun l d => done ⟨l, (c.between d).drop l.length⟩ d

theorem wholeLine_of_ahead (h0 : c.excess = 0) (h : c.ahead ≠ []) :
    (wholeLine c : Outcome ε Line) = done ⟨c.restOfLine, firstBreaks c.ahead⟩ c.nextLine := by
  have hend : ¬ c.atEnd = true := by
    rw [Cursor.atEnd, List.isEmpty_iff]
    exact h
  have hpassed : c.between c.nextLine = c.restOfLine ++ firstBreaks c.ahead :=
    Cursor.between_past h0 (firstLine_append_rest c.ahead).symm
  unfold wholeLine
  rw [if_neg hend, run_line, andThen_done, hpassed, List.drop_left]

/-- Reading line after line ends at the end of the text, with its logical lines. -/
theorem loop_wholeLine (h0 : c.excess = 0) :
    (loop wholeLine c : Outcome ε (List Line)) = done (logicalLines c.ahead) (c.past c.ahead []) := by
  generalize ht : c.ahead = t
  induction t using logicalLines.induct generalizing c with
  | case1 =>
    have hmiss : (wholeLine c : Outcome ε Line) = miss := by
      unfold wholeLine Cursor.atEnd
      rw [ht]
      rfl
    have hc := c.past_nil h0
    rw [ht] at hc
    rw [loop_miss hmiss, logicalLines_nil, hc]
  | case2 t h ih =>
    subst ht
    have hroom : c.nextLine.room < c.room := by
      have hlen := length_afterFirstLine_lt h
      unfold Cursor.room
      rw [h0]
      exact hlen
    rw [loop_done (wholeLine_of_ahead h0 h) hroom, ih rfl rfl, map_done, logicalLines_of_ne_nil h]
    unfold Cursor.nextLine
    rw [Cursor.past_past, Cursor.restOfLine, firstLine_append_rest]

theorem breaks_of_mem_logicalLines {t : Text} {l : Line} (h : l ∈ logicalLines t) :
    Unbroken l.text ∧ ∀ x ∈ l.breaks, isBreak x = true := by
  induction t using logicalLines.induct with
  | case1 =>
    rw [logicalLines_nil] at h
    cases h
  | case2 t ht ih =>
    rw [logicalLines_of_ne_nil ht] at h
    rcases List.mem_cons.1 h with rfl | h
    · exact ⟨unbroken_firstLine t, fun x hx => List.mem_takeWhile_imp hx⟩
    · exact ih h

/-- From every place in a text `line` does what the parsers of its characters do: it takes the characters that break no
line, then passes the breaks, and ends where these end. So does every literal, the empty one and one that is longer
than what lies ahead included. Line after line comes to the end of the text, and the lines with what is passed behind
each of them, which is nothing but breaks, make up the text. -/
theorem run_by_characters (t : Text) :
    (∀ i, i ≤ t.length →
      (line : Parser ε Text).run ((Cursor.start t).advance i) = lineOfCharacters.run ((Cursor.start t).advance i) ∧
      ∀ u, (literal u : Parser ε Text).run ((Cursor.start t).advance i) =
        (characters u).run ((Cursor.start t).advance i)) ∧
    ∃ ls : List Line,
      (loop wholeLine (Cursor.start t) : Outcome ε (List Line)) = done ls ((Cursor.start t).advance t.length) ∧
      ls.flatMap Line.whole = t ∧ ∀ l ∈ ls, Unbroken l.text ∧ ∀ x ∈ l.breaks, isBreak x = true := by
  constructor
  · intro i hi
    have h0 : ((Cursor.start t).advance i).excess = 0 := Cursor.excess_advance_start hi
    refine ⟨?_, ?_⟩
    · rw [run_line, run_lineOfCharacters h0]
    · intro u
      rw [run_literal, run_characters u h0]
  · have hend : (Cursor.start t).past t [] = (Cursor.start t).advance t.length := by
      unfold Cursor.start Cursor.past Cursor.advance
      simp
    refine ⟨logicalLines t, ?_, flatMap_logicalLines t, fun l => breaks_of_mem_logicalLines⟩
    rw [loop_wholeLine rfl]
    exact congrArg _ hend

/-- Between a carriage return and its line feed the line is empty, and the breaks behind it are passed; there the empty
literal is found without moving, and one that begins like the text is not. -/
theorem run_by_characters_of_mixed_breaks :
    2 ≤ "a\r\n\n\rb".toList.length ∧
      (lineOfCharacters : Parser Failure Text).run ((Cursor.start "a\r\n\n\rb".toList).advance 2) =
        done [] ((Cursor.start "a\r\n\n\rb".toList).advance 5) ∧
      (characters [] : Parser Failure Text).run ((Cursor.start "a\r\n\n\rb".toList).advance 2) =
        done [] ((Cursor.start "a\r\n\n\rb".toList).advance 2) ∧
      (characters "\n\nb".toList : Parser Failure Text).run ((Cursor.start "a\r\n\n\rb".toList).advance 2) = miss := by
  have hi : 2 ≤ "a\r\n\n\rb".toList.length := by decide
  obtain ⟨hline, hliteral⟩ := (@run_by_characters Failure "a\r\n\n\rb".toList).1 2 hi
  refine ⟨hi, ?_, ?_, ?_⟩
  · rw [← hline]
    cbv
  · rw [← hliteral]
    cbv
  · rw [← hliteral]
    cbv

/-- A break at the start is behind an empty line, and the last line need not be ended. -/
example : (loop wholeLine (Cursor.start "\r\na\n\rb".toList) : Outcome Failure (List Line)) =
    done [⟨[], "\r\n".toList⟩, ⟨"a".toList, "\n\r".toList⟩, ⟨"b".toList, []⟩]
      ((Cursor.start "\r\na\n\rb".toList).advance 6) := by
  cbv

end Parser

end Taskbook
