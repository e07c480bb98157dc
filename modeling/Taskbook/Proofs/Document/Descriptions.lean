/-
Descriptions written and read back. A description is written line by line, each line behind the symbol, and each of
them is one round of the loop that reads descriptions, however the lines were broken before. What comes back is the
description as a task keeps it, unless it is all white space, and the reading stops where no further line begins.
-/
import Taskbook.Proofs.Document.RoundTrip
import Taskbook.Proofs.Layout.Beginnings

namespace Taskbook

open Text Outcome Taskbook.Parser

namespace Layout

variable {p l rest : Text} {ls : List Text} {s : Symbols} {c : Cursor}

/-! ## Lines behind a symbol -/

theorem run_lineOf_spaced (hl : Unbroken l) (hrest : ∀ x ∈ rest.head?, isBreak x = false) (h0 : c.excess = 0)
    (hc : c.ahead = spaced p l ++ '\n' :: rest) : (lineOf p).run c = done l (c.past (spaced p l ++ ['\n']) rest) := by
  have hahead : c.ahead = (p ++ [' ']) ++ (l ++ (['\n'] ++ rest)) := by
    rw [hc]
    simp [spaced]
  have hafter : c.after? (p ++ [' ']) = some (c.past (p ++ [' ']) (l ++ (['\n'] ++ rest))) :=
    Cursor.after?_eq_some_iff.2 ⟨h0, _, hahead, rfl⟩
  have hlf : ∀ x ∈ ['\n'], isBreak x = true := List.forall_mem_singleton.2 isBreak_lf
  have hended : ['\n'] = [] → rest = [] := fun h => absurd h (List.cons_ne_nil _ _)
  obtain ⟨hfirst, hbreaks, hbelow⟩ := firstLine_of_parts hl hlf hrest hended
  rw [run_lineOf, lineBehind?, hafter, Option.map_some, ofOption_some, Cursor.nextLine, Cursor.restOfLine,
    Cursor.ahead_past, hfirst, hbreaks, hbelow, Cursor.past_past]
  simp [spaced]

theorem run_lineOf_eq_miss (h : ¬ (p ++ [' ']) <+: c.ahead) : (lineOf p).run c = miss := by
  have hafter : c.after? (p ++ [' ']) = none := by
    by_contra hne
    obtain ⟨d, hd⟩ := Option.ne_none_iff_exists'.1 hne
    obtain ⟨-, r, hr, -⟩ := Cursor.after?_eq_some_iff.1 hd
    exact h ⟨r, hr.symm⟩
  rw [run_lineOf, lineBehind?, hafter]
  rfl

/-- Lines behind a symbol, one under the other, are as many rounds of the loop over such lines. -/
theorem rounds_lines (hp : Unbroken p) (hls : ∀ l ∈ ls, Unbroken l) (hne : ls ≠ [])
    (hrest : ∀ x ∈ rest.head?, isBreak x = false) (h0 : c.excess = 0)
    (hc : c.ahead = joinLines (ls.map (spaced p)) ++ '\n' :: rest) :
    (lineOf p).Rounds c ls (c.past (joinLines (ls.map (spaced p)) ++ ['\n']) rest) := by
  induction ls generalizing c with
  | nil => exact absurd rfl hne
  | cons l ls ih =>
    obtain ⟨hl, hls⟩ := List.forall_mem_cons.1 hls
    rcases eq_or_ne ls [] with rfl | hmore
    · rw [List.map_singleton, joinLines_singleton] at hc ⊢
      have hrun := run_lineOf_spaced hl hrest h0 hc
      exact .more hrun (advances_lineOf p hrun) (.none _)
    · rw [List.map_cons, joinLines_cons _ (by simpa using hmore)] at hc ⊢
      -- the next line begins with its symbol or with the blank behind it, and with no break
      have hstarted : Started (joinLines (ls.map (spaced p))) :=
        started_joinLines (by simpa using hmore) (List.forall_mem_map.2 fun l _ => started_spaced hp l)
      have hrun := run_lineOf_spaced hl (hstarted.append ('\n' :: rest)).head? h0 (by simpa using hc)
      refine .more hrun (advances_lineOf p hrun) ?_
      have hrounds := ih hls hmore (c := c.past (spaced p l ++ ['\n']) _) rfl rfl
      rw [Cursor.past_past] at hrounds
      simpa using hrounds

/-! ## Whole descriptions -/

/-- A description in writing is read with its breaks unified, up to where no line of a description follows. -/
theorem run_description_render (hs : Unbroken s.description) (d : Text) (hrest : ∀ x ∈ rest.head?, isBreak x = false)
    (hsymbol : ¬ (s.description ++ [' ']) <+: rest) (h0 : c.excess = 0)
    (hc : c.ahead = Task.renderDescription d s ++ '\n' :: rest) :
    (description s).run c = done (if allBlank d then none else some (unifyBreaks d))
      (c.past (Task.renderDescription d s ++ ['\n']) rest) := by
  have hrounds := rounds_lines hs (fun _ => unbroken_of_mem_splitLines) (splitLines_ne_nil d) hrest h0 hc
  unfold description Parser.map
  rw [run, hrounds.run_many_of_miss (run_lineOf_eq_miss hsymbol), andThen_done, run, joinDescription_eq,
    described_splitLines]
  rfl

end Layout

/-! ## Descriptions of tasks -/

theorem Task.renderDescription_unifyBreaks (d : Text) (s : Symbols) :
    renderDescription (unifyBreaks d) s = renderDescription d s := by
  unfold renderDescription
  rw [splitLines_unifyBreaks]

/-- A task keeps its description in a form that has no carriage return, stays as it is in another task, and is written
in the same way. If the symbol does not break its line, this form is read back from what is written, unless the
description is all white space and so none: the reading goes over the lines of the description, empty lines included,
and stops at the text behind them, which must not go on with a break or with a further line of a description. -/
theorem Task.description_read_back (s : Symbols) (hs : Unbroken s.description) (d : Text) :
    ∃ n, (∀ name due sts, (Task.of name due (some d) sts).description = some n ∧
        (Task.of name due (some n) sts).description = some n) ∧
      '\r' ∉ n ∧ renderDescription d s = renderDescription n s ∧
      ∀ rest, (∀ x ∈ rest.head?, isBreak x = false) → ¬ (s.description ++ [' ']) <+: rest →
        (Layout.description s).run (.start (renderDescription d s ++ '\n' :: rest)) =
          .done (if allBlank d then none else some n)
            ((Cursor.start (renderDescription d s ++ '\n' :: rest)).past (renderDescription d s ++ ['\n']) rest) := by
  refine ⟨unifyBreaks d, ?_, cr_not_mem_unifyBreaks d, (renderDescription_unifyBreaks d s).symm, ?_⟩
  · intro name due sts
    exact ⟨rfl, congrArg some (unifyBreaks_unifyBreaks d)⟩
  · intro rest hrest hsymbol
    exact Layout.run_description_render hs d hrest hsymbol rfl rfl

/-- An empty first line, breaks of every kind, and a line behind that begins with the blanks of the symbol. -/
theorem Task.description_read_back_of_mixed_breaks :
    Unbroken ({} : Symbols).description ∧ (∀ x ∈ "    * [x] c\n".toList.head?, isBreak x = false) ∧
      ¬ (({} : Symbols).description ++ [' ']) <+: "    * [x] c\n".toList ∧
      (Task.of [] none (some "\r\na\r\r\n b".toList) []).description = some "\na\n\n b".toList ∧
      ∃ c, (Layout.description {}).run
          (.start ("    > \n    > a\n    > \n    >  b".toList ++ '\n' :: "    * [x] c\n".toList)) =
        .done (some "\na\n\n b".toList) c ∧ c.offset = 31 ∧ c.ahead = "    * [x] c\n".toList := by
  have hs : Unbroken ({} : Symbols).description := by decide
  have hrest : ∀ x ∈ "    * [x] c\n".toList.head?, isBreak x = false := by
    rintro _ ⟨⟩
    rfl
  have hsymbol : ¬ (({} : Symbols).description ++ [' ']) <+: "    * [x] c\n".toList := by decide
  have hwritten : Task.renderDescription "\r\na\r\r\n b".toList {} = "    > \n    > a\n    > \n    >  b".toList := by
    cbv
  obtain ⟨n, hkept, -, -, hread⟩ := Task.description_read_back {} hs "\r\na\r\r\n b".toList
  obtain rfl : "\na\n\n b".toList = n := Option.some.inj (hkept [] none []).1
  rw [hwritten] at hread
  exact ⟨hs, hrest, hsymbol, rfl, _, hread _ hrest hsymbol, rfl, rfl⟩

end Taskbook
