/-
What lies ahead decides. With another text above its own a cursor stands at the same place, only further from the start.
A parser that never asks for its place does not tell the two apart: its runs from both end in the same way, with the
same value and as much passed (`agrees_of_placeless`).
-/
import Taskbook.Proofs.Parser.Progress

namespace Taskbook

namespace Cursor

/-- The same place in the text with `u` above it. -/
def under (c : Cursor) (u : Text) : Cursor where
  behind := c.behind ++ u.reverse
  ahead := c.ahead
  excess := c.excess
  beyond := c.beyond

variable (c : Cursor) (u : Text)

@[simp] theorem ahead_under : (c.under u).ahead = c.ahead := rfl

@[simp] theorem startsWith_under (t : Text) : (c.under u).startsWith t = c.startsWith t := rfl

@[simp] theorem atEnd_under : (c.under u).atEnd = c.atEnd := rfl

theorem text_under : (c.under u).text = u ++ c.text := by
  unfold text under
  rw [List.reverse_append, List.reverse_reverse, List.append_assoc]

theorem offset_under : (c.under u).offset = u.length + c.offset := by
  show (c.behind ++ u.reverse).length + c.excess = u.length + (c.behind.length + c.excess)
  rw [List.length_append, List.length_reverse]
  omega

@[simp] theorem past_under (p r : Text) : (c.under u).past p r = (c.past p r).under u := by
  unfold past under
  simp only [List.append_assoc]

theorem advance_under (t : Text) (i : Nat) :
    (start (u ++ t)).advance (u.length + i) = ((start t).advance i).under u := by
  refine eq_of_offset ?_ ?_
  · rw [text_under, text_advance, text_advance, text_start, text_start]
  · rw [offset_under, offset_advance, offset_advance, offset_start, offset_start]
    omega

end Cursor

variable {ε α β : Type} {u : Text} {R : ε → ε → Prop}

/-! ## Outcomes under another text -/

/-- The two runs end in the same way. The values are the same, the second place is the first one with `u` above its
text, and the failures are related. -/
inductive Outcome.Under (u : Text) (R : ε → ε → Prop) : Outcome ε α → Outcome ε α → Prop
  | done (value : α) (rest : Cursor) : Under u R (.done value rest) (.done value (rest.under u))
  | miss : Under u R .miss .miss
  | failed {e e' : ε} (h : R e e') : Under u R (.failed e) (.failed e')

namespace Outcome.Under

theorem map {o o' : Outcome ε α} (h : Under u R o o') (f : α → β) : Under u R (o.map f) (o'.map f) := by
  cases h with
  | done value rest => exact .done (f value) rest
  | miss => exact .miss
  | failed h => exact .failed h

theorem andThen {o o' : Outcome ε α} {next next' : α → Cursor → Outcome ε β} (h : Under u R o o')
    (hnext : ∀ a c, Under u R (next a c) (next' a (c.under u))) : Under u R (o.andThen next) (o'.andThen next') := by
  cases h with
  | done value rest => exact hnext value rest
  | miss => exact .miss
  | failed h => exact .failed h

theorem orElse {o o' next next' : Outcome ε α} (h : Under u R o o') (hnext : Under u R next next') :
    Under u R (o.orElse next) (o'.orElse next') := by
  cases h with
  | done value rest => exact .done value rest
  | miss => exact hnext
  | failed h => exact .failed h

theorem eq_done {o : Outcome ε α} {a : α} {d : Cursor} (h : Under u R (.done a d) o) : o = .done a (d.under u) := by
  cases h
  rfl

theorem eq_miss {o : Outcome ε α} (h : Under u R .miss o) : o = .miss := by
  cases h
  rfl

theorem eq_failed {o : Outcome ε α} {e : ε} (h : Under u R (.failed e) o) : ∃ e', R e e' ∧ o = .failed e' := by
  cases h with
  | failed h => exact ⟨_, h, rfl⟩

/-- The rounds of a loop keep in step, since the room is the same under another text. -/
theorem loop {step step' : Cursor → Outcome ε α} (hstep : ∀ c, Under u R (step c) (step' (c.under u))) (c : Cursor) :
    Under u R (Outcome.loop step c) (Outcome.loop step' (c.under u)) := by
  -- on the rounds of the first loop, which also decide which round of the second one is its last
  induction c using Outcome.loop.induct step with
  | case1 c hs =>
    have hs' := eq_miss (hs ▸ hstep c)
    rw [loop_miss hs, loop_miss hs']
    exact .done [] c
  | case2 c e hs =>
    obtain ⟨e', he, hs'⟩ := eq_failed (hs ▸ hstep c)
    rw [loop_failed hs, loop_failed hs']
    exact .failed he
  | case3 c a d hs hlt ih =>
    have hs' := eq_done (hs ▸ hstep c)
    rw [loop_done hs hlt, loop_done hs' hlt]
    exact ih.map _
  | case4 c a d hs hlt =>
    have hs' := eq_done (hs ▸ hstep c)
    rw [loop_last hs hlt, loop_last hs' hlt]
    exact .done [a] d

end Outcome.Under

namespace Parser

/-! ## Parsers under another text -/

/-- Wherever the first parser is run, the second one does the same with `u` above the text. -/
def Agrees (u : Text) (R : ε → ε → Prop) (p q : Parser ε α) : Prop :=
  ∀ c, Outcome.Under u R (p.run c) (q.run (c.under u))

theorem Agrees.bind {p q : Parser ε α} {next next' : α → Parser ε β} (h : Agrees u R p q)
    (hnext : ∀ a, Agrees u R (next a) (next' a)) : Agrees u R (.bind p next) (.bind q next') := by
  intro c
  rw [run, run]
  exact (h c).andThen fun a d => hnext a d

theorem Agrees.orElse {p q p' q' : Parser ε α} (h : Agrees u R p p') (h' : Agrees u R q q') :
    Agrees u R (.orElse p q) (.orElse p' q') := by
  intro c
  rw [run, run]
  exact (h c).orElse (h' c)

theorem Agrees.many {p q : Parser ε α} (h : Agrees u R p q) : Agrees u R (.many p) (.many q) := by
  intro c
  rw [run, run]
  exact Outcome.Under.loop h c

theorem Agrees.optional {p q : Parser ε α} (h : Agrees u R p q) : Agrees u R (.optional p) (.optional q) := by
  intro c
  rw [run, run]
  exact ((h c).map some).orElse (.done none c)

theorem agrees_succeed (a : α) : Agrees u R (.succeed a) (.succeed a) := fun c => .done a c

theorem Agrees.map {p q : Parser ε α} (h : Agrees u R p q) (f : α → β) : Agrees u R (map f p) (map f q) :=
  h.bind fun a => agrees_succeed (f a)

theorem Agrees.many1 {p q : Parser ε α} (h : Agrees u R p q) : Agrees u R (many1 p) (many1 q) :=
  h.bind fun _ => h.many.map _

/-- The parser is built without `here`, however deep and through whatever values. -/
inductive Placeless {ε : Type} : {α : Type} → Parser ε α → Prop
  | satisfy (accepts : Char → Bool) : Placeless (.satisfy accepts)
  | literal (t : Text) : Placeless (.literal t)
  | line : Placeless .line
  | endOfText : Placeless .endOfText
  | fail {α : Type} (failure : ε) : Placeless (.fail failure : Parser ε α)
  | succeed {α : Type} (value : α) : Placeless (.succeed value)
  | bind {α β : Type} {p : Parser ε α} {next : α → Parser ε β} (hp : Placeless p) (hn : ∀ a, Placeless (next a)) :
    Placeless (.bind p next)
  | orElse {α : Type} {p q : Parser ε α} (hp : Placeless p) (hq : Placeless q) : Placeless (.orElse p q)
  | many {α : Type} {p : Parser ε α} (hp : Placeless p) : Placeless (.many p)
  | optional {α : Type} {p : Parser ε α} (hp : Placeless p) : Placeless (.optional p)

namespace Placeless

theorem map {p : Parser ε α} (hp : p.Placeless) (f : α → β) : (map f p).Placeless := .bind hp fun _ => .succeed _

theorem andThen {p : Parser ε α} {q : Parser ε β} (hp : p.Placeless) (hq : q.Placeless) : (andThen p q).Placeless :=
  .bind hp fun _ => hq

theorem sequence {ps : List (Parser ε α)} (h : ∀ p ∈ ps, p.Placeless) : (sequence ps).Placeless := by
  induction ps with
  | nil => exact .succeed []
  | cons p ps ih =>
    obtain ⟨hp, hps⟩ := List.forall_mem_cons.1 h
    exact .bind hp fun _ => (ih hps).map _

theorem char (x : Char) : (char x : Parser ε Char).Placeless := .satisfy _

theorem skipBlanks : (skipBlanks : Parser ε Text).Placeless := .many (.satisfy _)

end Placeless

/-- A parser that does not ask for its place does the same wherever its text stands. -/
theorem agrees_of_placeless (hR : ∀ e, R e e) {p : Parser ε α} (hp : p.Placeless) : Agrees u R p p := by
  induction hp with
  | satisfy accepts =>
    intro c
    rw [run, run, Cursor.ahead_under]
    rcases c.ahead with _ | ⟨x, rest⟩
    · exact .miss
    · dsimp only
      rw [Cursor.past_under]
      split
      · exact .done x _
      · exact .miss
  | literal t =>
    intro c
    rw [run, run, Cursor.startsWith_under, Cursor.past_under]
    split
    · exact .done t _
    · exact .miss
  | line =>
    intro c
    rw [run, run, Cursor.past_under]
    exact .done _ _
  | endOfText =>
    intro c
    rw [run, run, Cursor.atEnd_under]
    split
    · exact .done () c
    · exact .miss
  | fail failure =>
    intro c
    exact .failed (hR failure)
  | succeed value =>
    intro c
    exact .done value c
  | bind _ _ ihp ihn => exact ihp.bind ihn
  | orElse _ _ ihp ihq => exact ihp.orElse ihq
  | many _ ih => exact ih.many
  | optional _ ih => exact ih.optional

end Parser

end Taskbook
