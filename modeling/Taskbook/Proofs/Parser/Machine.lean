/-
Runs step by step. A machine starts one parser at a time; the parsers that wait for its outcome stand on a stack, each
with what it will do with that outcome. A loop goes on here as long as the offset changes. The machine ends from
every place with the outcome of `run` and with no other, so every run is finite, the rounds of its loops included
(`run_ends`). Where every loop is over a parser that advances, none of them ever has to give up.
-/
import Taskbook.Failure
import Taskbook.Proofs.Parser.Rounds
import Mathlib.Logic.Relation

namespace Taskbook.Machine

/-! ## States and steps -/

/-- A parser that waits for the outcome of one of its parts. -/
inductive Frame (ε : Type) : Type → Type → Type 1
  /-- The parser behind is chosen by the value. -/
  | bind {α β : Type} (next : α → Parser ε β) : Frame ε α β
  /-- The other parser is there for a miss. -/
  | orElse {α : Type} (q : Parser ε α) (c : Cursor) : Frame ε α α
  /-- A round that began at a place, and the values of the rounds before. -/
  | many {α : Type} (p : Parser ε α) (values : List α) (c : Cursor) : Frame ε α (List α)
  /-- A miss passes nothing. -/
  | optional {α : Type} (c : Cursor) : Frame ε α (Option α)

/-- The parsers that wait, the innermost first, down to one whose values have type `ω`. -/
inductive Stack (ε ω : Type) : Type → Type 1
  | empty : Stack ε ω ω
  | push {α β : Type} (f : Frame ε α β) (k : Stack ε ω β) : Stack ε ω α

/-- A state of a run. -/
inductive State (ε ω : Type) : Type 1
  /-- A parser is started at a place. -/
  | started {α : Type} (p : Parser ε α) (c : Cursor) (k : Stack ε ω α)
  /-- The parser that was started has ended. -/
  | ended {α : Type} (o : Outcome ε α) (k : Stack ε ω α)

open State

/-- What a parser that waited does with the outcome. -/
def Frame.take {ε ω : Type} : {α β : Type} → Frame ε α β → Outcome ε α → Stack ε ω β → State ε ω
  | _, _, bind next, .done value rest, k => started (next value) rest k
  | _, _, bind _, .miss, k => ended .miss k
  | _, _, bind _, .failed failure, k => ended (.failed failure) k
  | _, _, orElse _ _, .done value rest, k => ended (.done value rest) k
  | _, _, orElse q c, .miss, k => started q c k
  | _, _, orElse _ _, .failed failure, k => ended (.failed failure) k
  | _, _, many p values c, .done value rest, k =>
    if rest.offset = c.offset then ended (.done (values ++ [value]) c) k
    else started p rest (.push (many p (values ++ [value]) rest) k)
  | _, _, many _ values c, .miss, k => ended (.done values c) k
  | _, _, many _ _ _, .failed failure, k => ended (.failed failure) k
  | _, _, optional _, .done value rest, k => ended (.done (some value) rest) k
  | _, _, optional c, .miss, k => ended (.done none c) k
  | _, _, optional _, .failed failure, k => ended (.failed failure) k

namespace State

variable {ε ω : Type}

/-- The state that follows, if the run is not over. A parser without parts ends at once. -/
def next? : State ε ω → Option (State ε ω)
  | started (.bind p next) c k => some (started p c (.push (.bind next) k))
  | started (.orElse p q) c k => some (started p c (.push (.orElse q c) k))
  | started (.many p) c k => some (started p c (.push (.many p [] c) k))
  | started (.optional p) c k => some (started p c (.push (.optional c) k))
  | started p c k => some (ended (p.run c) k)
  | ended o (.push f k) => some (f.take o k)
  | ended _ .empty => none

/-- One state follows the other. -/
def Step (s s' : State ε ω) : Prop := s.next? = some s'

/-- One state comes some steps behind the other. -/
def Reaches : State ε ω → State ε ω → Prop := Relation.ReflTransGen Step

/-- A round has ended where it began, and the loop gives up: it ends with the value of this round as its last one. -/
def GivesUp : State ε ω → Prop
  | ended (.done _ d) (.push (.many _ _ c) _) => d.offset = c.offset
  | _ => False

/-- One state follows the other, and if this is asked for, no loop gives up between them. -/
def Goes (asked : Prop) (s s' : State ε ω) : Prop := Step s s' ∧ (asked → ¬ s.GivesUp)

/-- The run can go on for ever. -/
def Endless (s : State ε ω) : Prop := ∃ run : Nat → State ε ω, run 0 = s ∧ ∀ n, Step (run n) (run (n + 1))

end State

/-- The run of a parser begins. -/
def start {ε α : Type} (p : Parser ε α) (c : Cursor) : State ε α := started p c .empty

section

variable {ε ω α : Type} {s s₁ s₂ : State ε ω}

/-- A run that has ended stays where it is. -/
theorem eq_of_reaches_of_ended (hs : s.next? = none) (h : Reaches s s₁) : s₁ = s := by
  rcases h.cases_head with rfl | ⟨s', hstep, -⟩
  · rfl
  · unfold Step at hstep
    rw [hs] at hstep
    cases hstep

/-- A run ends in one state. -/
theorem eq_of_reaches (h₁ : Reaches s s₁) (h₂ : Reaches s s₂) (he₁ : s₁.next? = none) (he₂ : s₂.next? = none) :
    s₁ = s₂ := by
  have hunique : Relator.RightUnique (Step (ε := ε) (ω := ω)) := by
    intro a b b' hb hb'
    exact Option.some.inj (hb.symm.trans hb')
  rcases Relation.ReflTransGen.total_of_right_unique hunique h₁ h₂ with h | h
  · exact (eq_of_reaches_of_ended he₁ h).symm
  · exact eq_of_reaches_of_ended he₂ h

theorem not_endless_of_reaches (h : Reaches s s₁) (he : s₁.next? = none) : ¬ Endless s := by
  induction h using Relation.ReflTransGen.head_induction_on with
  | refl =>
    rintro ⟨run, h0, hrun⟩
    have hstep := hrun 0
    unfold Step at hstep
    rw [h0, he] at hstep
    cases hstep
  | head hstep _ ih =>
    rintro ⟨run, h0, hrun⟩
    -- the second state of the run is the one that follows the first
    have hnext : run 1 = _ := Option.some.inj ((hrun 0).symm.trans (h0 ▸ hstep))
    exact ih ⟨fun n => run (n + 1), hnext, fun n => hrun (n + 1)⟩

/-! ## The machine does what `run` says -/

theorem step_round_moved {p : Parser ε α} {values : List α} {c d : Cursor} {a : α} {k : Stack ε ω (List α)}
    (h : d.offset ≠ c.offset) :
    Step (ended (.done a d) (.push (.many p values c) k)) (started p d (.push (.many p (values ++ [a]) d) k)) :=
  congrArg some (if_neg h)

theorem step_round_unmoved {p : Parser ε α} {values : List α} {c d : Cursor} {a : α} {k : Stack ε ω (List α)}
    (h : d.offset = c.offset) :
    Step (ended (.done a d) (.push (.many p values c) k)) (ended (.done (values ++ [a]) c) k) :=
  congrArg some (if_pos h)

/-- The rounds of a loop do what the loop does, if one round does what `run` says. -/
theorem goes_loop {asked : Prop} {p : Parser ε α}
    (hp : ∀ c (k : Stack ε ω α), Relation.ReflTransGen (Goes asked) (started p c k) (ended (p.run c) k))
    (hadvances : asked → p.Advances) (values : List α) (c : Cursor) (k : Stack ε ω (List α)) :
    Relation.ReflTransGen (Goes asked) (started p c (.push (.many p values c) k))
      (ended ((Outcome.loop p.run c).map (values ++ ·)) k) := by
  refine (hp c _).trans ?_
  induction c using Outcome.loop.induct p.run generalizing values with
  | case1 c hs =>
    rw [Outcome.loop_miss hs, hs, Outcome.map_done, List.append_nil]
    exact .single ⟨rfl, fun _ => id⟩
  | case2 c e hs =>
    rw [Outcome.loop_failed hs, hs]
    exact .single ⟨rfl, fun _ => id⟩
  | case3 c a d hs hlt ih =>
    have hmoved : d.offset ≠ c.offset := (Parser.leadsTo_of_run hs).room_lt_iff.1 hlt
    have hvalues : (values ++ ·) ∘ (a :: ·) = ((values ++ [a]) ++ ·) := by
      funext as
      simp
    rw [Outcome.loop_done hs hlt, hs, Outcome.map_map, hvalues]
    exact .head ⟨step_round_moved hmoved, fun _ => hmoved⟩ ((hp d _).trans (ih (values ++ [a])))
  | case4 c a d hs hlt =>
    -- a round that leaves the room as it is ends where it began
    have hleads := Parser.leadsTo_of_run hs
    have hsame : d.offset = c.offset := not_not.1 fun h => hlt (hleads.room_lt_iff.2 h)
    have hno : ¬ asked := fun hasked => (hadvances hasked hs).ne' hsame
    obtain rfl : d = c := Cursor.eq_of_offset hleads.text hsame
    rw [Outcome.loop_last hs hlt, hs, Outcome.map_done]
    exact .single ⟨step_round_unmoved hsame, fun hasked => absurd hasked hno⟩

/-- A parser that is started ends with the outcome of its run, whatever waits for it; and no loop gives up on the way
if every loop within the parser is over one that advances. -/
theorem goes_run {asked : Prop} (p : Parser ε α) (hproductive : asked → p.Productive) (c : Cursor) (k : Stack ε ω α) :
    Relation.ReflTransGen (Goes asked) (started p c k) (ended (p.run c) k) := by
  induction p generalizing c with
  | bind p next ihp ihn =>
    refine .head ⟨rfl, fun _ => id⟩ ((ihp (fun h => (hproductive h).1) c _).trans ?_)
    rw [Parser.run]
    rcases p.run c with ⟨b, d⟩ | _ | e
    · exact .head ⟨rfl, fun _ => id⟩ (ihn b (fun h => (hproductive h).2 b) d k)
    · exact .single ⟨rfl, fun _ => id⟩
    · exact .single ⟨rfl, fun _ => id⟩
  | orElse p q ihp ihq =>
    refine .head ⟨rfl, fun _ => id⟩ ((ihp (fun h => (hproductive h).1) c _).trans ?_)
    rw [Parser.run]
    rcases p.run c with ⟨b, d⟩ | _ | e
    · exact .single ⟨rfl, fun _ => id⟩
    · exact .head ⟨rfl, fun _ => id⟩ (ihq (fun h => (hproductive h).2) c k)
    · exact .single ⟨rfl, fun _ => id⟩
  | many p ih =>
    have hloop := goes_loop (fun c k => ih (fun h => (hproductive h).1) c k) (fun h => (hproductive h).2) [] c k
    rw [show (([] : List _) ++ ·) = fun as => as from rfl, Outcome.map_id'] at hloop
    exact .head ⟨rfl, fun _ => id⟩ hloop
  | optional p ih =>
    refine .head ⟨rfl, fun _ => id⟩ ((ih hproductive c _).trans ?_)
    rw [Parser.run]
    rcases p.run c with ⟨b, d⟩ | _ | e <;> exact .single ⟨rfl, fun _ => id⟩
  | _ => exact .single ⟨rfl, fun _ => id⟩

theorem reaches_run (p : Parser ε α) (c : Cursor) (k : Stack ε ω α) : Reaches (started p c k) (ended (p.run c) k) :=
  Relation.ReflTransGen.mono (fun _ _ h => h.1) _ _ (goes_run p False.elim c k)

/-- No run of the parser comes to a loop that gives up, wherever it begins. -/
def NeverGivesUp (p : Parser ε α) : Prop := ∀ c s, Reaches (start p c) s → ¬ s.GivesUp

/-- The state that a run goes to is the only one, so that whatever it reaches lies on its way. -/
theorem not_givesUp_of_goes {o : Outcome ε ω} (h : Relation.ReflTransGen (Goes True) s (ended o .empty))
    (hreach : Reaches s s₁) : ¬ s₁.GivesUp := by
  induction h using Relation.ReflTransGen.head_induction_on with
  | refl =>
    rw [eq_of_reaches_of_ended rfl hreach]
    cases o <;> exact id
  | @head s s' hgoes _ ih =>
    rcases hreach.cases_head with rfl | ⟨s₂, hstep, hreach⟩
    · exact hgoes.2 trivial
    · cases hgoes.1.symm.trans hstep
      exact ih hreach

/-- Where every loop is over a parser that advances, no loop gives up. -/
theorem neverGivesUp_of_productive {p : Parser ε α} (hp : p.Productive) : NeverGivesUp p :=
  fun c _ hreach => not_givesUp_of_goes (goes_run p (fun _ => hp) c .empty) hreach

/-- A loop that never gives up is over a parser whose successes all change the offset. -/
theorem offset_ne_of_neverGivesUp {p : Parser ε α} (h : NeverGivesUp (.many p)) {c d : Cursor} {a : α}
    (hrun : p.run c = .done a d) : d.offset ≠ c.offset := by
  have hround := reaches_run p c (.push (.many p [] c) (.empty : Stack ε (List α) _))
  rw [hrun] at hround
  exact h c _ (.head rfl hround)

/-- The machine ends with the outcome of the run, and with no other. -/
theorem reaches_ended_iff {p : Parser ε α} {c : Cursor} {o : Outcome ε α} :
    Reaches (start p c) (ended o .empty) ↔ p.run c = o := by
  constructor
  · intro h
    have hstate := eq_of_reaches (reaches_run p c .empty) h rfl rfl
    cases hstate
    rfl
  · rintro rfl
    exact reaches_run p c .empty

end

/-! ## Every run ends, within its text -/

/-- Every run ends, with the one outcome that `run` tells, and does not go on for ever; its loops go on while the
offset changes, so each of them makes finitely many rounds. A success is a place in the same text, not before the place
where the run began; from beyond the end it is this very place or the end. -/
theorem run_ends {ε α : Type} (p : Parser ε α) (c : Cursor) :
    (∀ o, Reaches (start p c) (ended o .empty) ↔ p.run c = o) ∧ ¬ Endless (start p c) ∧
      ∀ a d, p.run c = .done a d → d.text = c.text ∧
        (c.offset ≤ c.text.length → c.offset ≤ d.offset ∧ d.offset ≤ c.text.length) ∧
        (c.text.length < c.offset → d.offset = c.offset ∨ d.offset = c.text.length) := by
  refine ⟨fun _ => reaches_ended_iff, not_endless_of_reaches (reaches_run p c .empty) rfl, ?_⟩
  intro a d h
  obtain ⟨htext, hwithin, hbeyond⟩ := Parser.leadsTo_of_run h
  exact ⟨htext, hwithin, hbeyond⟩

/-- Lines read from two characters beyond the end of a text: the first round goes back to the end, and the second one,
which does not move, is the last. -/
theorem run_ends_of_lines :
    ((Cursor.start "a\n".toList).advance 4).text.length < ((Cursor.start "a\n".toList).advance 4).offset ∧
      Reaches (start (.many .line : Parser Failure (List Text)) ((Cursor.start "a\n".toList).advance 4))
        (ended (.done [[], []] ((Cursor.start "a\n".toList).advance 2)) .empty) ∧
      ((Cursor.start "a\n".toList).advance 2).offset = ((Cursor.start "a\n".toList).advance 4).text.length := by
  obtain ⟨hends, -, hplace⟩ :=
    run_ends (.many .line : Parser Failure (List Text)) ((Cursor.start "a\n".toList).advance 4)
  have hrun : (Parser.many .line : Parser Failure (List Text)).run ((Cursor.start "a\n".toList).advance 4) =
      .done [[], []] ((Cursor.start "a\n".toList).advance 2) := by cbv
  have hbeyond : ((Cursor.start "a\n".toList).advance 4).text.length <
      ((Cursor.start "a\n".toList).advance 4).offset := by decide
  obtain ⟨-, -, hplace⟩ := hplace _ _ hrun
  refine ⟨hbeyond, (hends _).2 hrun, ?_⟩
  rcases hplace hbeyond with h | h
  · exact absurd h (by decide)
  · exact h

end Taskbook.Machine
