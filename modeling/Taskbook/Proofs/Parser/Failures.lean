/-
Failures end a run. Where a parser has failed, all that wait for it fail in the same way, one after the other, and no
parser is started any more. No other parser than `fail` begins a failure.
-/
import Taskbook.Proofs.Parser.Machine

namespace Taskbook.Machine

open State

variable {ε ω α β : Type} {e : ε}

/-! ## Nothing holds a failure up -/

theorem take_failed (f : Frame ε α β) (e : ε) (k : Stack ε ω β) : f.take (.failed e) k = ended (.failed e) k := by
  cases f <;> rfl

theorem step_failed (f : Frame ε α β) (e : ε) (k : Stack ε ω β) :
    Step (ended (.failed e) (.push f k)) (ended (.failed e) k) :=
  congrArg some (take_failed f e k)

/-- A failure goes through to the end of the run. -/
theorem reaches_failed (e : ε) (k : Stack ε ω α) : Reaches (ended (.failed e) k) (ended (.failed e) .empty) := by
  induction k with
  | empty => exact .refl
  | push f k ih => exact .head (step_failed f e k) ih

/-- Behind a failure there are only parsers that end with it. -/
theorem ended_of_reaches {s : State ε ω} {k : Stack ε ω α} (h : Reaches (ended (.failed e) k) s) :
    ∃ (γ : Type) (k' : Stack ε ω γ), s = ended (.failed e) k' := by
  induction h with
  | refl => exact ⟨α, k, rfl⟩
  | tail _ hstep ih =>
    obtain ⟨γ, k', rfl⟩ := ih
    cases k' with
    | empty => cases hstep
    | push f k' =>
      rw [← Option.some.inj ((step_failed f e k').symm.trans hstep)]
      exact ⟨_, k', rfl⟩

/-! ## Where failures begin -/

theorem ended_ne_failed {o : Outcome ε β} (ho : ∀ e, o ≠ .failed e) (k' : Stack ε ω β) (k : Stack ε ω α) :
    ended o k' ≠ ended (.failed e) k := by
  intro h
  cases h
  exact ho e rfl

/-- In the step before a failure either `fail` was started, or one part of a parser had failed in this way. -/
theorem failed_of_step {s : State ε ω} {k : Stack ε ω α} (h : Step s (ended (.failed e) k)) :
    (∃ c, s = started (.fail e) c k) ∨ ∃ (γ : Type) (k' : Stack ε ω γ), s = ended (.failed e) k' := by
  cases s with
  | started p c k' =>
    left
    cases p with
    | fail failure =>
      cases h
      exact ⟨c, rfl⟩
    | satisfy accepts =>
      refine absurd (Option.some.inj h) (ended_ne_failed ?_ k' k)
      intro e'
      rw [Parser.run]
      split
      · rintro ⟨⟩
      · split <;> rintro ⟨⟩
    | literal t =>
      refine absurd (Option.some.inj h) (ended_ne_failed ?_ k' k)
      intro e'
      rw [Parser.run]
      split <;> rintro ⟨⟩
    | endOfText =>
      refine absurd (Option.some.inj h) (ended_ne_failed ?_ k' k)
      intro e'
      rw [Parser.run]
      split <;> rintro ⟨⟩
    | _ => cases h
  | ended o k' =>
    right
    cases k' with
    | empty => cases h
    | push f k' =>
      rcases o with ⟨a, d⟩ | _ | e'
      · -- with a value a parser goes on or ends with a value
        cases f with
        | many p values c =>
          by_cases hmoved : d.offset = c.offset
          · cases (step_round_unmoved hmoved).symm.trans h
          · cases (step_round_moved hmoved).symm.trans h
        | _ => cases h
      · cases f <;> cases h
      · cases (step_failed f e' k').symm.trans h
        exact ⟨_, _, rfl⟩

/-- A failure in a run began with a parser that does nothing but fail in this way. -/
theorem started_fail_of_reaches {p : Parser ε ω} {c : Cursor} {k : Stack ε ω α}
    (h : Reaches (start p c) (ended (.failed e) k)) :
    ∃ (γ : Type) (d : Cursor) (k' : Stack ε ω γ), Reaches (start p c) (started (.fail e) d k') := by
  generalize hs : ended (.failed e) k = s at h
  induction h generalizing α with
  | refl => cases hs
  | tail hreach hstep ih =>
    subst hs
    rcases failed_of_step hstep with ⟨d, rfl⟩ | ⟨γ, k', rfl⟩
    · exact ⟨α, d, k, hreach⟩
    · exact ih rfl

/-- A failure ends the run. Where a parser that was started in a run fails, at any depth, no parser is started behind
it, and the whole run fails in the same way; and a run fails only if it comes to a parser that does nothing else. -/
theorem failure_ends_run (p : Parser ε ω) (c : Cursor) :
    (∀ (α : Type) (q : Parser ε α) (d : Cursor) (k : Stack ε ω α) (e : ε),
      Reaches (start p c) (started q d k) → q.run d = .failed e →
        Reaches (started q d k) (ended (.failed e) k) ∧
        (∀ (β : Type) (r : Parser ε β) (d' : Cursor) (k' : Stack ε ω β),
          ¬ Reaches (ended (.failed e) k) (started r d' k')) ∧
        p.run c = .failed e) ∧
    ∀ e, p.run c = .failed e →
      ∃ (α : Type) (d : Cursor) (k : Stack ε ω α), Reaches (start p c) (started (.fail e) d k) := by
  constructor
  · intro α q d k e hreach hfailed
    have hended := reaches_run q d k
    rw [hfailed] at hended
    refine ⟨hended, ?_, ?_⟩
    · intro β r d' k' h
      obtain ⟨γ, k'', heq⟩ := ended_of_reaches h
      cases heq
    · exact reaches_ended_iff.1 (hreach.trans (hended.trans (reaches_failed e k)))
  · intro e h
    exact started_fail_of_reaches (reaches_ended_iff.2 h)

/-- Lines, as many as there are; one that begins with a hyphen is a failure, which neither the alternative nor the
loop around it holds up. -/
private def hyphenless : Parser Text (Option (List Text)) :=
  .optional (.many (.orElse (.andThen (.char '-') (.fail "hyphen".toList)) .line))

/-- The first line is read; in the second round the hyphen is found, and the line behind it is not tried. -/
theorem failure_ends_run_of_hyphen :
    hyphenless.run (.start "a\n-b".toList) = .failed "hyphen".toList ∧
      ∃ (α : Type) (d : Cursor) (k : Stack Text (Option (List Text)) α),
        Reaches (start hyphenless (.start "a\n-b".toList)) (started (.fail "hyphen".toList) d k) ∧
        ∀ (β : Type) (r : Parser Text β) (d' : Cursor) (k' : Stack Text (Option (List Text)) β),
          ¬ Reaches (ended (.failed "hyphen".toList) k) (started r d' k') := by
  obtain ⟨hends, hbegins⟩ := failure_ends_run hyphenless (.start "a\n-b".toList)
  have hrun : hyphenless.run (.start "a\n-b".toList) = .failed "hyphen".toList := by cbv
  obtain ⟨α, d, k, hreach⟩ := hbegins _ hrun
  obtain ⟨-, hnone, -⟩ := hends α (.fail "hyphen".toList) d k _ hreach rfl
  exact ⟨hrun, α, d, k, hreach, hnone⟩

end Taskbook.Machine
