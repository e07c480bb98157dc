/-
Where reading leads. A run stays in its text and never goes back, but beyond the end of the text it may go back to
the end. So a place is told by its text and its offset, and a run that has changed the offset has used up room:
to go on while the offset changes is to go on while the room shrinks.
-/
import Taskbook.Proofs.Parser.Outcomes
import Taskbook.Proofs.Text.Lines

namespace Taskbook

namespace Cursor

variable {c d e : Cursor}

theorem length_text (c : Cursor) : c.text.length = c.behind.length + c.ahead.length := by
  unfold text
  rw [List.length_append, List.length_reverse]

/-- A place has characters ahead, or it is at the end or beyond it. -/
theorem ahead_or_excess (c : Cursor) : c.ahead.length = 0 ∨ c.excess = 0 := by
  rcases c.beyond with h | h
  · left
    rw [h]
    rfl
  · exact .inr h

theorem excess_of_ahead_cons {x : Char} {t : Text} (h : c.ahead = x :: t) : c.excess = 0 := by
  refine c.ahead_or_excess.resolve_left ?_
  rw [h]
  exact Nat.succ_ne_zero _

theorem eq_of_offset (ht : d.text = c.text) (ho : d.offset = c.offset) : d = c := by
  have hlen : d.behind.length + d.ahead.length = c.behind.length + c.ahead.length := by
    rw [← length_text, ← length_text, ht]
  have hc := c.ahead_or_excess
  have hd := d.ahead_or_excess
  unfold offset at ho
  unfold text at ht
  have hbehind : d.behind.reverse.length = c.behind.reverse.length := by
    rw [List.length_reverse, List.length_reverse]
    omega
  obtain ⟨hb, ha⟩ := List.append_inj ht hbehind
  have he : d.excess = c.excess := by
    rw [List.length_reverse, List.length_reverse] at hbehind
    omega
  cases c
  cases d
  cases List.reverse_injective hb
  cases ha
  cases he
  rfl

theorem room_eq (c : Cursor) : c.room = if c.offset ≤ c.text.length then c.text.length - c.offset else 1 := by
  have hc := c.ahead_or_excess
  rw [length_text]
  unfold room offset
  split <;> omega

/-- Reading may lead from `c` to `d`. -/
structure LeadsTo (c d : Cursor) : Prop where
  text : d.text = c.text
  within : c.offset ≤ c.text.length → c.offset ≤ d.offset ∧ d.offset ≤ c.text.length
  beyond : c.text.length < c.offset → d.offset = c.offset ∨ d.offset = c.text.length

namespace LeadsTo

theorem refl (c : Cursor) : c.LeadsTo c := ⟨rfl, fun h => ⟨le_rfl, h⟩, fun _ => .inl rfl⟩

theorem trans (h : c.LeadsTo d) (h' : d.LeadsTo e) : c.LeadsTo e where
  text := h'.text.trans h.text
  within hc := by
    obtain ⟨hle, hd⟩ := h.within hc
    rw [← h.text] at hd
    obtain ⟨hle', he⟩ := h'.within hd
    exact ⟨hle.trans hle', by rwa [h.text] at he⟩
  beyond hc := by
    -- from beyond the end one comes to the end at most once
    rcases h.beyond hc with hd | hd
    · rw [← hd, ← h.text] at hc ⊢
      exact h'.beyond hc
    · rw [← h.text] at hd
      obtain ⟨hle, he⟩ := h'.within hd.le
      right
      rw [h.text] at hd he
      omega

/-- What lies ahead can be passed over. -/
theorem past {p r : Text} (h : c.ahead = p ++ r) : c.LeadsTo (c.past p r) := by
  have hc := c.ahead_or_excess
  have hlen : c.ahead.length = p.length + r.length := by rw [h, List.length_append]
  have hoffset : (c.past p r).offset = p.length + c.behind.length := by simp [offset, Cursor.past]
  refine ⟨?_, ?_, ?_⟩
  · unfold Cursor.text Cursor.past
    rw [h]
    simp
  · rw [hoffset, length_text]
    unfold offset
    omega
  · rw [hoffset, length_text]
    unfold offset
    omega

/-- Room is used up exactly where the offset changes. -/
theorem room_lt_iff (h : c.LeadsTo d) : d.room < c.room ↔ d.offset ≠ c.offset := by
  have hw := h.within
  have hb := h.beyond
  rw [room_eq, room_eq, h.text]
  split_ifs <;> omega

end LeadsTo

end Cursor

namespace Outcome

theorem leadsTo_of_loop {ε α : Type} {step : Cursor → Outcome ε α}
    (hstep : ∀ {c d : Cursor} {a : α}, step c = done a d → c.LeadsTo d) {c d : Cursor} {as : List α}
    (h : loop step c = done as d) : c.LeadsTo d := by
  refine of_loop_eq_done (fun c _ d => c.LeadsTo d) .refl ?_ ?_ h
  · intro c a d hs
    exact hstep hs
  · intro c a d as e hs ih
    exact (hstep hs).trans ih

end Outcome

namespace Parser

variable {ε α : Type} {p : Parser ε α} {c d : Cursor} {a : α}

/-- A run leads on in its text, whatever the parser is. -/
theorem leadsTo_of_run (h : p.run c = .done a d) : c.LeadsTo d := by
  induction p generalizing c d with
  | satisfy accepts =>
    rw [run] at h
    rcases hc : c.ahead with _ | ⟨x, r⟩ <;> rw [hc] at h
    · cases h
    · dsimp only at h
      split at h <;> cases h
      exact .past hc
  | literal t =>
    rw [run] at h
    split at h <;> cases h
    rename_i hs
    unfold Cursor.startsWith at hs
    rw [Bool.and_eq_true, List.isPrefixOf_iff_prefix] at hs
    obtain ⟨r, hr⟩ := hs.2
    rw [← hr, List.drop_left]
    exact .past hr.symm
  | line =>
    rw [run] at h
    cases h
    exact .past (Text.firstLine_append_rest c.ahead).symm
  | endOfText =>
    rw [run] at h
    split at h <;> cases h
    exact .refl _
  | here =>
    rw [run] at h
    cases h
    exact .refl _
  | fail failure =>
    rw [run] at h
    cases h
  | succeed value =>
    rw [run] at h
    cases h
    exact .refl _
  | bind p next ihp ihn =>
    rw [run] at h
    rcases hp : p.run c with ⟨b, e⟩ | _ | _ <;> rw [hp] at h
    · exact (ihp hp).trans (ihn b h)
    · cases h
    · cases h
  | orElse p q ihp ihq =>
    rw [run] at h
    rcases hp : p.run c with ⟨b, e⟩ | _ | _ <;> rw [hp] at h
    · cases h
      exact ihp hp
    · exact ihq h
    · cases h
  | many p ih =>
    rw [run] at h
    exact Outcome.leadsTo_of_loop ih h
  | optional p ih =>
    rw [run] at h
    rcases hp : p.run c with ⟨b, e⟩ | _ | _ <;> rw [hp] at h <;> cases h
    · exact ih hp
    · exact .refl _

end Parser

end Taskbook
