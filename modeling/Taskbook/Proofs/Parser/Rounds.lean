/-
Parsers that advance. If each success of a parser is further on in the text, a loop over it makes rounds until the
parser misses or fails: no round ends where it began, and the loop stops at no place where the parser would match. A
parser advances if one of its parts does, as no part goes back; and one whose last part never misses misses only where
the parts before it do.
-/
import Taskbook.Proofs.Parser.Progress

namespace Taskbook

open Outcome

namespace Cursor.LeadsTo

variable {c d e : Cursor}

/-- Beyond the end of a text no place is further on. -/
theorem within_of_lt (h : c.LeadsTo d) (hlt : c.offset < d.offset) : c.offset ≤ c.text.length := by
  by_contra hc
  have hbeyond := h.beyond (not_le.1 hc)
  omega

theorem lt_of_lt_of_leadsTo (h : c.LeadsTo d) (hlt : c.offset < d.offset) (h' : d.LeadsTo e) : c.offset < e.offset := by
  have hd := (h.within (h.within_of_lt hlt)).2
  rw [← h.text] at hd
  exact hlt.trans_le (h'.within hd).1

theorem lt_of_leadsTo_of_lt (h : c.LeadsTo d) (h' : d.LeadsTo e) (hlt : d.offset < e.offset) : c.offset < e.offset := by
  have hd := h'.within_of_lt hlt
  have he := (h'.within hd).2
  rw [h.text] at hd he
  by_cases hc : c.offset ≤ c.text.length
  · exact (h.within hc).1.trans_lt hlt
  · have hbeyond := h.beyond (not_le.1 hc)
    omega

end Cursor.LeadsTo

namespace Parser

variable {ε α β : Type}

/-! ## Rounds -/

/-- Every success of the parser is further on in the text. -/
def Advances (p : Parser ε α) : Prop := ∀ ⦃c d : Cursor⦄ ⦃a : α⦄, p.run c = .done a d → c.offset < d.offset

/-- Successes of the parser one behind the other, each of them further on in the text. -/
inductive Rounds (p : Parser ε α) : Cursor → List α → Cursor → Prop
  | none (c : Cursor) : Rounds p c [] c
  | more {c d e : Cursor} {a : α} {as : List α} (h : p.run c = .done a d) (hlt : c.offset < d.offset)
    (hmore : Rounds p d as e) : Rounds p c (a :: as) e

/-- A loop over the parser makes rounds that are each further on, up to a place where the parser misses, or fails. -/
structure Greedy (p : Parser ε α) : Prop where
  advances : p.Advances
  done : ∀ c as d, (many p).run c = .done as d ↔ p.Rounds c as d ∧ p.run d = .miss
  failed : ∀ c e, (many p).run c = .failed e ↔ ∃ as d, p.Rounds c as d ∧ p.run d = .failed e

variable {p : Parser ε α} {c d : Cursor}

theorem room_lt_of_run {a : α} (h : p.run c = .done a d) (hlt : c.offset < d.offset) : d.room < c.room :=
  (leadsTo_of_run h).room_lt_iff.2 hlt.ne'

/-- A loop is as far as its rounds have come, and goes on from there. -/
theorem run_many_of_rounds {as : List α} (h : p.Rounds c as d) :
    (many p).run c = ((many p).run d).map (as ++ ·) := by
  rw [run, run]
  induction h with
  | none c => exact (map_id' _).symm
  | @more c d e a as h hlt _ ih =>
    rw [loop_done h (room_lt_of_run h hlt), ih, map_map]
    rfl

theorem Rounds.run_many_of_miss {as : List α} (h : p.Rounds c as d) (hmiss : p.run d = .miss) :
    (many p).run c = .done as d := by
  rw [run_many_of_rounds h, run, loop_miss hmiss, map_done, List.append_nil]

theorem Rounds.run_many_of_failed {as : List α} {e : ε} (h : p.Rounds c as d) (hfailed : p.run d = .failed e) :
    (many p).run c = .failed e := by
  rw [run_many_of_rounds h, run, loop_failed hfailed, map_failed]

/-- A parser that advances comes to a place where it does not succeed. -/
theorem Advances.exists_rounds (hp : p.Advances) (c : Cursor) :
    ∃ as d, p.Rounds c as d ∧ (p.run d = .miss ∨ ∃ e, p.run d = .failed e) := by
  induction c using Outcome.loop.induct p.run with
  | case1 c hs => exact ⟨[], c, .none c, .inl hs⟩
  | case2 c e hs => exact ⟨[], c, .none c, .inr ⟨e, hs⟩⟩
  | case3 c a d hs _ ih =>
    obtain ⟨as, e, hrounds, hend⟩ := ih
    exact ⟨a :: as, e, .more hs (hp hs) hrounds, hend⟩
  | case4 c a d hs hlt => exact absurd (room_lt_of_run hs (hp hs)) hlt

theorem Advances.greedy (hp : p.Advances) : p.Greedy where
  advances := hp
  done c as d := by
    constructor
    · intro h
      obtain ⟨as', d', hrounds, hmiss | ⟨e, hfailed⟩⟩ := hp.exists_rounds c
      · cases h.symm.trans (hrounds.run_many_of_miss hmiss)
        exact ⟨hrounds, hmiss⟩
      · cases h.symm.trans (hrounds.run_many_of_failed hfailed)
    · rintro ⟨hrounds, hmiss⟩
      exact hrounds.run_many_of_miss hmiss
  failed c e := by
    constructor
    · intro h
      obtain ⟨as, d, hrounds, hmiss | ⟨e', hfailed⟩⟩ := hp.exists_rounds c
      · cases h.symm.trans (hrounds.run_many_of_miss hmiss)
      · cases h.symm.trans (hrounds.run_many_of_failed hfailed)
        exact ⟨as, d, hrounds, hfailed⟩
    · rintro ⟨as, d, hrounds, hfailed⟩
      exact hrounds.run_many_of_failed hfailed

/-! ## Parsers that advance -/

theorem advances_satisfy (accepts : Char → Bool) : (satisfy accepts : Parser ε Char).Advances := by
  intro c d x h
  rw [run] at h
  rcases hc : c.ahead with _ | ⟨y, r⟩ <;> rw [hc] at h
  · cases h
  · dsimp only at h
    split at h <;> cases h
    have h0 := Cursor.excess_of_ahead_cons hc
    unfold Cursor.offset Cursor.past
    simp only [List.reverse_singleton, List.singleton_append, List.length_cons]
    omega

theorem exists_of_run_bind {next : α → Parser ε β} {b : β} (h : (bind p next).run c = .done b d) :
    ∃ a e, p.run c = .done a e ∧ (next a).run e = .done b d := by
  rw [run] at h
  rcases hp : p.run c with ⟨a, e⟩ | _ | _ <;> rw [hp] at h
  · exact ⟨a, e, rfl, h⟩
  · cases h
  · cases h

theorem Advances.bind (hp : p.Advances) (next : α → Parser ε β) : (bind p next).Advances := by
  intro c d b h
  obtain ⟨a, e, ha, hb⟩ := exists_of_run_bind h
  exact (leadsTo_of_run ha).lt_of_lt_of_leadsTo (hp ha) (leadsTo_of_run hb)

theorem advances_of_next {next : α → Parser ε β} (h : ∀ a, (next a).Advances) : (bind p next).Advances := by
  intro c d b hb
  obtain ⟨a, e, ha, hb⟩ := exists_of_run_bind hb
  exact (leadsTo_of_run ha).lt_of_leadsTo_of_lt (leadsTo_of_run hb) (h a hb)

/-- Every loop within the parser is over one that advances. -/
def Productive : {α : Type} → Parser ε α → Prop
  | _, .bind p next => p.Productive ∧ ∀ a, (next a).Productive
  | _, .orElse p q => p.Productive ∧ q.Productive
  | _, .many p => p.Productive ∧ p.Advances
  | _, .optional p => p.Productive
  | _, _ => True

theorem Productive.bind {next : α → Parser ε β} (hp : p.Productive) (h : ∀ a, (next a).Productive) :
    (bind p next).Productive := ⟨hp, h⟩

theorem Productive.map (hp : p.Productive) (f : α → β) : (map f p).Productive := hp.bind fun _ => trivial

theorem Productive.andThen {q : Parser ε β} (hp : p.Productive) (hq : q.Productive) : (andThen p q).Productive :=
  hp.bind fun _ => hq

theorem Productive.many (hp : p.Productive) (h : p.Advances) : (many p).Productive := ⟨hp, h⟩

theorem Productive.many1 (hp : p.Productive) (h : p.Advances) : (many1 p).Productive :=
  hp.bind fun _ => (hp.many h).map _

theorem productive_skipBlanks : (skipBlanks : Parser ε Text).Productive :=
  Productive.many trivial (advances_satisfy Text.isBlank)

/-! ## Parsers that never miss -/

/-- The parser succeeds or fails. -/
def NeverMisses (p : Parser ε α) : Prop := ∀ c, p.run c ≠ .miss

theorem neverMisses_many (p : Parser ε α) : (many p).NeverMisses := by
  intro c
  rw [run]
  induction c using Outcome.loop.induct p.run with
  | case1 c hs => rw [loop_miss hs]; rintro ⟨⟩
  | case2 c e hs => rw [loop_failed hs]; rintro ⟨⟩
  | case3 c a d hs hlt ih =>
    rw [loop_done hs hlt]
    cases hl : loop p.run d with
    | miss => exact absurd hl ih
    | _ => rintro ⟨⟩
  | case4 c a d hs hlt => rw [loop_last hs hlt]; rintro ⟨⟩

theorem neverMisses_optional (p : Parser ε α) : (optional p).NeverMisses := by
  intro c
  rw [run]
  cases p.run c <;> rintro ⟨⟩

theorem run_bind_eq_miss_iff {next : α → Parser ε β} (h : ∀ a, (next a).NeverMisses) :
    (bind p next).run c = .miss ↔ p.run c = .miss := by
  rw [run]
  rcases p.run c with ⟨a, d⟩ | _ | _
  · exact iff_of_false (h a d) (by rintro ⟨⟩)
  · exact iff_of_true rfl rfl
  · exact iff_of_false (by rintro ⟨⟩) (by rintro ⟨⟩)

theorem NeverMisses.bind {next : α → Parser ε β} (hp : p.NeverMisses) (h : ∀ a, (next a).NeverMisses) :
    (bind p next).NeverMisses := fun c hc => hp c ((run_bind_eq_miss_iff h).1 hc)

theorem NeverMisses.map (hp : p.NeverMisses) (f : α → β) : (map f p).NeverMisses :=
  hp.bind fun _ _ => by rintro ⟨⟩

end Parser

end Taskbook
