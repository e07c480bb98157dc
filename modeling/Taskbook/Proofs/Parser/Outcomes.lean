/-
Outcomes of parsers: their laws, and the loop that takes a step again and again. A loop is a stretch of a larger
reading if that reading takes what each of the steps takes (`loop_reading`).
-/
import Taskbook.Parser
import Mathlib.Logic.Basic

namespace Taskbook

namespace Outcome

variable {ε α β γ : Type}

@[simp] theorem map_done (f : α → β) (a : α) (c : Cursor) : (done a c : Outcome ε α).map f = done (f a) c := rfl

@[simp] theorem map_miss (f : α → β) : (miss : Outcome ε α).map f = miss := rfl

@[simp] theorem map_failed (f : α → β) (e : ε) : (failed e : Outcome ε α).map f = failed e := rfl

@[simp] theorem andThen_done (a : α) (c : Cursor) (f : α → Cursor → Outcome ε β) : (done a c).andThen f = f a c := rfl

@[simp] theorem andThen_miss (f : α → Cursor → Outcome ε β) : (miss : Outcome ε α).andThen f = miss := rfl

@[simp] theorem andThen_failed (e : ε) (f : α → Cursor → Outcome ε β) : (failed e).andThen f = failed e := rfl

@[simp] theorem orElse_done (a : α) (c : Cursor) (o : Outcome ε α) : (done a c).orElse o = done a c := rfl

@[simp] theorem orElse_miss (o : Outcome ε α) : (miss : Outcome ε α).orElse o = o := rfl

@[simp] theorem orElse_failed (e : ε) (o : Outcome ε α) : (failed e).orElse o = failed e := rfl

@[simp] theorem map_map (f : α → β) (g : β → γ) (o : Outcome ε α) : (o.map f).map g = o.map (g ∘ f) := by
  cases o <;> rfl

@[simp] theorem map_id' (o : Outcome ε α) : o.map (fun a => a) = o := by cases o <;> rfl

@[simp] theorem map_andThen (f : β → γ) (o : Outcome ε α) (next : α → Cursor → Outcome ε β) :
    (o.andThen next).map f = o.andThen fun a c => (next a c).map f := by
  cases o <;> rfl

@[simp] theorem andThen_map (f : α → β) (o : Outcome ε α) (next : β → Cursor → Outcome ε γ) :
    (o.map f).andThen next = o.andThen fun a c => next (f a) c := by
  cases o <;> rfl

@[simp] theorem andThen_andThen (o : Outcome ε α) (next : α → Cursor → Outcome ε β)
    (next' : β → Cursor → Outcome ε γ) :
    (o.andThen next).andThen next' = o.andThen fun a c => (next a c).andThen next' := by
  cases o <;> rfl

theorem andThen_congr {o : Outcome ε α} {f g : α → Cursor → Outcome ε β}
    (h : ∀ a c, o = done a c → f a c = g a c) : o.andThen f = o.andThen g := by
  cases o with
  | done a c => exact h a c rfl
  | _ => rfl

/-- What is found, or a miss. -/
def ofOption : Option (α × Cursor) → Outcome ε α
  | some (a, c) => done a c
  | none => miss

@[simp] theorem ofOption_none : (ofOption none : Outcome ε α) = miss := rfl

@[simp] theorem ofOption_some (a : α) (c : Cursor) : (ofOption (some (a, c)) : Outcome ε α) = done a c := rfl

/-! ## Loops -/

theorem loop_miss {step : Cursor → Outcome ε α} {c : Cursor} (h : step c = miss) : loop step c = done [] c := by
  rw [loop, h]

theorem loop_failed {step : Cursor → Outcome ε α} {c : Cursor} {e : ε} (h : step c = failed e) :
    loop step c = failed e := by
  rw [loop, h]

theorem loop_done {step : Cursor → Outcome ε α} {c d : Cursor} {a : α} (h : step c = done a d) (hd : d.room < c.room) :
    loop step c = (loop step d).map (a :: ·) := by
  rw [loop, h]; simp [hd]

/-- A step that leaves as much to do as before is the last one. -/
theorem loop_last {step : Cursor → Outcome ε α} {c d : Cursor} {a : α} (h : step c = done a d)
    (hd : ¬ d.room < c.room) :
    loop step c = done [a] d := by
  rw [loop, h]
  exact if_neg hd

/-- What holds of a loop that succeeds: it holds where the step misses, where the step is the last one, and through
each step before. -/
theorem of_loop_eq_done {step : Cursor → Outcome ε α} (P : Cursor → List α → Cursor → Prop) (hmiss : ∀ c, P c [] c)
    (hlast : ∀ c a d, step c = done a d → P c [a] d)
    (hmore : ∀ c a d as e, step c = done a d → P d as e → P c (a :: as) e)
    {c d : Cursor} {as : List α} (h : loop step c = done as d) : P c as d := by
  induction c using loop.induct step generalizing as with
  | case1 c hs =>
    rw [loop_miss hs] at h
    cases h
    exact hmiss _
  | case2 c e hs =>
    rw [loop_failed hs] at h
    cases h
  | case3 c a rest hs hlt ih =>
    rw [loop_done hs hlt] at h
    rcases hl : loop step rest with ⟨as', d'⟩ | _ | e <;> rw [hl] at h <;> cases h
    exact hmore _ _ _ _ _ hs (ih hl)
  | case4 c a rest hs hlt =>
    rw [loop_last hs hlt] at h
    cases h
    exact hlast _ _ _ hs

/-- Every value of a loop is the value of one of its steps. -/
theorem forall_mem_of_loop {step : Cursor → Outcome ε α} {P : α → Prop} (hP : ∀ c a d, step c = done a d → P a)
    {c d : Cursor} {as : List α} (h : loop step c = done as d) : ∀ a ∈ as, P a := by
  refine of_loop_eq_done (fun _ as _ => ∀ a ∈ as, P a) ?_ ?_ ?_ h
  · intro c
    exact List.forall_mem_nil P
  · intro c a d hs
    exact List.forall_mem_singleton.2 (hP c a d hs)
  · intro c a d as e hs ih
    exact List.forall_mem_cons.2 ⟨hP c a d hs, ih⟩

/-- A loop is a stretch of a larger reading `whole`, which never misses, if at each place either the
step misses and `whole` goes on as `rest`, or `whole` takes what the step takes and adds it to what it
reads behind. -/
theorem loop_reading {δ : Type} {step : Cursor → Outcome ε α} {whole rest : Cursor → Outcome ε δ}
    {add : α → δ → δ} (hne : ∀ c, whole c ≠ miss)
    (h : ∀ c, step c = miss ∧ whole c = rest c ∨
      whole c = ((step c).andThen fun a d => (whole d).map (add a)) ∧ ∀ a d, step c = done a d → d.room < c.room)
    (c : Cursor) :
    whole c = (loop step c).andThen fun as d => (rest d).map fun x => as.foldr add x := by
  induction c using loop.induct step with
  | case1 c hs =>
    rcases h c with ⟨-, hw⟩ | ⟨hw, -⟩
    · rw [loop_miss hs, hw]; simp
    · rw [hs] at hw; exact absurd hw (hne c)
  | case2 c e hs =>
    rcases h c with ⟨hm, -⟩ | ⟨hw, -⟩
    · rw [hs] at hm; cases hm
    · rw [loop_failed hs, hw, hs]; rfl
  | case3 c a d hs hlt ih =>
    rcases h c with ⟨hm, -⟩ | ⟨hw, -⟩
    · rw [hs] at hm; cases hm
    · rw [loop_done hs hlt, hw, hs, andThen_done, ih]
      simp [Function.comp_def]
  | case4 c a d hs hlt =>
    -- no step of a stretch goes nowhere
    rcases h c with ⟨hm, -⟩ | ⟨-, hr⟩
    · rw [hs] at hm; cases hm
    · exact absurd (hr a d hs) hlt

end Outcome

end Taskbook
