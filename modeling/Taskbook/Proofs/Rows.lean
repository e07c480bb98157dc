/-
Rows of steps that may fail. A row succeeds if every step does, with the results in their order; otherwise it
fails as the first of its steps that fails. Two rows whose steps agree one by one agree. The first result of
a row does not depend on its order if all results are the same.
-/
import Mathlib.Data.List.Forall2

namespace Taskbook.Rows

variable {α β ε : Type} {f : α → Except ε β}

theorem mapM_cons_ok {a : α} {b : β} (h : f a = .ok b) (as : List α) :
    (a :: as).mapM f = (as.mapM f).map (b :: ·) := by
  rw [List.mapM_cons, h]
  cases as.mapM f <;> rfl

theorem mapM_cons_error {a : α} {e : ε} (h : f a = .error e) (as : List α) : (a :: as).mapM f = .error e := by
  rw [List.mapM_cons, h]
  rfl

theorem mapM_eq_ok_iff : ∀ {as : List α} {bs : List β},
    as.mapM f = .ok bs ↔ List.Forall₂ (fun a b => f a = .ok b) as bs
  | [], bs => by
    rw [List.mapM_nil, List.forall₂_nil_left_iff]
    constructor
    · rintro ⟨⟩; rfl
    · rintro rfl; rfl
  | a :: as, bs => by
    rw [List.forall₂_cons_left_iff]
    simp only [← mapM_eq_ok_iff]
    rcases ha : f a with e | b
    · simp [mapM_cons_error ha]
    · rw [mapM_cons_ok ha]
      rcases as.mapM f with e | bs'
      · simp [Except.map]
      · simp [Except.map, eq_comm]

theorem exists_mapM_eq_ok_iff {as : List α} : (∃ bs, as.mapM f = .ok bs) ↔ ∀ a ∈ as, ∃ b, f a = .ok b := by
  induction as with
  | nil => exact ⟨fun _ a ha => absurd ha List.not_mem_nil, fun _ => ⟨[], rfl⟩⟩
  | cons a as ih =>
    rw [List.forall_mem_cons, ← ih]
    rcases ha : f a with e | b
    · simp [mapM_cons_error ha]
    · rw [mapM_cons_ok ha]
      cases as.mapM f <;> simp [Except.map]

/-- The steps before the one that fails have all succeeded. -/
theorem mapM_eq_error {as : List α} {e : ε} (h : as.mapM f = .error e) :
    ∃ before a after bs, as = before ++ a :: after ∧ before.mapM f = .ok bs ∧ f a = .error e := by
  induction as with
  | nil => cases h
  | cons a as ih =>
    rcases ha : f a with e' | b
    · rw [mapM_cons_error ha] at h
      cases h
      exact ⟨[], a, as, [], rfl, rfl, ha⟩
    · rw [mapM_cons_ok ha] at h
      rcases has : as.mapM f with e' | bs <;> rw [has] at h <;> cases h
      obtain ⟨before, a', after, bs, rfl, hbs, ha'⟩ := ih has
      exact ⟨a :: before, a', after, b :: bs, rfl, by rw [mapM_cons_ok ha, hbs]; rfl, ha'⟩

/-- Rows whose steps agree at every place agree. -/
theorem mapM_congr {as as' : List α} (h : List.Forall₂ (fun a a' => f a = f a') as as') : as.mapM f = as'.mapM f := by
  induction h with
  | nil => rfl
  | cons ha _ ih => rw [List.mapM_cons, List.mapM_cons, ha, ih]

/-- The two results are related values or related failures. -/
inductive Related {α α' ε ε' : Type} (R : ε → ε' → Prop) (S : α → α' → Prop) : Except ε α → Except ε' α' → Prop
  | ok {a : α} {a' : α'} (h : S a a') : Related R S (.ok a) (.ok a')
  | error {e : ε} {e' : ε'} (h : R e e') : Related R S (.error e) (.error e')

section Related

variable {α' β' ε' : Type} {R : ε → ε' → Prop}

theorem Related.map {γ γ' : Type} {S : β → β' → Prop} {T : γ → γ' → Prop} {r : Except ε β} {r' : Except ε' β'}
    (h : Related R S r r') {g : β → γ} {g' : β' → γ'} (hg : ∀ b b', S b b' → T (g b) (g' b')) :
    Related R T (r.map g) (r'.map g') := by
  cases h with
  | ok h => exact .ok (hg _ _ h)
  | error h => exact .error h

/-- Where each step of one row is related to that of another, the rows are. -/
theorem related_mapM {S : β → β' → Prop} {f : α → Except ε β} {f' : α' → Except ε' β'} {as : List α} {as' : List α'}
    (h : List.Forall₂ (fun a a' => Related R S (f a) (f' a')) as as') :
    Related R (List.Forall₂ S) (as.mapM f) (as'.mapM f') := by
  induction h with
  | nil => exact .ok .nil
  | @cons a a' as as' ha _ ih =>
    generalize hr : f a = r, hr' : f' a' = r' at ha
    cases ha with
    | error hR =>
      rw [mapM_cons_error hr, mapM_cons_error hr']
      exact .error hR
    | ok hS =>
      rw [mapM_cons_ok hr, mapM_cons_ok hr']
      exact ih.map fun _ _ hbs => .cons hS hbs

end Related

/-- The two results are the same value or related failures. -/
inductive Agree {α ε ε' : Type} (R : ε → ε' → Prop) : Except ε α → Except ε' α → Prop
  | ok (a : α) : Agree R (.ok a) (.ok a)
  | error {e : ε} {e' : ε'} (h : R e e') : Agree R (.error e) (.error e')

theorem agree_iff_related {ε' : Type} {R : ε → ε' → Prop} {r : Except ε β} {r' : Except ε' β} :
    Agree R r r' ↔ Related R Eq r r' := by
  constructor
  · rintro (b | h)
    · exact .ok rfl
    · exact .error h
  · rintro (h | h)
    · exact h ▸ .ok _
    · exact .error h

theorem Agree.map {γ ε' : Type} {R : ε → ε' → Prop} {r : Except ε β} {r' : Except ε' β} (h : Agree R r r')
    (g : β → γ) : Agree R (r.map g) (r'.map g) :=
  agree_iff_related.2 ((agree_iff_related.1 h).map fun _ _ hb => congrArg g hb)

/-- Where each step of one row agrees with that of another, the rows agree. -/
theorem agree_mapM {ε' : Type} {R : ε → ε' → Prop} {f : α → Except ε β} {f' : α → Except ε' β} {as as' : List α}
    (h : List.Forall₂ (fun a a' => Agree R (f a) (f' a')) as as') : Agree R (as.mapM f) (as'.mapM f') := by
  have hrelated := related_mapM (h.imp fun _ _ ha => agree_iff_related.1 ha)
  rw [List.forall₂_eq_eq_eq] at hrelated
  exact agree_iff_related.2 hrelated

theorem forall₂_imp_of_mem {R S : α → β → Prop} {as : List α} {bs : List β} (h : List.Forall₂ R as bs)
    (himp : ∀ a ∈ as, ∀ b, R a b → S a b) : List.Forall₂ S as bs := by
  induction h with
  | nil => exact .nil
  | cons hab _ ih =>
    obtain ⟨ha, has⟩ := List.forall_mem_cons.1 himp
    exact .cons (ha _ hab) (ih has)

/-- What two relations between the entries at every place come to holds of all entries. -/
theorem forall_of_forall₂ {R S : α → β → Prop} {P : α → Prop} {as : List α} {bs : List β} (hr : List.Forall₂ R as bs)
    (hs : List.Forall₂ S as bs) (h : ∀ a b, R a b → S a b → P a) : ∀ a ∈ as, P a := by
  induction hr with
  | nil => exact nofun
  | @cons a b as bs hab _ ih =>
    cases hs with
    | cons hab' hs => exact List.forall_mem_cons.2 ⟨h a b hab hab', ih hs⟩

theorem exists_mem_of_forall₂ {R : α → β → Prop} {as : List α} {bs : List β} (h : List.Forall₂ R as bs) :
    ∀ a ∈ as, ∃ b ∈ bs, R a b := by
  induction h with
  | nil => exact nofun
  | @cons a b as bs hab _ ih =>
    refine List.forall_mem_cons.2 ⟨⟨b, List.mem_cons_self .., hab⟩, ?_⟩
    intro a' ha'
    obtain ⟨b', hb', hr⟩ := ih a' ha'
    exact ⟨b', List.mem_cons_of_mem _ hb', hr⟩

section first

variable {g : α → Option β} {as as' : List α}

theorem findSome?_eq_some_iff_of_agree
    (h : ∀ a ∈ as, ∀ a' ∈ as, ∀ b b', g a = some b → g a' = some b' → b = b') {b : β} :
    as.findSome? g = some b ↔ ∃ a ∈ as, g a = some b := by
  constructor
  · exact List.exists_of_findSome?_eq_some
  · rintro ⟨a, ha, hb⟩
    rcases hn : as.findSome? g with _ | b'
    · rw [List.findSome?_eq_none_iff] at hn
      rw [hn a ha] at hb; cases hb
    · obtain ⟨a', ha', hb'⟩ := List.exists_of_findSome?_eq_some hn
      rw [h a ha a' ha' b b' hb hb']

theorem findSome?_of_perm (hp : as'.Perm as)
    (h : ∀ a ∈ as, ∀ a' ∈ as, ∀ b b', g a = some b → g a' = some b' → b = b') : as'.findSome? g = as.findSome? g := by
  have h' : ∀ a ∈ as', ∀ a' ∈ as', ∀ b b', g a = some b → g a' = some b' → b = b' :=
    fun a ha a' ha' => h a (hp.mem_iff.1 ha) a' (hp.mem_iff.1 ha')
  ext b
  rw [findSome?_eq_some_iff_of_agree h, findSome?_eq_some_iff_of_agree h']
  simp only [hp.mem_iff]

end first

end Taskbook.Rows
