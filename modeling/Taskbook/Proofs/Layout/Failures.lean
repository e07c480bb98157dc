/-
How the reading of a document can fail. A text that is no document fails where it stops to match, or at
the first due line that holds no date. One more failure gets through: a due on the first day of the
calendar that the system cannot place.
-/
import Mathlib.Logic.Basic
import Taskbook.Proofs.Due.Placing
import Taskbook.Proofs.Layout.Reading
import Taskbook.Proofs.Rows

namespace Taskbook

open Calendar

/-- The failures that say what is wrong with the text of a document. -/
def Failure.isOfText : Failure → Bool
  | unmatched .. | badDue .. => true
  | _ => false

namespace Layout

variable {s : Symbols} {z : Zone} {f : Failure}

/-- The text of an entry, if it is that of a due which is not read as a moment. -/
def Found.unread? (z : Zone) (e : Found) : Option Text :=
  match e.entry with
  | .due text =>
    match Due.read text z with
    | .ok (some _) => none
    | _ => some text
  | _ => none

/-- The first of the due texts that is not read as a moment. -/
def firstUnread? (z : Zone) (fs : List Found) : Option Text := fs.findSome? (Found.unread? z)

/-- Why a due text is not read as a moment: it is no date, or it cannot be placed. -/
def Unread (z : Zone) (text : Text) (f : Failure) : Prop :=
  f.isOfText = true ∧ Due.read text z = .ok none ∨ ∃ g, f = .calendar g ∧ Due.read text z = .error g

/-- Every zone but the system's places all dues, so there the fault is in the text. -/
theorem Unread.isOfText {text : Text} (h : Unread z text f) (hz : z ≠ .system) : f.isOfText = true := by
  rcases h with ⟨h, -⟩ | ⟨g, -, h⟩
  · exact h
  · exact absurd h (Due.read_ne_error hz g)

/-- Only a due can be the reason why an entry is not read. -/
theorem resolve_eq_error {e : Found} (h : resolve s z e = .error f) :
    ∃ text, e.entry = .due text ∧
      (Due.read text z = .ok none ∧ f = .badDue text e.place.1 (e.place.2 + s.due.length + 1 : Nat) ∨
        ∃ g, Due.read text z = .error g ∧ f = .calendar g) := by
  unfold resolve at h
  cases he : e.entry with
  | due text =>
    rw [he] at h
    refine ⟨text, rfl, ?_⟩
    rcases hr : Due.read text z with g | _ | m <;> simp only [hr] at h <;> cases h
    · exact .inr ⟨g, rfl, rfl⟩
    · exact .inl ⟨rfl, rfl⟩
  | _ => rw [he] at h; cases h

theorem read_of_resolve {e : Found} {m : Entry Moment} {text : Text} (h : resolve s z e = .ok m)
    (he : e.entry = .due text) : ∃ m', Due.read text z = .ok (some m') := by
  unfold resolve at h
  rw [he] at h
  rcases hr : Due.read text z with g | _ | m' <;> simp only [hr] at h <;> cases h
  exact ⟨m', rfl⟩

/-- Whether an entry is read, and as what, does not depend on where it stands. -/
theorem resolve_eq_ok_iff {e : Found} {m : Entry Moment} :
    resolve s z e = .ok m ↔ ∀ place, resolve s z ⟨place, e.entry⟩ = .ok m := by
  obtain ⟨place, entry⟩ := e
  refine ⟨?_, fun h => h place⟩
  intro h place'
  cases entry with
  | due text =>
    unfold resolve at h ⊢
    dsimp only at h ⊢
    rcases hr : Due.read text z with fault | _ | m' <;> rw [hr] at h <;> cases h
    rfl
  | _ => exact h

theorem mapM_resolve_eq_ok_iff {fs : List Found} {es : List (Entry Moment)} : fs.mapM (resolve s z) = .ok es ↔
    List.Forall₂ (fun e m => ∀ place, resolve s z ⟨place, e⟩ = .ok m) (fs.map Found.entry) es := by
  rw [Rows.mapM_eq_ok_iff, List.forall₂_map_left_iff]
  simp only [← resolve_eq_ok_iff]

theorem spell_eq_ok {fs : List Found} {x : Draft} (h : spell s z fs = .ok x) :
    ∃ es, fs.mapM (resolve s z) = .ok es ∧ x = assemble es := by
  unfold spell at h
  rcases hm : fs.mapM (resolve s z) with g | es <;> rw [hm] at h <;> cases h
  exact ⟨es, rfl, rfl⟩

/-- Entries are spelled up to the first one that is not read. -/
theorem spell_eq_error {fs : List Found} (h : spell s z fs = .error f) :
    ∃ before e after y, fs = before ++ e :: after ∧ spell s z before = .ok y ∧ resolve s z e = .error f ∧
      ∀ e' ∈ before, ∃ m, resolve s z e' = .ok m := by
  unfold spell at h
  rcases hm : fs.mapM (resolve s z) with g | es <;> rw [hm] at h <;> cases h
  obtain ⟨before, e, after, es, rfl, hes, he⟩ := Rows.mapM_eq_error hm
  refine ⟨before, e, after, assemble es, rfl, ?_, he, Rows.exists_mapM_eq_ok_iff.1 ⟨es, hes⟩⟩
  unfold spell
  rw [hes]
  rfl

theorem unread_of_resolve {e : Found} (h : resolve s z e = .error f) :
    ∃ text, e.unread? z = some text ∧ Unread z text f := by
  obtain ⟨text, he, ⟨hr, rfl⟩ | ⟨g, hr, rfl⟩⟩ := resolve_eq_error h
  · refine ⟨text, ?_, .inl ⟨rfl, hr⟩⟩
    unfold Found.unread?
    simp only [he, hr]
  · refine ⟨text, ?_, .inr ⟨g, rfl, hr⟩⟩
    unfold Found.unread?
    simp only [he, hr]

theorem firstUnread?_of_resolve {fs : List Found} (h : ∀ e ∈ fs, ∃ m, resolve s z e = .ok m) :
    firstUnread? z fs = none := by
  unfold firstUnread?
  rw [List.findSome?_eq_none_iff]
  intro e he
  obtain ⟨m, hm⟩ := h e he
  unfold Found.unread?
  cases hentry : e.entry with
  | due text =>
    obtain ⟨m', hr⟩ := read_of_resolve hm hentry
    simp only [hr]
  | _ => rfl

theorem unread_of_spell {fs : List Found} (h : spell s z fs = .error f) :
    ∃ text, firstUnread? z fs = some text ∧ Unread z text f := by
  obtain ⟨before, e, after, -, rfl, -, he, hbefore⟩ := spell_eq_error h
  obtain ⟨text, ht, hu⟩ := unread_of_resolve he
  refine ⟨text, ?_, hu⟩
  have hnone := firstUnread?_of_resolve hbefore
  unfold firstUnread? at hnone ⊢
  rw [List.findSome?_append, hnone, Option.none_or, List.findSome?_cons, ht]

theorem firstUnread?_of_spell {fs : List Found} {x : Draft} (h : spell s z fs = .ok x) : firstUnread? z fs = none := by
  obtain ⟨es, hes, -⟩ := spell_eq_ok h
  exact firstUnread?_of_resolve (Rows.exists_mapM_eq_ok_iff.1 ⟨es, hes⟩)

/-- Reading a document fails otherwise than by a fault of its text exactly where the system is asked to
place a due of the first day of the calendar, no due before it being unreadable. The same holds of a
due text read alone, and what is read of it is always a moment of a zone. -/
theorem parse_escapes_iff (s : Symbols) (z : Zone) :
    (∀ t f, (Document.parse t s z = .error f ∧ f.isOfText = false) ↔
      f = .calendar (.year 0) ∧ z = .system ∧
        ∃ text, firstUnread? z (scan s [.title] (.start t)).1 = some text ∧ Due.onFirstDay text = true) ∧
    (∀ t g, Due.read t z = .error g ↔ g = .year 0 ∧ z = .system ∧ Due.onFirstDay t = true) ∧
    ∀ t m, Due.read t z = .ok (some m) → m.zone ≠ none := by
  refine ⟨fun t f => ?_, fun _ _ => Due.read_eq_error_iff, fun _ _ => Due.zone_of_read⟩
  rw [parse_eq_scan]
  generalize scan s [.title] (.start t) = r
  rcases hs : spell s z r.1 with g | x
  · obtain ⟨text, ht, hu⟩ := unread_of_spell hs
    simp only [Except.error.injEq, ht, Option.some.injEq, exists_eq_left']
    constructor
    · rintro ⟨rfl, hf⟩
      -- a failure that is not of the text is that of placing the due
      rcases hu with ⟨hg, -⟩ | ⟨y, rfl, hr⟩
      · rw [hf] at hg; cases hg
      · obtain ⟨rfl, hz, hd⟩ := Due.read_eq_error_iff.1 hr
        exact ⟨rfl, hz, hd⟩
    · rintro ⟨rfl, hz, hd⟩
      have hr : Due.read text z = .error (.year 0) := Due.read_eq_error_iff.2 ⟨rfl, hz, hd⟩
      rcases hu with ⟨-, hr'⟩ | ⟨y, rfl, hr'⟩ <;> rw [hr] at hr' <;> cases hr'
      exact ⟨rfl, rfl⟩
  · -- all dues are read, and what can fail then is the end of the text
    rw [firstUnread?_of_spell hs]
    constructor
    · rintro ⟨h, hf⟩
      dsimp only at h
      split at h <;> cases h
      cases hf
    · rintro ⟨-, -, text, ht, -⟩
      cases ht

/-- The first day of the calendar gets through, from a due text alone and from a document. -/
theorem parse_escapes_on_first_day :
    Due.read "0001-01-01".toList .system = .error (.year 0) ∧
      Document.parse "## A\n- t\n    @ 0001-01-01\n".toList {} .system = .error (.calendar (.year 0)) ∧
      (Failure.calendar (.year 0)).isOfText = false := by
  refine ⟨by decide, by decide +kernel, rfl⟩

end Layout

end Taskbook
