/-
Sound documents: no title or name breaks its line, descriptions are made of lines and hold more than white
space, and dues are moments of a zone. Every document that is read is sound, whatever the text and the
symbols.
-/
import Taskbook.Proofs.Document.Entries

namespace Taskbook

open Text Layout

/-! ## Sound documents -/

structure Task.Sound (t : Task) : Prop where
  name : Unbroken t.name
  due : ∀ m ∈ t.due, m.zone ≠ none
  description : t.Described
  subtasks : ∀ st ∈ t.subtasks, Unbroken st.name

structure TaskList.Sound (l : TaskList) : Prop where
  title : Unbroken l.title
  tasks : ∀ t ∈ l.tasks, t.Sound

def Document.Sound (x : Document) : Prop := ∀ l ∈ x, l.Sound

/-- The constructor makes sound tasks, whatever the breaks of the description are. -/
theorem Task.sound_of {name : Text} {due : Option Moment} {description : Option Text} {sts : List Subtask}
    (hn : Unbroken name) (hm : ∀ m ∈ due, m.zone ≠ none) (hd : ∀ d ∈ description, allBlank d = false)
    (hs : ∀ st ∈ sts, Unbroken st.name) : (Task.of name due description sts).Sound where
  name := hn
  due := hm
  description d h := by
    obtain ⟨raw, hraw, rfl⟩ := Option.map_eq_some_iff.1 h
    exact ⟨unifyBreaks_unifyBreaks raw, by rw [allBlank_unifyBreaks]; exact hd raw hraw⟩
  subtasks := hs

/-- A sound task is the one that the constructor makes of its parts. -/
theorem Task.Sound.of_eq {t : Task} (h : t.Sound) : Task.of t.name t.due t.description t.subtasks = t := by
  have hd : t.description.map unifyBreaks = t.description := by
    rcases hdesc : t.description with _ | d
    · rfl
    · rw [Option.map_some, (h.description d hdesc).1]
  unfold Task.of
  rw [hd]

/-! ## Sound entries -/

namespace Layout

variable {δ : Type} {s : Symbols} {z : Zone}

/-- No text of the entry breaks its line, and its due, if it has one, is one of those meant. -/
def Entry.Sound (P : δ → Prop) : Entry δ → Prop
  | title t => Unbroken t
  | task name => Unbroken name
  | due m => P m
  | description l => Unbroken l
  | subtask st => Unbroken st.name

theorem sound_of_read? {k : Kind} {c d : Cursor} {e : Entry Text} (h : k.read? s c = some (e, d)) :
    e.Sound Unbroken := by
  obtain ⟨-, c', -, -, hbody, -⟩ := exists_of_read? h
  have hb : Unbroken e.body := by
    rw [hbody]
    exact unbroken_firstLine c'.ahead
  cases e <;> exact hb

theorem sound_of_mem_scan (ks : List Kind) (c : Cursor) : ∀ f ∈ (scan s ks c).1, f.entry.Sound Unbroken := by
  induction ks, c using scan.induct s with
  | case1 ks c h =>
    rw [scan_none h]
    intro f hf
    cases hf
  | case2 ks c e d h ih =>
    rw [scan_some h]
    intro f hf
    rcases List.mem_cons.1 hf with rfl | hf
    · obtain ⟨k, -, hk⟩ := List.exists_of_findSome?_eq_some h
      exact sound_of_read? hk
    · exact ih f hf

/-- What is read of a due text is a moment of a zone. -/
theorem sound_of_resolve {f : Found} {e : Entry Moment} (hf : f.entry.Sound Unbroken) (h : resolve s z f = .ok e) :
    e.Sound fun m => m.zone ≠ none := by
  unfold resolve at h
  cases hentry : f.entry with
  | due text =>
    rw [hentry] at h
    rcases hr : Due.read text z with g | _ | m <;> simp only [hr] at h <;> cases h
    exact Due.zone_of_read hr
  | _ =>
    rw [hentry] at h hf
    cases h
    exact hf

theorem sound_of_mapM_resolve {fs : List Found} {es : List (Entry Moment)} (hf : ∀ f ∈ fs, f.entry.Sound Unbroken)
    (h : fs.mapM (resolve s z) = .ok es) : ∀ e ∈ es, e.Sound fun m => m.zone ≠ none := by
  intro e he
  obtain ⟨f, hmem, hr⟩ := Rows.exists_mem_of_forall₂ (Rows.mapM_eq_ok_iff.1 h).flip e he
  exact sound_of_resolve (hf f hmem) hr

/-! ## Sound drafts -/

structure Draft.Sound (x : Draft) : Prop where
  subtasks : ∀ st ∈ x.subtasks, Unbroken st.name
  description : ∀ l ∈ x.description, Unbroken l
  due : ∀ m ∈ x.due, m.zone ≠ none
  tasks : ∀ t ∈ x.tasks, t.Sound
  lists : x.lists.Sound

theorem sound_empty : ({} : Draft).Sound where
  subtasks _ h := by cases h
  description _ h := by cases h
  due _ h := by cases h
  tasks _ h := by cases h
  lists _ h := by cases h

theorem described_spec {lines : List Text} (h : ∀ l ∈ lines, Unbroken l) :
    ∀ d ∈ Draft.described lines, unifyBreaks d = d ∧ allBlank d = false := by
  intro d hd
  unfold Draft.described at hd
  split at hd
  · cases hd
  · rename_i hb
    cases hd
    exact ⟨unifyBreaks_joinLines h, by simpa using hb⟩

theorem Draft.Sound.add {x : Draft} {e : Entry Moment} (hx : x.Sound) (he : e.Sound fun m => m.zone ≠ none) :
    (x.add e).Sound := by
  cases e with
  | subtask st => exact { hx with subtasks := List.forall_mem_cons.2 ⟨he, hx.subtasks⟩ }
  | description l => exact { hx with description := List.forall_mem_cons.2 ⟨he, hx.description⟩ }
  | due m =>
    have hm : ∀ m' ∈ some m, m'.zone ≠ none := by
      rintro m' ⟨⟩
      exact he
    exact { hx with due := hm }
  | task name =>
    have ht : Task.Sound ⟨name, x.due, described x.description, x.subtasks⟩ :=
      ⟨he, hx.due, described_spec hx.description, hx.subtasks⟩
    exact { sound_empty with tasks := List.forall_mem_cons.2 ⟨ht, hx.tasks⟩, lists := hx.lists }
  | title t =>
    exact { sound_empty with lists := List.forall_mem_cons.2 ⟨⟨he, hx.tasks⟩, hx.lists⟩ }

theorem sound_assemble {es : List (Entry Moment)} (h : ∀ e ∈ es, e.Sound fun m => m.zone ≠ none) :
    (assemble es).Sound := by
  induction es with
  | nil => exact sound_empty
  | cons e es ih =>
    obtain ⟨he, hes⟩ := List.forall_mem_cons.1 h
    exact (ih hes).add he

end Layout

/-- Every document that is read is sound and holds a list. -/
theorem Document.sound_of_parse {t : Text} {s : Symbols} {z : Zone} {d : Document}
    (h : Document.parse t s z = .ok d) : d.Sound ∧ d ≠ [] := by
  rw [parse_eq_scan] at h
  rcases hs : spell s z (scan s [.title] (.start t)).1 with f | x
  · rw [hs] at h; cases h
  · rw [hs] at h
    dsimp only at h
    split at h <;> cases h
    rename_i hx
    refine ⟨?_, hx.1⟩
    obtain ⟨es, hes, rfl⟩ := spell_eq_ok hs
    exact (sound_assemble (sound_of_mapM_resolve (sound_of_mem_scan _ _) hes)).lists

/-- What holds of every document that is read, whatever the text, the symbols and the zone are. It has a list; titles
and names are unbroken; a description has no carriage return, holds more than white space and is what the constructor of
its task leaves it; and dues are moments of a zone. -/
theorem Document.invariant_of_parse {t : Text} {s : Symbols} {z : Zone} {d : Document}
    (h : Document.parse t s z = .ok d) :
    d ≠ [] ∧ ∀ l ∈ d, ('\r' ∉ l.title ∧ '\n' ∉ l.title) ∧ ∀ a ∈ l.tasks,
      ('\r' ∉ a.name ∧ '\n' ∉ a.name) ∧ (∀ st ∈ a.subtasks, '\r' ∉ st.name ∧ '\n' ∉ st.name) ∧
      (∀ x ∈ a.description, '\r' ∉ x ∧ allBlank x = false) ∧
      Task.of a.name a.due a.description a.subtasks = a ∧ ∀ m ∈ a.due, ∃ own, m.zone = some own := by
  obtain ⟨hsound, hne⟩ := Document.sound_of_parse h
  refine ⟨hne, ?_⟩
  intro l hl
  refine ⟨unbroken_iff.1 (hsound l hl).title, ?_⟩
  intro a ha
  have hs : a.Sound := (hsound l hl).tasks a ha
  refine ⟨unbroken_iff.1 hs.name, fun st hst => unbroken_iff.1 (hs.subtasks st hst), ?_, ?_, ?_⟩
  · intro x hx
    obtain ⟨hunified, hblank⟩ := hs.description x hx
    refine ⟨?_, hblank⟩
    rw [← hunified]
    exact cr_not_mem_unifyBreaks x
  · exact hs.of_eq
  · intro m hm
    exact Option.ne_none_iff_exists'.1 (hs.due m hm)

/-- Symbols of which two are empty. -/
private def blankSymbols : Symbols := { title := [], description := [], due := ['@'], subtask := ['*'] }

/-- Titles and descriptions begin with the same symbol, the empty one, and the breaks are carriage returns. -/
theorem Document.invariant_of_parse_of_blank_symbols : ∃ m,
    Document.parse " A\r- t\r@ 2024-02-29\r u\r \r w\r\n* [x] s\r\n B\n".toList blankSymbols .utc =
      .ok [⟨"A".toList, [⟨"t".toList, some m, some "u\n\nw".toList, [⟨true, "s".toList⟩]⟩]⟩, ⟨"B".toList, []⟩] ∧
    '\r' ∉ "u\n\nw".toList ∧ allBlank "u\n\nw".toList = false ∧
    Task.of "t".toList (some m) (some "u\n\nw".toList) [⟨true, "s".toList⟩] =
      ⟨"t".toList, some m, some "u\n\nw".toList, [⟨true, "s".toList⟩]⟩ ∧ ∃ own, m.zone = some own := by
  have hread : Due.read "2024-02-29".toList .utc =
      .ok (some { wall := ⟨63844761600000000, by decide⟩, zone := some .utc }) := by decide +kernel
  have hscan : (scan blankSymbols [.title]
      (.start " A\r- t\r@ 2024-02-29\r u\r \r w\r\n* [x] s\r\n B\n".toList)).1 =
        [⟨(1, 1), .title "A".toList⟩, ⟨(2, 1), .task "t".toList⟩, ⟨(3, 1), .due "2024-02-29".toList⟩,
          ⟨(4, 1), .description "u".toList⟩, ⟨(5, 1), .description []⟩, ⟨(6, 1), .description "w".toList⟩,
          ⟨(7, 1), .subtask ⟨true, "s".toList⟩⟩, ⟨(8, 1), .title "B".toList⟩] := by decide +kernel
  have hend : allBlank (scan blankSymbols [.title]
      (.start " A\r- t\r@ 2024-02-29\r u\r \r w\r\n* [x] s\r\n B\n".toList)).2.ahead = true := by decide +kernel
  have hspell : spell blankSymbols .utc (scan blankSymbols [.title]
      (.start " A\r- t\r@ 2024-02-29\r u\r \r w\r\n* [x] s\r\n B\n".toList)).1 = .ok { lists :=
        [⟨"A".toList, [⟨"t".toList, some { wall := ⟨63844761600000000, by decide⟩, zone := some .utc },
          some "u\n\nw".toList, [⟨true, "s".toList⟩]⟩]⟩, ⟨"B".toList, []⟩] } := by
    rw [hscan]
    unfold spell
    simp only [List.mapM_cons, resolve, hread]
    rfl
  have h := parse_of_spell hspell (List.cons_ne_nil _ _) hend
  obtain ⟨-, hall⟩ := Document.invariant_of_parse h
  obtain ⟨-, hlist⟩ := hall _ List.mem_cons_self
  obtain ⟨-, -, hdescription, hof, hdue⟩ := hlist _ List.mem_cons_self
  obtain ⟨hcr, hblank⟩ := hdescription _ rfl
  exact ⟨_, h, hcr, hblank, hof, hdue _ rfl⟩

end Taskbook
