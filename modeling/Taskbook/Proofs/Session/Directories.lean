/-
Directories that are left behind. The directories for a file are made on the way that its path spells once the dots are
taken out, while the file is opened under the path as it is written. Where the two do not agree, or where the way is
blocked further on, the directories made before are left without the file.
-/
import Taskbook.Proofs.Session.AllOrNothing
import Mathlib.Data.List.Induction
import Mathlib.Data.List.Infix

namespace Taskbook

namespace FileSystem

variable {fs fs' : FileSystem} {cwd dir p q : Path} {t : Text}

/-! ## Opening a file -/

/-- A file can be opened for writing under a written path, `there` being where directories are. -/
structure Opens (there : Path → Prop) (cwd : Path) (t : Text) : Prop where
  taken : refusal? t = none
  named : ∃ name ∈ (Path.names t).getLast?, Path.isDots name = false ∧ Path.isLongName name = false
  bare : t.getLast? ≠ some '/'
  passable : Passable there (Path.origin cwd t) (Path.names t).dropLast
  free : ¬ there (Path.lexical cwd t)

theorem exists_write_iff {content : Octets} :
    (∃ fs', fs.write cwd t content = .ok fs') ↔ Opens (fun p => fs.node? p = some .directory) cwd t := by
  constructor
  · rintro ⟨fs', h⟩
    obtain ⟨parent, name, htarget, hlong, hfree, -⟩ := write_eq_ok_iff.1 h
    obtain ⟨htaken, hlast, hdots, hwalk, hbare⟩ := target_eq_entry_iff.1 htarget
    refine ⟨htaken, ⟨name, hlast, hdots, hlong⟩, by simpa using hbare, (walk_eq_ok_iff.1 hwalk).2, ?_⟩
    rwa [lexical_of_target htarget]
  · rintro ⟨htaken, ⟨name, hlast, hdots, hlong⟩, hbare, hpassable, hfree⟩
    have hwalk := walk_eq_ok_iff.2 ⟨rfl, hpassable⟩
    have htarget := target_eq_entry_iff.2 ⟨htaken, hlast, hdots, hwalk, beq_false_of_ne hbare⟩
    rw [lexical_of_target htarget] at hfree
    exact ⟨_, write_eq_ok_iff.2 ⟨_, name, htarget, hlong, hfree, rfl⟩⟩

theorem Opens.congr {there there' : Path → Prop} (h : ∀ p, there p ↔ there' p) :
    Opens there cwd t ↔ Opens there' cwd t := by
  rw [funext fun p => propext (h p)]

/-- A file can be written with the directories on its way: nothing is in the way, and the file can be opened once all
directories are there. -/
structure Receives (fs : FileSystem) (cwd : Path) (t : Text) : Prop where
  clear : fs.Clear (Path.lexical cwd t).dropLast
  opens : Opens (fun p => fs.node? p = some .directory ∨ p <+: (Path.lexical cwd t).dropLast) cwd t

theorem exists_makeParents_write_iff {content : Octets} :
    (∃ made, fs.makeParents cwd t = (made, none) ∧ ∃ fs', made.write cwd t content = .ok fs') ↔
      fs.Receives cwd t := by
  obtain ⟨hall, heach⟩ := makeParents_iff fs cwd t
  rcases hmade : fs.makeParents cwd t with ⟨made, failure⟩
  rw [hmade] at hall heach
  have hopens : fs.Clear (Path.lexical cwd t).dropLast → (Opens (fun p => made.node? p = some .directory) cwd t ↔
      Opens (fun p => fs.node? p = some .directory ∨ p <+: (Path.lexical cwd t).dropLast) cwd t) := by
    intro hclear
    refine Opens.congr fun p => ?_
    rw [heach, and_iff_left_of_imp hclear.mono]
  constructor
  · rintro ⟨_, ⟨⟩, hwrite⟩
    have hclear := hall.1 rfl
    exact ⟨hclear, (hopens hclear).1 (exists_write_iff.1 hwrite)⟩
  · rintro ⟨hclear, hopen⟩
    exact ⟨made, by rw [← hall.2 hclear], exists_write_iff.2 ((hopens hclear).2 hopen)⟩

/-! ## Plain paths -/

/-- Whatever is in the tree is in a directory. -/
def Rooted (fs : FileSystem) : Prop := ∀ p name, fs.node? (p ++ [name]) ≠ none → fs.node? p = some .directory

theorem Rooted.directory_of_prefix (h : fs.Rooted) (hp : fs.node? p ≠ none) (hq : q <+: p) (hne : q ≠ p) :
    fs.node? q = some .directory := by
  obtain ⟨names, rfl⟩ := hq
  induction names using List.reverseRecOn with
  | nil => exact absurd (List.append_nil q).symm hne
  | append_singleton names name ih =>
    rw [← List.append_assoc] at hp
    have habove := h (q ++ names) name hp
    by_cases hnames : names = []
    · rwa [hnames, List.append_nil] at habove
    · exact ih (by rw [habove]; nofun) (by simpa using hnames)

/-- A path without dots and without a slash behind it, in which nothing is too long. -/
structure Plain (cwd : Path) (t : Text) : Prop where
  taken : refusal? t = none
  bare : t.getLast? ≠ some '/'
  dotless : ∀ name ∈ Path.names t, Path.isDots name = false
  short : ∀ name ∈ Path.lexical cwd t, Path.isLongName name = false
  way : ∀ p, p <+: Path.lexical cwd t → p ≠ [] → refusal? (Path.written p) = none

theorem foldl_step_of_dotless {names : List Text} (h : ∀ name ∈ names, Path.isDots name = false) (dir : Path) :
    names.foldl Path.step dir = dir ++ names := by
  induction names generalizing dir with
  | nil => exact (List.append_nil dir).symm
  | cons name names ih =>
    obtain ⟨hname, hnames⟩ := List.forall_mem_cons.1 h
    rw [List.foldl_cons, step_of_not_isDots (by rw [hname]; exact Bool.false_ne_true), ih hnames, ← List.append_cons]

theorem Plain.lexical_eq (h : Plain cwd t) : Path.lexical cwd t = Path.origin cwd t ++ Path.names t :=
  foldl_step_of_dotless h.dotless _

/-- On a plain way to a missing directory that can be made, everything can be made. -/
theorem Plain.clear (h : Plain cwd t) (hrooted : fs.Rooted) (hq : q <+: (Path.lexical cwd t).dropLast)
    (hnone : fs.node? q = none) (hclear : fs.Clear q) : fs.Clear (Path.lexical cwd t).dropLast := by
  intro p hp hblocks
  rcases List.prefix_or_prefix_of_prefix hp hq with hpq | hqp
  · exact hclear p hpq hblocks
  rcases hblocks with ⟨content, hfile⟩ | ⟨hnode, hrefused⟩
  · -- above a file there are directories only
    have hne : q ≠ p := by
      rintro rfl
      cases hnone.symm.trans hfile
    have hdir := hrooted.directory_of_prefix (by rw [hfile]; nofun) hqp hne
    cases hnone.symm.trans hdir
  · have hlexical := hp.trans (List.dropLast_prefix _)
    rcases hrefused with hrefused | ⟨name, hname, hlong⟩
    · refine hrefused (h.way p hlexical ?_)
      rintro rfl
      cases hnode
    · have hshort := h.short name (hlexical.subset (List.mem_of_getLast? hname))
      cases hlong.symm.trans hshort

/-- A file under a plain path can be opened as soon as the directories are there that were missing. -/
theorem Plain.opens (h : Plain cwd t) (hrooted : fs.Rooted) (hcwd : fs.node? cwd = some .directory)
    (hq : q <+: (Path.lexical cwd t).dropLast) (hnone : fs.node? q = none) :
    Opens (fun p => fs.node? p = some .directory ∨ p <+: (Path.lexical cwd t).dropLast) cwd t := by
  have hlexical := h.lexical_eq
  have hqlexical := hq.trans (List.dropLast_prefix _)
  -- a missing directory is neither above another place that is there nor that place itself
  have hmissing : ∀ p, fs.node? p = some .directory → ¬ q <+: p := by
    intro p hp hqp
    have hdir : fs.node? q = some .directory := by
      by_cases hne : q = p
      · rwa [hne]
      · exact hrooted.directory_of_prefix (by rw [hp]; nofun) hqp hne
    cases hnone.symm.trans hdir
  have horigin : fs.node? (Path.origin cwd t) = some .directory := by
    unfold Path.origin
    split
    · rfl
    · exact hcwd
  have hnames : Path.names t ≠ [] := by
    intro hnil
    rw [hlexical, hnil, List.append_nil] at hqlexical
    exact hmissing _ horigin hqlexical
  have hway : (Path.lexical cwd t).dropLast = Path.origin cwd t ++ (Path.names t).dropLast := by
    rw [hlexical, List.dropLast_append_of_ne_nil hnames]
  have hshort : ∀ name ∈ Path.names t, Path.isLongName name = false := by
    intro name hname
    exact h.short name (hlexical ▸ List.mem_append_right _ hname)
  refine ⟨h.taken, ?_, h.bare, ?_, ?_⟩
  · have hlast := List.getLast_mem hnames
    exact ⟨_, List.getLast?_eq_getLast_of_ne_nil hnames, h.dotless _ hlast, hshort _ hlast⟩
  · intro before name hbefore _
    have hsub : ∀ x ∈ before ++ [name], x ∈ Path.names t := fun x hx => List.mem_of_mem_dropLast (hbefore.subset hx)
    refine ⟨hshort name (hsub name (by simp)), .inr ?_⟩
    rw [foldl_step_of_dotless fun x hx => h.dotless x (hsub x hx), hway]
    exact (List.prefix_append_right_inj _).2 hbefore
  · rintro (hdir | hself)
    · exact hmissing _ hdir hqlexical
    · have hlength := hself.length_le
      have hpos := List.length_pos_iff.2 hnames
      rw [List.length_dropLast, hlexical, List.length_append] at hlength
      omega

end FileSystem

namespace Session

open FileSystem

variable {w w' : World} {path : Text} {settings : Settings} {d : Document}

/-- The document has a text under the settings. -/
def HasRendering [Atlas] (d : Document) (settings : Settings) : Prop :=
  ∃ z t, Zone.named? settings.zone = some z ∧ d.render settings.symbols (.of settings.localTimes z) = .ok t

theorem exists_outcome_writeDocument_iff [Atlas] :
    (∃ w', outcome (writeDocument path d settings) w = (.ok (), w')) ↔
      HasRendering d settings ∧ w.files.Receives w.cwd path := by
  constructor
  · rintro ⟨w', h⟩
    obtain ⟨z, t, made, files, hz, ht, hmade, hwrite, -⟩ := outcome_writeDocument.1 h
    exact ⟨⟨z, t, hz, ht⟩, exists_makeParents_write_iff.1 ⟨made, hmade, files, hwrite⟩⟩
  · rintro ⟨⟨z, t, hz, ht⟩, hwritable⟩
    obtain ⟨made, hmade, files, hwrite⟩ : ∃ made, w.files.makeParents w.cwd path = (made, none) ∧
        ∃ files, made.write w.cwd path (Utf8.encode t) = .ok files := exists_makeParents_write_iff.2 hwritable
    exact ⟨_, outcome_writeDocument.2 ⟨z, t, made, files, hz, ht, hmade, hwrite, rfl⟩⟩

/-- The writing of a document fails, and a directory is there that was not there before. -/
def LeavesDirectory [Atlas] (path : Text) (d : Document) (settings : Settings) (w : World) : Prop :=
  ∃ f w' q, outcome (writeDocument path d settings) w = (.error f, w') ∧
    w.files.node? q ≠ some .directory ∧ w'.files.node? q = some .directory

theorem leavesDirectory_iff [Atlas] : LeavesDirectory path d settings w ↔
    HasRendering d settings ∧
      (∃ q, q <+: (Path.lexical w.cwd path).dropLast ∧ w.files.node? q = none ∧ w.files.Clear q) ∧
      ¬ w.files.Receives w.cwd path := by
  have heach := (makeParents_iff w.files w.cwd path).2
  constructor
  · rintro ⟨f, w', q, h, hq, hq'⟩
    rcases files_of_writeDocument_error h with hrender | ⟨⟨t, w₁, hrender⟩, hfiles⟩
    · have hfiles := (leavesFiles_render d settings w).1
      rw [hrender] at hfiles
      rw [hfiles] at hq'
      exact absurd hq' hq
    · obtain ⟨z, hz, ht, -⟩ := outcome_render.1 hrender
      rw [hfiles, heach] at hq'
      obtain ⟨hway, hclear⟩ := hq'.resolve_left hq
      refine ⟨⟨z, t, hz, ht⟩, ⟨q, hway, ?_, hclear⟩, ?_⟩
      · rcases hnode : w.files.node? q with _ | _ | content
        · rfl
        · exact absurd hnode hq
        · exact absurd (.inl ⟨content, hnode⟩) (hclear q (List.prefix_refl q))
      · intro hwritable
        obtain ⟨w'', hok⟩ := exists_outcome_writeDocument_iff.2 ⟨⟨z, t, hz, ht⟩, hwritable⟩
        cases h.symm.trans hok
  · rintro ⟨htext, ⟨q, hway, hnone, hclear⟩, hno⟩
    rcases h : outcome (writeDocument path d settings) w with ⟨f | ⟨⟩, w'⟩
    · refine ⟨f, w', q, h, by rw [hnone]; nofun, ?_⟩
      rcases files_of_writeDocument_error h with hrender | ⟨-, hfiles⟩
      · obtain ⟨z, t, hz, ht⟩ := htext
        cases hrender.symm.trans (outcome_render.2 ⟨z, hz, ht, rfl⟩)
      · rw [hfiles, heach]
        exact .inr ⟨hway, hclear⟩
    · exact absurd (exists_outcome_writeDocument_iff.1 ⟨w', h⟩).2 hno

/-- A document that cannot be written leaves a new directory exactly if it has a text, some directory is missing on the
way that its path spells with nothing in the way down to it, and then something is in the way further on or the file
cannot be opened under the path as it is written, in spite of the directories made. In a tree whose places are all in
directories no plain path comes to this. -/
theorem writeDocument_leaves_directory_iff [Atlas] (path : Text) (d : Document) (settings : Settings) (w : World) :
    (LeavesDirectory path d settings w ↔
      HasRendering d settings ∧
        (∃ q, q <+: (Path.lexical w.cwd path).dropLast ∧ w.files.node? q = none ∧ w.files.Clear q) ∧
        ¬ w.files.Receives w.cwd path) ∧
    (w.files.Rooted → w.files.node? w.cwd = some .directory → Plain w.cwd path →
      ¬ LeavesDirectory path d settings w) := by
  refine ⟨leavesDirectory_iff, fun hrooted hcwd hplain hleaves => ?_⟩
  obtain ⟨-, ⟨q, hq, hnone, hclear⟩, hno⟩ := leavesDirectory_iff.1 hleaves
  exact hno ⟨hplain.clear hrooted hq hnone hclear, hplain.opens hrooted hcwd hq hnone⟩

open scoped Place in
/-- A slash behind the path is taken out before the directories are made, and so are two dots behind a name that is not
there; the file cannot be opened with the one or with the other. -/
theorem writeDocument_leaves_directory_of_slash_and_dots :
    (∃ w', outcome (writeDocument "new/x/".toList [] {}) {} = (.error (.path .isDirectory "new/x/".toList), w') ∧
      ({} : World).files.node? ["new".toList] = none ∧ w'.files.node? ["new".toList] = some .directory) ∧
    ∃ w', outcome (writeDocument "new/sub/../x".toList [] {}) {} =
        (.error (.path .missing "new/sub/../x".toList), w') ∧
      ({} : World).files.node? ["new".toList] = none ∧ w'.files.node? ["new".toList] = some .directory :=
  ⟨⟨_, rfl, rfl, rfl⟩, ⟨_, rfl, rfl, rfl⟩⟩

/-- A tree of one file. -/
private def lone : World := { files := { entries := [(["a".toList], .file (Utf8.encode "## A\r".toList))] } }

private theorem rooted_lone : lone.files.Rooted := by
  intro p name h
  by_cases hp : p ++ [name] = ["a".toList]
  · obtain ⟨rfl, -⟩ | ⟨-, hnil⟩ := List.append_eq_singleton_iff.1 hp
    · rfl
    · cases hnil
  · unfold FileSystem.node? lone at h
    rw [if_neg (by simp), lookup_cons_of_ne hp] at h
    exact absurd rfl h

open scoped Place in
/-- A file is in the way of the directory that is needed: no directory is made. -/
theorem writeDocument_leaves_no_directory_below_file :
    lone.files.Rooted ∧ Plain lone.cwd "a/x/y".toList ∧
      (∃ f w', outcome (writeDocument "a/x/y".toList [] {}) lone = (.error f, w')) ∧
      ¬ LeavesDirectory "a/x/y".toList [] {} lone := by
  have hway : ∀ p ∈ List.inits (Path.lexical lone.cwd "a/x/y".toList), p ≠ [] →
      refusal? (Path.written p) = none := by decide
  have hplain : Plain lone.cwd "a/x/y".toList :=
    ⟨by decide, by decide, by decide, by decide, fun p hp => hway p ((List.mem_inits _ _).2 hp)⟩
  have hleaves := (writeDocument_leaves_directory_iff "a/x/y".toList [] {} lone).2 rooted_lone rfl hplain
  exact ⟨rooted_lone, hplain, ⟨_, _, rfl⟩, hleaves⟩

end Session

end Taskbook
