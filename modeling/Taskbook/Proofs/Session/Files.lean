/-
The tree of files. Writing a file and making directories leave every directory where it is, so a path that
was walked can be walked again; what is written is read back, and it can be written again. Writing changes
one path, the one that is spelled, and making directories leaves every file, also where it fails: it goes as
far down as no place is in the way.
-/
import Taskbook.FileSystem
import Mathlib.Data.Bool.Basic
import Mathlib.Data.List.Basic
import Mathlib.Tactic.SplitIfs

namespace Taskbook.FileSystem

variable {fs fs' : FileSystem} {cwd dir p q : Path} {t : Text}

/-! ## Nodes -/

theorem lookup_cons_of_ne {p q : Path} (h : q ≠ p) (n : Node) (l : List (Path × Node)) :
    ((p, n) :: l).lookup q = l.lookup q := by
  rw [List.lookup_cons, beq_false_of_ne h]

theorem lookup_map_replace (p : Path) (n : Node) (q : Path) (l : List (Path × Node)) :
    (l.map fun e => if e.1 == p then (p, n) else e).lookup q =
      if q = p then (if l.any (fun e => e.1 == p) then some n else none) else l.lookup q := by
  induction l with
  | nil => simp
  | cons e l ih =>
    obtain ⟨r, m⟩ := e
    rw [List.map_cons, List.any_cons]
    by_cases hr : r = p
    · subst hr
      rw [if_pos (beq_self_eq_true r)]
      by_cases hq : q = r
      · rw [if_pos hq, hq, List.lookup_cons_self, beq_self_eq_true]
        rfl
      · rw [lookup_cons_of_ne hq, lookup_cons_of_ne hq, ih, if_neg hq, if_neg hq]
    · rw [beq_false_of_ne hr, if_neg Bool.false_ne_true, Bool.false_or]
      by_cases hq : q = r
      · rw [hq, if_neg hr, List.lookup_cons_self, List.lookup_cons_self]
      · rw [lookup_cons_of_ne hq, lookup_cons_of_ne hq, ih]

/-- A node is put at its path, and nothing else changes. -/
theorem node?_insert {p : Path} (hp : p ≠ []) (n : Node) (q : Path) :
    (fs.insert p n).node? q = if q = p then some n else fs.node? q := by
  unfold insert node?
  by_cases hq : q = []
  · rw [if_pos hq, if_neg (hq ▸ Ne.symm hp), if_pos hq]
  · rw [if_neg hq, if_neg hq]
    split
    · rename_i h
      rw [lookup_map_replace, h, if_pos rfl]
    · rename_i h
      have hnone : fs.entries.lookup p = none := by
        rw [List.lookup_eq_none_iff]
        intro e he
        rw [List.any_eq_true] at h
        exact bne_iff_ne.2 fun hep => h ⟨e, he, by rw [← hep]; exact beq_self_eq_true _⟩
      rw [List.lookup_append]
      by_cases hqp : q = p
      · rw [if_pos hqp, hqp, hnone, List.lookup_cons_self]
        rfl
      · rw [if_neg hqp, lookup_cons_of_ne hqp]
        simp

/-! ## Walking -/

theorem step_of_not_isDots {name : Text} (h : ¬ Path.isDots name = true) (p : Path) :
    Path.step p name = p ++ [name] := by
  unfold Path.isDots at h
  rw [Bool.or_eq_true, beq_iff_eq, beq_iff_eq, not_or] at h
  unfold Path.step
  rw [if_neg h.1, if_neg h.2]

/-- The names can be walked from a place: each that is no dots is short enough, and a directory is where it leads. -/
def Passable (there : Path → Prop) (dir : Path) (names : List Text) : Prop :=
  ∀ before name, before ++ [name] <+: names → Path.isDots name = false →
    Path.isLongName name = false ∧ there ((before ++ [name]).foldl Path.step dir)

theorem passable_cons_iff {there : Path → Prop} {name : Text} {names : List Text} :
    Passable there dir (name :: names) ↔
      (Path.isDots name = false → Path.isLongName name = false ∧ there (Path.step dir name)) ∧
        Passable there (Path.step dir name) names := by
  constructor
  · intro h
    refine ⟨h [] name (List.prefix_append _ _), fun before x hx => ?_⟩
    exact h (name :: before) x (List.cons_prefix_cons.2 ⟨rfl, hx⟩)
  · rintro ⟨hname, hnames⟩ before x hx hdots
    cases before with
    | nil =>
      obtain ⟨rfl, -⟩ := List.cons_prefix_cons.1 hx
      exact hname hdots
    | cons y before =>
      obtain ⟨rfl, hrest⟩ := List.cons_prefix_cons.1 hx
      exact hnames before x hrest hdots

theorem walk_eq_ok_iff {names : List Text} : fs.walk dir names = .ok p ↔
    p = names.foldl Path.step dir ∧ Passable (fun q => fs.node? q = some .directory) dir names := by
  induction names generalizing dir with
  | nil =>
    have hnil : Passable (fun q => fs.node? q = some .directory) dir [] := by
      intro before name h
      simp at h
    rw [walk, and_iff_left hnil, List.foldl_nil, eq_comm, Except.ok.injEq]
  | cons name names ih =>
    rw [walk, passable_cons_iff, List.foldl_cons]
    by_cases hdots : Path.isDots name = true
    · rw [if_pos hdots, ih]
      simp [hdots]
    · rw [if_neg hdots, step_of_not_isDots hdots]
      by_cases hlong : Path.isLongName name = true
      · simp [hdots, hlong]
      · rw [if_neg hlong]
        rcases hnode : fs.node? (dir ++ [name]) with _ | _ | content
        · simp [hdots]
        · simp [hdots, hlong, ih]
        · simp [hdots]

theorem target_eq_entry_iff {name : Text} {slash : Bool} : fs.target cwd t = .ok (.entry p name slash) ↔
    refusal? t = none ∧ (Path.names t).getLast? = some name ∧ Path.isDots name = false ∧
      fs.walk (Path.origin cwd t) (Path.names t).dropLast = .ok p ∧ (t.getLast? == some '/') = slash := by
  unfold target
  rcases refusal? t with _ | fault
  · dsimp only
    rcases (Path.names t).getLast? with _ | last
    · simp
    · rcases fs.walk (Path.origin cwd t) (Path.names t).dropLast with fault | parent
      · simp
      · dsimp only
        by_cases hdots : Path.isDots last = true
        · rw [if_pos hdots]
          refine iff_of_false nofun ?_
          rintro ⟨-, ⟨⟩, hname, -⟩
          cases hdots.symm.trans hname
        · rw [if_neg hdots]
          constructor
          · rintro ⟨⟩
            exact ⟨rfl, rfl, Bool.eq_false_of_not_eq_true hdots, rfl, rfl⟩
          · rintro ⟨-, ⟨⟩, -, ⟨⟩, rfl⟩
            rfl
  · simp

/-! ## Directories stay -/

/-- Every directory of the first tree is one of the second. -/
def Keeps (fs fs' : FileSystem) : Prop := ∀ p, fs.node? p = some .directory → fs'.node? p = some .directory

theorem keeps_insert {p : Path} (hp : p ≠ []) (hd : fs.node? p ≠ some .directory) (n : Node) :
    Keeps fs (fs.insert p n) := by
  intro q hq
  rw [node?_insert hp]
  split
  · rename_i h
    exact absurd (h ▸ hq) hd
  · exact hq

/-- A way through directories can be gone again. -/
theorem walk_of_keeps (hk : Keeps fs fs') {names : List Text} {d : Path} (h : fs.walk dir names = .ok d) :
    fs'.walk dir names = .ok d := by
  obtain ⟨hd, hpassable⟩ := walk_eq_ok_iff.1 h
  refine walk_eq_ok_iff.2 ⟨hd, fun before name hbefore hdots => ?_⟩
  obtain ⟨hlong, hthere⟩ := hpassable before name hbefore hdots
  exact ⟨hlong, hk _ hthere⟩

theorem target_of_keeps (hk : Keeps fs fs') {name : Text} {slash : Bool}
    (h : fs.target cwd t = .ok (.entry p name slash)) : fs'.target cwd t = .ok (.entry p name slash) := by
  obtain ⟨htaken, hlast, hdots, hwalk, hslash⟩ := target_eq_entry_iff.1 h
  exact target_eq_entry_iff.2 ⟨htaken, hlast, hdots, walk_of_keeps hk hwalk, hslash⟩

/-! ## Writing -/

/-- What it takes to write a file, and what becomes of the tree. -/
theorem write_eq_ok_iff {content : Octets} : fs.write cwd t content = .ok fs' ↔
    ∃ parent name, fs.target cwd t = .ok (.entry parent name false) ∧ Path.isLongName name = false ∧
      fs.node? (parent ++ [name]) ≠ some .directory ∧ fs' = fs.insert (parent ++ [name]) (.file content) := by
  unfold write
  rcases fs.target cwd t with fault | _ | ⟨parent, name, slash⟩
  · simp
  · simp
  · dsimp only
    constructor
    · intro h
      split_ifs at h with hslash hlong hd
      cases h
      exact ⟨parent, name, by simp_all, by simpa using hlong, hd, rfl⟩
    · rintro ⟨parent', name', ht, hlong, hd, rfl⟩
      cases ht
      rw [if_neg Bool.false_ne_true, hlong, if_neg Bool.false_ne_true, if_neg hd]

/-- Whether a file can be written does not depend on what is written. -/
theorem write_content {content : Octets} (h : fs.write cwd t content = .ok fs') (content' : Octets) :
    ∃ fs'', fs.write cwd t content' = .ok fs'' := by
  obtain ⟨parent, name, ht, hl, hd, -⟩ := write_eq_ok_iff.1 h
  exact ⟨_, write_eq_ok_iff.2 ⟨parent, name, ht, hl, hd, rfl⟩⟩

/-- What is written is read back, the directories are kept, and the file can be written again. -/
theorem read_write {content : Octets} (h : fs.write cwd t content = .ok fs') :
    fs'.read cwd t = .ok content ∧ Keeps fs fs' ∧ ∃ fs'', fs'.write cwd t content = .ok fs'' := by
  obtain ⟨parent, name, ht, hl, hd, rfl⟩ := write_eq_ok_iff.1 h
  have hne : parent ++ [name] ≠ [] := by simp
  have hk : Keeps fs (fs.insert (parent ++ [name]) (.file content)) := keeps_insert hne hd _
  have hnode : (fs.insert (parent ++ [name]) (.file content)).node? (parent ++ [name]) = some (.file content) := by
    rw [node?_insert hne, if_pos rfl]
  have ht' := target_of_keeps hk ht
  refine ⟨?_, hk, _, write_eq_ok_iff.2 ⟨parent, name, ht', hl, ?_, rfl⟩⟩
  · unfold read
    rw [ht']
    dsimp only
    rw [hnode]
    rfl
  · rw [hnode]
    simp

/-! ## Where a file is written -/

/-- A name that is looked up in a directory is the one that the written path spells. -/
theorem lexical_of_target {parent : Path} {name : Text} {slash : Bool}
    (h : fs.target cwd t = .ok (.entry parent name slash)) : Path.lexical cwd t = parent ++ [name] := by
  obtain ⟨-, hlast, hdots, hwalk, -⟩ := target_eq_entry_iff.1 h
  unfold Path.lexical
  rw [← List.dropLast_append_getLast? _ hlast, List.foldl_append, ← (walk_eq_ok_iff.1 hwalk).1, List.foldl_cons,
    List.foldl_nil, step_of_not_isDots (by rw [hdots]; exact Bool.false_ne_true)]

/-- Writing puts the file at the path that is spelled, and nothing else changes. -/
theorem node?_of_write {content : Octets} (h : fs.write cwd t content = .ok fs') :
    Path.lexical cwd t ≠ [] ∧
      ∀ q, fs'.node? q = if q = Path.lexical cwd t then some (.file content) else fs.node? q := by
  obtain ⟨parent, name, ht, -, -, rfl⟩ := write_eq_ok_iff.1 h
  have hne : parent ++ [name] ≠ [] := by simp
  rw [lexical_of_target ht]
  exact ⟨hne, node?_insert hne _⟩

/-! ## Making directories -/

/-- The second tree is the first one with new directories on a way. -/
def Paved (way : Path) (fs fs' : FileSystem) : Prop :=
  ∀ q, fs'.node? q = fs.node? q ∨ q <+: way ∧ fs.node? q = none ∧ fs'.node? q = some .directory

theorem Paved.refl (way : Path) (fs : FileSystem) : Paved way fs fs := fun _ => .inl rfl

theorem Paved.trans {way : Path} {fs'' : FileSystem} (h : Paved way fs fs') (h' : Paved way fs' fs'') :
    Paved way fs fs'' := by
  intro q
  rcases h' q with heq' | ⟨hq, hnone', hdir⟩
  · rw [heq']
    exact h q
  · rcases h q with heq | ⟨-, -, hdir'⟩
    · exact .inr ⟨hq, heq ▸ hnone', hdir⟩
    · rw [hdir'] at hnone'
      cases hnone'

theorem Paved.keeps {way : Path} (h : Paved way fs fs') : Keeps fs fs' := by
  intro q hq
  rcases h q with heq | ⟨-, -, hdir⟩
  · rw [heq, hq]
  · exact hdir

/-- New directories are no files, and they are not put in the place of a file. -/
theorem Paved.file_iff {way : Path} (h : Paved way fs fs') (q : Path) (content : Octets) :
    fs'.node? q = some (.file content) ↔ fs.node? q = some (.file content) := by
  rcases h q with heq | ⟨-, hnone, hdir⟩
  · rw [heq]
  · rw [hnone, hdir]
    simp

theorem paved_insert {p way : Path} (hp : p ≠ []) (hway : p <+: way) (hnone : fs.node? p = none) :
    Paved way fs (fs.insert p .directory) := by
  intro q
  rw [node?_insert hp]
  split
  · rename_i hq
    rw [hq]
    exact .inr ⟨hway, hnone, rfl⟩
  · exact .inl rfl

/-- Whether it comes to its end or not, making directories adds directories on the way and nothing else. -/
theorem paved_makeDirectories (fs : FileSystem) (dir : Path) (names : List Text) :
    Paved (dir ++ names) fs (fs.makeDirectories dir names).1 := by
  induction names generalizing fs dir with
  | nil => exact .refl _ fs
  | cons name names ih =>
    rw [List.append_cons]
    unfold makeDirectories
    dsimp only
    split
    · exact ih fs (dir ++ [name])
    · split <;> exact .refl _ fs
    · rename_i hnone
      split
      · exact .refl _ fs
      · exact .refl _ fs
      · exact (paved_insert (by simp) (List.prefix_append _ _) hnone).trans (ih _ (dir ++ [name]))

/-- Nothing is made where all directories are there. -/
theorem makeDirectories_of_directory {names : List Text}
    (h : ∀ p, p <+: names → p ≠ [] → fs.node? (dir ++ p) = some .directory) :
    fs.makeDirectories dir names = (fs, none) := by
  induction names generalizing dir with
  | nil => rfl
  | cons name names ih =>
    unfold makeDirectories
    dsimp only
    rw [h [name] (List.prefix_append _ _) (List.cons_ne_nil _ _)]
    refine ih ?_
    intro p hp hne
    rw [← List.append_cons]
    exact h (name :: p) (List.cons_prefix_cons.2 ⟨rfl, hp⟩) (List.cons_ne_nil _ _)

theorem paved_makeParents (fs : FileSystem) (cwd : Path) (t : Text) :
    Paved (Path.lexical cwd t).dropLast fs (fs.makeParents cwd t).1 :=
  paved_makeDirectories fs [] (Path.lexical cwd t).dropLast

/-! ## How far directories are made -/

/-- No directory is at the path, and none can be made there: a file is in its place, or the path cannot be taken. -/
def Blocks (fs : FileSystem) (p : Path) : Prop :=
  (∃ content, fs.node? p = some (.file content)) ∨
    fs.node? p = none ∧ (refusal? (Path.written p) ≠ none ∨ ∃ name ∈ p.getLast?, Path.isLongName name = true)

/-- Nothing is in the way down to a path. -/
def Clear (fs : FileSystem) (way : Path) : Prop := ∀ p, p <+: way → ¬ fs.Blocks p

theorem not_blocks_of_directory (h : fs.node? p = some .directory) : ¬ fs.Blocks p := by
  rintro (⟨content, hfile⟩ | ⟨hnone, -⟩)
  · cases h.symm.trans hfile
  · cases h.symm.trans hnone

theorem Clear.mono {way : Path} (h : fs.Clear way) (hp : p <+: way) : fs.Clear p := fun q hq => h q (hq.trans hp)

/-- A way through directories is clear as far as they go and one name further, if nothing is in the way there. -/
theorem clear_append {name : Text} (hdir : ∀ p, p <+: dir → fs.node? p = some .directory)
    (h : ¬ fs.Blocks (dir ++ [name])) : fs.Clear (dir ++ [name]) := by
  intro p hp
  rcases List.prefix_concat_iff.1 hp with rfl | hp
  · exact h
  · exact not_blocks_of_directory (hdir p hp)

/-- A block ends the making of directories. -/
theorem makeDirectories_of_blocks {name : Text} (h : fs.Blocks (dir ++ [name])) (names : List Text) :
    ∃ f, fs.makeDirectories dir (name :: names) = (fs, some f) := by
  unfold makeDirectories
  dsimp only
  rcases h with ⟨content, hfile⟩ | ⟨hnone, hrefused⟩
  · rw [hfile]
    cases names <;> exact ⟨_, rfl⟩
  · rw [hnone]
    dsimp only
    split
    · exact ⟨_, rfl⟩
    · exact ⟨_, rfl⟩
    · rename_i hnot hshort
      simp [hnot, hshort] at hrefused

/-- Where nothing is in the way a directory is there, and it goes on from it. -/
theorem makeDirectories_of_not_blocks {name : Text} (h : ¬ fs.Blocks (dir ++ [name])) (names : List Text) :
    ∃ fs₁ : FileSystem, fs.makeDirectories dir (name :: names) = fs₁.makeDirectories (dir ++ [name]) names ∧
      ∀ q, fs₁.node? q = if q = dir ++ [name] then some .directory else fs.node? q := by
  rw [makeDirectories.eq_def]
  dsimp only
  unfold Blocks at h
  split
  · rename_i hd
    refine ⟨fs, rfl, ?_⟩
    intro q
    split
    · rename_i hq
      rw [hq, hd]
    · rfl
  · rename_i content hfile
    exact absurd (.inl ⟨content, hfile⟩) h
  · rename_i hnone
    split
    · rename_i fault hfault
      exact absurd (.inr ⟨hnone, .inl (by rw [hfault]; exact Option.some_ne_none fault)⟩) h
    · rename_i hlong
      exact absurd (.inr ⟨hnone, .inr ⟨name, by simp, hlong⟩⟩) h
    · exact ⟨_, rfl, node?_insert (by simp) _⟩

/-- A directory that is put where nothing blocked blocks nothing. -/
theorem blocks_iff_of_node? (h : ¬ fs.Blocks p)
    (hnode : ∀ q, fs'.node? q = if q = p then some .directory else fs.node? q) : fs'.Blocks q ↔ fs.Blocks q := by
  by_cases hq : q = p
  · subst hq
    exact iff_of_false (not_blocks_of_directory (by rw [hnode, if_pos rfl])) h
  · unfold Blocks
    rw [hnode, if_neg hq]

/-- Directories are made down to the first block, and all of them if there is none. -/
theorem makeDirectories_iff {names : List Text} (hdir : ∀ p, p <+: dir → fs.node? p = some .directory) :
    ((fs.makeDirectories dir names).2 = none ↔ fs.Clear (dir ++ names)) ∧
      ∀ q, (fs.makeDirectories dir names).1.node? q = some .directory ↔
        fs.node? q = some .directory ∨ q <+: dir ++ names ∧ fs.Clear q := by
  induction names generalizing fs dir with
  | nil =>
    rw [List.append_nil]
    refine ⟨iff_of_true rfl fun p hp => not_blocks_of_directory (hdir p hp), fun q => ?_⟩
    exact (or_iff_left_of_imp fun h => hdir q h.1).symm
  | cons name names ih =>
    rw [List.append_cons]
    have hnext : dir ++ [name] <+: dir ++ [name] ++ names := List.prefix_append _ _
    by_cases hblocks : fs.Blocks (dir ++ [name])
    · obtain ⟨f, hmade⟩ := makeDirectories_of_blocks hblocks names
      rw [hmade]
      refine ⟨iff_of_false (Option.some_ne_none f) fun h => h _ hnext hblocks, fun q => ?_⟩
      refine (or_iff_left_of_imp ?_).symm
      rintro ⟨hq, hclear⟩
      rcases List.prefix_or_prefix_of_prefix hq hnext with hq | hq
      · rcases List.prefix_concat_iff.1 hq with rfl | hq
        · exact absurd hblocks (hclear _ (List.prefix_refl _))
        · exact hdir q hq
      · exact absurd hblocks (hclear _ hq)
    · obtain ⟨fs₁, hmade, hnode⟩ := makeDirectories_of_not_blocks hblocks names
      have hclear : ∀ p, fs₁.Clear p ↔ fs.Clear p :=
        fun p => forall₂_congr fun q _ => not_congr (blocks_iff_of_node? hblocks hnode)
      have hdir₁ : ∀ p, p <+: dir ++ [name] → fs₁.node? p = some .directory := by
        intro p hp
        rw [hnode]
        split
        · rfl
        · rename_i hne
          exact hdir p ((List.prefix_concat_iff.1 hp).resolve_left hne)
      obtain ⟨hall, heach⟩ := ih hdir₁
      rw [hmade, hall, hclear]
      refine ⟨Iff.rfl, fun q => ?_⟩
      rw [heach, hclear, hnode]
      split
      · rename_i hq
        rw [hq]
        exact iff_of_true (.inl rfl) (.inr ⟨hnext, clear_append hdir hblocks⟩)
      · rfl

theorem makeParents_iff (fs : FileSystem) (cwd : Path) (t : Text) :
    ((fs.makeParents cwd t).2 = none ↔ fs.Clear (Path.lexical cwd t).dropLast) ∧
      ∀ q, (fs.makeParents cwd t).1.node? q = some .directory ↔
        fs.node? q = some .directory ∨ q <+: (Path.lexical cwd t).dropLast ∧ fs.Clear q :=
  makeDirectories_iff fun p hp => by rw [List.prefix_nil.1 hp]; rfl

/-- Directories that were made are there. -/
theorem directory_of_makeParents (h : fs.makeParents cwd t = (fs', none)) (hq : q <+: (Path.lexical cwd t).dropLast) :
    fs'.node? q = some .directory := by
  obtain ⟨hall, heach⟩ := makeParents_iff fs cwd t
  rw [h] at hall heach
  exact (heach q).2 (.inr ⟨hq, (hall.1 rfl).mono hq⟩)

/-- Directories that are made are kept, and need not be made again, whatever is written beside them. -/
theorem makeParents_spec (h : fs.makeParents cwd t = (fs', none)) :
    Keeps fs fs' ∧ ∀ fs'', Keeps fs' fs'' → fs''.makeParents cwd t = (fs'', none) := by
  constructor
  · have hpaved := paved_makeParents fs cwd t
    rw [h] at hpaved
    exact hpaved.keeps
  · intro fs'' hk
    exact makeDirectories_of_directory fun p hp _ => hk _ (directory_of_makeParents h hp)

/-! ## A file and the directories above it -/

/-- The second tree is the first one with this file at a path and the directories that it needs. -/
structure Written (p : Path) (content : Octets) (fs fs' : FileSystem) : Prop where
  file : fs'.node? p = some (.file content)
  above : ∀ q, q <+: p.dropLast → fs'.node? q = some .directory
  elsewhere : ∀ q, q ≠ p → fs'.node? q = fs.node? q ∨ q <+: p.dropLast ∧ fs.node? q = none

theorem written_of_write {made : FileSystem} {content : Octets} (hm : fs.makeParents cwd t = (made, none))
    (hw : made.write cwd t content = .ok fs') : Written (Path.lexical cwd t) content fs fs' := by
  obtain ⟨hne, hnode⟩ := node?_of_write hw
  have hpaved := paved_makeParents fs cwd t
  rw [hm] at hpaved
  refine ⟨?_, ?_, ?_⟩
  · rw [hnode, if_pos rfl]
  · intro q hq
    -- a place above the file is another one than the file
    have hq' : q ≠ Path.lexical cwd t := by
      rintro rfl
      have hle := hq.length_le
      have hpos := List.length_pos_iff.2 hne
      rw [List.length_dropLast] at hle
      omega
    rw [hnode, if_neg hq']
    exact directory_of_makeParents hm hq
  · intro q hq
    rw [hnode, if_neg hq]
    rcases hpaved q with heq | ⟨hway, hnone, -⟩
    · exact .inl heq
    · exact .inr ⟨hway, hnone⟩

end Taskbook.FileSystem
