/-
A conversion changes all or nothing. A failure, wherever it arises, leaves every file as it was, and before
the text to be written is there it leaves the whole tree; a success changes the target and nothing beside it
but the directories that the target lacked.
-/
import Taskbook.Proofs.Session.Files
import Taskbook.Proofs.Session.Steps
import Taskbook.Proofs.Text.Utf8
import Taskbook.Zone.Place

namespace Taskbook.Session

variable {w w' : World} {path source target : Text} {settings : Settings} {d : Document} {f : Failure}

/-! ## Failures of single steps -/

theorem makeParents_error (h : outcome (makeParents path) w = (.error f, w')) :
    w'.files = (w.files.makeParents w.cwd path).1 := by
  unfold makeParents at h
  rw [outcome_bind, outcome_get] at h
  dsimp only at h
  rw [outcome_bind, outcome_set] at h
  dsimp only at h
  split at h <;> cases h
  rfl

/-- A file that cannot be written is not touched. -/
theorem writeOctets_error {content : Octets} (h : outcome (writeOctets path content) w = (.error f, w')) : w' = w := by
  unfold writeOctets at h
  rw [outcome_bind, outcome_get] at h
  dsimp only at h
  split at h <;> cases h
  rfl

/-- A document that cannot be written has no text, or the files are as the making of directories has left them. -/
theorem files_of_writeDocument_error [Atlas] (h : outcome (writeDocument path d settings) w = (.error f, w')) :
    outcome (render d settings) w = (.error f, w') ∨
      (∃ t w₁, outcome (render d settings) w = (.ok t, w₁)) ∧ w'.files = (w.files.makeParents w.cwd path).1 := by
  unfold writeDocument at h
  rcases outcome_bind_error.1 h with hrender | ⟨t, w₁, hrender, h₁⟩
  · exact .inl hrender
  refine .inr ⟨⟨t, w₁, hrender⟩, ?_⟩
  obtain ⟨z, -, -, rfl⟩ := outcome_render.1 hrender
  rcases outcome_bind_error.1 h₁ with hmake | ⟨_, w₂, hmake, h₂⟩
  · exact makeParents_error hmake
  obtain ⟨made, hmade, rfl⟩ := outcome_makeParents.1 hmake
  rcases outcome_bind_error.1 h₂ with hwrite | ⟨_, w₃, -, hnote⟩
  · rw [writeOctets_error hwrite, hmade]
  · cases hnote

/-- A document that cannot be written has no text, or no more has changed than directories on the way to its file. -/
theorem writeDocument_error [Atlas] (h : outcome (writeDocument path d settings) w = (.error f, w')) :
    outcome (render d settings) w = (.error f, w') ∨
      (∃ t w₁, outcome (render d settings) w = (.ok t, w₁)) ∧
        FileSystem.Paved (Path.lexical w.cwd path).dropLast w.files w'.files := by
  rcases files_of_writeDocument_error h with hrender | ⟨htext, hfiles⟩
  · exact .inl hrender
  · rw [hfiles]
    exact .inr ⟨htext, FileSystem.paved_makeParents _ _ _⟩

/-! ## Conversions -/

/-- The document in the file is read and its text is made, so that the directories of a target come next. -/
def HasText [Atlas] (w : World) (source : Text) (settings : Settings) : Prop :=
  ∃ d w₁ u w₂, outcome (readDocument source settings) w = (.ok d, w₁) ∧ outcome (render d settings) w₁ = (.ok u, w₂)

/-- A conversion that fails leaves the tree, or it comes as far as the directories on the way to its target. -/
theorem convert_error [Atlas] (h : outcome (convert source target settings) w = (.error f, w')) :
    w'.files = w.files ∨
      HasText w source settings ∧ FileSystem.Paved (Path.lexical w.cwd target).dropLast w.files w'.files := by
  unfold convert at h
  rcases outcome_bind_error.1 h with hread | ⟨d, w₁, hread, h₁⟩
  · have hfiles := (leavesFiles_readDocument source settings w).1
    rw [hread] at hfiles
    exact .inl hfiles
  obtain ⟨hfiles, hcwd⟩ := leavesFiles_readDocument source settings w
  rw [hread] at hfiles hcwd
  dsimp only at hfiles hcwd
  rw [← hfiles, ← hcwd]
  rcases outcome_bind_error.1 h₁ with hwrite | ⟨_, w₂, -, hnote⟩
  · rcases writeDocument_error hwrite with hrender | ⟨⟨u, w₂, hrender⟩, hpaved⟩
    · have hfiles' := (leavesFiles_render d settings w₁).1
      rw [hrender] at hfiles'
      exact .inl hfiles'
    · exact .inr ⟨⟨d, w₁, u, w₂, hread, hrender⟩, hpaved⟩
  · cases hnote

/-- A conversion changes all or nothing, whatever the files, the paths and the settings are. If it fails, every file is
there as before and there is no other, new are at most directories on the way to the target, and nothing at all is new
unless the text to be written was there. If it succeeds, the target holds the text of the document that was in the
source, the directories above the target are there, and every other place is as before. -/
theorem convert_all_or_nothing [Atlas] (w : World) (source target : Text) (settings : Settings) :
    (∀ f w', outcome (convert source target settings) w = (.error f, w') →
      (∀ q content, w'.files.node? q = some (.file content) ↔ w.files.node? q = some (.file content)) ∧
      FileSystem.Paved (Path.lexical w.cwd target).dropLast w.files w'.files ∧
      (¬ HasText w source settings → w'.files = w.files)) ∧
    ∀ d w', outcome (convert source target settings) w = (.ok d, w') →
      ∃ content t z u, w.files.read w.cwd source = .ok content ∧ Utf8.decode content = .ok t ∧
        Zone.named? settings.zone = some z ∧ Document.parse t settings.symbols z = .ok d ∧
        d.render settings.symbols (.of settings.localTimes z) = .ok u ∧
        w'.files.read w.cwd target = .ok (Utf8.encode u) ∧
        FileSystem.Written (Path.lexical w.cwd target) (Utf8.encode u) w.files w'.files := by
  constructor
  · intro f w' h
    have hpaved : FileSystem.Paved (Path.lexical w.cwd target).dropLast w.files w'.files := by
      rcases convert_error h with hfiles | ⟨-, hpaved⟩
      · rw [hfiles]
        exact .refl _ _
      · exact hpaved
    refine ⟨hpaved.file_iff, hpaved, ?_⟩
    intro hno
    rcases convert_error h with hfiles | ⟨htext, -⟩
    · exact hfiles
    · exact absurd htext hno
  · intro d w' h
    obtain ⟨wr, ww, hread, hwrite, rfl⟩ := outcome_convert.1 h
    obtain ⟨content, t, z, hfile, ht, hz, hparse, rfl⟩ := outcome_readDocument.1 hread
    obtain ⟨z', u, made, files, hz', hu, hm, hw, rfl⟩ := outcome_writeDocument.1 hwrite
    cases hz.symm.trans hz'
    exact ⟨content, t, z, u, hfile, ht, hz, hparse, hu, (FileSystem.read_write hw).1, FileSystem.written_of_write hm hw⟩

private def shelf : World := { files := { entries := [(["a".toList], .file (Utf8.encode "## A\r".toList))] } }

open scoped Place in
/-- A slash behind the target makes the conversion fail at the file, after the directory was made; without the slash it
succeeds. -/
theorem convert_all_or_nothing_of_slash :
    (∃ w', outcome (convert "a".toList "b/c/".toList {}) shelf = (.error (.path .isDirectory "b/c/".toList), w') ∧
      w'.files.node? ["b".toList] = some .directory ∧
      ∀ q content, w'.files.node? q = some (.file content) ↔ shelf.files.node? q = some (.file content)) ∧
    ∃ w', outcome (convert "a".toList "b/c".toList {}) shelf = (.ok [⟨"A".toList, []⟩], w') ∧
      FileSystem.Written ["b".toList, "c".toList] (Utf8.encode "## A\n\n".toList) shelf.files w'.files := by
  have hread : outcome (readDocument "a".toList {}) shelf = (.ok [⟨"A".toList, []⟩], _) :=
    outcome_readDocument.2 ⟨_, _, .system, rfl, Utf8.decode_encode _, rfl, by cbv, rfl⟩
  have hrender : Document.render [⟨"A".toList, []⟩] {} .universal = .ok "## A\n\n".toList := rfl
  constructor
  · -- the text and the directory are made before the slash is refused
    have hwrite : outcome (writeDocument "b/c/".toList [⟨"A".toList, []⟩] {}) _ =
        (.error (.path .isDirectory "b/c/".toList), _) :=
      outcome_bind_error.2 (.inr ⟨_, { shelf with log := [.read 5 "a".toList, .parsed 1 0] },
        outcome_render.2 ⟨.system, rfl, hrender, rfl⟩, outcome_bind_error.2 (.inr ⟨(), _,
          outcome_makeParents.2 ⟨_, rfl, rfl⟩, outcome_bind_error.2 (.inl rfl)⟩)⟩)
    have h : outcome (convert "a".toList "b/c/".toList {}) shelf = (.error (.path .isDirectory "b/c/".toList), _) :=
      outcome_bind_error.2 (.inr ⟨_, _, hread, outcome_bind_error.2 (.inl hwrite)⟩)
    exact ⟨_, h, rfl, ((convert_all_or_nothing shelf "a".toList "b/c/".toList {}).1 _ _ h).1⟩
  · have h : outcome (convert "a".toList "b/c".toList {}) shelf = (.ok [⟨"A".toList, []⟩], _) :=
      outcome_convert.2 ⟨_, _, hread, outcome_writeDocument.2 ⟨.system, _, _, _, rfl, hrender, rfl, rfl, rfl⟩, rfl⟩
    obtain ⟨-, -, z, u, -, -, -, -, hu, -, hwritten⟩ :=
      (convert_all_or_nothing shelf "a".toList "b/c".toList {}).2 _ _ h
    cases hrender.symm.trans hu
    exact ⟨_, h, hwritten⟩

end Taskbook.Session
