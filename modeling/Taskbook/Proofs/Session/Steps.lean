/-
Steps of a session by their outcomes. For each step: when it succeeds from a world, with what result and in
which world it ends. Reading and the making of texts leave the files, whatever their outcome is.
-/
import Taskbook.Session
import Mathlib.Logic.Basic

namespace Taskbook.Session

variable {α β : Type} {w w' : World} {settings : Settings} {path t : Text}

/-- The outcome of a session from a world. -/
def outcome (m : Session α) (w : World) : Except Failure α × World := m.run w

/-! ## Putting steps together -/

@[simp] theorem outcome_pure (a : α) (w : World) : outcome (pure a) w = (.ok a, w) := rfl

@[simp] theorem outcome_throw (f : Failure) (w : World) : outcome (throw f : Session α) w = (.error f, w) := rfl

@[simp] theorem outcome_get (w : World) : outcome get w = (.ok w, w) := rfl

@[simp] theorem outcome_set (w' w : World) : outcome (set w') w = (.ok ⟨⟩, w') := rfl

@[simp] theorem outcome_note (e : Event) (w : World) :
    outcome (note e) w = (.ok (), { w with log := w.log ++ [e] }) := rfl

theorem outcome_bind (m : Session α) (f : α → Session β) (w : World) :
    outcome (m >>= f) w = match outcome m w with
      | (.ok a, w') => outcome (f a) w'
      | (.error e, w') => (.error e, w') := by
  show (match m.run w with | (r, w') => (ExceptT.bindCont f r : StateM World _) w') = _
  unfold outcome
  rcases m.run w with ⟨_ | a, w'⟩ <;> rfl

/-- Two steps succeed if the first does, and the second from where the first ends. -/
theorem outcome_bind_ok {m : Session α} {f : α → Session β} {b : β} :
    outcome (m >>= f) w = (.ok b, w') ↔
      ∃ a w₁, outcome m w = (.ok a, w₁) ∧ outcome (f a) w₁ = (.ok b, w') := by
  rw [outcome_bind]
  rcases outcome m w with ⟨_ | a, w₁⟩
  · simp
  · constructor
    · intro h
      exact ⟨a, w₁, rfl, h⟩
    · rintro ⟨a', w₁', h, h'⟩
      cases h; exact h'

/-- Two steps fail if the first does, or the second does from where the first ends. -/
theorem outcome_bind_error {m : Session α} {f : α → Session β} {e : Failure} :
    outcome (m >>= f) w = (.error e, w') ↔
      outcome m w = (.error e, w') ∨ ∃ a w₁, outcome m w = (.ok a, w₁) ∧ outcome (f a) w₁ = (.error e, w') := by
  rw [outcome_bind]
  rcases outcome m w with ⟨_ | a, w₁⟩
  · simp
  · constructor
    · intro h
      exact .inr ⟨a, w₁, rfl, h⟩
    · rintro (h | ⟨a', w₁', h, h'⟩)
      · cases h
      · cases h
        exact h'

/-! ## Single steps -/

theorem outcome_settle {r : Except Failure α} {a : α} : outcome (settle r) w = (.ok a, w') ↔ r = .ok a ∧ w' = w := by
  rcases r with f | b
  · simp [settle]
  · simp [settle, eq_comm]

theorem outcome_zoneOf [Atlas] {name : Option Text} {z : Zone} :
    outcome (zoneOf name) w = (.ok z, w') ↔ Zone.named? name = some z ∧ w' = w := by
  unfold zoneOf
  rcases Zone.named? name with _ | z'
  · simp
  · simp [eq_comm]

theorem outcome_readOctets {content : Octets} :
    outcome (readOctets path) w = (.ok content, w') ↔ w.files.read w.cwd path = .ok content ∧ w' = w := by
  unfold readOctets
  rw [outcome_bind, outcome_get]
  dsimp only
  rcases w.files.read w.cwd path with f | c
  · simp
  · simp [eq_comm]

theorem outcome_writeOctets {content : Octets} : outcome (writeOctets path content) w = (.ok (), w') ↔
    ∃ files, w.files.write w.cwd path content = .ok files ∧ w' = { w with files } := by
  unfold writeOctets
  rw [outcome_bind, outcome_get]
  dsimp only
  rcases w.files.write w.cwd path content with f | files
  · simp
  · simp [eq_comm]

theorem outcome_makeParents : outcome (makeParents path) w = (.ok (), w') ↔
    ∃ files, w.files.makeParents w.cwd path = (files, none) ∧ w' = { w with files } := by
  unfold makeParents
  rw [outcome_bind, outcome_get]
  dsimp only
  rcases w.files.makeParents w.cwd path with ⟨files, _ | f⟩
  · simp [eq_comm]
  · simp [outcome_bind]

/-! ## Documents -/

theorem outcome_parse {s : Symbols} {z : Zone} {d : Document} : outcome (parse t s z) w = (.ok d, w') ↔
    Document.parse t s z = .ok d ∧ w' = { w with log := w.log ++ [.parsed d.length (Document.tasks d).length] } := by
  unfold parse
  rcases Document.parse t s z with f | d'
  · cases f <;> simp [outcome_bind]
  · dsimp only
    rw [outcome_bind, outcome_note]
    dsimp only
    rw [outcome_pure]
    constructor
    · intro h
      cases h
      exact ⟨rfl, rfl⟩
    · rintro ⟨h, rfl⟩
      cases h
      rfl

/-- A document is read if the file holds a text, the zone has a name and the text is a document. -/
theorem outcome_readDocument [Atlas] {d : Document} : outcome (readDocument path settings) w = (.ok d, w') ↔
    ∃ content t z, w.files.read w.cwd path = .ok content ∧ Utf8.decode content = .ok t ∧
      Zone.named? settings.zone = some z ∧ Document.parse t settings.symbols z = .ok d ∧
      w' = { w with log := w.log ++ [.read t.length path] ++ [.parsed d.length (Document.tasks d).length] } := by
  unfold readDocument
  constructor
  · intro h
    obtain ⟨content, w₁, hrun, h₁⟩ := outcome_bind_ok.1 h
    obtain ⟨t, w₂, hrun₁, h₂⟩ := outcome_bind_ok.1 h₁
    obtain ⟨_, w₃, hrun₂, h₃⟩ := outcome_bind_ok.1 h₂
    obtain ⟨z, w₄, hrun₃, h₄⟩ := outcome_bind_ok.1 h₃
    obtain ⟨hread, rfl⟩ := outcome_readOctets.1 hrun
    obtain ⟨ht, rfl⟩ := outcome_settle.1 hrun₁
    cases hrun₂
    obtain ⟨hz, rfl⟩ := outcome_zoneOf.1 hrun₃
    obtain ⟨hd, rfl⟩ := outcome_parse.1 h₄
    refine ⟨content, t, z, hread, ?_, hz, hd, rfl⟩
    rcases hu : Utf8.decode content with f | t' <;> rw [hu] at ht <;> cases ht
    rfl
  · rintro ⟨content, t, z, hread, ht, hz, hd, rfl⟩
    refine outcome_bind_ok.2 ⟨content, w, outcome_readOctets.2 ⟨hread, rfl⟩, ?_⟩
    refine outcome_bind_ok.2 ⟨t, w, outcome_settle.2 ⟨by rw [ht]; rfl, rfl⟩, ?_⟩
    refine outcome_bind_ok.2 ⟨(), _, outcome_note _ w, ?_⟩
    exact outcome_bind_ok.2 ⟨z, _, outcome_zoneOf.2 ⟨hz, rfl⟩, outcome_parse.2 ⟨hd, rfl⟩⟩

theorem outcome_render [Atlas] {d : Document} : outcome (render d settings) w = (.ok t, w') ↔
    ∃ z, Zone.named? settings.zone = some z ∧ d.render settings.symbols (.of settings.localTimes z) = .ok t ∧
      w' = w := by
  unfold render
  constructor
  · intro h
    obtain ⟨z, w₁, hrun, h₁⟩ := outcome_bind_ok.1 h
    obtain ⟨hz, rfl⟩ := outcome_zoneOf.1 hrun
    obtain ⟨ht, rfl⟩ := outcome_settle.1 h₁
    refine ⟨z, hz, ?_, rfl⟩
    rcases hr : d.render settings.symbols (.of settings.localTimes z) with f | u <;> rw [hr] at ht <;> cases ht
    rfl
  · rintro ⟨z, hz, ht, rfl⟩
    exact outcome_bind_ok.2 ⟨z, w', outcome_zoneOf.2 ⟨hz, rfl⟩, outcome_settle.2 ⟨by rw [ht]; rfl, rfl⟩⟩

/-- A document is written if it has a text, its directories can be made and the file can be written. -/
theorem outcome_writeDocument [Atlas] {d : Document} : outcome (writeDocument path d settings) w = (.ok (), w') ↔
    ∃ z t made files, Zone.named? settings.zone = some z ∧
      d.render settings.symbols (.of settings.localTimes z) = .ok t ∧
      w.files.makeParents w.cwd path = (made, none) ∧ made.write w.cwd path (Utf8.encode t) = .ok files ∧
      w' = { w with files, log := w.log ++ [.wrote t.length path] } := by
  unfold writeDocument
  constructor
  · intro h
    obtain ⟨t, w₁, hrun, h₁⟩ := outcome_bind_ok.1 h
    obtain ⟨_, w₂, hrun₁, h₂⟩ := outcome_bind_ok.1 h₁
    obtain ⟨_, w₃, hrun₂, h₃⟩ := outcome_bind_ok.1 h₂
    obtain ⟨z, hz, ht, rfl⟩ := outcome_render.1 hrun
    obtain ⟨made, hm, rfl⟩ := outcome_makeParents.1 hrun₁
    obtain ⟨files, hw, rfl⟩ := outcome_writeOctets.1 hrun₂
    cases h₃
    exact ⟨z, t, made, files, hz, ht, hm, hw, rfl⟩
  · rintro ⟨z, t, made, files, hz, ht, hm, hw, rfl⟩
    refine outcome_bind_ok.2 ⟨t, w, outcome_render.2 ⟨z, hz, ht, rfl⟩, ?_⟩
    refine outcome_bind_ok.2 ⟨(), _, outcome_makeParents.2 ⟨made, hm, rfl⟩, ?_⟩
    exact outcome_bind_ok.2 ⟨(), _, outcome_writeOctets.2 ⟨files, hw, rfl⟩, rfl⟩

/-- A conversion reads one document and writes it. -/
theorem outcome_convert [Atlas] {source target : Text} {d : Document} :
    outcome (convert source target settings) w = (.ok d, w') ↔
      ∃ w₁ w₂, outcome (readDocument source settings) w = (.ok d, w₁) ∧
        outcome (writeDocument target d settings) w₁ = (.ok (), w₂) ∧
        w' = { w₂ with log := w₂.log ++ [.converted source target] } := by
  unfold convert
  constructor
  · intro h
    obtain ⟨d', w₁, hd, h₁⟩ := outcome_bind_ok.1 h
    obtain ⟨_, w₂, hw, h₂⟩ := outcome_bind_ok.1 h₁
    cases h₂
    exact ⟨w₁, w₂, hd, hw, rfl⟩
  · rintro ⟨w₁, w₂, hd, hw, rfl⟩
    exact outcome_bind_ok.2 ⟨d, w₁, hd, outcome_bind_ok.2 ⟨(), w₂, hw, rfl⟩⟩

theorem cwd_of_convert [Atlas] {source target : Text} {d : Document}
    (h : outcome (convert source target settings) w = (.ok d, w')) : w'.cwd = w.cwd := by
  obtain ⟨w₁, w₂, hread, hwrite, rfl⟩ := outcome_convert.1 h
  obtain ⟨_, _, _, _, _, _, _, rfl⟩ := outcome_readDocument.1 hread
  obtain ⟨_, _, _, _, _, _, _, _, rfl⟩ := outcome_writeDocument.1 hwrite
  rfl

/-! ## Steps that leave the files -/

/-- Whatever its outcome is, the step changes no file, no directory and not the working directory. -/
def LeavesFiles (m : Session α) : Prop := ∀ w, (outcome m w).2.files = w.files ∧ (outcome m w).2.cwd = w.cwd

theorem LeavesFiles.bind {m : Session α} {f : α → Session β} (hm : LeavesFiles m) (hf : ∀ a, LeavesFiles (f a)) :
    LeavesFiles (m >>= f) := by
  intro w
  obtain ⟨hfiles, hcwd⟩ := hm w
  rw [outcome_bind]
  rcases hw : outcome m w with ⟨e | a, w₁⟩
  · rw [hw] at hfiles hcwd
    exact ⟨hfiles, hcwd⟩
  · rw [hw] at hfiles hcwd
    exact ⟨(hf a w₁).1.trans hfiles, (hf a w₁).2.trans hcwd⟩

theorem leavesFiles_pure (a : α) : LeavesFiles (pure a) := fun _ => ⟨rfl, rfl⟩

theorem leavesFiles_throw (f : Failure) : LeavesFiles (throw f : Session α) := fun _ => ⟨rfl, rfl⟩

theorem leavesFiles_note (e : Event) : LeavesFiles (note e) := fun _ => ⟨rfl, rfl⟩

theorem leavesFiles_settle (r : Except Failure α) : LeavesFiles (settle r) := by
  rcases r with f | a
  · exact leavesFiles_throw f
  · exact leavesFiles_pure a

theorem leavesFiles_zoneOf [Atlas] (name : Option Text) : LeavesFiles (zoneOf name) := by
  unfold zoneOf
  rcases Zone.named? name with _ | z
  · exact leavesFiles_throw _
  · exact leavesFiles_pure z

theorem leavesFiles_readOctets (path : Text) : LeavesFiles (readOctets path) := by
  intro w
  unfold readOctets
  rw [outcome_bind, outcome_get]
  dsimp only
  rcases w.files.read w.cwd path with fault | content
  · exact leavesFiles_throw _ w
  · exact leavesFiles_pure content w

theorem leavesFiles_parse (t : Text) (s : Symbols) (z : Zone) : LeavesFiles (parse t s z) := by
  unfold parse
  split
  · exact (leavesFiles_note _).bind fun _ => leavesFiles_pure _
  · exact (leavesFiles_note _).bind fun _ => leavesFiles_throw _
  · exact leavesFiles_throw _

theorem leavesFiles_readDocument [Atlas] (path : Text) (settings : Settings) :
    LeavesFiles (readDocument path settings) := by
  unfold readDocument
  refine (leavesFiles_readOctets path).bind fun content => ?_
  refine (leavesFiles_settle _).bind fun t => ?_
  refine (leavesFiles_note _).bind fun _ => ?_
  exact (leavesFiles_zoneOf _).bind fun z => leavesFiles_parse t settings.symbols z

theorem leavesFiles_render [Atlas] (d : Document) (settings : Settings) : LeavesFiles (render d settings) := by
  unfold render
  exact (leavesFiles_zoneOf _).bind fun _ => leavesFiles_settle _

end Taskbook.Session
