/-
Steps of a session by their failures. For each step: when it fails from a world, and how. The file system refuses null
characters before it looks anything up, and a document that was read has no text exactly where one of its dues has
none.
-/
import Taskbook.Proofs.Document.Writing
import Taskbook.Proofs.Layout.Failures
import Taskbook.Proofs.Session.Steps
import Taskbook.Proofs.Text.Messages

namespace Taskbook

open Calendar

/-! ## Null characters -/

namespace FileSystem

variable {fs : FileSystem} {cwd : Path} {t : Text}

/-- A null character is in the text. -/
def HasNull (t : Text) : Prop := ∃ c ∈ t, c.toNat = 0

theorem refusal?_eq_null_iff : refusal? t = some .null ↔ HasNull t := by
  unfold refusal? HasNull
  split_ifs <;> simp_all

theorem walk_ne_null (fs : FileSystem) (dir : Path) (names : List Text) : fs.walk dir names ≠ .error .null := by
  induction names generalizing dir with
  | nil => simp [walk]
  | cons name names ih =>
    unfold walk
    split_ifs
    · exact ih _
    · simp
    · split
      · simp
      · simp
      · exact ih _

theorem target_eq_null_iff (fs : FileSystem) (cwd : Path) : fs.target cwd t = .error .null ↔ HasNull t := by
  rw [← refusal?_eq_null_iff]
  unfold target
  rcases refusal? t with _ | fault
  · dsimp only
    split
    · simp
    · rename_i last _
      rcases hw : fs.walk (Path.origin cwd t) (Path.names t).dropLast with fault | parent
      · have hne := walk_ne_null fs (Path.origin cwd t) (Path.names t).dropLast
        rw [hw] at hne
        simpa using hne
      · dsimp only
        split <;> simp
  · simp

theorem read_eq_null_iff : fs.read cwd t = .error .null ↔ HasNull t := by
  rw [← target_eq_null_iff fs cwd]
  unfold read
  rcases fs.target cwd t with fault | _ | ⟨parent, name, slash⟩
  · simp
  · simp
  · dsimp only
    split <;> [split; skip; split] <;> simp

theorem write_eq_null_iff {content : Octets} : fs.write cwd t content = .error .null ↔ HasNull t := by
  rw [← target_eq_null_iff fs cwd]
  unfold write
  rcases fs.target cwd t with fault | _ | ⟨parent, name, slash⟩
  · simp
  · simp
  · dsimp only
    split_ifs <;> simp

/-- Directories that cannot be made are a failure of the file system. -/
theorem exists_path_of_makeDirectories {dir : Path} {names : List Text} {f : Failure}
    (h : (fs.makeDirectories dir names).2 = some f) : ∃ fault p, f = .path fault p := by
  induction names generalizing fs dir with
  | nil => cases h
  | cons name names ih =>
    unfold makeDirectories at h
    dsimp only at h
    split at h
    · exact ih h
    · split at h <;> cases h <;> exact ⟨_, _, rfl⟩
    · split at h
      · cases h; exact ⟨_, _, rfl⟩
      · cases h; exact ⟨_, _, rfl⟩
      · exact ih h

end FileSystem

/-! ## The first day -/

theorem Failure.told_of_isOfText {f : Failure} (h : f.isOfText = true) : f.Told := by
  cases f with
  | unmatched line column context => exact told_unmatched line column context
  | badDue text line column => exact told_badDue text line column
  | _ => cases h

namespace Layout

variable {s : Symbols} {z : Zone} {t : Text} {f : Failure}

/-- Of the due texts that the system does not read as a moment, the first one is a floating due on the first day of the
calendar. -/
def StopsOnFirstDay (s : Symbols) (t : Text) : Prop :=
  ∃ text, firstUnread? .system (scan s [.title] (.start t)).1 = some text ∧ Due.onFirstDay text = true

/-- A text that is not read as a document is told what is wrong with it, unless it stops on the first day. -/
theorem told_of_parse (h : Document.parse t s z = .error f) :
    f.Told ∨ f = .calendar (.year 0) ∧ z = .system ∧ StopsOnFirstDay s t := by
  rw [parse_eq_scan] at h
  rcases hs : spell s z (scan s [.title] (.start t)).1 with g | x <;> rw [hs] at h <;> dsimp only at h
  · cases h
    obtain ⟨text, ht, ⟨hf, -⟩ | ⟨g, rfl, hr⟩⟩ := unread_of_spell hs
    · exact .inl (Failure.told_of_isOfText hf)
    · obtain ⟨rfl, rfl, hd⟩ := Due.read_eq_error_iff.1 hr
      exact .inr ⟨rfl, rfl, text, ht, hd⟩
  · split at h <;> cases h
    exact .inl (Failure.told_unmatched ..)

theorem parse_of_stopsOnFirstDay (h : StopsOnFirstDay s t) :
    Document.parse t s .system = .error (.calendar (.year 0)) := by
  obtain ⟨text, ht, hd⟩ := h
  have hr : Due.read text .system = .error (.year 0) := Due.read_eq_error_iff.2 ⟨rfl, rfl, hd⟩
  rw [parse_eq_scan]
  rcases hs : spell s .system (scan s [.title] (.start t)).1 with g | x
  · obtain ⟨text', ht', hu⟩ := unread_of_spell hs
    cases ht.symm.trans ht'
    rcases hu with ⟨-, hr'⟩ | ⟨g, rfl, hr'⟩ <;> cases hr.symm.trans hr'
    rfl
  · rw [firstUnread?_of_spell hs] at ht
    cases ht

end Layout

namespace Session

variable {α β : Type} {w : World} {f : Failure} {settings : Settings} {path t : Text} {d : Document}

/-- From this world the step fails in this way. -/
def Fails (m : Session α) (w : World) (f : Failure) : Prop := ∃ w', outcome m w = (.error f, w')

/-! ## Putting steps together -/

theorem fails_bind {m : Session α} {k : α → Session β} :
    Fails (m >>= k) w f ↔ Fails m w f ∨ ∃ a w₁, outcome m w = (.ok a, w₁) ∧ Fails (k a) w₁ f := by
  unfold Fails
  simp only [outcome_bind_error, exists_or]
  refine or_congr_right ⟨?_, ?_⟩
  · rintro ⟨w', a, w₁, hm, hk⟩
    exact ⟨a, w₁, hm, w', hk⟩
  · rintro ⟨a, w₁, hm, w', hk⟩
    exact ⟨w', a, w₁, hm, hk⟩

theorem not_fails_of_outcome {m : Session α} {a : α} {w' : World} (h : outcome m w = (.ok a, w')) : ¬ Fails m w f := by
  rintro ⟨w'', h'⟩
  rw [h] at h'
  cases h'

theorem fails_throw {g : Failure} : Fails (throw g : Session α) w f ↔ f = g := by
  simp [Fails, eq_comm]

theorem fails_settle {r : Except Failure α} : Fails (settle r) w f ↔ r = .error f := by
  rcases r with g | a
  · rw [settle, fails_throw, Except.error.injEq, eq_comm]
  · simpa [settle] using not_fails_of_outcome (outcome_pure a w)

theorem not_fails_note (e : Event) : ¬ Fails (note e) w f := not_fails_of_outcome (outcome_note e w)

theorem mapError_eq_error {ε : Type} {g : ε → Failure} {r : Except ε α} :
    r.mapError g = .error f ↔ ∃ fault, r = .error fault ∧ f = g fault := by
  rcases r with fault | a <;> simp [Except.mapError, eq_comm]

theorem mapError_eq_ok {ε : Type} {g : ε → Failure} {r : Except ε α} {a : α} : r.mapError g = .ok a ↔ r = .ok a := by
  rcases r with fault | a <;> simp [Except.mapError]

/-! ## Single steps -/

theorem fails_zoneOf [Atlas] {name : Option Text} :
    Fails (zoneOf name) w f ↔ Zone.named? name = none ∧ f = .unknownZone (name.getD []) := by
  unfold zoneOf
  rcases Zone.named? name with _ | z
  · simp [fails_throw]
  · simpa using not_fails_of_outcome (outcome_pure z w)

theorem fails_readOctets :
    Fails (readOctets path) w f ↔ ∃ fault, w.files.read w.cwd path = .error fault ∧ f = .path fault path := by
  unfold readOctets Fails
  rw [outcome_bind, outcome_get]
  dsimp only
  rcases w.files.read w.cwd path with fault | content <;> simp [eq_comm]

theorem fails_writeOctets {content : Octets} :
    Fails (writeOctets path content) w f ↔
      ∃ fault, w.files.write w.cwd path content = .error fault ∧ f = .path fault path := by
  unfold writeOctets Fails
  rw [outcome_bind, outcome_get]
  dsimp only
  rcases w.files.write w.cwd path content with fault | files <;> simp [eq_comm]

theorem fails_makeParents : Fails (makeParents path) w f ↔ (w.files.makeParents w.cwd path).2 = some f := by
  unfold makeParents Fails
  rw [outcome_bind, outcome_get]
  dsimp only
  rcases w.files.makeParents w.cwd path with ⟨files, _ | g⟩ <;> simp [outcome_bind]

theorem fails_parse {s : Symbols} {z : Zone} : Fails (parse t s z) w f ↔ Document.parse t s z = .error f := by
  rcases hp : Document.parse t s z with g | d
  · unfold parse
    rw [hp]
    cases g <;> simp [Fails, outcome_bind]
  · simpa using not_fails_of_outcome (outcome_parse.2 ⟨hp, rfl⟩)

/-! ## Documents -/

/-- A document is not read if there is no file, or it holds no text, or the zone has no name, or the text is no
document. -/
theorem fails_readDocument [Atlas] : Fails (readDocument path settings) w f ↔
    (∃ fault, w.files.read w.cwd path = .error fault ∧ f = .path fault path) ∨
      ∃ content, w.files.read w.cwd path = .ok content ∧
        ((∃ fault, Utf8.decode content = .error fault ∧ f = .notText fault) ∨
          ∃ t, Utf8.decode content = .ok t ∧
            (Zone.named? settings.zone = none ∧ f = .unknownZone (settings.zone.getD []) ∨
              ∃ z, Zone.named? settings.zone = some z ∧ Document.parse t settings.symbols z = .error f)) := by
  unfold readDocument
  simp only [fails_bind, fails_readOctets, outcome_readOctets, fails_settle, outcome_settle, mapError_eq_error,
    mapError_eq_ok, not_fails_note, outcome_note, Prod.mk.injEq, fails_zoneOf, outcome_zoneOf, fails_parse]
  simp

/-- A document is not written if it has no text, or a directory cannot be made, or the file cannot be written. -/
theorem fails_writeDocument [Atlas] : Fails (writeDocument path d settings) w f ↔
    Fails (render d settings) w f ∨
      ∃ t w₁, outcome (render d settings) w = (.ok t, w₁) ∧
        ((w₁.files.makeParents w₁.cwd path).2 = some f ∨
          ∃ made fault, w₁.files.makeParents w₁.cwd path = (made, none) ∧
            made.write w₁.cwd path (Utf8.encode t) = .error fault ∧ f = .path fault path) := by
  have hmake : ∀ (u : Unit) (w w' : World), outcome (makeParents path) w = (.ok u, w') ↔
      ∃ files, w.files.makeParents w.cwd path = (files, none) ∧ w' = { w with files } :=
    fun _ _ _ => outcome_makeParents
  unfold writeDocument
  simp only [fails_bind, fails_makeParents, hmake, fails_writeOctets, not_fails_note]
  simp

/-! ## Steps that write dues -/

/-- It is the writing of these moments that decides whether the step succeeds, and how it fails. -/
structure DecidedBy [Atlas] (style : TimeStyle) (ms : List Moment) (m : Session α) : Prop where
  ok : ∀ {w a w'}, outcome m w = (.ok a, w') → ∀ x ∈ ms, ∃ t, style.write x = .ok t
  error : ∀ {w f}, Fails m w f → ∃ x ∈ ms, ∃ fault, style.write x = .error fault ∧ f = .calendar fault

section DecidedBy

variable [Atlas] {style : TimeStyle} {ms ms' : List Moment}

theorem DecidedBy.bind {m : Session α} {k : α → Session β} (hm : DecidedBy style ms m)
    (hk : ∀ a, DecidedBy style ms' (k a)) : DecidedBy style (ms ++ ms') (m >>= k) where
  ok := by
    intro w b w' h
    obtain ⟨a, w₁, h₁, h₂⟩ := outcome_bind_ok.1 h
    exact List.forall_mem_append.2 ⟨hm.ok h₁, (hk a).ok h₂⟩
  error := by
    intro w f h
    rcases fails_bind.1 h with h | ⟨a, w₁, -, h⟩
    · obtain ⟨x, hx, hwrite⟩ := hm.error h
      exact ⟨x, List.mem_append_left _ hx, hwrite⟩
    · obtain ⟨x, hx, hwrite⟩ := (hk a).error h
      exact ⟨x, List.mem_append_right _ hx, hwrite⟩

theorem decidedBy_settle {r : Except Fault α} (h : Layout.DecidedBy style ms r) :
    DecidedBy style ms (settle (r.mapError .calendar)) where
  ok h' := h.ok (mapError_eq_ok.1 (outcome_settle.1 h').1)
  error h' := by
    obtain ⟨fault, hr, hf⟩ := mapError_eq_error.1 (fails_settle.1 h')
    obtain ⟨x, hx, hwrite⟩ := h.error hr
    exact ⟨x, hx, fault, hwrite, hf⟩

/-- A step that cannot fail. -/
theorem decidedBy_nil {m : Session α} (h : ∀ w, ∃ a w', outcome m w = (.ok a, w')) : DecidedBy style [] m where
  ok _ := List.forall_mem_nil _
  error {w f} hf := by
    obtain ⟨a, w', hok⟩ := h w
    exact absurd hf (not_fails_of_outcome hok)

theorem decidedBy_forM {dues : α → List Moment} {k : α → Session Unit} {as : List α}
    (h : ∀ a ∈ as, DecidedBy style (dues a) (k a)) : DecidedBy style (as.flatMap dues) (as.forM k) := by
  induction as with
  | nil => exact decidedBy_nil fun w => ⟨(), w, rfl⟩
  | cons a as ih =>
    obtain ⟨ha, has⟩ := List.forall_mem_cons.1 h
    exact ha.bind fun _ => ih has

/-- Moments of zones are decided by whether they can be shown, and overflow is all that can go wrong. -/
theorem DecidedBy.fails_iff {m : Session α} (h : DecidedBy style ms m) (hz : ∀ x ∈ ms, x.zone ≠ none) :
    Fails m w f ↔ f = .calendar .overflow ∧ ∃ x ∈ ms, ¬ x.Fits style.zone := by
  have hforward : ∀ {g}, Fails m w g → g = .calendar .overflow ∧ ∃ x ∈ ms, ¬ x.Fits style.zone := by
    intro g hg
    obtain ⟨x, hx, fault, hwrite, rfl⟩ := h.error hg
    refine ⟨by rw [TimeStyle.write_eq_error (hz x hx) hwrite], x, hx, ?_⟩
    rw [← TimeStyle.exists_write_iff (hz x hx), hwrite]
    simp
  refine ⟨hforward, ?_⟩
  rintro ⟨rfl, x, hx, hfits⟩
  rcases hm : outcome m w with ⟨g | a, w'⟩
  · obtain ⟨rfl, -⟩ := hforward ⟨w', hm⟩
    exact ⟨w', hm⟩
  · exact absurd ((TimeStyle.exists_write_iff (hz x hx)).1 (h.ok hm x hx)) hfits

/-- The text of a document whose dues are moments of zones. -/
theorem fails_render_iff {z : Zone} (hz : Zone.named? settings.zone = some z) (hd : ∀ m ∈ d.dues, m.zone ≠ none) :
    Fails (render d settings) w f ↔
      f = .calendar .overflow ∧ ∃ m ∈ d.dues, ¬ m.Fits (TimeStyle.of settings.localTimes z).zone := by
  have hsettle : DecidedBy (.of settings.localTimes z) d.dues (settle
      ((d.render settings.symbols (.of settings.localTimes z)).mapError .calendar)) :=
    decidedBy_settle (Layout.decidedBy_render d)
  rw [← hsettle.fails_iff hd (w := w)]
  unfold render
  simp only [fails_bind, fails_zoneOf, outcome_zoneOf, hz]
  simp

end DecidedBy

end Session

end Taskbook
