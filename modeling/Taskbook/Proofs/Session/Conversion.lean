/-
Conversion in universal time. What a conversion writes is read as a document that is written in the same
way again, so a second conversion copies the file of the first.
-/
import Taskbook.Proofs.Document.RoundTrip
import Taskbook.Proofs.Session.Files
import Taskbook.Proofs.Session.Steps
import Taskbook.Proofs.Text.Utf8

namespace Taskbook.Session

variable {w w₁ : World} {path source target : Text} {settings : Settings} {d : Document}

/-- The directories of the path can be made, and then a file can be written there. -/
def Writable (w : World) (path : Text) : Prop :=
  ∃ made files content, w.files.makeParents w.cwd path = (made, none) ∧ made.write w.cwd path content = .ok files

/-- A document that was written can be read as octets, and its file can be written again. -/
theorem writable_of_writeDocument [Atlas] (h : outcome (writeDocument path d settings) w = (.ok (), w₁)) :
    Writable w₁ path ∧ ∃ z t, Zone.named? settings.zone = some z ∧
      d.render settings.symbols (.of settings.localTimes z) = .ok t ∧
      w₁.files.read w₁.cwd path = .ok (Utf8.encode t) := by
  obtain ⟨z, t, made, files, hz, ht, hm, hw, rfl⟩ := outcome_writeDocument.1 h
  obtain ⟨hread, hkeeps, hagain⟩ := FileSystem.read_write hw
  obtain ⟨files', hw'⟩ := hagain
  exact ⟨⟨files, files', _, (FileSystem.makeParents_spec hm).2 files hkeeps, hw'⟩, z, t, hz, ht, hread⟩

/-- A document with a text is written wherever a file can be. -/
theorem outcome_writeDocument_of_writable [Atlas] {z : Zone} {t : Text} (hw : Writable w path)
    (hz : Zone.named? settings.zone = some z)
    (ht : d.render settings.symbols (.of settings.localTimes z) = .ok t) :
    ∃ w₁, outcome (writeDocument path d settings) w = (.ok (), w₁) ∧
      w₁.files.read w₁.cwd path = .ok (Utf8.encode t) := by
  obtain ⟨made, files, content, hm, hw⟩ := hw
  obtain ⟨files', hw'⟩ := FileSystem.write_content hw (Utf8.encode t)
  exact ⟨_, outcome_writeDocument.2 ⟨z, t, made, files', hz, ht, hm, hw', rfl⟩, (FileSystem.read_write hw').1⟩

/-- One conversion reaches the canonical form. With dues in universal time, the file that a conversion wrote is
converted again, into itself or wherever a file can be written, and what is written then is octet for octet
what was written first; the document is the same, with every due at the same instant. -/
theorem convert_convert [Atlas] (hs : settings.symbols.Compatible) (hl : settings.localTimes = false)
    (h : outcome (convert source target settings) w = (.ok d, w₁)) :
    Writable w₁ target ∧ ∃ content, w₁.files.read w₁.cwd target = .ok content ∧
      ∀ target', Writable w₁ target' → ∃ d' w₂, outcome (convert target target' settings) w₁ = (.ok d', w₂) ∧
        w₂.files.read w₂.cwd target' = .ok content ∧ Document.Concurs d d' := by
  obtain ⟨wr, ww, hread, hwrite, rfl⟩ := outcome_convert.1 h
  obtain ⟨-, t₀, z₀, -, -, -, hparse, -⟩ := outcome_readDocument.1 hread
  obtain ⟨hsound, hne⟩ := Document.sound_of_parse hparse
  obtain ⟨hagain, z, t, hz, ht, hfile⟩ := writable_of_writeDocument hwrite
  have hstyle : TimeStyle.of settings.localTimes z = .universal := by rw [hl]; rfl
  rw [hstyle] at ht
  have hutc : TimeStyle.universal.zone.Legible := Zone.legible_utc
  obtain ⟨d', hparse', hconcurs, hrender⟩ := Document.echo hutc hs hsound hne ht
  refine ⟨hagain, Utf8.encode t, hfile, ?_⟩
  intro target' hw
  -- reading changes nothing but the log
  obtain ⟨w', hread', hw'⟩ : ∃ w', outcome (readDocument target settings)
      { ww with log := ww.log ++ [.converted source target] } = (.ok d', w') ∧ Writable w' target' :=
    ⟨_, outcome_readDocument.2 ⟨Utf8.encode t, t, z, hfile, Utf8.decode_encode t, hz, hparse' z, rfl⟩, hw⟩
  obtain ⟨w₂, hwrite', hfile'⟩ := outcome_writeDocument_of_writable hw' hz (hstyle ▸ hrender rfl)
  exact ⟨d', _, outcome_convert.2 ⟨w', w₂, hread', hwrite', rfl⟩, hfile', hconcurs⟩

open scoped Place in
/-- A file with carriage returns, a blank last line and a description, converted into a new directory. -/
theorem convert_convert_of_errand : ∃ w₁,
    outcome (convert "a".toList "b/c".toList {}) { files := { entries :=
      [(["a".toList], .file (Utf8.encode "## A\r\r- t\r    > u\r\n \n".toList))] } } =
        (.ok [⟨"A".toList, [⟨"t".toList, none, some "u".toList, []⟩]⟩], w₁) ∧
      Writable w₁ "b/c".toList ∧ ∃ content, w₁.files.read w₁.cwd "b/c".toList = .ok content ∧
        ∀ target', Writable w₁ target' → ∃ d' w₂, outcome (convert "b/c".toList target' {}) w₁ = (.ok d', w₂) ∧
          w₂.files.read w₂.cwd target' = .ok content ∧
          Document.Concurs [⟨"A".toList, [⟨"t".toList, none, some "u".toList, []⟩]⟩] d' := by
  obtain ⟨w₁, h⟩ : ∃ w₁, outcome (convert "a".toList "b/c".toList {}) { files := { entries :=
      [(["a".toList], .file (Utf8.encode "## A\r\r- t\r    > u\r\n \n".toList))] } } =
        (.ok [⟨"A".toList, [⟨"t".toList, none, some "u".toList, []⟩]⟩], w₁) :=
    ⟨_, outcome_convert.2 ⟨_, _,
      outcome_readDocument.2 ⟨_, _, .system, rfl, Utf8.decode_encode _, rfl, by cbv, rfl⟩,
      outcome_writeDocument.2 ⟨.system, "## A\n\n- t\n    > u\n".toList, _, _, rfl, rfl, rfl, rfl, rfl⟩, rfl⟩⟩
  exact ⟨w₁, h, convert_convert Symbols.compatible_default rfl h⟩

end Taskbook.Session
