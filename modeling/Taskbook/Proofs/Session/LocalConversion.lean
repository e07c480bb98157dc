/-
Conversion in the time of a zone. A second conversion copies the file of the first one as long as the clocks of the
zone show the dues that were placed in it as they stand. A wall time that these clocks leave out is moved the second
time, and an instant before or behind the calendar cannot be written then.
-/
import Taskbook.Proofs.Session.Conversion

namespace Taskbook.Session

variable {w w₁ : World} {source target : Text} {settings : Settings} {d : Document}

theorem convert_spec [Atlas] (h : outcome (convert source target settings) w = (.ok d, w₁)) :
    ∃ content t z u, w.files.read w.cwd source = .ok content ∧ Utf8.decode content = .ok t ∧
      Zone.named? settings.zone = some z ∧ Document.parse t settings.symbols z = .ok d ∧
      d.render settings.symbols (.of settings.localTimes z) = .ok u ∧
      w₁.files.read w₁.cwd target = .ok (Utf8.encode u) ∧ Writable w₁ target := by
  obtain ⟨wr, ww, hread, hwrite, rfl⟩ := outcome_convert.1 h
  obtain ⟨content, t, z, hfile, ht, hz, hparse, -⟩ := outcome_readDocument.1 hread
  obtain ⟨hagain, z', u, hz', hu, hfile'⟩ := writable_of_writeDocument hwrite
  cases hz.symm.trans hz'
  exact ⟨content, t, z, u, hfile, ht, hz, hparse, hu, hfile', hagain⟩

theorem exists_outcome_convert [Atlas] {t u : Text} {z : Zone}
    (hfile : w.files.read w.cwd source = .ok (Utf8.encode t)) (hz : Zone.named? settings.zone = some z)
    (hparse : Document.parse t settings.symbols z = .ok d)
    (hrender : d.render settings.symbols (.of settings.localTimes z) = .ok u) (hw : Writable w target) :
    ∃ w₁, outcome (convert source target settings) w = (.ok d, w₁) ∧
      w₁.files.read w₁.cwd target = .ok (Utf8.encode u) := by
  obtain ⟨wr, hread, hw'⟩ : ∃ wr, outcome (readDocument source settings) w = (.ok d, wr) ∧ Writable wr target :=
    ⟨_, outcome_readDocument.2 ⟨_, t, z, hfile, Utf8.decode_encode t, hz, hparse, rfl⟩, hw⟩
  obtain ⟨ww, hwrite, hfile'⟩ := outcome_writeDocument_of_writable hw' hz hrender
  exact ⟨_, outcome_convert.2 ⟨wr, ww, hread, hwrite, rfl⟩, hfile'⟩

/-- With dues in the time of a zone, the file that a conversion wrote is converted again into the same content, into
itself or wherever a file can be written, exactly if the clocks of the zone show as it stands every due that was placed
in the zone: its instant lies in the calendar, and the shift it was read with is in force then. -/
theorem convert_again_iff [Atlas] (ha : Atlas.Lawful) (hs : settings.symbols.Compatible)
    (hl : settings.localTimes = true)
    (h : outcome (convert source target settings) w = (.ok d, w₁)) :
    Writable w₁ target ∧ ∃ z content, Zone.named? settings.zone = some z ∧
      w₁.files.read w₁.cwd target = .ok content ∧ ∀ target', Writable w₁ target' →
        ((∃ d' w₂, outcome (convert target target' settings) w₁ = (.ok d', w₂) ∧
            w₂.files.read w₂.cwd target' = .ok content) ↔
          ∀ m ∈ d.dues, m.zone = some z → m.ShownBy z) := by
  obtain ⟨-, t, z, u, -, -, hz, hparse, hu, hfile, hagain⟩ := convert_spec h
  obtain ⟨hsound, hne⟩ := Document.sound_of_parse hparse
  have hstyle : TimeStyle.of settings.localTimes z = .zoned z := by
    rw [hl]
    rfl
  rw [hstyle] at hu
  have hlegible : z.Legible := Zone.legible ha (Zone.tellable_of_named? hz)
  refine ⟨hagain, z, Utf8.encode u, hz, hfile, ?_⟩
  intro target' hw
  constructor
  · rintro ⟨d', w₂, hconvert, hfile₂⟩
    obtain ⟨content, t', z', u', hcontent, ht', hz', hparse', hu', hfile', -⟩ := convert_spec hconvert
    cases hz.symm.trans hz'
    cases hcontent.symm.trans hfile
    -- the text read the second time is the one that was written
    cases ht'.symm.trans (Utf8.decode_encode u)
    have hsame : u' = u := by
      have hoctets := hfile'.symm.trans hfile₂
      rw [Except.ok.injEq] at hoctets
      have hdecode := Utf8.decode_encode u'
      rw [hoctets, Utf8.decode_encode] at hdecode
      cases hdecode
      rfl
    rw [hstyle, hsame] at hu'
    exact (Document.render_again_iff hlegible hs hsound hne hu hparse').1 hu'
  · intro hshown
    have hzoned : (TimeStyle.zoned z).zone.Legible := hlegible
    obtain ⟨d', hparse', -⟩ := Document.exists_echo hzoned hs hsound hne hu
    have hu' := (Document.render_again_iff hlegible hs hsound hne hu (hparse' z)).2 hshown
    rw [← hstyle] at hu'
    obtain ⟨w₂, hconvert, hfile₂⟩ := exists_outcome_convert hfile hz (hparse' z) hu' hw
    exact ⟨d', w₂, hconvert, hfile₂⟩

/-- A tree of one file. -/
private def withFile (name t : Text) : World := { files := { entries := [([name], .file (Utf8.encode t))] } }

/-- Settings for the time of a place. -/
private def localTo (p : Place) : Settings := { localTimes := true, zone := some p.name }

open scoped Place in
/-- A day in winter is shown as it stands. -/
theorem convert_again_of_winter : ∃ w₁ d,
    outcome (convert "a".toList "b".toList (localTo .newYork))
        (withFile "a".toList "## A\n- t\n    @ 2024-01-02\n".toList) = (.ok d, w₁) ∧
      ∃ content, w₁.files.read w₁.cwd "b".toList = .ok content ∧
        ∃ d' w₂, outcome (convert "b".toList "b".toList (localTo .newYork)) w₁ = (.ok d', w₂) ∧
          w₂.files.read w₂.cwd "b".toList = .ok content := by
  have hread : Due.read "2024-01-02".toList (.place Place.newYork.name) =
      .ok (some { wall := ⟨63839750400000000, by decide⟩, zone := some (.place Place.newYork.name) }) := by
    decide +kernel
  have hparse : Document.parse "## A\n- t\n    @ 2024-01-02\n".toList {} (.place Place.newYork.name) = _ :=
    Layout.parse_of_scan_due "A".toList "t".toList (by decide +kernel) hread
  have hrender : Document.render [⟨"A".toList, [⟨"t".toList,
      some { wall := ⟨63839750400000000, by decide⟩, zone := some (.place Place.newYork.name) }, none, []⟩]⟩] {}
        (.zoned (.place Place.newYork.name)) = .ok "## A\n\n- t\n    @ 2024-01-02T00:00:00-05:00\n".toList := by
    decide +kernel
  obtain ⟨w₁, h, -⟩ : ∃ w₁, outcome (convert "a".toList "b".toList (localTo .newYork))
      (withFile "a".toList "## A\n- t\n    @ 2024-01-02\n".toList) = (.ok _, w₁) ∧ _ :=
    exists_outcome_convert rfl rfl hparse hrender ⟨_, _, [], rfl, rfl⟩
  obtain ⟨hagain, z, content, hz, hfile, hiff⟩ := convert_again_iff Place.lawful Symbols.compatible_default rfl h
  cases hz.symm.trans (rfl : Zone.named? (localTo .newYork).zone = some (.place Place.newYork.name))
  refine ⟨w₁, _, h, content, hfile, (hiff _ hagain).2 ?_⟩
  exact List.forall_mem_singleton.2 fun _ => ⟨by decide +kernel, by decide +kernel⟩

open scoped Place in
/-- A wall time that the clocks of the zone leave out is written as if they showed it, and the second time as what they
show at that instant. -/
theorem convert_moves_skipped_hour : ∃ w₁ w₂ d d',
    outcome (convert "a".toList "b".toList (localTo .newYork))
        (withFile "a".toList "## A\n- t\n    @ 2024-03-10 02:30\n".toList) = (.ok d, w₁) ∧
      w₁.files.read w₁.cwd "b".toList =
        .ok (Utf8.encode "## A\n\n- t\n    @ 2024-03-10T02:30:00-05:00\n".toList) ∧
      outcome (convert "b".toList "c".toList (localTo .newYork)) w₁ = (.ok d', w₂) ∧
      w₂.files.read w₂.cwd "c".toList =
        .ok (Utf8.encode "## A\n\n- t\n    @ 2024-03-10T03:30:00-04:00\n".toList) := by
  have hread : Due.read "2024-03-10 02:30".toList (.place Place.newYork.name) =
      .ok (some { wall := ⟨63845634600000000, by decide⟩, zone := some (.place Place.newYork.name) }) := by
    decide +kernel
  have hread' : Due.read "2024-03-10T02:30:00-05:00".toList (.place Place.newYork.name) =
      .ok (some { wall := ⟨63845634600000000, by decide⟩, zone := some (.written { micros := -18000000000 }) }) := by
    decide +kernel
  have hparse : Document.parse "## A\n- t\n    @ 2024-03-10 02:30\n".toList {} (.place Place.newYork.name) = _ :=
    Layout.parse_of_scan_due "A".toList "t".toList (by decide +kernel) hread
  have hparse' :
      Document.parse "## A\n\n- t\n    @ 2024-03-10T02:30:00-05:00\n".toList {} (.place Place.newYork.name) = _ :=
    Layout.parse_of_scan_due "A".toList "t".toList (by decide +kernel) hread'
  obtain ⟨w₁, h, hfile, hw⟩ : ∃ w₁,
      outcome (convert "a".toList "b".toList (localTo .newYork))
          (withFile "a".toList "## A\n- t\n    @ 2024-03-10 02:30\n".toList) = (.ok _, w₁) ∧
        w₁.files.read w₁.cwd "b".toList =
          .ok (Utf8.encode "## A\n\n- t\n    @ 2024-03-10T02:30:00-05:00\n".toList) ∧ Writable w₁ "c".toList :=
    ⟨_, outcome_convert.2 ⟨_, _,
      outcome_readDocument.2 ⟨_, _, .place Place.newYork.name, rfl, Utf8.decode_encode _, rfl, hparse, rfl⟩,
      outcome_writeDocument.2 ⟨.place Place.newYork.name, _, _, _, rfl, by decide +kernel, rfl, rfl, rfl⟩, rfl⟩,
      rfl, _, _, [], rfl, rfl⟩
  obtain ⟨w₂, h', hfile'⟩ : ∃ w₂, outcome (convert "b".toList "c".toList (localTo .newYork)) w₁ = (.ok _, w₂) ∧
      w₂.files.read w₂.cwd "c".toList =
        .ok (Utf8.encode "## A\n\n- t\n    @ 2024-03-10T03:30:00-04:00\n".toList) :=
    exists_outcome_convert hfile rfl hparse' (by decide +kernel) hw
  exact ⟨w₁, w₂, _, _, h, hfile, h', hfile'⟩

end Taskbook.Session
