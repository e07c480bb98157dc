/-
Runs of commands. A check and a listing that find a document show it and leave the files. What a conversion writes is
read as a document that is shown in the same way, so a check and a listing of the file it wrote show what they have
shown of the file it read.
-/
import Taskbook.Proofs.Command.Listing
import Taskbook.Proofs.Session.LocalConversion

namespace Taskbook.Command

open Session

variable {o : Options} {files files' : FileSystem} {cwd : Path} {path : Text} {z : Zone} {d : Document} {u : Text}

/-! ## Reports of runs -/

theorem execute_of_outcome [Atlas] {r : Except Failure Unit} {w : World}
    (h : outcome (perform o) { files, cwd } = (r, w)) :
    (Request.run o).execute files cwd = (Report.of o r w, w.files) := by
  show (match outcome (perform o) { files, cwd } with | (result, w) => (Report.of o result w, w.files)) = _
  rw [h]

/-- The exit status tells whether the command came to its end. -/
theorem Report.exit_of {r : Except Failure Unit} {w : World} : (Report.of o r w).exit = 0 ↔ r = .ok () := by
  unfold Report.of
  rcases r with f | ⟨⟩
  · dsimp only
    split <;> simp
  · simp

/-! ## Commands that show a document -/

/-- In these files the path is read as this document, and its floating dues are placed in this zone. -/
def Holds [Atlas] (o : Options) (files : FileSystem) (cwd : Path) (path : Text) (z : Zone) (d : Document) : Prop :=
  ∃ content t, files.read cwd path = .ok content ∧ Utf8.decode content = .ok t ∧
    Zone.named? o.zone = some z ∧ Document.parse t o.settings.symbols z = .ok d

/-- A check or a listing reads its document and shows it. -/
theorem outcome_perform [Atlas] {w : World} (ha : o.action ≠ .convert) (hi : o.input = some path)
    (hd : Holds o w.files w.cwd path z d) (hu : Shows (display o.action o.settings.symbols (.of o.localTimes z) d) u) :
    ∃ log, outcome (perform o) w = (.ok (), { w with log, shown := w.shown ++ u }) := by
  obtain ⟨content, t, hfile, ht, hz, hparse⟩ := hd
  have hread : outcome (readDocument path o.settings) w = (.ok d, _) :=
    outcome_readDocument.2 ⟨content, t, z, hfile, ht, hz, hparse, rfl⟩
  refine ⟨w.log ++ [.read t.length path] ++ [.parsed d.length (Document.tasks d).length], ?_⟩
  unfold perform
  rw [hi]
  refine outcome_bind_ok.2 ⟨path, w, rfl, ?_⟩
  cases hact : o.action with
  | convert => exact absurd hact ha
  | check =>
    rw [hact] at hu
    exact outcome_bind_ok.2 ⟨d, _, hread, hu _⟩
  | list showDone =>
    rw [hact] at hu
    exact outcome_bind_ok.2 ⟨d, _, hread, outcome_bind_ok.2 ⟨z, _, outcome_zoneOf.2 ⟨hz, rfl⟩, hu _⟩⟩

/-- Such a command succeeds, writes what it shows of the document and leaves the files. -/
theorem execute_shows [Atlas] (ha : o.action ≠ .convert) (hi : o.input = some path) (hd : Holds o files cwd path z d)
    (hu : Shows (display o.action o.settings.symbols (.of o.localTimes z) d) u) :
    ∃ report : Report, (Request.run o).execute files cwd = (report, files) ∧ report.exit = 0 ∧ report.out = u ∧
      (o.verbose = false → report = { out := u }) := by
  obtain ⟨log, h⟩ := outcome_perform (w := { files, cwd }) ha hi hd hu
  refine ⟨_, execute_of_outcome h, rfl, rfl, ?_⟩
  intro hverbose
  unfold Report.of
  rw [hverbose]
  rfl

/-! ## Behind a conversion -/

theorem convert_of_execute [Atlas] {report : Report} (ha : o.action = .convert)
    (h : (Request.run o).execute files cwd = (report, files')) (hexit : report.exit = 0) :
    ∃ source target d w, o.input = some source ∧ o.output = some target ∧
      outcome (convert source target o.settings) { files, cwd } = (.ok d, w) ∧ w.files = files' := by
  rcases hrun : outcome (perform o) { files, cwd } with ⟨r, w⟩
  rw [execute_of_outcome hrun] at h
  cases h
  cases Report.exit_of.1 hexit
  unfold perform at hrun
  obtain ⟨source, w₁, hsource, hrun⟩ := outcome_bind_ok.1 hrun
  rw [ha] at hrun
  dsimp only at hrun
  rcases hi : o.input with _ | path <;> rw [hi] at hsource <;> cases hsource
  unfold performConvert at hrun
  rcases ho : o.output with _ | target <;> rw [ho] at hrun <;> dsimp only at hrun
  · -- without a path to write to the last step fails
    obtain ⟨d, w₂, -, hrun⟩ := outcome_bind_ok.1 hrun
    obtain ⟨_, w₃, -, hrun⟩ := outcome_bind_ok.1 hrun
    cases hrun
  · obtain ⟨d, w₂, hconvert, hsay⟩ := outcome_bind_ok.1 hrun
    cases hsay
    exact ⟨source, target, d, w₂, rfl, rfl, hconvert, rfl⟩

/-- A conversion in universal time cannot be seen in what the other commands say. Where it succeeds, a check and a
listing with the same options, be it with the complete subtasks or without, succeed on the file that it wrote, in the
files as they are then, and write what they write on the file that it read, in the files as they were; this also where
it is the same file. They change no file themselves. Only the log, if there is one, tells the files apart. -/
theorem execute_after_convert [Atlas] {report : Report} (hl : o.localTimes = false) (hconvert : o.action = .convert)
    (h : (Request.run o).execute files cwd = (report, files')) (hexit : report.exit = 0) {a : Action}
    (ha : a ≠ .convert) :
    ∃ before after : Report, (Request.run { o with action := a }).execute files cwd = (before, files) ∧
      (Request.run { o with action := a, input := o.output }).execute files' cwd = (after, files') ∧
      before.exit = 0 ∧ after.exit = 0 ∧ after.out = before.out ∧ (o.verbose = false → after = before) := by
  obtain ⟨source, target, d, w, hi, ho, hrun, rfl⟩ := convert_of_execute hconvert h hexit
  obtain ⟨content, t, z, u, hfile, ht, hz, hparse, hu, hwritten, -⟩ := convert_spec hrun
  rw [cwd_of_convert hrun] at hwritten
  obtain ⟨hsound, hne⟩ := Document.sound_of_parse hparse
  have hstyle : TimeStyle.of o.localTimes z = .universal := by
    rw [hl]
    rfl
  have hlegible : (TimeStyle.of o.localTimes z).zone.Legible := hstyle ▸ Zone.legible_utc
  obtain ⟨d', hparse', halike⟩ := Document.exists_echo hlegible Symbols.compatible_default hsound hne hu
  -- the dues of the two documents are written alike, so they are shown alike
  have hsame :
      d.Alike (fun m m' => (TimeStyle.of o.localTimes z).write m = (TimeStyle.of o.localTimes z).write m') d' :=
    halike.imp fun m _ m' hm => ((hm.spec hlegible).2 hstyle).symm
  obtain ⟨shown, hshown⟩ : ∃ shown, Shows (display a o.settings.symbols (.of o.localTimes z) d) shown :=
    shows_display ((Layout.decidedBy_render d).ok hu) a
  have hshown' := hshown
  rw [display_congr hsame] at hshown'
  obtain ⟨before, hbefore, hexit, hout, hquiet⟩ := execute_shows (o := { o with action := a }) ha hi
    ⟨content, t, hfile, ht, hz, hparse⟩ hshown
  obtain ⟨after, hafter, hexit', hout', hquiet'⟩ := execute_shows (o := { o with action := a, input := o.output }) ha ho
    ⟨_, u, hwritten, Utf8.decode_encode u, hz, hparse' z⟩ hshown'
  refine ⟨before, after, hbefore, hafter, hexit, hexit', hout'.trans hout.symm, ?_⟩
  intro hverbose
  exact (hquiet' hverbose).trans (hquiet hverbose).symm

/-- Options to convert a file of a place into itself. -/
private def overwriting (p : Place) : Options :=
  { input := some "a".toList, output := some "a".toList, zone := some p.name }

/-- A file with a day. -/
private def dated : World :=
  { files := { entries := [(["a".toList], .file (Utf8.encode "## A\n- t\n    @ 2024-01-02\n".toList))] } }

open scoped Place in
/-- A file with a day of a zone is converted into itself and listed. -/
theorem execute_after_convert_of_overwriting :
    (overwriting .newYork).localTimes = false ∧ (overwriting .newYork).action = .convert ∧ Action.list true ≠ .convert ∧
      ∃ report files' before after,
        (Request.run (overwriting .newYork)).execute dated.files [] = (report, files') ∧ report.exit = 0 ∧
        (Request.run { overwriting .newYork with action := .list true }).execute dated.files [] =
          (before, dated.files) ∧
        (Request.run { overwriting .newYork with action := .list true }).execute files' [] = (after, files') ∧
        after = before := by
  have hread : Due.read "2024-01-02".toList (.place Place.newYork.name) =
      .ok (some { wall := ⟨63839750400000000, by decide⟩, zone := some (.place Place.newYork.name) }) := by
    decide +kernel
  have hparse : Document.parse "## A\n- t\n    @ 2024-01-02\n".toList {} (.place Place.newYork.name) = _ :=
    Layout.parse_of_scan_due "A".toList "t".toList (by decide +kernel) hread
  have hrender : Document.render [⟨"A".toList, [⟨"t".toList,
      some { wall := ⟨63839750400000000, by decide⟩, zone := some (.place Place.newYork.name) }, none, []⟩]⟩] {}
        .universal = .ok "## A\n\n- t\n    @ 2024-01-02T05:00:00Z\n".toList := by decide +kernel
  obtain ⟨w, hconvert, -⟩ : ∃ w, outcome (convert "a".toList "a".toList (overwriting .newYork).settings) dated =
      (.ok _, w) ∧ _ :=
    exists_outcome_convert rfl rfl hparse hrender ⟨_, _, [], rfl, rfl⟩
  have hperform : outcome (perform (overwriting .newYork)) dated = (.ok (), _) :=
    outcome_bind_ok.2 ⟨"a".toList, _, rfl, outcome_bind_ok.2 ⟨_, _, hconvert, rfl⟩⟩
  have hrun := execute_of_outcome hperform
  have hlist : Action.list true ≠ .convert := by decide
  obtain ⟨before, after, hbefore, hafter, -, -, -, hsame⟩ :=
    execute_after_convert rfl rfl hrun rfl hlist
  exact ⟨rfl, rfl, hlist, _, _, before, after, hrun, rfl, hbefore, hafter, hsame rfl⟩

end Taskbook.Command
