/-
How commands fail. A command reads its document and then does what it is for; whatever goes wrong on the way is told
to the user in one line, but for a few causes, which leave the command where they arise. Each of these is described by
the options and the files alone.
-/
import Taskbook.Proofs.Command.Runs
import Taskbook.Proofs.Session.Failures

namespace Taskbook.Command

open Session Calendar

section

variable [Atlas] {o : Options} {files : FileSystem} {cwd : Path} {path : Text} {z : Zone} {d : Document} {f : Failure}

/-! ## The document first -/

/-- What a command does once its document is read. -/
def finish (o : Options) (source : Text) (d : Document) : Session Unit :=
  match o.action, o.output with
  | .convert, some target => do
    writeDocument target d o.settings
    note (.converted source target)
    say ("Converted ".toList ++ Text.digits d.length ++ " list(s): ".toList ++ source ++ " -> ".toList ++ target)
  | .convert, none => do
    let _ ← render d o.settings
    throw .noPath
  | .check, _ => say (counts d)
  | .list showDone, _ => do
    let z ← zoneOf o.settings.zone
    d.forM (showList o.settings.symbols showDone (.of o.localTimes z))

/-- Every command reads its document before it does anything else. -/
theorem perform_eq (o : Options) :
    perform o = pathOf o.input >>= fun source => readDocument source o.settings >>= finish o source := by
  unfold perform finish
  congr 1
  funext source
  cases o.action with
  | convert =>
    unfold performConvert convert
    cases o.output <;> simp
  | _ => rfl

/-! ## What a listing shows -/

section Listing

variable {s : Symbols} {showDone : Bool} {style : TimeStyle}

theorem decidedBy_of_shows {m : Session Unit} {t : Text} (h : Shows m t) : DecidedBy style [] m :=
  decidedBy_nil fun w => ⟨(), _, h w⟩

theorem decidedBy_showTask (number : Nat) (t : Task) :
    DecidedBy style t.due.toList (showTask showDone style number t) := by
  have hline : Layout.DecidedBy style t.due.toList (taskLine number t style) := by
    rw [taskLine_eq]
    exact (Layout.decidedBy_elim t.due _ _).map _
  obtain ⟨items, hitems⟩ := @shows_forM _ (fun st : Subtask => say ("       ".toList ++
    Text.spaced (Subtask.mark st.complete) st.name)) (t.subtasks.filter fun st => showDone || !st.complete)
    fun st _ => ⟨_, shows_say _⟩
  have h := (decidedBy_settle hline).bind fun line => decidedBy_of_shows ((shows_say line).bind hitems)
  rwa [List.append_nil] at h

theorem decidedBy_showList (l : TaskList) : DecidedBy style l.dues (showList s showDone style l) := by
  have hnote : DecidedBy style [] (emptyNote l) := by
    unfold emptyNote
    split
    · exact decidedBy_of_shows (shows_say _)
    · exact decidedBy_of_shows shows_pure
  have htasks : DecidedBy style ((l.tasks.zipIdx 1).flatMap fun x => x.1.due.toList)
      ((l.tasks.zipIdx 1).forM fun x => showTask showDone style x.2 x.1) :=
    decidedBy_forM fun x _ => decidedBy_showTask x.2 x.1
  have hdues : (l.tasks.zipIdx 1).flatMap (fun x => x.1.due.toList) = l.dues := by
    conv => rhs; rw [TaskList.dues, ← List.zipIdx_map_fst 1 l.tasks, List.flatMap_map]
  rw [hdues] at htasks
  rw [showList_eq]
  exact (decidedBy_of_shows (shows_say _)).bind fun _ => hnote.bind fun _ => htasks

theorem decidedBy_showAll (d : Document) : DecidedBy style d.dues (d.forM (showList s showDone style)) :=
  decidedBy_forM fun l _ => decidedBy_showList l

end Listing

/-! ## What escapes -/

/-- A conversion comes as far as writing: its document is read and has a text. -/
def Ready (o : Options) (files : FileSystem) (cwd : Path) : Prop :=
  o.action = .convert ∧ ∃ path z d, o.input = some path ∧ Holds o files cwd path z d ∧
    ∀ m ∈ d.dues, m.Fits (TimeStyle.of o.localTimes z).zone

/-- The failures that leave a command with these options. -/
inductive Escapes (o : Options) (files : FileSystem) (cwd : Path) : Failure → Prop
  /-- The option for the input is given without a path. -/
  | noInput : o.input = none → Escapes o files cwd .noPath
  /-- A null character is in the path of the input. -/
  | nullInput {path : Text} : o.input = some path → FileSystem.HasNull path → Escapes o files cwd (.path .null path)
  /-- The input is a file whose octets are no text. -/
  | notText {path : Text} {content : Octets} {fault : Utf8.Fault} : o.input = some path →
      files.read cwd path = .ok content → Utf8.decode content = .error fault → Escapes o files cwd (.notText fault)
  /-- The system is asked to place a due of the first day of the calendar. -/
  | firstDay {path : Text} {content : Octets} {t : Text} : o.input = some path →
      files.read cwd path = .ok content → Utf8.decode content = .ok t → Zone.named? o.zone = some .system →
      Layout.StopsOnFirstDay o.settings.symbols t → Escapes o files cwd (.calendar (.year 0))
  /-- A due of the document cannot be shown in the zone in which the command writes it. -/
  | misfit {path : Text} {z : Zone} {d : Document} {m : Moment} : o.action ≠ .check → o.input = some path →
      Holds o files cwd path z d → m ∈ d.dues → ¬ m.Fits (TimeStyle.of o.localTimes z).zone →
      Escapes o files cwd (.calendar .overflow)
  /-- The option for the output is given without a path. -/
  | noOutput : Ready o files cwd → o.output = none → Escapes o files cwd .noPath
  /-- A null character is in the path of a directory that has to be made for the output. -/
  | nullParent {target p : Text} : Ready o files cwd → o.output = some target →
      (files.makeParents cwd target).2 = some (.path .null p) → Escapes o files cwd (.path .null p)
  /-- A null character is in the path of the output. -/
  | nullOutput {target : Text} : Ready o files cwd → o.output = some target →
      (files.makeParents cwd target).2 = none → FileSystem.HasNull target → Escapes o files cwd (.path .null target)

theorem Escapes.isReported (h : Escapes o files cwd f) : f.isReported = false := by
  cases h <;> rfl

/-! ## Each failure is told or escapes -/

theorem Holds.named (h : Holds o files cwd path z d) : Zone.named? o.zone = some z := by
  obtain ⟨_, _, -, -, hz, -⟩ := h
  exact hz

theorem Holds.zone_of_mem_dues (h : Holds o files cwd path z d) : ∀ m ∈ d.dues, m.zone ≠ none := by
  obtain ⟨_, _, -, -, -, hparse⟩ := h
  exact fun m hm => (Document.sound_of_parse hparse).1.zone_of_mem_dues hm

/-- Before its document is read, a command can fail for the file, the text, the zone or the document. -/
theorem told_or_escapes_of_read (hi : o.input = some path) (h : Fails (readDocument path o.settings) { files, cwd } f) :
    f.Told ∨ Escapes o files cwd f := by
  rcases fails_readDocument.1 h with ⟨fault, hread, rfl⟩ | ⟨content, hread, ⟨fault, ht, rfl⟩ | ⟨t, ht, hzone⟩⟩
  · rcases Failure.told_path fault path with htold | rfl
    · exact .inl htold
    · exact .inr (.nullInput hi (FileSystem.read_eq_null_iff.1 hread))
  · exact .inr (.notText hi hread ht)
  · rcases hzone with ⟨-, rfl⟩ | ⟨z, hz, hparse⟩
    · exact .inl (Failure.told_unknownZone _)
    · rcases Layout.told_of_parse hparse with htold | ⟨rfl, rfl, hday⟩
      · exact .inl htold
      · exact .inr (.firstDay hi hread ht hz hday)

/-- The document has no text exactly if one of its dues cannot be shown. -/
theorem Holds.fails_render_iff {w : World} (hd : Holds o files cwd path z d) : Fails (render d o.settings) w f ↔
    f = .calendar .overflow ∧ ∃ m ∈ d.dues, ¬ m.Fits (TimeStyle.of o.localTimes z).zone :=
  Session.fails_render_iff hd.named hd.zone_of_mem_dues

theorem Holds.fits_of_render {w w' : World} {u : Text} (hd : Holds o files cwd path z d)
    (h : outcome (render d o.settings) w = (.ok u, w')) : ∀ m ∈ d.dues, m.Fits (TimeStyle.of o.localTimes z).zone := by
  intro m hm
  by_contra hfits
  exact not_fails_of_outcome h (hd.fails_render_iff.2 ⟨rfl, m, hm, hfits⟩)

/-- Writing a document fails for a due or for the path. -/
theorem told_or_escapes_of_write {target : Text} {log : List Event} (ha : o.action = .convert)
    (hi : o.input = some path) (ho : o.output = some target) (hd : Holds o files cwd path z d)
    (h : Fails (writeDocument target d o.settings) { files, cwd, log } f) : f.Told ∨ Escapes o files cwd f := by
  rcases fails_writeDocument.1 h with hrender | ⟨u, w₁, hrender, hpath⟩
  · obtain ⟨rfl, m, hm, hfits⟩ := hd.fails_render_iff.1 hrender
    exact .inr (.misfit (by simp [ha]) hi hd hm hfits)
  have hready : Ready o files cwd := ⟨ha, path, z, d, hi, hd, hd.fits_of_render hrender⟩
  obtain ⟨-, -, -, rfl⟩ := outcome_render.1 hrender
  rcases hpath with hmake | ⟨made, fault, hmake, hwrite, rfl⟩
  · obtain ⟨fault, p, rfl⟩ := FileSystem.exists_path_of_makeDirectories hmake
    rcases Failure.told_path fault p with htold | rfl
    · exact .inl htold
    · exact .inr (.nullParent hready ho hmake)
  · rcases Failure.told_path fault target with htold | rfl
    · exact .inl htold
    · exact .inr (.nullOutput hready ho (by rw [hmake]) (FileSystem.write_eq_null_iff.1 hwrite))

/-- Once its document is read, a command can fail for a due, or for its output. -/
theorem told_or_escapes_of_finish {log : List Event} (hi : o.input = some path) (hd : Holds o files cwd path z d)
    (h : Fails (finish o path d) { files, cwd, log } f) : f.Told ∨ Escapes o files cwd f := by
  unfold finish at h
  cases ha : o.action with
  | convert =>
    rcases ho : o.output with _ | target <;> rw [ha, ho] at h
    · rcases fails_bind.1 h with hrender | ⟨u, w₁, hrender, hthrow⟩
      · obtain ⟨rfl, m, hm, hfits⟩ := hd.fails_render_iff.1 hrender
        exact .inr (.misfit (by simp [ha]) hi hd hm hfits)
      · cases fails_throw.1 hthrow
        exact .inr (.noOutput ⟨ha, path, z, d, hi, hd, hd.fits_of_render hrender⟩ ho)
    · rcases fails_bind.1 h with hwrite | ⟨_, w₁, -, hrest⟩
      · exact told_or_escapes_of_write ha hi ho hd hwrite
      · -- the log and the last line cannot fail
        exact absurd hrest (not_fails_of_outcome (a := ()) rfl)
  | check =>
    rw [ha] at h
    exact absurd h (not_fails_of_outcome (shows_say _ _))
  | list showDone =>
    rw [ha] at h
    rcases fails_bind.1 h with hzone | ⟨z', w₁, hzone, hshow⟩
    · have hnone := (fails_zoneOf.1 hzone).1
      cases hd.named.symm.trans hnone
    · obtain ⟨hz', rfl⟩ := outcome_zoneOf.1 hzone
      cases hd.named.symm.trans hz'
      obtain ⟨rfl, m, hm, hfits⟩ := ((decidedBy_showAll d).fails_iff hd.zone_of_mem_dues).1 hshow
      exact .inr (.misfit (by simp [ha]) hi hd hm hfits)

theorem told_or_escapes (h : Fails (perform o) { files, cwd } f) : f.Told ∨ Escapes o files cwd f := by
  rw [perform_eq] at h
  rcases fails_bind.1 h with hpath | ⟨path, w₁, hpath, h⟩
  · rcases hi : o.input with _ | path <;> rw [hi] at hpath
    · cases fails_throw.1 hpath
      exact .inr (.noInput hi)
    · exact absurd hpath (not_fails_of_outcome (outcome_pure path _))
  · rcases hi : o.input with _ | path' <;> rw [hi] at hpath <;> cases hpath
    rcases fails_bind.1 h with hread | ⟨d, w₂, hread, hfinish⟩
    · exact told_or_escapes_of_read hi hread
    · obtain ⟨content, t, z, hfile, ht, hz, hparse, rfl⟩ := outcome_readDocument.1 hread
      exact told_or_escapes_of_finish hi ⟨content, t, hfile, ht, hz, hparse⟩ hfinish

/-! ## What escapes does so -/

theorem fails_of_read (hi : o.input = some path) (h : Fails (readDocument path o.settings) { files, cwd } f) :
    Fails (perform o) { files, cwd } f := by
  rw [perform_eq, hi]
  exact fails_bind.2 (.inr ⟨path, _, rfl, fails_bind.2 (.inl h)⟩)

theorem fails_of_finish (hi : o.input = some path) (hd : Holds o files cwd path z d)
    (h : ∀ log, Fails (finish o path d) { files, cwd, log } f) : Fails (perform o) { files, cwd } f := by
  obtain ⟨content, t, hfile, ht, hz, hparse⟩ := hd
  have hread : outcome (readDocument path o.settings) { files, cwd } = (.ok d, _) :=
    outcome_readDocument.2 ⟨content, t, z, hfile, ht, hz, hparse, rfl⟩
  rw [perform_eq, hi]
  exact fails_bind.2 (.inr ⟨path, _, rfl, fails_bind.2 (.inr ⟨d, _, hread, h _⟩)⟩)

theorem Holds.exists_render (hd : Holds o files cwd path z d)
    (hfits : ∀ m ∈ d.dues, m.Fits (TimeStyle.of o.localTimes z).zone) (w : World) :
    ∃ u, outcome (render d o.settings) w = (.ok u, w) := by
  rcases h : outcome (render d o.settings) w with ⟨g | u, w'⟩
  · obtain ⟨-, m, hm, hno⟩ := hd.fails_render_iff.1 ⟨w', h⟩
    exact absurd (hfits m hm) hno
  · obtain ⟨-, -, -, rfl⟩ := outcome_render.1 h
    exact ⟨u, rfl⟩

/-- A due that cannot be shown ends every command that writes dues. -/
theorem fails_finish_of_misfit {w : World} {m : Moment} (ha : o.action ≠ .check) (hd : Holds o files cwd path z d)
    (hm : m ∈ d.dues) (hfits : ¬ m.Fits (TimeStyle.of o.localTimes z).zone) :
    Fails (finish o path d) w (.calendar .overflow) := by
  have hrender : Fails (render d o.settings) w (.calendar .overflow) :=
    hd.fails_render_iff.2 ⟨rfl, m, hm, hfits⟩
  unfold finish
  cases hact : o.action with
  | convert =>
    rcases o.output with _ | target
    · exact fails_bind.2 (.inl hrender)
    · exact fails_bind.2 (.inl (fails_writeDocument.2 (.inl hrender)))
  | check => exact absurd hact ha
  | list showDone =>
    refine fails_bind.2 (.inr ⟨z, w, outcome_zoneOf.2 ⟨hd.named, rfl⟩, ?_⟩)
    exact ((decidedBy_showAll d).fails_iff hd.zone_of_mem_dues).2 ⟨rfl, m, hm, hfits⟩

/-- A conversion that comes as far as writing fails as the writing of a text does. -/
theorem Ready.fails {target : Text} (h : Ready o files cwd) (ho : o.output = some target)
    (hpath : (files.makeParents cwd target).2 = some f ∨ ∀ u : Text, ∃ made fault,
      files.makeParents cwd target = (made, none) ∧ made.write cwd target (Utf8.encode u) = .error fault ∧
      f = .path fault target) : Fails (perform o) { files, cwd } f := by
  obtain ⟨ha, path, z, d, hi, hd, hfits⟩ := h
  refine fails_of_finish hi hd fun log => ?_
  obtain ⟨u, hu⟩ := hd.exists_render hfits { files, cwd, log }
  unfold finish
  rw [ha, ho]
  exact fails_bind.2 (.inl (fails_writeDocument.2 (.inr ⟨u, _, hu, hpath.imp_right fun hwrite => hwrite u⟩)))

theorem Escapes.fails (h : Escapes o files cwd f) : Fails (perform o) { files, cwd } f := by
  cases h with
  | noInput hi =>
    rw [perform_eq, hi]
    exact fails_bind.2 (.inl (fails_throw.2 rfl))
  | nullInput hi hnull =>
    exact fails_of_read hi (fails_readDocument.2 (.inl ⟨.null, FileSystem.read_eq_null_iff.2 hnull, rfl⟩))
  | notText hi hread ht =>
    exact fails_of_read hi (fails_readDocument.2 (.inr ⟨_, hread, .inl ⟨_, ht, rfl⟩⟩))
  | firstDay hi hread ht hz hday =>
    exact fails_of_read hi (fails_readDocument.2 (.inr ⟨_, hread, .inr ⟨_, ht, .inr
      ⟨_, hz, Layout.parse_of_stopsOnFirstDay hday⟩⟩⟩))
  | misfit ha hi hd hm hfits => exact fails_of_finish hi hd fun log => fails_finish_of_misfit ha hd hm hfits
  | noOutput hready ho =>
    obtain ⟨ha, path, z, d, hi, hd, hfits⟩ := hready
    refine fails_of_finish hi hd fun log => ?_
    unfold finish
    rw [ha, ho]
    obtain ⟨u, hu⟩ := hd.exists_render hfits _
    exact fails_bind.2 (.inr ⟨u, _, hu, fails_throw.2 rfl⟩)
  | nullParent hready ho hmake => exact hready.fails ho (.inl hmake)
  | nullOutput hready ho hmake hnull =>
    refine hready.fails ho (.inr fun u => ⟨_, .null, Prod.ext rfl hmake, FileSystem.write_eq_null_iff.2 hnull, rfl⟩)

/-! ## Reports of failures -/

/-- The lines of a log, if the log is asked for. -/
def logText (o : Options) (events : List Event) : Text := if o.verbose then events.flatMap logLines else []

omit [Atlas] in
theorem Report.of_ok (o : Options) (w : World) :
    Report.of o (.ok ()) w = { out := w.shown, err := logText o w.log } := rfl

omit [Atlas] in
theorem Report.of_told (h : f.Told) (o : Options) (w : World) : Report.of o (.error f) w =
    { exit := 1, out := w.shown,
      err := logText o (w.log ++ [.failed o.action.name]) ++ "error: ".toList ++ f.message ++ ['\n'] } := by
  unfold Report.of
  dsimp only
  rw [if_pos h.1]
  rfl

theorem Report.of_escapes (h : Escapes o files cwd f) (w : World) :
    Report.of o (.error f) w = { exit := 1, out := w.shown, err := logText o w.log, escaped := some f } := by
  unfold Report.of
  dsimp only
  rw [h.isReported]
  rfl

/-- Every failure ends a command as its own error, unless it is one of those that escape: for all words that are
understood as a command and all files, whatever octets are in them. What leaves the command is exactly what `Escapes`
describes. If nothing does, the command comes to its end, with nothing but the log on its second output; or the exit
status is 1, and behind the log there is one line, which has the words of the failure. -/
theorem execute_escapes_iff {words : List Text} (h : Request.ofWords words = .run o) (files : FileSystem) (cwd : Path) :
    (∀ f, (execute words files cwd).1.escaped = some f ↔ Escapes o files cwd f) ∧
      ((execute words files cwd).1.escaped = none → ∃ events,
        (execute words files cwd).1.exit = 0 ∧ (execute words files cwd).1.err = logText o events ∨
        ∃ f : Failure, (execute words files cwd).1.exit = 1 ∧ f.Told ∧
          (execute words files cwd).1.err = logText o events ++ "error: ".toList ++ f.message ++ ['\n']) := by
  rw [execute, h]
  rcases hout : outcome (perform o) { files, cwd } with ⟨g | ⟨⟩, w⟩
  · -- a command fails in one way
    have honly : ∀ {f}, Escapes o files cwd f → f = g := by
      intro f hf
      obtain ⟨w', hw'⟩ := hf.fails
      cases hout.symm.trans hw'
      rfl
    rw [execute_of_outcome hout]
    rcases told_or_escapes ⟨w, hout⟩ with htold | hescapes
    · have hno : ∀ f, ¬ Escapes o files cwd f := by
        intro f hf
        cases honly hf
        exact absurd htold.1 (by simp [hf.isReported])
      rw [Report.of_told htold]
      exact ⟨fun f => by simp [hno f], fun _ => ⟨_, .inr ⟨g, rfl, htold, rfl⟩⟩⟩
    · rw [Report.of_escapes hescapes]
      refine ⟨fun f => ?_, by simp⟩
      rw [Option.some.injEq]
      exact ⟨fun hf => hf ▸ hescapes, fun hf => (honly hf).symm⟩
  · rw [execute_of_outcome hout, Report.of_ok]
    have hno : ∀ f, ¬ Escapes o files cwd f := fun f hf => not_fails_of_outcome hout hf.fails
    exact ⟨fun f => by simp [hno f], fun _ => ⟨w.log, .inl ⟨rfl, rfl⟩⟩⟩

end

/-- A check of a file. -/
private def checkA : Options := { input := some "a".toList, action := .check }

private theorem ofWords_checkA : Request.ofWords ["-i".toList, "a".toList, "check".toList] = .run checkA := by
  decide +kernel

/-- A file of one octet that is no text. -/
private def unreadable : FileSystem := { entries := [(["a".toList], .file [0xff])] }

open scoped Place in
private theorem escapes_of_unreadable : Escapes checkA unreadable [] (.notText ⟨0xff, 0, 1, .start⟩) := by
  have hread : unreadable.read [] "a".toList = .ok [0xff] := rfl
  exact .notText rfl hread (by cbv)

open scoped Place in
/-- The octet that is no text leaves a check. -/
theorem execute_escapes_iff_of_unreadable :
    Request.ofWords ["-i".toList, "a".toList, "check".toList] = .run checkA ∧
      (execute ["-i".toList, "a".toList, "check".toList] unreadable []).1.escaped =
        some (.notText ⟨0xff, 0, 1, .start⟩) :=
  ⟨ofWords_checkA, ((execute_escapes_iff ofWords_checkA unreadable []).1 _).2 escapes_of_unreadable⟩

open scoped Place in
/-- It does so without a line of its own. -/
theorem execute_tells_nothing_of_octets :
    (execute ["-i".toList, "a".toList, "check".toList] unreadable []).1.escaped =
        some (.notText ⟨0xff, 0, 1, .start⟩) ∧
      (execute ["-i".toList, "a".toList, "check".toList] unreadable []).1.err = [] ∧
      (Failure.notText ⟨0xff, 0, 1, .start⟩).message =
        "'utf-8' codec can't decode byte 0xff in position 0: invalid start byte".toList := by
  obtain ⟨w, hw⟩ := escapes_of_unreadable.fails
  rw [execute, ofWords_checkA, execute_of_outcome hw, Report.of_escapes escapes_of_unreadable]
  exact ⟨rfl, rfl, by decide +kernel⟩

end Taskbook.Command
