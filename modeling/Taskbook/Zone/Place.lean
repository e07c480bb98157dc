/-
An atlas of a few places, to run the program with where no zone database is at hand. The rules are
those of the present and of the time before 1800, which they take to last until 1840; what the
clocks of these places did in between is not in it.
-/
import Taskbook.Zone.Seasons

namespace Taskbook

open Calendar

/-- The places of the atlas. -/
inductive Place
  | utc
  | etcUtc
  | twoEast
  | fiveWest
  | kolkata
  | kathmandu
  | kiritimati
  | newYork
  | stJohns
  | london
  | lordHowe
  deriving DecidableEq, Repr

namespace Place

/-- Every place. -/
def all : List Place :=
  [utc, etcUtc, twoEast, fiveWest, kolkata, kathmandu, kiritimati, newYork, stJohns, london,
    lordHowe]

/-- The name of a place in the zone database. -/
def name : Place → Text
  | utc => "UTC".toList
  | etcUtc => "Etc/UTC".toList
  | twoEast => "Etc/GMT-2".toList
  | fiveWest => "Etc/GMT+5".toList
  | kolkata => "Asia/Kolkata".toList
  | kathmandu => "Asia/Kathmandu".toList
  | kiritimati => "Pacific/Kiritimati".toList
  | newYork => "America/New_York".toList
  | stJohns => "America/St_Johns".toList
  | london => "Europe/London".toList
  | lordHowe => "Australia/Lord_Howe".toList

/-- Whole seconds as a shift. -/
private def seconds (s : Int)
    (h : -(microsPerDay : Int) < s * 1000000 ∧ s * 1000000 < (microsPerDay : Int) := by decide) :
    Shift :=
  ⟨s * 1000000, h.1, h.2⟩

/-- A place with one shift for all times. -/
private def always (s : Shift) : Seasons := { mean := s, standard := s }

/-- The daylight time of most of North America, from March to November. -/
private def american (s : Shift) : Daylight :=
  { shift := s, starts := ⟨3, 8, { hour := 2 }⟩, stops := ⟨11, 1, { hour := 2 }⟩ }

/-- The times that a place keeps. -/
def seasons : Place → Seasons
  | utc | etcUtc => always Shift.zero
  | twoEast => always (seconds 7200)
  | fiveWest => always (seconds (-18000))
  | kolkata => { mean := seconds 21208, standard := seconds 19800 }
  | kathmandu => { mean := seconds 20476, standard := seconds 20700 }
  | kiritimati => { mean := seconds (-37760), standard := seconds 50400 }
  | newYork =>
    { mean := seconds (-17762), standard := seconds (-18000),
      daylight := some (american (seconds (-14400))) }
  | stJohns =>
    { mean := seconds (-12652), standard := seconds (-12600),
      daylight := some (american (seconds (-9000))) }
  | london =>
    { mean := seconds (-75), standard := Shift.zero,
      daylight := some
        { shift := seconds 3600, starts := ⟨3, 25, { hour := 1 }⟩,
          stops := ⟨10, 25, { hour := 2 }⟩ } }
  | lordHowe =>
    { mean := seconds 38180, standard := seconds 37800,
      daylight := some
        { shift := seconds 39600, starts := ⟨10, 1, { hour := 2 }⟩,
          stops := ⟨4, 1, { hour := 2 }⟩ } }

/-- The place with this name. -/
def ofName? (t : Text) : Option Place := all.find? fun p => p.name == t

/-- The atlas of these places. -/
scoped instance atlas : Atlas where
  rule? t := (ofName? t).map fun p => p.seasons.rule

end Place

end Taskbook
