/-
Which dues can be written, and how they are written once more. A moment is shown on the clocks of another zone if its
instant and what these clocks show lie in the calendar, while a moment of that very zone is written as it stands. What
is written of it is read as a shift and no longer as the zone, so the second time it is the clocks that decide.
Whichever way a moment is written, it is read back as the same instant.
-/
import Taskbook.Proofs.Due.Codec
import Taskbook.Proofs.Zone.Seasons

namespace Taskbook

open Calendar

/-! ## The ends of the calendar -/

/-- A time of the years 1 to 9999, in microseconds since their start. -/
def InCalendar (i : Int) : Prop := 0 ≤ i ∧ i < (dayCount * microsPerDay : Nat)

instance (i : Int) : Decidable (InCalendar i) := inferInstanceAs (Decidable (_ ∧ _))

theorem WallTime.inCalendar (w : WallTime) : InCalendar w.micros := by
  have hb := w.bound
  unfold InCalendar
  omega

theorem exists_ofMicros?_iff {i : Int} : (∃ w, WallTime.ofMicros? i = some w) ↔ InCalendar i := by
  simp only [WallTime.ofMicros?_eq_some_iff]
  constructor
  · rintro ⟨w, rfl⟩
    exact WallTime.inCalendar w
  · rintro ⟨h0, hb⟩
    exact ⟨⟨i.toNat, by omega⟩, Int.toNat_of_nonneg h0⟩

namespace Moment

variable [Atlas] {m m' : Moment} {z : Zone} {i : Int} {f : Fault}

theorem exists_ofInstant_iff :
    (∃ m, ofInstant i z = .ok m) ↔ InCalendar i ∧ InCalendar (i + (z.shiftAt i).micros) := by
  rw [← exists_ofMicros?_iff, ← exists_ofMicros?_iff]
  unfold ofInstant
  rcases WallTime.ofMicros? i with _ | w
  · simp
  · rcases hw : WallTime.ofMicros? (i + (z.shiftAt i).micros) with _ | w' <;> simp [hw]

theorem ofInstant_eq_error (h : ofInstant i z = .error f) : f = .overflow := by
  unfold ofInstant at h
  dsimp only at h
  split at h <;> cases h
  rfl

/-- The moment can be shown in the zone: it is a moment of that zone, or both its instant and the wall time that the
clocks of the zone show lie in the calendar. -/
def Fits (m : Moment) (z : Zone) : Prop :=
  (∃ own, m.zone = some own ∧ own.isSame z = true) ∨
    InCalendar m.instant ∧ InCalendar (m.instant + (z.shiftAt m.instant).micros)

theorem exists_moveTo_iff (hm : m.zone ≠ none) : (∃ m', m.moveTo z = .ok m') ↔ m.Fits z := by
  obtain ⟨own, hown⟩ := Option.ne_none_iff_exists'.1 hm
  have hi : m.instant = m.instantIn own := by rw [instant, hown, Option.getD_some]
  unfold moveTo Fits
  rw [hown, hi]
  dsimp only
  by_cases hsame : own.isSame z = true
  · rw [if_pos hsame]
    constructor
    · rintro -
      exact .inl ⟨own, rfl, hsame⟩
    · rintro -
      exact ⟨m, rfl⟩
  · rw [if_neg hsame, exists_ofInstant_iff]
    simp [hsame]

theorem moveTo_eq_error (hm : m.zone ≠ none) (h : m.moveTo z = .error f) : f = .overflow := by
  obtain ⟨own, hown⟩ := Option.ne_none_iff_exists'.1 hm
  unfold moveTo at h
  rw [hown] at h
  dsimp only at h
  split at h
  · cases h
  · exact ofInstant_eq_error h

/-- Two days away from both ends of the calendar no shift leads out of it. -/
theorem fits_of_between (hl : 2 * microsPerDay ≤ m.wall.micros)
    (hg : m.wall.micros + 2 * microsPerDay ≤ dayCount * microsPerDay) (z : Zone) : m.Fits z := by
  right
  have hown := (m.shiftIn (m.zone.getD .system)).least
  have hown' := (m.shiftIn (m.zone.getD .system)).greatest
  have hz := (z.shiftAt m.instant).least
  have hz' := (z.shiftAt m.instant).greatest
  have hi : m.instant = m.wall.micros - (m.shiftIn (m.zone.getD .system)).micros := rfl
  unfold InCalendar
  omega

end Moment

/-! ## What can be written -/

namespace TimeStyle

variable [Atlas] {style : TimeStyle} {m : Moment} {f : Fault}

/-- How the moment is written that the clocks of that zone show. -/
def text : TimeStyle → Moment → Text
  | universal, u => u.wall.isoText ++ ['Z']
  | zoned _, u => u.isoText

theorem write_eq (style : TimeStyle) (m : Moment) : style.write m = (m.moveTo style.zone).map style.text := by
  cases style <;> rfl

theorem exists_write_iff (hm : m.zone ≠ none) : (∃ t, style.write m = .ok t) ↔ m.Fits style.zone := by
  rw [← Moment.exists_moveTo_iff hm, write_eq]
  rcases m.moveTo style.zone with g | u <;> simp [Except.map]

theorem write_eq_error (hm : m.zone ≠ none) (h : style.write m = .error f) : f = .overflow := by
  rw [write_eq] at h
  rcases hu : m.moveTo style.zone with g | u <;> rw [hu] at h <;> cases h
  exact Moment.moveTo_eq_error hm hu

end TimeStyle

/-! ## Writing once more -/

/-- What is written of the first moment is read, in every zone, as the second one. -/
def TimeStyle.Echoes [Atlas] (style : TimeStyle) (m m' : Moment) : Prop :=
  m.zone ≠ none ∧ ∃ t, style.write m = .ok t ∧ ∀ z, Due.read t z = .ok (some m')

/-- The clocks of the zone show the moment as it stands: its instant lies in the calendar, and the shift in force then
is the one that the moment is read with. -/
def Moment.ShownBy [Atlas] (m : Moment) (z : Zone) : Prop :=
  InCalendar (m.instantIn z) ∧ z.shiftAt (m.instantIn z) = m.shiftIn z

namespace Due

variable {w w' : WallTime} {sh sh' : Shift} {style : TimeStyle} {z : Zone} {m m' : Moment} {t : Text} {i : Int}

theorem ofWritten_injective : Function.Injective Zone.ofWritten := by
  intro a b h
  unfold Zone.ofWritten at h
  split at h <;> split at h
  · rename_i ha hb
    rw [ha, hb]
  · cases h
  · cases h
  · cases h
    rfl

/-- What is read of the text of a wall time with a shift tells them apart. -/
theorem eq_of_read_stamp (ht : sh.Tellable) (ht' : sh'.Tellable) (h : read (stamp w sh) z = .ok (some m))
    (h' : read (stamp w' sh') z = .ok (some m)) : w = w' ∧ sh = sh' := by
  rw [read_stamp w ht] at h
  rw [read_stamp w' ht'] at h'
  simp only [Except.ok.injEq, Option.some.injEq] at h h'
  rw [← h', Moment.mk.injEq, Option.some.injEq] at h
  exact ⟨h.1, ofWritten_injective h.2.2⟩

theorem ofWritten_isSame (h : (Zone.ofWritten sh).isSame z = true) : sh = .zero ∧ z = .utc := by
  unfold Zone.ofWritten at h
  split at h
  · rename_i hzero
    exact ⟨hzero, (Zone.eq_of_isSame h).symm⟩
  · cases h

variable [Atlas]

/-- What the clocks of a zone show at an instant, in writing. -/
theorem isoText_ofInstant (hz : z.Legible) (h : Moment.ofInstant i z = .ok m) :
    m.isoText = stamp m.wall (z.shiftAt i) ∧ (m.wall.micros : Int) = i + (z.shiftAt i).micros := by
  obtain ⟨hown, hshift, hi⟩ := Moment.ofInstant_spec hz h
  constructor
  · unfold Moment.isoText Text.ofOption
    rw [hown]
    dsimp only
    rw [hshift]
    rfl
  · have hmicros : m.instantIn z = m.wall.micros - (m.shiftIn z).micros := rfl
    rw [hi, hshift] at hmicros
    omega

/-- A wall time with a shift is written in the same way again if the clocks of the zone show it. -/
theorem write_stamp_iff (hz : z.Legible) (w : WallTime) (ht : sh.Tellable) :
    (TimeStyle.zoned z).write { wall := w, zone := some (.ofWritten sh) } = .ok (stamp w sh) ↔
      InCalendar (w.micros - sh.micros) ∧ z.shiftAt (w.micros - sh.micros) = sh := by
  rw [TimeStyle.write, Moment.moveTo]
  dsimp only
  unfold Moment.instantIn Moment.shiftIn
  rw [Zone.shiftOfWall_ofWritten]
  by_cases hsame : (Zone.ofWritten sh).isSame z = true
  · obtain ⟨rfl, rfl⟩ := ofWritten_isSame hsame
    have hw : InCalendar (w.micros - Shift.zero.micros) := by
      rw [show Shift.zero.micros = 0 from rfl, Int.sub_zero]
      exact WallTime.inCalendar w
    exact ⟨fun _ => ⟨hw, rfl⟩, fun _ => rfl⟩
  · rw [if_neg hsame]
    constructor
    · intro h
      rcases hu : Moment.ofInstant (w.micros - sh.micros) z with f | u <;> rw [hu] at h
      · cases h
      · rw [Except.map, Except.ok.injEq, (isoText_ofInstant hz hu).1] at h
        have hread := read_stamp w ht z
        have hsame := eq_of_read_stamp (hz.tellable_shiftAt _) ht (h ▸ hread) hread
        exact ⟨(Moment.exists_ofInstant_iff.1 ⟨u, hu⟩).1, hsame.2⟩
    · rintro ⟨hi, hshift⟩
      have hback : (w.micros - sh.micros : Int) + (z.shiftAt (w.micros - sh.micros)).micros = w.micros := by
        rw [hshift]
        omega
      obtain ⟨u, hu⟩ := Moment.exists_ofInstant_iff.2 ⟨hi, by rw [hback]; exact WallTime.inCalendar w⟩
      obtain ⟨htext, hwall⟩ := isoText_ofInstant hz hu
      rw [hback] at hwall
      have hw : u.wall = w := WallTime.ext (by omega)
      rw [hu, Except.map, htext, hshift, hw]

/-- Where a moment is not written as it stands, the clocks of the zone show what is written. -/
theorem stamp_of_write_zoned (hz : z.Legible) (hm : m.zone ≠ none) (h : (TimeStyle.zoned z).write m = .ok t) :
    ∃ w sh, sh.Tellable ∧ t = stamp w sh ∧
      ((InCalendar (w.micros - sh.micros) ∧ z.shiftAt (w.micros - sh.micros) = sh) ↔
        (m.zone = some z → m.ShownBy z)) := by
  obtain ⟨own, hown⟩ := Option.ne_none_iff_exists'.1 hm
  rw [TimeStyle.write, Moment.moveTo, hown] at h
  dsimp only at h
  split at h
  · -- a moment of the zone itself
    rename_i hsame
    cases Zone.eq_of_isSame hsame
    cases h
    refine ⟨m.wall, m.shiftIn z, hz.tellable _ _, ?_, ?_⟩
    · unfold Moment.isoText
      rw [hown]
      rfl
    · rw [hown]
      exact ⟨fun hshown _ => hshown, fun hshown => hshown rfl⟩
  · rename_i hsame
    rcases hu : Moment.ofInstant (m.instantIn own) z with f | u <;> rw [hu] at h <;> cases h
    obtain ⟨htext, hwall⟩ := isoText_ofInstant hz hu
    have hi := (Moment.exists_ofInstant_iff.1 ⟨u, hu⟩).1
    have hback : (u.wall.micros : Int) - (z.shiftAt (m.instantIn own)).micros = m.instantIn own := by omega
    refine ⟨u.wall, z.shiftAt (m.instantIn own), hz.tellable_shiftAt _, htext, ?_⟩
    rw [hback]
    constructor
    · rintro - hsameZone
      -- the zones that are not the same as themselves have one shift
      rw [hown, Option.some.injEq] at hsameZone
      subst hsameZone
      refine ⟨hi, ?_⟩
      cases own with
      | system => rfl
      | written sh => rfl
      | utc => exact absurd rfl hsame
      | chosen sh => exact absurd (beq_self_eq_true sh) hsame
      | place name => exact absurd (beq_self_eq_true name) hsame
    · rintro -
      exact ⟨hi, rfl⟩

end Due

namespace TimeStyle.Echoes

variable [Atlas] {style : TimeStyle} {z : Zone} {m m' : Moment}

theorem spec (hz : style.zone.Legible) (h : style.Echoes m m') :
    m.instant = m'.instant ∧ (style = .universal → style.write m' = style.write m) := by
  obtain ⟨hm, t, hw, hread⟩ := h
  obtain ⟨m'', hread', -, hi, hagain⟩ := Due.read_write hz hm hw
  cases (hread .utc).symm.trans (hread' .utc)
  refine ⟨hi.symm, ?_⟩
  intro hstyle
  rw [hagain hstyle, hw]

/-- An echo of a moment is written as the moment was exactly if the moment is shown by the clocks of the zone as it
stands or belongs to another one. -/
theorem write_iff (hz : z.Legible) (h : (zoned z).Echoes m m') :
    (zoned z).write m' = (zoned z).write m ↔ (m.zone = some z → m.ShownBy z) := by
  obtain ⟨hm, t, hw, hread⟩ := h
  obtain ⟨w, sh, ht, rfl, hshown⟩ := Due.stamp_of_write_zoned hz hm hw
  cases (hread z).symm.trans (Due.read_stamp w ht z)
  rw [hw, Due.write_stamp_iff hz w ht]
  exact hshown

theorem write_of_self (hz : z.Legible) (h : (zoned z).Echoes m m') (h' : (zoned z).Echoes m' m') :
    (zoned z).write m' = (zoned z).write m := by
  obtain ⟨hm, t, hw, hread⟩ := h
  obtain ⟨hm', t', hw', hread'⟩ := h'
  obtain ⟨w, sh, ht, rfl, -⟩ := Due.stamp_of_write_zoned hz hm hw
  obtain ⟨w', sh', ht', rfl, -⟩ := Due.stamp_of_write_zoned hz hm' hw'
  obtain ⟨rfl, rfl⟩ := Due.eq_of_read_stamp ht ht' (hread z) (hread' z)
  rw [hw, hw']

end TimeStyle.Echoes

/-! ## Reading back -/

namespace TimeStyle

section ReadingBack

variable [Atlas] {m m' : Moment} {t : Text}

/-- In universal time a moment is written as the wall time at its instant. -/
theorem universal_write_iff (hm : m.zone ≠ none) :
    universal.write m = .ok t ↔ ∃ w : WallTime, w.micros = m.instant ∧ t = w.isoText ++ ['Z'] := by
  have hz : universal.zone.Legible := Zone.legible_utc
  have hforward : ∀ {t : Text}, universal.write m = .ok t →
      ∃ w : WallTime, w.micros = m.instant ∧ t = w.isoText ++ ['Z'] := by
    intro t h
    obtain ⟨w, sh, -, hi, ⟨-, rfl, ht⟩ | ⟨hne, -⟩⟩ := Due.stamp_of_write hz hm h
    · exact ⟨w, by rw [← hi]; exact (Int.sub_zero _).symm, ht⟩
    · exact absurd rfl hne
  refine ⟨hforward, ?_⟩
  rintro ⟨w, hw, rfl⟩
  -- the instant lies in the calendar, and universal time shows it as it is
  have hi : InCalendar m.instant := hw ▸ WallTime.inCalendar w
  have hshown : InCalendar (m.instant + (Zone.utc.shiftAt m.instant).micros) := by
    rwa [show (Zone.utc.shiftAt m.instant).micros = 0 from rfl, Int.add_zero]
  have hfits : m.Fits .utc := .inr ⟨hi, hshown⟩
  obtain ⟨t', ht'⟩ : ∃ t', universal.write m = .ok t' := (exists_write_iff hm).2 hfits
  obtain ⟨w', hw', rfl⟩ := hforward ht'
  have hsame : w' = w := WallTime.ext (by omega)
  rw [ht', hsame]

/-- A moment of a zone that is written is read back as its instant, whatever zone the reader has. In universal time it
is read as a moment of universal time, and the same text is written of exactly the moments of the same instant. In the
time of a zone, be it a place or a shift that can be told, it is read with the wall time and the shift that stand in the
text. -/
theorem read_of_write (hm : m.zone ≠ none) :
    (universal.write m = .ok t →
      (∀ z, ∃ u, Due.read t z = .ok (some u) ∧ u.zone = some .utc ∧ u.instant = m.instant) ∧
        (m'.zone ≠ none → (universal.write m' = .ok t ↔ m'.instant = m.instant))) ∧
      (Atlas.Lawful → ∀ own : Zone, own.Tellable → (zoned own).write m = .ok t →
        ∃ (w : WallTime) (sh : Shift), t = w.isoText ++ sh.isoText ∧
          ∀ z, ∃ u, Due.read t z = .ok (some u) ∧ u.wall = w ∧ u.zone = some (.ofWritten sh) ∧
            u.shiftIn (.ofWritten sh) = sh ∧ u.instant = m.instant) := by
  refine ⟨fun h => ?_, fun ha own hown h => ?_⟩
  · obtain ⟨w, hw, rfl⟩ := (universal_write_iff hm).1 h
    refine ⟨fun z => ⟨_, Due.read_zulu w z, rfl, ?_⟩, fun hm' => ?_⟩
    · rw [← hw]
      exact Int.sub_zero _
    · rw [universal_write_iff hm']
      constructor
      · rintro ⟨w', hw', htext⟩
        -- the text tells the wall time, since it is read back
        have hread := Due.read_zulu w .utc
        rw [htext, Due.read_zulu w' .utc] at hread
        cases hread
        rw [← hw, ← hw']
      · intro hi
        exact ⟨w, by rw [hw, hi], rfl⟩
  · have hz : (zoned own).zone.Legible := Zone.legible ha hown
    obtain ⟨w, sh, htellable, hi, ⟨hstyle, -⟩ | ⟨-, ht⟩⟩ := Due.stamp_of_write hz hm h
    · cases hstyle
    · refine ⟨w, sh, ht, fun z => ⟨_, ht ▸ Due.read_stamp w htellable z, rfl, rfl, Zone.shiftOfWall_ofWritten .., ?_⟩⟩
      rw [Moment.instant_ofWritten, hi]

end ReadingBack

open scoped Place in
/-- Midnight of the first day in a zone to the west, in universal time and in the mean time of a place to the east. -/
theorem read_of_write_of_first_midnight :
    (∃ u, Due.read "0001-01-01T05:00:00Z".toList .system = .ok (some u) ∧ u.zone = some .utc ∧
      u.instant = 18000000000) ∧
    universal.write { wall := ⟨18000000000, by decide⟩, zone := some .utc } = .ok "0001-01-01T05:00:00Z".toList ∧
    ∃ (w : WallTime) (sh : Shift), "0001-01-01T10:53:28+05:53:28".toList = w.isoText ++ sh.isoText ∧
      ∃ u, Due.read "0001-01-01T10:53:28+05:53:28".toList .utc = .ok (some u) ∧ u.wall = w ∧
        u.zone = some (.ofWritten sh) ∧ u.instant = 18000000000 := by
  have h := fun t => @read_of_write _ { wall := ⟨0, by decide⟩, zone := some (.written { micros := -18000000000 }) }
    { wall := ⟨18000000000, by decide⟩, zone := some .utc } t (Option.some_ne_none _)
  obtain ⟨huniversal, hsame⟩ := (h "0001-01-01T05:00:00Z".toList).1 (by decide)
  obtain ⟨u, hu, hz, hi⟩ := huniversal .system
  obtain ⟨w, sh, ht, hread⟩ := (h "0001-01-01T10:53:28+05:53:28".toList).2 Place.lawful (.place Place.kolkata.name)
    trivial (by decide +kernel)
  obtain ⟨v, hv, hw, hz', -, hi'⟩ := hread .utc
  exact ⟨⟨u, hu, hz, hi⟩, (hsame (Option.some_ne_none _)).2 rfl, w, sh, ht, v, hv, hw, hz', hi'⟩

open scoped Place in
/-- A shift of half a second is written in full and read as none, so the instant is another one. -/
theorem read_of_write_loses_half_second :
    (zoned (.chosen { micros := 500000 })).write { wall := ⟨63839664000000000, by decide⟩, zone := some .utc } =
        .ok "2024-01-01T00:00:00.500000+00:00:00.500000".toList ∧
      ∃ u, Due.read "2024-01-01T00:00:00.500000+00:00:00.500000".toList .utc = .ok (some u) ∧
        u.zone = some .utc ∧ u.instant = 63839664000500000 ∧
        u.instant ≠ Moment.instant { wall := ⟨63839664000000000, by decide⟩, zone := some .utc } := by
  refine ⟨by decide +kernel, { wall := ⟨63839664000500000, by decide⟩, zone := some .utc }, by decide +kernel, rfl,
    rfl, ?_⟩
  decide

end TimeStyle

end Taskbook
