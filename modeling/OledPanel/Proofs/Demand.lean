import OledPanel.Bench.Plain
import OledPanel.Proofs.Interpolation
import OledPanel.Proofs.Updates

/-! The level as a function of the present. What is wanted of a panel is its brightness and the
factors of it, its power state and its mode, and the description of the panel gives that a level.
An update that goes well while the gate is open leaves that level tracked, together with the power
state, whatever was tracked, sent and entered before. -/

namespace OledPanel.Panel

open OledPanel.Action (Same Within)
open Dsi (Transport)

/-! ### What is wanted -/

structure Demand where
  brightness : UInt32
  factor : UInt32
  sunlightFactor : UInt32
  bits : PowerBits
  power : Power
  mode : HbmMode
deriving DecidableEq, Repr

namespace Demand

/-- Nothing is to be seen: the panel is blanked, or no brightness is wanted. -/
def IsDark (d : Demand) : Prop := d.bits.isStandby = true ∨ d.power ≠ .up ∨ d.brightness = 0

instance (d : Demand) : Decidable d.IsDark := inferInstanceAs (Decidable (_ ∨ _ ∨ _))

/-- The brightness with both its factors. -/
def scaled (d : Demand) : UInt32 := Brightness.scale d.brightness d.factor d.sunlightFactor

end Demand

/-- The level of a scaled brightness in high-brightness mode. -/
def Config.rangeLevel (c : Config) (b : UInt32) : Except Error UInt32 :=
  match c.hbm with
  | none => .error .notSupported
  | some h =>
    match target? h b with
    | none => .error (.noMatchingRange b)
    | some (_, r) => Brightness.interpolate r.userStart r.userEnd r.panelStart r.panelEnd b

/-- The level of what is wanted. -/
def Config.level (c : Config) (d : Demand) : Except Error UInt32 :=
  if d.IsDark then .ok 0
  else if d.mode.isOn then c.rangeLevel d.scaled
  else c.backlight.map.level d.scaled

variable {σ : Type}

/-- What is wanted of a panel in use. -/
def State.demand (s : State σ) : Demand where
  brightness := s.backlight.brightness
  factor := s.backlight.factor
  sunlightFactor := s.backlight.sunlightFactor
  bits := s.backlight.bits
  power := s.backlight.power
  mode := s.hbm.mode

theorem State.wanted_eq_zero_iff (s : State σ) : s.backlight.wanted = 0 ↔ s.demand.IsDark := by
  rw [Backlight.State.wanted, Demand.IsDark, State.demand, ← or_assoc]
  split <;> simp_all

theorem State.wanted_of_lit {s : State σ} (hs : ¬s.demand.IsDark) :
    s.backlight.wanted = s.backlight.brightness := by
  rw [Demand.IsDark, State.demand] at hs
  simp_all [Backlight.State.wanted]

variable [Transport σ] {c : Config}

/-! ### Finding the level -/

/-- Entering a range leaves the backlight alone. -/
theorem Enters.backlight {b : UInt32} {s t : State σ} (h : Enters c b s t) :
    t.backlight = s.backlight := by
  cases h with
  | stay => rfl
  | @enter h i r =>
    obtain ⟨g, he⟩ := enterRange_frame (c := c) i r s
    obtain ⟨d, m, hstart⟩ := startDimming_frame r.frames (.range i) s
    rw [he, hstart]

theorem rangeLevel_of_hbmLevel {b l : UInt32} {s : State σ} (h : (hbmLevel c b).answer s = .ok l) :
    c.rangeLevel b = .ok l := by
  unfold hbmLevel at h
  unfold Config.rangeLevel
  cases hh : c.hbm with
  | none => simp [hh] at h
  | some hbm =>
    simp only [hh] at h ⊢
    cases ht : target? hbm b with
    | none => simp [ht] at h
    | some t =>
      obtain ⟨i, r⟩ := t
      simp only [ht, Action.answer_get_bind] at h ⊢
      split at h
      · rw [Action.answer_bind] at h
        split at h
        · rwa [Action.answer_ofExcept] at h
        · cases h
      · rwa [Action.answer_ofExcept] at h

/-- A level that was found is that of what is wanted. -/
theorem level_of_levelOf {l : UInt32} {s : State σ}
    (h : (levelOf c s.backlight.wanted).answer s = .ok l) : c.level s.demand = .ok l := by
  by_cases hdark : s.demand.IsDark
  · rw [s.wanted_eq_zero_iff.mpr hdark] at h
    rw [Config.level, if_pos hdark]
    exact h
  · have hlit : s.backlight.brightness ≠ 0 := fun hb => hdark (.inr (.inr hb))
    rw [State.wanted_of_lit hdark, levelOf, if_neg hlit] at h
    rw [Config.level, if_neg hdark]
    change (if s.hbm.mode.isOn then hbmLevel c s.demand.scaled
      else Action.ofExcept (c.backlight.map.level s.demand.scaled)).answer s = .ok l at h
    change (if s.hbm.mode.isOn then _ else _) = _
    split at h
    · next hm =>
      rw [if_pos hm]
      exact rangeLevel_of_hbmLevel h
    · next hm =>
      rw [Action.answer_ofExcept] at h
      rw [if_neg hm, h]

/-! ### Updates -/

theorem Stroke.demand {s t : State σ} (h : Stroke c s t) : t.demand = s.demand := by
  cases h with
  | restart =>
    obtain ⟨m, hm⟩ := restartDimming_frame s
    rw [hm]
    rfl
  | _ => rfl

/-- Bringing the level up to date changes nothing of what is wanted. -/
theorem demand_update : Within (Same State.demand) (update c : Action (State σ) Unit) := by
  intro s
  obtain ⟨t, hst, htu⟩ := update_strokes (c := c) s
  have hentered : Same State.demand s t := by
    rw [Same, State.demand, hst.backlight, hst.keeps.mode]
    rfl
  exact IsTrans.trans _ _ _ hentered (Action.related_of_closure (fun _ _ h => h.demand) htu)

/-- A level that was brought out is shown. -/
theorem shows_commit {b level : UInt32} {s : State σ} {r : Option UInt32}
    (hg : s.backlight.gateOpen = true) (h : (commit c b level).answer s = .ok r) :
    ((commit c b level).after s).shows level = true := by
  have htrack (t : State σ) : (track level t).shows level = true := by simp [State.shows, track]
  rw [commit, Action.answer_get_bind] at h
  rw [commit, Action.after_get_bind]
  dsimp only at h ⊢
  rw [if_neg (by simp [hg]), Action.answer_modify_bind] at h
  rw [if_neg (by simp [hg]), Action.after_modify_bind]
  by_cases hi : s.initialized = true
  · rw [if_pos hi, Action.answer_bind] at h
    rw [if_pos hi, Action.after_bind]
    split at h
    · exact htrack _
    · cases h
  · rw [if_neg hi]
    exact htrack _

theorem shows_updateLevel {s : State σ} {r : Option UInt32} (hg : s.backlight.gateOpen = true)
    (h : (updateLevel c).answer s = .ok r) : ∃ level,
      (levelOf c s.backlight.wanted).answer s = .ok level ∧
      ((updateLevel c).after s).shows level = true := by
  rw [updateLevel, Action.answer_get_bind, Action.answer_bind] at h
  split at h
  · next level hl =>
    have hopen : ((levelOf c s.backlight.wanted).after s).backlight.gateOpen = true := by
      rwa [(enters_levelOf _ s).backlight]
    refine ⟨level, hl, ?_⟩
    rw [Action.answer_get_bind] at h
    rw [updateLevel_of_found hl]
    split
    · next hs => exact hs
    · next hs =>
      rw [if_neg hs] at h
      exact shows_commit hopen h
  · cases h

/-- After an update that goes well the level that was found is shown, where the gate is open. -/
theorem shows_update {s : State σ} (hg : s.backlight.gateOpen = true)
    (h : (update c).answer s = .ok ()) : ∃ level,
      (levelOf c s.backlight.wanted).answer s = .ok level ∧
      ((update c).after s).shows level = true := by
  rw [update, Action.answer_bind] at h
  split at h
  · next b hb =>
    obtain ⟨level, hl, hs⟩ := shows_updateLevel hg hb
    obtain ⟨d, -, -, -, h⟩ := update_frame (c := c) s
    exact ⟨level, hl, by rwa [h]⟩
  · cases h

theorem tracked_of_update {s : State σ} (hg : s.backlight.gateOpen = true)
    (h : (update c).answer s = .ok ()) : ∃ level, c.level s.demand = .ok level ∧
      ((update c).after s).backlight.level = some level ∧
      ((update c).after s).backlight.levelBits = ((update c).after s).backlight.bits := by
  obtain ⟨level, hl, hs⟩ := shows_update hg h
  exact ⟨level, level_of_levelOf hl, by simpa [State.shows] using hs⟩

/-! ### The level zero -/

omit [Transport σ] in
/-- The linear map has no level zero. -/
theorem map_level_eq_zero_iff (m : LevelMap) (b : UInt32) : m.level b = .ok 0 ↔
    ∃ levels, m.table = some levels ∧ levels[(min b m.maxBrightness).toNat]? = some 0 := by
  cases ht : m.table with
  | none =>
    refine iff_of_false (fun h => ?_) (by simp)
    have hle : m.dimmest ≤ 0 := (LevelMap.level_mem ht h).1
    exact absurd (UInt32.le_trans m.one_le_dimmest hle) (by decide)
  | some levels =>
    rw [LevelMap.level, ht]
    simp only [Option.some.injEq, exists_eq_left']
    cases levels[(min b m.maxBrightness).toNat]? <;>
      simp [← UInt32.toNat_inj, ← UInt16.toNat_inj]

omit [Transport σ] in
theorem rangeLevel_eq_zero_iff (b : UInt32) : c.rangeLevel b = .ok 0 ↔
    ∃ h, c.hbm = some h ∧ ∃ i r, target? h b = some (i, r) ∧
      Brightness.interpolate r.userStart r.userEnd r.panelStart r.panelEnd b = .ok 0 := by
  unfold Config.rangeLevel
  cases hh : c.hbm with
  | none => simp
  | some h =>
    simp only [Option.some.injEq, exists_eq_left']
    cases ht : target? h b with
    | none => simp
    | some t =>
      refine ⟨fun h0 => ⟨t.1, t.2, rfl, h0⟩, ?_⟩
      rintro ⟨i, r, ht, h0⟩
      cases ht
      exact h0

omit [Transport σ] in
/-- Level zero is for a dark panel, and for brightnesses that a table or a range takes to zero. -/
theorem level_eq_zero_iff (d : Demand) : c.level d = .ok 0 ↔ d.IsDark ∨
    (d.mode.isOn = false ∧ ∃ levels, c.backlight.map.table = some levels ∧
      levels[(min d.scaled c.backlight.map.maxBrightness).toNat]? = some 0) ∨
    (d.mode.isOn = true ∧ ∃ h, c.hbm = some h ∧ ∃ i r, target? h d.scaled = some (i, r) ∧
      Brightness.interpolate r.userStart r.userEnd r.panelStart r.panelEnd d.scaled = .ok 0) := by
  rw [← map_level_eq_zero_iff, ← rangeLevel_eq_zero_iff, Config.level]
  by_cases hdark : d.IsDark
  · simp [hdark]
  · cases d.mode.isOn <;> simp [hdark]

/-- An update that goes well while the gate is open leaves the level of what is wanted tracked, with
the power state. What was tracked before, the range, the bin and the dimming in force and whether
the panel is powered make no difference. -/
theorem level_tracked_of_demand (c : Config) (s : State σ) (hg : s.backlight.gateOpen = true)
    (hu : (update c).answer s = .ok ()) :
    let t := (update c).after s
    (∃ level, c.level s.demand = .ok level ∧ t.backlight.level = some level) ∧
      t.backlight.levelBits = t.backlight.bits ∧ t.demand = s.demand ∧
      ∀ d : Demand, c.level d = .ok 0 ↔ d.IsDark ∨
        (d.mode.isOn = false ∧ ∃ levels, c.backlight.map.table = some levels ∧
          levels[(min d.scaled c.backlight.map.maxBrightness).toNat]? = some 0) ∨
        (d.mode.isOn = true ∧ ∃ h, c.hbm = some h ∧ ∃ i r, target? h d.scaled = some (i, r) ∧
          Brightness.interpolate r.userStart r.userEnd r.panelStart r.panelEnd d.scaled = .ok 0) := by
  intro t
  obtain ⟨level, hlevel, htracked, hbits⟩ := tracked_of_update hg hu
  exact ⟨⟨level, hlevel, htracked⟩, hbits, demand_update s, level_eq_zero_iff⟩

theorem level_tracked_in_range :
    let range : Hbm.Range :=
      { userStart := 0, userEnd := 255, panelStart := 300, panelEnd := 700, entry := {}, stop := {},
        frames := 0 }
    let hbm : Hbm.Config :=
      { ranges := [range], exit := {}, exitStop := {}, exitFrames := 0, irc := none }
    let s := Bench.plainRun (some hbm) {} [.request .enable, .request (.setHbm .on)]
    let c := Bench.plain (some hbm)
    s.backlight.gateOpen = true ∧ (update c).answer s = .ok () ∧
      ∃ level, c.level s.demand = .ok level ∧ ((update c).after s).backlight.level = some level := by
  intro range hbm s c
  have hg : s.backlight.gateOpen = true := by decide +kernel
  have hu : (update c).answer s = .ok () := by decide +kernel
  exact ⟨hg, hu, (level_tracked_of_demand c s hg hu).1⟩

end OledPanel.Panel
