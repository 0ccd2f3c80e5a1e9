import OledPanel.Proofs.HeldLevels
import OledPanel.Proofs.Phases
import OledPanel.Proofs.Representation
import OledPanel.Proofs.ScaledLevels

/-! The ambient-light category of a brightness. A level that is written to a panel that is on,
outside high-brightness mode, takes the category along: it is then the one of the brightness in the
thresholds of the moment, and it is announced if it is another than before. An update is left out
where its level is tracked already, with the same power state, and leaves the category as it was. -/

namespace OledPanel.Panel

open Dsi (Transport)

variable {σ : Type}

theorem observe_of_find {als : Backlight.Als} {b : UInt32} {k : Nat} (hk : als.find? b = some k) :
    als.observe b = ({ als with category := k }, decide (k ≠ als.category)) := by
  rw [Backlight.Als.observe, hk]
  dsimp only
  split
  · next h => simp [h]
  · next h => simp [h]

/-- The display after a category, which is announced if it is another than before. -/
def announced (d : Display) (als : Backlight.Als) (k : Nat) : Display :=
  if k = als.category then d else d.notify (.changed .brightness)

theorem observeAls_of_find {als : Backlight.Als} {b : UInt32} {k : Nat} {s : State σ}
    (ha : s.backlight.als = some als) (hk : als.find? b = some k) :
    ((observeAls b).after s).backlight.als = some { als with category := k } ∧
      ((observeAls b).after s).display = announced s.display als k := by
  rw [observeAls, Action.after_get_bind]
  simp only [ha, observe_of_find hk]
  rw [Action.after_modify_bind, announced]
  by_cases h : k = als.category
  · rw [if_pos h, if_neg (by simpa using h)]
    exact ⟨rfl, rfl⟩
  · rw [if_neg h, if_pos (by simpa using h)]
    exact ⟨rfl, rfl⟩

variable [Transport σ] {c : Config}

theorem answer_present_of_ok {level : UInt32} {s : State σ} (b : UInt32)
    (hok : (actuate c level).answer s = .ok ()) : (present c b level).answer s = .ok () := by
  obtain ⟨e, he, -⟩ | ⟨-, h, -⟩ := present_cases (c := c) b level s
  · rw [he] at hok
    cases hok
  · exact h

/-- On a panel that is on, outside high-brightness mode, the category is the last that is seen to. -/
theorem present_of_on {level : UInt32} {s u : State σ} (b : UInt32)
    (hok : (actuate c level).answer s = .ok ()) (hu : (actuate c level).after s = u)
    (hon : u.backlight.bits.isOn = true) (hm : u.hbm.mode = .off) :
    (present c b level).after s = (observeAls b).after { u with backlight.held := false } := by
  rw [present, Action.after_bind, hok, hu]
  dsimp only
  rw [Action.after_modify_bind, Action.after_get_bind, if_pos]
  simp [hon, hm, HbmMode.isOn]

/-- A level that is brought out takes the category along. -/
theorem commit_of_find {als : Backlight.Als} {b level : UInt32} {k : Nat} {s : State σ}
    (hs : s.Live) (hon : s.backlight.bits.isOn = true) (hm : s.hbm.mode = .off)
    (ha : s.backlight.als = some als) (hk : als.find? b = some k)
    (hok : (actuate c level).answer (restartDimming s) = .ok ()) :
    ((commit c b level).after s).backlight.als = some { als with category := k } ∧
      ((commit c b level).after s).display = announced s.display als k := by
  have hkept : ((actuate c level).after (restartDimming s)).display = s.display ∧
      ((actuate c level).after (restartDimming s)).backlight.als = s.backlight.als ∧
      ((actuate c level).after (restartDimming s)).backlight.bits = s.backlight.bits ∧
      ((actuate c level).after (restartDimming s)).hbm.mode = s.hbm.mode := by
    obtain ⟨m, hrestart⟩ := restartDimming_frame s
    obtain ⟨g, p, l, i, e, hdrive, -⟩ := drives_actuate (c := c) level (restartDimming s)
    rw [hdrive, hrestart]
    exact ⟨rfl, rfl, rfl, rfl⟩
  rw [commit_of_live hs, answer_present_of_ok b hok]
  change ((present c b level).after (restartDimming s)).backlight.als = _ ∧
    ((present c b level).after (restartDimming s)).display = _
  rw [present_of_on b hok rfl (by rw [hkept.2.2.1, hon]) (by rw [hkept.2.2.2, hm]), ← hkept.1]
  exact observeAls_of_find (hkept.2.1.trans ha) hk

/-- An update that goes well sees to the category, unless its level is shown already. -/
theorem update_of_find {als : Backlight.Als} {k : Nat} {s : State σ} (hs : s.Live)
    (hon : s.backlight.bits.isOn = true) (hm : s.hbm.mode = .off)
    (ha : s.backlight.als = some als) (hk : als.find? s.backlight.wanted = some k)
    (hlit : 0 < s.backlight.wanted) (hu : (update c).answer s = .ok ()) :
    ∃ level, c.level s.demand = .ok level ∧
      ((update c).after s).backlight.als =
        some (if s.shows level then als else { als with category := k }) ∧
      ((update c).after s).display = if s.shows level then s.display
        else (announced s.display als k).notify (.brightness s.backlight.wanted) := by
  obtain ⟨level, hl, -⟩ := shows_update hs.2 hu
  refine ⟨level, level_of_levelOf hl, ?_⟩
  -- Outside high-brightness mode no range is entered on the way to the level.
  have hfound : (levelOf c s.backlight.wanted).after s = s :=
    (levelOf_of_off (by rw [hm]; rfl) s.backlight.wanted).2
  have hafter := updateLevel_of_found hl
  have hanswer := answer_updateLevel_of_found hl
  rw [hfound] at hafter hanswer
  rw [update, Action.after_bind]
  by_cases hshown : s.shows level = true
  · rw [if_pos hshown] at hanswer hafter
    rw [hanswer, hafter, if_pos hshown, if_pos hshown]
    exact ⟨ha, rfl⟩
  · rw [if_neg hshown] at hanswer hafter
    have hok : (actuate c level).answer (restartDimming s) = .ok () := by
      refine (answer_commit_of_live hs s.backlight.wanted level).mp ?_
      rw [update, Action.answer_bind, hanswer] at hu
      cases hcommit : (commit c s.backlight.wanted level).answer s with
      | ok r => exact ⟨r, rfl⟩
      | error e =>
        rw [hcommit] at hu
        cases hu
    obtain ⟨hals, hdisplay⟩ := commit_of_find hs hon hm ha hk hok
    have hreported : (commit c s.backlight.wanted level).answer s = .ok (some s.backlight.wanted) := by
      rw [answer_commit_eq hs, answer_present_of_ok _ hok, Except.map, if_pos hlit]
    rw [hanswer, hreported, hafter, if_neg hshown, if_neg hshown, ← hdisplay]
    exact ⟨hals, rfl⟩

omit [Transport σ] in
/-- A panel that is on is powered, so the brightness asked for is wanted. -/
theorem wanted_of_on {s : State σ} {b : UInt32}
    (hpower : s.backlight.power = .down ↔ s.backlight.bits.blanked = true)
    (hon : s.backlight.bits.isOn = true) :
    Backlight.State.wanted { s.backlight with brightness := b } = b := by
  obtain ⟨-, hblanked, hsuspended⟩ : s.backlight.bits.isLowPower = false ∧
      s.backlight.bits.blanked = false ∧ s.backlight.bits.suspended = false := by
    simpa [PowerBits.isOn, PowerBits.isStandby] using hon
  have hup : s.backlight.power = .up := by
    cases hp : s.backlight.power with
    | up => rfl
    | down =>
      rw [hpower.mp hp] at hblanked
      cases hblanked
  simp [Backlight.State.wanted, PowerBits.isStandby, hblanked, hsuspended, hup]

/-- After a brightness was asked for, on a panel that is on, takes levels and is not in
high-brightness mode, the category is that of the brightness in the thresholds of the moment, and it
was announced if it is another than before. It is so wherever the level was written. Where the level
of the brightness was tracked already, with the same power state, the category stays the one before. -/
theorem category_of_written_brightness {n : Node} {hasPwm : Bool} (hc : Config.ofNode n hasPwm = .ok c)
    (host : σ) (display : Display) (pwm : Option Pwm) (regulator : Option Regulator)
    (inputs : List Input) (b : UInt32) {als : Backlight.Als} {k : Nat} :
    let s := run c (State.initial c host display pwm regulator) inputs
    let t := step c s (.request (.setBrightness b))
    s.Live → s.backlight.bits.isOn = true → s.hbm.mode = .off → s.backlight.als = some als →
      als.find? b = some k → 0 < b → (setBrightness c b).answer s = .ok () →
      ∃ level, c.level { s.demand with brightness := b } = .ok level ∧
        t.backlight.als = some (if s.shows level then als else { als with category := k }) ∧
        ((setBrightness c b).after s).display = (if s.shows level then s.display
          else (announced s.display als k).notify (.brightness b)) := by
  intro s t hs hon hm ha hk hb hok
  obtain ⟨hu, hafter⟩ := setBrightness_eq_update hok
  let r : State σ := { s with backlight.brightness := b }
  have hwanted : r.backlight.wanted = b :=
    wanted_of_on (valid_run hc host display pwm regulator inputs).backlight.power hon
  obtain ⟨level, hlevel, hals, hdisplay⟩ := update_of_find (s := r) hs hon hm ha (hwanted ▸ hk)
    (hwanted ▸ hb) hu
  rw [hwanted] at hdisplay
  refine ⟨level, hlevel, ?_, ?_⟩
  · rw [backlight_step_setBrightness, hafter]
    exact hals
  · rw [hafter]
    exact hdisplay

/-- The description of a plain panel that tells brightness up to 100 from what is above. -/
def twoCategoriesNode : Node :=
  Bench.withProperties (Bench.plainNode []) [(Backlight.Config.keyThresholds, .cells [100, 255])]

def twoCategories : Config :=
  { Bench.plain none with
    backlight := { (Bench.plain none).backlight with thresholds := some [100, 255] } }

theorem ofNode_twoCategories : Config.ofNode twoCategoriesNode false = .ok twoCategories := by
  decide +kernel

theorem category_of_written_brightness_above_threshold :
    let s := run twoCategories (State.initial twoCategories ({} : Bench.Host) {} none none)
      [.request .enable, .request (.setBrightness 100)]
    s.Live ∧ s.backlight.bits.isOn = true ∧ s.hbm.mode = .off ∧
      s.backlight.als = some ⟨[100, 255], 0⟩ ∧ (setBrightness twoCategories 101).answer s = .ok () ∧
      (step twoCategories s (.request (.setBrightness 101))).backlight.als = some ⟨[100, 255], 1⟩ := by
  intro s
  have hs : s.Live := ⟨by decide +kernel, by decide +kernel⟩
  have hon : s.backlight.bits.isOn = true := by decide +kernel
  have hm : s.hbm.mode = .off := by decide +kernel
  have hals : s.backlight.als = some ⟨[100, 255], 0⟩ := by decide +kernel
  have hok : (setBrightness twoCategories 101).answer s = .ok () := by decide +kernel
  have hrun : run twoCategories (State.initial twoCategories ({} : Bench.Host) {} none none)
    [.request .enable, .request (.setBrightness 100)] = s := rfl
  obtain ⟨level, hlevel, ht, -⟩ := category_of_written_brightness ofNode_twoCategories
    ({} : Bench.Host) {} none none [.request .enable, .request (.setBrightness 100)] 101
    hs hon hm hals (k := 1) (by decide) (by decide) hok
  have hfound : twoCategories.level { s.demand with brightness := 101 } = .ok 101 := by decide +kernel
  obtain rfl : (101 : UInt32) = level := Except.ok.inj (hfound.symm.trans hlevel)
  have hshown : s.shows 101 = false := by decide +kernel
  rw [hrun, hshown, if_neg Bool.false_ne_true] at ht
  exact ⟨hs, hon, hm, hals, hok, ht⟩

/-- At half scale brightness 101 has the level of 100, so the panel is kept in the category of 100. -/
theorem category_kept_at_same_level :
    let s := run twoCategories (State.initial twoCategories ({} : Bench.Host) {} none none)
      [.request .enable, .request (.setScale 512 1024), .request (.setBrightness 100)]
    let t := step twoCategories s (.request (.setBrightness 101))
    Config.ofNode twoCategoriesNode false = .ok twoCategories ∧
      s.Live ∧ s.backlight.bits.isOn = true ∧ s.hbm.mode = .off ∧
      (setBrightness twoCategories 101).answer s = .ok () ∧ t.backlight.brightness = 101 ∧
      t.backlight.als = some ⟨[100, 255], 0⟩ ∧
      (⟨[100, 255], 0⟩ : Backlight.Als).find? 101 = some 1 := by
  intro s t
  exact ⟨ofNode_twoCategories, ⟨by decide +kernel, by decide +kernel⟩, by decide +kernel⟩

end OledPanel.Panel
