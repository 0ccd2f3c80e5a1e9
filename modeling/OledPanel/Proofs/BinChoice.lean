import OledPanel.Proofs.Bins
import OledPanel.Proofs.Demand

/-! The bin after a brightness is asked for in low power. An update is left out where the level of
the brightness is the one tracked, while the bin goes by the brightness itself. So a brightness
that has the level of the one before keeps the bin of that. -/

namespace OledPanel.Panel

open Dsi (Transport)

variable {σ : Type} [Transport σ] {c : Config}

/-- An update that goes well keeps the bin if it finds its level shown, and else brings the panel
into the bin of the brightness. -/
theorem bin_update_cases {bins : List LowPower.Bin} (ha : c.actuator = .bins bins) {s : State σ}
    (hs : s.Live) (hu : (update c).answer s = .ok ()) : ∃ level, c.level s.demand = .ok level ∧
      ((update c).after s).backlight.bin =
        if s.shows level then s.backlight.bin else binOf bins s.backlight := by
  obtain ⟨level, hl, -⟩ := shows_update hs.2 hu
  have hfound : ((levelOf c s.backlight.wanted).after s).backlight = s.backlight :=
    (enters_levelOf _ s).backlight
  refine ⟨level, level_of_levelOf hl, ?_⟩
  have hshows : ((levelOf c s.backlight.wanted).after s).shows level = s.shows level := by
    rw [State.shows, State.shows, hfound]
  by_cases hshown : s.shows level = true
  · obtain ⟨d, -, -, -, h⟩ := update_frame (c := c) s
    rw [h, updateLevel_of_found hl, hshows, if_pos hshown, if_pos hshown]
    exact congrArg _ hfound
  · rw [if_neg hshown]
    exact bin_update ha ⟨hs, level, hl, by rw [hshows, Bool.eq_false_iff]; exact hshown⟩

/-- In low power a panel with bins is in the bin of the brightness asked for, unless the level of
that brightness was tracked already, with the same power state. Then it stays in the bin it was in,
which need not be the one of the brightness. -/
theorem bin_after_brightness {bins : List LowPower.Bin} (ha : c.actuator = .bins bins) (s : State σ)
    (hs : s.Live) (hlow : s.backlight.bits.isLowPower = true) (b : UInt32)
    (hok : (setBrightness c b).answer s = .ok ()) :
    let t := step c s (.request (.setBrightness b))
    ∃ level, c.level { s.demand with brightness := b } = .ok level ∧
      t.backlight.bin =
        (if s.shows level then s.backlight.bin else LowPower.Bin.select? bins b) ∧
      (t.backlight.bin = LowPower.Bin.select? bins b ↔
        (s.shows level = true → s.backlight.bin = LowPower.Bin.select? bins b)) := by
  intro t
  obtain ⟨hu, hafter⟩ := setBrightness_eq_update hok
  obtain ⟨level, hlevel, hbin⟩ :=
    bin_update_cases (s := { s with backlight.brightness := b }) ha hs hu
  have ht : t.backlight = ((setBrightness c b).after s).backlight := backlight_step_setBrightness s b
  have hselect : binOf bins { s.backlight with brightness := b } = LowPower.Bin.select? bins b :=
    if_pos hlow
  have hshows : State.shows { s with backlight.brightness := b } level = s.shows level := rfl
  rw [← hafter, ← ht, hselect, hshows] at hbin
  refine ⟨level, hlevel, hbin, ?_⟩
  rw [hbin]
  split <;> simp_all

/-- Two bins, up to brightness 30 and up to 60. -/
def twoBins : List LowPower.Bin := [
  ⟨"low", 30, { commands := [⟨.shortWriteParam, true, 0, [0xE1, 0x01]⟩] }⟩,
  ⟨"mid", 60, { commands := [⟨.shortWriteParam, true, 0, [0xE1, 0x02]⟩] }⟩]

def binsNode : Node where
  name := LowPower.Bin.nodeName
  children := [
    { name := "low"
      properties := [
        (LowPower.Bin.keyThreshold, .cell 30),
        (LowPower.Bin.keyEnter, .cells (Dsi.CommandSet.pack [[0xE1, 0x01]]))] },
    { name := "mid"
      properties := [
        (LowPower.Bin.keyThreshold, .cell 60),
        (LowPower.Bin.keyEnter, .cells (Dsi.CommandSet.pack [[0xE1, 0x02]]))] }]

/-- A plain panel with the two bins. -/
def twoBinsNode : Node :=
  Bench.withProperties (Bench.plainNode [binsNode]) [("compatible", .texts [LowPower.compatible])]

/-- The kernel does not evaluate the sorting, so it is taken out here. -/
theorem allOf_twoBinsNode : LowPower.Bin.allOf twoBinsNode = .ok (some twoBins) := by
  have hchild : twoBinsNode.child? LowPower.Bin.nodeName = some binsNode := by rfl
  have hread : binsNode.children.mapM LowPower.Bin.ofNode = .ok twoBins := by with_unfolding_all rfl
  have hsort : LowPower.Bin.sort twoBins = twoBins :=
    List.mergeSort_of_pairwise (by decide)
  rw [LowPower.Bin.allOf, hchild]
  dsimp only
  rw [if_neg (by decide), hread, Except.map, hsort]

theorem ofNode_twoBinsNode : Config.ofNode twoBinsNode false =
    .ok { Bench.plain none with actuator := .bins twoBins } := by
  simp only [Config.ofNode, Actuator.ofNode, allOf_twoBinsNode]
  rfl

theorem bin_after_brightness_of_other_level :
    let c : Config := { Bench.plain none with actuator := .bins twoBins }
    let s := run c (State.initial c ({} : Bench.Host) {} none none)
      [.request .enable, .request (.setBrightness 10), .request .enterLp1]
    s.Live ∧ s.backlight.bits.isLowPower = true ∧ (setBrightness c 50).answer s = .ok () ∧
      s.backlight.bin = some 0 ∧ (step c s (.request (.setBrightness 50))).backlight.bin =
        LowPower.Bin.select? twoBins 50 := by
  intro c s
  have hs : s.Live := ⟨by decide +kernel, by decide +kernel⟩
  have hlow : s.backlight.bits.isLowPower = true := by decide +kernel
  have hok : (setBrightness c 50).answer s = .ok () := by decide +kernel
  refine ⟨hs, hlow, hok, by decide +kernel, ?_⟩
  obtain ⟨level, hlevel, -, hiff⟩ := bin_after_brightness (c := c) rfl s hs hlow 50 hok
  have hfound : c.level { s.demand with brightness := 50 } = .ok 50 := by decide +kernel
  obtain rfl : (50 : UInt32) = level := Except.ok.inj (hfound.symm.trans hlevel)
  have hshown : s.shows 50 = false := by decide +kernel
  rw [hshown] at hiff
  exact hiff.mpr nofun

/-- At half scale brightness 31 has the level of 30, so the panel is kept in the bin of 30. -/
theorem bin_kept_at_same_level :
    let c : Config := { Bench.plain none with actuator := .bins twoBins }
    let s := run c (State.initial c ({} : Bench.Host) {} none none)
      [.request .enable, .request (.setScale 512 1024), .request (.setBrightness 30),
        .request .enterLp1]
    let t := step c s (.request (.setBrightness 31))
    Config.ofNode twoBinsNode false = .ok c ∧
      s.initialized = true ∧ s.backlight.gateOpen = true ∧ s.backlight.bits.lp = true ∧
      s.backlight.bits.blanked = false ∧ (setBrightness c 31).answer s = .ok () ∧
      t.backlight.bin = some 0 ∧ LowPower.Bin.select? twoBins 31 = some 1 ∧
      t.host.log = s.host.log := by
  refine ⟨ofNode_twoBinsNode, ?_⟩
  decide +kernel

end OledPanel.Panel
