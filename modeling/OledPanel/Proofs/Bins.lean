import OledPanel.Bench.Plain
import OledPanel.Proofs.Phases
import OledPanel.Proofs.Wire

/-! Levels in low power. A panel with bins is sent no level in low power as long as a bin serves
the brightness, and whenever an update reaches the panel that bin is the one in force. A brightness
above all bins has none, so it is written as a level, in low power as well. -/

namespace OledPanel.Panel

open OledPanel.Action (Same Within)
open Dsi (Message Recorder Transport)

variable {σ : Type} [Transport σ] {c : Config}

/-! ### The bin in force -/

/-- An update reaches the panel: it finds a level that is not shown, and the panel takes levels. -/
def Actuates (c : Config) (s : State σ) : Prop := s.Live ∧
  ∃ level, (levelOf c s.backlight.wanted).answer s = .ok level ∧
    ((levelOf c s.backlight.wanted).after s).shows level = false

/-- The bin in force is the same. -/
abbrev SameBin : State σ → State σ → Prop := Same fun s => s.backlight.bin

omit [Transport σ] in
theorem sameBin_onHost {α : Type} (x : Action σ α) : Within SameBin (onHost x) := fun s => by
  rw [after_onHost]
  rfl

theorem sameBin_enterBin (bins : List LowPower.Bin) (i : Nat) :
    Within SameBin (enterBin c bins i : Action (State σ) Unit) := by
  have hedge (bin : LowPower.Bin) : Within SameBin (writeEdge c bin : Action (State σ) Unit) := by
    unfold writeEdge
    split
    · exact Within.throw _
    · exact Within.bind (fun _ => rfl) fun _ => sameBin_onHost _
  unfold enterBin
  split
  · exact Within.pure _
  · exact (sameBin_onHost _).attempt.bind fun _ => (hedge _).attempt

theorem bin_writeBin (bins : List LowPower.Bin) (level : UInt32) (s : State σ) :
    ((writeBin c bins level).after s).backlight.bin = binOf bins s.backlight := by
  have hwrite : Within SameBin (writeLevel c level : Action (State σ) Unit) :=
    Within.get fun _ => sameBin_onHost _
  rw [writeBin, Action.after_get_bind]
  dsimp only
  rw [Action.after_modify_bind]
  cases binOf bins s.backlight with
  | some i => exact Within.ite (fun _ => sameBin_enterBin bins i) (fun _ => Within.pure _) _
  | none =>
    dsimp only
    split
    · rw [Action.after_modify_bind]
      exact hwrite _
    · exact hwrite _

theorem bin_present {bins : List LowPower.Bin} (ha : c.actuator = .bins bins) (b level : UInt32)
    (s : State σ) : ((present c b level).after s).backlight.bin = binOf bins s.backlight := by
  have hactuate : ((actuate c level).after s).backlight.bin = binOf bins s.backlight := by
    rw [actuate, ha]
    exact bin_writeBin bins level s
  obtain ⟨e, -, -, h⟩ | ⟨-, -, d, a, h⟩ := present_cases (c := c) b level s
  · rw [h]
    exact hactuate
  · rw [h]
    exact hactuate

theorem bin_commit {bins : List LowPower.Bin} (ha : c.actuator = .bins bins) (b level : UInt32)
    {s : State σ} (hs : s.Live) :
    ((commit c b level).after s).backlight.bin = binOf bins s.backlight := by
  obtain ⟨m, hm⟩ := restartDimming_frame s
  have hpresent := bin_present ha b level (restartDimming s)
  rw [hm] at hpresent
  rw [commit_of_live hs, hm]
  split <;> exact hpresent

theorem bin_update {bins : List LowPower.Bin} (ha : c.actuator = .bins bins) {s : State σ}
    (hs : Actuates c s) : ((update c).after s).backlight.bin = binOf bins s.backlight := by
  obtain ⟨hlive, level, hlevel, hshown⟩ := hs
  have hfound : Keeps s ((levelOf c s.backlight.wanted).after s) := (enters_levelOf _ s).keeps
  have hcommit := bin_commit ha s.backlight.wanted level (hfound.live.mpr hlive)
  obtain ⟨d, -, -, -, h⟩ := update_frame (c := c) s
  rw [h, updateLevel_of_found hlevel, if_neg (by simp [hshown])]
  exact hcommit.trans (binOf_keeps hfound bins)

/-! ### Runs -/

omit [Transport σ] in
theorem binOf_low {b : Backlight.State} (hb : b.bits.lp = true) (bins : List LowPower.Bin) :
    binOf bins b = LowPower.Bin.select? bins b.brightness := by
  rw [binOf, if_pos (by simp [PowerBits.isLowPower, hb])]

omit [Transport σ] in
/-- Among the messages of a step that ends in low power, those of the brightness command are
levels above all bins, where nothing else is configured to use that command. -/
theorem level_of_spoken {bins : List LowPower.Bin} (ha : c.actuator = .bins bins)
    (hc : ∀ set, c.Has set → ∀ m ∈ set.messages, m.cmd ≠ Dsi.setBrightness) {b : Backlight.State}
    (hb : b.bits.lp = true) {m : Message} (hm : Spoken c b m) (hcmd : m.cmd = Dsi.setBrightness) :
    (∃ irc, c.irc? = some irc ∧ irc.address = Dsi.setBrightness) ∨
      LowPower.Bin.select? bins b.brightness = none ∧
        ∃ level, m = c.backlight.levelMessage level := by
  rcases hm with haside | ⟨hdirect, level, hlevel⟩
  · cases haside with
    | set hset hm => exact absurd hcmd (hc _ hset _ hm)
    | register hm =>
      rw [hcmd] at hm
      exact absurd hm (by decide)
    | irc hirc hm => exact .inl ⟨_, hirc, hm.symm.trans hcmd⟩
  · rw [c.backlight.plain?_encode] at hlevel
    have hnone : binOf bins b = none := by
      rcases hdirect with hdcs | ⟨bins', hbins, hnone⟩
      · rw [ha] at hdcs
        cases hdcs
      · obtain rfl : bins = bins' := Actuator.bins.inj (ha.symm.trans hbins)
        exact hnone
    rw [binOf_low hb] at hnone
    exact .inr ⟨hnone, level, (Option.some.inj hlevel).symm⟩

/-- In low power a step writes a level only if the brightness is above all bins, or if it is the
register of compensation that is written. An update that reaches the panel brings it into the bin
of the brightness, which is none above all bins. -/
theorem level_in_low_power_above_bins {bins : List LowPower.Bin} (ha : c.actuator = .bins bins)
    (hc : ∀ set, c.Has set → ∀ m ∈ set.messages, m.cmd ≠ Dsi.setBrightness) (host : σ)
    (display : Display) (pwm : Option Pwm) (regulator : Option Regulator) (inputs : List Input)
    (i : Input) :
    let s := run c (State.initial c ({ host } : Recorder σ) display pwm regulator) inputs
    let t := step c s i
    (t.backlight.bits.lp = true → ∃ es, t.host.record = s.host.record ++ es ∧
      ∀ e ∈ es, e.message.cmd = Dsi.setBrightness →
        (∃ irc, c.irc? = some irc ∧ irc.address = Dsi.setBrightness) ∨
          LowPower.Bin.select? bins t.backlight.brightness = none ∧
            ∃ level, e.message = c.backlight.levelMessage level) ∧
    ∀ u : State σ, u.backlight.bits.lp = true → Actuates c u →
      ((update c).after u).backlight.bin = LowPower.Bin.select? bins u.backlight.brightness := by
  intro s t
  constructor
  · intro ht
    have hlaid : s.gamma.Laid := laid_run (laid_initial c _ display pwm regulator) inputs
    obtain ⟨es, hes, hspoken⟩ := Recorder.record_of_sends (speaks_step (c := c) s i hlaid).2
    exact ⟨es, hes, fun e he hcmd => level_of_spoken ha hc ht (hspoken e he) hcmd⟩
  · intro u hu hact
    rw [bin_update ha hact]
    exact binOf_low hu bins

theorem no_level_in_low_power_below_threshold :
    let low : LowPower.Bin :=
      ⟨"low", 30, { commands := [⟨.shortWriteParam, true, 0, [0xE1, 0x01]⟩] }⟩
    let c : Config := { Bench.plain none with actuator := .bins [low] }
    let s := run c (State.initial c ({ host := {} } : Recorder Bench.Host) {} none none)
      [.request .enable, .request .enterLp1]
    let t := step c s (.request (.setBrightness 20))
    (∃ es, t.host.record = s.host.record ++ es ∧ ∀ e ∈ es, e.message.cmd ≠ Dsi.setBrightness) ∧
      t.backlight.bin = some 0 := by
  intro low c s t
  have hc : ∀ set, c.Has set → ∀ m ∈ set.messages, m.cmd ≠ Dsi.setBrightness := by
    intro set hset
    cases hset with
    | bin hb hm =>
      obtain rfl := Actuator.bins.inj hb
      obtain rfl := List.mem_singleton.mp hm
      decide +kernel
    | _ => simp_all [c, Bench.plain, Dsi.CommandSet.messages]
  have h := level_in_low_power_above_bins (c := c) rfl hc ({} : Bench.Host) {} none
    none [.request .enable, .request .enterLp1] (.request (.setBrightness 20))
  obtain ⟨es, hes, hlevels⟩ := h.1 (by decide +kernel)
  refine ⟨⟨es, hes, fun e he hcmd => ?_⟩, by decide +kernel⟩
  obtain ⟨irc, hirc, -⟩ | ⟨hnone, -⟩ := hlevels e he hcmd
  · cases hirc
  · exact absurd hnone (by decide +kernel)

/-- In low power a brightness above the only bin is written as a level, and no bin is in force. -/
theorem level_written_in_low_power :
    let low : LowPower.Bin :=
      ⟨"low", 30, { commands := [⟨.shortWriteParam, true, 0, [0xE1, 0x01]⟩] }⟩
    let c : Config := { Bench.plain none with actuator := .bins [low] }
    let start := State.initial c ({} : Bench.Host) {} none none
    let s := run c start [.request .enable, .request (.setBrightness 10), .request .enterLp1]
    let t := step c s (.request (.setBrightness 200))
    let node := Bench.withProperties (Bench.plainNode [{
      name := LowPower.Bin.nodeName
      children := [{
        name := "low"
        properties := [
          (LowPower.Bin.keyThreshold, .cell 30),
          (LowPower.Bin.keyEnter, .cells (Dsi.CommandSet.pack [[0xE1, 0x01]]))] }] }])
      [("compatible", .texts [LowPower.compatible])]
    (Config.ofNode node false).toOption = some c ∧
      s.backlight.bits.lp = true ∧ s.backlight.bin = some 0 ∧ t.backlight.bits.lp = true ∧
      t.host.log = s.host.log.push { type := .shortWriteParam, tx := [0x51, 0xC8], last := true } ∧
      t.backlight.bin = none := by
  refine ⟨by decide +kernel, ?_⟩
  decide +kernel

end OledPanel.Panel
