import OledPanel.Bench.Plain
import OledPanel.Proofs.Courses
import OledPanel.Proofs.Updates

/-! What a panel is sent that takes no levels, because it is off or because its gate is closed.
Strokes send it nothing. Finding the level comes before them, though, and sends what announces a
range when one is entered, and on the way down compensation that was owed is switched on after
the commands to power off. Otherwise the panel is left alone. -/

namespace OledPanel.Panel

open OledPanel.Action (Lasting Within)
open Dsi (Transport)

variable {σ : Type} [Transport σ] {c : Config}

/-- The requests for a brightness, its factors, a power state, or the level as it is. -/
inductive Request.Backlit : Request → Prop
  | brightness (b : UInt32) : Backlit (.setBrightness b)
  | scale (factor sunlightFactor : UInt32) : Backlit (.setScale factor sunlightFactor)
  | update : Backlit .update
  | dpms (d : Dpms) : Backlit (.setDpms d)

/-- The host is sent nothing, and the range in force stays. -/
def Silent (s t : State σ) : Prop := t.host = s.host ∧ t.hbm.range = s.hbm.range

/-- A range is entered that is not the one in force, and the host is sent what announces it and
nothing else. -/
def Announces (c : Config) (s t : State σ) : Prop :=
  ∃ h i r u, c.hbm = some h ∧ h.ranges[i]? = some r ∧ s.hbm.mode.isOn = true ∧
    s.hbm.range ≠ some i ∧ t.hbm.range = some i ∧ u.host = s.host ∧ u.hbm.mode = s.hbm.mode ∧
    t.host = ((announce c r.entry).after u).host

/-- A panel that takes no levels is left alone, or told of the range it enters. -/
def Quiet (c : Config) (s t : State σ) : Prop := Silent s t ∨ Announces c s t

/-! ### Updates -/

theorem announces_enterRange {h : Hbm.Config} {i : Nat} {r : Hbm.Range} {s : State σ}
    (hh : c.hbm = some h) (hr : h.ranges[i]? = some r) (hm : s.hbm.mode.isOn = true)
    (hi : s.hbm.range ≠ some i) : Announces c s ((enterRange c i r).after s) := by
  have hstart : ((startDimming r.frames (.range i)).after s).host = s.host ∧
      ((startDimming r.frames (.range i)).after s).hbm.mode = s.hbm.mode := by
    obtain ⟨d, m, h⟩ := startDimming_frame r.frames (.range i) s
    rw [h]
    exact ⟨rfl, rfl⟩
  obtain ⟨g, he⟩ := enterRange_frame (c := c) i r s
  refine ⟨h, i, r, { (startDimming r.frames (.range i)).after s with hbm.range := some i }, hh, hr, hm,
    hi, ?_, hstart.1, hstart.2, ?_⟩
  · rw [he]
  · rw [enterRange, Action.after_attempt_bind, Action.after_modify_bind]

theorem quiet_update {s : State σ} (hs : ¬s.Live) : Quiet c s ((update c).after s) := by
  obtain ⟨t, hst, htu⟩ := update_strokes (c := c) s
  have hhost : ((update c).after s).host = t.host := htu.host fun ht => hs (hst.keeps.live.mp ht)
  have hrange := htu.range
  cases hst with
  | stay => exact .inl ⟨hhost, hrange⟩
  | enter hh hr hb hm hi =>
    obtain ⟨h, i, r, u, hh, hr, hm, hi, hentered, hu, hmode, hsent⟩ :=
      announces_enterRange hh hr hm hi
    exact .inr ⟨h, i, r, u, hh, hr, hm, hi, hrange.trans hentered, hu, hmode, hhost.trans hsent⟩

/-! ### Requests -/

/-- A change of the state before that does not concern the host or the mode. -/
theorem Quiet.of_eq {s t u : State σ} (h : Quiet c t u) (hh : t.host = s.host)
    (hm : t.hbm = s.hbm) : Quiet c s u := by
  simpa only [Quiet, Silent, Announces, hh, hm] using h

theorem quiet_lateDpms (d : Dpms) {s : State σ} (hs : ¬s.Live) :
    Quiet c s ((lateDpms c d).after s) := by
  have henter : ((enterDpms d).after s).host = s.host ∧ ((enterDpms d).after s).hbm = s.hbm ∧
      ¬((enterDpms d).after s).Live := by
    rw [after_enterDpms]
    exact ⟨rfl, rfl, hs⟩
  obtain ⟨hh, hm, hlive⟩ := henter
  have hupdate : Quiet c ((enterDpms d).after s) ((update c).after ((enterDpms d).after s)) :=
    quiet_update hlive
  rw [lateDpms_eq]
  exact hupdate.of_eq hh hm

theorem quiet_perform {q : Request} (hq : q.Backlit) {s : State σ} (hs : ¬s.Live) :
    Quiet c s ((q.perform c).after s) := by
  have hrefl : Quiet c s s := .inl ⟨rfl, rfl⟩
  cases hq with
  | brightness b =>
    rw [Request.perform, after_done]
    unfold setBrightness
    dsimp only
    split
    · exact hrefl
    · have h : Quiet c { s with backlight.brightness := b } _ := quiet_update hs
      exact h.of_eq rfl rfl
  | scale f g =>
    rw [Request.perform, after_done]
    unfold setScale
    dsimp only
    split
    · exact hrefl
    · have h : Quiet c { s with backlight.factor := f, backlight.sunlightFactor := g } _ :=
        quiet_update hs
      exact h.of_eq rfl rfl
  | update =>
    rw [Request.perform, after_done]
    exact quiet_update hs
  | dpms d =>
    have hearly : ((earlyDpms d).after s).host = s.host ∧ ((earlyDpms d).after s).hbm = s.hbm ∧
        ¬((earlyDpms d).after s).Live := by
      rw [after_earlyDpms]
      exact ⟨rfl, rfl, hs⟩
    obtain ⟨hh, hm, hlive⟩ := hearly
    rw [Request.perform, after_done, setDpms, Action.after_bind]
    split
    · exact (quiet_lateDpms d hlive).of_eq hh hm
    · exact .inl ⟨hh, by rw [hm]⟩

/-! ### The way down -/

theorem host_lateDpms_off {s : State σ} (hs : s.initialized = false) :
    ((lateDpms c .off).after s).host = s.host := by
  have henter := after_enterDpms .off s
  have hlive : ¬((enterDpms .off).after s).Live := by
    rw [henter]
    rintro ⟨hi, -⟩
    rw [show s.initialized = true from hi] at hs
    cases hs
  have hdark : ((enterDpms .off).after s).backlight.wanted = 0 := by
    rw [henter]
    rfl
  have hupdate := (strokes_of_dark (c := c) hdark).host hlive
  rw [lateDpms_eq]
  exact hupdate.trans (by rw [henter])

/-- Once the panel is not powered, the end of dimming concerns the host if compensation is owed. -/
theorem host_stopDimming_off {s : State σ} (hs : s.initialized = false) :
    ((stopDimming c).after s).host =
      if s.hbm.dimming.active && s.hbm.ircOwed then
        ((updateIrc c true).after { s with display := s.display.release, hbm.dimming := {} }).host
      else s.host := by
  have hsettle (t : State σ) : ((settleIrc c).after t).host =
      if t.hbm.ircOwed then ((updateIrc c true).after t).host else t.host := by
    rw [settleIrc, Action.after_get_bind]
    dsimp only
    split
    · rw [Action.after_attempt_bind, Action.after_modify]
    · rfl
  rw [stopDimming, Action.after_get_bind]
  dsimp only
  cases ha : s.hbm.dimming.active with
  | false => rfl
  | true =>
    rw [if_pos rfl, Action.after_set_bind, Bool.true_and]
    cases s.hbm.dimming.stop with
    | none => exact hsettle _
    | some stop =>
      dsimp only
      rw [if_neg (by simp [hs])]
      exact hsettle _

theorem host_disable (s : State σ) : ((disable c).after s).host =
    let u := (drain c).after s
    let off := c.sets.off.send.after u.host
    if u.hbm.dimming.active && u.hbm.ircOwed then
      ((updateIrc c true).after { u with
        host := off, initialized := false, display := u.display.release, hbm.dimming := {} }).host
    else off := by
  have hoff : Within (Lasting fun s : State σ => s.initialized = false) (stopDimming c) :=
    fun _ => related_stopDimming fun _ _ _ => id
  have hshut (t : State σ) : ((shutDown c).after t).initialized = false := by
    rw [shutDown_eq]
    exact hoff _ rfl
  rw [disable_eq, host_lateDpms_off (hshut _), shutDown_eq]
  exact host_stopDimming_off rfl

/-- A panel that is off or gated is sent nothing by requests for a level or a power state, unless
they enter a range. After the commands to power off it is sent nothing, unless dimming is active
and compensation owed. -/
theorem silent_unless_range_entered_or_compensation_owed (c : Config) (s : State σ) :
    (s.initialized = false ∨ s.backlight.gateOpen = false → ∀ q : Request, q.Backlit →
      let t := (q.perform c).after s
      Silent s t ∨ Announces c s t) ∧
    ((disable c).after s).host =
      let u := (drain c).after s
      let off := c.sets.off.send.after u.host
      if u.hbm.dimming.active && u.hbm.ircOwed then
        ((updateIrc c true).after { u with
          host := off, initialized := false, display := u.display.release, hbm.dimming := {} }).host
      else off := by
  refine ⟨fun h q hq => quiet_perform hq ?_, host_disable s⟩
  rintro ⟨hi, hg⟩
  simp [hi, hg] at h

theorem range_announced_before_power_on :
    let hbm : Hbm.Config := {
      ranges := [⟨0, 199, 100, 200, {}, {}, 0⟩, ⟨200, 255, 201, 250, {}, {}, 0⟩]
      exit := {}
      exitStop := {}
      exitFrames := 0
      irc := none }
    let c := Bench.plain (some hbm)
    let s := Bench.plainRun (some hbm) {} [.request (.setHbm .on)]
    s.initialized = false ∧ Announces c s (((Request.setBrightness 230).perform c).after s) := by
  intro hbm c s
  have hoff : s.initialized = false := by decide +kernel
  refine ⟨hoff, ?_⟩
  have h := (silent_unless_range_entered_or_compensation_owed c s).1 (.inl hoff) _ (.brightness 230)
  refine h.resolve_left fun hsilent => ?_
  exact absurd hsilent.2 (by decide +kernel)

/-- Compensation is switched on after the commands to power off, and a range is announced to the
panel that is off. -/
theorem compensation_and_range_sent_while_off :
    let hbm : Hbm.Config := {
      ranges := [⟨0, 255, 100, 200, { commands := [⟨.shortWriteParam, true, 0, [0x53, 0xE0]⟩] },
        { commands := [⟨.shortWriteParam, true, 0, [0x53, 0x20]⟩] }, 2⟩]
      exit := {}
      exitStop := {}
      exitFrames := 0
      irc := some { address := 0xB5, bit := 11, unlock := {}, lock := {} } }
    let c : Config := { Bench.plain (some hbm) with
      sets.off := { commands := [⟨.shortWrite, true, 0, [0x28]⟩] } }
    let host : Bench.Host := { registers := [(0xB5, [0x00, 0xFF])] }
    let node := Bench.plainNode [Bench.hbmNode
      [(Hbm.Irc.keyAddress, .cell 0xB5), (Hbm.Irc.keyBit, .cell 11)]
      [Bench.withProperties (Bench.rangeNode 0 100 200 (some (2, [0x53, 0x20])))
        [(Hbm.keyEntry, .cells (Dsi.CommandSet.pack [[0x53, 0xE0]]))]]]
    let inputs := [.request .enable, .request (.enableSunlight true), .request (.setHbm .sunlight),
      .request (.setHbm .on)]
    let sent (is : List Input) : List (List UInt8) :=
      (run c (State.initial c host {} none none) is).host.log.toList.map (·.tx)
    (Config.ofNode (Bench.withProperties node
      [("qcom,mdss-dsi-off-command", .cells (Dsi.CommandSet.pack [[0x28]]))]) false).toOption = some c ∧
      sent (inputs ++ [.request .disable]) = sent inputs ++ [[0x28], [0xB5, 0x00, 0xFF]] ∧
      sent (inputs ++ [.request .disable, .request (.setDpms .on)]) =
        sent (inputs ++ [.request .disable]) ++ [[0x53, 0xE0]] := by
  refine ⟨by decide +kernel, ?_⟩
  decide +kernel

end OledPanel.Panel
