import OledPanel.Bench.Plain
import OledPanel.Proofs.Dimming
import OledPanel.Proofs.Turns
import OledPanel.Proofs.Updates

/-! The commands that end dimming belong to the state in force, the range that was entered last
or the way out of the mode, wherever that state asks for frames. Entering a range without frames,
or leaving the mode without frames, does not disturb dimming that is under way, so it then ends
with the commands of the state before. -/

namespace OledPanel

namespace Hbm

/-- The commands that end dimming into the state in force. -/
def State.due (m : State) : Stop :=
  match m.range with
  | some i => .range i
  | none => .exit

/-- The frames that dimming lasts which ends with these commands. -/
def Config.framesOf (h : Config) : Stop → Nat
  | .range i => (h.ranges[i]?.map (·.frames)).getD 0
  | .exit => h.exitFrames

end Hbm

namespace Panel

open OledPanel.Action (Within Lasting)
open Dsi (Transport)

variable {σ : Type} [Transport σ] {c : Config}

/-- Active dimming has frames of its own, and ends with the commands due in the state in force
unless that state has no frames. -/
def Owned (c : Config) (m : Hbm.State) : Prop :=
  m.dimming.active = true → ∃ h stop, c.hbm = some h ∧ m.dimming.stop = some stop ∧
    0 < h.framesOf stop ∧ (stop = m.due ∨ h.framesOf m.due = 0)

/-- Besides, a range is in force in high-brightness mode only. -/
structure InForce (c : Config) (m : Hbm.State) : Prop where
  mode : m.range.isSome → m.mode ≠ .off
  owned : Owned c m

theorem owned_of_idle {m : Hbm.State} (h : m.dimming.active = false) : Owned c m := by
  intro ha
  rw [h] at ha
  cases ha

theorem owned_of_eq {m n : Hbm.State} (hd : n.dimming = m.dimming) (hr : n.range = m.range)
    (h : Owned c m) : Owned c n := by
  intro ha
  rw [hd] at ha
  have hdue : n.due = m.due := by rw [Hbm.State.due, Hbm.State.due, hr]
  rw [hdue, hd]
  exact h ha

omit [Transport σ] in
/-- The state in force, entered with its frames, takes dimming over or leaves what is under way. -/
theorem owned_startDimming {h : Hbm.Config} (hh : c.hbm = some h) (range : Option Nat) (s : State σ)
    (hs : Owned c s.hbm) {frames : Nat} {stop : Hbm.Stop} (hf : h.framesOf stop = frames)
    (hr : ({ s.hbm with range := range } : Hbm.State).due = stop) :
    Owned c { ((startDimming frames stop).after s).hbm with range := range } := by
  obtain ⟨he, hcause⟩ | ⟨hn, he⟩ := startDimming_cases frames stop s
  · rw [he]
    intro ha
    obtain ⟨h', old, hh', hold, hpos, -⟩ := hs ha
    obtain rfl : h = h' := Option.some.inj (hh.symm.trans hh')
    obtain hzero | ⟨hidle, -⟩ := hcause
    · refine ⟨h, old, hh, hold, hpos, .inr ?_⟩
      rw [hr, hf, hzero]
    · rw [show s.hbm.dimming.active = true from ha] at hidle
      cases hidle
  · rw [he]
    intro _
    exact ⟨h, stop, hh, rfl, by omega, .inl hr.symm⟩

/-! ### Parts of operations -/

def InForceLasts (c : Config) : State σ → State σ → Prop := Lasting fun s => InForce c s.hbm

instance : IsPreorder (State σ) (InForceLasts c) := inferInstanceAs (IsPreorder _ (Lasting _))

omit [Transport σ] in
theorem inForce_of_eq {s t : State σ} (hd : t.hbm.dimming = s.hbm.dimming)
    (hr : t.hbm.range = s.hbm.range) (hm : t.hbm.mode = s.hbm.mode) : InForceLasts c s t := by
  intro h
  refine ⟨?_, owned_of_eq hd hr h.owned⟩
  rw [hr, hm]
  exact h.mode

theorem inForce_chore (s t : State σ) (h : Chore c s t) : InForceLasts c s t := by
  cases h <;> exact inForce_of_eq rfl rfl rfl

theorem inForce_stopDimming : Within (InForceLasts c) (stopDimming c : Action (State σ) Unit) :=
  fun _ => related_stopDimming fun _ _ _ h => ⟨h.mode, owned_of_idle rfl⟩

theorem inForce_countFrame (arrived : Bool) :
    Within (InForceLasts c) (countFrame c arrived : Action (State σ) Unit) := by
  intro s
  have hleft (n : Nat) : InForceLasts c s { s with hbm.dimming.left := n } :=
    fun h => ⟨h.mode, fun hn => h.owned hn⟩
  refine related_countFrame arrived (fun _ => ?_) fun _ _ => hleft _
  exact IsTrans.trans _ _ _ (hleft 0) (inForce_stopDimming _)

theorem inForce_enterRange (s : State σ) (h : Hbm.Config) (i : Nat) (r : Hbm.Range)
    (hh : c.hbm = some h) (hr : h.ranges[i]? = some r) (hm : s.hbm.mode.isOn) :
    InForceLasts c s ((enterRange c i r).after s) := by
  intro hs
  have hf : h.framesOf (.range i) = r.frames := by simp [Hbm.Config.framesOf, hr]
  have howned := owned_startDimming hh (some i) s hs.owned hf rfl
  obtain ⟨g, he⟩ := enterRange_frame (c := c) i r s
  rw [he]
  refine ⟨fun _ => ?_, howned⟩
  obtain ⟨d, m, hstart⟩ := startDimming_frame r.frames (.range i) s
  rw [hstart]
  simpa [HbmMode.isOn] using hm

theorem inForce_exitRanges (s : State σ) {h : Hbm.Config} (hh : c.hbm = some h)
    (hs : Owned c s.hbm) : InForce c ((exitRanges c h).after s).hbm := by
  have howned := owned_startDimming hh none s hs (rfl : h.framesOf .exit = h.exitFrames) rfl
  obtain ⟨g, he⟩ := exitRanges_frame (c := c) h s
  rw [he]
  exact ⟨nofun, howned⟩

theorem inForce_updates : Updates c (InForceLasts c : State σ → State σ → Prop) where
  errand _ _ h := inForce_chore _ _ h.chore
  level _ _ _ _ := inForce_of_eq rfl rfl rfl
  backlight _ _ := inForce_of_eq rfl rfl rfl
  restart s h := by
    unfold restartDimming
    split
    · exact ⟨h.mode, fun ha => h.owned ha⟩
    · exact h
  enter s h i r hh hr hm _ := inForce_enterRange s h i r hh hr hm

theorem inForce_admits : Admits c (InForceLasts c : State σ → State σ → Prop) where
  chore := inForce_chore
  count := inForce_countFrame
  update := within_update inForce_updates

/-! ### Runs -/

theorem inForce_changeHbm (s : State σ) {h : Hbm.Config} (hh : c.hbm = some h) (mode : HbmMode) :
    InForceLasts c s ((changeHbm c h mode).after s) := by
  intro hs
  have hfollow : Within (InForceLasts c)
      (followSunlight c s.hbm.mode mode : Action (State σ) Unit) := by
    intro t ht
    obtain ⟨g, b, o, he⟩ := followSunlight_frame (c := c) s.hbm.mode mode t
    rw [he]
    exact ⟨ht.mode, fun ha => ht.owned ha⟩
  refine related_changeHbm (fun _ _ h => inForce_chore _ _ h.chore) inForce_admits.update hfollow ?_ hs
  split
  · exact fun hs => inForce_exitRanges { s with hbm.mode := mode } hh hs.owned
  · next hm => exact fun hs => ⟨fun _ => hm, fun ha => hs.owned ha⟩

theorem inForce_shutDown : Within (InForceLasts c) (shutDown c : Action (State σ) Unit) := by
  intro s h
  rw [shutDown_eq]
  exact ⟨nofun, owned_of_idle (stopDimming_idle _)⟩

theorem inForce_turn (s : State σ) (i : Input) (t : State σ) (h : Turn c s i t) :
    InForceLasts c s t := by
  cases h with
  | enable => exact within_enable inForce_admits.transits (fun _ => inForce_of_eq rfl rfl rfl) s
  | disable => exact within_disable inForce_admits.transits inForce_shutDown s
  | irc on =>
    obtain ⟨g, b, h⟩ := updateIrc_frame (c := c) on s
    rw [h]
    exact inForce_of_eq rfl rfl rfl
  | hbm hh _ _ => exact inForce_changeHbm s hh _

/-- The last frame of a panel without a control register sends the commands dimming ends with,
then switches compensation on if that is owed. -/
theorem countFrame_of_last {s : State σ} (ha : s.hbm.dimming.active = true) (arrived : Bool)
    (hl : framesAfter s.hbm.dimming arrived = 0) (hc : c.family = .generic)
    (hi : s.initialized = true) {stop : Hbm.Stop} (hs : s.hbm.dimming.stop = some stop) :
    (countFrame c arrived).after s = (settleIrc c).after { s with
      host := (stopSet c stop).send.after s.host
      display := s.display.release
      hbm.dimming := {} } := by
  have hannounce (t : State σ) : (announce c (stopSet c stop)).after t =
      { t with host := (stopSet c stop).send.after t.host } := by
    rw [announce, hc]
    exact after_onHost _ t
  rw [countFrame_of_active ha, if_pos hl, stopDimming, Action.after_get_bind]
  dsimp only
  rw [if_pos ha, Action.after_set_bind, hs]
  dsimp only
  rw [if_pos hi, Action.after_attempt_bind, hannounce]

/-- In every state a run leads to, active dimming belongs to the state in force unless that has no
frames, and a range is in force in high-brightness mode only. When the frames run out, whatever
chores come before, a panel without a control register is sent the commands of that state. -/
theorem stop_commands_of_state_in_force (c : Config) (host : σ) (display : Display) (pwm : Option Pwm)
    (regulator : Option Regulator) (inputs : List Input) :
    let s := run c (State.initial c host display pwm regulator) inputs
    InForce c s.hbm ∧ ∀ t, Chores c s t → ∀ arrived, t.hbm.dimming.active = true →
      framesAfter t.hbm.dimming arrived = 0 → c.family = .generic → t.initialized = true →
        ∃ h stop, c.hbm = some h ∧ t.hbm.dimming.stop = some stop ∧
          (0 < h.framesOf t.hbm.due → stop = t.hbm.due) ∧
          (countFrame c arrived).after t = (settleIrc c).after { t with
            host := (stopSet c stop).send.after t.host
            display := t.display.release
            hbm.dimming := {} } := by
  intro s
  have hinit : InForce c (State.initial c host display pwm regulator).hbm :=
    ⟨nofun, owned_of_idle rfl⟩
  have hs : InForce c s.hbm := related_run inForce_admits inForce_turn _ inputs hinit
  refine ⟨hs, fun t ht arrived ha hl hc hi => ?_⟩
  have hreached : InForce c t.hbm := related_of_chores inForce_chore ht hs
  obtain ⟨h, stop, hh, hstop, -, hdue⟩ := hreached.owned ha
  refine ⟨h, stop, hh, hstop, fun hpos => ?_, countFrame_of_last ha arrived hl hc hi hstop⟩
  obtain hdue | hdue := hdue
  · exact hdue
  · omega

theorem stop_commands_of_state_in_force_at_last_frame :
    let stop : Dsi.CommandSet := { commands := [⟨.shortWriteParam, true, 0, [0x53, 0x20]⟩] }
    let hbm : Hbm.Config := {
      ranges := [⟨0, 255, 100, 200, {}, stop, 1⟩]
      exit := {}
      exitStop := {}
      exitFrames := 0
      irc := none }
    let s := Bench.plainRun (some hbm) {} [.request .enable, .request (.setHbm .on)]
    s.hbm.due = .range 0 ∧ 0 < hbm.framesOf s.hbm.due ∧
      (countFrame (Bench.plain (some hbm)) true).after s =
        (settleIrc (Bench.plain (some hbm))).after { s with
          host := stop.send.after s.host
          display := s.display.release
          hbm.dimming := {} } := by
  intro stop hbm s
  have hdue : s.hbm.due = .range 0 := by decide +kernel
  obtain ⟨-, hlast⟩ := stop_commands_of_state_in_force (Bench.plain (some hbm)) ({} : Bench.Host) {}
    none none [.request .enable, .request (.setHbm .on)]
  obtain ⟨h, st, hh, -, hst, heq⟩ :=
    hlast s (refl s) true (by decide +kernel) (by decide +kernel) rfl (by decide +kernel)
  obtain rfl : hbm = h := Option.some.inj hh
  have hpos : 0 < hbm.framesOf s.hbm.due := by
    rw [hdue]
    decide
  obtain rfl : st = .range 0 := (hst hpos).trans hdue
  exact ⟨hdue, hpos, heq⟩

/-- The commands of a range with three frames end dimming in the next range, which has none. -/
theorem stop_command_of_range_left :
    let stop : Dsi.CommandSet := { commands := [⟨.shortWriteParam, true, 0, [0x53, 0x20]⟩] }
    let hbm : Hbm.Config := {
      ranges := [⟨0, 199, 100, 200, {}, stop, 3⟩, ⟨200, 255, 201, 250, {}, {}, 0⟩]
      exit := {}
      exitStop := {}
      exitFrames := 0
      irc := none }
    let inputs := [.request .enable, .request (.setHbm .on), .request (.setBrightness 230)]
    let s := Bench.plainRun (some hbm) {} inputs
    (Config.ofNode (Bench.plainNode [Bench.hbmNode []
      [Bench.rangeNode 0 100 200 (some (3, [0x53, 0x20])), Bench.rangeNode 200 201 250 none]])
        false).toOption = some (Bench.plain (some hbm)) ∧
      s.hbm.dimming.active = true ∧ s.hbm.dimming.stop = some (.range 0) ∧ s.hbm.mode = .on ∧
      s.hbm.range = some 1 ∧
      (Bench.plainRun (some hbm) {} (inputs ++ [.pulse, .pulse, .pulse])).host.log.back? =
        some { type := .shortWriteParam, tx := [0x53, 0x20], last := true } := by
  refine ⟨by decide +kernel, ?_⟩
  decide +kernel

end Panel
end OledPanel
