import OledPanel.Bench.Plain
import OledPanel.Proofs.Description
import OledPanel.Proofs.Sunlight
import OledPanel.Proofs.Turns
import OledPanel.Proofs.Updates

/-! The states a run leads to are possible ones. Tasks, errands, strokes and the phases of a
transition keep the backlight, the timings and the gamma tables as they can be. What the
high-brightness mode may be is kept by chores, updates and the changes of the mode, and compensation
is owed while dimming lasts only. -/

namespace OledPanel.Panel

open OledPanel.Action (Lasting Within ok_of_bind)
open Dsi (Transport)

variable {σ : Type} [Transport σ] {c : Config}

/-! ### Backlight, timings and gamma tables -/

structure State.Sound (c : Config) (s : State σ) : Prop where
  backlight : s.backlight.Valid c
  refresh : s.refresh.Valid c
  gamma : s.gamma.Valid c

def SoundLasts (c : Config) : State σ → State σ → Prop := Lasting (State.Sound c)

instance : IsPreorder (State σ) (SoundLasts c) := inferInstanceAs (IsPreorder _ (Lasting _))

omit [Transport σ] in
theorem sound_of_eq {s t : State σ} (hb : t.backlight = s.backlight) (hr : t.refresh = s.refresh)
    (hg : t.gamma = s.gamma) : SoundLasts c s t :=
  fun hs => ⟨hb ▸ hs.backlight, hr ▸ hs.refresh, hg ▸ hs.gamma⟩

theorem sound_task (s t : State σ) (h : Task c s t) : SoundLasts c s t := by
  cases h with
  | refresh r hr => exact fun hs => { hs with refresh := hs.refresh.of_same hr }
  | gamma g _ hv => exact fun hs => { hs with gamma := hv hs.gamma }
  | _ => exact sound_of_eq rfl rfl rfl

theorem sound_errand (s t : State σ) (h : Errand c s t) : SoundLasts c s t := by
  cases h with
  | task h => exact sound_task s t h
  | idle i hv => exact fun hs => { hs with refresh := { hs.refresh with idle := hv } }
  | enqueue => exact fun hs => { hs with refresh := hs.refresh.of_same ⟨rfl, rfl, rfl⟩ }
  | adjust _ _ _ _ _ _ hv => exact fun hs => { hs with backlight := hv hs.backlight }
  | _ => exact sound_of_eq rfl rfl rfl

theorem sound_unaware : Unaware c (SoundLasts c : State σ → State σ → Prop) where
  task := sound_task
  dims _ _ _ _ := sound_of_eq rfl rfl rfl
  ask _ _ _ := sound_of_eq rfl rfl rfl
  store _ _ _ _ _ _ := sound_of_eq rfl rfl rfl
  keep _ _ _ := sound_of_eq rfl rfl rfl
  mode _ _ := sound_of_eq rfl rfl rfl

theorem sound_update : Within (SoundLasts c) (update c : Action (State σ) Unit) := by
  have hblind : Blind c (SoundLasts c : State σ → State σ → Prop) := sound_unaware.toBlind
  intro s
  obtain ⟨t, hst, htu⟩ := update_strokes (c := c) s
  have hfound : SoundLasts c s t := by
    cases hst with
    | stay => exact refl s
    | enter hh hr _ _ _ => exact within_enterRange hblind hh hr s
  refine IsTrans.trans _ _ _ hfound (Action.related_of_closure (fun u v h => ?_) htu)
  cases h with
  | backlight level bits held als bin edge hv =>
    exact fun hs => { hs with backlight := { hv hs.backlight with } }
  | restart => exact related_restartDimming hblind u
  | _ => exact sound_of_eq rfl rfl rfl

/-! ### Transitions -/

omit [Transport σ] in
theorem sound_earlyDpms (d : Dpms) :
    Within (SoundLasts c) (earlyDpms d : Action (State σ) Unit) := by
  intro s
  rw [after_earlyDpms]
  exact sound_of_eq rfl rfl rfl

omit [Transport σ] in
/-- The framebuffer is powered down with the bit that blanks the panel. -/
theorem sound_enterDpms (d : Dpms) :
    Within (SoundLasts c) (enterDpms d : Action (State σ) Unit) := by
  intro s hs
  rw [after_enterDpms]
  have hpower : (if (d.apply s.backlight.bits).blanked then Power.down else .up) = .down ↔
      (d.apply s.backlight.bits).blanked = true := by
    split <;> simp_all
  exact { hs with backlight :=
    { hs.backlight with power := hpower, bits := d.valid_apply hs.backlight.bits } }

omit [Transport σ] in
theorem sound_powered (s : State σ) : SoundLasts c s (powered c s) := by
  refine fun hs => { hs with backlight := { hs.backlight with gate := fun hg => ?_ } }
  rw [powered, Bool.and_eq_false_iff, Bool.not_eq_false'] at hg
  exact hg.elim hs.backlight.gate id

theorem sound_oblivious : Oblivious c (SoundLasts c : State σ → State σ → Prop) where
  toUnaware := sound_unaware
  early := sound_earlyDpms
  enter := sound_enterDpms
  update := sound_update
  errand := sound_errand
  powered := sound_powered
  unpowered _ := sound_of_eq rfl rfl rfl
  regulator _ _ := sound_of_eq rfl rfl rfl

/-! ### Inputs -/

/-- A timing that is scheduled is one of those of the panel. -/
theorem sound_retimes {s t : State σ} {i : Input} (h : Retimes c s i t) : SoundLasts c s t := by
  intro hs
  cases h with
  | @schedule _ j current hc hj =>
    have hlt : j < c.timings.length := hj hs.refresh
    have hasked : State.Sound c { s with refresh.current := current } := by
      obtain rfl | rfl := hc
      · exact { hs with refresh := hs.refresh }
      · exact { hs with refresh := hs.refresh.ask hlt }
    have hdrained := within_of_tasks sound_task tasks_drain _ hasked
    rw [after_queueSwitch]
    exact { hdrained with refresh := { hdrained.refresh with
      scheduled := fun i hi => Option.some.inj hi ▸ hlt } }
  | @idle j hj =>
    have hscheduled : State.Sound c { s with refresh.scheduled := some j } :=
      { hs with refresh := { hs.refresh with
        scheduled := fun i hi => Option.some.inj hi ▸ hs.refresh.idle j hj } }
    exact Action.related_of_closure sound_task (tasks_performSwitch (c := c) rfl) hscheduled

theorem sound_step (s : State σ) (i : Input) : SoundLasts c s (step c s i) :=
  sound_oblivious.step sound_retimes s i

theorem sound_run {s : State σ} (hs : s.Sound c) (is : List Input) : (run c s is).Sound c := by
  induction is generalizing s with
  | nil => exact hs
  | cons i is ih => exact ih (sound_step s i hs)

/-! ### High-brightness mode -/

/-- The mode is one that the panel has and is permitted, and a range is one of its ranges and in
force in the mode only. -/
structure Permitted (c : Config) (m : Hbm.State) : Prop where
  mode : m.mode ≠ .off → c.hbm.isSome = true
  sunlight : m.mode = .sunlight → m.sunlightEnabled = true
  range : ∀ i, m.range = some i → m.mode ≠ .off ∧ ∃ h, c.hbm = some h ∧ i < h.ranges.length

def PermittedLasts (c : Config) : State σ → State σ → Prop := Lasting fun s => Permitted c s.hbm

instance : IsPreorder (State σ) (PermittedLasts c) := inferInstanceAs (IsPreorder _ (Lasting _))

omit [Transport σ] in
theorem permitted_of_eq {s t : State σ} (hm : t.hbm.mode = s.hbm.mode)
    (ho : t.hbm.sunlightEnabled = s.hbm.sunlightEnabled) (hr : t.hbm.range = s.hbm.range) :
    PermittedLasts c s t := by
  intro hs
  refine ⟨?_, ?_, ?_⟩
  · exact hm ▸ hs.mode
  · exact hm ▸ ho ▸ hs.sunlight
  · exact hm ▸ hr ▸ hs.range

theorem permitted_chore (s t : State σ) (h : Chore c s t) : PermittedLasts c s t := by
  cases h with
  | permit on ho => exact fun hs => { hs with sunlight := fun hm => ho.resolve_right (· hm) }
  | _ => exact permitted_of_eq rfl rfl rfl

theorem permitted_stopDimming :
    Within (PermittedLasts c) (stopDimming c : Action (State σ) Unit) :=
  fun _ => related_stopDimming fun _ _ _ => permitted_of_eq rfl rfl rfl

theorem permitted_countFrame (arrived : Bool) :
    Within (PermittedLasts c) (countFrame c arrived : Action (State σ) Unit) := by
  intro s
  have hleft (n : Nat) : PermittedLasts c s { s with hbm.dimming.left := n } :=
    permitted_of_eq rfl rfl rfl
  refine related_countFrame arrived (fun _ => ?_) fun _ _ => hleft _
  exact IsTrans.trans _ _ _ (hleft 0) (permitted_stopDimming _)

theorem permitted_enterRange {h : Hbm.Config} (hh : c.hbm = some h) {i : Nat} {r : Hbm.Range}
    (hr : h.ranges[i]? = some r) {s : State σ} (hm : s.hbm.mode.isOn = true) :
    PermittedLasts c s ((enterRange c i r).after s) := by
  intro hs
  obtain ⟨g, he⟩ := enterRange_frame (c := c) i r s
  obtain ⟨d, m, hstart⟩ := startDimming_frame r.frames (.range i) s
  rw [he, hstart]
  refine { hs with range := ?_ }
  rintro _ ⟨⟩
  exact ⟨by simpa [HbmMode.isOn] using hm, h, hh, (List.getElem?_eq_some_iff.mp hr).1⟩

theorem permitted_updates : Updates c (PermittedLasts c : State σ → State σ → Prop) where
  errand _ _ h := permitted_chore _ _ h.chore
  level _ _ _ _ := permitted_of_eq rfl rfl rfl
  backlight _ _ := permitted_of_eq rfl rfl rfl
  restart s := by
    obtain ⟨m, hm⟩ := restartDimming_frame s
    rw [hm]
    exact permitted_of_eq rfl rfl rfl
  enter _ _ _ _ hh hr hm _ := permitted_enterRange hh hr hm

theorem permitted_admits : Admits c (PermittedLasts c : State σ → State σ → Prop) where
  chore := permitted_chore
  count := permitted_countFrame
  update := within_update permitted_updates

/-- A change of the mode forgets the range on the way out, and keeps it from one mode to another. -/
theorem permitted_changeHbm {h : Hbm.Config} (hh : c.hbm = some h) {mode : HbmMode} {s : State σ}
    (hs : mode = .sunlight → s.hbm.sunlightEnabled = true) :
    PermittedLasts c s ((changeHbm c h mode).after s) := by
  have hfollow : Within (PermittedLasts c)
      (followSunlight c s.hbm.mode mode : Action (State σ) Unit) := by
    intro t
    obtain ⟨g, b, o, he⟩ := followSunlight_frame (c := c) s.hbm.mode mode t
    rw [he]
    exact permitted_of_eq rfl rfl rfl
  refine related_changeHbm (fun _ _ h => permitted_chore _ _ h.chore) permitted_admits.update hfollow fun hp => ?_
  split
  · next hoff =>
    subst hoff
    obtain ⟨g, he⟩ := exitRanges_frame (c := c) h { s with hbm.mode := .off }
    obtain ⟨d, m, hstart⟩ := startDimming_frame h.exitFrames .exit { s with hbm.mode := .off }
    rw [he, hstart]
    exact ⟨fun hm => absurd rfl hm, nofun, nofun⟩
  · next hon =>
    have hsome : c.hbm.isSome = true := by rw [hh, Option.isSome_some]
    exact ⟨fun _ => hsome, hs, fun i hi => ⟨hon, (hp.range i hi).2⟩⟩

theorem permitted_turn (s : State σ) (i : Input) (t : State σ) (h : Turn c s i t) :
    PermittedLasts c s t := by
  have hdown : Within (PermittedLasts c) (shutDown c : Action (State σ) Unit) := by
    intro s
    have hstop := permitted_stopDimming (c := c) { s with initialized := false }
    rw [shutDown_eq]
    exact fun hs => { hstop hs with range := nofun }
  cases h with
  | enable => exact within_enable permitted_admits.transits (fun _ => permitted_of_eq rfl rfl rfl) s
  | disable => exact within_disable permitted_admits.transits hdown s
  | irc on =>
    obtain ⟨g, b, h⟩ := updateIrc_frame (c := c) on s
    rw [h]
    exact permitted_of_eq rfl rfl rfl
  | hbm hh _ hs => exact permitted_changeHbm hh hs

/-! ### Runs -/

/-- What holds of every panel in use. -/
structure State.Valid (c : Config) (s : State σ) : Prop extends State.Sound c s where
  hbm : Permitted c s.hbm
  owed : s.hbm.ircOwed = true → s.hbm.dimming.active = true

omit [Transport σ] in
theorem sound_initial
    (hc : ∀ ts, c.backlight.thresholds = some ts → ts.length ≤ Backlight.maxThresholds) (host : σ)
    (display : Display) (pwm : Option Pwm) (regulator : Option Regulator) :
    (State.initial c host display pwm regulator).Sound c where
  backlight := {
    brightness := by
      rw [UInt32.le_iff_toNat_le]
      exact Nat.div_le_self _ _
    power := iff_of_false nofun nofun
    bits := ⟨nofun, rfl, rfl⟩
    factor := UInt32.le_refl _
    sunlightFactor := UInt32.le_refl _
    gate := nofun
    als := by
      intro a ha
      obtain ⟨ts, hts, rfl⟩ := Option.map_eq_some_iff.mp ha
      exact hc ts hts
    bin := nofun }
  refresh := {
    some_iff := by
      rw [State.initial]
      cases c.timings <;> simp
    current := by
      rw [State.initial]
      cases c.timings <;> simp
    scheduled := nofun
    idle := nofun }
  gamma := ⟨by simp [State.initial], nofun⟩

theorem permitted_run (host : σ) (display : Display) (pwm : Option Pwm)
    (regulator : Option Regulator) (inputs : List Input) :
    Permitted c (run c (State.initial c host display pwm regulator) inputs).hbm :=
  related_run permitted_admits permitted_turn _ inputs ⟨fun hm => absurd rfl hm, nofun, nofun⟩

theorem sound_run_of_ofNode {n : Node} {hasPwm : Bool} (hc : Config.ofNode n hasPwm = .ok c)
    (host : σ) (display : Display) (pwm : Option Pwm) (regulator : Option Regulator)
    (inputs : List Input) : (run c (State.initial c host display pwm regulator) inputs).Sound c := by
  obtain ⟨-, hthresholds⟩ := backlight_of_ofNode (parts_of_ofNode hc).1
  exact sound_run (sound_initial hthresholds host display pwm regulator) inputs

/-- Every state that a run of a panel leads to is possible. -/
theorem valid_run {n : Node} {hasPwm : Bool} (hc : Config.ofNode n hasPwm = .ok c) (host : σ)
    (display : Display) (pwm : Option Pwm) (regulator : Option Regulator) (inputs : List Input) :
    (run c (State.initial c host display pwm regulator) inputs).Valid c := by
  have hsound := sound_run_of_ofNode hc host display pwm regulator inputs
  exact {
    hsound with
    hbm := permitted_run host display pwm regulator inputs
    owed := related_run owed_admits owed_turn _ inputs nofun }

theorem valid_run_of_sunlight :
    let hbm : Hbm.Config := {
      ranges := [⟨0, 255, 100, 200, {}, { commands := [⟨.shortWriteParam, true, 0, [0x53, 0x20]⟩] }, 2⟩]
      exit := {}
      exitStop := {}
      exitFrames := 0
      irc := none }
    let node := Bench.plainNode [Bench.hbmNode [] [Bench.rangeNode 0 100 200 (some (2, [0x53, 0x20]))]]
    let c := Bench.plain (some hbm)
    let s := Bench.plainRun (some hbm) {}
      [.request .enable, .request (.enableSunlight true), .request (.setHbm .sunlight), .pulse]
    Config.ofNode node false = .ok c ∧ s.Valid c ∧ s.hbm.mode = .sunlight ∧ s.hbm.range = some 0 := by
  intro hbm node c s
  have hc : Config.ofNode node false = .ok c := by decide +kernel
  exact ⟨hc, valid_run hc ({} : Bench.Host) {} none none _, by decide +kernel⟩

end OledPanel.Panel
