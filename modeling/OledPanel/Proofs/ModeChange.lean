import OledPanel.Proofs.HeldLevels

/-! Changes of the high-brightness mode. A request is refused before anything is done, or it is
carried out: the new mode is in force at once, then the range is left or entered, and the level is
brought up to date at last. A failure there is the answer to the request, but it takes nothing back.
So what fails is the announcement to user space, and the same request made again finds its mode in
force and does nothing. -/

namespace OledPanel.Panel

open OledPanel.Action (Same Succeeds Within)
open Dsi (Transport)

variable {σ : Type} {c : Config}

/-- How many times a change of the mode was reported. -/
def State.modeReports (s : State σ) : Nat := s.display.events.count (.changed .hbmMode)

/-- Why a request for a mode is refused, if it is. -/
def State.refusal (c : Config) (s : State σ) (mode : HbmMode) : Option Error :=
  if c.hbm.isNone then some .notSupported
  else if mode ≠ s.hbm.mode ∧ mode = .sunlight ∧ s.hbm.sunlightEnabled = false then
    some (.invalid .sunlightNotEnabled)
  else none

/-- The range in force once a mode is: none outside high-brightness mode, and in it the range of the
brightness wanted. On a dark panel the range stays. -/
def State.rangeUnder (c : Config) (s : State σ) (mode : HbmMode) : Option Nat :=
  if mode = .off then none
  else if s.demand.IsDark then s.hbm.range
  else ((c.hbm.bind (target? · s.demand.scaled)).map (·.1)).or s.hbm.range

/-! ### Reports -/

/-- Nothing is reported of the mode. -/
abbrev Tacit : State σ → State σ → Prop := Same State.modeReports

theorem tacit_notify {e : Event} (he : e ≠ .changed .hbmMode) :
    Within Tacit (notify e : Action (State σ) Unit) :=
  fun _ => Array.count_push_of_ne he

theorem tacit_startDimming (frames : Nat) (stop : Hbm.Stop) :
    Within Tacit (startDimming frames stop : Action (State σ) Unit) := by
  intro s
  obtain ⟨h, -⟩ | ⟨-, h⟩ := startDimming_cases frames stop s
  · rw [h]
    exact refl s
  · rw [h]
    cases s.hbm.dimming.active <;> rfl

theorem tacit_observeAls (b : UInt32) : Within Tacit (observeAls b : Action (State σ) Unit) := by
  refine Within.get fun s => ?_
  split
  · exact Within.pure _
  · refine Within.bind (fun _ => rfl) fun _ => ?_
    exact Within.ite (fun _ => tacit_notify nofun) fun _ => Within.pure _

variable [Transport σ]

theorem tacit_enterRange (i : Nat) (r : Hbm.Range) :
    Within Tacit (enterRange c i r : Action (State σ) Unit) := by
  intro s
  obtain ⟨g, h⟩ := enterRange_frame (c := c) i r s
  rw [h]
  exact tacit_startDimming r.frames (.range i) s

theorem tacit_exitRanges (h : Hbm.Config) :
    Within Tacit (exitRanges c h : Action (State σ) Unit) := by
  intro s
  obtain ⟨g, he⟩ := exitRanges_frame (c := c) h s
  rw [he]
  exact tacit_startDimming h.exitFrames .exit s

theorem tacit_followSunlight (previous mode : HbmMode) :
    Within Tacit (followSunlight c previous mode : Action (State σ) Unit) := by
  intro s
  obtain ⟨g, b, o, h⟩ := followSunlight_frame (c := c) previous mode s
  rw [h]
  rfl

theorem tacit_commit (b level : UInt32) :
    Within Tacit (commit c b level : Action (State σ) (Option UInt32)) := by
  have hactuate : Within Tacit (actuate c level : Action (State σ) Unit) := by
    intro s
    obtain ⟨g, p, l, bin, e, h, -⟩ := drives_actuate (c := c) level s
    rw [h]
    rfl
  have hpresent : Within Tacit (present c b level : Action (State σ) Unit) := by
    refine hactuate.bind fun _ => Within.bind (fun _ => rfl) fun _ => Within.get fun _ => ?_
    exact Within.ite (fun _ => tacit_observeAls b) fun _ => Within.pure _
  have hrestart : Within Tacit (modify restartDimming : Action (State σ) Unit) := by
    intro s
    obtain ⟨m, h⟩ := restartDimming_frame s
    rw [Action.after_modify, h]
    rfl
  have htrack (r : Option UInt32) : Within Tacit
      (do modify (track level); return r : Action (State σ) (Option UInt32)) := fun _ => rfl
  intro s
  rw [commit, Action.after_get_bind]
  dsimp only
  split
  · rfl
  · refine hrestart.bind (fun _ => ?_) s
    exact Within.ite (fun _ => hpresent.bind fun _ => htrack _) fun _ => htrack _

theorem tacit_update : Within Tacit (update c : Action (State σ) Unit) := by
  have hlevel (b : UInt32) : Within Tacit (levelOf c b : Action (State σ) UInt32) :=
    within_levelOf (fun s _ i r _ _ _ _ => tacit_enterRange i r s) b
  have hupdate : Within Tacit (updateLevel c : Action (State σ) (Option UInt32)) := by
    refine Within.get fun s => (hlevel _).bind fun level => Within.get fun t => ?_
    exact Within.ite (fun _ => Within.pure _) fun _ => tacit_commit _ level
  refine hupdate.bind fun r => ?_
  cases r with
  | none => exact Within.pure _
  | some b => exact tacit_notify nofun

/-! ### Ranges -/

theorem range_hbmLevel (b : UInt32) (s : State σ) : ((hbmLevel c b).after s).hbm.range =
    ((c.hbm.bind (target? · b)).map (·.1)).or s.hbm.range := by
  unfold hbmLevel
  cases hh : c.hbm with
  | none => rfl
  | some h =>
  rw [Option.bind_some]
  cases ht : target? h b with
  | none => simp [ht]
  | some p =>
  obtain ⟨i, r⟩ := p
  simp only [ht, Action.after_get_bind, Option.map_some, Option.some_or]
  split
  · obtain ⟨g, he⟩ := enterRange_frame (c := c) i r s
    rw [Action.after_bind]
    split
    · rw [Action.after_ofExcept, he]
    · rw [he]
  · next hi =>
    rw [Action.after_ofExcept]
    exact Decidable.not_not.mp hi

/-- An update in high-brightness mode leaves the range of the brightness wanted in force, even where
entering it fails. -/
theorem range_update_of_on {s : State σ} (hm : s.hbm.mode.isOn = true) :
    ((update c).after s).hbm.range = s.rangeUnder c s.hbm.mode := by
  have hon : s.hbm.mode ≠ .off := by simpa [HbmMode.isOn] using hm
  rw [(strokes_update s).range, State.rangeUnder, if_neg hon]
  by_cases hdark : s.demand.IsDark
  · rw [if_pos hdark, s.wanted_eq_zero_iff.mpr hdark]
    rfl
  · have hlit : s.backlight.brightness ≠ 0 := fun hb => hdark (.inr (.inr hb))
    rw [if_neg hdark, State.wanted_of_lit hdark, levelOf, if_neg hlit, Action.after_get_bind]
    dsimp only
    rw [if_pos hm]
    exact range_hbmLevel _ s

theorem range_update_of_off {s : State σ} (hm : s.hbm.mode.isOn = false) :
    ((update c).after s).hbm.range = s.hbm.range := by
  obtain ⟨t, hst, htu⟩ := update_strokes (c := c) s
  cases hst with
  | stay => exact htu.range
  | enter hh hr hb hon hi => simp [hm] at hon

/-! ### Changes -/

/-- What a change of the mode has done before it brings the level up to date. -/
def State.changing (c : Config) (h : Hbm.Config) (mode : HbmMode) (s : State σ) : State σ :=
  (followSunlight c s.hbm.mode mode).after
    (if mode = .off then (exitRanges c h).after { s with hbm.mode := mode }
      else { s with hbm.mode := mode })

/-- Nothing of a change of the mode fails but the update at its end. -/
theorem changeHbm_run (h : Hbm.Config) (mode : HbmMode) (s : State σ) :
    changeHbm c h mode s =
      (do update c; notify (.changed .hbmMode) : Action (State σ) Unit) (s.changing c h mode) := by
  have hfollow : Succeeds (followSunlight c s.hbm.mode mode : Action (State σ) Unit) :=
    succeeds_followSunlight s.hbm.mode mode
  rw [changeHbm, Action.get_bind, Action.modify_bind]
  dsimp only
  by_cases hoff : mode = .off
  · rw [if_pos hoff, (succeeds_exitRanges h).bind_eq, hfollow.bind_eq, State.changing, if_pos hoff]
  · rw [if_neg hoff, hfollow.bind_eq, State.changing, if_neg hoff]

theorem changing_frame (h : Hbm.Config) (mode : HbmMode) (s : State σ) :
    ∃ g d m b o, s.changing c h mode = { s with
      host := g
      display := d
      hbm := { s.hbm with
        mode := mode
        range := if mode = .off then none else s.hbm.range
        dimming := m
        ircBytes := b
        ircOwed := o } } := by
  obtain ⟨g, b, o, hf⟩ := followSunlight_frame (c := c) s.hbm.mode mode
    (if mode = .off then (exitRanges c h).after { s with hbm.mode := mode }
      else { s with hbm.mode := mode })
  rw [State.changing, hf]
  by_cases hoff : mode = .off
  · obtain ⟨g', he⟩ := exitRanges_frame (c := c) h { s with hbm.mode := mode }
    obtain ⟨d, m, hd⟩ := startDimming_frame h.exitFrames .exit { s with hbm.mode := mode }
    rw [if_pos hoff, if_pos hoff, he, hd]
    exact ⟨_, _, _, _, _, rfl⟩
  · rw [if_neg hoff, if_neg hoff]
    exact ⟨_, _, _, _, _, rfl⟩

theorem tacit_changing (h : Hbm.Config) (mode : HbmMode) (s : State σ) :
    (s.changing c h mode).modeReports = s.modeReports := by
  refine (tacit_followSunlight _ _ _).trans ?_
  split
  · exact tacit_exitRanges h _
  · rfl

/-- The state in which a change of the mode brings the level up to date has the new mode in force, and
so the range under it once the update is over. -/
theorem range_update_changing (h : Hbm.Config) (mode : HbmMode) (s : State σ) :
    ((update c).after (s.changing c h mode)).hbm.range = s.rangeUnder c mode := by
  obtain ⟨g, d, m, b, o, hu⟩ := changing_frame (c := c) h mode s
  by_cases hoff : mode = .off
  · rw [range_update_of_off (by rw [hu, hoff]; rfl), State.rangeUnder, if_pos hoff, hu, if_pos hoff]
  · have hon : (s.changing c h mode).hbm.mode.isOn = true := by simpa [hu, HbmMode.isOn] using hoff
    rw [range_update_of_on hon, hu]
    simp only [if_neg hoff]
    rfl

/-- A change of the mode goes through whatever fails. It is reported if the update at its end goes
well, and once only. -/
theorem changeHbm_cases (h : Hbm.Config) (mode : HbmMode) (s : State σ) :
    let t := (changeHbm c h mode).after s
    t.hbm.mode = mode ∧ t.hbm.range = s.rangeUnder c mode ∧
      t.modeReports = s.modeReports + if (changeHbm c h mode).answer s = .ok () then 1 else 0 := by
  intro t
  let u : State σ := s.changing c h mode
  have hmode : ((update c).after u).hbm.mode = mode := by
    obtain ⟨g, d, m, b, o, hu⟩ := changing_frame (c := c) h mode s
    rw [(keeps_update u).mode]
    exact congrArg (·.hbm.mode) hu
  have hrange : ((update c).after u).hbm.range = s.rangeUnder c mode := range_update_changing h mode s
  have hreports : ((update c).after u).modeReports = s.modeReports :=
    (tacit_update u).trans (tacit_changing h mode s)
  have ht : t = Action.after (do update c; notify (.changed .hbmMode)) u := by
    rw [Action.after, ← changeHbm_run, ← Action.after]
  have hr : (changeHbm c h mode).answer s =
      Action.answer (do update c; notify (.changed .hbmMode)) u := by
    rw [Action.answer, changeHbm_run, ← Action.answer]
  rw [hr, ht, Action.after_bind, Action.answer_bind]
  cases (update c).answer u with
  | ok _ =>
    refine ⟨hmode, hrange, ?_⟩
    rw [← hreports]
    exact Array.count_push_self
  | error e => exact ⟨hmode, hrange, hreports⟩

/-! ### Requests -/

theorem setHbm_of_same {s : State σ} {mode : HbmMode} (hc : c.hbm.isSome = true)
    (hm : s.hbm.mode = mode) : setHbm c mode s = .ok () s := by
  obtain ⟨h, hh⟩ := Option.isSome_iff_exists.mp hc
  simp only [setHbm, hh]
  rw [Action.get_bind, if_neg (by simp [hm])]
  rfl

/-- A request for another mode is refused, or it is a change of the mode. -/
theorem setHbm_of_other {s : State σ} {mode : HbmMode} {h : Hbm.Config} (hh : c.hbm = some h)
    (hm : mode ≠ s.hbm.mode) : setHbm c mode s =
      if mode = .sunlight ∧ s.hbm.sunlightEnabled = false then
        .error (.invalid .sunlightNotEnabled) s
      else changeHbm c h mode s := by
  simp only [setHbm, hh]
  rw [Action.get_bind, if_pos hm]
  by_cases hr : mode = .sunlight ∧ s.hbm.sunlightEnabled = false
  · rw [if_pos hr, if_pos (by simp [hr])]
    rfl
  · rw [if_neg hr, if_neg (by simpa using hr)]

/-- A request for a mode that is refused, or that asks for the mode in force, leaves everything as it
is. Any other is carried out whatever fails: the mode is the one asked for, and the range the one
under it. If it answers an error nothing is reported, and the same request after it answers at once
that all is well, and does nothing; otherwise the change is reported once. -/
theorem mode_changed_unless_refused (c : Config) (s : State σ) (mode : HbmMode) :
    let t := (setHbm c mode).after s
    let u := step c s (.request (.setHbm mode))
    match s.refusal c mode with
    | some e => setHbm c mode s = .error e s
    | none =>
      if mode = s.hbm.mode then setHbm c mode s = .ok () s
      else t.hbm.mode = mode ∧ t.hbm.range = s.rangeUnder c mode ∧
        t.modeReports = s.modeReports + (if (setHbm c mode).answer s = .ok () then 1 else 0) ∧
        setHbm c mode u = .ok () u := by
  intro t u
  cases hh : c.hbm with
  | none =>
    rw [State.refusal, if_pos (by simp [hh])]
    simp only [setHbm, hh]
    rfl
  | some h =>
  have hsome : c.hbm.isSome = true := by simp [hh]
  rw [State.refusal, if_neg (by simp [hh])]
  by_cases hm : mode = s.hbm.mode
  · rw [if_neg (by simp [hm])]
    dsimp only
    rw [if_pos hm]
    exact setHbm_of_same hsome hm.symm
  have hset := setHbm_of_other hh hm
  by_cases hrefused : mode = .sunlight ∧ s.hbm.sunlightEnabled = false
  · rw [if_pos ⟨hm, hrefused⟩]
    rwa [if_pos hrefused] at hset
  rw [if_neg fun h => hrefused h.2]
  dsimp only
  rw [if_neg hrefused] at hset
  have hafter : t = (changeHbm c h mode).after s := by rw [Action.after, ← hset, ← Action.after]
  obtain ⟨hmode, hrange, hreports⟩ := changeHbm_cases (c := c) h mode s
  rw [if_neg hm, hafter, Action.answer, hset, ← Action.answer]
  refine ⟨hmode, hrange, hreports, setHbm_of_same hsome ?_⟩
  have hstill : Still t u := by
    rw [show u = step c s (.request (.setHbm mode)) from rfl, step_eq]
    have hperform : ((Input.request (.setHbm mode)).perform c).after s = t :=
      after_done (setHbm c mode) s
    rw [hperform]
    exact still_settle t
  rw [hstill.parts.2.2, hafter, hmode]

/-- The command on the way into the range is not taken, and the mode is on all the same. Asked for the
mode again, the panel is sent nothing and reports nothing. -/
theorem mode_on_after_refused_entry :
    let hbm : Hbm.Config := {
      ranges := [⟨0, 255, 100, 200, { commands := [⟨.shortWriteParam, true, 0, [0x53, 0xE0]⟩] }, {}, 0⟩]
      exit := {}
      exitStop := {}
      exitFrames := 0
      irc := none }
    let c := Bench.plain (some hbm)
    let s := Bench.plainRun (some hbm) { countdown := some 1 } [.request .enable]
    let t := step c s (.request (.setHbm .on))
    let u := step c t (.request (.setHbm .on))
    (Config.ofNode (Bench.plainNode [Bench.hbmNode []
      [Bench.withProperties (Bench.rangeNode 0 100 200 none)
        [(Hbm.keyEntry, .cells (Dsi.CommandSet.pack [[0x53, 0xE0]]))]]]) false).toOption = some c ∧
      (setHbm c .on).answer s ≠ .ok () ∧ s.hbm.mode = .off ∧ s.hbm.range = none ∧
      t.hbm.mode = .on ∧ t.hbm.range = some 0 ∧ (setHbm c .on).answer t = .ok () ∧
      u.host.log.toList.map (·.tx) = [[0x51, 0x7F]] ∧ u.modeReports = 0 := by
  refine ⟨by decide +kernel, ?_⟩
  decide +kernel

end OledPanel.Panel
