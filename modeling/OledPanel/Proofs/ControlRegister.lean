import OledPanel.Bench.Plain
import OledPanel.Proofs.Recording
import OledPanel.Proofs.Representation

/-! The control register of a panel that has one. Its bits tell the high-brightness mode, whether
dimming is active and the rate of the timing in force. The mode, dimming and the timing change in
different operations, and each of them writes the register after its change. So without faults the
register holds what it is to hold, except that it is behind from when the mode is switched on until
the first range is entered. -/

namespace OledPanel.Panel

open OledPanel.Action (Lasting Within)
open Dsi (Exchange Message Recorder Transport)

/-- Nothing but the operations of the panel writes the control register. -/
structure OwnsControl (c : Config) : Prop where
  sets : ∀ set, c.Has set → ∀ m ∈ set.messages, m.isRead = true ∨ m.cmd ≠ Dsi.writeControl
  irc : ∀ irc, c.irc? = some irc → irc.address ≠ Dsi.writeControl

variable {σ : Type} {c : Config}

/-- The panel is in use: it is powered, and dimming knows how it ends. -/
structure State.Ready (s : State σ) : Prop where
  laid : s.gamma.Laid
  initialized : s.initialized = true
  armed : s.hbm.dimming.active = true → s.hbm.dimming.stop.isSome = true

/-- The control register was told last what it is to hold. -/
def Told (c : Config) (s : State (Recorder σ)) : Prop :=
  (s.host.writes Dsi.writeControl).getLast?.map (·.tx) = some [Dsi.writeControl, s.control c]

/-- Once the control register was written it holds what it is to hold, or the mode is on and no range
has been entered. -/
def Coherent (c : Config) (s : State (Recorder σ)) : Prop :=
  s.host.writes Dsi.writeControl ≠ [] → s.hbm.mode = .off ∨ s.hbm.range.isSome = true → Told c s

/-- The control register is not written, and what it is to hold is the same. -/
structure Calm (c : Config) (s t : State (Recorder σ)) : Prop where
  writes : t.host.writes Dsi.writeControl = s.host.writes Dsi.writeControl
  control : t.control c = s.control c
  mode : t.hbm.mode.isOn = s.hbm.mode.isOn
  range : t.hbm.range = s.hbm.range

theorem Calm.told {s t : State (Recorder σ)} (h : Calm c s t) (hs : Told c s) : Told c t := by
  unfold Told
  rw [h.writes, h.control]
  exact hs

/-- All is calm, or the control register is told in the end. -/
def Minds (c : Config) (s t : State (Recorder σ)) : Prop := Calm c s t ∨ Told c t

instance : IsPreorder (State (Recorder σ)) (Minds c) where
  refl s := .inl ⟨rfl, rfl, rfl, rfl⟩
  trans s t u hst htu := by
    obtain htu | htu := htu
    · obtain hst | hst := hst
      · exact .inl ⟨htu.writes.trans hst.writes, htu.control.trans hst.control,
          htu.mode.trans hst.mode, htu.range.trans hst.range⟩
      · exact .inr (htu.told hst)
    · exact .inr htu

theorem Minds.told {s t : State (Recorder σ)} (h : Minds c s t) (hs : Told c s) : Told c t :=
  h.elim (·.told hs) id

theorem isOn_eq_false_iff {m : HbmMode} : m.isOn = false ↔ m = .off := by
  cases m <;> decide

theorem Minds.coherent {s t : State (Recorder σ)} (h : Minds c s t) (hs : Coherent c s) :
    Coherent c t := by
  obtain h | h := h
  · intro hw ho
    rw [h.writes] at hw
    rw [h.range, ← isOn_eq_false_iff, h.mode, isOn_eq_false_iff] at ho
    exact h.told (hs hw ho)
  · exact fun _ _ => h

/-! ### Panels in use -/

/-- Without faults a panel in use minds its control register. -/
abbrev Heeds (c : Config) : State (Recorder σ) → State (Recorder σ) → Prop :=
  Recorded State.Ready Exchange.Taken (Minds c)

/-- Without faults a panel in use has its control register told in the end. -/
abbrev Tells (c : Config) : State (Recorder σ) → State (Recorder σ) → Prop :=
  Recorded State.Ready Exchange.Taken fun _ t => Told c t

theorem Tells.after {R : State (Recorder σ) → State (Recorder σ) → Prop} {s t u : State (Recorder σ)}
    (k : Tells c t u) (h : Recorded State.Ready Exchange.Taken R s t) : Tells c s u :=
  recorded_comp h k fun _ hu => hu

/-- What has not been told yet may change before it is. -/
theorem Tells.of_ready {s t u : State (Recorder σ)} (k : Tells c t u) (hh : t.host = s.host)
    (hr : s.Ready → t.Ready) : Tells c s u :=
  k.after (recorded_of_eq (R := fun _ _ => True) hh hr fun _ => trivial)

theorem Tells.heeds {s t u : State (Recorder σ)} (h : Tells c s t) (k : Heeds c t u) : Tells c s u :=
  recorded_comp h k fun ht hu => hu.told ht

theorem heeds_of_tells {s t : State (Recorder σ)} (h : Tells c s t) : Heeds c s t :=
  recorded_mono h .inr

theorem heeds_of_eq {s t : State (Recorder σ)} (hh : t.host = s.host) (hr : s.Ready → t.Ready)
    (hc : t.control c = s.control c) (hm : t.hbm.mode.isOn = s.hbm.mode.isOn)
    (hi : t.hbm.range = s.hbm.range) : Heeds c s t :=
  recorded_of_eq hh hr fun _ => .inl ⟨by rw [hh], hc, hm, hi⟩

/-- What the control register is to hold goes by the mode, dimming and the timing in force. -/
theorem control_of_eq {s t : State σ} (hm : t.hbm.mode.isOn = s.hbm.mode.isOn)
    (hd : t.hbm.dimming.active = s.hbm.dimming.active) (ha : t.active = s.active) :
    t.control c = s.control c := by
  simp only [State.control, controlValue, hm, hd, ha]

variable [Transport σ]

theorem heeds_of_transfer (s : State (Recorder σ)) {m : Message}
    (hm : m.isRead = true ∨ m.cmd ≠ Dsi.writeControl) :
    Heeds c s { s with host := (Dsi.transfer m).after s.host } :=
  recorded_of_transfer rfl (fun hs => { hs with }) fun _ _ =>
    .inl ⟨Recorder.writes_transfer_of_other hm _, rfl, rfl, rfl⟩

theorem tells_of_transfer (s : State (Recorder σ)) {m : Message}
    (hm : m ∈ Dsi.plain? [Dsi.writeControl, s.control c] true) :
    Tells c s { s with host := (Dsi.transfer m).after s.host } := by
  obtain ⟨htx, hread⟩ := Dsi.plain?_eq hm
  have hcmd : m.cmd = Dsi.writeControl := by
    rw [Message.cmd, htx]
    rfl
  refine recorded_of_transfer rfl (fun hs => { hs with }) fun _ _ => ?_
  unfold Told
  rw [Recorder.writes_transfer, if_pos (by simp [hread, hcmd]), List.getLast?_append,
    List.getLast?_singleton, Option.some_or, Option.map_some, htx]
  rfl

theorem heeds_task (ho : OwnsControl c) (s t : State (Recorder σ)) (h : Task c s t) :
    Heeds c s t := by
  cases h with
  | @transfer m hm =>
    intro hs
    refine (?_ : Heeds c s { s with host := (Dsi.transfer m).after s.host }) hs
    obtain ⟨set, hset, hm⟩ | hm | hm := hm.source hs.laid
    · exact heeds_of_transfer s (ho.sets set hset m hm)
    · exact heeds_of_tells (tells_of_transfer s hm)
    · refine heeds_of_transfer s (.inr fun hcmd => ?_)
      rw [hcmd] at hm
      exact absurd hm (by decide)
  | refresh r hr hj =>
    refine heeds_of_eq rfl (fun hs => { hs with }) (control_of_eq rfl rfl ?_) rfl rfl
    rw [State.active, State.active, hr.scheduled, hr.current]
  | gamma g hg hv => exact heeds_of_eq rfl (fun hs => { hs with laid := hg hs.laid }) rfl rfl rfl
  | display d _ _ _ => exact heeds_of_eq rfl (fun hs => { hs with }) rfl rfl rfl

theorem heeds_tasks (ho : OwnsControl c) {s t : State (Recorder σ)} (h : Tasks c s t) : Heeds c s t :=
  Action.related_of_closure (heeds_task ho) h

theorem heeds_errand (ho : OwnsControl c) (s t : State (Recorder σ)) (h : Errand c s t) :
    Heeds c s t := by
  cases h with
  | task h => exact heeds_task ho s t h
  | _ => exact heeds_of_eq rfl (fun hs => { hs with }) rfl rfl rfl

/-! ### Mode and dimming -/

theorem tells_writeControl {s : State (Recorder σ)} {rate : UInt32}
    (h : controlValue c s rate = s.control c) : Tells c s ((writeControl c rate).after s) := by
  obtain ⟨m, hm⟩ := Dsi.plain?_cons Dsi.writeControl [s.control c] true
  rw [writeControl, Action.after_get_bind, after_onHost, h, Dsi.write, Dsi.writeBuffer_eq hm,
    Action.after_discard]
  exact tells_of_transfer s hm

theorem tells_announce (hc : c.family = .gamma) (set : Dsi.CommandSet) (s : State (Recorder σ)) :
    Tells c s ((announce c set).after s) := by
  rw [announce, hc, Action.after_get_bind]
  exact tells_writeControl rfl

omit [Transport σ] in
theorem ready_startDimming (frames : Nat) (stop : Hbm.Stop) {s : State σ} (hs : s.Ready) :
    ((startDimming frames stop).after s).Ready := by
  obtain ⟨h, -⟩ | ⟨-, h⟩ := startDimming_cases frames stop s
  · rw [h]
    exact hs
  · rw [h]
    exact { hs with armed := fun _ => rfl }

theorem tells_enterRange (hc : c.family = .gamma) (i : Nat) (r : Hbm.Range) (s : State (Recorder σ)) :
    Tells c s ((enterRange c i r).after s) := by
  rw [enterRange, Action.after_attempt_bind, Action.after_modify_bind]
  refine (tells_announce hc r.entry _).of_ready ?_ fun hs =>
    { ready_startDimming r.frames (.range i) hs with }
  obtain ⟨d, m, h⟩ := startDimming_frame r.frames (.range i) s
  rw [h]

theorem tells_exitRanges (hc : c.family = .gamma) (h : Hbm.Config) (s : State (Recorder σ)) :
    Tells c s ((exitRanges c h).after s) := by
  have hstart : Tells c s ((announce c h.exit).after ((startDimming h.exitFrames .exit).after s)) := by
    refine (tells_announce hc h.exit _).of_ready ?_ (ready_startDimming h.exitFrames .exit)
    obtain ⟨d, m, h⟩ := startDimming_frame h.exitFrames .exit s
    rw [h]
  rw [exitRanges, Action.after_attempt_bind, Action.after_attempt_bind, Action.after_modify]
  exact recorded_comp hstart
    (recorded_of_eq (R := fun _ _ => True) rfl (fun hs => { hs with }) fun _ => trivial) fun ht _ => ht

theorem heeds_compensates (ho : OwnsControl c) :
    Compensates c (Heeds c : State (Recorder σ) → _ → Prop) where
  task := heeds_task ho
  ask s irc hirc := heeds_of_transfer s (.inl rfl)
  store s irc bytes m hirc hm := by
    refine heeds_of_transfer s (.inr ?_)
    rw [Message.cmd, (Dsi.plain?_eq hm).1]
    exact ho.irc irc hirc
  keep _ _ _ := heeds_of_eq rfl (fun hs => { hs with }) rfl rfl rfl

theorem heeds_stopDimming (hc : c.family = .gamma) (ho : OwnsControl c) :
    Within (Heeds c) (stopDimming c : Action (State (Recorder σ)) Unit) := by
  intro s hs
  rw [stopDimming, Action.after_get_bind]
  dsimp only
  split
  · next ha =>
    obtain ⟨stop, hstop⟩ := Option.isSome_iff_exists.mp (hs.armed ha)
    rw [Action.after_set_bind, hstop]
    dsimp only
    rw [if_pos hs.initialized, Action.after_attempt_bind]
    have hsettle := within_settleIrc (σ := Recorder σ) (heeds_compensates ho)
    have htell : Tells c s ((announce c (stopSet c stop)).after
        { s with display := s.display.release, hbm.dimming := {} }) :=
      (tells_announce hc (stopSet c stop) _).of_ready rfl fun hs => { hs with armed := by simp }
    exact heeds_of_tells (htell.heeds (hsettle _)) hs
  · exact refl (r := Heeds c) s hs

theorem heeds_countFrame (hc : c.family = .gamma) (ho : OwnsControl c) (arrived : Bool) :
    Within (Heeds c) (countFrame c arrived : Action (State (Recorder σ)) Unit) := by
  intro s
  have hleft (n : Nat) : Heeds c s { s with hbm.dimming.left := n } :=
    heeds_of_eq rfl (fun hs => { hs with }) rfl rfl rfl
  refine related_countFrame arrived (fun _ => ?_) fun _ _ => hleft _
  exact IsTrans.trans _ _ _ (hleft 0) (heeds_stopDimming hc ho _)

/-- What follows an operation minds the control register. -/
theorem heeds_ensues (hc : c.family = .gamma) (ho : OwnsControl c) :
    Ensues c (Heeds c : State (Recorder σ) → _ → Prop) where
  task := heeds_task ho
  count := heeds_countFrame hc ho true

/-! ### Levels and power -/

theorem heeds_updates (hc : c.family = .gamma) (ho : OwnsControl c) :
    Updates c (Heeds c : State (Recorder σ) → _ → Prop) where
  errand := heeds_errand ho
  level s level m hm := by
    refine heeds_of_transfer s (.inr ?_)
    rw [Message.cmd, (Dsi.plain?_eq hm).1]
    exact (by decide : Dsi.setBrightness ≠ Dsi.writeControl)
  backlight _ _ := heeds_of_eq rfl (fun hs => { hs with }) rfl rfl rfl
  restart s := by
    unfold restartDimming
    split
    · exact heeds_of_eq rfl (fun hs => { hs with }) rfl rfl rfl
    · exact refl s
  enter s _ i r _ _ _ _ := heeds_of_tells (tells_enterRange hc i r s)

theorem heeds_transits (hc : c.family = .gamma) (ho : OwnsControl c) :
    Transits c (Heeds c : State (Recorder σ) → _ → Prop) where
  task := heeds_task ho
  early d s := by
    rw [after_earlyDpms]
    exact heeds_of_eq rfl (fun hs => { hs with }) rfl rfl rfl
  enter d s := by
    rw [after_enterDpms]
    exact heeds_of_eq rfl (fun hs => { hs with }) rfl rfl rfl
  update := within_update (heeds_updates hc ho)

/-! ### Timings -/

/-- A panel that unlocked has its control register told. -/
theorem tells_switchUnlocked (ho : OwnsControl c) {i : Nat} {s : State (Recorder σ)}
    (hi : s.active = some i) : Tells c s ((switchUnlocked c i).after s) := by
  have hsend := tasks_sendTiming (c := c) i s
  have hcontrol := controlValue_of_active (c := c) (hsend.active.trans hi)
  rw [switchUnlocked, Action.after_attempt_bind, Action.after_attempt_bind]
  exact ((tells_writeControl hcontrol).after (heeds_tasks ho hsend)).heeds
    (heeds_tasks ho (tasks_replayGamma i _))

/-- Without faults a switch to the timing in force has the control register told. -/
theorem tells_performSwitch (hc : c.family = .gamma) (ho : OwnsControl c) {i : Nat}
    {s : State (Recorder σ)} (hi : s.active = some i) : Tells c s ((performSwitch c i).after s) := by
  have hlock (tx : List UInt8) (htx : tx.headD 0 ∈ Gamma.registers) (s : State (Recorder σ)) :
      Heeds c s ((onHost (Dsi.writeBuffer tx true) : Action (State (Recorder σ)) Unit).after s) :=
    heeds_tasks ho (tasks_reads (Gamma.within_write _ _ htx) s)
  have hunlock := hlock Gamma.unlock (by decide) s
  rw [after_onHost] at hunlock
  rw [after_performSwitch hc]
  split
  · have hswitch : Tells c { s with host := (Dsi.writeBuffer Gamma.unlock true).after s.host }
      ((switchUnlocked c i).after _) := tells_switchUnlocked ho hi
    exact (hswitch.after hunlock).heeds (hlock Gamma.lock (by decide) _)
  · next hdropped =>
    -- The unlock that failed is on record.
    obtain ⟨m, hm⟩ := Dsi.plain?_cons 0xF0 [0x5A, 0x5A] true
    have hmessage : (Dsi.writeBuffer Gamma.unlock true : Action (Recorder σ) Unit) =
        discard (Dsi.transfer m) := Dsi.writeBuffer_eq hm
    rw [hmessage, Action.answer_discard] at hdropped
    rw [hmessage, Action.after_discard]
    refine recorded_of_transfer rfl (fun hs => { hs with }) fun _ htaken => ?_
    obtain ⟨rx, hrx⟩ := htaken
    rw [Recorder.answer_transfer hrx] at hdropped
    exact absurd rfl hdropped

/-- Where no job waits, a timing is in force and told once the jobs are done. -/
theorem tells_retimes (hc : c.family = .gamma) (ho : OwnsControl c) {s t : State (Recorder σ)}
    {i : Input} (hs : s.refresh.jobs = []) (h : Retimes c s i t) : Tells c s ((drain c).after t) := by
  obtain ⟨j, r, u, hactive, hu, hrest⟩ := h.performs hs
  have hswitch := (tells_performSwitch hc ho hactive).after (heeds_tasks ho hu)
  exact (hswitch.heeds (heeds_tasks ho hrest)).of_ready rfl fun hs => { hs with }

/-! ### Steps -/

/-- Changes of the mode keep the control register coherent. -/
theorem coherent_changeHbm (hc : c.family = .gamma) (ho : OwnsControl c) {h : Hbm.Config}
    (mode : HbmMode) {s : State (Recorder σ)} (hp : Permitted c s.hbm) :
    Recorded State.Ready Exchange.Taken (Lasting (Coherent c)) s ((changeHbm c h mode).after s) := by
  have hfollow := within_followSunlight (σ := Recorder σ) (heeds_compensates ho) s.hbm.mode mode
  have hrest : Within (Heeds c) (do update c; notify (.changed .hbmMode) :
      Action (State (Recorder σ)) Unit) :=
    (within_update (heeds_updates hc ho)).bind fun _ s => heeds_tasks ho (tasks_notify _ s)
  have hmode : Recorded State.Ready Exchange.Taken (Lasting (Coherent c)) s
      (if mode = .off then (exitRanges c h).after { s with hbm.mode := mode }
        else { s with hbm.mode := mode }) := by
    split
    · have htell : Tells c s ((exitRanges c h).after { s with hbm.mode := mode }) :=
        (tells_exitRanges hc h _).of_ready rfl fun hs => { hs with }
      exact recorded_mono htell fun ht _ _ _ => ht
    · next hon =>
      refine recorded_of_eq rfl (fun hs => { hs with }) fun _ => ?_
      by_cases hoff : s.hbm.mode = .off
      · -- Switched on just now, so no range is in force.
        intro _ _ hm
        obtain hm | hm := hm
        · exact absurd hm hon
        · obtain ⟨i, hi⟩ := Option.isSome_iff_exists.mp hm
          exact absurd hoff (hp.range i hi).1
      · have hisOn : mode.isOn = s.hbm.mode.isOn := by
          simp [HbmMode.isOn, hon, hoff]
        have hcalm : Calm c s { s with hbm.mode := mode } :=
          ⟨rfl, control_of_eq hisOn rfl rfl, hisOn, rfl⟩
        exact Minds.coherent (.inl hcalm)
  rw [changeHbm_eq]
  refine recorded_comp hmode (IsTrans.trans (r := Heeds c) _ _ _ (hfollow _) (hrest _)) ?_
  exact fun h k hs => k.coherent (h hs)

/-- On a panel in use, an input other than disabling it keeps the control register coherent by itself,
or puts another timing in force. -/
theorem coherent_course (hc : c.family = .gamma) (ho : OwnsControl c) {s t : State (Recorder σ)}
    {i : Input} (hi : i ≠ .request .disable) (hp : Permitted c s.hbm) (h : Course c s i t) :
    Recorded State.Ready Exchange.Taken (Lasting (Coherent c)) s t ∨ Retimes c s i t := by
  have hupdate : Within (Heeds c) (update c : Action (State (Recorder σ)) Unit) :=
    within_update (heeds_updates hc ho)
  have herrands {s t : State (Recorder σ)} (h : Errands c s t) : Heeds c s t :=
    Action.related_of_closure (heeds_errand ho) h
  have hcoherent {s t : State (Recorder σ)} (h : Heeds c s t) :
      Recorded State.Ready Exchange.Taken (Lasting (Coherent c)) s t := recorded_mono h Minds.coherent
  have htransits : Transits c (Heeds c : State (Recorder σ) → _ → Prop) := heeds_transits hc ho
  cases h with
  | errands h => exact .inl (hcoherent (herrands h.errands))
  | sets h => exact .inl (hcoherent (herrands (.single h.errand)))
  | opens h _ => exact .inl (hcoherent (herrands (h.opens fun _ => rfl)))
  | pwm config enable => exact .inl (hcoherent (herrands (.single (.pwm s _))))
  | update h gate hg =>
    exact .inl (hcoherent (IsTrans.trans _ _ _ (herrands (h.opens hg)) (hupdate _)))
  | early d => exact .inl (hcoherent (htransits.early d s))
  | late d => exact .inl (hcoherent (within_lateDpms htransits d s))
  | transition d h hset =>
    exact .inl (hcoherent (IsTrans.trans _ _ _ (heeds_tasks ho h)
      (within_transition htransits d hset _)))
  | enable =>
    have hpowered (s : State (Recorder σ)) : Heeds c s (powered c s) :=
      heeds_of_eq rfl (fun hs => { hs with initialized := rfl }) rfl rfl rfl
    exact .inl (hcoherent (within_enable htransits hpowered s))
  | disable => exact absurd rfl hi
  | irc on => exact .inl (hcoherent (within_updateIrc (heeds_compensates ho) on s))
  | hbm hh hm hs => exact .inl (coherent_changeHbm hc ho _ hp)
  | retimes h => exact .inr h
  | giveUp => exact .inl (hcoherent (heeds_countFrame hc ho false s))
  | regulator on => exact .inl (hcoherent (heeds_of_eq rfl (fun hs => { hs with }) rfl rfl rfl))

theorem coherent_step (hc : c.family = .gamma) (ho : OwnsControl c) {s : State (Recorder σ)}
    {i : Input} (hi : i ≠ .request .disable) (hp : Permitted c s.hbm) (hs : s.refresh.jobs = []) :
    Recorded State.Ready Exchange.Taken (Lasting (Coherent c)) s (step c s i) := by
  rw [step_eq]
  obtain h | h := coherent_course hc ho hi hp (course_perform i s)
  · exact recorded_comp h ((heeds_ensues hc ho).settle _) fun h k hs => k.coherent (h hs)
  · rw [settle_eq]
    refine recorded_mono (Tells.heeds (tells_retimes hc ho hs h) ((heeds_ensues hc ho).countFrames _ _)) ?_
    exact fun ht _ _ _ => ht

theorem coherent_run (hc : c.family = .gamma) (ho : OwnsControl c) {s : State (Recorder σ)}
    (hp : Permitted c s.hbm) (hs : s.refresh.jobs = []) {is : List Input}
    (hi : .request .disable ∉ is) :
    Recorded State.Ready Exchange.Taken (Lasting (Coherent c)) s (run c s is) := by
  induction is generalizing s with
  | nil => exact refl s
  | cons i is ih =>
    rw [List.mem_cons, not_or] at hi
    have hpermitted := related_step permitted_admits permitted_turn s i hp
    exact IsTrans.trans _ _ _ (coherent_step hc ho (Ne.symm hi.1) hp hs)
      (ih hpermitted (jobs_step s i) hi.2)

/-- Enabling that goes well powers the panel. -/
theorem after_enable_of_ok {s : State σ} (h : (enable c).answer s = .ok ()) : (enable c).after s =
    (lateDpms c .on).after (powered c { s with host := c.sets.on.send.after s.host }) := by
  rw [enable, earlyDpms_on, Action.answer_bind, Action.answer_pure, Action.after_pure] at h
  dsimp only at h
  rw [Action.answer_bind] at h
  rw [enable, earlyDpms_on, Action.after_pure_bind, Action.after_bind, after_onHost]
  split
  · rfl
  · next e he =>
    rw [he] at h
    cases h

/-- Without faults, from a successful power-on until the panel is disabled, the control register was
written last with what it is to hold, whatever the vblank references, the pulses and the counting
of frames come to: the mode, dimming and the rate of the timing in force as they are, unless the mode
is on and no range has been entered yet. -/
theorem control_register_coherent (hc : c.family = .gamma) (ho : OwnsControl c) (host : σ)
    (display : Display) (pwm : Option Pwm) (regulator : Option Regulator) {inputs : List Input}
    (hi : .request .disable ∉ inputs) :
    let start := State.initial c ({ host } : Recorder σ) display pwm regulator
    let s := run c start (.request .enable :: inputs)
    (enable c).answer start = .ok () → (∀ e ∈ s.host.record, e.Taken) →
      s.host.writes Dsi.writeControl ≠ [] → s.hbm.mode = .off ∨ s.hbm.range.isSome = true →
        (s.host.writes Dsi.writeControl).getLast?.map (·.tx) =
          some [Dsi.writeControl, controlValue c s ((c.rate? s.active).getD 60)] := by
  intro start s hon htaken
  let u := powered c { start with host := c.sets.on.send.after start.host }
  have hready : u.Ready := ⟨laid_initial c ({ host } : Recorder σ) display pwm regulator, rfl, nofun⟩
  have hunwritten : u.host.writes Dsi.writeControl = [] :=
    Recorder.writes_of_sends (Dsi.CommandSet.within_send c.sets.on (ho.sets _ .on) start.host)
  have hfirst : Heeds c u (step c start (.request .enable)) := by
    rw [step_eq, show (Input.perform c (.request .enable)).after start = (enable c).after start from
      after_done _ start, after_enable_of_ok hon]
    exact IsTrans.trans _ _ _ (within_lateDpms (heeds_transits hc ho) .on u) ((heeds_ensues hc ho).settle _)
  have hrest := coherent_run hc ho
    (permitted_run ({ host } : Recorder σ) display pwm regulator [.request .enable])
    (jobs_step start (.request .enable)) hi
  have hrun : Recorded State.Ready Exchange.Taken (Lasting (Coherent c)) u s :=
    recorded_comp hfirst hrest fun h k hs => k (h.coherent hs)
  exact (hrun hready).2.2 htaken fun hw => absurd hunwritten hw

theorem control_register_coherent_while_dimming :
    let hbm : Hbm.Config := {
      ranges := [⟨0, 255, 100, 200, {}, {}, 2⟩]
      exit := {}
      exitStop := {}
      exitFrames := 0
      irc := none }
    let c := Bench.gammaPlain (some hbm)
    let start := State.initial c ({ host := {} } : Recorder Bench.Host) {} none none
    let s := run c start
      [.request .enable, .request (.setHbm .on), .request (.setMode ⟨none, 90⟩), .pulse]
    (enable c).answer start = .ok () ∧ (∀ e ∈ s.host.record, e.Taken) ∧ s.hbm.range = some 0 ∧
      s.hbm.dimming.active = true ∧ c.rate? s.active = some 90 ∧
        (s.host.writes Dsi.writeControl).getLast?.map (·.tx) = some [Dsi.writeControl, 0xF8] := by
  intro hbm c start s
  have ho : OwnsControl c := by
    refine ⟨fun set hset => ?_, nofun⟩
    cases hset with
    | entry hh hr | stop hh hr =>
      obtain rfl := Option.some.inj hh
      obtain rfl := List.mem_singleton.mp hr
      exact nofun
    | exit hh | exitStop hh =>
      obtain rfl := Option.some.inj hh
      exact nofun
    | unlock hh hi | lock hh hi =>
      obtain rfl := Option.some.inj hh
      cases hi
    | switch ht =>
      obtain rfl | ht := List.mem_cons.mp ht
      · exact nofun
      · obtain rfl := List.mem_singleton.mp ht
        exact nofun
    | bin ha => cases ha
    | high he | low he => cases he
    | _ => exact nofun
  have hon : (enable c).answer start = .ok () := by decide +kernel
  have htaken : ∀ e ∈ s.host.record, e.Taken := by decide +kernel
  have hrange : s.hbm.range = some 0 := by decide +kernel
  have hvalue : controlValue c s ((c.rate? s.active).getD 60) = 0xF8 := by decide +kernel
  have htold := control_register_coherent (c := c) rfl ho ({} : Bench.Host) {} none none (by simp)
    hon htaken (by decide +kernel) (.inr (hrange ▸ rfl))
  exact ⟨hon, htaken, hrange, by decide +kernel, by decide +kernel, hvalue ▸ htold⟩

end OledPanel.Panel
