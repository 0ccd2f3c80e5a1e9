import OledPanel.Panel.Operations
import OledPanel.Proofs.GammaReading
import OledPanel.Proofs.Validity

/-! The small changes a panel goes through besides its levels, its power-on state and its
high-brightness mode, in three classes. Switches, jobs and gamma tables are sequences of tasks; what
requests set by themselves are errands; supplies and the phases of transitions are chores. Tasks and
errands lead from possible states to possible ones. A preorder that admits each change of a class
admits what is made of them. -/

namespace OledPanel.Panel

open OledPanel.Action (Within)
open Dsi (Message Sends Transport)

variable {σ α : Type}

/-- The command sets of a panel, and the set without a command. -/
inductive Config.Has (c : Config) : Dsi.CommandSet → Prop
  | empty : c.Has {}
  | on : c.Has c.sets.on
  | off : c.Has c.sets.off
  | lp1 : c.Has c.sets.lp1
  | lp2 : c.Has c.sets.lp2
  | nolp : c.Has c.sets.nolp
  | switch {t : Timing} (ht : t ∈ c.timings) : c.Has t.switch
  | entry {h : Hbm.Config} {r : Hbm.Range} (hh : c.hbm = some h) (hr : r ∈ h.ranges) : c.Has r.entry
  | stop {h : Hbm.Config} {r : Hbm.Range} (hh : c.hbm = some h) (hr : r ∈ h.ranges) : c.Has r.stop
  | exit {h : Hbm.Config} (hh : c.hbm = some h) : c.Has h.exit
  | exitStop {h : Hbm.Config} (hh : c.hbm = some h) : c.Has h.exitStop
  | unlock {h : Hbm.Config} {irc : Hbm.Irc} (hh : c.hbm = some h) (hi : h.irc = some irc) :
    c.Has irc.unlock
  | lock {h : Hbm.Config} {irc : Hbm.Irc} (hh : c.hbm = some h) (hi : h.irc = some irc) :
    c.Has irc.lock
  | bin {bins : List LowPower.Bin} {bin : LowPower.Bin} (hb : c.actuator = .bins bins)
    (hm : bin ∈ bins) : c.Has bin.enter
  | high {e : LowPower.Edges} (he : c.edges = some e) : c.Has e.high
  | low {e : LowPower.Edges} (he : c.edges = some e) : c.Has e.low

/-- What the control register is to hold. -/
def State.control (c : Config) (s : State σ) : UInt8 := controlValue c s ((c.rate? s.active).getD 60)

/-- The messages that are sent without a change of the level or of compensation. -/
inductive Routine (c : Config) (s : State σ) : Message → Prop
  | set {set : Dsi.CommandSet} {m : Message} (hs : c.Has set) (hm : m ∈ set.messages) :
    Routine c s m
  | control {m : Message} (hm : m ∈ Dsi.plain? [Dsi.writeControl, s.control c] true) :
    Routine c s m
  | handoff : Routine c s (Dsi.question Dsi.getBrightness 2)
  | gamma {m : Message} (hm : m.cmd ∈ Gamma.registers) : Routine c s m
  | replay {b : Gamma.Buffer} {i : Nat} {t : Gamma.Table} {m : Message}
    (hb : some b ∈ s.gamma.buffers) (ht : Gamma.tables[i]? = some t)
    (hm : m ∈ Dsi.plain? (b.table i) (!t.grouped)) : Routine c s m

/-- All gamma tables that were read are laid out as they are sent. -/
def GammaState.Laid (g : GammaState) : Prop := ∀ b, some b ∈ g.buffers → Gamma.Laid Gamma.tables b

/-- No gamma table is read before the first request. -/
theorem laid_initial (c : Config) (host : σ) (display : Display) (pwm : Option Pwm)
    (regulator : Option Regulator) : (State.initial c host display pwm regulator).gamma.Laid := by
  intro b hb
  simp [State.initial] at hb

/-- Where a message comes from: a command set, the control register, or another register of the
driver. -/
theorem Routine.source {c : Config} {s : State σ} {m : Message} (hm : Routine c s m)
    (hs : s.gamma.Laid) : (∃ set, c.Has set ∧ m ∈ set.messages) ∨
      m ∈ Dsi.plain? [Dsi.writeControl, s.control c] true ∨
        m.cmd ∈ Dsi.getBrightness :: Gamma.registers := by
  cases hm with
  | set hs hm => exact .inl ⟨_, hs, hm⟩
  | control hm => exact .inr (.inl hm)
  | handoff => exact .inr (.inr (List.mem_cons_self ..))
  | gamma hm => exact .inr (.inr (List.mem_cons_of_mem _ hm))
  | replay hb ht hm =>
    obtain ⟨p, hp⟩ := (hs _ hb).table ht
    refine .inr (.inr (List.mem_cons_of_mem _ ?_))
    rw [Message.cmd, (Dsi.plain?_eq hm).1, hp]
    exact List.mem_append_right _ (List.mem_map_of_mem (List.mem_of_getElem? ht))

/-- What is not from a command set addresses a register of the driver. -/
theorem Routine.cmd {c : Config} {s : State σ} {m : Message} (hm : Routine c s m)
    (hs : s.gamma.Laid) : (∃ set, c.Has set ∧ m ∈ set.messages) ∨
      m.cmd ∈ Dsi.getBrightness :: Dsi.writeControl :: Gamma.registers := by
  obtain h | hm | hm := hm.source hs
  · exact .inl h
  · rw [Message.cmd, (Dsi.plain?_eq hm).1]
    simp
  · rw [List.mem_cons] at hm ⊢
    exact .inr (hm.imp_right (List.mem_cons_of_mem _))

variable [Transport σ]

/-- How the gamma tables change: they are given up; or, while they are given up, those just read of a
timing are kept, or all are merged and count as read. -/
inductive Regauges (c : Config) (s : State σ) : GammaState → Prop
  | forget : Regauges c s { s.gamma with ready := false }
  | keep {h : σ} {t : Timing} {i : Nat} {b : Gamma.Buffer} (hr : s.gamma.ready = false)
    (ht : c.timings[i]? = some t) (hb : readTiming t.rate h = .ok b s.host) :
    Regauges c s { s.gamma with buffers := s.gamma.buffers.set i (some b) }
  | complete (hr : s.gamma.ready = false) : Regauges c s ⟨mergeOtp c s.gamma.buffers, true⟩

/-- The changes that have nothing to do with the backlight, leave the timings asked for, scheduled
and for idling, and leave no job that did not wait before. -/
inductive Task (c : Config) : State σ → State σ → Prop
  | transfer (s : State σ) {m : Message} (hm : Routine c s m) :
    Task c s { s with host := (Dsi.transfer m).after s.host }
  | refresh (s : State σ) (r : Refresh) (hr : s.refresh.SameTimings r)
    (hj : r.jobs ⊆ s.refresh.jobs) : Task c s { s with refresh := r }
  | gamma (s : State σ) (g : GammaState) (hg : s.gamma.Laid → g.Laid)
    (hv : s.gamma.Valid c → g.Valid c) (hk : Regauges c s g) : Task c s { s with gamma := g }
  | display (s : State σ) (d : Display) (hr : d.references = s.display.references)
    (hg : d.granted = s.display.granted) (hb : d.returned = s.display.returned) :
    Task c s { s with display := d }

/-- Besides tasks, what a request sets by itself: the timing for idling, the brightness and its
factors, the gate, which only opens, the ambient-light table, the PWM output, and whether sunlight
mode is permitted. Reading the gamma tables may wait to be done. -/
inductive Errand (c : Config) : State σ → State σ → Prop
  | task {s t : State σ} (h : Task c s t) : Errand c s t
  | idle (s : State σ) (i : Option Nat) (hv : ∀ j, i = some j → j < c.timings.length) :
    Errand c s { s with refresh.idle := i }
  | enqueue (s : State σ) :
    Errand c s { s with refresh.jobs := s.refresh.jobs ++ [.readGamma] }
  | adjust (s : State σ) (b factor sunlightFactor : UInt32) (gate : Bool) (als : Option Backlight.Als)
    (hg : s.backlight.gateOpen = true → gate = true)
    (hv : s.backlight.Valid c → Backlight.State.Valid c { s.backlight with
      brightness := b
      factor := factor
      sunlightFactor := sunlightFactor
      gateOpen := gate
      als := als }) :
    Errand c s { s with
      backlight.brightness := b
      backlight.factor := factor
      backlight.sunlightFactor := sunlightFactor
      backlight.gateOpen := gate
      backlight.als := als }
  | pwm (s : State σ) (p : Option Pwm) : Errand c s { s with pwm := p }
  | permit (s : State σ) (on : Bool) (ho : on = true ∨ s.hbm.mode ≠ .sunlight) :
    Errand c s { s with hbm.sunlightEnabled := on }

/-- Besides errands, any change of the supplies and of the backlight but its level. -/
inductive Chore (c : Config) : State σ → State σ → Prop
  | transfer (s : State σ) {m : Message} (hm : Routine c s m) :
    Chore c s { s with host := (Dsi.transfer m).after s.host }
  | refresh (s : State σ) (r : Refresh) : Chore c s { s with refresh := r }
  | gamma (s : State σ) (g : GammaState) (hg : s.gamma.Laid → g.Laid) : Chore c s { s with gamma := g }
  | display (s : State σ) (d : Display) (hr : d.references = s.display.references)
    (hg : d.granted = s.display.granted) (hb : d.returned = s.display.returned) :
    Chore c s { s with display := d }
  | supply (s : State σ) (p : Option Pwm) (r : Option Regulator) :
    Chore c s { s with pwm := p, regulator := r }
  /-- The brightness and the power state may change, the level tracked may not. -/
  | backlight (s : State σ) (b : Backlight.State) (hl : b.level = s.backlight.level)
    (hb : b.levelBits = s.backlight.levelBits) : Chore c s { s with backlight := b }
  /-- Sunlight mode is permitted, or forbidden while it is not on. -/
  | permit (s : State σ) (on : Bool) (ho : on = true ∨ s.hbm.mode ≠ .sunlight) :
    Chore c s { s with hbm.sunlightEnabled := on }

def Tasks (c : Config) : State σ → State σ → Prop := Relation.ReflTransGen (Task c)

def Errands (c : Config) : State σ → State σ → Prop := Relation.ReflTransGen (Errand c)

/-- The states reached by small changes. -/
def Chores (c : Config) : State σ → State σ → Prop := Relation.ReflTransGen (Chore c)

/-- What stays as a request has set it: the timing for idling and the thresholds of ambient light. -/
def State.settings (s : State σ) : Option Nat × Option (List UInt32) :=
  (s.refresh.idle, s.backlight.als.map (·.thresholds))

/-- Errands that leave the settings, the PWM output and the gate as they are. -/
structure QuietErrands (c : Config) (s t : State σ) : Prop where
  errands : Errands c s t
  settings : t.settings = s.settings
  pwm : t.pwm = s.pwm
  gate : t.backlight.gateOpen = s.backlight.gateOpen

instance (c : Config) : IsPreorder (State σ) (Tasks c) :=
  inferInstanceAs (IsPreorder _ (Relation.ReflTransGen _))

instance (c : Config) : IsPreorder (State σ) (Errands c) :=
  inferInstanceAs (IsPreorder _ (Relation.ReflTransGen _))

instance (c : Config) : IsPreorder (State σ) (Chores c) :=
  inferInstanceAs (IsPreorder _ (Relation.ReflTransGen _))

instance (c : Config) : IsPreorder (State σ) (QuietErrands c) where
  refl s := ⟨refl s, rfl, rfl, rfl⟩
  trans _ _ _ h k := ⟨h.errands.trans k.errands, k.settings.trans h.settings, k.pwm.trans h.pwm,
    k.gate.trans h.gate⟩

variable {c : Config}

theorem Task.chore {s t : State σ} (h : Task c s t) : Chore c s t := by
  cases h with
  | transfer hm => exact .transfer s hm
  | refresh r hr hj => exact .refresh s r
  | gamma g hg hv => exact .gamma s g hg
  | display d hr hg hb => exact .display s d hr hg hb

theorem Errand.chore {s t : State σ} (h : Errand c s t) : Chore c s t := by
  cases h with
  | task h => exact h.chore
  | idle i hv => exact .refresh s _
  | enqueue => exact .refresh s _
  | adjust b factor sunlightFactor gate als hg hv => exact .backlight s _ rfl rfl
  | pwm p => exact .supply s p s.regulator
  | permit on ho => exact .permit s on ho

/-- A preorder that admits each small change admits what is made of them. -/
theorem related_of_chores {R : State σ → State σ → Prop} [IsPreorder (State σ) R]
    (hR : ∀ s t, Chore c s t → R s t) {s t : State σ} (h : Chores c s t) : R s t :=
  Action.related_of_closure hR h

theorem Tasks.sameTimings {s t : State σ} (h : Tasks c s t) : s.refresh.SameTimings t.refresh := by
  induction h with
  | refl => exact ⟨rfl, rfl, rfl⟩
  | tail _ step ih =>
    cases step with
    | refresh r hr hj =>
      exact ⟨hr.current.trans ih.current, hr.scheduled.trans ih.scheduled, hr.idle.trans ih.idle⟩
    | _ => exact ih

theorem Tasks.active {s t : State σ} (h : Tasks c s t) : t.active = s.active := by
  rw [State.active, State.active, h.sameTimings.scheduled, h.sameTimings.current]

theorem Tasks.jobs {s t : State σ} (h : Tasks c s t) : t.refresh.jobs ⊆ s.refresh.jobs := by
  induction h with
  | refl => exact List.Subset.refl _
  | tail _ step ih =>
    cases step with
    | refresh r hr hj => exact List.Subset.trans hj ih
    | _ => exact ih

theorem Tasks.errands {s t : State σ} (h : Tasks c s t) : Errands c s t :=
  Action.related_of_closure (fun _ _ h => .single (.task h)) h

theorem Tasks.settings {s t : State σ} (h : Tasks c s t) : t.settings = s.settings := by
  induction h with
  | refl => rfl
  | tail _ step ih =>
    refine Eq.trans ?_ ih
    cases step with
    | refresh r hr hj => rw [State.settings, State.settings, hr.idle]
    | _ => rfl

/-- Tasks leave the supplies and the backlight as they are. -/
theorem Tasks.supplied {s t : State σ} (h : Tasks c s t) :
    t.pwm = s.pwm ∧ t.backlight = s.backlight := by
  induction h with
  | refl => exact ⟨rfl, rfl⟩
  | tail _ step ih => cases step <;> exact ih

theorem Tasks.quiet {s t : State σ} (h : Tasks c s t) : QuietErrands c s t where
  errands := h.errands
  settings := h.settings
  pwm := h.supplied.1
  gate := congrArg Backlight.State.gateOpen h.supplied.2

/-- An errand by itself that has nothing to do with what quiet errands leave. -/
theorem Errand.quiet {s t : State σ} (h : Errand c s t) (hk : t.settings = s.settings)
    (hp : t.pwm = s.pwm) (hg : t.backlight.gateOpen = s.backlight.gateOpen) : QuietErrands c s t :=
  ⟨.single h, hk, hp, hg⟩

/-- The gate may open after quiet errands. -/
theorem QuietErrands.opens {s t : State σ} (h : QuietErrands c s t) {gate : Bool}
    (hg : t.backlight.gateOpen = true → gate = true) :
    Errands c s { t with backlight.gateOpen := gate } := by
  refine h.errands.tail (.adjust t _ _ _ gate _ hg fun hv => { hv with gate := fun hshut => ?_ })
  refine hv.gate (Bool.eq_false_iff.mpr fun hopen => ?_)
  rw [hg hopen] at hshut
  cases hshut

theorem Errands.chores {s t : State σ} (h : Errands c s t) : Chores c s t :=
  Action.related_of_closure (fun _ _ h => .single h.chore) h

theorem within_of_chores {R : State σ → State σ → Prop} [IsPreorder (State σ) R]
    (hR : ∀ s t, Chore c s t → R s t) {x : Action (State σ) α} (hx : Within (Chores c) x) :
    Within R x := hx.mono fun _ _ => related_of_chores hR

theorem errands_of_quiet {x : Action (State σ) α} (hx : Within (QuietErrands c) x) :
    Within (Errands c) x := hx.mono fun _ _ h => h.errands

theorem quiet_of_tasks {x : Action (State σ) α} (hx : Within (Tasks c) x) :
    Within (QuietErrands c) x := hx.mono fun _ _ h => h.quiet

theorem chores_of_tasks {x : Action (State σ) α} (hx : Within (Tasks c) x) : Within (Chores c) x :=
  hx.mono fun _ _ h => h.errands.chores

theorem within_of_tasks {R : State σ → State σ → Prop} [IsPreorder (State σ) R]
    (hR : ∀ s t, Task c s t → R s t) {x : Action (State σ) α} (hx : Within (Tasks c) x) :
    Within R x := hx.mono fun _ _ => Action.related_of_closure hR

/-! ### Messages -/

omit [Transport σ] in
theorem Routine.host {s : State σ} {m : Message} (hm : Routine c s m) (h : σ) :
    Routine c { s with host := h } m := by
  cases hm with
  | set hs hm => exact .set hs hm
  | control hm => exact .control hm
  | handoff => exact .handoff
  | gamma hm => exact .gamma hm
  | replay hb ht hm => exact .replay hb ht hm

theorem tasks_of_sends {P : Message → Prop} {s : State σ} {g : σ} (hs : Sends P s.host g)
    (hP : ∀ m, P m → Routine c s m) : Tasks c s { s with host := g } :=
  related_of_sends s hs fun h m hm => .single (.transfer { s with host := h } ((hP m hm).host h))

theorem tasks_send {set : Dsi.CommandSet} (hs : c.Has set) :
    Within (Tasks c) (onHost set.send : Action (State σ) Unit) := by
  intro s
  rw [after_onHost]
  exact tasks_of_sends (Dsi.CommandSet.within_send set (fun m hm => hm) s.host)
    fun m hm => .set hs hm

theorem tasks_reads {x : Action σ α} (hx : Within Gamma.Reads x) :
    Within (Tasks c) (onHost x : Action (State σ) α) := by
  intro s
  rw [after_onHost]
  exact tasks_of_sends (hx s.host) fun m hm => .gamma hm

/-- The register is written with the rate of the timing in force. -/
theorem tasks_writeControl {rate : UInt32} {s : State σ} (h : controlValue c s rate = s.control c) :
    Tasks c s ((writeControl c rate).after s) := by
  rw [writeControl, Action.after_get_bind, after_onHost, h]
  exact tasks_of_sends (Dsi.within_write _ _ (fun m hm => hm) s.host) fun m hm => .control hm

theorem tasks_announce {set : Dsi.CommandSet} (hs : c.Has set) :
    Within (Tasks c) (announce c set : Action (State σ) Unit) := by
  unfold announce
  split
  · exact tasks_send hs
  · intro s
    rw [Action.after_get_bind]
    exact tasks_writeControl rfl

theorem chores_send {set : Dsi.CommandSet} (hs : c.Has set) :
    Within (Chores c) (onHost set.send : Action (State σ) Unit) := chores_of_tasks (tasks_send hs)

/-! ### Parts of the state -/

theorem tasks_display {f : Display → Display}
    (h : ∀ d, (f d).references = d.references ∧ (f d).granted = d.granted ∧
      (f d).returned = d.returned) :
    Within (Tasks c) (modify fun s => { s with display := f s.display } : Action (State σ) PUnit) :=
  fun s => .single (.display s _ (h _).1 (h _).2.1 (h _).2.2)

theorem tasks_notify (e : Event) : Within (Tasks c) (notify e : Action (State σ) Unit) :=
  tasks_display (f := (·.notify e)) fun _ => ⟨rfl, rfl, rfl⟩

theorem tasks_refresh (f : Refresh → Refresh) (hf : ∀ r : Refresh, r.SameTimings (f r))
    (hj : ∀ r : Refresh, (f r).jobs = r.jobs) :
    Within (Tasks c) (modify fun s => { s with refresh := f s.refresh } : Action (State σ) PUnit) :=
  fun s => .single (.refresh s _ (hf s.refresh) fun _ hmem => hj s.refresh ▸ hmem)

theorem chores_notify (e : Event) : Within (Chores c) (notify e : Action (State σ) Unit) :=
  chores_of_tasks (tasks_notify e)

theorem tasks_pulse (s : State σ) : Tasks c s (pulse s) := by
  have hd : Tasks c s { s with display := s.display.fire } := .single (.display s _ rfl rfl rfl)
  have hp : Task c { s with display := s.display.fire } (pulse s) :=
    .refresh _ _ ⟨rfl, rfl, rfl⟩ (List.Subset.refl s.refresh.jobs)
  exact hd.tail hp

theorem tasks_pulses (n : Nat) (s : State σ) : Tasks c s (pulses n s) := by
  induction n generalizing s with
  | zero => exact refl s
  | succ n ih => exact IsTrans.trans _ _ _ (tasks_pulse s) (ih _)

/-! ### Supplies and the power state -/

omit [Transport σ] in
theorem after_onRegulator (x : Action Regulator Unit) (s : State σ) :
    (onRegulator x).after s = { s with regulator := s.regulator.map x.after } := by
  cases h : s.regulator with
  | none =>
    have hx : onRegulator x s = .ok () s := by
      unfold onRegulator
      rw [h]
    rw [Action.after, hx, Option.map_none, ← h]
  | some r =>
    have hx : onRegulator x s =
        Action.within (fun _ => r) (fun r s => { s with regulator := some r }) x s := by
      unfold onRegulator
      rw [h]
    rw [Action.after, hx]
    exact Action.after_within (fun _ => r) (fun r s => { s with regulator := some r }) x s

omit [Transport σ] in
theorem after_onPwm (x : Action Pwm α) (s : State σ) :
    (onPwm x).after s = { s with pwm := s.pwm.map x.after } := by
  cases h : s.pwm with
  | none =>
    have hx : onPwm x s = .error .noDevice s := by
      unfold onPwm
      rw [h]
    rw [Action.after, hx, Option.map_none, ← h]
  | some p =>
    have hx : onPwm x s =
        Action.within (fun _ => p) (fun p s => { s with pwm := some p }) x s := by
      unfold onPwm
      rw [h]
    rw [Action.after, hx]
    exact Action.after_within (fun _ => p) (fun p s => { s with pwm := some p }) x s

/-- The regulator after it is set to what a power state needs, if it has to be. -/
def State.supplied (s : State σ) (bits : PowerBits) : Option Regulator :=
  if bits.regulatorMode ≠ s.backlight.levelBits.regulatorMode then
    s.regulator.map (Regulator.set bits.regulatorMode).after
  else s.regulator

omit [Transport σ] in
theorem after_updateRegulator (bits : PowerBits) (s : State σ) :
    (updateRegulator bits).after s = { s with regulator := s.supplied bits } := by
  rw [updateRegulator, Action.after_get_bind, State.supplied]
  split
  · exact after_onRegulator _ s
  · rfl

omit [Transport σ] in
theorem after_earlyDpms (d : Dpms) (s : State σ) : (earlyDpms d).after s = { s with
    regulator := if (d.apply s.backlight.bits).isLowPower then s.supplied (d.apply s.backlight.bits)
      else s.regulator } := by
  rw [earlyDpms, Action.after_get_bind]
  dsimp only
  split
  · exact after_updateRegulator _ s
  · rfl

omit [Transport σ] in
theorem after_enterDpms (d : Dpms) (s : State σ) : (enterDpms d).after s = { s with
    regulator := if (d.apply s.backlight.bits).isLowPower then s.regulator
      else s.supplied (d.apply s.backlight.bits)
    backlight.power := if (d.apply s.backlight.bits).blanked then .down else .up
    backlight.bits := d.apply s.backlight.bits } := by
  rw [enterDpms, Action.after_get_bind]
  dsimp only
  by_cases hlow : (d.apply s.backlight.bits).isLowPower = true
  · rw [if_neg (by simp [hlow]), if_pos hlow]
    rfl
  · rw [if_pos (by simp [hlow]), if_neg hlow, Action.after_attempt_bind, after_updateRegulator]
    rfl

theorem chores_earlyDpms (d : Dpms) : Within (Chores c) (earlyDpms d : Action (State σ) Unit) := by
  intro s
  rw [after_earlyDpms]
  exact .single (.supply s s.pwm _)

theorem chores_enterDpms (d : Dpms) : Within (Chores c) (enterDpms d : Action (State σ) Unit) := by
  intro s
  rw [after_enterDpms]
  have hsupply : Chores c s _ := .single (.supply s s.pwm (if (d.apply s.backlight.bits).isLowPower
    then s.regulator else s.supplied (d.apply s.backlight.bits)))
  exact hsupply.tail (.backlight _ _ rfl rfl)

end OledPanel.Panel
