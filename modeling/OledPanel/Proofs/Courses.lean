import OledPanel.Panel.Scenario
import OledPanel.Proofs.Dimming
import OledPanel.Proofs.Inputs
import OledPanel.Proofs.Switching

/-! What an input comes to by itself. Most inputs are errands, which at most one update of the level
follows. The others are phases of a transition of the power state, or the whole of it with its
commands; changes of the high-brightness mode and of compensation; scheduling a timing, and idling;
counting frames that is given up; and faults of the regulator. -/

namespace OledPanel.Panel

open OledPanel.Action (Lasting Within)
open Dsi (Transport)

variable {σ α : Type} [Transport σ]

/-- Another timing is in force: it is scheduled, asked for or not, or idling switches to it. -/
inductive Retimes (c : Config) (s : State σ) : Input → State σ → Prop
  | schedule {i : Input} {j : Nat} {current : Option Nat}
    (hc : current = s.refresh.current ∨ current = some j)
    (hj : s.refresh.Valid c → j < c.timings.length) :
    Retimes c s i ((queueSwitch c j).after { s with refresh.current := current })
  | idle {j : Nat} (hj : s.refresh.idle = some j) : Retimes c s (.request .idle)
    ((performSwitch c j).after { s with refresh.scheduled := some j })

/-- A request sets the timing for idling to one that fits, or takes it away, or it sets thresholds. A
text asks for no rate of zero. -/
inductive Sets (c : Config) (s : State σ) : Input → State σ → Prop
  | idle {i : Input} (r : Option ModeRequest) {j : Option Nat} (hj : r.mapM (findTiming c) = .ok j)
    (hr : i = .request (.setIdleMode r) ∨ ∀ q, r = some q → q.rate ≠ 0) :
    Sets c s i { s with refresh.idle := j }
  | thresholds {i : Input} {als : Backlight.Als} {ts : List UInt32} (hals : s.backlight.als = some als)
    (hne : ts ≠ []) (hl : ts.length ≤ Backlight.maxThresholds) :
    Sets c s i { s with backlight.als := some { als with thresholds := ts } }

/-- The state an input leaves by itself, before what follows from it. -/
inductive Course (c : Config) (s : State σ) : Input → State σ → Prop
  | errands {i : Input} {t : State σ} (h : QuietErrands c s t) : Course c s i t
  | sets {i : Input} {t : State σ} (h : Sets c s i t) : Course c s i t
  /-- The gate opens with nothing held back. -/
  | opens {i : Input} {t : State σ} (h : QuietErrands c s t) (hh : t.backlight.held = false) :
    Course c s i { t with backlight.gateOpen := true }
  | update {i : Input} {t : State σ} (h : QuietErrands c s t) (gate : Bool)
    (hg : t.backlight.gateOpen = true → gate = true) :
    Course c s i ((update c).after { t with backlight.gateOpen := gate })
  | early (d : Dpms) : Course c s (.request (.earlyDpms d)) ((earlyDpms d).after s)
  | late (d : Dpms) : Course c s (.request (.lateDpms d)) ((lateDpms c d).after s)
  | transition {i : Input} {t : State σ} {set : Dsi.CommandSet} (d : Dpms) (h : Tasks c s t)
    (hs : c.Has set) : Course c s i ((transition c d set).after t)
  | enable : Course c s (.request .enable) ((enable c).after s)
  | disable : Course c s (.request .disable) ((disable c).after s)
  | irc (on : Bool) : Course c s (.request (.updateIrc on)) ((updateIrc c on).after s)
  | hbm {i : Input} {h : Hbm.Config} {mode : HbmMode} (hh : c.hbm = some h) (hm : mode ≠ s.hbm.mode)
    (hs : mode = .sunlight → s.hbm.sunlightEnabled = true) : Course c s i ((changeHbm c h mode).after s)
  | retimes {i : Input} {t : State σ} (h : Retimes c s i t) : Course c s i t
  | giveUp : Course c s .vblankError ((countFrame c false).after s)
  | regulator (on : Bool) : Course c s (.regulatorFails on)
    { s with regulator := s.regulator.map fun r => { r with fails := on } }
  | pwm (config enable : Bool) : Course c s (.pwmFails config enable)
    { s with pwm := s.pwm.map fun p => { p with refusesConfig := config, refusesEnable := enable } }

variable {c : Config}

/-- A relation that admits tasks and does not look at the timings admits other timings. -/
theorem Retimes.related {R : State σ → State σ → Prop} [IsPreorder (State σ) R]
    (hT : ∀ s t, Task c s t → R s t) (hr : ∀ (s : State σ) (r : Refresh), R s { s with refresh := r })
    {s t : State σ} {i : Input} (h : Retimes c s i t) : R s t := by
  cases h with
  | @schedule _ j current _ _ =>
    rw [after_queueSwitch]
    refine IsTrans.trans _ _ _ (hr s { s.refresh with current := current }) ?_
    exact IsTrans.trans _ _ _ (within_of_tasks hT tasks_drain _) (hr _ _)
  | @idle j _ =>
    have hswitch := tasks_performSwitch (c := c) (i := j) (s := { s with refresh.scheduled := some j }) rfl
    exact IsTrans.trans _ _ _ (hr s _) (Action.related_of_closure hT hswitch)

omit [Transport σ] in
theorem within_done {R : State σ → State σ → Prop} [IsPreorder (State σ) R] (x : Action (State σ) Unit)
    (hx : Within R x) : Within R (done x) := hx.bind fun _ => Within.pure _

omit [Transport σ] in
@[simp] theorem after_done (x : Action (State σ) Unit) (s : State σ) : (done x).after s = x.after s := by
  rw [done, Action.after_bind]
  split <;> rfl

/-- Setting the timing for idling and setting the thresholds are errands. -/
theorem Sets.errand {s t : State σ} {i : Input} (h : Sets c s i t) : Errand c s t := by
  cases h with
  | idle r hj hr => exact .idle s _ (lt_of_mapM_findTiming hj)
  | thresholds hals hne hl =>
    refine .adjust s _ _ _ _ _ id fun hv => { hv with als := ?_ }
    rintro _ ⟨⟩
    exact hl

theorem errands_of_sets {s t : State σ} {i : Input} (h : t = s ∨ Sets c s i t) :
    Errands c s t := by
  obtain rfl | h := h
  · exact refl t
  · exact .single h.errand

theorem Course.of_sets {s t : State σ} {i : Input} (h : t = s ∨ Sets c s i t) : Course c s i t := by
  obtain rfl | h := h
  · exact .errands (refl t)
  · exact .sets h

theorem Course.of_tasks {x : Action (State σ) α} (hx : Within (Tasks c) x) (i : Input) (s : State σ) :
    Course c s i (x.after s) := .errands (hx s).quiet

theorem Course.of_update {s t : State σ} {i : Input} (h : QuietErrands c s t) :
    Course c s i ((Panel.update c).after t) := .update h t.backlight.gateOpen id

theorem Course.of_errands {x : Action (State σ) α} (hx : Within (QuietErrands c) x) (i : Input)
    (s : State σ) : Course c s i (x.after s) := .errands (hx s)

theorem course_throw (e : Error) (i : Input) (s : State σ) :
    Course c s i ((throw e : Action (State σ) α).after s) := .errands (refl s)

/-- What follows a value that was given is all there is to it. -/
theorem course_ofExcept_bind {r : Except Error α} {f : α → Action (State σ) Unit} {i : Input}
    {s : State σ} (hf : ∀ a, r = .ok a → Course c s i ((f a).after s)) :
    Course c s i (Action.after (Action.ofExcept r >>= f) s) := by
  cases r with
  | error e => exact course_throw e i s
  | ok a => exact hf a rfl

/-! ### Brightness and timings -/

theorem course_setBrightness (b : UInt32) (i : Input) (s : State σ) :
    Course c s i ((setBrightness c b).after s) := by
  unfold setBrightness
  dsimp only
  split
  · exact course_throw _ i s
  · next hb =>
    have h : Errand c s { s with backlight.brightness := b } :=
      .adjust s b _ _ _ _ id fun hv => { hv with brightness := UInt32.not_lt.mp hb }
    exact .of_update (h.quiet rfl rfl rfl)

theorem course_setScale (factor sunlightFactor : UInt32) (i : Input) (s : State σ) :
    Course c s i ((setScale c factor sunlightFactor).after s) := by
  unfold setScale
  dsimp only
  split
  · exact course_throw _ i s
  · next hf =>
    rw [not_or, UInt32.not_lt, UInt32.not_lt] at hf
    have h : Errand c s { s with
        backlight.factor := factor
        backlight.sunlightFactor := sunlightFactor } :=
      .adjust s _ _ _ _ _ id fun hv => { hv with factor := hf.1, sunlightFactor := hf.2 }
    exact .of_update (h.quiet rfl rfl rfl)

theorem quiet_handoff : Within (QuietErrands c) (handoff c : Action (State σ) UInt32) := by
  have hask : Within (QuietErrands c) (onHost c.backlight.handoff : Action (State σ) UInt32) := by
    intro s
    rw [after_onHost]
    refine (tasks_of_sends (c.backlight.within_handoff rfl s.host) ?_).quiet
    rintro m rfl
    exact .handoff
  refine hask.bind_of_answer fun s b hb => ?_
  rw [answer_onHost] at hb
  have hle : b ≤ c.backlight.map.maxBrightness := c.backlight.yields_handoff s.host b hb
  rw [Action.after_modify_bind]
  exact Errand.quiet (.adjust _ b _ _ _ _ id fun hv => { hv with brightness := hle }) rfl rfl rfl

theorem course_setMode (r : ModeRequest) (i : Input) (s : State σ) :
    Course c s i ((setMode c r).after s) :=
  course_ofExcept_bind fun _ hj => .retimes (.schedule (.inr rfl) fun _ => lt_of_findTiming hj)

theorem course_switchTo (r : ModeRequest) (i : Input) (s : State σ) :
    Course c s i ((switchTo c r).after s) := by
  rw [switchTo, Action.after_get_bind]
  dsimp only
  split
  · exact course_throw _ i s
  · exact course_ofExcept_bind fun _ hj => .retimes (.schedule (.inl rfl) fun _ => lt_of_findTiming hj)

theorem course_leaveIdle (i : Input) (s : State σ) : Course c s i ((leaveIdle c).after s) := by
  rw [leaveIdle, Action.after_get_bind]
  cases hj : s.refresh.current with
  | none => exact .errands (refl s)
  | some j =>
    dsimp only
    split
    · exact .retimes (.schedule (.inl rfl) fun hv => hv.current j hj)
    · exact .errands (refl s)

theorem course_enterIdle (s : State σ) : Course c s (.request .idle) ((enterIdle c).after s) := by
  rw [after_enterIdle]
  cases hj : s.refresh.idle with
  | none => exact .errands (refl s)
  | some j =>
    dsimp only
    split
    · exact .retimes (.idle hj)
    · exact .errands (refl s)

omit [Transport σ] in
theorem sets_setIdleMode {r : Option ModeRequest} {i : Input}
    (hr : i = .request (.setIdleMode r) ∨ ∀ q, r = some q → q.rate ≠ 0) (s : State σ) :
    (setIdleMode c r).after s = s ∨ Sets c s i ((setIdleMode c r).after s) := by
  rw [setIdleMode]
  cases hj : r.mapM (findTiming c) with
  | error e => exact .inl rfl
  | ok j => exact .inr (.idle r hj hr)

theorem errands_setIdleMode (r : Option ModeRequest) :
    Within (Errands c) (setIdleMode c r : Action (State σ) Unit) :=
  fun s => errands_of_sets (sets_setIdleMode (.inl rfl) s)

theorem tasks_setListenCount (n : UInt32) :
    Within (Tasks c) (setListenCount n : Action (State σ) Unit) :=
  tasks_refresh (fun r => { r with listenCount := n }) (fun _ => ⟨rfl, rfl, rfl⟩) fun _ => rfl

theorem tasks_setPulses (n : UInt32) : Within (Tasks c) (setPulses n : Action (State σ) Unit) :=
  tasks_refresh (fun r => { r with pulses := n }) (fun _ => ⟨rfl, rfl, rfl⟩) fun _ => rfl

theorem course_beforeFrame (i : Input) (s : State σ) : Course c s i ((beforeFrame c).after s) := by
  have hdrain : QuietErrands c s ((drain c).after s) := (tasks_drain s).quiet
  rw [beforeFrame, succeeds_drain.after_bind, Action.after_get_bind]
  dsimp only
  split
  · rw [Action.after_set_bind]
    split
    · exact .update hdrain true fun _ => rfl
    · next hheld => exact .opens hdrain (Bool.not_eq_true _ ▸ hheld)
  · exact .errands hdrain

theorem quiet_enableSunlight (on : Bool) :
    Within (QuietErrands c) (enableSunlight c on : Action (State σ) Unit) := by
  refine Within.ite (fun _ => Within.throw _) fun _ s => ?_
  rw [Action.after_get_bind]
  dsimp only
  split
  · exact refl s
  · next hs =>
    refine Errand.quiet (.permit s on ?_) rfl rfl rfl
    cases on <;> simp_all

/-! ### Power -/

/-- A transition without commands. -/
theorem after_setDpms (d : Dpms) (s : State σ) :
    (setDpms c d).after s = (transition c d {}).after s := by
  rw [setDpms, transition, Action.after_bind, Action.after_bind]
  cases (earlyDpms d).answer s with
  | error e => rfl
  | ok u =>
    dsimp only
    rw [Action.after_outcome_bind, after_onHost, Action.after_bind]
    split <;> rfl

theorem course_enterLp1 (i : Input) (s : State σ) : Course c s i ((enterLp1 c).after s) := by
  rw [enterLp1, succeeds_drain.after_bind]
  exact .transition .lp1 (tasks_drain s) .lp1

theorem course_setLowPowerLevel (n : UInt32) (i : Input) (s : State σ) :
    Course c s i ((setLowPowerLevel c n).after s) := by
  rw [setLowPowerLevel, Action.after_get_bind]
  dsimp only
  split
  · exact course_throw _ i s
  · by_cases hzero : n = 0
    · rw [if_pos hzero]
      split
      · exact .transition .on (refl s) .nolp
      · exact .errands (refl s)
    · rw [if_neg hzero]
      by_cases hone : n = 1
      · rw [if_pos hone]
        split
        · exact course_enterLp1 i s
        · exact .errands (refl s)
      · rw [if_neg hone]
        split
        · exact .transition .lp2 (refl s) .lp2
        · exact .errands (refl s)

/-! ### High-brightness mode -/

/-- A request for a mode leaves everything as it is, or it is permitted and changes the mode. -/
theorem course_setHbm (mode : HbmMode) (i : Input) (s : State σ) :
    Course c s i ((setHbm c mode).after s) := by
  unfold setHbm
  cases hh : c.hbm with
  | none => exact course_throw _ i s
  | some h =>
    rw [Action.after_get_bind]
    by_cases hm : mode = s.hbm.mode
    · rw [if_neg (by simp [hm])]
      exact .errands (refl s)
    · rw [if_pos hm]
      by_cases hs : mode = .sunlight ∧ !s.hbm.sunlightEnabled
      · rw [if_pos hs]
        exact course_throw _ i s
      · rw [if_neg hs]
        refine .hbm hh hm fun he => ?_
        simpa [he] using hs

/-! ### Gamma tables, ambient light and attributes -/

theorem tasks_dumpGamma : Within (Tasks c) (dumpGamma c : Action (State σ) String) := by
  refine Within.get fun s => Within.ite (fun _ => Within.throw _) fun _ => ?_
  exact tasks_readGamma.bind fun _ => Within.get fun s => Within.pure _

theorem tasks_forgetGamma : Within (Tasks c) (forgetGamma c : Action (State σ) Unit) := by
  unfold forgetGamma
  split
  · exact Within.throw _
  · exact fun s => .single (.gamma s _ (fun hg => hg) (fun hg => ⟨hg.length, nofun⟩) .forget)

omit [Transport σ] in
theorem sets_setThresholds (ts : List UInt32) (i : Input) (s : State σ) :
    (setThresholds ts).after s = s ∨ Sets c s i ((setThresholds ts).after s) := by
  rw [setThresholds, Action.after_get_bind]
  split
  · exact .inl rfl
  · next als hals =>
    cases hb : als.replace ts with
    | error e => exact .inl rfl
    | ok b =>
      obtain ⟨hne, hl, rfl⟩ := Backlight.Als.replace_eq_ok.mp hb
      exact .inr (.thresholds hals hne hl)

theorem errands_setThresholds (ts : List UInt32) :
    Within (Errands c) (setThresholds ts : Action (State σ) Unit) :=
  fun s => errands_of_sets (sets_setThresholds ts (.request (.setThresholds ts)) s)

/-- Showing an attribute does nothing but read the gamma tables first, if these are shown. -/
theorem within_showNamed {R : State σ → State σ → Prop} [IsPreorder (State σ) R]
    (hdump : Within R (dumpGamma c : Action (State σ) String)) (name : String) :
    Within R (showNamed c name : Action (State σ) String) := by
  refine (Within.ofExcept _).bind fun a => ?_
  cases a with
  | gamma => exact hdump
  | state | alsTable =>
    exact Within.get fun s => (Within.ofExcept _).bind fun t => Within.pure _
  | maxBrightness => exact Within.pure _
  | _ => exact Within.get fun s => Within.pure _

theorem course_storeHbm (text : List Char) (i : Input) (s : State σ) :
    Course c s i ((storeHbm c text).after s) := by
  unfold storeHbm
  dsimp only
  split
  · exact course_throw _ i s
  · refine course_ofExcept_bind fun n _ => ?_
    split
    · next mode _ => exact course_setHbm mode i s
    · exact course_throw _ i s

theorem course_storeAttribute (text : List Char) (a : Attribute) (i : Input) (s : State σ) :
    Course c s i ((storeAttribute c text a).after s) := by
  cases a with
  | hbmMode => exact course_storeHbm text i s
  | brightness => exact course_ofExcept_bind fun b _ => course_setBrightness b i s
  | alpmMode => exact course_ofExcept_bind fun n _ => course_setLowPowerLevel n i s
  | hbmSvEnabled =>
    refine Course.of_errands (Within.ite (fun _ => Within.throw _) fun _ => ?_) i s
    exact (Within.ofExcept _).bind fun on => quiet_enableSunlight on
  | alsTable =>
    rw [storeAttribute, Action.after_get_bind]
    cases s.thresholds with
    | error e => exact course_throw e i s
    | ok _ => exact course_ofExcept_bind fun ts _ => .of_sets (sets_setThresholds ts i s)
  | idleMode =>
    rw [storeAttribute, storeIdle]
    split
    · exact .of_sets (sets_setIdleMode (.inr fun q hq => by cases hq) s)
    · refine course_ofExcept_bind fun r hr => .of_sets (sets_setIdleMode (.inr ?_) s)
      rintro _ ⟨⟩
      exact r.rate_ne_zero hr
  | switchMode => exact course_ofExcept_bind fun r _ => course_switchTo r i s
  | teListenCount =>
    exact Course.of_tasks ((Within.ofExcept _).bind fun n => tasks_setListenCount n) i s
  | teCounter =>
    exact Course.of_tasks ((Within.ofExcept _).bind fun n => tasks_setPulses n) i s
  | gamma => exact Course.of_tasks tasks_forgetGamma i s
  | actualBrightness | maxBrightness | state | lpMode => exact course_throw _ i s

/-- A write that fails answers the number of the error, and leaves what the failure left. -/
theorem after_write (name text : String) (s : State σ) :
    ((Request.write name text).perform c).after s = (storeNamed c name text).after s := by
  rw [Request.perform, Action.after_bind, store, Action.after_outcome_bind, Action.answer_bind,
    Action.answer_outcome, Action.after_outcome]
  cases (storeNamed c name text).answer s <;> rfl

theorem course_write (name text : String) (s : State σ) :
    Course c s (.request (.write name text)) (((Request.write name text).perform c).after s) := by
  rw [after_write]
  exact course_ofExcept_bind fun a _ => course_storeAttribute text.toList a _ s

/-! ### Inputs -/

theorem course_perform_request (r : Request) (s : State σ) :
    Course c s (.request r) ((r.perform c).after s) := by
  cases r with
  | setBrightness b => exact after_done (setBrightness c b) s ▸ course_setBrightness b _ s
  | update => exact after_done (update c) s ▸ .of_update (refl s)
  | setScale f g => exact after_done (setScale c f g) s ▸ course_setScale f g _ s
  | handoff => exact .of_errands (quiet_handoff.bind fun _ => Within.pure _) _ s
  | earlyDpms d => exact after_done (earlyDpms d) s ▸ .early d
  | lateDpms d => exact after_done (lateDpms c d) s ▸ .late d
  | setDpms d =>
    rw [Request.perform, after_done, after_setDpms]
    exact .transition d (refl s) .empty
  | enable => exact after_done (enable c) s ▸ .enable
  | postEnable =>
    exact .of_errands (within_done _ ((quiet_of_tasks tasks_drain).bind fun _ => quiet_queueGamma)) _ s
  | disable => exact after_done (disable c) s ▸ .disable
  | enterLp1 => exact after_done (enterLp1 c) s ▸ course_enterLp1 _ s
  | enterLp2 => exact after_done (enterLp2 c) s ▸ .transition .lp2 (refl s) .lp2
  | leaveLp => exact after_done (leaveLp c) s ▸ .transition .on (refl s) .nolp
  | setLowPowerLevel n => exact after_done (setLowPowerLevel c n) s ▸ course_setLowPowerLevel n _ s
  | setHbm mode => exact after_done (setHbm c mode) s ▸ course_setHbm mode _ s
  | enableSunlight on => exact .of_errands (within_done _ (quiet_enableSunlight on)) _ s
  | updateIrc on => exact after_done (updateIrc c on) s ▸ .irc on
  | setMode r => exact after_done (setMode c r) s ▸ course_setMode r _ s
  | switchTo r => exact after_done (switchTo c r) s ▸ course_switchTo r _ s
  | setIdleMode r => exact after_done (setIdleMode c r) s ▸ .of_sets (sets_setIdleMode (.inl rfl) s)
  | beforeFrame => exact after_done (beforeFrame c) s ▸ course_beforeFrame _ s
  | flush => exact .of_tasks (within_done _ tasks_drain) _ s
  | idle => exact after_done (enterIdle c) s ▸ course_enterIdle s
  | wakeup => exact after_done (leaveIdle c) s ▸ course_leaveIdle _ s
  | setListenCount n => exact .of_tasks (within_done _ (tasks_setListenCount n)) _ s
  | setPulses n => exact .of_tasks (within_done _ (tasks_setPulses n)) _ s
  | dumpGamma => exact .of_tasks (tasks_dumpGamma.bind fun _ => Within.pure _) _ s
  | forgetGamma => exact .of_tasks (within_done _ tasks_forgetGamma) _ s
  | setThresholds ts => exact after_done (setThresholds ts) s ▸ .of_sets (sets_setThresholds ts _ s)
  | read name =>
    exact .of_tasks ((within_showNamed tasks_dumpGamma name).bind fun _ => Within.pure _) _ s
  | write name text => exact course_write name text s

theorem course_perform (i : Input) (s : State σ) : Course c s i ((i.perform c).after s) := by
  cases i with
  | request r => exact course_perform_request r s
  | pulse => exact .of_tasks (within_done _ fun s => tasks_pulse s) _ s
  | vblankError =>
    rw [Input.perform, after_done, failWait, Action.after_get_bind]
    split
    · exact .giveUp
    · exact .errands (refl s)
  | refuse on =>
    have h : Within (Tasks c)
        (modify fun s => { s with display.refusing := on } : Action (State σ) Unit) :=
      tasks_display (f := fun d => { d with refusing := on }) fun _ => ⟨rfl, rfl, rfl⟩
    exact .of_tasks (within_done _ h) _ s
  | burst n =>
    have h : Within (Tasks c)
        (modify fun s => { s with display.burst := n } : Action (State σ) Unit) :=
      tasks_display (f := fun d => { d with burst := n }) fun _ => ⟨rfl, rfl, rfl⟩
    exact .of_tasks (within_done _ h) _ s
  | regulatorFails on => exact .regulator on
  | pwmFails config enable => exact .pwm config enable

/-! ### What follows an input -/

theorem tasks_wait : Within (Tasks c) (onDisplay Display.wait : Action (State σ) Unit) := by
  intro s
  have hd : (Display.wait.after s.display).references = s.display.references ∧
      (Display.wait.after s.display).granted = s.display.granted ∧
      (Display.wait.after s.display).returned = s.display.returned := by
    rw [Display.after_wait]
    split <;> exact ⟨rfl, rfl, rfl⟩
  rw [onDisplay, Action.after_within]
  exact .single (.display s _ hd.1 hd.2.1 hd.2.2)

/-- The relation holds of what follows every input: tasks and counted frames. -/
structure Ensues (c : Config) (R : State σ → State σ → Prop) : Prop where
  task : ∀ s t, Task c s t → R s t
  count : Within R (countFrame c true)

section

variable {R : State σ → State σ → Prop} [IsPreorder (State σ) R]

theorem Ensues.countFrames (hR : Ensues c R) (n : Nat) :
    Within R (countFrames c n : Action (State σ) Unit) := by
  induction n with
  | zero => exact Within.pure _
  | succ n ih =>
    refine Within.get fun s => Within.ite (fun _ => ?_) fun _ => Within.pure _
    refine (within_of_tasks hR.task tasks_wait).outcome.bind fun r => ?_
    cases r with
    | ok _ => exact hR.count.bind fun _ => ih
    | error e => exact Within.pure _

/-- First the jobs that wait are done, then frames are counted. -/
theorem settle_eq (s : State σ) : (settle c).after s =
    (countFrames c ((drain c).after s).display.pending).after ((drain c).after s) := by
  rw [settle, succeeds_drain.after_bind, Action.after_get_bind]

theorem Ensues.settle (hR : Ensues c R) : Within R (settle c : Action (State σ) Unit) := by
  intro s
  rw [settle_eq]
  exact IsTrans.trans _ _ _ (within_of_tasks hR.task tasks_drain s) (hR.countFrames _ _)

end

/-- A step is its input and what follows from it. -/
theorem step_eq (s : State σ) (i : Input) : step c s i = (settle c).after ((i.perform c).after s) := by
  rw [step, advance, Action.after_outcome_bind, Action.after_bind]
  split <;> rfl

/-- No job waits between inputs. -/
theorem jobs_step (s : State σ) (i : Input) : (step c s i).refresh.jobs = [] := by
  have hensues : Ensues c (Lasting fun s : State σ => s.refresh.jobs = []) := by
    refine ⟨fun s t h hs => ?_, fun s hs => ?_⟩
    · exact List.subset_nil.mp (hs ▸ Tasks.jobs (.single h))
    · show ((countFrame c true).after s).refresh.jobs = []
      rw [refresh_countFrame]
      exact hs
  rw [step_eq, settle_eq]
  exact hensues.countFrames _ _ (jobs_drain _)

theorem jobs_run {s : State σ} (hs : s.refresh.jobs = []) (is : List Input) :
    (run c s is).refresh.jobs = [] := by
  induction is generalizing s with
  | nil => exact hs
  | cons i is ih => exact ih (jobs_step s i)

/-- Where no job waits, a timing is put in force by a switch to it, once the jobs are done. -/
theorem Retimes.performs {s t : State σ} {i : Input} (hs : s.refresh.jobs = [])
    (h : Retimes c s i t) : ∃ j r u, u.active = some j ∧ Tasks c { s with refresh := r } u ∧
      Tasks c ((performSwitch c j).after u) ((drain c).after t) := by
  cases h with
  | @schedule _ j current hc hj =>
    have hasked : ({ s with refresh.current := current } : State σ).refresh.jobs = [] := hs
    rw [after_queueSwitch, drain_of_none hasked, drain_of_switch rfl]
    obtain ⟨hnone, -⟩ | ⟨i, d, hi, hd, hrest⟩ := runSwitch_cases (c := c) { s with
      refresh := { s.refresh with
        current := current, scheduled := some j, switching := true, jobs := [] } }
    · cases hnone
    · cases hi
      exact ⟨j, _, _, hd.active, hd, hrest⟩
  | @idle j hj => exact ⟨j, _, _, rfl, refl _, tasks_drain _⟩

end OledPanel.Panel
