import Mathlib.Data.List.Induction
import OledPanel.Bench.Plain
import OledPanel.Proofs.Phases
import OledPanel.Proofs.Recording
import OledPanel.Proofs.Turns

/-! The timing in force. It is the one scheduled last, and scheduling is what counts: a panel with
gamma tables that does not unlock drops the switch, and the timing is in force all the same. So the
timing in force is that of the last switch that was performed, dropped or not, and the rate told in
the control register goes by it. It is the timing that the panel was brought into unless the last
switch was dropped. -/

namespace OledPanel.Panel

open OledPanel.Action (Given Same Within)
open Dsi (Message Recorder Sends Transport)

variable {σ : Type} {c : Config}

/-! ### Switches of a run -/

/-- A switch to a timing, and whether the panel unlocked for it. -/
structure Switch where
  timing : Nat
  unlocked : Bool
deriving DecidableEq, Repr

section

variable [Transport σ]

/-- The switch that is performed now. A panel without gamma tables has no lock. -/
def State.switch (c : Config) (s : State σ) (i : Nat) : Switch where
  timing := i
  unlocked := match c.family with
    | .generic => true
    | .gamma => ((Dsi.writeBuffer Gamma.unlock true : Action σ Unit).answer s.host).isOk

/-- The switch of a job. -/
def Job.switches (c : Config) (s : State σ) : Job → List Switch
  | .switch => (s.refresh.scheduled.map (s.switch c)).toList
  | .readGamma => []

/-- The switches of jobs that are done one after the other. -/
def jobSwitches (c : Config) : List Job → State σ → List Switch
  | [], _ => []
  | j :: js, s => j.switches c s ++ jobSwitches c js ((j.run c).after s)

/-- The switch that an input performs by itself. -/
def Input.switches (c : Config) (s : State σ) : Input → List Switch
  | .request .idle => match s.refresh.idle with
    | none => []
    | some i => if some i ≠ s.active ∧ s.initialized then [s.switch c i] else []
  | _ => []

/-- The switches of a step. Where no job waits before the input, these are the one of the input by
itself and those of the jobs that wait after it. -/
def stepSwitches (c : Config) (s : State σ) (i : Input) : List Switch :=
  let t := (i.perform c).after s
  i.switches c s ++ jobSwitches c t.refresh.jobs { t with refresh.jobs := [] }

/-- The switches of a run, the oldest first. -/
def runSwitches (c : Config) : State σ → List Input → List Switch
  | _, [] => []
  | s, i :: is => stepSwitches c s i ++ runSwitches c (step c s i) is

/-- Only a job that switches performs switches. -/
theorem jobSwitches_of_not_mem {js : List Job} (hjs : .switch ∉ js) (s : State σ) :
    jobSwitches c js s = [] := by
  induction js generalizing s with
  | nil => rfl
  | cons j js ih =>
    rw [List.mem_cons, not_or] at hjs
    cases j with
    | switch => exact absurd rfl hjs.1
    | readGamma => exact ih hjs.2 _

theorem switches_of_ne_idle {s : State σ} {i : Input} (hi : i ≠ .request .idle) :
    i.switches c s = [] := by
  unfold Input.switches
  split
  · exact absurd rfl hi
  · rfl

end

/-! ### The rate in the control register -/

/-- The messages of a step with a rate in force at its end: what is written to the control register
tells whether it is 90 Hz, unless a command set or compensation writes it. -/
inductive Rated (c : Config) (rate : Option UInt32) (m : Message) : Prop
  | other (hm : m.isRead = true ∨ m.cmd ≠ Dsi.writeControl)
  | set {set : Dsi.CommandSet} (hs : c.Has set) (hm : m ∈ set.messages)
  | irc {irc : Hbm.Irc} (hi : c.irc? = some irc) (hm : m.cmd = irc.address)
  | control {value : UInt8} (hm : m.tx = [Dsi.writeControl, value])
    (hv : value &&& 0x10 ≠ 0 ↔ rate = some 90)

/-- The bit for 90 Hz is set for that rate and no other. -/
theorem controlValue_and_rate (s : State σ) (rate : UInt32) :
    controlValue c s rate &&& 0x10 ≠ 0 ↔ rate = 90 := by
  unfold controlValue
  by_cases hrate : rate = 90
  · simp only [hrate, if_true, iff_true]
    split <;> split <;> decide
  · simp only [hrate, if_false, iff_false]
    split <;> split <;> decide

theorem control_and_rate (s : State σ) : s.control c &&& 0x10 ≠ 0 ↔ c.rate? s.active = some 90 := by
  rw [State.control, controlValue_and_rate]
  cases c.rate? s.active with
  | none => simp
  | some rate => simp

theorem Routine.rated {s : State σ} {m : Message} (hm : Routine c s m) (hs : s.gamma.Laid) :
    Rated c (c.rate? s.active) m := by
  obtain ⟨set, hset, hm⟩ | hm | hm := hm.source hs
  · exact .set hset hm
  · exact .control (Dsi.plain?_eq hm).1 (control_and_rate s)
  · refine .other (.inr fun hcmd => ?_)
    rw [hcmd] at hm
    exact absurd hm (by decide)

variable [Transport σ]

/-- The timing in force stays, no switch is scheduled, and what is sent goes with the rate. -/
structure Abides (c : Config) (s t : State σ) : Prop where
  active : t.active = s.active
  jobs : .switch ∈ t.refresh.jobs → .switch ∈ s.refresh.jobs
  sent : Hands (Rated c (c.rate? s.active)) s t

instance : IsPreorder (State σ) (Abides c) where
  refl s := ⟨rfl, id, refl s⟩
  trans s t u hst htu := by
    refine ⟨htu.active.trans hst.active, hst.jobs ∘ htu.jobs, ?_⟩
    have hsent := htu.sent
    rw [hst.active] at hsent
    exact IsTrans.trans _ _ _ hst.sent hsent

/-- As long as gamma tables are laid out as they are sent, the timing in force abides. -/
abbrev Abiding (c : Config) : State σ → State σ → Prop := Given (fun s => s.gamma.Laid) (Abides c)

theorem abiding_of_eq {s t : State σ} (hh : t.host = s.host) (hr : t.refresh = s.refresh)
    (hg : t.gamma = s.gamma) : Abiding c s t := by
  intro hs
  refine ⟨?_, ?_, ?_, ?_⟩
  · show t.gamma.Laid
    rw [hg]
    exact hs
  · rw [State.active, State.active, hr]
  · rw [hr]
    exact id
  · rw [Hands, hh]
    exact refl s.host

theorem abiding_of_transfer (s : State σ) {m : Message}
    (hm : s.gamma.Laid → Rated c (c.rate? s.active) m) :
    Abiding c s { s with host := (Dsi.transfer m).after s.host } :=
  fun hs => ⟨hs, rfl, id, .single ⟨m, hm hs, rfl⟩⟩

theorem abiding_task (s t : State σ) (h : Task c s t) : Abiding c s t := by
  cases h with
  | transfer hm => exact abiding_of_transfer s hm.rated
  | refresh r hr hj =>
    have hactive : ({ s with refresh := r } : State σ).active = s.active := by
      rw [State.active, State.active, hr.scheduled, hr.current]
    exact fun hs => ⟨hs, hactive, fun hm => hj hm, refl s.host⟩
  | gamma g hg _ => exact fun hs => ⟨hg hs, rfl, id, refl s.host⟩
  | display d _ _ _ => exact abiding_of_eq rfl rfl rfl

theorem abiding_errand (s t : State σ) (h : Errand c s t) : Abiding c s t := by
  cases h with
  | task h => exact abiding_task s t h
  | idle i _ => exact fun hs => ⟨hs, rfl, id, refl s.host⟩
  | enqueue =>
    have hjobs (h : Job.switch ∈ s.refresh.jobs ++ [.readGamma]) : .switch ∈ s.refresh.jobs := by
      simpa using h
    exact fun hs => ⟨hs, rfl, hjobs, refl s.host⟩
  | _ => exact abiding_of_eq rfl rfl rfl

theorem abiding_detached : Detached c (Abiding c : State σ → State σ → Prop) where
  task := abiding_task
  dims _ _ _ _ := abiding_of_eq rfl rfl rfl
  ask s irc hirc := abiding_of_transfer s fun _ => .other (.inl rfl)
  store s irc bytes m hirc hm := by
    refine abiding_of_transfer s fun _ => .irc hirc ?_
    rw [Message.cmd, (Dsi.plain?_eq hm).1]
    rfl
  keep _ _ _ := abiding_of_eq rfl rfl rfl
  mode _ _ := abiding_of_eq rfl rfl rfl
  errand := abiding_errand
  level s level m hm := by
    refine abiding_of_transfer s fun _ => .other (.inr ?_)
    rw [Message.cmd, (Dsi.plain?_eq hm).1]
    exact (by decide : Dsi.setBrightness ≠ Dsi.writeControl)
  power _ _ _ _ := abiding_of_eq rfl rfl rfl

theorem abiding_oblivious : Oblivious c (Abiding c : State σ → State σ → Prop) :=
  abiding_detached.oblivious

theorem abiding_tasks {s t : State σ} (h : Tasks c s t) : Abiding c s t :=
  Action.related_of_closure abiding_task h

/-! ### Steps -/

/-- The timing in force at the end of a step abides from where it is put in force. -/
theorem abiding_step {s : State σ} (hs : s.refresh.jobs = []) (i : Input) :
    ∃ r, Abiding c { s with refresh := r } (step c s i) := by
  have hcourse := (abiding_oblivious (c := c)).course (course_perform i s)
  rw [step_eq]
  generalize (i.perform c).after s = t at hcourse ⊢
  obtain h | h := hcourse
  · exact ⟨s.refresh, IsTrans.trans _ _ _ h (abiding_oblivious.ensues.settle t)⟩
  · obtain ⟨j, r, u, hactive, hu, hrest⟩ := h.performs hs
    have hswitched : Tasks c { s with refresh := r } ((drain c).after t) :=
      IsTrans.trans _ _ _ hu (IsTrans.trans _ _ _ (tasks_performSwitch hactive) hrest)
    rw [settle_eq]
    exact ⟨r, IsTrans.trans _ _ _ (abiding_tasks hswitched) (abiding_oblivious.ensues.countFrames _ _)⟩

/-- What a step sends goes with the rate of the timing that is in force at its end. -/
theorem rated_step {s : State σ} (hl : s.gamma.Laid) (hs : s.refresh.jobs = []) (i : Input) :
    Hands (Rated c (c.rate? (step c s i).active)) s (step c s i) := by
  obtain ⟨r, h⟩ := abiding_step (c := c) hs i
  obtain ⟨-, habides⟩ := h hl
  rw [habides.active]
  exact habides.sent

theorem active_settle (s : State σ) : ((settle c).after s).active = s.active := by
  have hensues : Ensues c (Same State.active : State σ → State σ → Prop) := by
    refine ⟨fun s t h => Tasks.active (.single h), fun s => ?_⟩
    show State.active _ = State.active _
    rw [State.active, State.active, refresh_countFrame]
  exact hensues.settle s

/-- Idling performs its switch by itself, and nothing is left to do. -/
theorem active_enterIdle {s : State σ} (hs : s.refresh.jobs = []) :
    let t := (enterIdle c).after s
    t.active = (((Input.request .idle).switches c s).getLast?.map (·.timing)).or s.active ∧
      t.refresh.jobs = [] := by
  intro t
  have ht : t = _ := after_enterIdle s
  rw [ht, Input.switches]
  cases s.refresh.idle with
  | none => exact ⟨rfl, hs⟩
  | some j =>
    dsimp only
    split
    · have hswitch := tasks_performSwitch (c := c) (i := j)
        (s := { s with refresh.scheduled := some j }) rfl
      exact ⟨hswitch.active, List.subset_nil.mp (hs ▸ hswitch.jobs)⟩
    · exact ⟨rfl, hs⟩

/-- After a step the timing of its last switch is in force, or that from before. -/
theorem active_step {s : State σ} (hl : s.gamma.Laid) (hs : s.refresh.jobs = []) (i : Input) :
    (step c s i).active = ((stepSwitches c s i).getLast?.map (·.timing)).or s.active := by
  rw [step_eq, active_settle]
  by_cases hi : i = .request .idle
  · subst hi
    have hperform : (Input.perform c (.request .idle)).after s = (enterIdle c).after s := after_done _ s
    obtain ⟨hactive, hjobs⟩ := active_enterIdle (c := c) hs
    rw [stepSwitches, hperform, hjobs, hactive]
    simp [jobSwitches]
  · have hcourse := (abiding_oblivious (c := c)).course (course_perform i s)
    rw [stepSwitches, switches_of_ne_idle hi]
    generalize (i.perform c).after s = t at hcourse ⊢
    obtain h | h := hcourse
    · obtain ⟨-, habides⟩ := h hl
      have hnone : .switch ∉ t.refresh.jobs := fun h => by
        have hwaits := habides.jobs h
        rw [hs] at hwaits
        cases hwaits
      rw [jobSwitches_of_not_mem hnone]
      exact habides.active
    · cases h with
      | idle hj => exact absurd rfl hi
      | @schedule _ j current hc hj =>
        rw [after_queueSwitch]
        rfl

/-! ### Runs -/

theorem active_run {s : State σ} (hl : s.gamma.Laid) (hs : s.refresh.jobs = []) (is : List Input) :
    (run c s is).active = ((runSwitches c s is).getLast?.map (·.timing)).or s.active := by
  induction is generalizing s with
  | nil => rfl
  | cons i is ih =>
    have hlaid : (step c s i).gamma.Laid := laid_run hl [i]
    rw [run_cons, ih hlaid (jobs_step s i), active_step hl hs, runSwitches, List.getLast?_append]
    cases (runSwitches c (step c s i) is).getLast? <;> simp

/-- A last switch for which the panel unlocked is the last of those for which it did. -/
theorem getLast?_unlocked {switches : List Switch}
    (h : ∀ e ∈ switches.getLast?, e.unlocked = true) :
    (switches.filter (·.unlocked)).getLast? = switches.getLast? := by
  cases switches using List.reverseRecOn with
  | nil => rfl
  | append_singleton switches e =>
    have he : e.unlocked = true := h e (by simp)
    simp [List.filter_append, he]

/-- Whatever is asked of a panel and whatever fails, no switch is left waiting between inputs, and the
timing in force is that of the last switch performed, be it dropped as the panel did not unlock; it is
that of the last switch the panel unlocked for unless the last was dropped. Every value written to
the control register, other than by command sets and compensation, has its bit for 90 Hz set if and
only if that is the rate in force at the end of the step. -/
theorem timing_of_last_switch (c : Config) (host : σ) (display : Display) (pwm : Option Pwm)
    (regulator : Option Regulator) (inputs : List Input) :
    let start := State.initial c ({ host } : Recorder σ) display pwm regulator
    let s := run c start inputs
    let switches := runSwitches c start inputs
    s.refresh.jobs = [] ∧ s.active = (switches.getLast?.map (·.timing)).or start.active ∧
      ((∀ e ∈ switches.getLast?, e.unlocked = true) →
        s.active = ((switches.filter (·.unlocked)).getLast?.map (·.timing)).or start.active) ∧
      ∀ i, ∃ later, (step c s i).host.record = s.host.record ++ later ∧
        ∀ e ∈ later, Rated c (c.rate? (step c s i).active) e.message := by
  intro start s switches
  have hlaid : start.gamma.Laid := laid_initial c _ display pwm regulator
  have hjobs : s.refresh.jobs = [] := jobs_run rfl inputs
  have hactive : s.active = (switches.getLast?.map (·.timing)).or start.active :=
    active_run hlaid rfl inputs
  refine ⟨hjobs, hactive, fun h => ?_, fun i => ?_⟩
  · rw [getLast?_unlocked h]
    exact hactive
  · exact Recorder.record_of_sends (rated_step (laid_run hlaid inputs) hjobs i)

/-- A dropped switch to 90 Hz is in force, and told in the control register, on a panel that never
unlocked. -/
theorem timing_of_dropped_switch :
    let hbm : Hbm.Config := {
      ranges := [⟨0, 255, 100, 200, {}, {}, 0⟩]
      exit := {}
      exitStop := {}
      exitFrames := 0
      irc := none }
    let node := Bench.gammaNode [Bench.hbmNode [] [Bench.rangeNode 0 100 200 none]]
    let c := Bench.gammaPlain (some hbm)
    let host : Recorder Bench.Host := { host := { failing := [0xF0] } }
    let start := State.initial c host {} none none
    let inputs := [.request .enable, .request (.setMode ⟨none, 90⟩), .request (.setHbm .on)]
    let s := run c start inputs
    let switches := runSwitches c start inputs
    (Config.ofNode node false).toOption = some c ∧ switches = [⟨1, false⟩] ∧ s.active = some 1 ∧
      ((switches.filter (·.unlocked)).getLast?.map (·.timing)).or start.active = some 0 ∧
      (s.host.writes Dsi.writeControl).map (·.tx) = [[Dsi.writeControl, 0xF0]] := by
  decide +kernel

end OledPanel.Panel
