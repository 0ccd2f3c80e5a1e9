import OledPanel.Bench.Plain
import OledPanel.Proofs.TimingInForce

/-! Waking up. The current timing is scheduled again unless it is the one scheduled last, and the one
scheduled last is that of the last switch of the run. So waking up leaves the current timing in force,
and it switches back from wherever idling or a request went. It also switches where no switch has been
performed yet and the panel is in the current timing as it was to begin with. -/

namespace OledPanel.Panel

open OledPanel.Action (Within)
open Dsi (Transport)

variable {σ : Type}

/-! ### What stays -/

/-- Nothing changes but the host. -/
def Talks (s t : State σ) : Prop := ∃ g, t = { s with host := g }

instance : IsPreorder (State σ) Talks where
  refl s := ⟨s.host, rfl⟩
  trans := by
    rintro s _ _ ⟨g, rfl⟩ ⟨h, rfl⟩
    exact ⟨h, rfl⟩

theorem talks_onHost {α : Type} (x : Action σ α) : Within Talks (onHost x : Action (State σ) α) :=
  fun s => ⟨x.after s.host, after_onHost x s⟩

/-- No switch is scheduled, and the current timing stays. -/
structure Unmoved (s t : State σ) : Prop where
  current : t.refresh.current = s.refresh.current
  scheduled : t.refresh.scheduled = s.refresh.scheduled
  jobs : .switch ∈ t.refresh.jobs → .switch ∈ s.refresh.jobs

instance : IsPreorder (State σ) Unmoved where
  refl _ := ⟨rfl, rfl, id⟩
  trans _ _ _ hst htu :=
    ⟨htu.current.trans hst.current, htu.scheduled.trans hst.scheduled, hst.jobs ∘ htu.jobs⟩

theorem unmoved_of_eq {s t : State σ} (h : t.refresh = s.refresh) : Unmoved s t :=
  ⟨h ▸ rfl, h ▸ rfl, h ▸ id⟩

/-- A switch is performed while the panel listens, if it listens at all. -/
def State.listening (s : State σ) : State σ :=
  if 0 < s.refresh.listenCount then { s with display := s.display.listen listener } else s

/-- The current timing was scheduled last if it is in force by a switch of the run. -/
theorem scheduled_iff {s : State σ} {switches : List Switch} {i : Nat}
    (hscheduled : s.refresh.scheduled = switches.getLast?.map (·.timing)) :
    s.refresh.scheduled = some i ↔ s.active = some i ∧ switches ≠ [] := by
  rw [State.active, hscheduled]
  cases hlast : switches.getLast? with
  | none => simp [List.getLast?_eq_none_iff.mp hlast]
  | some e =>
    have hne : switches ≠ [] := by
      rintro rfl
      cases hlast
    simp [hne]

variable [Transport σ] {c : Config}

theorem talks_performSwitch (i : Nat) : Within Talks (performSwitch c i : Action (State σ) Unit) := by
  have htiming : Within Talks (sendTiming c i : Action (State σ) Unit) := by
    unfold sendTiming
    split
    · exact Within.pure _
    · exact talks_onHost _
  have htables (b : Gamma.Buffer) (ts : List (Gamma.Table × Nat)) :
      Within Talks (sendTables b ts : Action (State σ) Unit) := by
    induction ts with
    | nil => exact Within.pure _
    | cons t ts ih => exact (talks_onHost _).attempt.bind fun _ => ih
  have hreplay : Within Talks (replayGamma i : Action (State σ) Unit) := by
    refine Within.get fun s => ?_
    split
    · exact Within.pure _
    · exact htables _ _
  have hcontrol (rate : UInt32) : Within Talks (writeControl c rate : Action (State σ) Unit) :=
    Within.get fun s => talks_onHost _
  unfold performSwitch
  split
  · exact htiming.attempt
  · refine (talks_onHost _).outcome.bind fun r => ?_
    split
    · exact Within.pure _
    · exact (htiming.attempt.bind fun _ => (hcontrol _).attempt.bind fun _ => hreplay).bind fun _ =>
        (talks_onHost _).attempt

theorem unmoved_tasks {s t : State σ} (h : Tasks c s t) : Unmoved s t :=
  ⟨h.sameTimings.current, h.sameTimings.scheduled, fun hj => h.jobs hj⟩

theorem unmoved_oblivious : Oblivious c (Unmoved : State σ → State σ → Prop) := by
  have hdetached : Detached c (Unmoved : State σ → State σ → Prop) := {
    task := fun s t h => unmoved_tasks (.single h)
    dims := fun _ _ _ _ => unmoved_of_eq rfl
    ask := fun _ _ _ => unmoved_of_eq rfl
    store := fun _ _ _ _ _ _ => unmoved_of_eq rfl
    keep := fun _ _ _ => unmoved_of_eq rfl
    mode := fun _ _ => unmoved_of_eq rfl
    errand := fun s t h => by
      cases h with
      | task h => exact unmoved_tasks (.single h)
      | idle i _ => exact ⟨rfl, rfl, id⟩
      | enqueue => exact ⟨rfl, rfl, fun h => by simpa using h⟩
      | _ => exact unmoved_of_eq rfl
    level := fun _ _ _ _ => unmoved_of_eq rfl
    power := fun _ _ _ _ => unmoved_of_eq rfl }
  exact hdetached.oblivious

/-! ### The timing scheduled last -/

theorem stepSwitches_idle {s : State σ} (hs : s.refresh.jobs = []) :
    stepSwitches c s (.request .idle) = (Input.request .idle).switches c s := by
  have hperform : (Input.perform c (.request .idle)).after s = (enterIdle c).after s := after_done _ s
  rw [stepSwitches, hperform, (active_enterIdle hs).2]
  exact List.append_nil _

theorem refresh_enterIdle (s : State σ) : ((enterIdle c).after s).refresh = { s.refresh with
    scheduled := (((Input.request .idle).switches c s).getLast?.map (·.timing)).or
      s.refresh.scheduled } := by
  rw [after_enterIdle, Input.switches]
  cases s.refresh.idle with
  | none => rfl
  | some j =>
    dsimp only
    split
    · obtain ⟨g, h⟩ := talks_performSwitch (c := c) j { s with refresh.scheduled := some j }
      rw [h]
      rfl
    · rfl

/-- After a step the timing of its last switch is the one scheduled, or that from before, and a panel
with a current timing still has one. -/
theorem scheduled_step {s : State σ} (hs : s.refresh.jobs = []) (i : Input) :
    (step c s i).refresh.scheduled =
        ((stepSwitches c s i).getLast?.map (·.timing)).or s.refresh.scheduled ∧
      (s.refresh.current.isSome → (step c s i).refresh.current.isSome) := by
  have hsettled : Unmoved ((i.perform c).after s) (step c s i) := by
    rw [step_eq]
    exact (unmoved_oblivious (c := c)).ensues.settle _
  rw [hsettled.scheduled, hsettled.current]
  by_cases hi : i = .request .idle
  · subst hi
    have hperform : (Input.perform c (.request .idle)).after s = (enterIdle c).after s := after_done _ s
    rw [stepSwitches_idle hs, hperform, refresh_enterIdle]
    exact ⟨rfl, id⟩
  · have hcourse := (unmoved_oblivious (c := c)).course (course_perform i s)
    rw [stepSwitches, switches_of_ne_idle hi]
    generalize (i.perform c).after s = t at hcourse ⊢
    obtain h | h := hcourse
    · have hnone : .switch ∉ t.refresh.jobs := fun hj => by
        have hwaits := h.jobs hj
        rw [hs] at hwaits
        cases hwaits
      rw [jobSwitches_of_not_mem hnone, h.current]
      exact ⟨h.scheduled, id⟩
    · cases h with
      | idle hj => exact absurd rfl hi
      | @schedule _ j current hc hj =>
        have hasked : ({ s with refresh.current := current } : State σ).refresh.jobs = [] := hs
        rw [after_queueSwitch, drain_of_none hasked]
        refine ⟨rfl, fun hsome => ?_⟩
        obtain rfl | rfl := hc
        · exact hsome
        · rfl

/-- The timing scheduled last is that of the last switch of the run. -/
theorem scheduled_run {s : State σ} (hs : s.refresh.jobs = []) (is : List Input) :
    (run c s is).refresh.scheduled =
        ((runSwitches c s is).getLast?.map (·.timing)).or s.refresh.scheduled ∧
      (s.refresh.current.isSome → (run c s is).refresh.current.isSome) := by
  induction is generalizing s with
  | nil => exact ⟨rfl, id⟩
  | cons i is ih =>
    obtain ⟨hscheduled, hcurrent⟩ := scheduled_step (c := c) hs i
    obtain ⟨hrun, hlast⟩ := ih (jobs_step (c := c) s i)
    refine ⟨?_, hlast ∘ hcurrent⟩
    rw [run_cons, hrun, hscheduled, runSwitches, List.getLast?_append]
    cases (runSwitches c (step c s i) is).getLast? <;> simp

/-! ### Switches of jobs -/

omit [Transport σ] in
theorem pulses_frame (n : Nat) (s : State σ) : (pulses n s).host = s.host ∧
    (pulses n s).display.events = s.display.events := by
  induction n generalizing s with
  | zero => exact ⟨rfl, rfl⟩
  | succ n ih => exact ih (pulse s)

/-- The job of a switch sends what the switch sends and reports it once. -/
theorem runSwitch_frame {s : State σ} {i : Nat} (hi : s.refresh.scheduled = some i) :
    let t := (runSwitch c).after s
    t.host = ((performSwitch c i).after s.listening).host ∧
      t.display.events = s.display.events.push (.changed .state) := by
  intro t
  have ht : t = (runSwitch c).after s := rfl
  rw [runSwitch, Action.after_get_bind, hi] at ht
  dsimp only at ht
  by_cases hlistens : 0 < s.refresh.listenCount
  · rw [if_pos hlistens, Action.after_modify_bind, (succeeds_performSwitch i).after_bind,
      Action.after_modify_bind, notify, Action.after_modify_bind, if_pos hlistens,
      Action.after_modify_bind, Action.after_modify] at ht
    rw [State.listening, if_pos hlistens, ht]
    obtain ⟨g, hg⟩ := talks_performSwitch (c := c) i
      { s with display := s.display.listen listener }
    rw [hg]
    exact pulses_frame _ _
  · rw [if_neg hlistens, (succeeds_performSwitch i).after_bind, Action.after_modify_bind, notify,
      Action.after_modify_bind, if_neg hlistens] at ht
    rw [State.listening, if_neg hlistens, ht]
    obtain ⟨g, hg⟩ := talks_performSwitch (c := c) i s
    rw [hg]
    exact ⟨rfl, rfl⟩

/-! ### Waking up -/

/-- The timing is scheduled and its switch waits. -/
def State.awaiting (s : State σ) (i : Nat) : State σ :=
  { s with refresh.scheduled := some i, refresh.switching := true, refresh.jobs := [.switch] }

/-- Waking up goes by the timing scheduled last, not by the one in force. -/
theorem after_leaveIdle {s : State σ} (hs : s.refresh.jobs = []) {i : Nat}
    (hi : s.refresh.current = some i) :
    (leaveIdle c).after s = if s.refresh.scheduled = some i then s else s.awaiting i := by
  rw [leaveIdle, Action.after_get_bind, hi]
  by_cases hsame : s.refresh.scheduled = some i
  · rw [if_pos hsame]
    dsimp only
    rw [if_neg (by simp [hsame])]
    rfl
  · rw [if_neg hsame]
    dsimp only
    rw [if_pos (Ne.symm hsame), after_queueSwitch, drain_of_none hs]
    rfl

theorem stepSwitches_wakeup {s : State σ} (hs : s.refresh.jobs = []) {i : Nat}
    (hi : s.refresh.current = some i) : stepSwitches c s (.request .wakeup) =
      if s.refresh.scheduled = some i then [] else [s.switch c i] := by
  have hperform : (Input.perform c (.request .wakeup)).after s = (leaveIdle c).after s := after_done _ s
  have hitself : (Input.request .wakeup).switches c s = [] := rfl
  rw [stepSwitches, hperform, after_leaveIdle hs hi, hitself]
  split
  · rw [hs]
    rfl
  · rfl

/-- A switch out of the current timing and one back, or none. -/
theorem runSwitches_idle_wakeup {s : State σ} (hs : s.refresh.jobs = []) {i : Nat}
    (hi : s.refresh.current = some i) (hscheduled : s.refresh.scheduled = some i) :
    let u := step c s (.request .idle)
    let switches := runSwitches c s [.request .idle, .request .wakeup]
    switches = [] ∨ ∃ j, j ≠ i ∧ switches = [s.switch c j, u.switch c i] := by
  intro u switches
  have hsettled : Unmoved ((Input.perform c (.request .idle)).after s) u := by
    rw [show u = step c s (.request .idle) from rfl, step_eq]
    exact (unmoved_oblivious (c := c)).ensues.settle _
  have hperform : (Input.perform c (.request .idle)).after s = (enterIdle c).after s := after_done _ s
  have hcurrent : u.refresh.current = some i := by
    rw [hsettled.current, hperform, refresh_enterIdle]
    exact hi
  have hback := stepSwitches_wakeup (c := c) (jobs_step s (.request .idle)) hcurrent
  rw [(scheduled_step hs (.request .idle)).1, stepSwitches_idle hs, hscheduled] at hback
  have hswitches : switches = (Input.request .idle).switches c s ++
      stepSwitches c u (.request .wakeup) := by
    rw [← stepSwitches_idle hs]
    exact congrArg _ (List.append_nil _)
  rw [hswitches, hback, Input.switches]
  cases s.refresh.idle with
  | none => exact .inl (if_pos rfl)
  | some j =>
    dsimp only
    split
    · next hmoved =>
      have hj : j ≠ i := fun h => hmoved.1 (by rw [h, State.active, hscheduled, Option.some_or])
      refine .inr ⟨j, hj, ?_⟩
      have hleft : ¬(([s.switch c j].getLast?.map (·.timing)).or (some i) = some i) := by
        simpa [State.switch] using hj
      rw [if_neg hleft]
      rfl
    · exact .inl (if_pos rfl)

/-- The switch that waits is performed as from the state that it was asked for in. -/
theorem drain_awaiting (i : Nat) (s : State σ) :
    let t := (drain c).after (s.awaiting i)
    t.active = some i ∧ t.refresh.current = s.refresh.current ∧
      t.host = ((performSwitch c i).after s.listening).host ∧
      t.display.events = s.display.events.push (.changed .state) := by
  intro t
  have hunmoved : Unmoved (s.awaiting i) t := unmoved_tasks (tasks_drain _)
  have hscheduled : t.refresh.scheduled = some i := hunmoved.scheduled
  have hrun : t = (runSwitch c).after { s.awaiting i with refresh.jobs := [] } := drain_of_switch rfl
  obtain ⟨hhost, hevents⟩ :=
    runSwitch_frame (c := c) (s := { s.awaiting i with refresh.jobs := [] }) (i := i) rfl
  rw [← hrun] at hhost hevents
  have hlistening : ∃ r, ({ s.awaiting i with refresh.jobs := [] } : State σ).listening =
      { s.listening with refresh := r } := by
    by_cases hlistens : 0 < s.refresh.listenCount
    · exact ⟨_, (if_pos hlistens).trans (by rw [State.listening, if_pos hlistens]; rfl)⟩
    · exact ⟨_, (if_neg hlistens).trans (by rw [State.listening, if_neg hlistens]; rfl)⟩
  obtain ⟨r, hr⟩ := hlistening
  rw [hr, ((timeless_performSwitch i) s.listening r).2] at hhost
  refine ⟨?_, hunmoved.current, hhost, hevents⟩
  rw [State.active, hscheduled, Option.some_or]

/-- Whatever is asked of a panel with timings and whatever fails, waking up leaves the current timing
in force. If it is in force already by a switch of the run nothing is done, and idling before waking up
makes no switch of it or two. Otherwise the panel is switched into it by one job, which reports the
switch once; this is so where another timing is in force, and also where the current one is as no
switch has been performed. -/
theorem wakeup_by_last_switch (c : Config) (host : σ) (display : Display) (pwm : Option Pwm)
    (regulator : Option Regulator) (inputs : List Input) :
    let start := State.initial c host display pwm regulator
    let s := run c start inputs
    let switches := runSwitches c start inputs
    let asked := (Request.wakeup.perform c).after s
    let woken := (drain c).after asked
    let away := runSwitches c s [.request .idle, .request .wakeup]
    (c.timings ≠ [] → s.refresh.current.isSome) ∧
      ∀ i, s.refresh.current = some i →
        woken.active = some i ∧ woken.refresh.current = some i ∧
          (switches = [] → s.active = some i) ∧
          if s.active = some i ∧ switches ≠ [] then
            asked = s ∧ woken = s ∧ (away = [] ∨ ∃ j, j ≠ i ∧ away.map (·.timing) = [j, i])
          else asked.refresh.jobs = [.switch] ∧
            woken.host = ((performSwitch c i).after s.listening).host ∧
            woken.display.events = s.display.events.push (.changed .state) := by
  intro start s switches asked woken away
  have hjobs : s.refresh.jobs = [] := jobs_run rfl inputs
  obtain ⟨hlast, hcurrent⟩ := scheduled_run (c := c) (s := start) rfl inputs
  have hscheduled : s.refresh.scheduled = switches.getLast?.map (·.timing) :=
    hlast.trans (Option.or_none ..)
  refine ⟨fun hc => hcurrent ?_, fun i hi => ?_⟩
  · have hsome : start.refresh.current = if c.timings.isEmpty then none else some 0 := rfl
    rw [hsome, if_neg (by simpa using hc)]
    rfl
  have hunswitched (h : switches = []) : s.active = some i := by
    rw [State.active, hscheduled, h, hi]
    rfl
  have hasked : asked = if s.refresh.scheduled = some i then s else s.awaiting i :=
    (after_done (leaveIdle c) s).trans (after_leaveIdle hjobs hi)
  have hwoken : woken = (drain c).after asked := rfl
  by_cases hthere : s.refresh.scheduled = some i
  · have hactive := (scheduled_iff hscheduled).mp hthere
    rw [if_pos hthere] at hasked
    rw [hasked, drain_of_none hjobs] at hwoken
    rw [if_pos hactive, hwoken]
    refine ⟨hactive.1, hi, hunswitched, hasked, rfl, ?_⟩
    obtain h | ⟨j, hj, h⟩ := runSwitches_idle_wakeup (c := c) hjobs hi hthere
    · exact .inl h
    · exact .inr ⟨j, hj, congrArg (List.map (·.timing)) h⟩
  · rw [if_neg hthere] at hasked
    rw [hasked] at hwoken
    obtain ⟨hactive, hsame, hhost, hevents⟩ := drain_awaiting (c := c) i s
    rw [if_neg fun h => hthere ((scheduled_iff hscheduled).mpr h), hwoken]
    exact ⟨hactive, hsame.trans hi, hunswitched, congrArg (·.refresh.jobs) hasked, hhost, hevents⟩

/-- A panel asked for 90 Hz that idles at 60 Hz is switched back. -/
theorem wakeup_after_idling :
    let c := Bench.gammaPlain none
    let inputs := [.request .enable, .request (.setMode ⟨none, 90⟩),
      .request (.setIdleMode (some ⟨none, 60⟩)), .request .idle]
    let s := run c (State.initial c ({} : Bench.Host) {} none none) inputs
    let woken := (drain c).after ((Request.wakeup.perform c).after s)
    s.active = some 0 ∧ woken.active = some 1 ∧
      woken.display.events = s.display.events.push (.changed .state) := by
  intro c inputs s woken
  have hidle : s.active = some 0 := by decide +kernel
  obtain ⟨-, hwakes⟩ := wakeup_by_last_switch c ({} : Bench.Host) {} none none inputs
  obtain ⟨hactive, -, -, hswitched⟩ := hwakes 1 (by decide +kernel)
  rw [if_neg fun h => absurd (hidle.symm.trans h.1) (by decide)] at hswitched
  exact ⟨hidle, hactive, hswitched.2.2⟩

/-- A panel that was turned on and asked for nothing else is woken up. It is in its current timing, and
it is sent the command for that timing. -/
theorem wakeup_without_switch :
    let timing (rate : UInt32) (value : UInt8) : Timing :=
      ⟨1080, 2340, rate, { commands := [⟨.shortWriteParam, true, 0, [0x60, value]⟩] }⟩
    let node (rate value : UInt32) := Bench.withProperties (Bench.timingNode rate)
      [(Timing.keySwitch, .cells [0x15, 1, 0, 0, 0, 0, 2, 0x60, value])]
    let c := { Bench.plain none with timings := [timing 60 0, timing 90 1] }
    let start := State.initial c ({} : Bench.Host) {} none none
    let s := run c start [.request .enable]
    let t := step c s (.request .wakeup)
    (Config.ofNode (Bench.plainNode
        [{ name := Timing.nodeName, children := [node 60 0, node 90 1] }]) false).toOption = some c ∧
      s.active = s.refresh.current ∧ s.refresh.idle = none ∧
      stepSwitches c s (.request .wakeup) = [⟨0, true⟩] ∧
      t.host.log.toList.map (·.tx) = s.host.log.toList.map (·.tx) ++ [[0x60, 0]] ∧
      t.display.events = s.display.events.push (.changed .state) := by
  decide +kernel

end OledPanel.Panel
