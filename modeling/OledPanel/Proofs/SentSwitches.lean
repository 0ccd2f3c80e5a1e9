import OledPanel.Bench.Plain
import OledPanel.Proofs.Pulses
import OledPanel.Proofs.RangeEntry

/-! Switches as they are sent by a panel without gamma tables. A step that is due a switch begins by
sending the commands of that timing, once and whole unless one fails. What else it does it would do as
well if the timings had no commands. So the messages of a run are the commands of the switches that are
due, in order, each followed by what the panel sends without them. -/

namespace OledPanel.Panel

open OledPanel.Action (Same Within)
open Dsi (Message Recorder Transport)

variable {σ : Type}

/-- The panel without commands for its timings. -/
def Config.silent (c : Config) : Config :=
  { c with timings := c.timings.map fun t => { t with switch := {} } }

/-- The messages of a switch, none without one. -/
def Config.switchMessages (c : Config) (due : Option Nat) : List Message :=
  ((due.bind (c.timings[·]?)).map (·.switch.messages)).getD []

theorem find?_silent (c : Config) (r : ModeRequest) :
    Timing.find? c.silent.timings r = Timing.find? c.timings r := by
  rw [Timing.find?, Timing.find?, Config.silent, List.findIdx?_map]
  rfl

theorem due_silent (c : Config) (s : State σ) (q : Request) : q.due c.silent s = q.due c s := by
  cases q with
  | setMode r => exact find?_silent c r
  | switchTo r => rw [Request.due, Request.due, find?_silent]
  | _ => rfl

theorem switchMessages_silent (c : Config) (j : Nat) : c.silent.switchMessages (some j) = [] := by
  rw [Config.switchMessages, Option.bind_some, Config.silent, List.getElem?_map]
  cases c.timings[j]? <;> rfl

variable [Transport σ] {c : Config}

/-! ### Without commands for the timings -/

/-- The state in which the commands of the switch that is due have been sent. -/
def State.sent (c : Config) (s : State σ) (due : Option Nat) : State σ :=
  { s with host := (Dsi.CommandSet.sendAll (c.switchMessages due)).after s.host }

theorem after_sendTiming (j : Nat) (s : State σ) : (sendTiming c j).after s = s.sent c (some j) := by
  rw [sendTiming, State.sent, Config.switchMessages, Option.bind_some]
  cases c.timings[j]? with
  | none => rfl
  | some t => exact after_onHost _ s

theorem performSwitch_generic (hc : c.family = .generic) (j : Nat) (s : State σ) :
    (performSwitch c j).after s = s.sent c (some j) := by
  rw [performSwitch, hc]
  exact after_sendTiming j s

theorem performSwitch_silent (hc : c.family = .generic) (j : Nat) (s : State σ) :
    (performSwitch c.silent j).after s = s := by
  rw [performSwitch_generic (c := c.silent) hc, State.sent, switchMessages_silent]
  rfl

/-- Nothing but a switch is done by the jobs of a panel without gamma tables. -/
theorem drain_of_free (hc : c.family = .generic) {s : State σ} (hs : s.Free) :
    (drain c).after s = { s with refresh.jobs := [] } := by
  have hread : Within (Same id) (readGamma c : Action (State σ) Unit) := by
    rw [readGamma, hc]
    exact Within.throw _
  rw [drain, Action.after_get_bind, Action.after_set_bind]
  exact within_runJobs hread hs { s with refresh.jobs := [] }

theorem countFrame_silent (hc : c.family = .generic) (arrived : Bool) :
    (countFrame c.silent arrived : Action (State σ) Unit) = countFrame c arrived := by
  obtain ⟨backlight, hbm, timings, edges, sets, family, actuator⟩ := c
  obtain rfl : family = .generic := hc
  rfl

theorem countFrames_silent (hc : c.family = .generic) (n : Nat) :
    (countFrames c.silent n : Action (State σ) Unit) = countFrames c n := by
  induction n with
  | zero => rfl
  | succ n ih => rw [countFrames, countFrames, ih, countFrame_silent hc]

theorem settle_silent (hc : c.family = .generic) {s : State σ} (hs : s.Free) :
    (settle c.silent).after s = (settle c).after s := by
  rw [settle_eq, settle_eq, drain_of_free hc hs, drain_of_free (c := c.silent) hc hs,
    countFrames_silent hc]

theorem after_dumpGamma (hc : c.family = .generic) (s : State σ) : (dumpGamma c).after s = s := by
  cases hi : s.initialized with
  | false => rw [Action.after, dumpGamma_of_uninitialized hi]
  | true => rw [Action.after, dumpGamma_of_generic hi hc]

/-- Without gamma tables there is nothing that reading an attribute has to do first. -/
theorem after_read (hc : c.family = .generic) (name : String) (s : State σ) :
    ((Request.read name).perform c).after s = s := by
  have hdump : Within (Same id) (dumpGamma c : Action (State σ) String) := after_dumpGamma hc
  have hshow : Within (Same id) (showNamed c name : Action (State σ) String) :=
    within_showNamed hdump name
  exact (hshow.bind fun _ => Within.pure _) s

/-! ### Where no switch is due -/

theorem setMode_of_not_due {s : State σ} {r : ModeRequest}
    (hd : Request.due c s (.setMode r) = none) : (setMode c r).after s = s := by
  rw [setMode, findTiming, show Timing.find? c.timings r = none from hd]
  rfl

theorem switchTo_of_not_due {s : State σ} {r : ModeRequest}
    (hd : Request.due c s (.switchTo r) = none) : (switchTo c r).after s = s := by
  rw [Request.due] at hd
  rw [switchTo, Action.after_get_bind]
  cases hi : s.initialized with
  | false => rfl
  | true =>
    rw [hi] at hd
    rw [findTiming, show Timing.find? c.timings r = none from hd]
    rfl

theorem enterIdle_of_not_due {s : State σ} (hd : Request.due c s .idle = none) :
    (enterIdle c).after s = s := by
  rw [Request.due] at hd
  rw [after_enterIdle]
  cases hj : s.refresh.idle with
  | none => rfl
  | some j =>
    rw [hj] at hd
    exact if_neg (by simpa using hd)

theorem leaveIdle_of_not_due {s : State σ} (hs : s.refresh.jobs = [])
    (hd : Request.due c s .wakeup = none) : (leaveIdle c).after s = s := by
  rw [Request.due] at hd
  cases hj : s.refresh.current with
  | none =>
    rw [leaveIdle, Action.after_get_bind, hj]
    rfl
  | some j =>
    rw [hj] at hd
    rw [after_leaveIdle hs hj]
    exact if_pos (Eq.symm (by simpa using hd))

theorem update_silent (hc : c.family = .generic) :
    (update c.silent : Action (State σ) Unit) = update c := by
  obtain ⟨backlight, hbm, timings, edges, sets, family, actuator⟩ := c
  obtain rfl : family = .generic := hc
  rfl

theorem transition_silent (hc : c.family = .generic) (d : Dpms) (set : Dsi.CommandSet) :
    (transition c.silent d set : Action (State σ) Unit) = transition c d set := by
  have hlate : (lateDpms c.silent d : Action (State σ) Unit) = lateDpms c d := by
    rw [lateDpms, lateDpms, update_silent hc]
  rw [transition, transition, hlate]

theorem enterLp1_silent (hc : c.family = .generic) {s : State σ} (hs : s.refresh.jobs = []) :
    (enterLp1 c.silent).after s = (enterLp1 c).after s := by
  rw [enterLp1, enterLp1, succeeds_drain.after_bind, succeeds_drain.after_bind, drain_of_none hs,
    drain_of_none hs, transition_silent hc]
  rfl

theorem setLowPowerLevel_silent (hc : c.family = .generic) {s : State σ} (hs : s.refresh.jobs = [])
    (n : UInt32) : (setLowPowerLevel c.silent n).after s = (setLowPowerLevel c n).after s := by
  have hleave : (leaveLp c.silent : Action (State σ) Unit) = leaveLp c :=
    transition_silent hc .on c.sets.nolp
  have hlp2 : (enterLp2 c.silent : Action (State σ) Unit) = enterLp2 c :=
    transition_silent hc .lp2 c.sets.lp2
  rw [setLowPowerLevel, setLowPowerLevel, Action.after_get_bind, Action.after_get_bind, hleave, hlp2]
  dsimp only
  split
  · rw [Action.after_throw_bind, Action.after_throw_bind]
  · split
    · rfl
    · split
      · split
        · exact enterLp1_silent hc hs
        · rfl
      · rfl

/-- Where no switch is due, what a request does by itself has nothing to do with commands for timings. -/
theorem perform_silent (hc : c.family = .generic) {s : State σ} (hs : s.refresh.jobs = []) {q : Request}
    (hq : ∀ name text, q ≠ .write name text) (hd : q.due c s = none) :
    (q.perform c.silent).after s = (q.perform c).after s := by
  have hd' : q.due c.silent s = none := (due_silent c s q).trans hd
  have hdone {x y : Action (State σ) Unit} (h : x.after s = y.after s) :
      (done x).after s = (done y).after s := by rw [after_done, after_done, h]
  have hdrain : (drain c.silent).after s = (drain c).after s := by
    rw [drain_of_none hs, drain_of_none hs]
  cases q with
  | write name text => exact absurd rfl (hq name text)
  | setMode r => exact hdone ((setMode_of_not_due hd').trans (setMode_of_not_due hd).symm)
  | switchTo r => exact hdone ((switchTo_of_not_due hd').trans (switchTo_of_not_due hd).symm)
  | idle => exact hdone ((enterIdle_of_not_due hd').trans (enterIdle_of_not_due hd).symm)
  | wakeup => exact hdone ((leaveIdle_of_not_due hs hd').trans (leaveIdle_of_not_due hs hd).symm)
  | setIdleMode r =>
    have hfind : findTiming c.silent = findTiming c := by
      funext r
      rw [findTiming, findTiming, find?_silent]
    rw [Request.perform, Request.perform, setIdleMode, setIdleMode, hfind]
  | read name => rw [after_read hc, after_read (c := c.silent) hc]
  | flush => exact hdone hdrain
  | postEnable =>
    refine hdone ?_
    rw [postEnable, postEnable, succeeds_drain.after_bind, succeeds_drain.after_bind, hdrain]
    rfl
  | enterLp1 => exact hdone (enterLp1_silent hc hs)
  | setLowPowerLevel n => exact hdone (setLowPowerLevel_silent hc hs n)
  | beforeFrame =>
    refine hdone ?_
    rw [beforeFrame, beforeFrame, succeeds_drain.after_bind, succeeds_drain.after_bind, hdrain,
      update_silent hc]
  | disable =>
    refine hdone ?_
    rw [disable_eq, disable_eq, hdrain]
    generalize (drain c).after s = t
    obtain ⟨backlight, hbm, timings, edges, sets, family, actuator⟩ := c
    obtain rfl : family = .generic := hc
    rfl
  | _ =>
    -- With the family known, what does not look at the timings is the same by computation.
    obtain ⟨backlight, hbm, timings, edges, sets, family, actuator⟩ := c
    obtain rfl : family = .generic := hc
    rfl

/-! ### Steps -/

/-- The switch that waits is sent before anything else. -/
theorem runSwitch_silent (hc : c.family = .generic) {s : State σ} {j : Nat}
    (hj : s.refresh.scheduled = some j) :
    (runSwitch c).after s = (runSwitch c.silent).after (s.sent c (some j)) := by
  have hlistening : (s.sent c (some j)).listening = s.listening.sent c (some j) := by
    rw [State.listening, State.listening]
    by_cases hlistens : 0 < s.refresh.listenCount
    · rw [if_pos hlistens]
      exact if_pos hlistens
    · rw [if_neg hlistens]
      exact if_neg hlistens
  have hreported : (s.sent c (some j)).reported c.silent j = s.reported c j := by
    rw [State.reported, State.reported, performSwitch_silent hc, performSwitch_generic hc, hlistening]
  rw [runSwitch_eq hj, runSwitch_eq (s := s.sent c (some j)) hj, hreported]
  rfl

theorem settle_awaiting (hc : c.family = .generic) (s : State σ) (j : Nat) :
    (settle c).after (s.awaiting j) = (settle c.silent).after ((s.sent c (some j)).awaiting j) := by
  rw [settle_eq, settle_eq, drain_of_switch rfl, drain_of_switch rfl, countFrames_silent hc,
    runSwitch_silent hc (s := { s.awaiting j with refresh.jobs := [] }) rfl]
  rfl

/-- Unless it idles at once, a request schedules the switch that is due and does nothing else. -/
theorem perform_of_due {s : State σ} (hs : s.refresh.jobs = []) {i : Input} {q : Request} {j : Nat}
    (hm : i.made = some q) (hq : q ≠ .idle) (hj : q.due c s = some j) :
    (i.perform c).after s = (q.retimed s j).awaiting j := by
  have hpaced := paced_perform (c := c) hs (ne_pulse_of_made hm)
  rw [hm] at hpaced
  generalize (i.perform c).after s = t at hpaced ⊢
  cases hpaced with
  | same h hd hn => exact absurd ((hd q rfl).resolve_left hq) (by simp [hj])
  | sets n => cases hj
  | schedules hq' hj' hn => cases hj.symm.trans hj'; rfl

theorem step_of_idle (hc : c.family = .generic) {s : State σ} (hs : s.refresh.jobs = []) {i : Input}
    {j : Nat} (hm : i.made = some .idle) (hj : Request.due c s .idle = some j) :
    step c s i = step c.silent (s.sent c (some j)) i := by
  obtain ⟨hidle, hmoves⟩ := Option.filter_eq_some_iff.mp hj
  have hmoves : some j ≠ s.active ∧ s.initialized := by simpa using hmoves
  have hperform (c' : Config) (u : State σ) : (i.perform c').after u = (enterIdle c').after u :=
    (perform_of_made hm u).trans (after_done _ u)
  have hhere : (enterIdle c).after s = State.sent c { s with refresh.scheduled := some j } (some j) := by
    rw [after_enterIdle, hidle]
    exact (if_pos hmoves).trans (performSwitch_generic hc j _)
  have hthere : (enterIdle c.silent).after (s.sent c (some j)) =
      { s.sent c (some j) with refresh.scheduled := some j } := by
    rw [after_enterIdle, show (s.sent c (some j)).refresh.idle = some j from hidle]
    exact (if_pos hmoves).trans (performSwitch_silent hc j _)
  -- Here the timing is scheduled before its commands are sent, there after; the host does not see it.
  have hfree : (State.sent c { s with refresh.scheduled := some j } (some j)).Free := free_of_none hs
  rw [step_eq, step_eq, hperform, hperform, hhere, hthere]
  exact (settle_silent hc hfree).symm

theorem free_of_not_due {s : State σ} (hs : s.refresh.jobs = []) {i : Input} (hd : i.due c s = none) :
    ((i.perform c).after s).Free := by
  have hfree : s.Free := free_of_none hs
  by_cases hi : i = .pulse
  · subst hi
    exact hfree
  have hpaced := paced_perform (c := c) hs hi
  rw [Input.due] at hd
  generalize i.made = m at hpaced hd
  generalize (i.perform c).after s = t at hpaced ⊢
  cases hpaced with
  | same h _ _ => exact (h hfree).1
  | sets n => exact hfree
  | schedules hq hj hn => cases hj.symm.trans hd

theorem step_of_not_due (hc : c.family = .generic) {s : State σ} (hs : s.refresh.jobs = []) {i : Input}
    (hd : i.due c s = none) : step c s i = step c.silent s i := by
  have hperform : (i.perform c.silent).after s = (i.perform c).after s := by
    cases i with
    | request r =>
      change (r.perform c.silent).after s = (r.perform c).after s
      rw [after_made, after_made]
      cases hm : (Input.request r).made with
      | none => rw [Option.elim_none, Option.elim_none]
      | some q =>
        rw [Input.due, hm] at hd
        exact perform_silent hc hs (made_ne_write hm) hd
    | vblankError =>
      rw [Input.perform, Input.perform, failWait, failWait, countFrame_silent hc]
    | _ => rfl
  rw [step_eq, step_eq, hperform, settle_silent hc (free_of_not_due hs hd)]

/-- A step sends the switch that is due and goes on as if the timings had no commands. -/
theorem step_silent (hc : c.family = .generic) {s : State σ} (hs : s.refresh.jobs = []) (i : Input) :
    step c s i = step c.silent (s.sent c (i.due c s)) i := by
  cases hd : i.due c s with
  | none => exact step_of_not_due hc hs hd
  | some j =>
    obtain ⟨q, hm, hj⟩ := Option.bind_eq_some_iff.mp hd
    by_cases hq : q = .idle
    · subst hq
      exact step_of_idle hc hs hm hj
    · have hthere : q.due c.silent (s.sent c (some j)) = some j := by
        rw [due_silent]
        cases q <;> exact hj
      have hretimed : (q.retimed s j).sent c (some j) = q.retimed (s.sent c (some j)) j := by
        cases q <;> rfl
      rw [step_eq, step_eq, perform_of_due hs hm hq hj,
        perform_of_due (s := s.sent c (some j)) hs hm hq hthere, settle_awaiting hc, hretimed]

/-! ### Which switches are due -/

/-- The timing that an input switches the panel to: that of a request which is granted, that for idling
if it comes into force, and the current one if waking up leaves its switch to be done. -/
def Input.switched (c : Config) (s : State σ) (i : Input) : Option Nat :=
  match i.made with
  | some (.setMode r) => if ((setMode c r).answer s).isOk then Timing.find? c.timings r else none
  | some (.switchTo r) => if ((switchTo c r).answer s).isOk then Timing.find? c.timings r else none
  | some .idle => if (step c s i).active ≠ s.active then s.refresh.idle else none
  | some .wakeup =>
    if .switch ∈ ((leaveIdle c).after s).refresh.jobs then s.refresh.current else none
  | _ => none

theorem isOk_queueSwitch (j : Nat) (s : State σ) : ((queueSwitch c j).answer s).isOk = true := by
  have hsucceeds : Action.Succeeds (queueSwitch c j : Action (State σ) Unit) :=
    succeeds_drain.bind fun _ => (Action.Succeeds.modify _).bind fun _ => Action.Succeeds.modify _
  obtain ⟨_, hanswer⟩ := hsucceeds s
  rw [hanswer]
  rfl

theorem isOk_setMode (r : ModeRequest) (s : State σ) :
    ((setMode c r).answer s).isOk = (Timing.find? c.timings r).isSome := by
  rw [setMode, findTiming]
  cases Timing.find? c.timings r with
  | none => rfl
  | some j => exact isOk_queueSwitch j { s with refresh.current := some j }

theorem isOk_switchTo (r : ModeRequest) (s : State σ) :
    ((switchTo c r).answer s).isOk = (s.initialized && (Timing.find? c.timings r).isSome) := by
  rw [switchTo, Action.answer_get_bind, findTiming]
  cases s.initialized with
  | false => rfl
  | true =>
    cases Timing.find? c.timings r with
    | none => rfl
    | some j => exact isOk_queueSwitch j s

/-- Waking up leaves a switch to be done where one is due. -/
theorem switch_mem_leaveIdle {s : State σ} (hs : s.refresh.jobs = []) {j : Nat}
    (hj : s.refresh.current = some j) :
    .switch ∈ ((leaveIdle c).after s).refresh.jobs ↔ some j ≠ s.refresh.scheduled := by
  rw [after_leaveIdle hs hj]
  split
  · next hsame => simp [hs, hsame]
  · next hother => simpa [State.awaiting] using Ne.symm hother

/-- Idling puts the timing for idling in force where a switch is due. -/
theorem active_idle_ne {s : State σ} {i : Input} {j : Nat} (hm : i.made = some .idle)
    (hj : s.refresh.idle = some j) :
    (step c s i).active ≠ s.active ↔ some j ≠ s.active ∧ s.initialized = true := by
  have hactive : (step c s i).active = ((enterIdle c).after s).active := by
    rw [step_eq, active_settle, perform_of_made hm, Request.perform, after_done]
  rw [hactive, after_enterIdle, hj]
  dsimp only
  split
  · next hmoves =>
    have hforce : ((performSwitch c j).after { s with refresh.scheduled := some j }).active = some j :=
      (tasks_performSwitch (s := { s with refresh.scheduled := some j }) rfl).active
    rw [hforce]
    exact iff_of_true hmoves.1 hmoves
  · next hstays => exact iff_of_false (fun h => h rfl) hstays

/-- What is due is what an input switches the panel to. -/
theorem switched_eq_due {s : State σ} (hs : s.refresh.jobs = []) (i : Input) :
    i.switched c s = i.due c s := by
  rw [Input.switched, Input.due]
  cases hm : i.made with
  | none => rfl
  | some q =>
    rw [Option.bind_some]
    cases q with
    | setMode r =>
      dsimp only [Request.due]
      rw [isOk_setMode]
      cases Timing.find? c.timings r <;> rfl
    | switchTo r =>
      dsimp only [Request.due]
      rw [isOk_switchTo]
      cases s.initialized <;> cases Timing.find? c.timings r <;> rfl
    | idle =>
      dsimp only [Request.due]
      cases hj : s.refresh.idle with
      | none => exact ite_self none
      | some j =>
        rw [Option.filter_some]
        exact if_congr (by rw [active_idle_ne hm hj]; simp) rfl rfl
    | wakeup =>
      dsimp only [Request.due]
      cases hj : s.refresh.current with
      | none => exact ite_self none
      | some j =>
        rw [Option.filter_some]
        exact if_congr (by rw [switch_mem_leaveIdle hs hj]; simp) rfl rfl
    | _ => rfl

/-! ### What is recorded -/

/-- The messages of a step: those of the switch, if there is one, and those that the step would send if
the timings had no commands. -/
structure Portion where
  timing : Option Nat
  others : List Message

def Portion.messages (c : Config) (p : Portion) : List Message := c.switchMessages p.timing ++ p.others

def stepPortion (c : Config) (s : State (Recorder σ)) (i : Input) : Portion :=
  let t := s.sent c (i.switched c s)
  { timing := i.switched c s
    others := ((step c.silent t i).host.record.drop t.host.record.length).map (·.message) }

/-- The messages of a run by its steps, the oldest first. -/
def portions (c : Config) : State (Recorder σ) → List Input → List Portion
  | _, [] => []
  | s, i :: is => stepPortion c s i :: portions c (step c s i) is

theorem record_step (hc : c.family = .generic) {s : State (Recorder σ)} (hl : s.gamma.Laid)
    (hs : s.refresh.jobs = []) (i : Input) :
    ∃ es, (step c s i).host.record = s.host.record ++ es ∧
      ((∀ e ∈ es, e.Taken) → es.map (·.message) = (stepPortion c s i).messages c) := by
  have hstep : step c s i = step c.silent (s.sent c (i.switched c s)) i := by
    rw [switched_eq_due hs]
    exact step_silent hc hs i
  obtain ⟨rest, hrest, -⟩ := Recorder.record_of_sends
    (rated_step (c := c.silent) (s := s.sent c (i.switched c s)) hl hs i)
  obtain ⟨sent, hsent, hattempt⟩ := Dsi.attempt_sendAll (c.switchMessages (i.switched c s)) s.host
  refine ⟨sent ++ rest, ?_, fun htaken => ?_⟩
  · rw [hstep, hrest, ← List.append_assoc, ← hsent]
    rfl
  · have hswitch := hattempt.eq_of_taken fun e he => htaken e (List.mem_append_left _ he)
    rw [List.map_append, hswitch, Portion.messages, stepPortion, hrest, List.drop_left]

theorem record_run (hc : c.family = .generic) {s : State (Recorder σ)} (hl : s.gamma.Laid)
    (hs : s.refresh.jobs = []) (is : List Input) :
    ∃ es, (run c s is).host.record = s.host.record ++ es ∧
      ((∀ e ∈ es, e.Taken) → es.map (·.message) = (portions c s is).flatMap (·.messages c)) := by
  induction is generalizing s with
  | nil => exact ⟨[], (List.append_nil _).symm, fun _ => rfl⟩
  | cons i is ih =>
    have hlaid : (step c s i).gamma.Laid := laid_run hl [i]
    obtain ⟨es, hes, hmessages⟩ := record_step hc hl hs i
    obtain ⟨fs, hfs, hrest⟩ := ih hlaid (jobs_step s i)
    refine ⟨es ++ fs, ?_, fun htaken => ?_⟩
    · rw [run_cons, hfs, hes, List.append_assoc]
    · rw [List.map_append, hmessages fun e he => htaken e (List.mem_append_left _ he),
        hrest fun e he => htaken e (List.mem_append_right _ he), portions, List.flatMap_cons]

/-- Whatever is asked of a panel and whatever fails, between inputs no switch is under way and the panel
does not listen for pulses. Without gamma tables, and as long as no transfer fails, each input sends the
commands of the switch it makes, once, and then what it would send if the timings had no commands. The
count of pulses is what it was set to last, zero to begin with, and the pulses since that came while the
panel listened to a switch, be they as many as it waits for, more, or too few. -/
theorem switches_once_in_order (c : Config) (host : σ) (display : Display) (pwm : Option Pwm)
    (regulator : Option Regulator) (inputs : List Input) (hd : listener ∉ display.listeners) :
    let start := State.initial c ({ host } : Recorder σ) display pwm regulator
    let s := run c start inputs
    s.refresh.switching = false ∧ s.display.listeners = display.listeners ∧
      s.display.fired = display.fired + (runPulsed c start inputs).length ∧
      (c.family = .generic → (∀ e ∈ s.host.record, e.Taken) →
        s.host.record.map (·.message) = (portions c start inputs).flatMap (·.messages c)) ∧
      ∃ is js n, inputs = is ++ js ∧ LastCount is n ∧ (∀ j ∈ js, j.count? = none) ∧
        s.refresh.pulses.toNat = (n.toNat + heard (runPulsed c (run c start is) js)) % 2 ^ 32 := by
  intro start s
  have hstart : AtRest start := ⟨rfl, rfl, hd⟩
  obtain ⟨hrest, hlisteners, hfired⟩ := atRest_run (c := c) hstart inputs
  refine ⟨hrest.switching, hlisteners, hfired, fun hc htaken => ?_, ?_⟩
  · have hlaid : start.gamma.Laid := laid_initial c _ display pwm regulator
    obtain ⟨es, hes, hmessages⟩ := record_run hc hlaid rfl inputs
    have hall : s.host.record = es := hes
    rw [hall] at htaken ⊢
    exact hmessages htaken
  · obtain ⟨is, js, n, hinputs, hn, hjs⟩ := exists_lastCount inputs
    refine ⟨is, js, n, hinputs, hn, hjs, ?_⟩
    have hpulses := pulses_since_set (c := c) hstart rfl hn hjs
    rw [← hinputs] at hpulses
    rw [hpulses, UInt32.toNat_add, UInt32.toNat_ofNat', Nat.add_mod_mod]

/-- A panel that listens for three pulses is set to 90 Hz and gets five. It idles at 60 Hz, which is not
listened to, and is woken up with one pulse coming, after which there is nothing to wake up from. -/
theorem switches_of_idling_panel :
    let timing (rate : UInt32) (value : UInt8) : Timing :=
      ⟨1080, 2340, rate, { commands := [⟨.shortWriteParam, true, 0, [0x60, value]⟩] }⟩
    let c := { Bench.plain none with timings := [timing 60 0, timing 90 1] }
    let start := State.initial c ({ host := {} } : Recorder Bench.Host) {} none none
    let inputs := [.request .enable, .request (.setListenCount 3), .burst 5,
      .request (.setMode ⟨none, 90⟩), .pulse, .request (.setPulses 7), .burst 1,
      .request (.setIdleMode (some ⟨none, 60⟩)), .request .idle, .request .wakeup, .request .wakeup]
    let s := run c start inputs
    listener ∉ ({} : Display).listeners ∧
      (portions c start inputs).filterMap (·.timing) = [1, 0, 1] ∧
      s.host.record.map (·.message) = (portions c start inputs).flatMap (·.messages c) ∧
      s.display.fired = 7 ∧ s.refresh.pulses = 8 := by
  intro timing c start inputs s
  have hdeaf : listener ∉ ({} : Display).listeners := by decide
  obtain ⟨-, -, -, hsent, -⟩ := switches_once_in_order c ({} : Bench.Host) {} none none inputs hdeaf
  have hrun : run c (State.initial c { host := {} } {} none none) inputs = s := rfl
  have htaken : ∀ e ∈ s.host.record, e.Taken := by decide +kernel
  rw [hrun] at hsent
  exact ⟨hdeaf, by decide +kernel, hsent rfl htaken, by decide +kernel, by decide +kernel⟩

end OledPanel.Panel
