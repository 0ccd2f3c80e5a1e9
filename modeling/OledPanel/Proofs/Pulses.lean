import Mathlib.Data.List.Induction
import OledPanel.Proofs.DueSwitches

/-! The count of pulses. A panel listens from before a switch until the pulses that come once the switch
is reported have come, be they fewer or more than it waits for or none. So between inputs it listens
never, and its count is what it was set to last and the pulses since that found it listening. -/

namespace OledPanel.Panel

open OledPanel.Action (Given Same Within)
open Dsi (Transport)

variable {σ : Type}

/-- The panel is among those who listen for pulses. -/
def State.Listens (s : State σ) : Prop := listener ∈ s.display.listeners

instance (s : State σ) : Decidable s.Listens := inferInstanceAs (Decidable (_ ∈ _))

/-! ### The pulses of a run -/

/-- The states in which so many pulses come one after the other. -/
def pulseStates : Nat → State σ → List (State σ)
  | 0, _ => []
  | n + 1, s => s :: pulseStates n (pulse s)

/-- The pulses of a list that find the panel listening. -/
def heard (us : List (State σ)) : Nat := us.countP (·.Listens)

section

variable [Transport σ]

/-- The state in which a switch has been performed and reported. -/
def State.reported (c : Config) (s : State σ) (i : Nat) : State σ :=
  let t := (performSwitch c i).after s.listening
  { t with refresh.switching := false, display := t.display.notify (.changed .state) }

/-- The states in which the pulses come that a job waits for. -/
def Job.pulsed (c : Config) (s : State σ) : Job → List (State σ)
  | .switch => match s.refresh.scheduled with
    | none => []
    | some i => if 0 < s.refresh.listenCount
      then pulseStates (s.reported c i).display.burst (s.reported c i) else []
  | .readGamma => []

def jobPulsed (c : Config) : List Job → State σ → List (State σ)
  | [], _ => []
  | j :: js, s => j.pulsed c s ++ jobPulsed c js ((j.run c).after s)

def Input.pulsed (s : State σ) : Input → List (State σ)
  | .pulse => [s]
  | _ => []

/-- The states in which the pulses of a step come. Where no job waits before the input, these are that of
the input by itself and those that the jobs wait for. -/
def stepPulsed (c : Config) (s : State σ) (i : Input) : List (State σ) :=
  let t := (i.perform c).after s
  i.pulsed s ++ jobPulsed c t.refresh.jobs { t with refresh.jobs := [] }

/-- The states in which the pulses of a run come, the oldest first. -/
def runPulsed (c : Config) : State σ → List Input → List (State σ)
  | _, [] => []
  | s, i :: is => stepPulsed c s i ++ runPulsed c (step c s i) is

end

theorem pulsed_of_ne {i : Input} (hi : i ≠ .pulse) (s : State σ) : i.pulsed s = [] := by
  cases i with
  | pulse => exact absurd rfl hi
  | _ => rfl

theorem heard_append (us vs : List (State σ)) : heard (us ++ vs) = heard us + heard vs :=
  List.countP_append

theorem length_pulseStates (n : Nat) (s : State σ) : (pulseStates n s).length = n := by
  induction n generalizing s with
  | zero => rfl
  | succ n ih => rw [pulseStates, List.length_cons, ih]

theorem heard_pulseStates {s : State σ} (hs : s.Listens) (n : Nat) : heard (pulseStates n s) = n := by
  induction n generalizing s with
  | zero => rfl
  | succ n ih =>
    have hrest : heard (pulseStates n (pulse s)) = n := ih (s := pulse s) hs
    rw [pulseStates, heard, List.countP_cons_of_pos (by simpa using hs), ← heard, hrest]

/-- Pulses are counted by a panel that listens once, and by none else. -/
theorem pace_pulses {s : State σ} (hs : s.display.listeners.count listener = 1) (n : Nat) :
    (pulses n s).pace = (s.refresh.switching, s.refresh.pulses + .ofNat n, s.display.listeners,
      s.display.fired + n) := by
  induction n generalizing s with
  | zero => simp [pulses, State.pace]
  | succ n ih =>
    have hcount : (pulse s).refresh.pulses = s.refresh.pulses + 1 := by
      change s.display.heard listener s.refresh.pulses = _
      rw [Display.heard, hs]
      rfl
    rw [pulses, ih (s := pulse s) hs, hcount, UInt32.add_assoc]
    have hsum : (1 : UInt32) + .ofNat n = .ofNat (n + 1) := by
      rw [Nat.add_comm, UInt32.ofNat_add]
      rfl
    rw [hsum]
    simp only [pulse, Display.fire, Nat.add_assoc, Nat.add_comm 1 n]

variable [Transport σ] {c : Config}

/-! ### Jobs -/

theorem runSwitch_eq {s : State σ} {i : Nat} (hi : s.refresh.scheduled = some i) :
    (runSwitch c).after s = if 0 < s.refresh.listenCount then
      let t := pulses (s.reported c i).display.burst (s.reported c i)
      { t with display := t.display.ignore listener }
    else s.reported c i := by
  rw [runSwitch, Action.after_get_bind, hi]
  dsimp only
  by_cases hlistens : 0 < s.refresh.listenCount
  · rw [if_pos hlistens, Action.after_modify_bind, (succeeds_performSwitch i).after_bind,
      Action.after_modify_bind, notify, Action.after_modify_bind, if_pos hlistens,
      Action.after_modify_bind, Action.after_modify, if_pos hlistens, State.reported, State.listening,
      if_pos hlistens]
  · rw [if_neg hlistens, (succeeds_performSwitch i).after_bind, Action.after_modify_bind, notify,
      Action.after_modify_bind, if_neg hlistens, if_neg hlistens, State.reported, State.listening,
      if_neg hlistens]
    rfl

theorem jobPulsed_of_free {js : List Job} (hjs : .switch ∉ js) (s : State σ) :
    jobPulsed c js s = [] := by
  induction js generalizing s with
  | nil => rfl
  | cons j js ih =>
    rw [List.mem_cons, not_or] at hjs
    cases j with
    | switch => exact absurd rfl hjs.1
    | readGamma => exact ih hjs.2 _

theorem reported_pace (i : Nat) (s : State σ) : (s.reported c i).pace =
    (false, s.refresh.pulses, s.listening.display.listeners, s.display.fired) := by
  obtain ⟨g, hg⟩ := talks_performSwitch (c := c) i s.listening
  have hkept : s.listening.refresh.pulses = s.refresh.pulses ∧
      s.listening.display.fired = s.display.fired := by
    unfold State.listening
    split <;> exact ⟨rfl, rfl⟩
  rw [State.reported, hg, ← hkept.1, ← hkept.2]
  rfl

/-- A switch is done with when its job is, whether the pulses it waits for come or not. -/
theorem pace_runSwitch {s : State σ} {i : Nat} (hi : s.refresh.scheduled = some i) (hs : ¬s.Listens) :
    let us := Job.pulsed c s .switch
    ((runSwitch c).after s).pace = (false, s.refresh.pulses + .ofNat (heard us),
      s.display.listeners, s.display.fired + us.length) := by
  intro us
  have hus : us = Job.pulsed c s .switch := rfl
  have hreported := reported_pace (c := c) i s
  rw [Job.pulsed, hi] at hus
  dsimp only at hus
  rw [runSwitch_eq hi]
  by_cases hlistens : 0 < s.refresh.listenCount
  · rw [State.listening, if_pos hlistens] at hreported
    rw [if_pos hlistens] at hus ⊢
    generalize s.reported c i = u at hus hreported ⊢
    obtain ⟨hswitching, hpulses, hlisteners, hfired⟩ :
        u.refresh.switching = false ∧ u.refresh.pulses = s.refresh.pulses ∧
          u.display.listeners = s.display.listeners ++ [listener] ∧
          u.display.fired = s.display.fired := by
      simpa [State.pace, Display.listen] using hreported
    have hone : u.display.listeners.count listener = 1 := by
      rw [hlisteners, List.count_append, List.count_eq_zero.mpr hs, List.count_singleton_self]
    have hu : u.Listens := List.count_pos_iff.mp (by omega)
    have hpace := pace_pulses hone u.display.burst
    generalize pulses u.display.burst u = t at hpace ⊢
    rw [hswitching, hpulses, hlisteners, hfired] at hpace
    simp only [State.pace, Prod.mk.injEq] at hpace
    obtain ⟨hswitching', hpulses', hlisteners', hfired'⟩ := hpace
    -- Nobody listened under this number before, so those who did are who is left.
    have hothers : ∀ l ∈ s.display.listeners, l ≠ listener := fun l hl h => by
      rw [h] at hl
      exact hs hl
    have hignored : (t.display.ignore listener).listeners = s.display.listeners := by
      rw [Display.ignore, hlisteners', List.filter_append,
        List.filter_eq_self.mpr fun l hl => by simpa using hothers l hl]
      simp
    rw [hus, heard_pulseStates hu, length_pulseStates, State.pace, hignored]
    simp only [hswitching', hpulses']
    exact congrArg (_, _, _, ·) hfired'
  · rw [if_neg hlistens] at hus ⊢
    rw [hreported, hus, State.listening, if_neg hlistens]
    simp [heard]

/-! ### Steps -/

/-- Between inputs no job waits, no switch is under way, and the panel does not listen. -/
structure AtRest (s : State σ) : Prop where
  jobs : s.refresh.jobs = []
  switching : s.refresh.switching = false
  deaf : ¬s.Listens

theorem samePace_countFrames (n : Nat) : Within SamePace (countFrames c n : Action (State σ) Unit) := by
  have hwait : Within SamePace (onDisplay Display.wait : Action (State σ) Unit) := fun s => by
    rw [onDisplay, Action.after_within]
    refine samePace_of_eq rfl ?_
    have hkept : (Display.wait.after s.display).listeners = s.display.listeners ∧
        (Display.wait.after s.display).fired = s.display.fired := by
      rw [Display.after_wait]
      split <;> exact ⟨rfl, rfl⟩
    simp only [State.pace, hkept]
  induction n with
  | zero => exact Within.pure _
  | succ n ih =>
    refine Within.get fun s => Within.ite (fun _ => ?_) fun _ => Within.pure _
    refine hwait.outcome.bind fun r => ?_
    cases r with
    | ok _ => exact (samePace_countFrame true).bind fun _ => ih
    | error e => exact Within.pure _

theorem samePace_settle : Within SamePace (settle c : Action (State σ) Unit) := fun s => by
  rw [settle_eq]
  exact IsTrans.trans _ _ _ (samePace_drain s) (samePace_countFrames _ _)

omit [Transport σ] in
theorem retimed_frame (q : Request) (s : State σ) (j : Nat) : (q.retimed s j).display = s.display ∧
    (q.retimed s j).refresh.pulses = s.refresh.pulses := by
  cases q <;> exact ⟨rfl, rfl⟩

/-- A pulse from outside is fired and not heard. -/
theorem pace_step_pulse {s : State σ} (hs : AtRest s) : stepPulsed c s .pulse = [s] ∧
    (step c s .pulse).pace =
      (false, s.refresh.pulses, s.display.listeners, s.display.fired + 1) := by
  have hperform : (Input.pulse.perform c).after s = pulse s := rfl
  have hfree : (pulse s).Free := free_of_none hs.jobs
  have hunheard : (pulse s).refresh.pulses = s.refresh.pulses := by
    change s.display.heard listener s.refresh.pulses = _
    rw [Display.heard, List.count_eq_zero.mpr hs.deaf]
    exact UInt32.add_zero _
  obtain ⟨-, hsettled⟩ := samePace_settle (c := c) (pulse s) hfree
  rw [stepPulsed, step_eq, hperform, jobPulsed_of_free hfree, hsettled, State.pace, hunheard,
    ← hs.switching]
  exact ⟨rfl, rfl⟩

/-- A switch that was scheduled is performed and reported while the panel listens. -/
theorem pace_settle_awaiting {s : State σ} (hs : ¬s.Listens) (j : Nat) :
    let us := jobPulsed c [.switch] { s.awaiting j with refresh.jobs := [] }
    ((settle c).after (s.awaiting j)).pace = (false, s.refresh.pulses + .ofNat (heard us),
      s.display.listeners, s.display.fired + us.length) := by
  intro us
  have hus : us = Job.pulsed c { s.awaiting j with refresh.jobs := [] } .switch := List.append_nil _
  have hpace := pace_runSwitch (c := c) (s := { s.awaiting j with refresh.jobs := [] }) (i := j) rfl hs
  have hjobs := (tasks_runSwitch (c := c) { s.awaiting j with refresh.jobs := [] }).jobs
  have hfree : ((runSwitch c).after { s.awaiting j with refresh.jobs := [] }).Free :=
    fun h => List.not_mem_nil (hjobs h)
  rw [settle_eq, drain_of_switch rfl, hus, (samePace_countFrames _ _ hfree).2]
  exact hpace

/-- What an input sets the count of pulses to is what its step leaves. Apart from that the count grows by
the pulses of the step that find the panel listening, and all pulses of the step are fired. -/
theorem pace_step {s : State σ} (hs : AtRest s) (i : Input) : (step c s i).pace =
    (false, i.count?.getD s.refresh.pulses + .ofNat (heard (stepPulsed c s i)),
      s.display.listeners, s.display.fired + (stepPulsed c s i).length) := by
  by_cases hi : i = .pulse
  · subst hi
    obtain ⟨hpulsed, hpace⟩ := pace_step_pulse (c := c) hs
    have hnone : heard [s] = 0 := by simp [heard, hs.deaf]
    rw [hpulsed, hpace, hnone]
    exact congrArg (false, ·, _, _) (UInt32.add_zero _).symm
  have hfree : s.Free := free_of_none hs.jobs
  have hpaced := paced_perform (c := c) hs.jobs hi
  rw [step_eq, stepPulsed, pulsed_of_ne hi, Input.count?]
  generalize i.made = m at hpaced ⊢
  generalize (i.perform c).after s = t at hpaced ⊢
  cases hpaced with
  | same h hd hn =>
    obtain ⟨ht, hpace⟩ := h hfree
    obtain ⟨-, hsettled⟩ := samePace_settle (c := c) t ht
    rw [jobPulsed_of_free ht, hn, hsettled, hpace, State.pace, hs.switching]
    simp [heard]
  | sets n =>
    obtain ⟨-, hsettled⟩ := samePace_settle (c := c) { s with refresh.pulses := n } hfree
    rw [jobPulsed_of_free hfree, hsettled]
    simp [heard, State.pace, hs.switching, Request.count?]
  | @schedules q j hq hj hn =>
    obtain ⟨hdisplay, hpulses⟩ := retimed_frame q s j
    have hdeaf : ¬(q.retimed s j).Listens := by
      rw [State.Listens, hdisplay]
      exact hs.deaf
    have hpace := pace_settle_awaiting (c := c) hdeaf j
    rw [hdisplay, hpulses] at hpace
    rw [Option.bind_some, hn]
    exact hpace

theorem atRest_step {s : State σ} (hs : AtRest s) (i : Input) : AtRest (step c s i) := by
  have hpace := pace_step (c := c) hs i
  simp only [State.pace, Prod.mk.injEq] at hpace
  obtain ⟨hswitching, -, hlisteners, -⟩ := hpace
  refine ⟨jobs_step s i, hswitching, ?_⟩
  rw [State.Listens, hlisteners]
  exact hs.deaf

/-! ### Runs -/

/-- A run leaves the panel at rest and those who listen as they were, and all its pulses are fired. -/
theorem atRest_run {s : State σ} (hs : AtRest s) (is : List Input) : AtRest (run c s is) ∧
    (run c s is).display.listeners = s.display.listeners ∧
    (run c s is).display.fired = s.display.fired + (runPulsed c s is).length := by
  induction is generalizing s with
  | nil => exact ⟨hs, rfl, rfl⟩
  | cons i is ih =>
    have hpace := pace_step (c := c) hs i
    simp only [State.pace, Prod.mk.injEq] at hpace
    obtain ⟨-, -, hlisteners, hfired⟩ := hpace
    obtain ⟨hrest, hsame, hall⟩ := ih (atRest_step (c := c) hs i)
    rw [run_cons, runPulsed, List.length_append, ← Nat.add_assoc, ← hfired, ← hlisteners]
    exact ⟨hrest, hsame, hall⟩

/-- Unless the count is set, a run adds the pulses to it that find the panel listening. -/
theorem pulses_run {s : State σ} (hs : AtRest s) {is : List Input}
    (his : ∀ i ∈ is, i.count? = none) :
    (run c s is).refresh.pulses = s.refresh.pulses + .ofNat (heard (runPulsed c s is)) := by
  induction is generalizing s with
  | nil => exact (UInt32.add_zero _).symm
  | cons i is ih =>
    obtain ⟨hi, his⟩ := List.forall_mem_cons.mp his
    have hpace := pace_step (c := c) hs i
    simp only [State.pace, Prod.mk.injEq, hi, Option.getD_none] at hpace
    obtain ⟨-, hpulses, -, -⟩ := hpace
    rw [run_cons, runPulsed, heard_append, ih (atRest_step hs i) his, hpulses, UInt32.add_assoc,
      UInt32.ofNat_add]

/-- No pulse comes in a step that sets the count. -/
theorem stepPulsed_of_count {s : State σ} (hs : AtRest s) {i : Input} {n : UInt32}
    (hn : i.count? = some n) : stepPulsed c s i = [] := by
  obtain ⟨q, hm, hq⟩ := Option.bind_eq_some_iff.mp hn
  have hi : i ≠ .pulse := ne_pulse_of_made hm
  have hpaced := paced_perform (c := c) hs.jobs hi
  rw [hm] at hpaced
  rw [stepPulsed, pulsed_of_ne hi]
  generalize (i.perform c).after s = t at hpaced ⊢
  cases hpaced with
  | same h hd hnone => cases hnone.symm.trans hq
  | sets n => exact jobPulsed_of_free (free_of_none hs.jobs) _
  | schedules _ hj hnone => cases hnone.symm.trans hq

/-- The last of these inputs sets the count of pulses, or there are none and it is zero. -/
def LastCount (is : List Input) (n : UInt32) : Prop :=
  is = [] ∧ n = 0 ∨ ∃ ks i, is = ks ++ [i] ∧ i.count? = some n

theorem exists_lastCount (inputs : List Input) :
    ∃ is js n, inputs = is ++ js ∧ LastCount is n ∧ ∀ j ∈ js, j.count? = none := by
  induction inputs using List.reverseRecOn with
  | nil => exact ⟨[], [], 0, rfl, .inl ⟨rfl, rfl⟩, nofun⟩
  | append_singleton inputs i ih =>
    obtain ⟨is, js, n, rfl, hn, hjs⟩ := ih
    cases hi : i.count? with
    | some m => exact ⟨is ++ js ++ [i], [], m, by simp, .inr ⟨is ++ js, i, rfl, hi⟩, nofun⟩
    | none =>
      refine ⟨is, js ++ [i], n, List.append_assoc .., hn, fun j hj => ?_⟩
      obtain hj | hj := List.mem_append.mp hj
      · exact hjs j hj
      · exact List.mem_singleton.mp hj ▸ hi

/-- The count is what it was set to last and the pulses since that found the panel listening. -/
theorem pulses_since_set {s : State σ} (hs : AtRest s) (hzero : s.refresh.pulses = 0)
    {is js : List Input} {n : UInt32} (hn : LastCount is n) (hjs : ∀ j ∈ js, j.count? = none) :
    (run c s (is ++ js)).refresh.pulses = n + .ofNat (heard (runPulsed c (run c s is) js)) := by
  have hset : (run c s is).refresh.pulses = n := by
    obtain ⟨rfl, rfl⟩ | ⟨ks, i, rfl, hi⟩ := hn
    · exact hzero
    · have hks : AtRest (run c s ks) := (atRest_run hs ks).1
      have hpace := pace_step (c := c) hks i
      rw [stepPulsed_of_count hks hi, hi] at hpace
      simp only [State.pace, Prod.mk.injEq, Option.getD_some] at hpace
      rw [run_append]
      exact hpace.2.1.trans (UInt32.add_zero n)
  rw [run_append, pulses_run (atRest_run hs is).1 hjs, hset]

end OledPanel.Panel
