import OledPanel.Proofs.Pace
import OledPanel.Proofs.Refusals

/-! The switches that requests ask for. Setting a mode and switching to one schedule it, waking up
schedules the current timing unless it was the last one scheduled, and idling switches at once unless
the timing for idling is in force. A text written to an attribute asks for no other switch than the
request it makes. What an input does by itself keeps the pace, sets the count of pulses, or schedules the
switch that is due. -/

namespace OledPanel.Panel

open OledPanel.Action (Within)
open Dsi (Transport)

variable {σ : Type}

/-! ### What a request asks for -/

/-- The request an input makes. A text written to an attribute makes the request that is read from it,
if one is. -/
def Input.made : Input → Option Request
  | .request (.write name text) =>
    (Attribute.ofName? name).bind fun a => (requested text.toList a).toOption
  | .request r => some r
  | _ => none

/-- The timing that a request has the panel switched to. -/
def Request.due (c : Config) (s : State σ) : Request → Option Nat
  | .setMode r => Timing.find? c.timings r
  | .switchTo r => if s.initialized then Timing.find? c.timings r else none
  | .idle => s.refresh.idle.filter fun i => some i ≠ s.active && s.initialized
  | .wakeup => s.refresh.current.filter fun i => some i ≠ s.refresh.scheduled
  | _ => none

/-- What a request sets the count of pulses to. -/
def Request.count? : Request → Option UInt32
  | .setPulses n => some n
  | _ => none

def Input.due (c : Config) (s : State σ) (i : Input) : Option Nat := i.made.bind (·.due c s)

def Input.count? (i : Input) : Option UInt32 := i.made.bind (·.count?)

/-- Setting a mode makes it the current timing. -/
def Request.retimed (s : State σ) (j : Nat) : Request → State σ
  | .setMode _ => { s with refresh.current := some j }
  | _ => s

/-- The state that the request made leaves, where no job waits: it keeps the pace, or sets the count of
pulses, or schedules the switch that is due. -/
inductive Paced (c : Config) (s : State σ) : Option Request → State σ → Prop
  | same {m : Option Request} {t : State σ} (h : SamePace s t)
    (hd : ∀ q, m = some q → q = .idle ∨ q.due c s = none) (hn : m.bind Request.count? = none) :
    Paced c s m t
  | sets (n : UInt32) : Paced c s (some (.setPulses n)) { s with refresh.pulses := n }
  | schedules {q : Request} {j : Nat} (hq : q ≠ .idle) (hj : q.due c s = some j)
    (hn : q.count? = none) : Paced c s (some q) ((q.retimed s j).awaiting j)

/-- No text makes a request to write. -/
theorem requested_ne_write (text : List Char) (a : Attribute) (name other : String) :
    requested text a ≠ .ok (.write name other) := by
  intro h
  have hmap {α : Type} {x : Except Error α} {f : α → Request}
      (hx : f <$> x = .ok (.write name other)) : ∃ v, f v = .write name other := by
    cases x with
    | error e => cases hx
    | ok v => exact ⟨v, Except.ok.inj hx⟩
  cases a with
  | brightness | alpmMode | hbmMode | hbmSvEnabled | alsTable | switchMode | teListenCount | teCounter =>
    obtain ⟨_, hv⟩ := hmap h
    cases hv
  | idleMode =>
    rw [requested] at h
    split at h
    · cases h
    · obtain ⟨_, hv⟩ := hmap h
      cases hv
  | gamma | actualBrightness | maxBrightness | state | lpMode => cases h

/-- The request that an input makes is no text to be written. -/
theorem made_ne_write {i : Input} {q : Request} (hq : i.made = some q) (name text : String) :
    q ≠ .write name text := by
  rintro rfl
  unfold Input.made at hq
  split at hq
  · next _ written =>
    obtain ⟨a, -, ha⟩ := Option.bind_eq_some_iff.mp hq
    cases hr : requested written.toList a with
    | error e =>
      rw [hr] at ha
      cases ha
    | ok q =>
      rw [hr] at ha
      cases ha
      exact requested_ne_write _ a name text hr
  · next r hr =>
    cases hq
    exact hr name text rfl
  · cases hq

theorem ne_pulse_of_made {i : Input} {q : Request} (hm : i.made = some q) : i ≠ .pulse := by
  rintro rfl
  cases hm

variable [Transport σ] {c : Config}

theorem Performs.after {s : State σ} {r : Except Error Request} {x : Action (State σ) Unit}
    (h : Performs c s r x) : x.after s = r.toOption.elim s fun q => (q.perform c).after s := by
  cases h with
  | request h =>
    rw [← after_done x s, Action.after, h, ← Action.after]
    rfl
  | error h =>
    obtain ⟨e, he⟩ := h
    rw [Action.after, he]
    rfl

/-- A text that is written leaves what the request it makes leaves, and without one everything. -/
theorem after_made (r : Request) (s : State σ) : (r.perform c).after s =
    (Input.request r).made.elim s fun q => (q.perform c).after s := by
  cases r with
  | write name text =>
    rw [after_write, storeNamed, attributeNamed, Input.made]
    cases Attribute.ofName? name with
    | none => rfl
    | some a => exact (performs_storeAttribute text.toList a s).after
  | _ => rfl

/-- What an input does by itself is what the request does that it makes. -/
theorem perform_of_made {i : Input} {q : Request} (hm : i.made = some q) (s : State σ) :
    (i.perform c).after s = (q.perform c).after s := by
  cases i with
  | request r =>
    change (r.perform c).after s = _
    rw [after_made, hm, Option.elim_some]
  | _ => cases hm

/-! ### Requests that keep the pace -/

theorem samePace_beforeFrame : Within SamePace (beforeFrame c : Action (State σ) Unit) := by
  intro s
  rw [beforeFrame, succeeds_drain.after_bind, Action.after_get_bind]
  refine IsTrans.trans _ _ _ (samePace_drain (c := c) s) ?_
  generalize (drain c).after s = t
  have hopen : SamePace t { t with backlight.gateOpen := true } := samePace_of_eq rfl rfl
  dsimp only
  split
  · rw [Action.after_set_bind]
    split
    · exact IsTrans.trans _ _ _ hopen (samePace_update _)
    · exact hopen
  · exact refl t

theorem samePace_enterLp1 : Within SamePace (enterLp1 c : Action (State σ) Unit) :=
  samePace_drain.bind fun _ => samePace_transition .lp1 _

theorem samePace_setLowPowerLevel (n : UInt32) :
    Within SamePace (setLowPowerLevel c n : Action (State σ) Unit) := by
  refine Within.get fun s => Within.ite (fun _ => Within.throw _) fun _ => ?_
  refine Within.ite (fun _ => Within.ite (fun _ => samePace_transition .on _) fun _ => Within.pure _) ?_
  refine fun _ => Within.ite (fun _ => Within.ite (fun _ => samePace_enterLp1) fun _ => Within.pure _) ?_
  exact fun _ => Within.ite (fun _ => samePace_transition .lp2 _) fun _ => Within.pure _

theorem samePace_disable : Within SamePace (disable c : Action (State σ) Unit) := by
  refine samePace_drain.bind fun _ => (samePace_earlyDpms .off).bind fun _ => ?_
  refine (samePace_onHost _).outcome.bind fun r => samePace_shutDown.bind fun _ => ?_
  exact (samePace_lateDpms .off).bind fun _ => Within.ofExcept r

theorem samePace_postEnable : Within SamePace (postEnable c : Action (State σ) Unit) := by
  refine samePace_drain.bind fun _ => Within.get fun s => Within.ite (fun _ => ?_) fun _ => Within.pure _
  exact fun t ht => ⟨fun h => ht (by simpa [enqueue] using h), rfl⟩

theorem samePace_setHbm (mode : HbmMode) : Within SamePace (setHbm c mode : Action (State σ) Unit) := by
  unfold setHbm
  split
  · exact Within.throw _
  · next h _ =>
    refine Within.get fun s => Within.ite (fun _ => ?_) fun _ => Within.pure _
    exact Within.ite (fun _ => Within.throw _) fun _ => samePace_changeHbm h mode

theorem samePace_dumpGamma : Within SamePace (dumpGamma c : Action (State σ) String) := by
  refine Within.get fun s => Within.ite (fun _ => Within.throw _) fun _ => ?_
  exact samePace_readGamma.bind fun _ => Within.get fun s => Within.pure _

/-- Idling performs its switch without listening. -/
theorem samePace_enterIdle : Within SamePace (enterIdle c : Action (State σ) Unit) := by
  intro s
  rw [after_enterIdle]
  split
  · exact refl s
  · next i _ =>
    split
    · obtain ⟨g, hg⟩ := talks_performSwitch (c := c) i { s with refresh.scheduled := some i }
      rw [hg]
      exact samePace_of_eq rfl rfl
    · exact refl s

/-! ### Scheduling -/

theorem schedule_eq {s : State σ} (hs : s.refresh.jobs = []) (j : Nat) :
    (queueSwitch c j).after s = s.awaiting j := by
  rw [after_queueSwitch, drain_of_none hs]
  rfl

theorem paced_setMode {s : State σ} (hs : s.refresh.jobs = []) (r : ModeRequest) :
    Paced c s (some (.setMode r)) ((setMode c r).after s) := by
  rw [setMode, findTiming]
  cases hj : Timing.find? c.timings r with
  | none => exact .same (refl s) (fun q hq => .inr (Option.some.inj hq ▸ hj)) rfl
  | some j =>
    have hasked : ((Request.setMode r).retimed s j).refresh.jobs = [] := hs
    change Paced c s _ ((queueSwitch c j).after ((Request.setMode r).retimed s j))
    rw [schedule_eq hasked]
    exact .schedules (by rintro ⟨⟩) hj rfl

theorem paced_switchTo {s : State σ} (hs : s.refresh.jobs = []) (r : ModeRequest) :
    Paced c s (some (.switchTo r)) ((switchTo c r).after s) := by
  rw [switchTo, Action.after_get_bind, findTiming]
  cases hi : s.initialized with
  | false =>
    have hd : Request.due c s (.switchTo r) = none := by rw [Request.due, hi]; rfl
    exact .same (refl s) (fun q hq => .inr (Option.some.inj hq ▸ hd)) rfl
  | true =>
    have hd : Request.due c s (.switchTo r) = Timing.find? c.timings r := by rw [Request.due, hi]; rfl
    cases hj : Timing.find? c.timings r with
    | none => exact .same (refl s) (fun q hq => .inr (Option.some.inj hq ▸ hd.trans hj)) rfl
    | some j =>
      change Paced c s _ ((queueSwitch c j).after s)
      rw [schedule_eq hs]
      exact .schedules (q := .switchTo r) (by rintro ⟨⟩) (hd.trans hj) rfl

theorem paced_leaveIdle {s : State σ} (hs : s.refresh.jobs = []) :
    Paced c s (some .wakeup) ((leaveIdle c).after s) := by
  cases hi : s.refresh.current with
  | none =>
    have hd : Request.due c s .wakeup = none := by rw [Request.due, hi]; rfl
    rw [leaveIdle, Action.after_get_bind, hi]
    exact .same (refl s) (fun q hq => .inr (Option.some.inj hq ▸ hd)) rfl
  | some i =>
    rw [after_leaveIdle hs hi]
    split
    · next hsame =>
      have hd : Request.due c s .wakeup = none := by
        rw [Request.due, hi, hsame]
        simp
      exact .same (refl s) (fun q hq => .inr (Option.some.inj hq ▸ hd)) rfl
    · next hother =>
      have hd : Request.due c s .wakeup = some i := by
        rw [Request.due, hi]
        simpa using Ne.symm hother
      exact .schedules (q := .wakeup) (by rintro ⟨⟩) hd rfl

/-! ### Inputs -/

omit [Transport σ] in
theorem Paced.of_same {s : State σ} {q : Request} {x : Action (State σ) Answer}
    (hx : Within SamePace x) (hd : q = .idle ∨ q.due c s = none) (hn : q.count? = none) :
    Paced c s (some q) (x.after s) :=
  .same (hx s) (fun _ hr => Option.some.inj hr ▸ hd) hn

theorem paced_request {s : State σ} (hs : s.refresh.jobs = []) {q : Request}
    (hq : ∀ name text, q ≠ .write name text) : Paced c s (some q) ((q.perform c).after s) := by
  cases q with
  | setBrightness b =>
    refine .of_same (within_done _ (Within.ite (fun _ => Within.throw _) fun _ => ?_)) (.inr rfl) rfl
    exact Within.bind (fun _ => samePace_of_eq rfl rfl) fun _ => samePace_update
  | update => exact .of_same (within_done _ samePace_update) (.inr rfl) rfl
  | setScale f g =>
    refine .of_same (within_done _ (Within.ite (fun _ => Within.throw _) fun _ => ?_)) (.inr rfl) rfl
    exact Within.bind (fun _ => samePace_of_eq rfl rfl) fun _ => samePace_update
  | handoff =>
    have hadopt : Within SamePace (Panel.handoff c : Action (State σ) UInt32) :=
      (samePace_onHost _).bind fun _ =>
        Within.bind (fun _ => samePace_of_eq rfl rfl) fun _ => Within.pure _
    exact .of_same (hadopt.bind fun _ => Within.pure _) (.inr rfl) rfl
  | earlyDpms d => exact .of_same (within_done _ (samePace_earlyDpms d)) (.inr rfl) rfl
  | lateDpms d => exact .of_same (within_done _ (samePace_lateDpms d)) (.inr rfl) rfl
  | setDpms d =>
    have hset : Within SamePace (Panel.setDpms c d : Action (State σ) Unit) :=
      (samePace_earlyDpms d).bind fun _ => samePace_lateDpms d
    exact .of_same (within_done _ hset) (.inr rfl) rfl
  | enable => exact .of_same (within_done _ samePace_enable) (.inr rfl) rfl
  | postEnable => exact .of_same (within_done _ samePace_postEnable) (.inr rfl) rfl
  | disable => exact .of_same (within_done _ samePace_disable) (.inr rfl) rfl
  | enterLp1 => exact .of_same (within_done _ samePace_enterLp1) (.inr rfl) rfl
  | enterLp2 => exact .of_same (within_done _ (samePace_transition .lp2 _)) (.inr rfl) rfl
  | leaveLp => exact .of_same (within_done _ (samePace_transition .on _)) (.inr rfl) rfl
  | setLowPowerLevel n => exact .of_same (within_done _ (samePace_setLowPowerLevel n)) (.inr rfl) rfl
  | setHbm mode => exact .of_same (within_done _ (samePace_setHbm mode)) (.inr rfl) rfl
  | enableSunlight on =>
    refine .of_same (within_done _ (Within.ite (fun _ => Within.throw _) fun _ => ?_)) (.inr rfl) rfl
    exact Within.get fun _ => Within.ite (fun _ => Within.throw _) fun _ _ => samePace_of_eq rfl rfl
  | updateIrc on => exact .of_same (within_done _ (samePace_updateIrc on)) (.inr rfl) rfl
  | setMode r => exact after_done (setMode c r) s ▸ paced_setMode hs r
  | switchTo r => exact after_done (switchTo c r) s ▸ paced_switchTo hs r
  | setIdleMode r =>
    refine .of_same (within_done _ ((Within.ofExcept _).bind fun _ => ?_)) (.inr rfl) rfl
    exact fun _ => samePace_of_eq rfl rfl
  | beforeFrame => exact .of_same (within_done _ samePace_beforeFrame) (.inr rfl) rfl
  | flush => exact .of_same (within_done _ samePace_drain) (.inr rfl) rfl
  | idle => exact .of_same (within_done _ samePace_enterIdle) (.inl rfl) rfl
  | wakeup => exact after_done (leaveIdle c) s ▸ paced_leaveIdle hs
  | setListenCount n => exact .of_same (within_done _ fun _ => samePace_of_eq rfl rfl) (.inr rfl) rfl
  | setPulses n => exact .sets n
  | dumpGamma => exact .of_same (samePace_dumpGamma.bind fun _ => Within.pure _) (.inr rfl) rfl
  | forgetGamma =>
    refine .of_same (within_done _ ?_) (.inr rfl) rfl
    unfold forgetGamma
    split
    · exact Within.throw _
    · exact fun _ => samePace_of_eq rfl rfl
  | setThresholds ts =>
    refine .of_same (within_done _ (Within.get fun s => ?_)) (.inr rfl) rfl
    split
    · exact Within.throw _
    · exact (Within.ofExcept _).bind fun _ _ => samePace_of_eq rfl rfl
  | read name =>
    have hshow : Within SamePace (showNamed c name : Action (State σ) String) :=
      within_showNamed samePace_dumpGamma name
    exact .of_same (hshow.bind fun _ => Within.pure _) (.inr rfl) rfl
  | write name text => exact absurd rfl (hq name text)

theorem paced_perform {s : State σ} (hs : s.refresh.jobs = []) {i : Input} (hi : i ≠ .pulse) :
    Paced c s i.made ((i.perform c).after s) := by
  have hnone {x : Action (State σ) Answer} (hx : Within SamePace x) : Paced c s none (x.after s) :=
    .same (hx s) (by rintro _ ⟨⟩) rfl
  cases i with
  | request r =>
    change Paced c s _ ((r.perform c).after s)
    rw [after_made]
    cases hm : (Input.request r).made with
    | none => exact .same (refl s) (by rintro _ ⟨⟩) rfl
    | some q => exact paced_request hs (made_ne_write hm)
  | pulse => exact absurd rfl hi
  | vblankError =>
    exact hnone (within_done _ (Within.get fun _ =>
      Within.ite (fun _ => samePace_countFrame false) fun _ => Within.pure _))
  | refuse on => exact hnone (within_done _ fun _ => samePace_of_eq rfl rfl)
  | burst n => exact hnone (within_done _ fun _ => samePace_of_eq rfl rfl)
  | regulatorFails on => exact hnone (within_done _ fun _ => samePace_of_eq rfl rfl)
  | pwmFails config enable => exact hnone (within_done _ fun _ => samePace_of_eq rfl rfl)

end OledPanel.Panel
