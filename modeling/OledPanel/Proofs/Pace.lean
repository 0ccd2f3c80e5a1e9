import OledPanel.Proofs.Turns
import OledPanel.Proofs.Wakeup

/-! What has to do with pulses: a switch that is scheduled and not yet done, the pulses counted, those
who listen, and the pulses fired. Only a switch, a pulse from outside and setting the count concern
them. All else leaves them alone, and this is told operation by operation, as long as no switch waits
that a job or an operation that runs the jobs would perform. -/

namespace OledPanel.Panel

open OledPanel.Action (Given Same Within)
open Dsi (Transport)

variable {σ α : Type}

/-- A switch that is scheduled and not yet done, the pulses counted, those who listen, and the pulses
fired. -/
def State.pace (s : State σ) : Bool × UInt32 × List Nat × Nat :=
  (s.refresh.switching, s.refresh.pulses, s.display.listeners, s.display.fired)

/-- No switch waits to be performed. -/
def State.Free (s : State σ) : Prop := .switch ∉ s.refresh.jobs

theorem free_of_none {s : State σ} (hs : s.refresh.jobs = []) : s.Free := by
  rw [State.Free, hs]
  exact List.not_mem_nil

/-- As long as no switch waits, none will, and whatever has to do with pulses stays. -/
abbrev SamePace : State σ → State σ → Prop := Given State.Free (Same State.pace)

theorem samePace_of_eq {s t : State σ} (hj : t.refresh.jobs = s.refresh.jobs) (hp : t.pace = s.pace) :
    SamePace s t := fun hs => ⟨by rwa [State.Free, hj], hp⟩

theorem samePace_onHost (x : Action σ α) :
    Within SamePace (onHost x : Action (State σ) α) := fun s => by
  rw [after_onHost]
  exact samePace_of_eq rfl rfl

theorem samePace_notify (e : Event) : Within SamePace (notify e : Action (State σ) Unit) :=
  fun _ => samePace_of_eq rfl rfl

variable [Transport σ] {c : Config}

/-! ### High-brightness mode -/

theorem samePace_updateIrc (on : Bool) :
    Within SamePace (updateIrc c on : Action (State σ) Unit) := fun s => by
  obtain ⟨g, b, h⟩ := updateIrc_frame (c := c) on s
  rw [h]
  exact samePace_of_eq rfl rfl

omit [Transport σ] in
theorem samePace_startDimming (frames : Nat) (stop : Hbm.Stop) :
    Within SamePace (startDimming frames stop : Action (State σ) Unit) := fun s => by
  obtain ⟨h, -⟩ | ⟨-, h⟩ := startDimming_cases frames stop s
  · rw [h]
    exact refl s
  · rw [h]
    refine samePace_of_eq rfl ?_
    rw [State.pace, State.pace]
    dsimp only
    split <;> rfl

theorem samePace_stopDimming : Within SamePace (stopDimming c : Action (State σ) Unit) :=
  fun _ => related_stopDimming fun _ _ _ => samePace_of_eq rfl rfl

theorem samePace_countFrame (arrived : Bool) :
    Within SamePace (countFrame c arrived : Action (State σ) Unit) := fun s =>
  have hlast : SamePace s { s with hbm.dimming.left := 0 } := samePace_of_eq rfl rfl
  related_countFrame arrived (fun _ => IsTrans.trans _ _ _ hlast (samePace_stopDimming _))
    fun _ _ => samePace_of_eq rfl rfl

theorem samePace_enterRange (i : Nat) (r : Hbm.Range) :
    Within SamePace (enterRange c i r : Action (State σ) Unit) := fun s => by
  obtain ⟨g, h⟩ := enterRange_frame (c := c) i r s
  rw [h]
  exact IsTrans.trans _ _ _ (samePace_startDimming _ _ s) (samePace_of_eq rfl rfl)

theorem samePace_exitRanges (h : Hbm.Config) :
    Within SamePace (exitRanges c h : Action (State σ) Unit) := fun s => by
  obtain ⟨g, hg⟩ := exitRanges_frame (c := c) h s
  rw [hg]
  exact IsTrans.trans _ _ _ (samePace_startDimming _ _ s) (samePace_of_eq rfl rfl)

theorem samePace_followSunlight (previous mode : HbmMode) :
    Within SamePace (followSunlight c previous mode : Action (State σ) Unit) := fun s => by
  obtain ⟨g, b, o, h⟩ := followSunlight_frame (c := c) previous mode s
  rw [h]
  exact samePace_of_eq rfl rfl

/-! ### Levels -/

theorem samePace_actuate (level : UInt32) :
    Within SamePace (actuate c level : Action (State σ) Unit) := fun s => by
  obtain ⟨g, p, l, b, e, h, -⟩ := drives_actuate (c := c) level s
  rw [h]
  exact samePace_of_eq rfl rfl

omit [Transport σ] in
theorem samePace_observeAls (b : UInt32) : Within SamePace (observeAls b : Action (State σ) Unit) := by
  refine Within.get fun s => ?_
  split
  · exact Within.pure _
  · refine Within.bind (fun _ => samePace_of_eq rfl rfl) fun _ => ?_
    exact Within.ite (fun _ => samePace_notify _) fun _ => Within.pure _

theorem samePace_present (b level : UInt32) :
    Within SamePace (present c b level : Action (State σ) Unit) := by
  refine (samePace_actuate level).bind fun _ => Within.bind (fun _ => samePace_of_eq rfl rfl) fun _ => ?_
  exact Within.get fun s => Within.ite (fun _ => samePace_observeAls b) fun _ => Within.pure _

theorem samePace_commit (b level : UInt32) :
    Within SamePace (commit c b level : Action (State σ) (Option UInt32)) := by
  intro s
  have hrestart : SamePace s (restartDimming s) := by
    obtain ⟨m, hm⟩ := restartDimming_frame s
    rw [hm]
    exact samePace_of_eq rfl rfl
  have htrack (t : State σ) : SamePace t (track level t) := samePace_of_eq rfl rfl
  cases hg : s.backlight.gateOpen with
  | false =>
    rw [commit_of_shut hg]
    exact samePace_of_eq rfl rfl
  | true =>
  cases hi : s.initialized with
  | false =>
    rw [commit_of_unpowered hg hi]
    exact IsTrans.trans _ _ _ hrestart (htrack _)
  | true =>
  have hpresent := IsTrans.trans _ _ _ hrestart (samePace_present (c := c) b level _)
  rw [commit_of_live ⟨hi, hg⟩]
  split
  · exact IsTrans.trans _ _ _ hpresent (htrack _)
  · exact hpresent

theorem samePace_update : Within SamePace (update c : Action (State σ) Unit) := by
  have hlevel (b : UInt32) : Within SamePace (levelOf c b : Action (State σ) UInt32) :=
    within_levelOf (fun s _ i r _ _ _ _ => samePace_enterRange i r s) b
  have hupdate : Within SamePace (updateLevel c : Action (State σ) (Option UInt32)) := by
    refine Within.get fun s => (hlevel _).bind fun level => Within.get fun t => ?_
    exact Within.ite (fun _ => Within.pure _) fun _ => samePace_commit _ level
  refine hupdate.bind fun b => ?_
  cases b with
  | none => exact Within.pure _
  | some b => exact samePace_notify _

theorem samePace_changeHbm (h : Hbm.Config) (mode : HbmMode) :
    Within SamePace (changeHbm c h mode : Action (State σ) Unit) := fun s => by
  have hmode : SamePace s { s with hbm.mode := mode } := samePace_of_eq rfl rfl
  have hrest : Within SamePace (do update c; notify (.changed .hbmMode) : Action (State σ) Unit) :=
    samePace_update.bind fun _ => samePace_notify _
  rw [changeHbm_eq]
  refine IsTrans.trans _ _ _ ?_ (IsTrans.trans _ _ _ (samePace_followSunlight _ mode _) (hrest _))
  split
  · exact IsTrans.trans _ _ _ hmode (samePace_exitRanges h _)
  · exact hmode

/-! ### Power -/

theorem samePace_lateDpms (d : Dpms) :
    Within SamePace (lateDpms c d : Action (State σ) Unit) := fun s => by
  have henter : SamePace s ((enterDpms d).after s) := by
    rw [after_enterDpms]
    exact samePace_of_eq rfl rfl
  rw [lateDpms_eq]
  exact IsTrans.trans _ _ _ henter (IsTrans.trans _ _ _ (samePace_update _) (samePace_notify _ _))

omit [Transport σ] in
theorem samePace_earlyDpms (d : Dpms) :
    Within SamePace (earlyDpms d : Action (State σ) Unit) := fun s => by
  rw [after_earlyDpms]
  exact samePace_of_eq rfl rfl

theorem samePace_transition (d : Dpms) (set : Dsi.CommandSet) :
    Within SamePace (transition c d set : Action (State σ) Unit) := by
  refine (samePace_earlyDpms d).bind fun _ => (samePace_onHost _).outcome.bind fun r => ?_
  exact (samePace_lateDpms d).bind fun _ => Within.ofExcept r

theorem samePace_enable : Within SamePace (enable c : Action (State σ) Unit) := by
  refine (samePace_earlyDpms .on).bind fun _ => (samePace_onHost _).bind fun _ => ?_
  exact Within.bind (fun _ => samePace_of_eq rfl rfl) fun _ => samePace_lateDpms .on

theorem samePace_shutDown : Within SamePace (shutDown c : Action (State σ) Unit) := by
  refine Within.bind (fun _ => samePace_of_eq rfl rfl) fun _ => samePace_stopDimming.bind fun _ => ?_
  exact fun _ => samePace_of_eq rfl rfl

/-! ### Jobs -/

theorem samePace_readGamma : Within SamePace (readGamma c : Action (State σ) Unit) := by
  have htimings (ts : List (Timing × Nat)) :
      Within SamePace (readTimings ts : Action (State σ) Unit) := by
    induction ts with
    | nil => exact Within.pure _
    | cons t ts ih =>
      exact (samePace_onHost _).bind fun _ => Within.bind (fun _ => samePace_of_eq rfl rfl) fun _ => ih
  have hmodes : Within SamePace (readModes c : Action (State σ) Unit) :=
    (htimings _).bind fun _ _ => samePace_of_eq rfl rfl
  have hlock (r : Except Error Unit) : Within SamePace (do
      onHost (Dsi.writeBuffer Gamma.lock true)
      Action.ofExcept r : Action (State σ) Unit) := (samePace_onHost _).bind fun _ => Within.ofExcept r
  have hunlocked : Within SamePace (readUnlocked c : Action (State σ) Unit) := by
    refine (samePace_onHost _).bind fun _ => hmodes.outcome.bind fun r => ?_
    refine Within.ite (fun _ => Within.bind (fun _ => ?_) fun _ => hlock r) fun _ => hlock r
    exact samePace_of_eq rfl rfl
  unfold readGamma
  split
  · exact Within.throw _
  · exact Within.get fun s => Within.ite (fun _ => hunlocked) fun _ => Within.pure _

/-- Where no switch waits, reading the gamma tables is all that jobs do. -/
theorem within_runJobs {R : State σ → State σ → Prop} [IsPreorder (State σ) R]
    (hread : Within R (readGamma c : Action (State σ) Unit)) {js : List Job} (hjs : .switch ∉ js) :
    Within R (runJobs c js : Action (State σ) Unit) := by
  induction js with
  | nil => exact Within.pure _
  | cons j js ih =>
    obtain ⟨hj, hrest⟩ := not_or.mp (List.mem_cons.not.mp hjs)
    cases j with
    | switch => exact absurd rfl hj
    | readGamma => exact hread.attempt.attempt.bind fun _ => ih hrest

theorem samePace_drain : Within SamePace (drain c : Action (State σ) Unit) := by
  intro s hs
  rw [drain, Action.after_get_bind, Action.after_set_bind]
  exact within_runJobs samePace_readGamma hs { s with refresh.jobs := [] } List.not_mem_nil

end OledPanel.Panel
