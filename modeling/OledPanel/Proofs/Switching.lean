import OledPanel.Panel.Switch
import OledPanel.Proofs.Chores

/-! Changes of the refresh rate and reading gamma tables are tasks: they send the commands of
timings and address the registers of the gamma tables, and touch nothing of the level, the
high-brightness mode and the vblank references. Scheduling a timing and idling also set which timing
is in force. -/

namespace OledPanel.Panel

open OledPanel.Action (Given Succeeds Within Yields)
open Dsi (Transport writeBuffer)

variable {σ : Type} [Transport σ] {c : Config}

/-! ### Switching -/

theorem tasks_sendTiming (i : Nat) : Within (Tasks c) (sendTiming c i : Action (State σ) Unit) := by
  unfold sendTiming
  split
  · exact Within.pure _
  · next t ht => exact tasks_send (.switch (List.mem_of_getElem? ht))

theorem tasks_sendTables {b : Gamma.Buffer} (ts : List (Gamma.Table × Nat))
    (hts : ∀ t ∈ ts, Gamma.tables[t.2]? = some t.1) (s : State σ) (hb : some b ∈ s.gamma.buffers) :
    Tasks c s ((sendTables b ts).after s) := by
  induction ts generalizing s with
  | nil => exact refl s
  | cons t ts ih =>
    obtain ⟨t, i⟩ := t
    rw [sendTables, Action.after_attempt_bind, after_onHost]
    have hsend := Dsi.within_writeBuffer (b.table i) (!t.grouped) (fun m hm => hm) s.host
    refine IsTrans.trans _ _ _ (tasks_of_sends hsend fun m hm => ?_) ?_
    · exact .replay hb (hts (t, i) (by simp)) hm
    · exact ih (fun u hu => hts u (by simp [hu])) _ hb

theorem tasks_replayGamma (i : Nat) : Within (Tasks c) (replayGamma i : Action (State σ) Unit) := by
  intro s
  rw [replayGamma, Action.after_get_bind]
  cases hb : s.buffer? i with
  | none => exact refl s
  | some b =>
    refine tasks_sendTables _ (fun t ht => ?_) s ?_
    · simpa using List.mem_zipIdx_iff_getElem?.mp ht
    · exact List.mem_of_getElem? (Option.join_eq_some_iff.mp hb)

omit [Transport σ] in
/-- A timing whose rate is not known counts as one of another rate than 90 Hz. -/
theorem controlValue_of_active {i : Nat} {s : State σ} (hi : s.active = some i) :
    controlValue c s ((c.rate? (some i)).getD 0) = s.control c := by
  rw [State.control, hi]
  cases c.rate? (some i) <;> simp [controlValue]

/-- A switch to the timing in force. -/
theorem tasks_performSwitch {i : Nat} {s : State σ} (hi : s.active = some i) :
    Tasks c s ((performSwitch c i).after s) := by
  have hgiven {α : Type} {x : Action (State σ) α} (hx : Within (Tasks c) x) :
      Within (Given (fun s => s.active = some i) (Tasks c)) x :=
    fun t ht => ⟨(hx t).active.trans ht, hx t⟩
  have hcontrol : Within (Given (fun s => s.active = some i) (Tasks c))
      (writeControl c ((c.rate? (some i)).getD 0) : Action (State σ) Unit) := by
    intro t ht
    have h := tasks_writeControl (controlValue_of_active (c := c) ht)
    exact ⟨h.active.trans ht, h⟩
  have hlock (tx : List UInt8) (htx : tx.headD 0 ∈ Gamma.registers) :
      Within (Given (fun s => s.active = some i) (Tasks c))
        (onHost (writeBuffer tx true) : Action (State σ) Unit) :=
    hgiven (tasks_reads (Gamma.within_write _ _ htx))
  have hperform : Within (Given (fun s => s.active = some i) (Tasks c))
      (performSwitch c i : Action (State σ) Unit) := by
    unfold performSwitch
    split
    · exact hgiven (tasks_sendTiming i).attempt
    · refine (hlock _ (by decide)).outcome.bind fun r => ?_
      split
      · exact Within.pure _
      · refine Within.bind ?_ fun _ => (hlock _ (by decide)).attempt
        refine (hgiven (tasks_sendTiming i)).attempt.bind fun _ => ?_
        exact hcontrol.attempt.bind fun _ => hgiven (tasks_replayGamma i)
  exact (hperform s hi).2

theorem succeeds_switchUnlocked (i : Nat) :
    Succeeds (switchUnlocked c i : Action (State σ) Unit) := by
  have htables (b : Gamma.Buffer) (ts : List (Gamma.Table × Nat)) :
      Succeeds (sendTables b ts : Action (State σ) Unit) := by
    induction ts with
    | nil => exact Succeeds.pure ()
    | cons t ts ih => exact (Succeeds.attempt _).bind fun _ => ih
  refine (Succeeds.attempt _).bind fun _ => (Succeeds.attempt _).bind fun _ => ?_
  refine Succeeds.get fun s => ?_
  cases s.buffer? i with
  | none => exact Succeeds.pure ()
  | some b => exact htables b _

theorem succeeds_performSwitch (i : Nat) : Succeeds (performSwitch c i : Action (State σ) Unit) := by
  unfold performSwitch
  split
  · exact Succeeds.attempt _
  · refine Succeeds.bind (fun s => ⟨_, Action.answer_outcome _ s⟩) fun r => ?_
    split
    · exact Succeeds.pure ()
    · exact (succeeds_switchUnlocked i).bind fun _ => Succeeds.attempt _

/-- A panel with gamma tables that does not unlock has the switch dropped. -/
theorem after_performSwitch (hc : c.family = .gamma) (i : Nat) (s : State σ) :
    (performSwitch c i).after s =
      let t := { s with host := (writeBuffer Gamma.unlock true).after s.host }
      if ((writeBuffer Gamma.unlock true).answer s.host).isOk then
        (onHost (writeBuffer Gamma.lock true)).after ((switchUnlocked c i).after t)
      else t := by
  rw [performSwitch, hc]
  dsimp only
  rw [Action.after_outcome_bind, answer_onHost, after_onHost]
  cases (writeBuffer Gamma.unlock true).answer s.host with
  | error e => rfl
  | ok u =>
    dsimp only
    rw [(succeeds_switchUnlocked i).after_bind]
    rfl

/-! ### Switching and the timings -/

/-- The action neither looks at the timings nor changes them. -/
def Timeless {α : Type} (x : Action (State σ) α) : Prop := ∀ (s : State σ) (r : Refresh),
  x.answer { s with refresh := r } = x.answer s ∧
    x.after { s with refresh := r } = { x.after s with refresh := r }

section

variable {α β : Type}

omit [Transport σ] in
theorem timeless_pure (a : α) : Timeless (pure a : Action (State σ) α) := fun _ _ => ⟨rfl, rfl⟩

omit [Transport σ] in
theorem timeless_onHost (x : Action σ α) : Timeless (onHost x : Action (State σ) α) := fun s r => by
  rw [answer_onHost, answer_onHost, after_onHost, after_onHost]
  exact ⟨rfl, rfl⟩

omit [Transport σ] in
theorem Timeless.attempt {x : Action (State σ) α} (hx : Timeless x) : Timeless x.attempt :=
  fun s r => ⟨rfl, (hx s r).2⟩

omit [Transport σ] in
theorem Timeless.outcome {x : Action (State σ) α} (hx : Timeless x) : Timeless x.outcome := by
  intro s r
  simp only [Action.answer_outcome, Action.after_outcome, (hx s r).1, (hx s r).2, and_self]

omit [Transport σ] in
theorem Timeless.bind {x : Action (State σ) α} {f : α → Action (State σ) β} (hx : Timeless x)
    (hf : ∀ a, Timeless (f a)) : Timeless (x >>= f) := by
  intro s r
  obtain ⟨hanswer, hafter⟩ := hx s r
  rw [Action.answer_bind, Action.answer_bind, Action.after_bind, Action.after_bind, hanswer, hafter]
  cases x.answer s with
  | ok a => exact hf a (x.after s) r
  | error e => exact ⟨rfl, rfl⟩

omit [Transport σ] in
theorem Timeless.get {f : State σ → Action (State σ) α} (hf : ∀ s, Timeless (f s))
    (h : ∀ (s : State σ) (r : Refresh), f { s with refresh := r } = f s) :
    Timeless (MonadState.get >>= f) := by
  intro s r
  rw [Action.answer_get_bind, Action.answer_get_bind, Action.after_get_bind, Action.after_get_bind, h]
  exact hf s s r

end

theorem timeless_sendTiming (i : Nat) : Timeless (sendTiming c i : Action (State σ) Unit) := by
  unfold sendTiming
  split
  · exact timeless_pure ()
  · exact timeless_onHost _

theorem timeless_switchUnlocked (i : Nat) :
    Timeless (switchUnlocked c i : Action (State σ) Unit) := by
  have htables (b : Gamma.Buffer) (ts : List (Gamma.Table × Nat)) :
      Timeless (sendTables b ts : Action (State σ) Unit) := by
    induction ts with
    | nil => exact timeless_pure ()
    | cons t ts ih => exact (timeless_onHost _).attempt.bind fun _ => ih
  have hreplay : Timeless (replayGamma i : Action (State σ) Unit) := by
    refine Timeless.get (fun s => ?_) fun s r => rfl
    cases s.buffer? i with
    | none => exact timeless_pure ()
    | some b => exact htables b _
  have hcontrol : Timeless (writeControl c ((c.rate? (some i)).getD 0) : Action (State σ) Unit) :=
    Timeless.get (fun s => timeless_onHost _) fun s r => rfl
  exact (timeless_sendTiming i).attempt.bind fun _ => hcontrol.attempt.bind fun _ => hreplay

/-- A switch is to the timing it is told, whatever the one in force. -/
theorem timeless_performSwitch (i : Nat) :
    Timeless (performSwitch c i : Action (State σ) Unit) := by
  unfold performSwitch
  split
  · exact (timeless_sendTiming i).attempt
  · refine (timeless_onHost _).outcome.bind fun r => ?_
    split
    · exact timeless_pure ()
    · exact (timeless_switchUnlocked i).bind fun _ => (timeless_onHost _).attempt

/-! ### Reading gamma tables -/

theorem within_readTiming (rate : UInt32) : Within (S := σ) Gamma.Reads (readTiming rate) := by
  unfold readTiming
  split
  · exact Gamma.within_readOtp
  · split
    · exact Gamma.within_readFlash
    · exact Within.throw _

theorem yields_readTiming (rate : UInt32) :
    Yields (S := σ) (Gamma.Laid Gamma.tables) (readTiming rate) := by
  unfold readTiming
  split
  · exact Gamma.yields_readOtp
  · split
    · exact Gamma.yields_readFlash
    · exact Yields.throw _

theorem laid_set {g : GammaState} (hg : g.Laid) {b : Gamma.Buffer} (hb : Gamma.Laid Gamma.tables b)
    (i : Nat) : GammaState.Laid { g with buffers := g.buffers.set i (some b) } := by
  intro a ha
  rcases List.mem_or_eq_of_mem_set ha with ha | ha
  · exact hg a ha
  · rwa [Option.some.inj ha]

theorem laid_mergeOtp {g : GammaState} (hg : g.Laid) :
    GammaState.Laid { g with buffers := mergeOtp c g.buffers } := by
  intro b hb
  simp only [mergeOtp] at hb
  split at hb
  · exact hg b hb
  · obtain ⟨i, hi, hb⟩ := List.mem_mapIdx.mp hb
    split at hb
    · obtain ⟨a, ha, rfl⟩ := Option.map_eq_some_iff.mp hb
      exact (hg a (ha ▸ List.getElem_mem hi)).merge
    · exact hg b (hb ▸ List.getElem_mem hi)

/-- Reading is a sequence of tasks while the tables are given up. They stay so until all are read. -/
abbrev Reading (c : Config) : State σ → State σ → Prop :=
  Given (fun s => s.gamma.ready = false) (Tasks c)

theorem reading_reads {α : Type} {x : Action σ α} (hx : Within Gamma.Reads x) :
    Within (Reading c) (onHost x : Action (State σ) α) := fun s hs => by
  have hreads := tasks_reads (c := c) hx s
  rw [after_onHost] at hreads ⊢
  exact ⟨hs, hreads⟩

theorem reading_readTimings (ts : List (Timing × Nat)) (hts : ∀ t ∈ ts, c.timings[t.2]? = some t.1) :
    Within (Reading c) (readTimings ts : Action (State σ) Unit) := by
  induction ts with
  | nil => exact Within.pure _
  | cons t ts ih =>
    refine (reading_reads (within_readTiming t.1.rate)).bind_of_answer fun s b hb => ?_
    rw [answer_onHost] at hb
    have hl : Gamma.Laid Gamma.tables b := yields_readTiming t.1.rate s.host b hb
    have hread := Action.eq_of_answer hb
    have hrest := ih fun u hu => hts u (by simp [hu])
    have hkeep (u : State σ) (hu : (readTiming t.1.rate).after s.host = u.host) :
        Reading c u { u with gamma.buffers := u.gamma.buffers.set t.2 (some b) } := by
      refine fun hs => ⟨hs, .single (.gamma u _ (fun hg => laid_set hg hl t.2) (fun hg => ?_) ?_)⟩
      · exact hg.grow (GammaState.grows_set _ t.2 b) rfl
      · exact .keep hs (hts t (by simp)) (hu ▸ hread)
    rw [Action.after_modify_bind, after_onHost]
    exact IsTrans.trans _ _ _ (hkeep _ rfl) (hrest _)

/-- The tables of all timings are there once reading them went well. -/
theorem has_readTimings (ts : List (Timing × Nat)) {s : State σ}
    (h : (readTimings ts).answer s = .ok ()) :
    s.gamma.Grows ((readTimings ts).after s).gamma ∧
      ∀ t ∈ ts, t.2 < s.gamma.buffers.length → ((readTimings ts).after s).gamma.Has t.2 := by
  induction ts generalizing s with
  | nil => exact ⟨⟨rfl, fun _ hi => hi⟩, by simp⟩
  | cons t ts ih =>
    rw [readTimings, Action.answer_bind, answer_onHost] at h
    rw [readTimings, Action.after_bind, answer_onHost]
    split at h
    · next b hb =>
      rw [Action.answer_modify_bind] at h
      rw [Action.after_modify_bind]
      obtain ⟨hgrows, hhas⟩ := ih h
      have hset := GammaState.grows_set s.gamma t.2 b
      rw [after_onHost] at hgrows hhas ⊢
      refine ⟨hset.trans hgrows, fun u hu hlt => ?_⟩
      obtain rfl | hu := List.mem_cons.mp hu
      · exact hgrows.has _ (s.gamma.has_set hlt b)
      · exact hhas u hu (by simpa using hlt)
    · cases h

/-- Reading all tables that goes well ends with merging them. -/
theorem after_readModes {s : State σ} {u : Unit} (h : (readTimings c.timings.zipIdx).answer s = .ok u) :
    (readModes c).answer s = .ok ⟨⟩ ∧ (readModes c).after s =
      { (readTimings c.timings.zipIdx).after s with
        gamma.buffers := mergeOtp c ((readTimings c.timings.zipIdx).after s).gamma.buffers } := by
  rw [readModes, Action.answer_bind, Action.after_bind, h]
  exact ⟨rfl, rfl⟩

theorem after_readModes_of_error {s : State σ} {e : Error}
    (h : (readTimings c.timings.zipIdx).answer s = .error e) :
    (readModes c).answer s = .error e ∧
      (readModes c).after s = (readTimings c.timings.zipIdx).after s := by
  rw [readModes, Action.answer_bind, Action.after_bind, h]
  exact ⟨rfl, rfl⟩

/-- Tables that are given up are read between unlocking and locking. -/
theorem tasks_readUnlocked {s : State σ} (hs : s.gamma.ready = false) :
    Tasks c s ((readUnlocked c).after s) := by
  have hkey (tx : List UInt8) (htx : tx.headD 0 ∈ Gamma.registers) (u : State σ) :
      Tasks c u { u with host := (writeBuffer tx true).after u.host } := by
    rw [← after_onHost]
    exact tasks_reads (Gamma.within_write tx true htx) u
  have hlock (r : Except Error Unit) : Within (Tasks c) (do
      onHost (writeBuffer Gamma.lock true)
      Action.ofExcept r : Action (State σ) Unit) := fun u => by
    rw [Action.after_bind_ofExcept, after_onHost]
    exact hkey _ (by decide) u
  have hunlock := hkey Gamma.unlock (by decide) s
  rw [readUnlocked, Action.after_bind, answer_onHost, after_onHost]
  split
  · have htimings (t) (ht : t ∈ c.timings.zipIdx) : c.timings[t.2]? = some t.1 :=
      List.mem_zipIdx_iff_getElem?.mp ht
    obtain ⟨hgiven, hread⟩ := reading_readTimings (c := c) _ htimings
      { s with host := (writeBuffer Gamma.unlock true).after s.host } hs
    generalize { s with host := (writeBuffer Gamma.unlock true).after s.host } = u at *
    refine IsTrans.trans _ _ _ (IsTrans.trans _ _ _ hunlock hread) ?_
    rw [Action.after_outcome_bind]
    cases hanswer : (readTimings c.timings.zipIdx).answer u with
    | error e =>
      obtain ⟨hfailed, hafter⟩ := after_readModes_of_error (c := c) hanswer
      rw [hfailed, hafter]
      exact hlock _ _
    | ok a =>
      obtain ⟨hdone, hafter⟩ := after_readModes (c := c) hanswer
      obtain ⟨hgrows, hhas⟩ := has_readTimings c.timings.zipIdx hanswer
      rw [hdone, hafter]
      generalize (readTimings c.timings.zipIdx).after u = v at *
      have hmerge := GammaState.grows_mergeOtp c v.gamma
      have hready : Task c v { v with gamma := ⟨mergeOtp c v.gamma.buffers, true⟩ } := by
        refine .gamma _ _ laid_mergeOtp (fun hg => ⟨hmerge.length.trans hg.length, fun _ i hi => ?_⟩)
          (.complete hgiven)
        refine hmerge.has i (hhas (c.timings[i], i) (by simp [List.mem_zipIdx_iff_getElem?]) ?_)
        rw [← hgrows.length, hg.length]
        exact hi
      exact IsTrans.trans _ _ _ (.single hready) (hlock _ _)
  · exact hunlock

/-- Tables that are there are not read. -/
theorem readGamma_of_ready (hc : c.family = .gamma) {s : State σ} (hs : s.gamma.ready = true) :
    Panel.readGamma c s = .ok ⟨⟩ s := by
  rw [Panel.readGamma, hc]
  show (if (!s.gamma.ready) = true then readUnlocked c else pure ()) s = _
  rw [hs]
  rfl

theorem readGamma_of_given_up (hc : c.family = .gamma) {s : State σ} (hs : s.gamma.ready = false) :
    Panel.readGamma c s = readUnlocked c s := by
  rw [Panel.readGamma, hc]
  show (if (!s.gamma.ready) = true then readUnlocked c else pure ()) s = _
  rw [hs]
  rfl

theorem tasks_readGamma : Within (Tasks c) (Panel.readGamma c : Action (State σ) Unit) := by
  unfold Panel.readGamma
  split
  · exact Within.throw _
  · intro s
    rw [Action.after_get_bind]
    cases hs : s.gamma.ready with
    | true => exact refl s
    | false => exact tasks_readUnlocked hs

/-! ### Jobs -/

/-- The switch that is scheduled is performed, between tasks. -/
theorem runSwitch_cases (s : State σ) :
    (s.refresh.scheduled = none ∧ (runSwitch c).after s = s) ∨
      ∃ i d, s.refresh.scheduled = some i ∧ Tasks c s { s with display := d } ∧
        Tasks c ((performSwitch c i).after { s with display := d }) ((runSwitch c).after s) := by
  rw [runSwitch, Action.after_get_bind]
  cases hi : s.refresh.scheduled with
  | none => exact .inl ⟨rfl, rfl⟩
  | some i =>
    have hdone := tasks_refresh (c := c) (σ := σ) (fun r => { r with switching := false })
      (fun _ => ⟨rfl, rfl, rfl⟩) fun _ => rfl
    have hheard : Within (Tasks c) (do
        modify fun s => pulses s.display.burst s
        modify fun s => { s with display := s.display.ignore listener } : Action (State σ) Unit) :=
      Within.bind (fun s => tasks_pulses _ s) fun _ =>
        tasks_display (f := (·.ignore listener)) fun _ => ⟨rfl, rfl, rfl⟩
    refine .inr ⟨i, ?_⟩
    dsimp only
    split
    · rw [Action.after_modify_bind, (succeeds_performSwitch i).after_bind]
      refine ⟨s.display.listen listener, rfl, .single (.display s _ rfl rfl rfl), ?_⟩
      exact (hdone.bind fun _ => (tasks_notify _).bind fun _ => hheard) _
    · rw [(succeeds_performSwitch i).after_bind]
      exact ⟨s.display, rfl, refl s,
        (hdone.bind fun _ => (tasks_notify _).bind fun _ => Within.pure _) _⟩

theorem tasks_runSwitch : Within (Tasks c) (runSwitch c : Action (State σ) Unit) := by
  intro s
  obtain ⟨-, h⟩ | ⟨i, d, hi, hd, hrest⟩ := runSwitch_cases (c := c) s
  · rw [h]
    exact refl s
  · have hactive : ({ s with display := d } : State σ).active = some i := by
      rw [State.active, hi, Option.some_or]
    exact IsTrans.trans _ _ _ hd (IsTrans.trans _ _ _ (tasks_performSwitch hactive) hrest)

theorem tasks_runJobs (js : List Job) :
    Within (Tasks c) (runJobs c js : Action (State σ) Unit) := by
  induction js with
  | nil => exact Within.pure _
  | cons j js ih =>
    have hj : Within (Tasks c) (j.run c : Action (State σ) Unit) := by
      cases j with
      | switch => exact tasks_runSwitch
      | readGamma => exact tasks_readGamma.attempt
    exact hj.attempt.bind fun _ => ih

theorem tasks_drain : Within (Tasks c) (drain c : Action (State σ) Unit) := by
  intro s
  rw [drain, Action.after_get_bind, Action.after_set_bind]
  have hjobs : Task c s { s with refresh.jobs := [] } :=
    .refresh s _ ⟨rfl, rfl, rfl⟩ (List.nil_subset _)
  exact IsTrans.trans _ _ _ (.single hjobs) (tasks_runJobs _ _)

theorem succeeds_drain : Succeeds (drain c : Action (State σ) Unit) := by
  have hjobs (js : List Job) : Succeeds (runJobs c js : Action (State σ) Unit) := by
    induction js with
    | nil => exact Succeeds.pure ()
    | cons j js ih => exact (Succeeds.attempt _).bind fun _ => ih
  exact Succeeds.get fun s => Succeeds.bind (fun _ => ⟨⟨⟩, rfl⟩) fun _ => hjobs _

theorem drain_of_none {s : State σ} (hs : s.refresh.jobs = []) : (drain c).after s = s := by
  have hsame : { s with refresh.jobs := [] } = s := by rw [← hs]
  rw [drain, Action.after_get_bind, Action.after_set_bind, hs]
  exact hsame

theorem drain_of_switch {s : State σ} (hs : s.refresh.jobs = [.switch]) :
    (drain c).after s = (runSwitch c).after { s with refresh.jobs := [] } := by
  rw [drain, Action.after_get_bind, Action.after_set_bind, hs]
  rfl

/-- No job waits once those that did are done. -/
theorem jobs_drain (s : State σ) : ((drain c).after s).refresh.jobs = [] := by
  rw [drain, Action.after_get_bind, Action.after_set_bind]
  exact List.subset_nil.mp (tasks_runJobs (c := c) s.refresh.jobs { s with refresh.jobs := [] }).jobs

theorem chores_drain : Within (Chores c) (drain c : Action (State σ) Unit) := chores_of_tasks tasks_drain

theorem quiet_queueGamma : Within (QuietErrands c) (queueGamma c : Action (State σ) Unit) :=
  Within.get fun _ => Within.ite (fun _ s => Errand.quiet (.enqueue s) rfl rfl rfl) fun _ => Within.pure _

/-! ### Scheduling and idling -/

/-- A timing is scheduled, and one job waits. -/
theorem after_queueSwitch (i : Nat) (s : State σ) : (queueSwitch c i).after s =
    { (drain c).after s with
      refresh.scheduled := some i
      refresh.switching := true
      refresh.jobs := [.switch] } := by
  rw [queueSwitch, succeeds_drain.after_bind, Action.after_modify_bind, enqueue, Action.after_modify]
  simp only [jobs_drain, List.nil_append]

/-- Idling performs its switch as that to the timing in force from then on. -/
theorem after_enterIdle (s : State σ) : (enterIdle c).after s = match s.refresh.idle with
    | none => s
    | some i => if some i ≠ s.active ∧ s.initialized then
        (performSwitch c i).after { s with refresh.scheduled := some i } else s := by
  rw [enterIdle, Action.after_get_bind]
  cases s.refresh.idle with
  | none => rfl
  | some i =>
    dsimp only
    split
    · have hframe := (timeless_performSwitch (c := c) i s { s.refresh with scheduled := some i }).2
      have hsame := (timeless_performSwitch (c := c) i s s.refresh).2
      have hrefresh : ((performSwitch c i).after s).refresh = s.refresh :=
        (congrArg State.refresh hsame :)
      rw [(succeeds_performSwitch i).after_bind, Action.after_modify, hframe, hrefresh]
    · rfl

end OledPanel.Panel
