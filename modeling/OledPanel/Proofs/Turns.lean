import Mathlib.Data.List.Induction
import OledPanel.Proofs.Courses
import OledPanel.Proofs.Updates

/-! What holds of every run. Four operations change the power-on state, the compensation bit or
the high-brightness mode; every other input, and all that follows from an input, consists of
chores, updates of the level and counted frames. So what holds of these and of the four
operations holds of every run. -/

namespace OledPanel.Panel

open OledPanel.Action (Within)
open Dsi (Transport)

variable {σ α : Type} [Transport σ]

/-- The relation holds of what may follow an input: chores and counted frames. -/
structure Settles (c : Config) (R : State σ → State σ → Prop) : Prop where
  chore : ∀ s t, Chore c s t → R s t
  count : ∀ arrived, Within R (countFrame c arrived)

/-- The relation holds of updates of the level as well. -/
structure Admits (c : Config) (R : State σ → State σ → Prop) : Prop extends Settles c R where
  update : Within R (update c)

/-- The operations apart from those that a relation admits, with the state they find. -/
inductive Turn (c : Config) (s : State σ) : Input → State σ → Prop
  | enable : Turn c s (.request .enable) ((enable c).after s)
  | disable : Turn c s (.request .disable) ((disable c).after s)
  | irc (on : Bool) : Turn c s (.request (.updateIrc on)) ((updateIrc c on).after s)
  | hbm {i : Input} {h : Hbm.Config} {mode : HbmMode} (hh : c.hbm = some h) (hm : mode ≠ s.hbm.mode)
    (hs : mode = .sunlight → s.hbm.sunlightEnabled = true) : Turn c s i ((changeHbm c h mode).after s)

variable {c : Config} {R : State σ → State σ → Prop} [IsPreorder (State σ) R]

theorem Settles.chores (hR : Settles c R) {x : Action (State σ) α} (hx : Within (Chores c) x) :
    Within R x := within_of_chores hR.chore hx

/-! ### Power -/

/-- The relation holds of what transitions of the power state are made of. -/
structure Transits (c : Config) (R : State σ → State σ → Prop) : Prop where
  task : ∀ s t, Task c s t → R s t
  early : ∀ d, Within R (earlyDpms d)
  enter : ∀ d, Within R (enterDpms d)
  update : Within R (update c)

theorem Admits.transits (hR : Admits c R) : Transits c R where
  task _ _ h := hR.chore _ _ h.chore
  early d := hR.chores (chores_earlyDpms d)
  enter d := hR.chores (chores_enterDpms d)
  update := hR.update

theorem within_lateDpms (hR : Transits c R) (d : Dpms) :
    Within R (lateDpms c d : Action (State σ) Unit) := by
  refine (hR.enter d).bind fun _ => hR.update.attempt.bind fun _ => ?_
  exact within_of_tasks hR.task (tasks_notify _)

theorem within_transition (hR : Transits c R) (d : Dpms) {set : Dsi.CommandSet} (hs : c.Has set) :
    Within R (transition c d set : Action (State σ) Unit) := by
  refine (hR.early d).bind fun _ => (within_of_tasks hR.task (tasks_send hs)).outcome.bind fun r => ?_
  exact (within_lateDpms hR d).bind fun _ => Within.ofExcept r

theorem within_enable (hR : Transits c R) (hp : ∀ s : State σ, R s (powered c s)) :
    Within R (enable c : Action (State σ) Unit) := by
  refine (hR.early .on).bind fun _ => (within_of_tasks hR.task (tasks_send .on)).bind fun _ => ?_
  exact Within.bind (fun s => hp s) fun _ => within_lateDpms hR .on

theorem within_disable (hR : Transits c R) (hs : Within R (shutDown c : Action (State σ) Unit)) :
    Within R (disable c : Action (State σ) Unit) := by
  refine (within_of_tasks hR.task tasks_drain).bind fun _ => (hR.early .off).bind fun _ => ?_
  refine (within_of_tasks hR.task (tasks_send .off)).outcome.bind fun r => hs.bind fun _ => ?_
  exact (within_lateDpms hR .off).bind fun _ => Within.ofExcept r

/-! ### Timings -/

/-- The relation holds of quiet errands, and of whatever the high-brightness mode, the power-on state
and the regulator change. It may look at the level and the power state. -/
structure Patient (c : Config) (R : State σ → State σ → Prop) : Prop
    extends Unaware c R where
  early : ∀ d, Within R (earlyDpms d)
  quiet : ∀ s t, QuietErrands c s t → R s t
  powered : ∀ s : State σ, R s (powered c s)
  unpowered : ∀ s : State σ, R s { s with initialized := false }
  regulator : ∀ (s : State σ) (r : Option Regulator), R s { s with regulator := r }

/-- What comes right before an update: the gate may open, or a new power state is entered. -/
inductive Readies (s : State σ) : State σ → Prop
  | gate (gate : Bool) (hg : s.backlight.gateOpen = true → gate = true) :
    Readies s { s with backlight.gateOpen := gate }
  | enters (d : Dpms) : Readies s ((enterDpms d).after s)

/-- What an input comes to by itself, told by a relation that does not look at updates: there is at
most one update, and nothing but tasks after it. -/
inductive Deed (c : Config) (R : State σ → State σ → Prop) (s : State σ) (i : Input) : State σ → Prop
  | admitted {t : State σ} (h : R s t) : Deed c R s i t
  | updates {u v t : State σ} (h : R s u) (hv : Readies u v) (ht : Tasks c ((update c).after v) t) :
    Deed c R s i t
  | sets {t : State σ} (h : Sets c s i t) : Deed c R s i t
  | opens {t : State σ} (h : R s t) (hh : t.backlight.held = false) :
    Deed c R s i { t with backlight.gateOpen := true }
  | retimes {t : State σ} (h : Retimes c s i t) : Deed c R s i t
  | pwm {config enable : Bool} (hi : i = .pwmFails config enable) : Deed c R s i
    { s with pwm := s.pwm.map fun p => { p with refusesConfig := config, refusesEnable := enable } }

theorem Patient.shutDown (hR : Patient c R) :
    Within R (shutDown c : Action (State σ) Unit) := by
  refine Within.bind (fun s => hR.unpowered s) fun _ => hR.stopDimming.bind fun _ s => ?_
  have hkeep := hR.keep s none s.hbm.ircOwed
  exact IsTrans.trans _ _ _ hkeep (hR.dims _ s.display s.hbm.dimming none)

omit [IsPreorder (State σ) R] in
theorem deed_lateDpms {s t : State σ} {i : Input} (h : R s t) (d : Dpms) :
    Deed c R s i ((lateDpms c d).after t) := by
  rw [lateDpms_eq]
  exact .updates h (.enters d) (tasks_notify _ _)

theorem Patient.deed (hR : Patient c R) {s t : State σ} {i : Input} (h : Course c s i t) :
    Deed c R s i t := by
  have hsend {set : Dsi.CommandSet} (hset : c.Has set) (u : State σ) :
      R u { u with host := set.send.after u.host } := by
    have hsent := within_of_tasks hR.task (tasks_send hset) u
    rwa [after_onHost] at hsent
  cases h with
  | errands h => exact .admitted (hR.quiet s t h)
  | sets h => exact .sets h
  | opens h hh => exact .opens (hR.quiet s _ h) hh
  | update h gate hg => exact .updates (hR.quiet s _ h) (.gate gate hg) (refl _)
  | early d => exact .admitted (hR.early d s)
  | late d => exact deed_lateDpms (refl s) d
  | @transition _ u set d h hset =>
    have hearly : R s ((earlyDpms d).after u) :=
      IsTrans.trans _ _ _ (hR.quiet s u h.quiet) (hR.early d u)
    rw [transition, Action.after_bind]
    split
    · rw [Action.after_outcome_bind, Action.after_bind_ofExcept, after_onHost]
      exact deed_lateDpms (IsTrans.trans _ _ _ hearly (hsend hset _)) d
    · exact .admitted hearly
  | enable =>
    rw [enable, earlyDpms_on, Action.after_pure_bind, Action.after_bind, after_onHost]
    split
    · rw [Action.after_modify_bind]
      exact deed_lateDpms (IsTrans.trans _ _ _ (hsend .on s) (hR.powered _)) .on
    · exact .admitted (hsend .on s)
  | disable =>
    have hdrain := within_of_tasks hR.task (tasks_drain (c := c)) s
    rw [disable_eq]
    have hdown := IsTrans.trans _ _ _ (hsend .off ((drain c).after s)) (hR.shutDown _)
    exact deed_lateDpms (IsTrans.trans _ _ _ hdrain hdown) .off
  | irc on => exact .admitted (within_updateIrc hR.toCompensates on s)
  | @hbm _ h mode hh _ _ =>
    have hfollow := within_followSunlight hR.toCompensates s.hbm.mode mode
    have hmode : R s (if mode = .off then (exitRanges c h).after { s with hbm.mode := mode }
        else { s with hbm.mode := mode }) := by
      split
      · exact IsTrans.trans _ _ _ (hR.mode s mode) (within_exitRanges hR.toBlind hh _)
      · exact hR.mode s mode
    have hready := IsTrans.trans _ _ _ hmode (hfollow _)
    rw [changeHbm_eq, Action.after_bind]
    split
    · exact .updates hready (.gate _ id) (tasks_notify _ _)
    · exact .updates hready (.gate _ id) (refl _)
  | retimes h => exact .retimes h
  | giveUp => exact .admitted (hR.countFrame false s)
  | regulator on => exact .admitted (hR.regulator s _)
  | pwm config enable => exact .pwm rfl

theorem Patient.ensues (hR : Patient c R) : Ensues c R := ⟨hR.task, hR.countFrame true⟩

/-- Besides errands and transitions, the relation holds of whatever the high-brightness mode, the
power-on state and the regulator change. -/
structure Oblivious (c : Config) (R : State σ → State σ → Prop) : Prop
    extends Unaware c R, Transits c R where
  errand : ∀ s t, Errand c s t → R s t
  powered : ∀ s : State σ, R s (powered c s)
  unpowered : ∀ s : State σ, R s { s with initialized := false }
  regulator : ∀ (s : State σ) (r : Option Regulator), R s { s with regulator := r }

theorem Oblivious.patient (hR : Oblivious c R) : Patient c R where
  toUnaware := hR.toUnaware
  early := hR.early
  quiet _ _ h := Action.related_of_closure hR.errand h.errands
  powered := hR.powered
  unpowered := hR.unpowered
  regulator := hR.regulator

theorem Oblivious.readies (hR : Oblivious c R) {s t : State σ} (h : Readies s t) : R s t := by
  cases h with
  | gate gate hg => exact Action.related_of_closure hR.errand ((refl s : QuietErrands c s s).opens hg)
  | enters d => exact hR.enter d s

/-- What an input does by itself is admitted, or it puts another timing in force. -/
theorem Oblivious.course (hR : Oblivious c R) {s t : State σ} {i : Input} (h : Course c s i t) :
    R s t ∨ Retimes c s i t := by
  have hdeed : Deed c R s i t := hR.patient.deed h
  clear h
  cases hdeed with
  | admitted h => exact .inl h
  | @updates u v _ h hv ht =>
    refine .inl (IsTrans.trans _ _ _ h (IsTrans.trans _ _ _ (hR.readies hv) ?_))
    exact IsTrans.trans _ _ _ (hR.update v) (Action.related_of_closure hR.task ht)
  | sets h => exact .inl (hR.errand s t h.errand)
  | opens h hh => exact .inl (IsTrans.trans _ _ _ h (hR.readies (.gate true fun _ => rfl)))
  | retimes h => exact .inr h
  | pwm hi => exact .inl (hR.errand s _ (.pwm s _))

theorem Oblivious.ensues (hR : Oblivious c R) : Ensues c R := hR.patient.ensues

/-- A step is admitted where putting another timing in force is. -/
theorem Oblivious.step (hR : Oblivious c R) (hr : ∀ {s t : State σ} {i : Input}, Retimes c s i t → R s t)
    (s : State σ) (i : Input) : R s (step c s i) := by
  rw [step_eq]
  refine IsTrans.trans _ _ _ ?_ (hR.ensues.settle _)
  exact (hR.course (course_perform i s)).elim id hr

/-- Besides errands, the relation holds of whatever changes neither the timings nor the gamma tables. -/
structure Detached (c : Config) (R : State σ → State σ → Prop) : Prop
    extends Unaware c R where
  errand : ∀ s t, Errand c s t → R s t
  level : ∀ (s : State σ) (level : UInt32) (m : Dsi.Message),
    m ∈ Dsi.plain? (Dsi.setBrightness :: c.backlight.encode level) true →
      R s { s with host := (Dsi.transfer m).after s.host }
  power : ∀ (s : State σ) (on : Bool) (r : Option Regulator) (b : Backlight.State),
    R s { s with initialized := on, regulator := r, backlight := b }

theorem Detached.oblivious (hR : Detached c R) : Oblivious c R where
  toUnaware := hR.toUnaware
  early d s := by
    rw [after_earlyDpms]
    exact hR.power s s.initialized _ s.backlight
  enter d s := by
    rw [after_enterDpms]
    exact hR.power s s.initialized _ _
  update := within_update {
    errand := hR.errand
    level := hR.level
    backlight := fun s => hR.power s s.initialized s.regulator
    restart := related_restartDimming hR.toBlind
    enter := fun s _ _ _ hh hr _ _ => within_enterRange hR.toBlind hh hr s }
  errand := hR.errand
  powered s := hR.power s true s.regulator _
  unpowered s := hR.power s false s.regulator s.backlight
  regulator s r := hR.power s s.initialized r s.backlight

/-! ### Runs -/

/-- What an input does by itself is admitted, or is one of four operations. -/
theorem perform_cases (hR : Admits c R) (i : Input) (s : State σ) :
    R s ((i.perform c).after s) ∨ Turn c s i ((i.perform c).after s) := by
  have hcourse := course_perform (c := c) i s
  have herrands {t : State σ} (h : Errands c s t) : R s t := related_of_chores hR.chore h.chores
  generalize (i.perform c).after s = t at hcourse ⊢
  cases hcourse with
  | errands h => exact .inl (herrands h.errands)
  | sets h => exact .inl (hR.chore _ _ h.errand.chore)
  | opens h _ => exact .inl (herrands (h.opens fun _ => rfl))
  | pwm config enable => exact .inl (hR.chore _ _ (.supply s _ s.regulator))
  | update h gate hg => exact .inl (IsTrans.trans _ _ _ (herrands (h.opens hg)) (hR.update _))
  | early d => exact .inl (hR.chores (chores_earlyDpms d) s)
  | late d => exact .inl (within_lateDpms hR.transits d s)
  | transition d h hs =>
    exact .inl (IsTrans.trans _ _ _ (herrands h.errands) (within_transition hR.transits d hs _))
  | enable => exact .inr .enable
  | disable => exact .inr .disable
  | irc on => exact .inr (.irc on)
  | hbm hh hm hs => exact .inr (.hbm hh hm hs)
  | retimes h =>
    exact .inl (h.related (fun _ _ h => hR.chore _ _ h.chore) fun s r => hR.chore _ _ (.refresh s r))
  | giveUp => exact .inl (hR.count false s)
  | regulator on => exact .inl (hR.chore _ _ (.supply s s.pwm _))

omit [IsPreorder (State σ) R] in
theorem Settles.ensues (hR : Settles c R) : Ensues c R where
  task _ _ h := hR.chore _ _ h.chore
  count := hR.count true

theorem within_settle (hR : Settles c R) : Within R (settle c : Action (State σ) Unit) :=
  hR.ensues.settle

theorem related_step (hR : Admits c R) (hT : ∀ s i t, Turn c s i t → R s t) (s : State σ) (i : Input) :
    R s (step c s i) := by
  rw [step_eq]
  refine IsTrans.trans _ _ _ ?_ (within_settle hR.toSettles _)
  obtain h | h := perform_cases hR i s
  · exact h
  · exact hT s i _ h

theorem related_run (hR : Admits c R) (hT : ∀ s i t, Turn c s i t → R s t) (s : State σ)
    (is : List Input) : R s (run c s is) := by
  induction is generalizing s with
  | nil => exact refl s
  | cons i is ih => exact IsTrans.trans _ _ _ (related_step hR hT s i) (ih _)

/-! ### Changes -/

section

variable {β : Type} [DecidableEq β]

/-- The states after the steps of a run that changed a part of the state, the oldest first. -/
def changes (c : Config) (f : State σ → β) : State σ → List Input → List (State σ)
  | _, [] => []
  | s, i :: is => (if f (step c s i) = f s then [] else [step c s i]) ++ changes c f (step c s i) is

theorem changes_append (f : State σ → β) (s : State σ) (is js : List Input) :
    changes c f s (is ++ js) = changes c f s is ++ changes c f (run c s is) js := by
  induction is generalizing s with
  | nil => rfl
  | cons i is ih => rw [List.cons_append, changes, changes, ih, run_cons, List.append_assoc]

/-- Each change left a state that the run went through. -/
theorem reached_of_changes {f : State σ → β} {s t : State σ} {is : List Input}
    (ht : t ∈ changes c f s is) : ∃ js, js <+: is ∧ t = run c s js := by
  induction is generalizing s with
  | nil => cases ht
  | cons i is ih =>
    rw [changes, List.mem_append] at ht
    obtain ht | ht := ht
    · split at ht
      · cases ht
      · exact ⟨[i], by simp, List.mem_singleton.mp ht⟩
    · obtain ⟨js, hjs, rfl⟩ := ih ht
      exact ⟨i :: js, List.cons_prefix_cons.mpr ⟨rfl, hjs⟩, rfl⟩

/-- The part is as its last change left it. -/
theorem last_change (f : State σ → β) (s : State σ) (is : List Input) :
    f (run c s is) = ((changes c f s is).getLast?.map f).getD (f s) := by
  induction is using List.reverseRecOn with
  | nil => rfl
  | append_singleton is i ih =>
    rw [run_append, changes_append]
    simp only [changes, run_cons, run_nil, List.append_nil]
    split
    · next h => rw [h, List.append_nil, ih]
    · rw [List.getLast?_append, List.getLast?_singleton, Option.some_or, Option.map_some,
        Option.getD_some]

end

end OledPanel.Panel
