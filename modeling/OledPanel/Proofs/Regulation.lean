import Mathlib.Data.List.Induction
import OledPanel.Bench.Plain
import OledPanel.Proofs.Courses
import OledPanel.Proofs.Updates

/-! The regulator and the power state. A transition sets the regulator to what the new power state
needs, unless that is what the state tracked last needs. The state tracked last is the one in force
as long as every transition is followed by its level. Where a level is held back or fails, a
transition back to what is tracked leaves the regulator at the mode in between. -/

namespace OledPanel

/-- The mode set last, the normal one if none was set. -/
def Regulator.mode (r : Regulator) : RegulatorMode := r.modes.back?.getD .normal

namespace Panel

open OledPanel.Action (Within)
open Dsi (Transport)

variable {σ : Type}

/-- The regulator is in the mode that the power state needs. -/
def State.Supplied (s : State σ) : Prop :=
  ∃ r, s.regulator = some r ∧ r.mode = s.backlight.bits.regulatorMode

/-- There is a regulator, and it does as it is told. -/
def State.Reliable (s : State σ) : Prop := ∃ r, s.regulator = some r ∧ r.fails = false

/-- A power state that was not tracked is left for one that needs what the state tracked last
needs. -/
def Returns (s t : State σ) : Prop :=
  s.backlight.levelBits.regulatorMode ≠ s.backlight.bits.regulatorMode ∧
    t.backlight.bits.regulatorMode = s.backlight.levelBits.regulatorMode

/-- Transitions come with both phases, and the regulator is not made to fail. -/
def Input.Whole : Input → Prop
  | .request (.earlyDpms _) | .request (.lateDpms _) | .regulatorFails true => False
  | _ => True

/-- The power state and the regulator are the same, or the regulator is set to what the new power
state needs, if it has to be. -/
inductive Governs (s t : State σ) : Prop
  | still (hb : t.backlight.bits = s.backlight.bits) (hr : t.regulator = s.regulator)
  | moved (hr : t.regulator = s.supplied t.backlight.bits)

theorem supplied_of_reliable {s : State σ} {r : Regulator} (hs : s.regulator = some r)
    (hf : r.fails = false) (bits : PowerBits) :
    s.supplied bits = if bits.regulatorMode ≠ s.backlight.levelBits.regulatorMode then
      some { r with modes := r.modes.push bits.regulatorMode } else some r := by
  rw [State.supplied, hs]
  split
  · simp only [Option.map_some, Regulator.set, Action.after, hf]
    rfl
  · rfl

theorem Governs.reliable {s t : State σ} (h : Governs s t) (hs : s.Reliable) : t.Reliable := by
  obtain ⟨r, hr, hf⟩ := hs
  cases h with
  | still _ ht => exact ⟨r, ht.trans hr, hf⟩
  | moved ht =>
    rw [supplied_of_reliable hr hf] at ht
    split at ht
    · exact ⟨_, ht, hf⟩
    · exact ⟨r, ht, hf⟩

theorem mode_push (a : Array RegulatorMode) (f : Bool) (m : RegulatorMode) :
    ({ modes := a.push m, fails := f } : Regulator).mode = m := by
  simp [Regulator.mode]

/-- The regulator keeps up exactly if the step does not return to what is tracked. -/
theorem Governs.supplied_iff {s t : State σ} (h : Governs s t) (hs : s.Reliable) (hm : s.Supplied) :
    t.Supplied ↔ ¬Returns s t := by
  obtain ⟨r, hr, hf⟩ := hs
  obtain ⟨r', hr', hmode⟩ := hm
  obtain rfl : r = r' := Option.some.inj (hr.symm.trans hr')
  cases h with
  | still hb ht =>
    have hsupplied : t.Supplied := ⟨r, ht.trans hr, by rw [hb, hmode]⟩
    have hnot : ¬Returns s t := by
      rintro ⟨hne, he⟩
      rw [hb] at he
      exact hne he.symm
    exact iff_of_true hsupplied hnot
  | moved ht =>
    rw [supplied_of_reliable hr hf] at ht
    by_cases he : t.backlight.bits.regulatorMode = s.backlight.levelBits.regulatorMode
    · -- The regulator stays as it is, which is right only if the mode does not change.
      rw [if_neg (not_not.mpr he)] at ht
      have hstays : t.Supplied ↔ r.mode = t.backlight.bits.regulatorMode := by
        constructor
        · rintro ⟨q, hq, hq'⟩
          obtain rfl : r = q := Option.some.inj (ht.symm.trans hq)
          exact hq'
        · intro h
          exact ⟨r, ht, h⟩
      rw [hstays, hmode, Returns, he]
      constructor
      · rintro h ⟨hne, -⟩
        exact hne h.symm
      · intro h
        by_contra hne
        exact h ⟨fun e => hne e.symm, rfl⟩
    · rw [if_pos he] at ht
      have hsupplied : t.Supplied := ⟨_, ht, mode_push _ _ _⟩
      have hnot : ¬Returns s t := fun h => he h.2
      exact iff_of_true hsupplied hnot

/-! ### What leaves the power state alone -/

/-- The power state and the regulator are the same. -/
abbrev Stable : State σ → State σ → Prop := Action.Same fun s => (s.backlight.bits, s.regulator)

/-- Besides, the power state tracked last is the same. -/
abbrev Steady : State σ → State σ → Prop :=
  Action.Same fun s => (s.backlight.bits, s.backlight.levelBits, s.regulator)

theorem Governs.of_stable {s t : State σ} (h : Stable s t) : Governs s t := by
  obtain ⟨hb, hr⟩ := Prod.mk.inj h
  exact .still hb hr

theorem Governs.stable {s t u : State σ} (h : Governs s t) (k : Stable t u) : Governs s u := by
  obtain ⟨hb, hr⟩ := Prod.mk.inj k
  cases h with
  | still hb' hr' => exact .still (hb.trans hb') (hr.trans hr')
  | moved hr' => exact .moved (by rw [hr, hb, hr'])

variable [Transport σ] {c : Config}

theorem stable_unaware : Unaware c (Stable : State σ → State σ → Prop) where
  task _ _ h := by cases h <;> rfl
  dims _ _ _ _ := rfl
  ask _ _ _ := rfl
  store _ _ _ _ _ _ := rfl
  keep _ _ _ := rfl
  mode _ _ := rfl

theorem stable_count (arrived : Bool) :
    Within Stable (countFrame c arrived : Action (State σ) Unit) :=
  stable_unaware.countFrame arrived

theorem stable_update : Within Stable (update c : Action (State σ) Unit) := by
  intro s
  have hkeeps := keeps_update (c := c) s
  exact Prod.ext hkeeps.bits hkeeps.regulator

theorem stable_settle : Within Stable (settle c : Action (State σ) Unit) :=
  Ensues.settle ⟨stable_unaware.task, stable_count true⟩

theorem steady_tasks {s t : State σ} (h : Tasks c s t) : Steady s t :=
  Action.related_of_closure (fun _ _ h => by cases h <;> rfl) h

theorem stable_errands {s t : State σ} (h : Errands c s t) : Stable s t := by
  refine Action.related_of_closure (fun _ _ h => ?_) h
  cases h with
  | task h => exact stable_unaware.task _ _ h
  | _ => rfl

/-! ### Transitions -/

omit [Transport σ] in
/-- A regulator that does as it is told does not keep a transition back. -/
theorem answer_earlyDpms (d : Dpms) {s : State σ} (hs : s.Reliable) :
    (earlyDpms d).answer s = .ok () := by
  obtain ⟨r, hr, hf⟩ := hs
  have hset (m : RegulatorMode) : (onRegulator (Regulator.set m)).answer s = .ok () := by
    simp only [Action.answer, onRegulator, hr, Action.within, Regulator.set, hf]
    rfl
  have hupdate (bits : PowerBits) : (updateRegulator bits).answer s = .ok () := by
    show (if bits.regulatorMode ≠ s.backlight.levelBits.regulatorMode then
      onRegulator (Regulator.set bits.regulatorMode) else pure () : Action _ Unit).answer s = .ok ()
    split
    · exact hset _
    · rfl
  show (if (d.apply s.backlight.bits).isLowPower then updateRegulator (d.apply s.backlight.bits)
    else pure () : Action _ Unit).answer s = .ok ()
  split
  · exact hupdate _
  · rfl

theorem lateDpms_moves (d : Dpms) (s : State σ) :
    let t := (lateDpms c d).after s
    t.backlight.bits = d.apply s.backlight.bits ∧
      t.regulator = if (d.apply s.backlight.bits).isLowPower then s.regulator
        else s.supplied (d.apply s.backlight.bits) := by
  have hnotify : Within Stable (notify (.changed .state) : Action (State σ) Unit) := fun _ => rfl
  have hrest : Stable ((enterDpms d).after s) ((lateDpms c d).after s) := by
    rw [lateDpms_eq]
    exact IsTrans.trans _ _ _ (stable_update _) (hnotify _)
  rw [after_enterDpms] at hrest
  exact Prod.mk.inj hrest

/-- The second phase, after the regulator went first where the new power state is low power. -/
theorem governs_lateDpms {s t : State σ} (d : Dpms) (hb : t.backlight.bits = s.backlight.bits)
    (hl : t.backlight.levelBits = s.backlight.levelBits)
    (hr : t.regulator = if (d.apply s.backlight.bits).isLowPower then
      s.supplied (d.apply s.backlight.bits) else s.regulator) :
    Governs s ((lateDpms c d).after t) := by
  obtain ⟨hbits, hreg⟩ := lateDpms_moves (c := c) d t
  rw [hb] at hbits hreg
  refine .moved ?_
  rw [hreg, hbits]
  split
  · next hlow => rw [hr, if_pos hlow]
  · next hlow =>
    rw [if_neg hlow] at hr
    rw [State.supplied, State.supplied, hl, hr]

theorem governs_transition (d : Dpms) (set : Dsi.CommandSet) {s : State σ} (hs : s.Reliable) :
    Governs s ((transition c d set).after s) := by
  rw [transition, Action.after_bind, answer_earlyDpms d hs]
  dsimp only
  rw [Action.after_outcome_bind, Action.after_bind_ofExcept, after_onHost, after_earlyDpms]
  exact governs_lateDpms d rfl rfl rfl

omit [Transport σ] in
theorem Governs.of_steady {s t u : State σ} (h : Steady s t) (k : Governs t u) : Governs s u := by
  obtain ⟨hb, hrest⟩ := Prod.mk.inj h
  obtain ⟨hl, hr⟩ := Prod.mk.inj hrest
  cases k with
  | still hb' hr' => exact .still (hb'.trans hb) (hr'.trans hr)
  | moved hr' => exact .moved (by rw [hr', State.supplied, State.supplied, hl, hr])

theorem governs_enable (s : State σ) : Governs s ((enable c).after s) := by
  rw [enable, earlyDpms_on, Action.after_pure_bind, Action.after_bind]
  split
  · rw [Action.after_modify_bind, after_onHost]
    exact governs_lateDpms .on rfl rfl rfl
  · rw [after_onHost]
    exact .of_stable rfl

theorem steady_shutDown : Within Steady (shutDown c : Action (State σ) Unit) := by
  have hstop : Within Steady (stopDimming c : Action (State σ) Unit) :=
    fun _ => related_stopDimming fun _ _ _ => rfl
  intro s
  rw [shutDown_eq]
  exact hstop { s with initialized := false }

theorem governs_disable (s : State σ) : Governs s ((disable c).after s) := by
  have hdown : Steady s ((shutDown c).after
      { (drain c).after s with host := c.sets.off.send.after ((drain c).after s).host }) :=
    IsTrans.trans _ _ _ (steady_tasks (tasks_drain s)) (steady_shutDown _)
  rw [disable_eq]
  exact .of_steady hdown (governs_lateDpms .off rfl rfl rfl)

/-! ### Runs -/

theorem governs_course {s t : State σ} {i : Input} (h : Course c s i t) (hi : i.Whole)
    (hs : s.Reliable) : Governs s t := by
  cases h with
  | errands h => exact .of_stable (stable_errands h.errands)
  | sets h => exact .of_stable (stable_errands (.single h.errand))
  | opens h _ => exact .of_stable (stable_errands (h.opens fun _ => rfl))
  | pwm config enable => exact .of_stable (stable_errands (c := c) (.single (.pwm s _)))
  | update h gate hg =>
    exact .of_stable (IsTrans.trans _ _ _ (stable_errands (h.opens hg)) (stable_update _))
  | early d => exact hi.elim
  | late d => exact hi.elim
  | @transition _ u set d h hset =>
    have hsteady := steady_tasks h
    refine .of_steady hsteady (governs_transition d set ?_)
    obtain ⟨r, hr, hf⟩ := hs
    exact ⟨r, (Prod.mk.inj (Prod.mk.inj hsteady).2).2.trans hr, hf⟩
  | enable => exact governs_enable s
  | disable => exact governs_disable s
  | irc on => exact .of_stable (within_updateIrc stable_unaware.toCompensates on s)
  | hbm hh hm hsun => exact .of_stable (within_changeHbm stable_unaware stable_update hh _ s)
  | retimes h => exact .of_stable (h.related stable_unaware.task fun _ _ => rfl)
  | giveUp => exact .of_stable (stable_count false s)
  | regulator on =>
    cases on with
    | true => exact hi.elim
    | false =>
      obtain ⟨r, hr, hf⟩ := hs
      refine .still rfl ?_
      show s.regulator.map _ = s.regulator
      rw [hr, Option.map_some, ← hf]

theorem governs_step {s : State σ} {i : Input} (hi : i.Whole) (hs : s.Reliable) :
    Governs s (step c s i) := by
  rw [step_eq]
  exact (governs_course (course_perform i s) hi hs).stable (stable_settle _)

theorem reliable_run {s : State σ} (hs : s.Reliable) (is : List Input) (hi : ∀ i ∈ is, i.Whole) :
    (run c s is).Reliable := by
  induction is generalizing s with
  | nil => exact hs
  | cons i is ih =>
    have hstep : (step c s i).Reliable := (governs_step (hi i (by simp)) hs).reliable hs
    exact ih hstep fun j hj => hi j (by simp [hj])

/-- In a run of whole transitions with a regulator that does as it is told, the mode set last is
the one the power state needs, after every step, exactly if no power state whose level was not
tracked is ever left for one that needs what the state tracked last needs. -/
theorem regulator_in_mode_unless_returned (c : Config) (host : σ) (display : Display)
    (pwm : Option Pwm) (r : Regulator) (hf : r.fails = false) (hn : r.mode = .normal)
    (inputs : List Input) (hw : ∀ i ∈ inputs, i.Whole) :
    let start := State.initial c host display pwm (some r)
    (∀ is, is <+: inputs → (run c start is).Supplied) ↔
      ∀ is i, is ++ [i] <+: inputs → ¬Returns (run c start is) (run c start (is ++ [i])) := by
  intro start
  have hreliable (is : List Input) (his : is <+: inputs) : (run c start is).Reliable :=
    reliable_run ⟨r, rfl, hf⟩ is fun i hi => hw i (his.subset hi)
  have hstep (is : List Input) (i : Input) (his : is ++ [i] <+: inputs) :
      Governs (run c start is) (run c start (is ++ [i])) := by
    rw [run_append]
    refine governs_step (hw i (his.subset (by simp))) (hreliable is ?_)
    exact (List.prefix_append is [i]).trans his
  constructor
  · intro h is i his
    have hbefore : is <+: inputs := (List.prefix_append is [i]).trans his
    exact ((hstep is i his).supplied_iff (hreliable is hbefore) (h is hbefore)).mp (h _ his)
  · intro h is
    induction is using List.reverseRecOn with
    | nil => exact fun _ => ⟨r, rfl, hn⟩
    | append_singleton is i ih =>
      intro his
      have hbefore : is <+: inputs := (List.prefix_append is [i]).trans his
      exact ((hstep is i his).supplied_iff (hreliable is hbefore) (ih hbefore)).mpr (h is i his)

theorem regulator_in_mode_through_low_power :
    let inputs := [.request .enable, .request .enterLp1, .request .leaveLp]
    let start := State.initial (Bench.plain none) ({} : Bench.Host) {} none (some {})
    (∀ is, is <+: inputs → (run (Bench.plain none) start is).Supplied) ∧
      (run (Bench.plain none) start inputs).regulator.map (·.modes) = some #[.idle, .normal] := by
  intro inputs start
  have hw : ∀ i ∈ inputs, i.Whole := by simp [inputs, Input.Whole]
  refine ⟨?_, by decide +kernel⟩
  refine (regulator_in_mode_unless_returned _ ({} : Bench.Host) {} none {} rfl rfl inputs hw).mpr ?_
  have hstep (n : Nat) (hn : n < 3) : ¬Returns (run (Bench.plain none) start (inputs.take n))
      (run (Bench.plain none) start (inputs.take (n + 1))) := by
    match n, hn with
    | 0, _ | 1, _ | 2, _ =>
      unfold Returns
      decide +kernel
  intro is i his
  have hlength : is.length < 3 := by simpa [inputs, Nat.lt_succ_iff] using his.length_le
  have hbefore : is = inputs.take is.length :=
    List.prefix_iff_eq_take.mp ((List.prefix_append is [i]).trans his)
  have hafter : is ++ [i] = inputs.take (is.length + 1) := by
    simpa using List.prefix_iff_eq_take.mp his
  have hnot := hstep is.length hlength
  rw [← hbefore, ← hafter] at hnot
  exact hnot

/-- While the gate is closed no level is tracked, so leaving low power leaves the regulator idle. -/
theorem regulator_idle_after_low_power :
    let c : Config := { Bench.plain none with backlight.waitsForFrame := true }
    let s := run c (State.initial c ({} : Bench.Host) {} none (some {}))
      [.request .enable, .request .enterLp1, .request .leaveLp]
    (Config.ofNode (Bench.withProperties (Bench.plainNode [])
      [(Backlight.Config.keyUpdate, .text "delay_until_first_frame")]) false).toOption = some c ∧
      s.regulator.map (·.modes) = some #[.idle] ∧ s.backlight.bits.regulatorMode = .normal := by
  refine ⟨by decide +kernel, ?_⟩
  decide +kernel

end Panel
end OledPanel
