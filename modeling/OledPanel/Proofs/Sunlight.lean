import Mathlib.Data.List.Induction
import OledPanel.Bench.Plain
import OledPanel.Proofs.Compensation

/-! Compensation and sunlight mode. Compensation is switched off on the way into sunlight and on
again on the way out, or it is owed while dimming lasts. What is owed is paid when dimming ends,
whatever the mode is by then, so a panel that goes back to sunlight before has compensation
switched on there. -/

namespace OledPanel.Panel

open OledPanel.Action (Lasting Within)
open Dsi (Recorder Transport)

variable {σ : Type} [Transport σ] {c : Config} {irc : Hbm.Irc}

/-! ### What is owed waits for dimming to end -/

/-- Compensation is owed while dimming lasts only. -/
def OwedLasts : State σ → State σ → Prop :=
  Lasting fun s => s.hbm.ircOwed = true → s.hbm.dimming.active = true

instance : IsPreorder (State σ) OwedLasts := inferInstanceAs (IsPreorder _ (Lasting _))

theorem owed_chore (s t : State σ) (h : Chore c s t) : OwedLasts s t := by
  cases h <;> exact id

omit [Transport σ] in
/-- Dimming that starts leaves dimming active that was. -/
theorem active_startDimming (frames : Nat) (stop : Hbm.Stop) {s : State σ}
    (ha : s.hbm.dimming.active = true) :
    ((startDimming frames stop).after s).hbm.dimming.active = true := by
  obtain ⟨h, -⟩ | ⟨-, h⟩ := startDimming_cases frames stop s
  · rw [h]
    exact ha
  · rw [h]

omit [Transport σ] in
theorem owed_startDimming (frames : Nat) (stop : Hbm.Stop) :
    Within OwedLasts (startDimming frames stop : Action (State σ) Unit) := by
  intro s hs ho
  refine active_startDimming frames stop (hs ?_)
  obtain ⟨h, -⟩ | ⟨-, h⟩ := startDimming_cases frames stop s
  · rw [h] at ho
    exact ho
  · rw [h] at ho
    exact ho

theorem owed_stopDimming : Within OwedLasts (stopDimming c : Action (State σ) Unit) :=
  fun _ => related_stopDimming fun _ _ _ _ => nofun

theorem owed_countFrame (arrived : Bool) :
    Within OwedLasts (countFrame c arrived : Action (State σ) Unit) := by
  intro s
  have hleft (n : Nat) : OwedLasts s { s with hbm.dimming.left := n } := id
  refine related_countFrame arrived (fun _ => ?_) fun _ _ => hleft _
  exact IsTrans.trans _ _ _ (hleft 0) (owed_stopDimming _)

theorem owed_updates : Updates c (OwedLasts : State σ → State σ → Prop) where
  errand _ _ h := owed_chore _ _ h.chore
  level _ _ _ _ := id
  backlight _ _ := id
  restart s hs := by
    unfold restartDimming
    split <;> exact hs
  enter s _ i r _ _ _ _ hs := by
    obtain ⟨g, h⟩ := enterRange_frame (c := c) i r s
    rw [h]
    exact owed_startDimming r.frames (.range i) s hs

theorem owed_admits : Admits c (OwedLasts : State σ → State σ → Prop) where
  chore := owed_chore
  count := owed_countFrame
  update := within_update owed_updates

theorem owed_updateIrc (on : Bool) : Within OwedLasts (updateIrc c on : Action (State σ) Unit) := by
  intro s hs
  obtain ⟨g, b, h⟩ := updateIrc_frame (c := c) on s
  rw [h]
  exact hs

theorem owed_changeHbm (h : Hbm.Config) (mode : HbmMode) :
    Within OwedLasts (changeHbm c h mode : Action (State σ) Unit) := by
  intro s hs
  have hexit : Within OwedLasts (exitRanges c h : Action (State σ) Unit) := fun t ht => by
    obtain ⟨g, he⟩ := exitRanges_frame (c := c) h t
    rw [he]
    exact owed_startDimming h.exitFrames .exit t ht
  have hfollow : Within OwedLasts (followSunlight c s.hbm.mode mode : Action (State σ) Unit) := by
    intro t ht
    rw [followSunlight_eq]
    split
    · exact owed_updateIrc false t ht
    · split
      · split
        · next ha => exact fun _ => ha
        · exact owed_updateIrc true t ht
      · exact ht
  refine related_changeHbm (fun _ _ h => owed_chore _ _ h.chore) owed_admits.update hfollow ?_ hs
  split
  · exact hexit { s with hbm.mode := mode }
  · exact id

theorem owed_turn (s : State σ) (i : Input) (t : State σ) (h : Turn c s i t) : OwedLasts s t := by
  cases h with
  | enable => exact within_enable owed_admits.transits (fun _ => id) s
  | disable =>
    refine within_disable owed_admits.transits (fun t ht => ?_) s
    rw [shutDown_eq]
    exact owed_stopDimming { t with initialized := false } ht
  | irc on => exact owed_updateIrc on s
  | hbm _ _ _ => exact owed_changeHbm _ _ s

/-! ### Changes of the mode -/

/-- Compensation is on, or it is owed. -/
def Assured (c : Config) (irc : Hbm.Irc) (s : State (Recorder σ)) : Prop :=
  s.hbm.ircOwed = true ∨ Wrote c irc true s

/-- Compensation is off since sunlight was entered, but for what was owed then and has been paid. -/
def Cleared (c : Config) (irc : Hbm.Irc) (owed : Bool) (s : State (Recorder σ)) : Prop :=
  (s.hbm.ircOwed = true → owed = true) ∧ Wrote c irc (owed && !s.hbm.ircOwed) s

omit [Transport σ] in
theorem Pays.assured {s t : State (Recorder σ)} (h : Pays c irc s t) (hs : Assured c irc s) :
    Assured c irc t := by
  obtain h | ⟨-, -, -, hw⟩ := h
  · exact hs.imp (fun ho => h.owed.trans ho) fun hw => hw.stays h
  · exact .inr hw

omit [Transport σ] in
theorem Pays.cleared {owed : Bool} {s t : State (Recorder σ)} (h : Pays c irc s t)
    (hs : Cleared c irc owed s) : Cleared c irc owed t := by
  obtain h | ⟨-, ho, hp, hw⟩ := h
  · unfold Cleared
    rw [h.owed]
    exact ⟨hs.1, hs.2.stays h⟩
  · unfold Cleared
    rw [hp, hs.1 ho]
    exact ⟨nofun, hw⟩

omit [Transport σ] in
theorem Pays.mode {s t : State (Recorder σ)} (h : Pays c irc s t) : t.hbm.mode = s.hbm.mode := by
  obtain h | ⟨h, -⟩ := h
  · exact h.mode
  · exact h

/-- Compensation obeys a change from the previous mode to one that is in force already. -/
structure Obeys (c : Config) (irc : Hbm.Irc) (previous mode : HbmMode) (s t : State (Recorder σ)) :
    Prop where
  kept : t.hbm.mode = s.hbm.mode
  cleared : mode = HbmMode.sunlight → Cleared c irc s.hbm.ircOwed t
  assured : mode ≠ HbmMode.sunlight → previous = .sunlight ∨ Assured c irc s → Assured c irc t

omit [Transport σ] in
theorem Obeys.of_stays {previous mode : HbmMode} {s t u : State (Recorder σ)} (hst : Stays c irc s t)
    (h : Obeys c irc previous mode t u) : Obeys c irc previous mode s u := by
  refine ⟨h.kept.trans hst.mode, fun hm => hst.owed ▸ h.cleared hm, fun hm hs => h.assured hm ?_⟩
  exact hs.imp_right fun ha => Pays.assured (.inl hst) ha

omit [Transport σ] in
theorem Obeys.pays {previous mode : HbmMode} {s t u : State (Recorder σ)}
    (h : Obeys c irc previous mode s t) (htu : Pays c irc t u) : Obeys c irc previous mode s u where
  kept := htu.mode.trans h.kept
  cleared hm := htu.cleared (h.cleared hm)
  assured hm hs := htu.assured (h.assured hm hs)

theorem obeys_followSunlight (hirc : c.irc? = some irc) (previous mode : HbmMode)
    (s : State (Recorder σ)) :
    Reliably irc (Obeys c irc previous mode) s ((followSunlight c previous mode).after s) := by
  rw [followSunlight_eq]
  split
  · next hm =>
    obtain ⟨g, b, hu⟩ := updateIrc_frame (c := c) false s
    refine recorded_mono (wrote_updateIrc hirc false s) fun hw => ?_
    refine ⟨by rw [hu], fun _ => ?_, fun hn => absurd hm hn⟩
    have ho : ((updateIrc c false).after s).hbm.ircOwed = s.hbm.ircOwed := by rw [hu]
    unfold Cleared
    rw [ho, Bool.and_not_self]
    exact ⟨id, hw⟩
  · next hm =>
    split
    · split
      · exact recorded_of_eq rfl (fun hs => ⟨hs.laid, hs.size⟩)
          fun _ => ⟨rfl, fun h => absurd h hm, fun _ _ => .inl rfl⟩
      · obtain ⟨g, b, hu⟩ := updateIrc_frame (c := c) true s
        refine recorded_mono (wrote_updateIrc hirc true s) fun hw => ?_
        exact ⟨by rw [hu], fun h => absurd h hm, fun _ _ => .inr hw⟩
    · next hp =>
      exact recorded_of_eq rfl id
        fun _ => ⟨rfl, fun h => absurd h hm, fun _ h => h.resolve_left hp⟩

theorem obeys_changeHbm (hirc : c.irc? = some irc) {h : Hbm.Config} (hh : c.hbm = some h)
    (mode : HbmMode) (s : State (Recorder σ)) :
    Reliably irc (Obeys c irc s.hbm.mode mode) { s with hbm.mode := mode }
      ((changeHbm c h mode).after s) := by
  have hR : Admits c (Reliably irc (Pays c irc) : State (Recorder σ) → _ → Prop) := pays_admits hirc
  have hexit : Reliably irc (Stays c irc) { s with hbm.mode := mode } (if mode = .off
      then (exitRanges c h).after { s with hbm.mode := mode } else { s with hbm.mode := mode }) := by
    split
    · exact within_exitRanges stays_blind hh _
    · exact refl _
  have hrest : Within (Reliably irc (Pays c irc)) (do update c; notify (.changed .hbmMode) :
      Action (State (Recorder σ)) Unit) := hR.update.bind fun _ => hR.chores (chores_notify _)
  rw [changeHbm_eq]
  have hfollow := recorded_comp hexit (obeys_followSunlight hirc s.hbm.mode mode _) Obeys.of_stays
  exact recorded_comp hfollow (hrest _) Obeys.pays

/-- A step leaves the mode as it is and pays what is owed at most, or compensation obeys a change. -/
theorem obeys_step (hirc : c.irc? = some irc) (s : State (Recorder σ)) (i : Input)
    (hd : i ≠ .request .disable) (hu : ∀ on, i ≠ .request (.updateIrc on)) :
    Reliably irc (Pays c irc) s (step c s i) ∨ ∃ mode, mode ≠ s.hbm.mode ∧
      Reliably irc (Obeys c irc s.hbm.mode mode) { s with hbm.mode := mode } (step c s i) := by
  have hR : Admits c (Reliably irc (Pays c irc) : State (Recorder σ) → _ → Prop) := pays_admits hirc
  have hsettle := within_settle hR.toSettles ((i.perform c).after s)
  rw [step_eq]
  obtain h | h := perform_cases hR i s
  · exact .inl (IsTrans.trans _ _ _ h hsettle)
  · generalize (i.perform c).after s = t at h hsettle ⊢
    cases h with
    | enable =>
      have hpowered (s : State (Recorder σ)) : Reliably irc (Pays c irc) s (powered c s) :=
        pays_of_stays (stays_of_eq rfl rfl rfl rfl rfl)
      exact .inl (IsTrans.trans _ _ _ (within_enable hR.transits hpowered s) hsettle)
    | disable => exact absurd rfl hd
    | irc on => exact absurd rfl (hu on)
    | hbm hh hm _ =>
      exact .inr ⟨_, hm, recorded_comp (obeys_changeHbm hirc hh _ s) hsettle Obeys.pays⟩

/-! ### Runs -/

/-- The step of a run that entered sunlight, where the run is in sunlight. -/
structure Entry (c : Config) (start : State (Recorder σ)) (inputs is js : List Input) (i : Input) :
    Prop where
  split : inputs = is ++ i :: js
  before : (run c start is).hbm.mode ≠ .sunlight
  since : ∀ ks, ks <+: js → (run c start (is ++ i :: ks)).hbm.mode = .sunlight

/-- The account of compensation in a run. -/
structure Accounted (c : Config) (irc : Hbm.Irc) (start : State (Recorder σ)) (inputs : List Input) :
    Prop where
  cleared : (run c start inputs).hbm.mode = .sunlight → ∃ is js i, Entry c start inputs is js i ∧
    Cleared c irc (run c start is).hbm.ircOwed (run c start inputs)
  assured : (run c start inputs).hbm.mode ≠ .sunlight →
    (∃ is, is <+: inputs ∧ (run c start is).hbm.mode = .sunlight) → Assured c irc (run c start inputs)

variable {start : State (Recorder σ)} {is : List Input} {i : Input}

theorem Accounted.pays (h : Accounted c irc start is)
    (hp : Pays c irc (run c start is) (run c start (is ++ [i]))) :
    Accounted c irc start (is ++ [i]) := by
  refine ⟨fun hs => ?_, fun hs => ?_⟩
  · obtain ⟨ks, js, j, he, hc⟩ := h.cleared (hp.mode.symm.trans hs)
    refine ⟨ks, js ++ [i], j, ⟨by simp [he.split], he.before, fun ls hls => ?_⟩, hp.cleared hc⟩
    obtain rfl | hls := List.prefix_concat_iff.mp hls
    · rw [show ks ++ j :: (js ++ [i]) = is ++ [i] by simp [he.split]]
      exact hs
    · exact he.since ls hls
  · rintro ⟨ls, hls, hl⟩
    obtain rfl | hls := List.prefix_concat_iff.mp hls
    · exact absurd hl hs
    · exact hp.assured (h.assured (hp.mode ▸ hs) ⟨ls, hls, hl⟩)

theorem Accounted.obeys (h : Accounted c irc start is) {mode : HbmMode}
    (hm : mode ≠ (run c start is).hbm.mode)
    (ho : Obeys c irc (run c start is).hbm.mode mode { run c start is with hbm.mode := mode }
      (run c start (is ++ [i]))) :
    Accounted c irc start (is ++ [i]) := by
  have hmode : (run c start (is ++ [i])).hbm.mode = mode := ho.kept
  refine ⟨fun hs => ?_, fun hs => ?_⟩
  · have hsun : mode = .sunlight := hmode.symm.trans hs
    refine ⟨is, [], i, ⟨rfl, hsun ▸ hm.symm, fun ks hks => ?_⟩, ho.cleared hsun⟩
    rw [List.prefix_nil.mp hks]
    exact hs
  · rintro ⟨ls, hls, hl⟩
    obtain rfl | hls := List.prefix_concat_iff.mp hls
    · exact absurd hl hs
    · refine ho.assured (hmode ▸ hs) ?_
      by_cases hsun : (run c start is).hbm.mode = .sunlight
      · exact .inl hsun
      · refine .inr ((h.assured hsun ⟨ls, hls, hl⟩).imp_right ?_)
        rintro ⟨bytes, hbit, hkept⟩
        exact ⟨bytes, hbit, hkept.of_eq rfl rfl⟩

theorem accounted_run (hirc : c.irc? = some irc) (hs : Sized irc start)
    (hm : start.hbm.mode ≠ .sunlight) (inputs : List Input) (hd : .request .disable ∉ inputs)
    (hu : ∀ on, .request (.updateIrc on) ∉ inputs) : Sized irc (run c start inputs) ∧
      ((∀ e ∈ (run c start inputs).host.record, e.Full irc) → Accounted c irc start inputs) := by
  -- From the right, so that the entry into sunlight found before is still the last one.
  induction inputs using List.reverseRecOn with
  | nil =>
    refine ⟨hs, fun _ => ⟨fun h => absurd h hm, ?_⟩⟩
    rintro - ⟨is, his, h⟩
    rw [List.prefix_nil.mp his] at h
    exact absurd h hm
  | append_singleton is i ih =>
    simp only [List.mem_append, List.mem_singleton, not_or] at hd hu
    obtain ⟨hsized, ih⟩ := ih hd.1 fun on => (hu on).1
    have hrun : run c start (is ++ [i]) = step c (run c start is) i := run_append c start is [i]
    obtain h | ⟨mode, hm, h⟩ := obeys_step hirc (run c start is) i (Ne.symm hd.2)
      fun on => Ne.symm (hu on).2
    · rw [← hrun] at h
      obtain ⟨hsized', hpre, h⟩ := h hsized
      exact ⟨hsized', fun hgood => (ih fun e he => hgood e (hpre.subset he)).pays (h hgood)⟩
    · rw [← hrun] at h
      obtain ⟨hsized', hpre, h⟩ := h ⟨hsized.laid, hsized.size⟩
      exact ⟨hsized', fun hgood => (ih fun e he => hgood e (hpre.subset he)).obeys hm (h hgood)⟩

/-- Without faults the bit written last in sunlight is clear, unless compensation was owed when
sunlight was entered and has been paid since; then it is set. After sunlight it is set once dimming
has ended. -/
theorem compensation_follows_sunlight (hirc : c.irc? = some irc) (host : σ) (display : Display)
    (pwm : Option Pwm) (regulator : Option Regulator) (inputs : List Input)
    (hd : .request .disable ∉ inputs) (hu : ∀ on, .request (.updateIrc on) ∉ inputs) :
    let start := State.initial c ({ host } : Recorder σ) display pwm regulator
    let s := run c start inputs
    (∀ e ∈ s.host.record, e.Full irc) → (s.hbm.ircOwed = true → s.hbm.dimming.active = true) ∧
      (s.hbm.mode = .sunlight → ∃ is js i bytes, Entry c start inputs is js i ∧ Kept c irc bytes s ∧
        irc.bit? bytes = some ((run c start is).hbm.ircOwed && !s.hbm.ircOwed)) ∧
      (s.hbm.mode ≠ .sunlight → (∃ is, is <+: inputs ∧ (run c start is).hbm.mode = .sunlight) →
        s.hbm.dimming.active = false → ∃ bytes, Kept c irc bytes s ∧ irc.bit? bytes = some true) := by
  intro start s hgood
  have hstart : Sized irc start := ⟨laid_initial c _ display pwm regulator, nofun⟩
  have haccount : Accounted c irc start inputs :=
    (accounted_run hirc hstart nofun inputs hd hu).2 hgood
  have howed : s.hbm.ircOwed = true → s.hbm.dimming.active = true :=
    related_run owed_admits owed_turn start inputs nofun
  refine ⟨howed, fun hm => ?_, fun hm hsun hidle => ?_⟩
  · obtain ⟨is, js, i, he, -, bytes, hbit, hkept⟩ := haccount.cleared hm
    exact ⟨is, js, i, bytes, he, hkept, hbit⟩
  · obtain ho | ⟨bytes, hbit, hkept⟩ := haccount.assured hm hsun
    · rw [howed ho] at hidle
      cases hidle
    · exact ⟨bytes, hkept, hbit⟩

theorem compensation_follows_sunlight_once :
    let irc : Hbm.Irc := { address := 0xB5, bit := 11, unlock := {}, lock := {} }
    let hbm : Hbm.Config := {
      ranges := [⟨0, 255, 100, 200, {}, {}, 0⟩]
      exit := {}
      exitStop := {}
      exitFrames := 0
      irc := some irc }
    let c := Bench.plain (some hbm)
    let host : Bench.Host := { registers := [(0xB5, [0x00, 0xFF])] }
    let start := State.initial c ({ host } : Recorder Bench.Host) {} none none
    let inputs := [.request (.enableSunlight true), .request (.setHbm .sunlight),
      .request (.setHbm .on)]
    ∃ bytes, Kept c irc bytes (run c start inputs) ∧ irc.bit? bytes = some true := by
  intro irc hbm c host start inputs
  have hirc : c.irc? = some irc := rfl
  have h := compensation_follows_sunlight hirc host {} none none inputs (by simp [inputs])
    (by simp [inputs]) (by decide +kernel)
  have hentered : (run c start (inputs.take 2)).hbm.mode = .sunlight := by decide +kernel
  exact h.2.2 (by decide +kernel) ⟨_, List.take_prefix 2 inputs, hentered⟩ (by decide +kernel)

/-- Compensation that was owed is switched on in sunlight when dimming ends there. -/
theorem compensation_on_in_sunlight :
    let irc : Hbm.Irc := { address := 0xB5, bit := 11, unlock := {}, lock := {} }
    let hbm : Hbm.Config := {
      ranges := [⟨0, 255, 100, 200, {}, { commands := [⟨.shortWriteParam, true, 0, [0x53, 0x20]⟩] }, 2⟩]
      exit := {}
      exitStop := {}
      exitFrames := 0
      irc := some irc }
    let s := Bench.plainRun (some hbm) { registers := [(0xB5, [0x00, 0xFF])] }
      [.request .enable, .request (.enableSunlight true), .request (.setHbm .sunlight),
        .request (.setHbm .on), .request (.setHbm .sunlight), .pulse, .pulse]
    (Config.ofNode (Bench.plainNode [Bench.hbmNode
      [(Hbm.Irc.keyAddress, .cell 0xB5), (Hbm.Irc.keyBit, .cell 11)]
      [Bench.rangeNode 0 100 200 (some (2, [0x53, 0x20]))]]) false).toOption =
        some (Bench.plain (some hbm)) ∧
      s.hbm.mode = .sunlight ∧ (s.host.writesTo 0xB5).getLast? = some [0xB5, 0x00, 0xFF] ∧
      irc.bit? [0x00, 0xFF] = some true := by
  refine ⟨by decide +kernel, ?_⟩
  decide +kernel

end OledPanel.Panel
