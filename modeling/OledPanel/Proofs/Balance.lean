import OledPanel.Bench.Plain
import OledPanel.Proofs.Dimming
import OledPanel.Proofs.Turns
import OledPanel.Proofs.Updates

/-! Dimming holds exactly one vblank reference while it is active and none otherwise. The balance
is an invariant of every part of every operation, so no failure on the way can upset it; a panel
that is disabled or given up holds none. -/

namespace OledPanel.Panel

open OledPanel.Action (Within Lasting)
open Dsi (Transport)

variable {σ : Type} [Transport σ] {c : Config}

/-- The state of dimming and the references of a display agree. The references granted and
returned are counted from those of a display to start with. -/
structure Balanced (base d : Display) (m : Hbm.Dimming) : Prop where
  references : d.references = if m.active then 1 else 0
  matched : d.granted + base.returned = d.returned + base.granted + d.references
  stop : m.active = m.stop.isSome
  counting : m.active = true ↔ 0 < m.left
  bounded : m.left ≤ m.total
  idle : m.active = false → m.total = 0 ∧ m.left = 0

namespace Balanced

variable {base d : Display} {m : Hbm.Dimming}

theorem of_display {e : Display} (h : Balanced base d m) (hr : e.references = d.references)
    (hg : e.granted = d.granted) (hb : e.returned = d.returned) : Balanced base e m :=
  { h with
    references := hr.trans h.references
    matched := by rw [hr, hg, hb, h.matched] }

theorem start (h : Balanced base d m) (frames : Nat) (stop : Hbm.Stop) (hf : frames ≠ 0) :
    Balanced base (if m.active then d else d.lent)
      { active := true, total := frames, left := frames, stop := some stop } where
  references := by
    have hr := h.references
    split
    · next ha => simpa [ha] using hr
    · next ha => simp [Display.lent, hr, ha]
  matched := by
    have hm := h.matched
    split
    · exact hm
    · simp only [Display.lent]
      omega
  stop := rfl
  counting := by simp only [true_iff]; omega
  bounded := Nat.le_refl _
  idle := nofun

theorem finish (h : Balanced base d m) (ha : m.active = true) : Balanced base d.release {} where
  references := by simp [Display.release, h.references, ha]
  matched := by
    have hm := h.matched
    have hr := h.references
    simp only [ha, if_true] at hr
    simp only [Display.release]
    omega
  stop := rfl
  counting := by simp
  bounded := Nat.le_refl _
  idle _ := ⟨rfl, rfl⟩

theorem recount (h : Balanced base d m) (ha : m.active = true) {n : Nat} (hn : 0 < n)
    (hl : n ≤ m.total) : Balanced base d { m with left := n } :=
  { h with
    counting := by simp [ha, hn]
    bounded := hl
    idle := by simp [ha] }

end Balanced

/-- The balance of a state that lasts. -/
def Balance (base : Display) : State σ → State σ → Prop :=
  Lasting fun s => Balanced base s.display s.hbm.dimming

instance (base : Display) : IsPreorder (State σ) (Balance base) :=
  inferInstanceAs (IsPreorder _ (Lasting _))

variable {base : Display}

omit [Transport σ] in
theorem balance_of_eq {s t : State σ} (hd : t.display = s.display)
    (hm : t.hbm.dimming = s.hbm.dimming) : Balance base s t := by
  intro h
  show Balanced base t.display t.hbm.dimming
  rw [hd, hm]
  exact h

theorem balance_chore (s t : State σ) (h : Chore c s t) : Balance base s t := by
  cases h with
  | display d hr hg hb => exact fun h => h.of_display hr hg hb
  | _ => exact balance_of_eq rfl rfl

omit [Transport σ] in
theorem balance_startDimming (frames : Nat) (stop : Hbm.Stop) :
    Within (Balance base) (startDimming frames stop : Action (State σ) Unit) := by
  intro s h
  obtain ⟨hs, -⟩ | ⟨hf, hs⟩ := startDimming_cases frames stop s
  · rw [hs]
    exact h
  · rw [hs]
    exact h.start frames stop hf

theorem balance_stopDimming : Within (Balance base) (stopDimming c : Action (State σ) Unit) :=
  fun _ => related_stopDimming fun ha _ _ h => h.finish ha

theorem balance_countFrame (arrived : Bool) :
    Within (Balance base) (countFrame c arrived : Action (State σ) Unit) := by
  intro s
  refine related_countFrame arrived (fun ha h => ?_) fun ha hn h => ?_
  · have hs : ({ s with hbm.dimming.left := 0 } : State σ).hbm.dimming.active = true := ha
    obtain ⟨g, b, hs⟩ := stopDimming_frame (c := c) hs
    rw [hs]
    exact h.finish ha
  · have hl : framesAfter s.hbm.dimming arrived ≤ s.hbm.dimming.left := by
      unfold framesAfter
      split <;> omega
    exact h.recount ha (Nat.pos_of_ne_zero hn) (Nat.le_trans hl h.bounded)

theorem balance_updates : Updates c (Balance base : State σ → State σ → Prop) where
  errand _ _ h := balance_chore _ _ h.chore
  level _ _ _ _ := balance_of_eq rfl rfl
  backlight _ _ := balance_of_eq rfl rfl
  restart s h := by
    unfold restartDimming
    split
    · next ha =>
      refine h.recount ha ?_ (Nat.le_refl _)
      exact Nat.lt_of_lt_of_le (h.counting.mp ha) h.bounded
    · exact h
  enter s _ i r _ _ _ _ h := by
    obtain ⟨g, hs⟩ := enterRange_frame (c := c) i r s
    rw [hs]
    exact balance_startDimming r.frames (.range i) s h

theorem balance_admits : Admits c (Balance base : State σ → State σ → Prop) where
  chore := balance_chore
  update := within_update balance_updates
  count := balance_countFrame

/-! ### Runs -/

theorem balance_shutDown : Within (Balance base) (shutDown c : Action (State σ) Unit) := by
  intro s h
  rw [shutDown_eq]
  exact balance_stopDimming { s with initialized := false } h

theorem balance_changeHbm (h : Hbm.Config) (mode : HbmMode) :
    Within (Balance base) (changeHbm c h mode : Action (State σ) Unit) := by
  intro s hs
  have hmode : Balance base s { s with hbm.mode := mode } := balance_of_eq rfl rfl
  have hexit : Within (Balance base) (exitRanges c h : Action (State σ) Unit) := fun t ht => by
    obtain ⟨g, he⟩ := exitRanges_frame (c := c) h t
    rw [he]
    exact balance_startDimming h.exitFrames .exit t ht
  have hfollow : Within (Balance base) (followSunlight c s.hbm.mode mode : Action (State σ) Unit) := by
    intro t ht
    obtain ⟨g, b, o, he⟩ := followSunlight_frame (c := c) s.hbm.mode mode t
    rw [he]
    exact ht
  refine related_changeHbm (fun _ _ h => balance_chore _ _ h.chore) balance_admits.update hfollow ?_ hs
  split
  · exact IsTrans.trans _ _ _ hmode (hexit _)
  · exact hmode

theorem balance_turn (s : State σ) (i : Input) (t : State σ) (h : Turn c s i t) : Balance base s t := by
  cases h with
  | enable => exact within_enable balance_admits.transits (fun _ => balance_of_eq rfl rfl) s
  | disable => exact within_disable balance_admits.transits balance_shutDown s
  | irc on =>
    obtain ⟨g, b, h⟩ := updateIrc_frame (c := c) on s
    rw [h]
    exact balance_of_eq rfl rfl
  | hbm _ _ _ => exact balance_changeHbm _ _ s

theorem balanced_run (s : State σ) (hs : Balanced base s.display s.hbm.dimming) (is : List Input) :
    Balanced base (run c s is).display (run c s is).hbm.dimming :=
  related_run balance_admits balance_turn s is hs

/-! ### Taking the panel out of use -/

/-- Dimming that is over stays over. -/
def Idle : State σ → State σ → Prop := Lasting fun s => s.hbm.dimming.active = false

instance : IsPreorder (State σ) Idle := inferInstanceAs (IsPreorder _ (Lasting _))

theorem idle_chore (s t : State σ) (h : Chore c s t) : Idle s t := by
  cases h <;> exact id

theorem idle_settles : Settles c (Idle : State σ → State σ → Prop) where
  chore := idle_chore
  count arrived s h := by
    rw [countFrame_of_idle h]
    exact h

theorem idle_commits : Commits c (Idle : State σ → State σ → Prop) where
  errand _ _ h := idle_chore _ _ h.chore
  level _ _ _ _ := id
  backlight _ _ := id
  restart s h := by
    rw [restartDimming, if_neg (by simp [h])]
    exact h

/-- Nothing of the way down starts dimming. -/
theorem idle_disable (s : State σ) : ((disable c).after s).hbm.dimming.active = false := by
  have hshut (t : State σ) : ((shutDown c).after t).hbm.dimming.active = false := by
    rw [shutDown_eq]
    exact stopDimming_idle _
  have henter (t : State σ) : ((enterDpms .off).after t).backlight.wanted = 0 := by
    rw [enterDpms, Action.after_get_bind]
    rfl
  have hlate : Within Idle (lateDpms c .off : Action (State σ) Unit) := by
    intro t ht
    have hbits := within_of_chores (idle_chore (c := c)) (chores_enterDpms .off) t ht
    have hupdate := related_update_of_dark (c := c) idle_commits _ (henter t) hbits
    rw [lateDpms_eq]
    exact within_of_chores (idle_chore (c := c)) (chores_notify _) _ hupdate
  rw [disable_eq]
  exact hlate _ (hshut _)

omit [Transport σ] in
theorem balanced_initial (host : σ) {display : Display} (pwm : Option Pwm)
    (regulator : Option Regulator) (hd : display.references = 0) :
    Balanced display (State.initial c host display pwm regulator).display {} where
  references := hd
  matched := by
    simp only [State.initial, hd]
    omega
  stop := rfl
  counting := by simp
  bounded := Nat.le_refl _
  idle _ := ⟨rfl, rfl⟩

/-- Whatever a panel is asked for and whatever fails, its dimming and its vblank references are
in balance. None is held once it is disabled or given up, and all that were granted are returned. -/
theorem vblank_references_balanced (c : Config) (host : σ) (display : Display) (pwm : Option Pwm)
    (regulator : Option Regulator) (hd : display.references = 0) (inputs : List Input) :
    let s := run c (State.initial c host display pwm regulator) inputs
    let disabled := step c s (.request .disable)
    let released := release c s
    Balanced display s.display s.hbm.dimming ∧
      (disabled.display.references = 0 ∧ Balanced display disabled.display disabled.hbm.dimming) ∧
      released.display.references = 0 ∧
        released.display.granted + display.returned = released.display.returned + display.granted := by
  intro s disabled released
  have hinit := balanced_initial (c := c) host pwm regulator hd
  have hs : Balanced display s.display s.hbm.dimming := balanced_run _ hinit inputs
  have hdisabled : Balanced display disabled.display disabled.hbm.dimming :=
    balanced_run s hs [.request .disable]
  have hidle : disabled.hbm.dimming.active = false := by
    have he : disabled = (settle c).after ((disable c).after s) := by
      rw [show disabled = step c s (.request .disable) from rfl, step_eq]
      exact congrArg _ (after_done (disable c) s)
    rw [he]
    exact within_settle idle_settles _ (idle_disable s)
  have hreleased : Balanced display released.display released.hbm.dimming := balance_stopDimming s hs
  have hover : released.hbm.dimming.active = false := stopDimming_idle s
  have hnone : released.display.references = 0 := by rw [hreleased.references, hover]; rfl
  refine ⟨hs, ⟨by rw [hdisabled.references, hidle]; rfl, hdisabled⟩, hnone, ?_⟩
  have hmatched := hreleased.matched
  omega

theorem vblank_references_balanced_after_one_frame :
    let hbm : Hbm.Config := {
      ranges := [⟨0, 255, 100, 200, {}, { commands := [⟨.shortWriteParam, true, 0, [0x53, 0x20]⟩] }, 2⟩]
      exit := {}
      exitStop := {}
      exitFrames := 0
      irc := none }
    let s := Bench.plainRun (some hbm) {} [.request .enable, .request (.setHbm .on), .pulse]
    s.hbm.dimming = ⟨true, 2, 1, some (.range 0)⟩ ∧ Balanced {} s.display s.hbm.dimming := by
  intro hbm s
  have hs := vblank_references_balanced (Bench.plain (some hbm)) ({} : Bench.Host) {} none none rfl
    [.request .enable, .request (.setHbm .on), .pulse]
  exact ⟨by decide +kernel, hs.1⟩

end OledPanel.Panel
