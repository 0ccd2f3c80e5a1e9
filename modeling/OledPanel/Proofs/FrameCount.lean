import OledPanel.Bench.Plain
import OledPanel.Proofs.Links

/-! Dimming ends with the last of the frames it was asked for. At every moment of a run what dimming
has left to count is the frames asked for last without those that came since it was asked for or its
count started again, so it is over when as many have come, and not before unless counting is given up
or the panel is shut down. It then tells a panel that is powered, once. -/

namespace OledPanel.Panel

open Dsi (Transport)

variable {σ : Type}

/-! ### Beats -/

/-- The beats of moments, the latest first. -/
def beats (ms : List (Moment σ)) : List Beat := (ms.map (·.beat)).reverse

/-- The frames asked for last, and what ends them. -/
def asked : List Beat → Option (Nat × Hbm.Stop)
  | [] => none
  | .start frames stop :: _ => some (frames, stop)
  | .restart :: past | .frame :: past | .failure :: past | .shutDown :: past => asked past

/-- The frames that came since dimming was asked for last or its count started again. -/
def counted : List Beat → Nat
  | .frame :: past => counted past + 1
  | .failure :: past | .shutDown :: past => counted past
  | [] | .start _ _ :: _ | .restart :: _ => 0

theorem beats_cons (m : Moment σ) (ms : List (Moment σ)) : beats (m :: ms) = beats ms ++ [m.beat] := by
  simp [beats]

/-- A vblank reference is held, and the frames left to count are those asked for without those that
were counted. -/
structure Tally (past : List Beat) (d : Hbm.Dimming) (references : Nat) : Prop where
  held : 0 < references
  left : 0 < d.left
  count : d.left + counted past = d.total
  stop : ∃ stop, d.stop = some stop ∧ asked past = some (d.total, stop)

/-- Dimming that is active tallies with the beats before. -/
def Tallies (past : List Beat) (s : State σ) : Prop :=
  s.hbm.dimming.active = true → Tally past s.hbm.dimming s.display.references

theorem tallies_of_idle {past : List Beat} {s : State σ} (h : s.hbm.dimming.active = false) :
    Tallies past s := fun ha => by
  rw [h] at ha
  cases ha

variable [Transport σ] {c : Config}

/-! ### The end of dimming -/

/-- Dimming is over: the vblank reference is given back, a panel that is powered is told once, and
compensation that waited is switched on. -/
def ended (c : Config) (stop : Hbm.Stop) (s : State σ) : State σ :=
  let t := { s with display := s.display.release, hbm.dimming := {} }
  (settleIrc c).after (if s.initialized then (announce c (stopSet c stop)).after t else t)

theorem stopDimming_eq_ended {s : State σ} {stop : Hbm.Stop} (ha : s.hbm.dimming.active = true)
    (hs : s.hbm.dimming.stop = some stop) : (stopDimming c).after s = ended c stop s := by
  rw [stopDimming, Action.after_get_bind]
  dsimp only
  rw [if_pos ha, Action.after_set_bind, hs, ended]
  dsimp only
  split
  · rw [Action.after_attempt_bind]
  · rfl

theorem countFrame_of_failure {s : State σ} (ha : s.hbm.dimming.active = true) :
    (countFrame c false).after s = (stopDimming c).after { s with hbm.dimming.left := 0 } := by
  have hnone : framesAfter s.hbm.dimming false = 0 := rfl
  rw [countFrame_of_active ha, if_pos hnone]

/-- Dimming that is given up is over, as is that of a panel that is shut down. -/
theorem idle_failure (s : State σ) : ((countFrame c false).after s).hbm.dimming.active = false := by
  cases ha : s.hbm.dimming.active with
  | false =>
    rw [countFrame_of_idle ha]
    exact ha
  | true =>
    rw [countFrame_of_failure ha]
    exact stopDimming_idle _

theorem idle_shutDown (s : State σ) : ((shutDown c).after s).hbm.dimming.active = false := by
  rw [shutDown_eq]
  exact stopDimming_idle _

/-- A frame that is counted is one less, and the last one ends dimming. -/
theorem countFrame_of_arrived {s : State σ} (ha : s.hbm.dimming.active = true)
    (hl : 0 < s.hbm.dimming.left) : (countFrame c true).after s =
      if s.hbm.dimming.left = 1 then (stopDimming c).after { s with hbm.dimming.left := 0 }
      else { s with hbm.dimming.left := s.hbm.dimming.left - 1 } := by
  have hlast : framesAfter s.hbm.dimming true = 0 ↔ s.hbm.dimming.left = 1 := by
    simp only [framesAfter, if_true]
    omega
  rw [countFrame_of_active ha]
  simp only [hlast]
  rfl

/-! ### The count -/

omit [Transport σ] in
theorem tallies_start {past : List Beat} {s : State σ} {frames : Nat} {stop : Hbm.Stop}
    (hs : Tallies past s) (ha : (⟨s, .start frames stop⟩ : Moment σ).Apt) :
    Tallies (.start frames stop :: past) ((startDimming frames stop).after s) := by
  obtain ⟨hframes, hheld⟩ := ha
  obtain ⟨-, hzero | ⟨hidle, hrefused⟩⟩ | ⟨-, h⟩ := startDimming_cases frames stop s
  · exact absurd hzero hframes
  · simp [hidle, hrefused] at hheld
  · rw [h]
    refine fun _ => ⟨?_, Nat.pos_of_ne_zero hframes, rfl, stop, rfl, rfl⟩
    show 0 < Display.references (if s.hbm.dimming.active then s.display else s.display.lent)
    split
    · next hactive => exact (hs hactive).held
    · exact Nat.succ_pos _

omit [Transport σ] in
theorem tallies_restart {past : List Beat} {s : State σ} (hs : Tallies past s) :
    Tallies (.restart :: past) (restartDimming s) := by
  unfold restartDimming
  split
  · next ha =>
    have h := hs ha
    have htotal : 0 < s.hbm.dimming.total := h.count ▸ Nat.add_pos_left h.left _
    exact fun _ => ⟨h.held, htotal, rfl, h.stop⟩
  · next ha => exact tallies_of_idle (Bool.not_eq_true _ ▸ ha)

theorem tallies_frame {past : List Beat} {s : State σ} (hs : Tallies past s)
    (ha : s.hbm.dimming.active = true) :
    Tallies (.frame :: past) ((countFrame c true).after s) := by
  have h := hs ha
  have hcount := h.count
  have hleft := h.left
  rw [countFrame_of_arrived ha h.left]
  split
  · exact tallies_of_idle (stopDimming_idle _)
  · refine fun _ => ⟨h.held, ?_, ?_, h.stop⟩
    · show 0 < s.hbm.dimming.left - 1
      omega
    · show s.hbm.dimming.left - 1 + (counted past + 1) = s.hbm.dimming.total
      omega

/-- A moment adds its beat to the count. -/
theorem tallies_moment {past : List Beat} {m : Moment σ} (hm : Tallies past m.found)
    (ha : m.Apt) : Tallies (m.beat :: past) (m.left c) := by
  obtain ⟨s, beat⟩ := m
  cases beat with
  | start frames stop => exact tallies_start hm ha
  | restart => exact tallies_restart hm
  | frame => exact tallies_frame hm ha
  | failure => exact tallies_of_idle (idle_failure s)
  | shutDown => exact tallies_of_idle (idle_shutDown s)

theorem Lull.tallies {past : List Beat} {s t : State σ} (h : Lull s t) (hs : Tallies past s) :
    Tallies past t := by
  rw [Tallies, h.dimming, h.references]
  exact hs

/-- Linked moments add their beats to the count. -/
theorem tallies_linked {past : List Beat} {s t : State σ} {ms : List (Moment σ)}
    (h : Linked c s ms t) (hs : Tallies past s) : Tallies (beats ms ++ past) t := by
  induction ms generalizing past s with
  | nil => exact Lull.tallies h hs
  | cons m ms ih =>
    obtain ⟨hlull, ha, hrest⟩ := h
    rw [beats_cons, List.append_assoc]
    exact ih hrest (tallies_moment (hlull.tallies hs) ha)

/-! ### The law of a moment -/

/-- The moment ends dimming. -/
def Moment.Ends (c : Config) (m : Moment σ) : Prop :=
  m.found.hbm.dimming.active = true ∧ (m.left c).hbm.dimming.active = false

/-- What is true of a moment after the beats before it. -/
structure Moment.Lawful (c : Config) (past : List Beat) (m : Moment σ) : Prop where
  /-- Dimming becomes active where it is asked for, and nowhere else. -/
  begins : m.found.hbm.dimming.active = false → (m.left c).hbm.dimming.active = true →
    ∃ frames stop, m.beat = .start frames stop
  /-- Dimming that is active ends with the last of the frames asked for, and otherwise as counting is
  given up or the panel is shut down. -/
  ends : m.Ends c ↔ m.found.hbm.dimming.active = true ∧
    (m.beat = .frame ∧ (∃ stop, asked past = some (counted past + 1, stop)) ∨
      m.beat = .failure ∨ m.beat = .shutDown)
  /-- The panel is told with the commands that go with the frames asked for, unless it is shut down. -/
  tells : m.Ends c → ∃ frames stop, asked past = some (frames, stop) ∧ m.left c =
    if m.beat = .shutDown then { ended c stop { m.found with initialized := false } with
      hbm.ircBytes := none
      hbm.range := none }
    else ended c stop m.found
  /-- Nothing is sent where dimming does not end. -/
  silent : ¬m.Ends c → (m.left c).host = m.found.host

/-- Asking for dimming and starting its count again do not end it. -/
theorem lawful_of_asking {past : List Beat} {m : Moment σ}
    (hb : (∃ frames stop, m.beat = .start frames stop) ∨ m.beat = .restart)
    (hbegins : m.found.hbm.dimming.active = false → (m.left c).hbm.dimming.active = true →
      ∃ frames stop, m.beat = .start frames stop)
    (hlasts : m.found.hbm.dimming.active = true → (m.left c).hbm.dimming.active = true)
    (hhost : (m.left c).host = m.found.host) : m.Lawful c past := by
  have hnot : ¬m.Ends c := fun ⟨ha, hover⟩ => by
    rw [hlasts ha] at hover
    cases hover
  refine ⟨hbegins, ⟨fun h => absurd h hnot, ?_⟩, fun h => absurd h hnot, fun _ => hhost⟩
  rintro ⟨-, ⟨hframe, -⟩ | hfailure | hshut⟩ <;> simp_all

/-- Giving counting up and shutting the panel down end dimming that is active. -/
theorem lawful_of_giving_up {past : List Beat} {m : Moment σ} (hm : Tallies past m.found)
    (hb : m.beat = .failure ∨ m.beat = .shutDown) (hover : (m.left c).hbm.dimming.active = false)
    (htells : ∀ stop, m.found.hbm.dimming.active = true → m.found.hbm.dimming.stop = some stop →
      m.left c = if m.beat = .shutDown then { ended c stop { m.found with initialized := false } with
          hbm.ircBytes := none
          hbm.range := none }
        else ended c stop m.found)
    (hsilent : m.found.hbm.dimming.active = false → (m.left c).host = m.found.host) :
    m.Lawful c past := by
  refine ⟨fun _ h => ?_, ⟨fun h => ⟨h.1, .inr hb⟩, fun h => ⟨h.1, hover⟩⟩, fun h => ?_, fun h => ?_⟩
  · rw [hover] at h
    cases h
  · obtain ⟨stop, hstop, hasked⟩ := (hm h.1).stop
    exact ⟨_, stop, hasked, htells stop h.1 hstop⟩
  · refine hsilent ?_
    cases ha : m.found.hbm.dimming.active with
    | false => rfl
    | true => exact absurd ⟨ha, hover⟩ h

theorem lawful_start {past : List Beat} {s : State σ} {frames : Nat} {stop : Hbm.Stop} :
    (⟨s, .start frames stop⟩ : Moment σ).Lawful c past := by
  have hlasts : s.hbm.dimming.active = true →
      ((startDimming frames stop).after s).hbm.dimming.active = true := fun ha => by
    obtain ⟨h, -⟩ | ⟨-, h⟩ := startDimming_cases frames stop s <;> rw [h]
    exact ha
  obtain ⟨d, m, h⟩ := startDimming_frame frames stop s
  have hhost : ((startDimming frames stop).after s).host = s.host := by rw [h]
  exact lawful_of_asking (.inl ⟨frames, stop, rfl⟩) (fun _ _ => ⟨frames, stop, rfl⟩) hlasts hhost

theorem lawful_restart {past : List Beat} {s : State σ} :
    (⟨s, .restart⟩ : Moment σ).Lawful c past := by
  have hactive : (restartDimming s).hbm.dimming.active = s.hbm.dimming.active := by
    unfold restartDimming
    split <;> rfl
  obtain ⟨d, h⟩ := restartDimming_frame s
  have hhost : (restartDimming s).host = s.host := by rw [h]
  refine lawful_of_asking (.inr rfl) (fun hidle hstarted => ?_) (fun ha => hactive.trans ha) hhost
  cases hidle.symm.trans (hactive.symm.trans hstarted)

/-- A frame is the last of those asked for if it is the last one left. -/
theorem lawful_frame {past : List Beat} {s : State σ} (ha : s.hbm.dimming.active = true)
    (h : Tally past s.hbm.dimming s.display.references) :
    (⟨s, .frame⟩ : Moment σ).Lawful c past := by
  obtain ⟨stop, hstop, hasked⟩ := h.stop
  have hcount := h.count
  have hleft := countFrame_of_arrived (c := c) ha h.left
  by_cases hlast : s.hbm.dimming.left = 1
  · rw [if_pos hlast] at hleft
    have hover : ((countFrame c true).after s).hbm.dimming.active = false := by
      rw [hleft]
      exact stopDimming_idle _
    have hended : (countFrame c true).after s = ended c stop s :=
      hleft.trans (stopDimming_eq_ended ha hstop)
    have htotal : s.hbm.dimming.total = counted past + 1 := by omega
    refine ⟨fun hidle => ?_, ⟨fun _ => ⟨ha, .inl ⟨rfl, stop, htotal ▸ hasked⟩⟩, fun _ => ⟨ha, hover⟩⟩,
      fun _ => ⟨_, stop, hasked, hended⟩, fun hnot => absurd ⟨ha, hover⟩ hnot⟩
    cases ha.symm.trans hidle
  · rw [if_neg hlast] at hleft
    have hnot : ¬(⟨s, .frame⟩ : Moment σ).Ends c := fun hends => by
      have hover : ((countFrame c true).after s).hbm.dimming.active = false := hends.2
      rw [hleft] at hover
      cases ha.symm.trans hover
    refine ⟨fun hidle => ?_, ⟨fun h => absurd h hnot, ?_⟩, fun h => absurd h hnot, fun _ => ?_⟩
    · cases ha.symm.trans hidle
    · rintro ⟨-, ⟨-, last, hlast'⟩ | hfailure | hshut⟩
      · obtain ⟨htotal, -⟩ := Prod.mk.inj (Option.some.inj (hasked.symm.trans hlast'))
        omega
      · cases hfailure
      · cases hshut
    · show ((countFrame c true).after s).host = s.host
      rw [hleft]

theorem lawful_failure {past : List Beat} {s : State σ} (hs : Tallies past s) :
    (⟨s, .failure⟩ : Moment σ).Lawful c past := by
  refine lawful_of_giving_up hs (.inl rfl) (idle_failure s) (fun stop ha hstop => ?_) fun hidle => ?_
  · show (countFrame c false).after s = ended c stop s
    rw [countFrame_of_failure ha]
    exact stopDimming_eq_ended ha hstop
  · show ((countFrame c false).after s).host = s.host
    rw [countFrame_of_idle hidle]

theorem lawful_shutDown {past : List Beat} {s : State σ} (hs : Tallies past s) :
    (⟨s, .shutDown⟩ : Moment σ).Lawful c past := by
  refine lawful_of_giving_up hs (.inr rfl) (idle_shutDown s) (fun stop ha hstop => ?_) fun hidle => ?_
  · have hended : (stopDimming c).after { s with initialized := false } =
        ended c stop { s with initialized := false } := stopDimming_eq_ended ha hstop
    show (shutDown c).after s = _
    rw [shutDown_eq, hended]
    rfl
  · have hsame : (stopDimming c).after { s with initialized := false } =
        { s with initialized := false } := stopDimming_of_idle hidle
    show ((shutDown c).after s).host = s.host
    rw [shutDown_eq, hsame]

theorem lawful_of_tallies {past : List Beat} {m : Moment σ} (hm : Tallies past m.found)
    (ha : m.Apt) : m.Lawful c past := by
  obtain ⟨s, beat⟩ := m
  cases beat with
  | start frames stop => exact lawful_start
  | restart => exact lawful_restart
  | frame => exact lawful_frame ha (hm ha)
  | failure => exact lawful_failure hm
  | shutDown => exact lawful_shutDown hm

/-! ### Runs -/

/-- Dimming that is over stays over until it is asked for. -/
theorem exists_start_of_linked {s t : State σ} {ms : List (Moment σ)} (h : Linked c s ms t)
    (hs : s.hbm.dimming.active = false) (ht : t.hbm.dimming.active = true) :
    ∃ m ∈ ms, ∃ frames stop, m.beat = .start frames stop := by
  induction ms generalizing s with
  | nil =>
    rw [Lull.dimming h, hs] at ht
    cases ht
  | cons m ms ih =>
    obtain ⟨hlull, ha, hrest⟩ := h
    have hidle : m.found.hbm.dimming.active = false := by rw [hlull.dimming, hs]
    cases hleft : (m.left c).hbm.dimming.active with
    | true =>
      have hm : m.Lawful c [] := lawful_of_tallies (tallies_of_idle hidle) ha
      exact ⟨m, List.mem_cons_self .., hm.begins hidle hleft⟩
    | false =>
      obtain ⟨n, hn, hstart⟩ := ih hrest hleft
      exact ⟨n, List.mem_cons_of_mem _ hn, hstart⟩

theorem lawful_of_linked {past : List Beat} {s t : State σ} {before after : List (Moment σ)}
    {m : Moment σ} (h : Linked c s (before ++ m :: after) t) (hs : Tallies past s) :
    m.Lawful c (beats before ++ past) := by
  obtain ⟨u, hbefore, hlull, ha, -⟩ := h.split
  exact lawful_of_tallies (hlull.tallies (tallies_linked hbefore hs)) ha

/-- Between two ends dimming is asked for. -/
theorem exists_start_between {s t : State σ} {before between after : List (Moment σ)}
    {m n : Moment σ} (h : Linked c s (before ++ m :: (between ++ n :: after)) t) (hm : m.Ends c)
    (hn : n.Ends c) : ∃ e ∈ between, ∃ frames stop, e.beat = .start frames stop := by
  obtain ⟨u, -, -, -, hrest⟩ := h.split
  obtain ⟨v, hbetween, hlull, -, -⟩ := hrest.split
  exact exists_start_of_linked (hbetween.then_lull hlull) hm.2 hn.1

/-- No vblank that came is still to be counted. -/
def Caught (s : State σ) : Prop := s.hbm.dimming.active = true → s.display.pending = 0

/-- Counting a frame takes no vblank away from dimming that goes on, and brings none. -/
theorem display_countFrame (arrived : Bool) (s : State σ) :
    (((countFrame c arrived).after s).hbm.dimming.active = true →
      ((countFrame c arrived).after s).display = s.display) ∧
    ((countFrame c arrived).after s).display.pending ≤ s.display.pending := by
  cases ha : s.hbm.dimming.active with
  | false =>
    rw [countFrame_of_idle ha]
    exact ⟨fun _ => rfl, Nat.le_refl _⟩
  | true =>
    rw [countFrame_of_active ha]
    split
    · obtain ⟨g, b, h⟩ := stopDimming_frame (c := c) (s := { s with hbm.dimming.left := 0 }) ha
      rw [h]
      refine ⟨nofun, ?_⟩
      simp only [Display.release]
      split <;> omega
    · exact ⟨fun _ => rfl, Nat.le_refl _⟩

theorem caught_countFrames {n : Nat} {s : State σ}
    (hr : s.hbm.dimming.active = true → 0 < s.display.references) (hn : s.display.pending ≤ n) :
    Caught ((countFrames c n).after s) := by
  induction n generalizing s with
  | zero => exact fun _ => Nat.le_zero.mp hn
  | succ n ih =>
    rw [countFrames, Action.after_get_bind]
    cases ha : s.hbm.dimming.active with
    | false => exact fun h => absurd (ha.symm.trans h) (by decide)
    | true =>
      rw [if_pos rfl, Action.after_outcome_bind, onDisplay, Action.answer_within, Action.after_within,
        Display.answer_wait, Display.after_wait]
      by_cases hnone : s.display.pending = 0
      · have hidle : ¬(0 < s.display.references ∧ 0 < s.display.pending) := by omega
        rw [if_neg hidle, if_neg hidle]
        exact fun _ => hnone
      · have hserved : 0 < s.display.references ∧ 0 < s.display.pending :=
          ⟨hr ha, Nat.pos_of_ne_zero hnone⟩
        rw [if_pos hserved, if_pos hserved]
        dsimp only
        rw [(succeeds_countFrame true).after_bind]
        obtain ⟨hsame, hle⟩ := display_countFrame (c := c) true
          { s with display := { s.display with pending := s.display.pending - 1 } }
        refine ih (fun hactive => ?_) (Nat.le_trans hle ?_)
        · rw [hsame hactive]
          exact hr ha
        · show s.display.pending - 1 ≤ n
          omega

/-- Every vblank that comes while dimming is active is counted in the step in which it comes. -/
theorem caught_step {past : List Beat} {s : State σ} (hs : Tallies past s) (i : Input) :
    Caught (step c s i) := by
  have hlinked := (traced_input (c := c) i s).then_lull (lull_drain (c := c) _)
  rw [step_eq, settle_eq]
  exact caught_countFrames (fun ha => (tallies_linked hlinked hs ha).held) (Nat.le_refl _)

theorem caught_run {past : List Beat} {s : State σ} (hs : Tallies past s) (hc : Caught s)
    (is : List Input) : Caught (run c s is) := by
  induction is generalizing past s with
  | nil => exact hc
  | cons i is ih => exact ih (tallies_linked (traced_step i s) hs) (caught_step hs i)

/-- Where no job waits, a pulse is counted as one frame. -/
theorem beats_pulse {s : State σ} (hj : s.refresh.jobs = []) (hc : Caught s)
    (ha : s.hbm.dimming.active = true) (hr : 0 < s.display.references) :
    beats (stepMoments c s .pulse) = [.frame] := by
  have hdrained : (drain c).after ((Input.pulse.perform c).after s) = pulse s :=
    drain_of_none (s := pulse s) hj
  have hpending : (pulse s).display.pending = 1 := by
    simp [pulse, Display.fire, hr, hc ha]
  have hactive : (pulse s).hbm.dimming.active = true := ha
  have hserved : 0 < (pulse s).display.references ∧ 0 < (pulse s).display.pending :=
    ⟨hr, hpending ▸ Nat.one_pos⟩
  have hanswer : Display.wait.answer (pulse s).display = .ok () := by
    rw [Display.answer_wait, if_pos hserved]
  rw [stepMoments, hdrained, hpending, frameMoments]
  dsimp only
  rw [if_pos hactive, hanswer]
  rfl

/-- Dimming lasts as many frames as it is asked for. Whatever a panel is asked for and whatever fails,
the moments of the run account for all that happens to dimming and its vblank references, and each of
them obeys the law: dimming that is active ends at the frame with which as many were counted since it
was asked for or its count started again as it was asked for last, and not before unless a wait fails
or the panel is disabled; as it ends a panel that is powered is told once, and nothing is told
otherwise. It does not end again unless it was asked for in between. A panel that is given up has it
end in the same way. While it is active no vblank waits to be counted, and every pulse is one frame. -/
theorem dimming_lasts_frames_asked (c : Config) (host : σ) (display : Display) (pwm : Option Pwm)
    (regulator : Option Regulator) (inputs : List Input) :
    let start := State.initial c host display pwm regulator
    let s := run c start inputs
    let ms := moments c start inputs
    Linked c start ms s ∧
      (∀ before m after, ms = before ++ m :: after → m.Lawful c (beats before)) ∧
      (∀ before m between n after, ms = before ++ m :: (between ++ n :: after) → m.Ends c →
        n.Ends c → ∃ e ∈ between, ∃ frames stop, e.beat = .start frames stop) ∧
      (∀ (t : State σ) i, ∀ m ∈ stepMoments c t i, m.beat.ComesOf i) ∧
      (s.hbm.dimming.active = false → release c s = s) ∧
      (s.hbm.dimming.active = true →
        (∃ frames stop, asked (beats ms) = some (frames, stop) ∧ release c s = ended c stop s) ∧
          s.display.pending = 0 ∧ beats (stepMoments c s .pulse) = [.frame]) := by
  intro start s ms
  have hlinked : Linked c start ms s := linked_run start inputs
  have hstart : Tallies [] start := tallies_of_idle rfl
  have hend : Tallies (beats ms) s := by
    have h := tallies_linked hlinked hstart
    rwa [List.append_nil] at h
  have hcaught : Caught s := caught_run hstart nofun inputs
  refine ⟨hlinked, fun before m after h => ?_, fun before m between n after h => ?_,
    fun t i m hm => comesOf_step hm, fun ha => stopDimming_of_idle ha, fun ha => ?_⟩
  · have hm := lawful_of_linked (h ▸ hlinked) hstart
    rwa [List.append_nil] at hm
  · exact exists_start_between (h ▸ hlinked)
  · have htally := hend ha
    obtain ⟨stop, hstop, hasked⟩ := htally.stop
    exact ⟨⟨_, stop, hasked, stopDimming_eq_ended ha hstop⟩, hcaught ha,
      beats_pulse (jobs_run rfl inputs) hcaught ha htally.held⟩

/-- Two frames are asked for, and a change of the brightness starts their count again after the first.
The third frame ends dimming and sends the commands of the range. -/
theorem dimming_lasts_frames_asked_after_restart :
    let hbm : Hbm.Config := {
      ranges := [⟨0, 255, 100, 200, {}, { commands := [⟨.shortWriteParam, true, 0, [0x53, 0x20]⟩] }, 2⟩]
      exit := {}
      exitStop := {}
      exitFrames := 0
      irc := none }
    let c := Bench.plain (some hbm)
    let start := State.initial c ({} : Bench.Host) {} none none
    let inputs := [.request .enable, .request (.setHbm .on), .pulse, .request (.setBrightness 100), .pulse,
      .pulse]
    let s := run c start inputs
    beats (moments c start inputs) =
        [.frame, .frame, .restart, .frame, .restart, .start 2 (.range 0), .restart] ∧
      (∃ before m, moments c start inputs = before ++ [m] ∧ m.Ends c ∧
        m.left c = ended c (.range 0) m.found) ∧
      s.hbm.dimming.active = false ∧ s.host.log.back?.map (·.tx) = some [0x53, 0x20] := by
  intro hbm c start inputs s
  have hbeats : beats (moments c start inputs) =
      [.frame, .frame, .restart, .frame, .restart, .start 2 (.range 0), .restart] := by decide +kernel
  obtain ⟨hlinked, hlaw, -⟩ :=
    dimming_lasts_frames_asked c ({} : Bench.Host) {} none none inputs
  refine ⟨hbeats, ?_, by decide +kernel, by decide +kernel⟩
  obtain hnil | ⟨before, m, hsplit⟩ := List.eq_nil_or_concat (moments c start inputs)
  · rw [hnil] at hbeats
    cases hbeats
  · rw [List.concat_eq_append] at hsplit
    have hcons : m.beat :: beats before = beats (moments c start inputs) := by
      rw [hsplit]
      simp [beats]
    obtain ⟨hframe, hbefore⟩ := List.cons.inj (hcons.trans hbeats)
    obtain ⟨p, -, -, hactive, -⟩ := (hsplit ▸ hlinked).split
    rw [Moment.Apt, hframe] at hactive
    have hm : m.Lawful c (beats before) := hlaw before m [] hsplit
    rw [hbefore] at hm
    have hends : m.Ends c := hm.ends.mpr ⟨hactive, .inl ⟨hframe, .range 0, rfl⟩⟩
    obtain ⟨frames, stop, hasked, htold⟩ := hm.tells hends
    obtain ⟨rfl, rfl⟩ := Prod.mk.inj (Option.some.inj hasked)
    rw [if_neg (by simp [hframe])] at htold
    exact ⟨before, m, hsplit, hends, htold⟩

end OledPanel.Panel
