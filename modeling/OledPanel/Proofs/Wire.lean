import Mathlib.Data.List.Induction
import OledPanel.Bench.Plain
import OledPanel.Proofs.Recording
import OledPanel.Proofs.Turns
import OledPanel.Proofs.Updates

/-! The levels a panel is sent. A level is written where it differs from the one tracked before,
and it is tracked from then on. A level is tracked while the panel is off as well, so the levels
written since power-on are the changes of the level tracked: a panel that is powered on at the
level tracked last is sent none. -/

namespace OledPanel

namespace Backlight.Config

/-- The message that writes a level. -/
def levelMessage (c : Config) (level : UInt32) : Dsi.Message where
  type := if c.isWide then .longWrite else .shortWriteParam
  tx := Dsi.setBrightness :: c.encode level
  last := true

theorem plain?_encode (c : Config) (level : UInt32) :
    Dsi.plain? (Dsi.setBrightness :: c.encode level) true = some (c.levelMessage level) := by
  unfold Dsi.plain? encode levelMessage
  split <;> simp_all [encode, Dsi.PacketType.ofLength?]

end Backlight.Config

namespace Panel

open OledPanel.Action (Succeeds Within)
open Dsi (Exchange Message Recorder Transport)

/-- The levels lead from one level tracked to another, each other than the one before. -/
def Follows : Option UInt32 → List UInt32 → Option UInt32 → Prop
  | before, [], after => after = before
  | before, level :: levels, after => before ≠ some level ∧ Follows (some level) levels after

theorem Follows.append {a b d : Option UInt32} {ls ms : List UInt32} (h : Follows a ls b)
    (k : Follows b ms d) : Follows a (ls ++ ms) d := by
  induction ls generalizing a with
  | nil =>
    obtain rfl : b = a := h
    exact k
  | cons l ls ih => exact ⟨h.1, ih h.2⟩

theorem Follows.getLast? {a : Option UInt32} {ls : List UInt32} {l : UInt32} (h : Follows a ls (some l))
    (hne : ls ≠ []) : ls.getLast? = some l := by
  induction ls generalizing a with
  | nil => exact absurd rfl hne
  | cons m ms ih =>
    cases ms with
    | nil =>
      have hl : some l = some m := h.2
      rw [Option.some.inj hl]
      rfl
    | cons n ns =>
      rw [List.getLast?_cons_cons]
      exact ih h.2 (by simp)

variable {σ α : Type} [Transport σ] {c : Config}

/-- A panel that is powered stays so, and the levels it is sent follow on each other. -/
structure Tracks (c : Config) (s t : State (Recorder σ)) : Prop where
  initialized : t.initialized = s.initialized
  levels : s.initialized = true → ∃ ls,
    t.host.writes Dsi.setBrightness =
      s.host.writes Dsi.setBrightness ++ ls.map c.backlight.levelMessage ∧
    Follows s.backlight.level ls t.backlight.level

instance : IsPreorder (State (Recorder σ)) (Tracks c) where
  refl s := ⟨rfl, fun _ => ⟨[], by simp, rfl⟩⟩
  trans s t u hst htu := by
    refine ⟨htu.initialized.trans hst.initialized, fun hs => ?_⟩
    obtain ⟨ls, hls, hfl⟩ := hst.levels hs
    obtain ⟨ms, hms, hfm⟩ := htu.levels (hst.initialized.trans hs)
    refine ⟨ls ++ ms, ?_, hfl.append hfm⟩
    rw [hms, hls, List.append_assoc, List.map_append]

omit [Transport σ] in
theorem tracks_of_eq {s t : State (Recorder σ)} (hi : t.initialized = s.initialized)
    (hw : t.host.writes Dsi.setBrightness = s.host.writes Dsi.setBrightness)
    (hl : t.backlight.level = s.backlight.level) : Tracks c s t := by
  refine ⟨hi, fun _ => ⟨[], ?_, hl⟩⟩
  rw [hw, List.map_nil, List.append_nil]

/-- The panel has the brightness command, and nothing else writes brightness. -/
structure OwnsBrightness (c : Config) : Prop where
  actuator : c.actuator = .dcs
  sets : ∀ set, c.Has set → ∀ m ∈ set.messages, m.cmd ≠ Dsi.setBrightness
  irc : ∀ irc, c.irc? = some irc → irc.address ≠ Dsi.setBrightness

/-- Without faults the levels of a panel follow on each other. -/
abbrev Tracking (c : Config) : State (Recorder σ) → State (Recorder σ) → Prop :=
  Recorded (fun s => s.gamma.Laid) Exchange.Taken (Tracks c)

omit [Transport σ] in
theorem tracking_of_eq {s t : State (Recorder σ)} (hh : t.host = s.host) (hg : t.gamma = s.gamma)
    (hi : t.initialized = s.initialized) (hl : t.backlight.level = s.backlight.level) :
    Tracking c s t := by
  refine recorded_of_eq hh (fun hs => ?_) fun _ => tracks_of_eq hi (by rw [hh]) hl
  rw [hg]
  exact hs

theorem tracking_of_transfer (s : State (Recorder σ)) {m : Message} (hm : s.gamma.Laid →
    m.cmd ≠ Dsi.setBrightness) :
    Tracking c s { s with host := (Dsi.transfer m).after s.host } :=
  recorded_of_transfer rfl id fun hs _ => tracks_of_eq rfl (Recorder.writes_transfer_of_ne (hm hs) _) rfl

theorem tracking_chore (hc : OwnsBrightness c) (s t : State (Recorder σ)) (h : Chore c s t) :
    Tracking c s t := by
  cases h with
  | transfer hm =>
    refine tracking_of_transfer s fun hs => ?_
    obtain ⟨set, hset, hm⟩ | hm := hm.cmd hs
    · exact hc.sets set hset _ hm
    · intro he
      rw [he] at hm
      exact absurd hm (by decide)
  | gamma g hg => exact recorded_of_eq rfl hg fun _ => tracks_of_eq rfl rfl rfl
  | backlight b hl hb => exact tracking_of_eq rfl rfl rfl hl
  | _ => exact tracking_of_eq rfl rfl rfl rfl

theorem tracking_unaware (hc : OwnsBrightness c) :
    Unaware c (Tracking c : State (Recorder σ) → _ → Prop) where
  task s t h := tracking_chore hc s t h.chore
  dims _ _ _ _ := tracking_of_eq rfl rfl rfl rfl
  ask s irc hirc := tracking_of_transfer s fun _ => hc.irc irc hirc
  store s irc bytes m hirc hm := by
    refine tracking_of_transfer s fun _ => ?_
    rw [Message.cmd, (Dsi.plain?_eq hm).1]
    exact hc.irc irc hirc
  keep _ _ _ := tracking_of_eq rfl rfl rfl rfl
  mode _ _ := tracking_of_eq rfl rfl rfl rfl

/-! ### Levels -/

/-- A level is written where it is not the one tracked, and writing it goes well if the host takes
the message. -/
theorem writeLevel_cases (level : UInt32) (s : State (Recorder σ)) :
    (writeLevel c level).after s = s ∧
      ((writeLevel c level).answer s = .ok () → s.backlight.level = some level) ∨
    s.backlight.level ≠ some level ∧ (writeLevel c level).after s =
        { s with host := (Dsi.transfer (c.backlight.levelMessage level)).after s.host } ∧
      (Exchange.Taken ⟨c.backlight.levelMessage level, s.host.reply (c.backlight.levelMessage level)⟩ →
        (writeLevel c level).answer s = .ok ()) := by
  have hwrite : (Dsi.write Dsi.setBrightness (c.backlight.encode level) : Action (Recorder σ) Unit) =
      discard (Dsi.transfer (c.backlight.levelMessage level)) :=
    Dsi.writeBuffer_eq (c.backlight.plain?_encode level)
  have hafter : (writeLevel c level).after s =
      { s with host := (c.backlight.writeLevel s.backlight.level level).after s.host } :=
    after_onHost _ s
  have hanswer : (writeLevel c level).answer s =
      (c.backlight.writeLevel s.backlight.level level).answer s.host := answer_onHost _ s
  rw [hafter, hanswer, Backlight.Config.writeLevel]
  split
  · exact .inl ⟨rfl, nofun⟩
  · split
    · next h => exact .inl ⟨rfl, fun _ => h⟩
    · next h =>
      refine .inr ⟨h, ?_, ?_⟩
      · rw [hwrite, Action.after_discard]
      · rintro ⟨rx, hrx⟩
        rw [hwrite, Action.answer_discard, Recorder.answer_transfer hrx]
        rfl

theorem writes_levelMessage (level : UInt32) (r : Recorder σ) :
    ((Dsi.transfer (c.backlight.levelMessage level)).after r).writes Dsi.setBrightness =
      r.writes Dsi.setBrightness ++ [c.backlight.levelMessage level] := by
  obtain ⟨htx, hread⟩ := Dsi.plain?_eq (c.backlight.plain?_encode level)
  rw [Recorder.writes_transfer, if_pos]
  rw [hread, Message.cmd, htx]
  rfl

/-- Bringing out a level writes it if it is another than the one tracked. -/
theorem tracking_commit (ha : c.actuator = .dcs) (b level : UInt32) :
    Within (Tracking c) (commit c b level : Action (State (Recorder σ)) (Option UInt32)) := by
  intro s
  obtain ⟨m, hm⟩ := restartDimming_frame s
  cases hg : s.backlight.gateOpen with
  | false =>
    rw [commit_of_shut hg]
    exact tracking_of_eq rfl rfl rfl rfl
  | true =>
  cases hi : s.initialized with
  | false =>
    rw [commit_of_unpowered hg hi, hm]
    refine recorded_of_eq rfl id fun _ => ⟨rfl, fun ht => ?_⟩
    rw [hi] at ht
    cases ht
  | true =>
  have hr : Tracking c s (restartDimming s) := by
    rw [hm]
    exact tracking_of_eq rfl rfl rfl rfl
  refine IsTrans.trans _ _ _ hr ?_
  have hactuate : actuate c level = (writeLevel c level : Action (State (Recorder σ)) Unit) := by
    rw [actuate, ha]
  have hcases := commit_cases (c := c) ⟨hi, hg⟩ b level
  rw [hactuate] at hcases
  obtain ⟨e, he, h⟩ | ⟨hok, d, k, h⟩ := hcases
  · rw [h]
    obtain ⟨hw, -⟩ | ⟨-, hw, htaken⟩ := writeLevel_cases (c := c) level (restartDimming s)
    · rw [hw]
      exact refl _
    · rw [hw]
      refine recorded_of_transfer rfl id fun _ hgood => ?_
      rw [he] at htaken
      cases htaken hgood
  · rw [h]
    obtain ⟨hw, hlevel⟩ | ⟨hne, hw, -⟩ := writeLevel_cases (c := c) level (restartDimming s)
    · rw [hw]
      exact tracking_of_eq rfl rfl rfl (hlevel hok).symm
    · rw [hw]
      refine recorded_of_transfer rfl id fun _ _ => ⟨rfl, fun _ => ⟨[level], ?_, hne, rfl⟩⟩
      exact writes_levelMessage level _

theorem tracking_update (hc : OwnsBrightness c) :
    Within (Tracking c) (update c : Action (State (Recorder σ)) Unit) := by
  have hblind : Blind c (Tracking c : State (Recorder σ) → _ → Prop) := (tracking_unaware hc).toBlind
  refine Within.bind (Within.get fun s => ?_) fun b => ?_
  · have hlevel := within_levelOf (fun s h i r hh hr _ _ => within_enterRange hblind hh hr s)
      s.backlight.wanted
    refine hlevel.bind fun level => Within.get fun s => ?_
    exact Within.ite (fun _ => Within.pure _) fun _ => tracking_commit hc.actuator _ level
  · cases b with
    | none => exact Within.pure _
    | some b => exact within_of_tasks hblind.task (tasks_notify _)

theorem tracking_admits (hc : OwnsBrightness c) :
    Admits c (Tracking c : State (Recorder σ) → _ → Prop) where
  chore := tracking_chore hc
  count := (tracking_unaware hc).countFrame
  update := tracking_update hc

/-! ### Runs -/

theorem enable_cases (s : State σ) : let t := { s with host := c.sets.on.send.after s.host }
    (enable c).after s = t ∨ (enable c).after s = (lateDpms c .on).after (powered c t) := by
  intro t
  rw [enable, earlyDpms_on, Action.after_pure_bind, Action.after_bind, after_onHost]
  split
  · exact .inr rfl
  · exact .inl rfl

/-- Disabling a panel sends levels that follow on each other up to where the panel counts as off, and
none after that. -/
theorem tracking_disable (hc : OwnsBrightness c) (s : State (Recorder σ)) : ∃ t, Tracking c s t ∧
    Tracking c { t with initialized := false } ((disable c).after s) := by
  have hR : Admits c (Tracking c : State (Recorder σ) → _ → Prop) := tracking_admits hc
  have hU : Unaware c (Tracking c : State (Recorder σ) → _ → Prop) := tracking_unaware hc
  have hoff := hR.chores (chores_send .off) ((drain c).after s)
  rw [after_onHost] at hoff
  refine ⟨_, IsTrans.trans _ _ _ (hR.chores chores_drain s) hoff, ?_⟩
  rw [disable_eq, shutDown_eq]
  refine IsTrans.trans _ _ _ ?_ (within_lateDpms hR.transits .off _)
  refine IsTrans.trans _ _ _ (hU.stopDimming _) ?_
  exact tracking_of_eq rfl rfl rfl rfl

/-- A step sends levels that follow on those before, unless it turns the panel on or off. Then it
does so from the commands for that on. -/
theorem tracking_step (hc : OwnsBrightness c) (s : State (Recorder σ)) (i : Input) :
    (i ≠ .request .enable ∧ Tracking c s (step c s i)) ∨
    ∃ t u, Tracking c s t ∧ u.host = t.host ∧ u.gamma = t.gamma ∧ Tracking c u (step c s i) ∧
      ((i = .request .enable ∧ t.host = c.sets.on.send.after s.host ∧
        u.backlight.level = s.backlight.level) ∨ u.initialized = false) := by
  have hR : Admits c (Tracking c : State (Recorder σ) → _ → Prop) := tracking_admits hc
  have hU : Unaware c (Tracking c : State (Recorder σ) → _ → Prop) := tracking_unaware hc
  rw [step_eq]
  have hsettle := within_settle hR.toSettles ((i.perform c).after s)
  by_cases hi : i = .request .enable
  · subst hi
    have hon := hR.chores (chores_send .on) s
    rw [after_onHost] at hon
    have hperform : (Input.perform c (.request .enable)).after s = (enable c).after s := after_done _ s
    rw [hperform] at hsettle ⊢
    obtain h | h := enable_cases (c := c) s
    · exact .inr ⟨_, _, hon, rfl, rfl, h ▸ hsettle, .inl ⟨rfl, rfl, rfl⟩⟩
    · refine .inr ⟨_, powered c { s with host := c.sets.on.send.after s.host }, hon, rfl, rfl, ?_,
        .inl ⟨rfl, rfl, rfl⟩⟩
      rw [h] at hsettle ⊢
      exact IsTrans.trans _ _ _ (within_lateDpms hR.transits .on _) hsettle
  · obtain h | h := perform_cases hR i s
    · exact .inl ⟨hi, IsTrans.trans _ _ _ h hsettle⟩
    · generalize (i.perform c).after s = t at h hsettle ⊢
      cases h with
      | enable => exact absurd rfl hi
      | disable =>
        obtain ⟨t, ht, hrest⟩ := tracking_disable hc s
        have hrest := IsTrans.trans _ _ _ hrest hsettle
        exact .inr ⟨t, { t with initialized := false }, ht, rfl, rfl, hrest, .inr rfl⟩
      | irc on => exact .inl ⟨hi, IsTrans.trans _ _ _ (within_updateIrc hU.toCompensates on s) hsettle⟩
      | hbm hh _ _ => exact .inl ⟨hi, IsTrans.trans _ _ _ (within_changeHbm hU hR.update hh _ s) hsettle⟩

/-- The levels sent to a panel in a run since the commands to power on were sent last. -/
structure Sent (c : Config) (start : State (Recorder σ)) (inputs is js : List Input)
    (ls : List UInt32) : Prop where
  split : inputs = is ++ .request .enable :: js
  last : .request .enable ∉ js
  writes : (run c start inputs).host.writes Dsi.setBrightness =
    (c.sets.on.send.after (run c start is).host).writes Dsi.setBrightness ++
      ls.map c.backlight.levelMessage
  follows : Follows (run c start is).backlight.level ls (run c start inputs).backlight.level

theorem sent_of_run (hc : OwnsBrightness c) (start : State (Recorder σ)) (hg : start.gamma.Laid)
    (hi : start.initialized = false) (inputs : List Input) :
    let s := run c start inputs
    s.gamma.Laid ∧ ((∀ e ∈ s.host.record, e.Taken) → s.initialized = true →
      ∃ is js ls, Sent c start inputs is js ls) := by
  -- From the right: the last step goes on from the power-on before it, or is one itself.
  induction inputs using List.reverseRecOn with
  | nil =>
    refine ⟨hg, fun _ h => ?_⟩
    rw [run_nil, hi] at h
    cases h
  | append_singleton is i ih =>
    obtain ⟨hlaid, ih⟩ := ih
    have hrun : run c start (is ++ [i]) = step c (run c start is) i := run_append c start is [i]
    rw [hrun]
    obtain ⟨hne, h⟩ | ⟨t, u, ht, huh, hug, hu, h⟩ := tracking_step hc (run c start is) i
    · obtain ⟨hlaid', hpre, h⟩ := h hlaid
      refine ⟨hlaid', fun hgood hs => ?_⟩
      have htracks := h hgood
      have hpowered := htracks.initialized.symm.trans hs
      obtain ⟨ks, js, ls, hsent⟩ := ih (fun e he => hgood e (hpre.subset he)) hpowered
      obtain ⟨ms, hms, hfm⟩ := htracks.levels hpowered
      have hlast : .request .enable ∉ js ++ [i] := by simp [hsent.last, hne.symm]
      refine ⟨ks, js ++ [i], ls ++ ms, by simp [hsent.split], hlast, ?_, ?_⟩
      · rw [hrun, hms, hsent.writes, List.append_assoc, List.map_append]
      · rw [hrun]
        exact hsent.follows.append hfm
    · obtain ⟨hlaid', -, -⟩ := ht hlaid
      rw [← hug] at hlaid'
      obtain ⟨hlaid', -, hu⟩ := hu hlaid'
      refine ⟨hlaid', fun hgood hs => ?_⟩
      have htracks := hu hgood
      have hpowered := htracks.initialized.symm.trans hs
      obtain ⟨rfl, hth, hl⟩ | h := h
      · obtain ⟨ls, hls, hfl⟩ := htracks.levels hpowered
        refine ⟨is, [], ls, rfl, by simp, ?_, ?_⟩
        · rw [hrun, hls, huh, hth]
        · rw [hrun, ← hl]
          exact hfl
      · rw [h] at hpowered
        cases hpowered

/-- The level tracked by a powered panel is the last one the panel was sent since power-on exactly
if it was sent any. It was not if no level but the one tracked at power-on has come up since. -/
theorem level_sent_since_power_on (hc : OwnsBrightness c) (host : σ) (display : Display)
    (pwm : Option Pwm) (regulator : Option Regulator) (inputs : List Input) :
    let start := State.initial c ({ host } : Recorder σ) display pwm regulator
    let s := run c start inputs
    (∀ e ∈ s.host.record, e.Taken) → s.initialized = true →
      ∀ l, s.backlight.level = some l → ∃ is js ls, Sent c start inputs is js ls ∧
        ((ls.map c.backlight.levelMessage).getLast? = some (c.backlight.levelMessage l) ↔ ls ≠ []) ∧
        (ls = [] → (run c start is).backlight.level = some l) := by
  intro start s hgood hs l hl
  have hlaid : start.gamma.Laid := laid_initial c _ display pwm regulator
  obtain ⟨is, js, ls, hsent⟩ := (sent_of_run hc start hlaid rfl inputs).2 hgood hs
  have hfollows : Follows (run c start is).backlight.level ls (some l) := hl ▸ hsent.follows
  refine ⟨is, js, ls, hsent, ⟨?_, fun hne => ?_⟩, ?_⟩
  · rintro hlast rfl
    cases hlast
  · rw [List.getLast?_map, hfollows.getLast? hne]
    rfl
  · rintro rfl
    exact hfollows.symm

theorem level_sent_since_power_on_at_first_enable :
    let c := Bench.plain none
    let start := State.initial c ({ host := {} } : Recorder Bench.Host) {} none none
    let inputs := [.request .enable]
    ∃ is js ls, Sent c start inputs is js ls ∧
      ((ls.map c.backlight.levelMessage).getLast? = some (c.backlight.levelMessage 127) ↔ ls ≠ []) ∧
      (ls = [] → (run c start is).backlight.level = some 127) := by
  intro c start inputs
  have hc : OwnsBrightness c := by
    refine ⟨rfl, fun set hset => ?_, nofun⟩
    cases hset <;> simp_all [c, Bench.plain, Dsi.CommandSet.messages]
  have hgood : ∀ e ∈ (run c start inputs).host.record, e.Taken := by decide +kernel
  exact level_sent_since_power_on hc ({} : Bench.Host) {} none none inputs hgood
    (by decide +kernel) 127 (by decide +kernel)

/-- A level tracked before power-on is not sent after it. -/
theorem level_tracked_before_power_on :
    let s := Bench.plainRun none {} [.request (.setBrightness 200), .request .enable]
    (Config.ofNode (Bench.plainNode []) false).toOption = some (Bench.plain none) ∧
      s.initialized = true ∧ s.backlight.gateOpen = true ∧ s.backlight.level = some 200 ∧
      s.host.log = #[] := by
  decide +kernel

end Panel
end OledPanel
