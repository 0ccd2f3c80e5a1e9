import OledPanel.Proofs.Idempotence
import OledPanel.Proofs.LevelBytes

/-! Levels that do not arrive. A level whose message the host does not take is not tracked, whatever
was tracked before, and nothing else is forgotten over it: the range that was entered and the bin that
was left stay as they are. So the next update finds the same level and hands over the same message. -/

namespace OledPanel.Panel

open Dsi (Exchange Recorder Transport)

variable {σ : Type} [Transport σ] {c : Config}

/-! ### Failing updates -/

/-- Bringing a level out fails on a panel that takes levels, because setting the actuator fails. -/
theorem actuate_of_failed_commit {b level : UInt32} {e : Error} {s : State σ}
    (he : (commit c b level).answer s = .error e) :
    s.Live ∧ (actuate c level).answer (restartDimming s) = .error e ∧
      (commit c b level).after s = (actuate c level).after (restartDimming s) := by
  rw [commit, Action.answer_get_bind] at he
  cases hg : s.backlight.gateOpen with
  | false =>
    rw [hg] at he
    cases he
  | true =>
    cases hi : s.initialized with
    | false =>
      rw [hg, hi] at he
      cases he
    | true =>
      refine ⟨⟨hi, hg⟩, ?_⟩
      dsimp only at he
      rw [if_neg (by simp [hg]), if_pos hi, Action.answer_modify_bind, Action.answer_bind] at he
      rw [commit_of_live ⟨hi, hg⟩]
      obtain ⟨d, ha, hp, h⟩ | ⟨-, hp, -⟩ := present_cases (c := c) b level (restartDimming s)
      · rw [hp] at he
        cases he
        rw [hp, h]
        exact ⟨ha, rfl⟩
      · rw [hp] at he
        cases he

/-! ### Leaving a bin -/

/-- A panel that leaves its bin forgets the level tracked. -/
def leaveBin (c : Config) (s : State σ) : State σ :=
  match c.actuator with
  | .bins _ =>
    if s.backlight.bin = none then s
    else { s with backlight.bin := none, backlight.level := none }
  | _ => s

/-- Where no bin expresses the brightness the level is written, after the bin was left. -/
theorem actuate_of_direct {s : State σ} (hd : Direct c s.backlight) (level : UInt32) :
    actuate c level s = writeLevel c level (leaveBin c s) := by
  obtain hc | ⟨bins, hc, hb⟩ := hd
  · rw [actuate, leaveBin, hc]
  · rw [actuate, leaveBin, hc]
    dsimp only
    rw [writeBin, Action.get_bind]
    dsimp only
    rw [hb, Action.modify_bind]
    dsimp only
    by_cases hbin : s.backlight.bin = none
    · have hs : { s with backlight.bin := none } = s := by rw [← hbin]
      rw [if_pos hbin, if_neg (by simp [hbin]), hs]
    · rw [if_neg hbin, if_pos (Ne.symm hbin)]
      rfl

theorem direct_of_failed (hc : c.actuator = .dcs ∨ ∃ bins, c.actuator = .bins bins) {level : UInt32}
    {e : Error} {s : State σ} (he : (actuate c level).answer s = .error e) : Direct c s.backlight := by
  obtain hc | ⟨bins, hc⟩ := hc
  · exact .inl hc
  · refine .inr ⟨bins, hc, ?_⟩
    rw [actuate, hc] at he
    dsimp only at he
    rw [writeBin, Action.answer_get_bind] at he
    cases hb : binOf bins s.backlight with
    | none => rfl
    | some i =>
      have henter : Action.Succeeds (if some i ≠ s.backlight.bin then enterBin c bins i else pure () :
          Action (State σ) Unit) :=
        Action.Succeeds.ite (fun _ => succeeds_enterBin bins i) fun _ => Action.Succeeds.pure ()
      rw [hb] at he
      obtain ⟨u, hu⟩ := henter { s with backlight.bin := some i }
      cases hu.symm.trans he

omit [Transport σ] in
/-- Leaving a bin concerns the bin and the level tracked, which may be forgotten. -/
theorem leaveBin_frame (s : State σ) : ∃ bin level,
    leaveBin c s = { s with backlight.bin := bin, backlight.level := level } ∧
      (level = s.backlight.level ∨ level = none) := by
  unfold leaveBin
  split
  · split
    · exact ⟨s.backlight.bin, s.backlight.level, rfl, .inl rfl⟩
    · exact ⟨none, none, rfl, .inr rfl⟩
  · exact ⟨s.backlight.bin, s.backlight.level, rfl, .inl rfl⟩

omit [Transport σ] in
/-- A bin that was left is not left again. -/
theorem leaveBin_of_left {s t : State σ} (h : t.backlight.bin = (leaveBin c s).backlight.bin) :
    leaveBin c t = t := by
  unfold leaveBin at h ⊢
  split at h
  · refine if_pos ?_
    split at h
    · next hs => exact h.trans hs
    · exact h
  · rfl

/-! ### Levels that do not arrive -/

/-- Another level than the one tracked is written by its message. -/
theorem record_writeLevel {level : UInt32} {s : State (Recorder σ)} (hl : level ≤ 0xFFFF)
    (hs : s.backlight.level ≠ some level) : let m := c.backlight.levelMessage level
    ((writeLevel c level).after s).host.record = s.host.record ++ [⟨m, s.host.reply m⟩] := by
  intro m
  rw [writeLevel, Action.after_get_bind, after_onHost]
  exact (Backlight.Config.sent_of_other hl hs s.host).1

/-- A level whose message fails was not the one tracked. -/
theorem writeLevel_of_failed {level : UInt32} {why : TransferFault} {s : State (Recorder σ)}
    (he : (writeLevel c level).answer s = .error (.transfer Dsi.setBrightness why)) :
    level ≤ 0xFFFF ∧ s.backlight.level ≠ some level ∧
      ¬Exchange.Taken
        ⟨c.backlight.levelMessage level, s.host.reply (c.backlight.levelMessage level)⟩ := by
  rw [writeLevel, Action.answer_get_bind, answer_onHost] at he
  rcases UInt32.lt_or_le 0xFFFF level with habove | hmax
  · rw [Backlight.Config.writeLevel_of_above habove] at he
    cases he
  · have hs : s.backlight.level ≠ some level := fun hs => by
      rw [hs, Backlight.Config.writeLevel_of_shown hmax] at he
      cases he
    obtain ⟨-, htaken⟩ := Backlight.Config.sent_of_other (c := c.backlight) hmax hs s.host
    refine ⟨hmax, hs, fun ht => ?_⟩
    rw [htaken.mpr ht] at he
    cases he

/-- An update of a panel that takes levels, on which the level is found at once, another is tracked
and no bin is left any more, is one message. -/
theorem record_update {level : UInt32} {s : State (Recorder σ)} (hs : s.Live)
    (hl : levelOf c s.backlight.wanted s = .ok level s) (hmax : level ≤ 0xFFFF)
    (hn : s.backlight.level ≠ some level) (hd : Direct c s.backlight)
    (hb : leaveBin c (restartDimming s) = restartDimming s) : let m := c.backlight.levelMessage level
    ((update c).after s).host.record = s.host.record ++ [⟨m, s.host.reply m⟩] := by
  intro m
  have hanswer : (levelOf c s.backlight.wanted).answer s = .ok level := by rw [Action.answer, hl]
  have hafter : (levelOf c s.backlight.wanted).after s = s := by rw [Action.after, hl]
  have hshows : ¬s.shows level := by simp [State.shows, hn]
  obtain ⟨d, -, -, -, hupdate⟩ := update_frame (c := c) s
  have hcommit := updateLevel_of_found hanswer
  rw [hafter, if_neg hshows] at hcommit
  obtain ⟨k, hk⟩ := restartDimming_frame s
  have hactuate : ((actuate c level).after (restartDimming s)).host.record =
      s.host.record ++ [⟨m, s.host.reply m⟩] := by
    have hdirect : Direct c (restartDimming s).backlight := by
      rw [hk]
      exact hd
    rw [Action.after, actuate_of_direct hdirect, hb, ← Action.after, hk]
    exact record_writeLevel hmax hn
  rw [hupdate, hcommit]
  obtain ⟨e, -, h⟩ | ⟨-, d, a, h⟩ := commit_cases (c := c) hs s.backlight.wanted level
  · rw [h]
    exact hactuate
  · rw [h]
    exact hactuate

/-- What is left of bringing out a level whose message failed: the level tracked is another, nothing
else that an update looks at is changed, and a bin that was left stays so. -/
structure Missed (c : Config) (level : UInt32) (s t : State (Recorder σ)) : Prop where
  bounded : level ≤ 0xFFFF
  tracked : t.backlight.level ≠ some level
  levelBits : t.backlight.levelBits = s.backlight.levelBits
  held : t.backlight.held = s.backlight.held
  range : t.hbm.range = s.hbm.range
  live : t.Live
  direct : Direct c t.backlight
  left : leaveBin c (restartDimming t) = restartDimming t
  record : let m := c.backlight.levelMessage level
    ∃ reason, t.host.record = s.host.record ++ [⟨m, .error reason⟩]

theorem missed_of_failed_commit (hc : c.actuator = .dcs ∨ ∃ bins, c.actuator = .bins bins)
    {b level : UInt32} {why : TransferFault} {s : State (Recorder σ)}
    (he : (commit c b level).answer s = .error (.transfer Dsi.setBrightness why)) :
    Missed c level s ((commit c b level).after s) := by
  obtain ⟨hlive, hfailed, hafter⟩ := actuate_of_failed_commit he
  have hdirect := direct_of_failed hc hfailed
  have hactuate := actuate_of_direct hdirect level
  rw [Action.answer, hactuate, ← Action.answer] at hfailed
  rw [hafter, Action.after, hactuate, ← Action.after]
  obtain ⟨hbounded, hlevel, hfault⟩ := writeLevel_of_failed hfailed
  have hrecord := record_writeLevel (c := c) hbounded hlevel
  obtain ⟨k, hk⟩ := restartDimming_frame s
  obtain ⟨bin, l, hw, -⟩ := leaveBin_frame (c := c) (restartDimming s)
  have hafter : ∃ g, (writeLevel c level).after (leaveBin c (restartDimming s)) =
      { leaveBin c (restartDimming s) with host := g } :=
    ⟨_, by rw [writeLevel, Action.after_get_bind, after_onHost]⟩
  obtain ⟨g, hg⟩ := hafter
  obtain ⟨n, hn⟩ := restartDimming_frame ({ leaveBin c (restartDimming s) with host := g } : State _)
  rw [hg] at hrecord ⊢
  refine ⟨hbounded, hlevel, ?_, ?_, ?_, ?_, ?_, leaveBin_of_left (s := restartDimming s) ?_, ?_⟩
  · rw [hw, hk]
  · rw [hw, hk]
  · rw [hw, hk]
  · rw [hw, hk]
    exact hlive
  · rw [hk] at hdirect
    rw [hw, hk]
    exact hdirect
  · rw [hn]
  · intro m
    cases hreply : (leaveBin c (restartDimming s)).host.reply m with
    | ok bytes =>
      exact absurd ⟨bytes, hreply⟩ hfault
    | error reason =>
      refine ⟨reason, hrecord.trans ?_⟩
      rw [hreply, hw, hk]

/-- A level whose message fails is sent again. The message was the only one after the level was found,
the level is not tracked, the bits of the last level and whether an update is held are what they were,
and the next update sends that message and no other. -/
theorem failed_level_is_sent_again (c : Config)
    (hc : c.actuator = .dcs ∨ ∃ bins, c.actuator = .bins bins) (s : State (Recorder σ))
    {level : UInt32} {why : TransferFault}
    (hl : (levelOf c s.backlight.wanted).answer s = .ok level)
    (he : (update c).answer s = .error (.transfer Dsi.setBrightness why)) :
    let found := (levelOf c s.backlight.wanted).after s
    let t := (update c).after s
    let m := c.backlight.levelMessage level
    (∃ reason, t.host.record = found.host.record ++ [⟨m, .error reason⟩]) ∧
      t.backlight.level ≠ some level ∧ t.backlight.levelBits = s.backlight.levelBits ∧
      t.backlight.held = s.backlight.held ∧
      ∃ reply, ((update c).after t).host.record = t.host.record ++ [⟨m, reply⟩] := by
  intro found t m
  obtain ⟨-, hcommit, hupdate⟩ := commit_of_failed_update hl he
  have hmissed : Missed c level found t := by
    rw [show t = _ from hupdate]
    exact missed_of_failed_commit hc hcommit
  have hbacklight : found.backlight = s.backlight := (enters_levelOf (c := c) _ s).backlight
  have hagain : levelOf c t.backlight.wanted t = .ok level t :=
    levelOf_again hl (demand_update s) hmissed.range
  refine ⟨hmissed.record, hmissed.tracked, ?_, ?_, _, record_update hmissed.live hagain hmissed.bounded
    hmissed.tracked hmissed.direct hmissed.left⟩
  · rw [hmissed.levelBits, hbacklight]
  · rw [hmissed.held, hbacklight]

/-- On the way out of low power the bin is left, and the level that was on the panel before is written,
which the host does not take. -/
theorem failed_level_is_sent_again_out_of_bin :
    let low : LowPower.Bin :=
      ⟨"low", 30, { commands := [⟨.shortWriteParam, true, 0, [0xE1, 0x01]⟩] }⟩
    let c : Config := { Bench.plain none with actuator := .bins [low] }
    let host : Bench.Host := { failing := [Dsi.setBrightness] }
    let s := (enterDpms .on).after (run c (State.initial c ({ host } : Recorder Bench.Host) {} none none)
      [.request .enable, .request (.setBrightness 10), .request .enterLp1])
    let t := (update c).after s
    let m := c.backlight.levelMessage 10
    (s.backlight.bin = some 0 ∧ t.backlight.bin = none) ∧
      t.host.record.map (fun e => (e.message.tx, decide e.Taken)) =
        [([0x51, 0x7F], false), ([0x51, 0x0A], false), ([0xE1, 0x01], true), ([0x51, 0x0A], false)] ∧
      t.backlight.level ≠ some 10 ∧
      ∃ reply, ((update c).after t).host.record = t.host.record ++ [⟨m, reply⟩] := by
  intro low c host s t m
  have hleft : s.backlight.bin = some 0 ∧ t.backlight.bin = none := by decide +kernel
  have hsent : t.host.record.map (fun e => (e.message.tx, decide e.Taken)) =
      [([0x51, 0x7F], false), ([0x51, 0x0A], false), ([0xE1, 0x01], true), ([0x51, 0x0A], false)] := by
    decide +kernel
  have hl : (levelOf c s.backlight.wanted).answer s = .ok 10 := by decide +kernel
  have he : (update c).answer s =
      .error (.transfer Dsi.setBrightness (.host "injected failure")) := by decide +kernel
  -- From here on the state is not evaluated any more.
  clear_value s
  obtain ⟨-, hlevel, -, -, hagain⟩ := failed_level_is_sent_again c (.inr ⟨[low], rfl⟩) s hl he
  exact ⟨hleft, hsent, hlevel, hagain⟩

end OledPanel.Panel
