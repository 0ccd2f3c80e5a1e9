import OledPanel.Proofs.TableRegisters
import OledPanel.Proofs.Courses
import OledPanel.Proofs.Updates

/-! The gamma tables that a panel keeps, and those that its registers deliver. A switch sends what
is kept, and a reading keeps what is delivered, so on a panel with timings of 60 Hz and 90 Hz a few
bits tell both: whether the registers deliver the tables of 90 Hz, and whether the 60 Hz timings
keep them. -/

namespace OledPanel

open OledPanel.Action (Ensures Lasting)
open Dsi (Message)

namespace Panel

open Bench (Host)
open Bench.Host (Delivers Harmless)

variable {c : Config} {h : Host}

/-! ### What is kept and what the registers deliver -/

/-- A panel with gamma tables whose timings are all of 60 Hz or 90 Hz, one of them of 60 Hz. No
command set writes the registers of the tables. -/
structure Config.Calibrated (c : Config) : Prop where
  family : c.family = .gamma
  rates : ∀ m ∈ c.timings, m.rate = 60 ∨ m.rate = 90
  otp : ∃ m ∈ c.timings, m.rate = 60
  sets : ∀ set, c.Has set → ∀ m ∈ set.messages, Harmless m

/-- The rate whose tables are meant. -/
def rateOf (overwritten : Bool) : UInt32 := if overwritten then 90 else 60

/-- A panel as far as its gamma tables go. -/
structure View where
  on : Bool
  /-- The registers deliver the tables of 90 Hz. -/
  overwritten : Bool
  /-- Whether the 60 Hz timings keep the tables of 90 Hz, once tables are kept. -/
  kept : Option Bool
  ready : Bool

/-- The tables that are kept. -/
def keptBuffers (c : Config) (h : Host) : Option Bool → List (Option Gamma.Buffer)
  | none => c.timings.map fun _ => none
  | some lost =>
    buffersOf (fun rate => h.calibration (if rate = 60 then rateOf lost else 90)) c.timings

/-- The state is the one viewed, outside high-brightness mode. -/
structure View.Of (c : Config) (h : Host) (v : View) (s : State Host) : Prop where
  host : h.Delivers (h.calibration (rateOf v.overwritten)) s.host
  buffers : s.gamma.buffers = keptBuffers c h v.kept
  ready : s.gamma.ready = v.ready
  on : s.initialized = v.on
  mode : s.hbm.mode = .off
  calm : s.hbm.dimming.active = false
  jobs : s.refresh.jobs = []

/-- Tables are read unless they are there. -/
def View.read (v : View) : View :=
  if v.ready then v else { v with kept := some v.overwritten, ready := true }

/-- The tables of a rate are written to the registers, if any are kept. -/
def View.send (v : View) (rate : Option UInt32) : View :=
  match v.kept, rate with
  | some lost, some rate => { v with overwritten := if rate = 60 then lost else true }
  | _, _ => v

variable {v : View} {s : State Host}

@[simp] theorem View.on_read (v : View) : v.read.on = v.on := by
  unfold View.read
  split <;> rfl

@[simp] theorem View.on_send (v : View) (rate : Option UInt32) : (v.send rate).on = v.on := by
  unfold View.send
  split <;> rfl

theorem View.send_of_none (hk : v.kept = none) (rate : Option UInt32) : v.send rate = v := by
  simp [View.send, hk]

theorem View.send_none (v : View) : v.send none = v := by
  cases hk : v.kept <;> simp [View.send, hk]

theorem View.send_some {lost : Bool} (hk : v.kept = some lost) (rate : UInt32) :
    v.send (some rate) = { v with overwritten := if rate = 60 then lost else true } := by
  simp [View.send, hk]

/-- What has nothing to do with gamma tables does not matter. -/
theorem View.Of.frame (hs : v.Of c h s) {t : State Host} (hh : t.host = s.host)
    (hg : t.gamma = s.gamma) (hi : t.initialized = s.initialized) (hm : t.hbm = s.hbm)
    (hj : t.refresh.jobs = s.refresh.jobs) : v.Of c h t where
  host := hh ▸ hs.host
  buffers := hg ▸ hs.buffers
  ready := hg ▸ hs.ready
  on := hi ▸ hs.on
  mode := hm ▸ hs.mode
  calm := hm ▸ hs.calm
  jobs := hj ▸ hs.jobs

theorem View.Of.sent (hs : v.Of c h s) {g : Host}
    (hg : h.Delivers (h.calibration (rateOf v.overwritten)) g) : v.Of c h { s with host := g } :=
  { hs with host := hg }

/-! ### Switches -/

theorem View.Of.onHost {α : Type} (hs : v.Of c h s) {x : Action Host α}
    (hx : Ensures (h.Delivers (h.calibration (rateOf v.overwritten))) x fun _ =>
      h.Delivers (h.calibration (rateOf v.overwritten))) : v.Of c h ((onHost x).after s) := by
  rw [after_onHost]
  exact hs.sent (hx.after hs.host)

/-- The tables of a timing, once they are kept. -/
theorem buffer?_of_kept {lost : Bool} (hs : s.gamma.buffers = keptBuffers c h (some lost)) (i : Nat) :
    s.buffer? i = (c.rate? (some i)).map fun rate =>
      Gamma.filled (h.calibration (if rate = 60 then rateOf lost else 90)) := by
  rw [State.buffer?, hs, keptBuffers, buffersOf, List.getElem?_map, Config.rate?, Option.bind_some]
  cases c.timings[i]? <;> rfl

theorem of_replayGamma (hs : v.Of c h s) (i : Nat) :
    (v.send (c.rate? (some i))).Of c h ((replayGamma i).after s) := by
  rw [replayGamma, Action.after_get_bind]
  cases hk : v.kept with
  | none =>
    have hnone : s.buffer? i = none := by
      rw [State.buffer?, hs.buffers, hk, keptBuffers, List.getElem?_map]
      cases c.timings[i]? <;> rfl
    rw [View.send_of_none hk, hnone]
    exact hs
  | some lost =>
    rw [buffer?_of_kept (hk ▸ hs.buffers) i]
    cases c.rate? (some i) with
    | none =>
      rw [View.send_none]
      exact hs
    | some rate =>
      have hrate : (if rate = 60 then rateOf lost else 90) =
          rateOf (if rate = 60 then lost else true) := by
        split <;> rfl
      obtain ⟨g, hg, hd⟩ := delivers_sendTables
        (Gamma.length_calibration h (if rate = 60 then rateOf lost else 90)) hs.host
      rw [View.send_some hk, Option.map_some]
      dsimp only
      rw [hg]
      exact { hs with host := hrate ▸ hd }

theorem of_performSwitch (hc : c.Calibrated) (hs : v.Of c h s) (i : Nat) :
    (v.send (c.rate? (some i))).Of c h ((performSwitch c i).after s) := by
  have hkey (tx : List UInt8) (htx : tx = Gamma.unlock ∨ tx = Gamma.lock) {v : View} :
      Ensures (h.Delivers (h.calibration (rateOf v.overwritten))) (Dsi.writeBuffer tx true) fun _ =>
        h.Delivers (h.calibration (rateOf v.overwritten)) := by
    obtain rfl | rfl := htx <;> exact Host.delivers_write _ _ _ (by decide)
  obtain ⟨⟨⟩, hunlocked⟩ := (hkey _ (.inl rfl) (v := v)).answer hs.host
  have htiming (t : State Host) (ht : v.Of c h t) : v.Of c h ((sendTiming c i).after t) := by
    unfold sendTiming
    split
    · exact ht
    · next m hm =>
      have hset := hc.sets _ (.switch (List.mem_of_getElem? hm))
      exact ht.onHost (Host.delivers_send hset)
  have hcontrol (t : State Host) (ht : v.Of c h t) :
      v.Of c h ((writeControl c ((c.rate? (some i)).getD 0)).after t) := by
    rw [writeControl, Action.after_get_bind]
    exact ht.onHost (Host.delivers_write _ _ _ (by decide))
  rw [after_performSwitch hc.family]
  dsimp only
  rw [hunlocked, ← after_onHost, if_pos (by rfl), switchUnlocked, Action.after_attempt_bind,
    Action.after_attempt_bind]
  refine View.Of.onHost (of_replayGamma (hcontrol _ (htiming _ (hs.onHost (hkey _ (.inl rfl))))) i) ?_
  exact hkey _ (.inr rfl)

/-- A switch that is scheduled is performed. Pulses and events do not matter. -/
theorem of_runSwitch (hc : c.Calibrated) (hs : v.Of c h s) {i : Nat}
    (hi : s.refresh.scheduled = some i) :
    (v.send (c.rate? (some i))).Of c h ((runSwitch c).after s) := by
  have hpulses (n : Nat) {v : View} (t : State Host) (ht : v.Of c h t) : v.Of c h (pulses n t) := by
    induction n generalizing t with
    | zero => exact ht
    | succ n ih => exact ih _ (ht.frame rfl rfl rfl rfl rfl)
  rw [runSwitch, Action.after_get_bind, hi]
  dsimp only
  split
  · have hswitched := of_performSwitch hc
      (hs.frame (t := { s with display := s.display.listen listener }) rfl rfl rfl rfl rfl) i
    rw [Action.after_modify_bind, (succeeds_performSwitch i).after_bind, Action.after_modify_bind,
      notify, Action.after_modify_bind, Action.after_modify_bind, Action.after_modify]
    generalize (performSwitch c i).after { s with display := s.display.listen listener } = t
      at hswitched ⊢
    have hdone := hswitched.frame (t := { t with
      refresh.switching := false
      display := t.display.notify (.changed .state) }) rfl rfl rfl rfl rfl
    exact (hpulses _ _ hdone).frame rfl rfl rfl rfl rfl
  · have hswitched := of_performSwitch hc hs i
    rw [(succeeds_performSwitch i).after_bind, Action.after_modify_bind]
    exact hswitched.frame rfl rfl rfl rfl rfl

/-! ### Readings -/

/-- Only the payloads of the tables matter. -/
theorem buffersOf_congr {p q : UInt32 → Gamma.Table → List UInt8} {timings : List Timing}
    (h : ∀ m ∈ timings, ∀ t ∈ Gamma.tables, p m.rate t = q m.rate t) :
    buffersOf p timings = buffersOf q timings := by
  refine List.map_congr_left fun m hm => congrArg some ?_
  exact congrArg (fun ps => Gamma.Buffer.mk (Gamma.layout Gamma.tables ps) _)
    (List.map_congr_left fun t ht => h m hm t ht)

/-- What is read goes by what the registers deliver. -/
theorem buffersOf_of_delivers (hc : c.Calibrated) {lost : Bool} {g : Host}
    (hg : h.Delivers (h.calibration (rateOf lost)) g) :
    buffersOf g.calibration c.timings = keptBuffers c h (some lost) := by
  rw [keptBuffers]
  refine buffersOf_congr fun m hm t ht => ?_
  obtain h60 | h90 := hc.rates m hm
  · rw [h60, if_pos rfl, hg.tables t ht]
  · rw [h90, if_neg (by decide), hg.ninety ht]

theorem of_readGamma (hc : c.Calibrated) (hs : v.Of c h s) :
    ∃ t, readGamma c s = .ok () t ∧ v.read.Of c h t := by
  cases hready : v.ready with
  | true =>
    refine ⟨s, readGamma_of_ready hc.family (hs.ready.trans hready), ?_⟩
    rw [View.read, if_pos hready]
    exact hs
  | false =>
    have hunread : s.gamma.ready = false := hs.ready.trans hready
    have hread := readGamma_of_given_up (c := c) hc.family hunread
    have hlen : s.gamma.buffers.length = c.timings.length := by
      rw [hs.buffers]
      cases v.kept <;> simp [keptBuffers, buffersOf]
    obtain ⟨⟨⟩, t, ht, hgamma, hlike⟩ := ensures_readUnlocked (h := s.host) hlen hc.rates hc.otp
      (hs.host.accepts _) s ⟨rfl, Host.Like.refl _⟩
    have htasks : Tasks c s t := by
      have h := tasks_readUnlocked (c := c) hunread
      rwa [Action.after, ht] at h
    have hjobs := htasks.jobs
    have hsame : t.initialized = s.initialized ∧ t.hbm = s.hbm := by
      clear ht hgamma hlike hjobs
      induction htasks with
      | refl => exact ⟨rfl, rfl⟩
      | tail _ step ih => cases step <;> exact ih
    refine ⟨t, hread ▸ ht, ?_⟩
    rw [View.read, hready, if_neg (by decide)]
    exact {
      host := hs.host.like hlike
      buffers := by rw [hgamma, buffersOf_of_delivers hc hs.host]
      ready := by rw [hgamma]
      on := hsame.1.trans hs.on
      mode := hsame.2 ▸ hs.mode
      calm := hsame.2 ▸ hs.calm
      jobs := List.subset_nil.mp (hs.jobs ▸ hjobs) }

/-! ### Updates -/

theorem of_stroke (hc : c.Calibrated) (s t : State Host) (hst : Stroke c s t) :
    Lasting (v.Of c h) s t := by
  intro hs
  cases hst with
  | transfer hl hset hm =>
    exact hs.sent ((Host.delivers_transfer (hc.sets _ hset _ hm)).after hs.host)
  | level level hl hd hm =>
    refine hs.sent ((Host.delivers_transfer (.inr ?_)).after hs.host)
    rw [Message.cmd, (Dsi.plain?_eq hm).1]
    exact (by decide : Dsi.setBrightness ∉ Gamma.tables.map (·.cmd))
  | restart =>
    have hsame : restartDimming s = s := by
      rw [restartDimming, hs.calm]
      rfl
    rwa [hsame]
  | _ => exact hs.frame rfl rfl rfl rfl rfl

/-- No range is entered outside high-brightness mode. -/
theorem of_update (hc : c.Calibrated) (hs : v.Of c h s) : v.Of c h ((update c).after s) := by
  obtain ⟨t, hst, htu⟩ := update_strokes (c := c) s
  have hstrokes : Lasting (v.Of c h) t ((update c).after s) :=
    Action.related_of_closure (of_stroke hc) htu
  cases hst with
  | stay => exact hstrokes hs
  | enter hh hr hb hm hi =>
    rw [hs.mode] at hm
    cases hm

theorem of_enable (hc : c.Calibrated) (hs : v.Of c h s) :
    View.Of c h { v with on := true } ((enable c).after s) := by
  have hsend := Host.delivers_send (h := h) (p := h.calibration (rateOf v.overwritten))
    (hc.sets _ .on)
  obtain ⟨⟨⟩, hanswer⟩ := hsend.answer hs.host
  have hsent := hs.onHost hsend
  rw [enable, earlyDpms_on, Action.after_pure_bind, Action.after_bind, answer_onHost, hanswer]
  dsimp only
  rw [Action.after_modify_bind, lateDpms_eq]
  generalize (onHost c.sets.on.send).after s = t at hsent
  have hpowered : View.Of c h { v with on := true } (powered c t) := { hsent with on := rfl }
  have hentered : View.Of c h { v with on := true } ((enterDpms .on).after (powered c t)) := by
    rw [after_enterDpms]
    exact hpowered.frame rfl rfl rfl rfl rfl
  have hupdated := of_update hc hentered
  generalize (update c).after ((enterDpms .on).after (powered c t)) = u at hupdated ⊢
  exact hupdated.frame rfl rfl rfl rfl rfl

/-! ### What follows a request -/

/-- Once the jobs are done nothing follows, as no frames are counted. -/
theorem settle_of_drained (hs : v.Of c h ((drain c).after s)) :
    (settle c).after s = (drain c).after s := by
  rw [settle_eq]
  cases ((drain c).after s).display.pending with
  | zero => rfl
  | succ n =>
    rw [countFrames, Action.after_get_bind, hs.calm]
    rfl

theorem settle_of (hs : v.Of c h s) : (settle c).after s = s := by
  have hdrained : (drain c).after s = s := drain_of_none hs.jobs
  rw [settle_of_drained (hdrained.symm ▸ hs), hdrained]

theorem of_settle (hs : v.Of c h s) : v.Of c h ((settle c).after s) := by
  rwa [settle_of hs]

/-- A switch that is queued is performed at once. -/
theorem of_queueSwitch (hc : c.Calibrated) (hs : v.Of c h s) (j : Nat) :
    (v.send (c.rate? (some j))).Of c h ((settle c).after ((queueSwitch c j).after s)) := by
  have hswitched :
      (v.send (c.rate? (some j))).Of c h ((drain c).after ((queueSwitch c j).after s)) := by
    have hready := hs.frame (t := { s with
      refresh := { s.refresh with scheduled := some j, switching := true, jobs := [] } })
      rfl rfl rfl rfl hs.jobs.symm
    rw [after_queueSwitch, drain_of_none hs.jobs, drain_of_switch rfl]
    exact of_runSwitch hc hready rfl
  rwa [settle_of_drained hswitched]

/-- Tables are read as soon as the panel is powered, unless they are there. -/
theorem of_postEnable (hc : c.Calibrated) (hs : v.Of c h s) :
    v.read.Of c h ((settle c).after ((postEnable c).after s)) := by
  obtain ⟨t, hread, ht⟩ := of_readGamma hc hs
  have hdrained : (drain c).after ((postEnable c).after s) = t := by
    have hafter : (readGamma c).after s = t := by rw [Action.after, hread]
    rw [postEnable, succeeds_drain.after_bind, drain_of_none hs.jobs, queueGamma,
      Action.after_get_bind]
    split
    · have hwaits : (enqueue .readGamma : Action (State Host) Unit).after s =
          { s with refresh.jobs := [.readGamma] } := by
        rw [enqueue, Action.after_modify, hs.jobs, List.nil_append]
      have hsame : { s with refresh.jobs := [] } = s := by rw [← hs.jobs]
      rw [hwaits, drain, Action.after_get_bind, Action.after_set_bind, ← hafter]
      exact congrArg (readGamma c).after hsame
    · next hwanted =>
      have hready : s.gamma.ready = true := by simpa [hc.family] using hwanted
      rw [← hafter, Action.after_pure, drain_of_none hs.jobs, Action.after,
        readGamma_of_ready hc.family hready]
  rw [settle_of_drained (hdrained.symm ▸ ht), hdrained]
  exact ht

/-- A panel that is powered dumps the tables that it keeps from then on. -/
theorem dumpGamma_eq (hc : c.Calibrated) (hs : v.Of c h s) :
    let t := step c s (.request .dumpGamma)
    (v.on = false ∧ dumpGamma c s = .error .noDevice s ∧ v.Of c h t) ∨
      (v.on = true ∧ v.read.Of c h t ∧
        dumpGamma c s = .ok (Gamma.dump (c.timings.map (·.rate)) t.gamma.buffers) t) := by
  have hstep {u : View} {t : State Host} (ht : (dumpGamma c).after s = t) (hu : u.Of c h t) :
      step c s (.request .dumpGamma) = t := by
    have hafter : (Input.perform c (.request .dumpGamma)).after s = (dumpGamma c).after s := by
      rw [Input.perform, Request.perform, Action.after_bind]
      split <;> rfl
    rw [step_eq, hafter, ht, settle_of hu]
  cases hon : v.on with
  | false =>
    have hdump : dumpGamma c s = .error .noDevice s := by
      show (if (!s.initialized) = true then throw .noDevice else _ : Action (State Host) String) s = _
      rw [hs.on, hon]
      rfl
    rw [hstep (by rw [Action.after, hdump]) hs]
    exact .inl ⟨rfl, hdump, hs⟩
  | true =>
    obtain ⟨t, hread, ht⟩ := of_readGamma hc hs
    have hdump : dumpGamma c s = .ok (Gamma.dump (c.timings.map (·.rate)) t.gamma.buffers) t := by
      show (if (!s.initialized) = true then throw .noDevice else _ : Action (State Host) String) s = _
      rw [hs.on, hon]
      exact Action.bind_of_ok hread _
    rw [hstep (by rw [Action.after, hdump]) ht]
    exact .inr ⟨rfl, ht, hdump⟩

end Panel
end OledPanel
