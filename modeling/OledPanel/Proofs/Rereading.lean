import OledPanel.Proofs.DumpText
import OledPanel.Proofs.KeptTables
import OledPanel.Proofs.TimingInForce

/-! Reading gamma tables again. A switch writes the tables of its timing into the very registers that
those of 60 Hz are read from, so what is read after a switch to 90 Hz are the tables of 90 Hz. The
60 Hz timings keep them from then on, every switch writes them, and no later reading finds others. -/

namespace OledPanel

open OledPanel.Action (Within)

namespace Panel

open Bench (Host)

variable {c : Config} {h : Host} {v : View} {s : State Host}

/-! ### Steps -/

/-- The inputs that power a panel up, switch, and read and give up gamma tables. -/
inductive Input.Revisits : Input → Prop
  | enable : Revisits (.request .enable)
  | postEnable : Revisits (.request .postEnable)
  | setMode (r : ModeRequest) : Revisits (.request (.setMode r))
  | switchTo (r : ModeRequest) : Revisits (.request (.switchTo r))
  | idle : Revisits (.request .idle)
  | wakeup : Revisits (.request .wakeup)
  | dumpGamma : Revisits (.request .dumpGamma)
  | forgetGamma : Revisits (.request .forgetGamma)

/-- What a step does to the view. -/
inductive Passes (c : Config) (s : State Host) (i : Input) (v : View) : View → Prop
  | stays : Passes c s i v v
  | powers : Passes c s i v { v with on := true }
  | forgets : Passes c s i v { v with ready := false }
  | reads : Passes c s i v v.read
  | sends {e : Switch} (he : e ∈ stepSwitches c s i) :
    Passes c s i v (v.send (c.rate? (some e.timing)))

theorem mem_stepSwitches_of_queueSwitch {i : Input} {j : Nat} {t : State Host}
    (hi : (i.perform c).after s = (queueSwitch c j).after t) :
    ∃ e ∈ stepSwitches c s i, e.timing = j := by
  have hlast : ∃ u : State Host, stepSwitches c s i = i.switches c s ++ [u.switch c j] := by
    rw [stepSwitches, hi, after_queueSwitch]
    exact ⟨_, rfl⟩
  obtain ⟨u, hu⟩ := hlast
  exact ⟨u.switch c j, by simp [hu], rfl⟩

theorem of_step_enable (hc : c.Calibrated) (hs : v.Of c h s) :
    View.Of c h { v with on := true } (step c s (.request .enable)) := by
  have hafter : (Input.perform c (.request .enable)).after s = (enable c).after s := after_done _ s
  rw [step_eq, hafter]
  exact of_settle (of_enable hc hs)

theorem of_step_postEnable (hc : c.Calibrated) (hs : v.Of c h s) :
    v.read.Of c h (step c s (.request .postEnable)) := by
  have hafter : (Input.perform c (.request .postEnable)).after s = (postEnable c).after s :=
    after_done _ s
  rw [step_eq, hafter]
  exact of_postEnable hc hs

theorem after_request_setMode {r : ModeRequest} {j : Nat} (hj : findTiming c r = .ok j) :
    (Input.perform c (.request (.setMode r))).after s =
      (queueSwitch c j).after { s with refresh.current := some j } := by
  rw [Input.perform, Request.perform, after_done, setMode, hj]
  rfl

theorem of_step_setMode (hc : c.Calibrated) (hs : v.Of c h s) {r : ModeRequest} {j : Nat}
    (hj : findTiming c r = .ok j) :
    (v.send (c.rate? (some j))).Of c h (step c s (.request (.setMode r))) := by
  have hasked := hs.frame (t := { s with refresh.current := some j }) rfl rfl rfl rfl rfl
  rw [step_eq, after_request_setMode hj]
  exact of_queueSwitch hc hasked j

theorem of_step_dumpGamma (hc : c.Calibrated) (hs : v.Of c h s) (hon : v.on = true) :
    v.read.Of c h (step c s (.request .dumpGamma)) := by
  obtain ⟨hoff, -⟩ | ⟨-, hread, -⟩ := dumpGamma_eq hc hs
  · rw [hon] at hoff
    cases hoff
  · exact hread

theorem of_step_forgetGamma (hc : c.Calibrated) (hs : v.Of c h s) :
    View.Of c h { v with ready := false } (step c s (.request .forgetGamma)) := by
  have hafter : (Input.perform c (.request .forgetGamma)).after s =
      { s with gamma.ready := false } := by
    rw [Input.perform, Request.perform, after_done, forgetGamma, hc.family]
    rfl
  rw [step_eq, hafter]
  exact of_settle { hs with ready := rfl }

/-- A panel that is powered dumps the tables that are kept as soon as they are there. -/
theorem answer_of_view (hc : c.Calibrated) (hs : v.Of c h s) (hon : v.on = true) :
    (dumpGamma c).answer s =
      .ok (Gamma.dump (c.timings.map (·.rate)) (keptBuffers c h v.read.kept)) := by
  obtain ⟨hoff, -⟩ | ⟨-, hread, hanswer⟩ := dumpGamma_eq hc hs
  · rw [hon] at hoff
    cases hoff
  · rw [Action.answer, hanswer, hread.buffers]

/-- An input leads to a state with another view, which is of a powered panel only if the panel was
powered or is powered up. -/
def Leads (c : Config) (h : Host) (s : State Host) (i : Input) (v : View) : Prop :=
  ∃ u : View, u.Of c h (step c s i) ∧ Passes c s i v u ∧
    (u.on = true ↔ v.on = true ∨ i = .request .enable)

theorem leads_of_stays {i : Input} {t : State Host} (ht : (i.perform c).after s = t)
    (hv : v.Of c h t) (hne : i ≠ .request .enable) : Leads c h s i v := by
  refine ⟨v, ?_, .stays, by simp [hne]⟩
  rw [step_eq, ht]
  exact of_settle hv

theorem leads_of_queueSwitch (hc : c.Calibrated) {i : Input} {j : Nat} {t : State Host}
    (ht : (i.perform c).after s = (queueSwitch c j).after t) (hv : v.Of c h t)
    (hne : i ≠ .request .enable) : Leads c h s i v := by
  obtain ⟨e, he, rfl⟩ := mem_stepSwitches_of_queueSwitch ht
  refine ⟨v.send (c.rate? (some e.timing)), ?_, .sends he, by simp [hne]⟩
  rw [step_eq, ht]
  exact of_queueSwitch hc hv e.timing

theorem leads_setMode (hc : c.Calibrated) (hs : v.Of c h s) (r : ModeRequest) :
    Leads c h s (.request (.setMode r)) v := by
  cases hj : findTiming c r with
  | error e =>
    refine leads_of_stays ?_ hs (by simp)
    rw [Input.perform, Request.perform, after_done, setMode, hj]
    rfl
  | ok j =>
    exact leads_of_queueSwitch hc (after_request_setMode hj) (hs.frame rfl rfl rfl rfl rfl) (by simp)

theorem leads_switchTo (hc : c.Calibrated) (hs : v.Of c h s) (r : ModeRequest) :
    Leads c h s (.request (.switchTo r)) v := by
  cases hon : s.initialized with
  | false =>
    refine leads_of_stays ?_ hs (by simp)
    rw [Input.perform, Request.perform, after_done, switchTo, Action.after_get_bind, hon]
    rfl
  | true =>
    have hafter : (Input.perform c (.request (.switchTo r))).after s =
        Action.after (Action.ofExcept (findTiming c r) >>= queueSwitch c) s := by
      rw [Input.perform, Request.perform, after_done, switchTo, Action.after_get_bind, hon]
      rfl
    cases hj : findTiming c r with
    | error e =>
      refine leads_of_stays ?_ hs (by simp)
      rw [hafter, hj]
      rfl
    | ok j =>
      refine leads_of_queueSwitch hc (t := s) (j := j) ?_ hs (by simp)
      rw [hafter, hj]
      rfl

/-- A switch for idling is performed at once and not queued. -/
theorem leads_idle (hc : c.Calibrated) (hs : v.Of c h s) : Leads c h s (.request .idle) v := by
  have hafter : (Input.perform c (.request .idle)).after s = (enterIdle c).after s := after_done _ s
  have hidle := after_enterIdle (c := c) s
  cases hi : s.refresh.idle with
  | none =>
    rw [hi] at hidle
    exact leads_of_stays (hafter.trans hidle) hs (by simp)
  | some j =>
    rw [hi] at hidle
    dsimp only at hidle
    by_cases hcond : some j ≠ s.active ∧ s.initialized
    · rw [if_pos hcond] at hidle
      have hmem : s.switch c j ∈ stepSwitches c s (.request .idle) := by
        rw [stepSwitches, Input.switches, hi]
        dsimp only
        rw [if_pos hcond]
        exact List.mem_append_left _ (List.mem_singleton_self _)
      have hready := hs.frame (t := { s with refresh.scheduled := some j }) rfl rfl rfl rfl rfl
      refine ⟨v.send (c.rate? (some j)), ?_, .sends hmem, by simp⟩
      rw [step_eq, hafter, hidle]
      exact of_settle (of_performSwitch hc hready j)
    · rw [if_neg hcond] at hidle
      exact leads_of_stays (hafter.trans hidle) hs (by simp)

theorem leads_wakeup (hc : c.Calibrated) (hs : v.Of c h s) : Leads c h s (.request .wakeup) v := by
  have hafter : (Input.perform c (.request .wakeup)).after s = (leaveIdle c).after s := after_done _ s
  rw [leaveIdle, Action.after_get_bind] at hafter
  cases hi : s.refresh.current with
  | none =>
    rw [hi] at hafter
    exact leads_of_stays hafter hs (by simp)
  | some j =>
    rw [hi] at hafter
    dsimp only at hafter
    by_cases hcond : some j ≠ s.refresh.scheduled
    · rw [if_pos hcond] at hafter
      exact leads_of_queueSwitch hc hafter hs (by simp)
    · rw [if_neg hcond] at hafter
      exact leads_of_stays hafter hs (by simp)

theorem leads_of_revisits (hc : c.Calibrated) {i : Input} (hi : i.Revisits) (hs : v.Of c h s) :
    Leads c h s i v := by
  cases hi with
  | enable => exact ⟨{ v with on := true }, of_step_enable hc hs, .powers, by simp⟩
  | postEnable => exact ⟨v.read, of_step_postEnable hc hs, .reads, by simp⟩
  | setMode r => exact leads_setMode hc hs r
  | switchTo r => exact leads_switchTo hc hs r
  | idle => exact leads_idle hc hs
  | wakeup => exact leads_wakeup hc hs
  | dumpGamma =>
    obtain ⟨-, -, hstays⟩ | ⟨-, hread, -⟩ := dumpGamma_eq hc hs
    · exact ⟨v, hstays, .stays, by simp⟩
    · exact ⟨v.read, hread, .reads, by simp⟩
  | forgetGamma => exact ⟨{ v with ready := false }, of_step_forgetGamma hc hs, .forgets, by simp⟩

/-! ### Runs -/

/-- The states in which the readings of a run began that went well, the oldest first. -/
def readings (c : Config) : State Host → List Input → List (State Host)
  | _, [] => []
  | s, i :: is => (if s.gamma.ready = false ∧ (step c s i).gamma.ready = true then [s] else []) ++
    readings c (step c s i) is

theorem readings_append (s : State Host) (is js : List Input) :
    readings c s (is ++ js) = readings c s is ++ readings c (run c s is) js := by
  induction is generalizing s with
  | nil => rfl
  | cons i is ih => rw [List.cons_append, readings, readings, ih, run_cons, List.append_assoc]

/-- A reading finds what the registers delivered at first unless the tables of 90 Hz were written. -/
theorem offers_readings_cons (hs : v.Of c h s) (hv : v.overwritten = false ∨ v.ready = true)
    {i : Input} {is : List Input}
    (hrest : ∀ t ∈ readings c (step c s i) is, h.Offers 60 t.host) :
    ∀ t ∈ readings c s (i :: is), h.Offers 60 t.host := by
  rw [readings]
  refine List.forall_mem_append.mpr ⟨?_, hrest⟩
  split
  · next hflag =>
    have hfalse : v.overwritten = false := by
      refine hv.resolve_right ?_
      rw [← hs.ready, hflag.1]
      decide
    have hoffers := hs.host.tables
    rw [hfalse] at hoffers
    exact List.forall_mem_singleton.mpr hoffers
  · exact List.forall_mem_nil _

/-- The view goes with the readings and the switches of a run. -/
structure Accounts (c : Config) (h : Host) (v : View) (found : List (State Host))
    (switches : List Switch) : Prop where
  unread : v.kept = none → v.overwritten = false ∧ v.ready = false ∧ found = []
  original : v.kept = some false → ∀ t ∈ found, h.Offers 60 t.host
  lost : v.kept = some true → v.overwritten = true ∧ ∃ t ∈ found, h.Offers 90 t.host
  spared : (∀ e ∈ switches, c.rate? (some e.timing) = some 60) →
    v.overwritten = false ∧ v.kept ≠ some true

section

variable {found : List (State Host)} {switches : List Switch}

theorem Accounts.later (ha : Accounts c h v found switches) (es : List Switch) :
    Accounts c h v found (switches ++ es) where
  unread := ha.unread
  original := ha.original
  lost := ha.lost
  spared he := ha.spared fun e hmem => he e (List.mem_append_left _ hmem)

/-- A reading finds the tables of 90 Hz if these were written, and those of 60 Hz if not. In the second
case no reading found others before. -/
theorem Accounts.read (ha : Accounts c h v found switches) (hs : v.Of c h s)
    (hready : v.ready = false) : Accounts c h v.read (found ++ [s]) switches := by
  have hread : v.read = { v with kept := some v.overwritten, ready := true } := by
    rw [View.read, hready]
    rfl
  have hoffers := hs.host.tables
  rw [hread]
  refine ⟨fun hk => absurd hk (Option.some_ne_none _), fun hk => ?_, fun hk => ?_, fun he => ?_⟩
  · have hfalse : v.overwritten = false := Option.some.inj hk
    have hfound : ∀ t ∈ found, h.Offers 60 t.host := by
      cases hkept : v.kept with
      | none =>
        rw [(ha.unread hkept).2.2]
        exact List.forall_mem_nil _
      | some lost =>
        cases lost with
        | false => exact ha.original hkept
        | true => exact absurd ((ha.lost hkept).1.symm.trans hfalse) (by decide)
    rw [hfalse] at hoffers
    exact List.forall_mem_append.mpr ⟨hfound, List.forall_mem_singleton.mpr hoffers⟩
  · have htrue : v.overwritten = true := Option.some.inj hk
    rw [htrue] at hoffers
    exact ⟨htrue, s, by simp, hoffers⟩
  · have hfalse := (ha.spared he).1
    exact ⟨hfalse, by simp [hfalse]⟩

/-- The tables of 60 Hz are overwritten by a switch to 90 Hz, and written again by one to 60 Hz unless
they are lost. -/
theorem Accounts.send (ha : Accounts c h v found switches) {e : Switch} (he : e ∈ switches) :
    Accounts c h (v.send (c.rate? (some e.timing))) found switches := by
  cases hk : v.kept with
  | none => rwa [View.send_of_none hk]
  | some lost =>
    cases hr : c.rate? (some e.timing) with
    | none => rwa [View.send_none]
    | some rate =>
      rw [View.send_some hk]
      refine ⟨fun hnone => ?_, ha.original, fun hlost => ?_, fun hall => ?_⟩
      · cases hk.symm.trans hnone
      · obtain rfl : lost = true := Option.some.inj (hk.symm.trans hlost)
        exact ⟨by simp, (ha.lost hk).2⟩
      · have h60 : rate = 60 := Option.some.inj (hr.symm.trans (hall e he))
        have hkept : v.kept ≠ some true := (ha.spared hall).2
        refine ⟨?_, hkept⟩
        rw [hk] at hkept
        simpa [h60] using hkept

theorem Accounts.passes {i : Input} {u : View} (ha : Accounts c h v found switches)
    (hs : v.Of c h s) (hu : u.Of c h (step c s i)) (hp : Passes c s i v u) :
    Accounts c h u (found ++ readings c s [i]) (switches ++ stepSwitches c s i) := by
  have hlater := ha.later (stepSwitches c s i)
  rw [readings, readings, List.append_nil, hs.ready, hu.ready]
  clear hu
  cases hp with
  | stays | powers =>
    rw [if_neg (by simp), List.append_nil]
    exact ⟨hlater.unread, hlater.original, hlater.lost, hlater.spared⟩
  | forgets =>
    rw [if_neg (by simp), List.append_nil]
    refine ⟨fun hk => ?_, hlater.original, hlater.lost, hlater.spared⟩
    obtain ⟨hwritten, -, hnone⟩ := hlater.unread hk
    exact ⟨hwritten, rfl, hnone⟩
  | reads =>
    cases hready : v.ready with
    | true =>
      have hread : v.read = v := by rw [View.read, if_pos hready]
      rwa [hread, if_neg (by simp), List.append_nil]
    | false =>
      have hread : v.read.ready = true := by
        rw [View.read, hready]
        rfl
      rw [if_pos ⟨rfl, hread⟩]
      exact hlater.read hs hready
  | @sends e he =>
    have hready : (v.send (c.rate? (some e.timing))).ready = v.ready := by
      unfold View.send
      split <;> rfl
    rw [if_neg (by simp [hready]), List.append_nil]
    exact hlater.send (List.mem_append_right _ he)

theorem of_run (hc : c.Calibrated) (inputs : List Input) (hin : ∀ i ∈ inputs, i.Revisits)
    (hs : v.Of c h s) (ha : Accounts c h v found switches) : ∃ u : View, u.Of c h (run c s inputs) ∧
      Accounts c h u (found ++ readings c s inputs) (switches ++ runSwitches c s inputs) ∧
      (u.on = true ↔ v.on = true ∨ .request .enable ∈ inputs) := by
  induction inputs generalizing s v found switches with
  | nil => exact ⟨v, hs, by simpa [readings, runSwitches] using ha, by simp⟩
  | cons i inputs ih =>
    obtain ⟨u, hu, hp, hon⟩ := leads_of_revisits hc (hin i (by simp)) hs
    obtain ⟨w, hw, hacc, hwon⟩ := ih (fun j hj => hin j (by simp [hj])) hu (ha.passes hs hu hp)
    refine ⟨w, hw, ?_, ?_⟩
    · have hreadings := readings_append (c := c) s [i] inputs
      rw [List.singleton_append, run_cons, run_nil] at hreadings
      rw [hreadings, runSwitches, ← List.append_assoc, ← List.append_assoc]
      exact hacc
    · rw [hwon, hon, List.mem_cons, or_assoc, eq_comm (a := i)]

end

/-- The panel before its first request, attached to a host without faults. -/
theorem of_initial (hcount : h.countdown = none) (hfail : h.failing = []) (display : Display)
    (pwm : Option Pwm) (regulator : Option Regulator) :
    View.Of c h ⟨false, false, none, false⟩ (State.initial c h display pwm regulator) :=
  ⟨⟨hcount, hfail, rfl, fun _ _ => rfl⟩, rfl, rfl, rfl, rfl, rfl, rfl⟩

theorem stepSwitches_dumpGamma (hs : v.Of c h s) : stepSwitches c s (.request .dumpGamma) = [] := by
  have hjobs : ((Input.perform c (.request .dumpGamma)).after s).refresh.jobs = [] := by
    have htasks : Within (Tasks c)
        (Input.perform c (.request .dumpGamma) : Action (State Host) Answer) :=
      tasks_dumpGamma.bind fun _ => Within.pure _
    exact List.subset_nil.mp (hs.jobs ▸ (htasks s).jobs)
  rw [stepSwitches, hjobs]
  rfl

theorem keptBuffers_false (hc : c.Calibrated) :
    keptBuffers c h (some false) = buffersOf h.calibration c.timings := by
  rw [keptBuffers]
  refine buffersOf_congr fun m hm t _ => ?_
  obtain h60 | h90 := hc.rates m hm
  · rw [h60]
    rfl
  · rw [h90]
    rfl

theorem keptBuffers_true (c : Config) (h : Host) :
    keptBuffers c h (some true) = buffersOf (fun _ => h.calibration 90) c.timings := by
  simp [keptBuffers, rateOf]

/-- The text of a dump. -/
def dumpText (c : Config) (p : UInt32 → Gamma.Table → List UInt8) : String :=
  Gamma.dump (c.timings.map (·.rate)) (buffersOf p c.timings)

theorem buffersOf_ninety (hc : c.Calibrated)
    (hsame : ∀ t ∈ Gamma.tables, h.calibration 60 t = h.calibration 90 t) :
    buffersOf h.calibration c.timings = buffersOf (fun _ => h.calibration 90) c.timings := by
  refine buffersOf_congr fun m hm t ht => ?_
  obtain h60 | h90 := hc.rates m hm
  · rw [h60, hsame t ht]
  · rw [h90]

/-- The 60 Hz timings are shown with the tables of 90 Hz in another text, unless these are the
same. -/
theorem dumpText_ninety_iff (hc : c.Calibrated) :
    dumpText c h.calibration = dumpText c (fun _ => h.calibration 90) ↔
      ∀ t ∈ Gamma.tables, h.calibration 60 t = h.calibration 90 t := by
  refine ⟨fun hsame => ?_, fun hsame => congrArg (Gamma.dump _) (buffersOf_ninety hc hsame)⟩
  obtain ⟨m, hm, h60⟩ := hc.otp
  intro t ht
  have hpayloads := dump_injective (Gamma.length_calibration h)
    (fun _ => Gamma.length_calibration h 90) hsame m hm t ht
  rwa [h60] at hpayloads

theorem dumpText_ne_of_byte (hc : c.Calibrated) {t : Gamma.Table} (ht : t ∈ Gamma.tables) (j : Nat)
    (hne : (h.calibration 60 t)[j]? ≠ (h.calibration 90 t)[j]?) :
    dumpText c h.calibration ≠ dumpText c (fun _ => h.calibration 90) := by
  intro heq
  rw [(dumpText_ninety_iff hc).mp heq t ht] at hne
  exact hne rfl

section

variable (hc : c.Calibrated) (hcount : h.countdown = none) (hfail : h.failing = [])
  (display : Display) (pwm : Option Pwm) (regulator : Option Regulator) {inputs : List Input}
  (hin : ∀ i ∈ inputs, i.Revisits)

include hc hcount hfail hin

/-- The view after a run from the start. -/
theorem of_run_initial :
    let start := State.initial c h display pwm regulator
    ∃ v : View, v.Of c h (run c start inputs) ∧
      Accounts c h v (readings c start inputs) (runSwitches c start inputs) ∧
      (v.on = true ↔ .request .enable ∈ inputs) := by
  have hacc : Accounts c h ⟨false, false, none, false⟩ [] [] :=
    ⟨fun _ => ⟨rfl, rfl, rfl⟩, nofun, nofun, fun _ => ⟨rfl, nofun⟩⟩
  simpa using of_run hc inputs hin (of_initial hcount hfail display pwm regulator) hacc

theorem answer_dumpGamma (henable : .request .enable ∈ inputs) :
    let start := State.initial c h display pwm regulator
    let found := readings c start (inputs ++ [.request .dumpGamma])
    (dumpGamma c).answer (run c start inputs) = .ok (dumpText c
      (if ∀ t ∈ found, h.Offers 60 t.host then h.calibration else fun _ => h.calibration 90)) := by
  intro start found
  obtain ⟨v, hv, ha, hon⟩ := of_run_initial hc hcount hfail display pwm regulator hin
  have hpowered : v.on = true := hon.mpr henable
  have hlast := ha.passes hv (of_step_dumpGamma hc hv hpowered) .reads
  rw [← readings_append] at hlast
  have hready : v.read.ready = true := by
    unfold View.read
    split <;> trivial
  rw [answer_of_view hc hv hpowered]
  refine congrArg (fun bs => Except.ok (Gamma.dump (c.timings.map (·.rate)) bs)) ?_
  cases hk : v.read.kept with
  | none =>
    rw [(hlast.unread hk).2.1] at hready
    cases hready
  | some lost =>
    cases lost with
    | false => rw [if_pos (hlast.original hk), keptBuffers_false hc]
    | true =>
      obtain ⟨-, t, ht, hninety⟩ := hlast.lost hk
      rw [keptBuffers_true]
      split
      · next hall =>
        exact (buffersOf_ninety hc fun u hu => (hall t ht u hu).symm.trans (hninety u hu)).symm
      · rfl

/-- A panel with gamma tables dumps them once it was powered up, and unless it was, fails. The dump
is of the calibration data as long as every reading found in the registers what they delivered at
first. From a reading on that did not, all timings are shown with the tables of 90 Hz. The two texts
differ unless the tables of both rates are the same. Where all switches are to 60 Hz, every reading
finds what the registers delivered at first. -/
theorem dump_of_readings :
    let start := State.initial c h display pwm regulator
    let s := run c start inputs
    let found := readings c start (inputs ++ [.request .dumpGamma])
    (.request .enable ∉ inputs → (dumpGamma c).answer s = .error .noDevice) ∧
      (.request .enable ∈ inputs → (dumpGamma c).answer s = .ok (dumpText c
        (if ∀ t ∈ found, h.Offers 60 t.host then h.calibration else fun _ => h.calibration 90))) ∧
      (dumpText c h.calibration = dumpText c (fun _ => h.calibration 90) ↔
        ∀ t ∈ Gamma.tables, h.calibration 60 t = h.calibration 90 t) ∧
      ((∀ e ∈ runSwitches c start inputs, c.rate? (some e.timing) = some 60) →
        ∀ t ∈ found, h.Offers 60 t.host) := by
  intro start s found
  obtain ⟨v, hv, ha, hon⟩ := of_run_initial hc hcount hfail display pwm regulator hin
  refine ⟨fun hoff => ?_, answer_dumpGamma hc hcount hfail display pwm regulator hin,
    dumpText_ninety_iff hc, fun hswitches => ?_⟩
  · obtain ⟨-, hfails, -⟩ | ⟨hpowered, -⟩ := dumpGamma_eq hc hv
    · rw [Action.answer, hfails]
    · exact absurd (hon.mp hpowered) hoff
  · obtain ⟨u, hu, hp, -⟩ := leads_of_revisits hc .dumpGamma hv
    have hlast := ha.passes hv hu hp
    rw [← readings_append, stepSwitches_dumpGamma hv, List.append_nil] at hlast
    cases hk : u.kept with
    | none =>
      have hnone : found = [] := (hlast.unread hk).2.2
      rw [hnone]
      exact List.forall_mem_nil _
    | some lost =>
      cases lost with
      | false => exact hlast.original hk
      | true => exact absurd hk (hlast.spared hswitches).2

end

theorem calibrated_gammaPlain : (Bench.gammaPlain none).Calibrated where
  family := rfl
  rates := by decide
  otp := by decide
  sets set hset := by
    have hempty : set.messages = [] := by
      cases hset with
      | switch ht =>
        obtain rfl | ⟨-, rfl, -⟩ | ⟨-, ⟨⟩⟩ := List.mem_cons.mp ht |>.imp_right List.mem_cons.mp
        all_goals rfl
      | entry hh | stop hh | exit hh | exitStop hh | unlock hh | lock hh => cases hh
      | high he | low he => cases he
      | bin hb => cases hb
      | _ => rfl
    rw [hempty]
    exact List.forall_mem_nil _

/-- Tables are given up after switches to 90 Hz and back, so those of 60 Hz are in the registers
again. -/
theorem dump_after_switch_back :
    let c := Bench.gammaPlain none
    let h : Host := { registers := [(0xC8, [0x11, 0x22, 0x33])], flash := [(0, [0xA1, 0xA2, 0xA3])] }
    let inputs : List Input := [.request .enable, .request .dumpGamma, .request (.setMode ⟨none, 90⟩),
      .request (.setMode ⟨none, 60⟩), .request .forgetGamma]
    (dumpGamma c).answer (run c (State.initial c h {} none none) inputs) =
        .ok (dumpText c h.calibration) ∧
      dumpText c h.calibration ≠ dumpText c (fun _ => h.calibration 90) := by
  intro c h inputs
  have hin : ∀ i ∈ inputs, i.Revisits := by
    simp only [inputs, List.forall_mem_cons]
    exact ⟨.enable, .dumpGamma, .setMode _, .setMode _, .forgetGamma, List.forall_mem_nil _⟩
  have hc : c.Calibrated := calibrated_gammaPlain
  have h₀ : View.Of c h ⟨false, false, none, false⟩ _ := of_initial rfl rfl {} none none
  have h₁ : View.Of c h ⟨true, false, none, false⟩ _ := of_step_enable hc h₀
  have h₂ : View.Of c h ⟨true, false, some false, true⟩ _ := of_step_dumpGamma hc h₁ rfl
  have h₃ : View.Of c h ⟨true, true, some false, true⟩ _ :=
    of_step_setMode hc h₂ (r := ⟨none, 90⟩) (j := 1) rfl
  have h₄ : View.Of c h ⟨true, false, some false, true⟩ _ :=
    of_step_setMode hc h₃ (r := ⟨none, 60⟩) (j := 0) rfl
  have h₅ : View.Of c h ⟨true, false, some false, false⟩ _ := of_step_forgetGamma hc h₄
  have hfound : ∀ t ∈ readings c (State.initial c h {} none none) (inputs ++ [.request .dumpGamma]),
      h.Offers 60 t.host := by
    simp only [inputs, List.cons_append, List.nil_append]
    refine offers_readings_cons h₀ (.inl rfl) (offers_readings_cons h₁ (.inl rfl) ?_)
    refine offers_readings_cons h₂ (.inl rfl) (offers_readings_cons h₃ (.inr rfl) ?_)
    refine offers_readings_cons h₄ (.inl rfl) (offers_readings_cons h₅ (.inl rfl) ?_)
    exact List.forall_mem_nil _
  obtain ⟨-, hdump, -⟩ := dump_of_readings hc (h := h) rfl rfl {} none none hin
  refine ⟨(hdump (List.mem_cons_self ..)).trans (by rw [if_pos hfound]), ?_⟩
  exact dumpText_ne_of_byte hc (List.mem_cons_self ..) 0 (by decide +kernel)

/-- Tables are given up after a switch to 90 Hz, so what is read then are the tables of that. The
second dump is another text. -/
theorem dump_changed_by_rereading :
    let c := Bench.gammaPlain none
    let h : Host := { registers := [(0xC8, [0x11, 0x22, 0x33])], flash := [(0, [0xA1, 0xA2, 0xA3])] }
    let start := State.initial c h {} none none
    let once : List Input := [.request .enable]
    let again := once ++ [.request .dumpGamma, .request (.setMode ⟨none, 90⟩), .request .forgetGamma]
    (Config.ofNode (Bench.gammaNode []) false).toOption = some c ∧ ∃ a b,
      (dumpGamma c).answer (run c start once) = .ok a ∧
        (dumpGamma c).answer (run c start again) = .ok b ∧ a ≠ b := by
  intro c h start once again
  simp only [again, once, List.cons_append, List.nil_append, run_cons, run_nil]
  have hc : c.Calibrated := calibrated_gammaPlain
  have h₁ : View.Of c h ⟨true, false, none, false⟩ _ :=
    of_step_enable hc (of_initial rfl rfl {} none none)
  have h₂ : View.Of c h ⟨true, false, some false, true⟩ _ := of_step_dumpGamma hc h₁ rfl
  have h₃ : View.Of c h ⟨true, true, some false, true⟩ _ :=
    of_step_setMode hc h₂ (r := ⟨none, 90⟩) (j := 1) rfl
  have h₄ : View.Of c h ⟨true, true, some false, false⟩ _ := of_step_forgetGamma hc h₃
  have hfirst := answer_of_view hc h₁ rfl
  rw [show View.kept (View.read _) = some false from rfl, keptBuffers_false hc] at hfirst
  have hsecond := answer_of_view hc h₄ rfl
  rw [show View.kept (View.read _) = some true from rfl, keptBuffers_true] at hsecond
  refine ⟨by decide +kernel, _, _, hfirst, hsecond, ?_⟩
  exact dumpText_ne_of_byte hc (List.mem_cons_self ..) 0 (by decide +kernel)

end Panel
end OledPanel
