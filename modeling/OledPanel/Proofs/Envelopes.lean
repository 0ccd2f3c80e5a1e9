import OledPanel.Proofs.FlashMode
import OledPanel.Proofs.SentSwitches

/-! Between unlocking and locking. A panel with gamma tables is unlocked for a switch and for reading
its tables. If it does not unlock it is sent nothing more, and otherwise locking it is the last that is
sent, whatever fails before. A switch sends its tables one by one and in full, so that the group that
a table leaves open is closed by the next. -/

namespace OledPanel.Panel

open OledPanel.Action (Exchanges)
open Dsi (Attempt Exchange Message Recorder Transport)

/-- Messages with a property between unlocking and locking. A panel that does not unlock is sent
nothing more. -/
inductive Enveloped (P : List Exchange → Prop) : List Exchange → Prop
  | refused {unlock : Exchange} (hu : unlock.Writes Gamma.unlock true) (ht : ¬unlock.Taken) :
    Enveloped P [unlock]
  | held {unlock lock : Exchange} {inside : List Exchange} (hu : unlock.Writes Gamma.unlock true)
    (ht : unlock.Taken) (hi : P inside) (hn : ∀ e ∈ inside, e.message.tx ≠ Gamma.lock)
    (hl : lock.Writes Gamma.lock true) : Enveloped P (unlock :: inside ++ [lock])

/-- The three tables of a buffer, each with its command byte and in full. The second is not the last of
its group, which the third is. -/
structure Replays (b : Gamma.Buffer) (es : List Exchange) : Prop where
  tables : es.map (·.message.tx) = [b.table 0, b.table 1, b.table 2]
  forms : es.map (fun e => (e.message.type, e.message.cmd, e.message.tx.length, e.message.last)) =
    [(.longWrite, 0xC8, 136, true), (.longWrite, 0xC9, 181, false), (.longWrite, 0xB3, 46, true)]

theorem Replays.cmds {b : Gamma.Buffer} {es : List Exchange} (h : Replays b es) :
    es.map (·.message.cmd) = [0xC8, 0xC9, 0xB3] := by
  have hcmds := congrArg (List.map fun f => f.2.1) h.forms
  rw [List.map_map] at hcmds
  exact hcmds

variable {σ : Type}

/-- What a switch sends to a panel that is unlocked: the commands of the timing up to the first that
fails, the control register once, and the tables of the timing, if any are kept, whatever fails. -/
def Switches (c : Config) (s : State σ) (i : Nat) (es : List Exchange) : Prop :=
  ∃ timing control tables, es = timing ++ control :: tables ∧
    Attempt (c.switchMessages (some i)) timing ∧
    control.Writes [Dsi.writeControl, controlValue c s ((c.rate? (some i)).getD 0)] true ∧
    (s.buffer? i).elim (tables = []) (Replays · tables)

variable [Transport σ] {c : Config}

theorem exchanges_sendTiming (i : Nat) (s : State (Recorder σ)) :
    Exchanges State.record (sendTiming c i) s fun es _ => Attempt (c.switchMessages (some i)) es := by
  rw [Exchanges, after_sendTiming]
  exact Dsi.attempt_sendAll _ s.host

theorem exchanges_writeControl (rate : UInt32) (s : State (Recorder σ)) :
    Exchanges State.record (writeControl c rate) s fun es _ => ∃ e : Exchange, es = [e] ∧
      e.Writes [Dsi.writeControl, controlValue c s rate] true := by
  have hwrite := exchanges_write Dsi.writeControl [controlValue c s rate] true s
  refine Exchanges.congr (x := onHost _) (hwrite.mono ?_) rfl
  rintro _ _ ⟨e, rfl, he, -⟩
  exact ⟨e, rfl, he⟩

/-- More than two bytes are one long write. -/
theorem plain?_of_long {tx : List UInt8} (htx : 3 ≤ tx.length) (last : Bool) :
    Dsi.plain? tx last = some { type := .longWrite, tx, last } := by
  obtain ⟨n, hn⟩ := Nat.exists_eq_add_of_le' htx
  rw [Dsi.plain?, hn]
  rfl

/-- The message that replays a table. -/
def tableMessage (b : Gamma.Buffer) (t : Gamma.Table × Nat) : Message where
  type := .longWrite
  tx := b.table t.2
  last := !t.1.grouped

/-- Each table is sent once, whatever became of those before it. -/
theorem exchanges_sendTables {b : Gamma.Buffer} (hb : Gamma.Laid Gamma.tables b)
    (ts : List (Gamma.Table × Nat)) (hts : ∀ t ∈ ts, Gamma.tables[t.2]? = some t.1)
    (s : State (Recorder σ)) : Exchanges State.record (sendTables b ts) s fun es _ =>
      es.map (·.message) = ts.map (tableMessage b) := by
  induction ts generalizing s with
  | nil => exact Action.exchanges_pure rfl
  | cons t ts ih =>
    have ht := hts t (by simp)
    have hlong : ∀ u ∈ Gamma.tables, 2 ≤ u.length := by decide
    have hlength : 3 ≤ (b.table t.2).length := by
      rw [hb.length_table ht]
      exact Nat.succ_le_succ (hlong t.1 (List.mem_of_getElem? ht))
    obtain ⟨p, hp⟩ := hb.table ht
    have hwrite := exchanges_write t.1.cmd p (!t.1.grouped) s
    rw [← hp] at hwrite
    refine hwrite.attempt_bind ?_
    rintro _ _ ⟨e, rfl, he, -⟩
    refine (ih (fun u hu => hts u (by simp [hu])) _).mono fun es _ hes => ?_
    have hmessage : e.message = tableMessage b t :=
      Option.some.inj (he.symm.trans (plain?_of_long hlength _))
    rw [List.map_append, hes, List.map_cons, List.map_cons, hmessage]
    rfl

theorem replays_of_messages {b : Gamma.Buffer} (hb : Gamma.Laid Gamma.tables b) {es : List Exchange}
    (hes : es.map (·.message) = Gamma.tables.zipIdx.map (tableMessage b)) : Replays b es := by
  have htable {i : Nat} {t : Gamma.Table} (ht : Gamma.tables[i]? = some t) :
      (b.table i).headD 0 = t.cmd ∧ (b.table i).length = t.length + 1 := by
    obtain ⟨p, hp⟩ := hb.table ht
    exact ⟨by rw [hp, List.headD_cons], hb.length_table ht⟩
  have hmap {β : Type} (f : Message → β) : es.map (fun e => f e.message) =
      Gamma.tables.zipIdx.map fun t => f (tableMessage b t) := by
    simpa only [List.map_map, Function.comp_def] using congrArg (List.map f) hes
  obtain ⟨h₀, l₀⟩ := htable (i := 0) rfl
  obtain ⟨h₁, l₁⟩ := htable (i := 1) rfl
  obtain ⟨h₂, l₂⟩ := htable (i := 2) rfl
  refine ⟨hmap (·.tx), (hmap fun m => (m.type, m.cmd, m.tx.length, m.last)).trans ?_⟩
  show [(_, (b.table 0).headD 0, (b.table 0).length, _), (_, (b.table 1).headD 0, (b.table 1).length, _),
    (_, (b.table 2).headD 0, (b.table 2).length, _)] = _
  rw [h₀, l₀, h₁, l₁, h₂, l₂]
  rfl

theorem exchanges_replayGamma {s : State (Recorder σ)} (hs : s.gamma.Laid) (i : Nat) :
    Exchanges State.record (replayGamma i) s fun es _ =>
      (s.buffer? i).elim (es = []) (Replays · es) := by
  cases hb : s.buffer? i with
  | none =>
    have hreplay : replayGamma i s = (pure () : Action (State (Recorder σ)) Unit) s := by
      rw [replayGamma, Action.get_bind, hb]
    exact (Action.exchanges_pure rfl).congr hreplay
  | some b =>
    have hreplay : replayGamma i s = sendTables b Gamma.tables.zipIdx s := by
      rw [replayGamma, Action.get_bind, hb]
    have hl : Gamma.Laid Gamma.tables b := hs b (List.mem_of_getElem? (Option.join_eq_some_iff.mp hb))
    refine (exchanges_sendTables hl _ (fun t ht => List.mem_zipIdx_iff_getElem?.mp ht) s).mono ?_
      |>.congr hreplay
    exact fun es _ hes => replays_of_messages hl hes

/-- What is exchanged once the panel is unlocked for a switch. -/
theorem exchanges_switchUnlocked {s : State (Recorder σ)} (hs : s.gamma.Laid) (i : Nat) :
    Exchanges State.record (switchUnlocked c i) s fun es _ => Switches c s i es := by
  refine (exchanges_sendTiming i s).attempt_bind fun timing _ htiming => ?_
  rw [after_sendTiming]
  refine (exchanges_writeControl _ _).attempt_bind ?_
  rintro _ _ ⟨control, rfl, hcontrol⟩
  have hkept : ((writeControl c ((c.rate? (some i)).getD 0)).after (s.sent c (some i))).gamma =
      s.gamma := by
    rw [writeControl, Action.after_get_bind, after_onHost]
    rfl
  generalize (writeControl c ((c.rate? (some i)).getD 0)).after (s.sent c (some i)) = t at *
  refine (exchanges_replayGamma (hkept ▸ hs) i).mono fun tables _ htables => ?_
  rw [State.buffer?, hkept] at htables
  exact ⟨timing, control, tables, rfl, htiming, hcontrol, htables⟩

omit [Transport σ] in
/-- Nothing that a switch sends to an unlocked panel locks it, unless its commands do. -/
theorem Switches.unlocked (hsets : ∀ t ∈ c.timings, ∀ m ∈ t.switch.messages, m.cmd ≠ 0xF0)
    {s : State σ} {i : Nat} {es : List Exchange} (h : Switches c s i es) :
    ∀ e ∈ es, e.message.tx ≠ Gamma.lock := by
  have hne {e : Exchange} (he : e.message.cmd ≠ 0xF0) : e.message.tx ≠ Gamma.lock := fun htx =>
    he (by rw [Message.cmd, htx]; rfl)
  obtain ⟨timing, control, tables, rfl, htiming, hcontrol, htables⟩ := h
  refine List.forall_mem_append.mpr ⟨fun e he => hne ?_, List.forall_mem_cons.mpr ⟨hne ?_, ?_⟩⟩
  · have hm : e.message ∈ c.switchMessages (some i) :=
      htiming.isPrefix.subset (List.mem_map_of_mem he)
    rw [Config.switchMessages, Option.bind_some] at hm
    cases ht : c.timings[i]? with
    | none =>
      rw [ht] at hm
      cases hm
    | some t =>
      rw [ht] at hm
      exact hsets t (List.mem_of_getElem? ht) _ hm
  · rw [hcontrol.cmd]
    decide
  · cases hb : s.buffer? i with
    | none =>
      rw [hb] at htables
      rw [show tables = [] from htables]
      exact fun e he => absurd he List.not_mem_nil
    | some b =>
      rw [hb] at htables
      intro e he
      have hcmd : e.message.cmd ∈ [0xC8, 0xC9, 0xB3] := by
        rw [← htables.cmds]
        exact List.mem_map_of_mem he
      refine hne fun h => ?_
      rw [h] at hcmd
      exact absurd hcmd (by decide)

theorem enveloped_performSwitch (hc : c.family = .gamma)
    (hsets : ∀ t ∈ c.timings, ∀ m ∈ t.switch.messages, m.cmd ≠ 0xF0) {s : State (Recorder σ)}
    (hs : s.gamma.Laid) (i : Nat) :
    Exchanges State.record (performSwitch c i) s fun es _ => Enveloped (Switches c s i) es := by
  rw [performSwitch, hc]
  refine (exchanges_write _ _ true s).outcome_bind ?_
  rintro _ r ⟨unlock, rfl, hu, ht⟩
  cases r with
  | error e =>
    refine Action.exchanges_pure (.refused hu fun htaken => ?_)
    cases ht.mpr htaken
  | ok u =>
    rw [after_onHost]
    refine (exchanges_switchUnlocked (by exact hs) i).bind_of_succeeds (succeeds_switchUnlocked i) ?_
    intro inside _ hi
    refine (exchanges_write _ _ true _).attempt ?_
    rintro _ _ ⟨lock, rfl, hl, -⟩
    exact .held hu (ht.mp rfl) hi (hi.unlocked hsets) hl

/-- A session of reading lies between unlocking and locking too. -/
theorem Session.enveloped {es : List Exchange} {ok : Bool} (h : Session es ok) :
    Enveloped (fun _ => True) es := by
  cases h with
  | refused hu ht => exact .refused hu ht
  | held hu ht hi hl =>
    refine .held hu ht trivial (fun e he htx => hi.unlocked e he ?_) hl
    rw [Message.cmd, htx]
    rfl

/-- Whatever fails on a panel with gamma tables whose timings do not lock it by themselves, a switch
and reading the tables unlock it first. If it does not unlock it is sent nothing more. Otherwise it is
locked once and at the end, and a switch sends in between the commands of the timing up to the first
that fails, the control register once, and all tables of the timing one after the other and in full. -/
theorem unlocked_panels_are_locked (c : Config) (hc : c.family = .gamma)
    (hsets : ∀ t ∈ c.timings, ∀ m ∈ t.switch.messages, m.cmd ≠ 0xF0) (host : σ) (display : Display)
    (pwm : Option Pwm) (regulator : Option Regulator) (inputs : List Input) :
    let s := run c (State.initial c ({ host } : Recorder σ) display pwm regulator) inputs
    -- A step leaves the tables alone until it switches or reads them, whatever else it does before.
    ∀ t : State (Recorder σ), t.gamma = s.gamma →
      (∀ i, ∃ es, ((performSwitch c i).after t).record = t.record ++ es ∧
        Enveloped (Switches c t i) es) ∧
      (t.gamma.ready = false → ∃ es, ((readGamma c).after t).record = t.record ++ es ∧
        Enveloped (fun _ => True) es) := by
  intro s t ht
  have hs : s.gamma.Laid := laid_run (laid_initial c _ display pwm regulator) inputs
  rw [← ht] at hs
  exact ⟨enveloped_performSwitch hc hsets hs, fun hr =>
    (session_readGamma hc hr).mono fun _ _ h => h.enveloped⟩

/-- The command of the only timing fails, and so does all that addresses the second table. Reading the
tables and switching to the timing go on, and the panel is locked after each. -/
theorem unlocked_panel_is_locked_after_failures :
    let commands : List Dsi.Command :=
      [⟨.shortWriteParam, true, 0, [0x60, 0x01]⟩, ⟨.shortWrite, true, 0, [0x61]⟩]
    let c := { Bench.gammaPlain none with timings := [⟨1080, 2340, 60, { commands }⟩] }
    let host : Bench.Host := { failing := [0x60, 0xC9] }
    let start := State.initial c ({ host } : Recorder Bench.Host) {} none none
    let s := run c start [.request .enable]
    let t := run c start [.request .enable, .request .postEnable]
    ∃ es fs, ((readGamma c).after s).record = s.record ++ es ∧ Enveloped (fun _ => True) es ∧
      es.map (fun e => (e.message.cmd, decide e.Taken)) = [(0xF0, true), (0xC8, true), (0xC9, false),
        (0xB0, true), (0xB3, true), (0xF0, true)] ∧
      ((performSwitch c 0).after t).record = t.record ++ fs ∧ Enveloped (Switches c t 0) fs ∧
      fs.map (fun e => (e.message.cmd, decide e.Taken)) = [(0xF0, true), (0x60, false), (0x53, true),
        (0xC8, true), (0xC9, false), (0xB3, true), (0xF0, true)] := by
  intro commands c host start s t
  have hsets : ∀ t ∈ c.timings, ∀ m ∈ t.switch.messages, m.cmd ≠ 0xF0 := by decide
  have hlog {x : State (Recorder Bench.Host)} {es : List Exchange} {y : State (Recorder Bench.Host)}
      (h : y.record = x.record ++ es) : es = y.record.drop x.record.length := by
    rw [h, List.drop_left]
  obtain ⟨-, hread⟩ := unlocked_panels_are_locked c rfl hsets _ {} none none [.request .enable] s rfl
  obtain ⟨es, hes, he⟩ := hread (by decide +kernel)
  obtain ⟨hswitch, -⟩ := unlocked_panels_are_locked c rfl hsets _ {} none none
    [.request .enable, .request .postEnable] t rfl
  obtain ⟨fs, hfs, hf⟩ := hswitch 0
  refine ⟨es, fs, hes, he, ?_, hfs, hf, ?_⟩
  · rw [hlog hes]
    decide +kernel
  · rw [hlog hfs]
    decide +kernel

end OledPanel.Panel
