import OledPanel.Proofs.Exchanges
import OledPanel.Proofs.Switching

/-! Flash mode while gamma tables are read. A panel that has entered flash mode is told to leave it
unless a write fails before. A failing write ends the reading on the spot, and the next message
locks the panel, so flash mode is left on. A question that fails ends nothing. -/

namespace OledPanel

open OledPanel.Action (Chained Exchanges Obeys)
open Dsi (Exchange Message Recorder Transport)

namespace Dsi

/-- It ends no reading: a question whatever it is answered, or a write that the host takes. -/
def Exchange.Harmless (e : Exchange) : Prop := e.message.isRead = true ∨ e.Taken

instance (e : Exchange) : Decidable e.Harmless := inferInstanceAs (Decidable (_ ∨ _))

/-- Messages with a property, up to the first write that fails. -/
inductive Unbroken (P : Message → Prop) : List Exchange → Bool → Prop
  | done {es : List Exchange} (h : ∀ e ∈ es, P e.message ∧ e.Harmless) : Unbroken P es true
  | broken {es : List Exchange} {e : Exchange} (h : ∀ e ∈ es, P e.message ∧ e.Harmless)
    (he : P e.message) (hf : ¬e.Harmless) : Unbroken P (es ++ [e]) false

variable {P : Message → Prop}

theorem Unbroken.all {es : List Exchange} {b : Bool} (h : Unbroken P es b) : ∀ e ∈ es, P e.message := by
  cases h with
  | done h => exact fun e he => (h e he).1
  | broken h hp =>
    intro e he
    obtain he | he := List.mem_append.mp he
    · exact (h e he).1
    · rwa [List.mem_singleton.mp he]

theorem Unbroken.harmless {es : List Exchange} (h : Unbroken P es true) :
    ∀ e ∈ es, P e.message ∧ e.Harmless := by
  cases h with
  | done h => exact h

theorem chained_unbroken : Chained (Unbroken P) where
  nil := .done nofun
  append h k := by
    cases h with
    | done h =>
      have happend {fs : List Exchange} (hfs : ∀ e ∈ fs, P e.message ∧ e.Harmless) :=
        List.forall_mem_append.mpr ⟨h, hfs⟩
      cases k with
      | done k => exact .done (happend k)
      | broken k he hf =>
        rw [← List.append_assoc]
        exact .broken (happend k) he hf

variable {σ α : Type} [Transport σ]

theorem unbroken_writeBuffer {cmd : UInt8} {params : List UInt8} {last : Bool}
    (h : ∀ m ∈ plain? (cmd :: params) last, P m) :
    Obeys (S := Recorder σ) Recorder.record (Unbroken P) (writeBuffer (cmd :: params) last) := by
  intro r
  refine (exchanges_writeBuffer cmd params last r).mono ?_
  rintro _ a ⟨e, rfl, he, ha⟩
  have hp : P e.message := h _ he
  cases hok : a.isOk with
  | true => exact .done (List.forall_mem_singleton.mpr ⟨hp, .inr (ha.mp hok)⟩)
  | false =>
    refine (.broken nofun hp ?_ : Unbroken P ([] ++ [e]) false)
    rintro (hread | htaken)
    · rw [he.isRead] at hread
      cases hread
    · rw [ha.mpr htaken] at hok
      cases hok

end Dsi

namespace Gamma

open Dsi (Unbroken writeBuffer)

/-- Messages that neither unlock nor lock the panel and neither enter nor leave flash mode. -/
def Inner (m : Message) : Prop := m.cmd ≠ 0xF0 ∧ m.cmd ≠ 0xF1

instance (m : Message) : Decidable (Inner m) := inferInstanceAs (Decidable (_ ∧ _))

variable {σ α : Type} [Transport σ]

/-- From any host on, inner messages are exchanged up to the first write that fails. -/
abbrev Works (x : Action (Recorder σ) α) : Prop := Obeys Recorder.record (Unbroken Inner) x

omit [Transport σ] in
theorem Works.pure (a : α) : Works (Pure.pure a : Action (Recorder σ) α) :=
  Obeys.pure Dsi.chained_unbroken a

omit [Transport σ] in
theorem Works.bind {β : Type} {x : Action (Recorder σ) α} {f : α → Action (Recorder σ) β}
    (hx : Works x) (hf : ∀ a, Works (f a)) : Works (x >>= f) :=
  Obeys.bind Dsi.chained_unbroken hx hf

theorem works_writeBuffer {cmd : UInt8} {params : List UInt8} {last : Bool}
    (hc : cmd ≠ 0xF0 ∧ cmd ≠ 0xF1) :
    Works (writeBuffer (cmd :: params) last : Action (Recorder σ) Unit) := by
  refine Dsi.unbroken_writeBuffer fun m hm => ?_
  rwa [Inner, Message.cmd, (Dsi.plain?_eq hm).1]

/-- A register that is not read in the end leaves the reading going. -/
theorem works_readSome {cmd : UInt8} {n : Nat} (hn : n ≠ 0) (hc : cmd ≠ 0xF0 ∧ cmd ≠ 0xF1) :
    Works (readSome cmd n : Action (Recorder σ) (List UInt8)) := by
  intro r
  refine (Dsi.exchanges_read cmd hn r).outcome_bind ?_
  rintro _ a ⟨e, rfl, he, -⟩
  have hquestion : Unbroken Inner [e] true := by
    refine .done (List.forall_mem_singleton.mpr ⟨?_, .inl ?_⟩)
    · rwa [he]
    · rw [he]
      rfl
  cases a <;> exact Action.exchanges_pure hquestion

theorem works_readOtpTable (b : Buffer) {t : Table} (ht : t ∈ tables) (i : Nat) :
    Works (readOtpTable b t i : Action (Recorder σ) Buffer) := by
  have hcmd : ∀ t ∈ tables, t.length ≠ 0 ∧ t.cmd ≠ 0xF0 ∧ t.cmd ≠ 0xF1 := by decide
  obtain ⟨hlength, hcmd⟩ := hcmd t ht
  have hread : Works (σ := σ) (do return b.setPayload i 0 (← readSome t.cmd t.length)) :=
    (works_readSome hlength hcmd).bind fun _ => Works.pure _
  unfold readOtpTable
  dsimp only
  split
  · exact (works_writeBuffer (by decide)).bind fun _ => hread
  · exact hread

theorem works_readFlashByte (offset : Nat) : Works (readFlashByte offset : Action (Recorder σ) UInt8) := by
  refine (works_writeBuffer (by decide)).bind fun _ => ?_
  refine (works_writeBuffer (by decide)).bind fun _ => ?_
  refine (works_writeBuffer (by decide)).bind fun _ => ?_
  refine (works_readSome (by decide) (by decide)).bind fun _ => ?_
  exact Works.pure _

theorem works_readFlashBytes (offset n : Nat) :
    Works (readFlashBytes offset n : Action (Recorder σ) (List UInt8)) := by
  induction n generalizing offset with
  | zero => exact Works.pure _
  | succ n ih =>
    refine (works_readFlashByte offset).bind fun b => ?_
    exact (ih (offset + 1)).bind fun _ => Works.pure _

theorem works_readFlashTable (b : Buffer) (t : Table) (i : Nat) :
    Works (readFlashTable b t i : Action (Recorder σ) Buffer) :=
  (works_readFlashBytes _ _).bind fun _ => Works.pure _

omit [Transport σ] in
theorem works_readTables {read : Buffer → Table → Nat → Action (Recorder σ) Buffer} (ts : List Table)
    (hread : ∀ b, ∀ t ∈ ts, ∀ i, Works (read b t i)) (i : Nat) (b : Buffer) :
    Works (readTables read ts i b) := by
  induction ts generalizing i b with
  | nil => exact Works.pure _
  | cons t ts ih =>
    refine (hread b t (by simp) i).bind fun b => ?_
    exact ih (fun b u hu i => hread b u (by simp [hu]) i) (i + 1) b

/-! ### Entering and leaving -/

/-- The host has taken the message that enters flash mode. -/
def EntersFlash (e : Exchange) : Prop := e.Writes flashModeOn true ∧ e.Taken

instance (e : Exchange) : Decidable (EntersFlash e) := inferInstanceAs (Decidable (_ ∧ _))

/-- Harmless exchanges none of which leaves flash mode. -/
def Quiet (es : List Exchange) : Prop := ∀ e ∈ es, e.Harmless ∧ ¬e.Writes flashModeOff true

/-- What comes after flash mode was entered. It is left if all goes well up to there; otherwise the
exchanges end with the write that failed. -/
inductive LeavesFlash : List Exchange → Bool → Prop
  | left {inside later : List Exchange} {off leave : Exchange} {b : Bool} (hi : Quiet inside)
    (ho : off.Writes programOff true) (ht : off.Taken) (hl : leave.Writes flashModeOff true) :
    LeavesFlash (inside ++ off :: leave :: later) b
  | stuck {inside : List Exchange} {failed : Exchange} (hi : Quiet inside) (hf : ¬failed.Harmless)
    (hl : ¬failed.Writes flashModeOff true) : LeavesFlash (inside ++ [failed]) false

theorem LeavesFlash.append {es fs : List Exchange} {b : Bool} (h : LeavesFlash es true) :
    LeavesFlash (es ++ fs) b := by
  cases h with
  | left hi ho ht hl =>
    rw [List.append_assoc]
    exact .left hi ho ht hl

/-- What is exchanged while tables are read: the panel stays unlocked, and flash mode that is entered
is left unless a write fails. -/
structure Readout (es : List Exchange) (b : Bool) : Prop where
  unlocked : ∀ e ∈ es, e.message.cmd ≠ 0xF0
  leaves : ∀ before on rest, es = before ++ on :: rest → EntersFlash on → LeavesFlash rest b

theorem chained_readout : Chained Readout where
  nil := ⟨nofun, by simp⟩
  append {es fs b} h k := by
    refine ⟨List.forall_mem_append.mpr ⟨h.unlocked, k.unlocked⟩, fun before on rest hes hon => ?_⟩
    obtain ⟨as, rfl, hfs⟩ | ⟨as, hcut, hrest⟩ := List.append_eq_append_iff.mp hes
    · exact k.leaves as on rest hfs hon
    · -- The mode is entered in the first part, unless that ends right before.
      cases as with
      | nil => exact k.leaves [] on rest hrest.symm hon
      | cons a as =>
        rw [List.cons_append, List.cons.injEq] at hrest
        obtain ⟨rfl, rfl⟩ := hrest
        exact (h.leaves before on as hcut hon).append

theorem readout_of_unbroken {es : List Exchange} {b : Bool} (h : Unbroken Inner es b) : Readout es b := by
  refine ⟨fun e he => (h.all e he).1, fun before on rest hes hon => ?_⟩
  have hinner : Inner on.message := h.all on (by simp [hes])
  exact absurd hon.1.cmd hinner.2

/-- Exchanges that neither lock the panel nor enter flash mode. -/
def Passing (es : List Exchange) : Prop :=
  ∀ e ∈ es, e.message.cmd ≠ 0xF0 ∧ ¬e.Writes flashModeOn true

theorem quiet_of_inner {es : List Exchange} (h : ∀ e ∈ es, Inner e.message ∧ e.Harmless) : Quiet es :=
  fun e he => ⟨(h e he).2, fun hw => (h e he).1.2 hw.cmd⟩

theorem passing_of_unbroken {es : List Exchange} {b : Bool} (h : Unbroken Inner es b) : Passing es :=
  fun e he => ⟨(h.all e he).1, fun hw => (h.all e he).2 hw.cmd⟩

theorem leaves_of_unbroken {es : List Exchange} (h : Unbroken Inner es false) : LeavesFlash es false := by
  cases h with
  | broken h he hf => exact .stuck (quiet_of_inner h) hf fun hw => he.2 hw.cmd

/-- A reading from flash enters flash mode first and not again. -/
theorem readout_cons {on : Exchange} {rest : List Exchange} {b : Bool}
    (hw : on.Writes flashModeOn true) (hp : Passing rest) (h : on.Taken → LeavesFlash rest b) :
    Readout (on :: rest) b where
  unlocked e he := by
    obtain rfl | he := List.mem_cons.mp he
    · rw [hw.cmd]
      decide
    · exact (hp e he).1
  leaves before on' rest' hes hon := by
    cases before with
    | nil =>
      rw [List.nil_append, List.cons.injEq] at hes
      obtain ⟨rfl, rfl⟩ := hes
      exact h hon.2
    | cons e before =>
      rw [List.cons_append, List.cons.injEq] at hes
      exact absurd hon.1 (hp on' (by simp [hes.2])).2

/-- Either flash mode is entered, or that fails and nothing follows. -/
theorem exchanges_enterFlashMode (r : Recorder σ) :
    Exchanges Recorder.record enterFlashMode r fun es a => ∃ on fs, es = on :: fs ∧
      on.Writes flashModeOn true ∧
        (Unbroken Inner fs a.isOk ∨ ¬on.Taken ∧ fs = [] ∧ a.isOk = false) := by
  have hrest : Works (σ := σ) (do
      writeBuffer programOn true
      writeBuffer writeEnable true
      writeBuffer execute true
      writeBuffer quadEnable true
      writeBuffer execute true) := by
    refine (works_writeBuffer (by decide)).bind fun _ => ?_
    refine (works_writeBuffer (by decide)).bind fun _ => ?_
    refine (works_writeBuffer (by decide)).bind fun _ => ?_
    refine (works_writeBuffer (by decide)).bind fun _ => ?_
    exact works_writeBuffer (by decide)
  refine (Dsi.exchanges_writeBuffer _ _ true r).bind ?_ ?_
  · rintro _ a ⟨on, rfl, hw, -⟩
    exact (hrest _).mono fun fs a hfs => ⟨on, fs, rfl, hw, .inl hfs⟩
  · rintro _ e ⟨on, rfl, hw, ht⟩
    exact ⟨on, [], rfl, hw, .inr ⟨(nomatch ht.mpr ·), rfl, rfl⟩⟩

/-- Flash mode is left behind what went well in it, unless programming cannot be ended. -/
theorem exchanges_leaveFlashMode {inside : List Exchange} (hi : Quiet inside) (r : Recorder σ) :
    Exchanges Recorder.record leaveFlashMode r fun es a =>
      Passing es ∧ LeavesFlash (inside ++ es) a.isOk := by
  have hpassing {e : Exchange} (he : e.Writes programOff true ∨ e.Writes flashModeOff true) :
      e.message.cmd ≠ 0xF0 ∧ ¬e.Writes flashModeOn true := by
    rw [Message.cmd]
    obtain he | he := he <;>
      exact ⟨by rw [he.tx]; decide, fun hw => absurd (he.tx.symm.trans hw.tx) (by decide)⟩
  refine (Dsi.exchanges_writeBuffer _ _ true r).bind ?_ ?_
  · rintro _ a ⟨off, rfl, ho, ht⟩
    refine (Dsi.exchanges_writeBuffer _ _ true _).mono ?_
    rintro _ b ⟨leave, rfl, hl, -⟩
    refine ⟨List.forall_mem_cons.mpr ⟨hpassing (.inl ho), ?_⟩, .left hi ho (ht.mp rfl) hl⟩
    exact List.forall_mem_singleton.mpr (hpassing (.inr hl))
  · rintro _ e ⟨off, rfl, ho, ht⟩
    refine ⟨List.forall_mem_singleton.mpr (hpassing (.inl ho)), .stuck hi ?_ ?_⟩
    · rintro (hread | htaken)
      · rw [ho.isRead] at hread
        cases hread
      · cases ht.mpr htaken
    · exact fun hw => absurd (ho.tx.symm.trans hw.tx) (by decide)

theorem readout_readFlash : Obeys (S := Recorder σ) Recorder.record Readout (readFlash tables) := by
  have htables := works_readTables tables fun b t _ i => works_readFlashTable (σ := σ) b t i
  intro r
  refine (exchanges_enterFlashMode r).bind ?_ ?_
  · rintro _ a ⟨on, fs, rfl, hw, hfs | ⟨-, -, ⟨⟩⟩⟩
    refine (htables 0 (Buffer.blank tables) _).bind (fun gs b hgs => ?_) fun gs e hgs => ?_
    · have hinside := Dsi.chained_unbroken.append hfs hgs
      have hreadout {ls : List Exchange} {b : Bool} (h : Passing ls ∧ LeavesFlash (fs ++ gs ++ ls) b) :
          Readout (on :: fs ++ (gs ++ ls)) b := by
        rw [List.cons_append, ← List.append_assoc]
        exact readout_cons hw (List.forall_mem_append.mpr ⟨passing_of_unbroken hinside, h.1⟩) fun _ => h.2
      refine (exchanges_leaveFlashMode (quiet_of_inner hinside.harmless) _).bind ?_ ?_
      · intro ls u hls
        rw [← List.append_nil ls] at hls
        exact Action.exchanges_pure (hreadout hls)
      · exact fun ls e hls => hreadout hls
    · have hinside := Dsi.chained_unbroken.append hfs hgs
      exact readout_cons hw (passing_of_unbroken hinside) fun _ => leaves_of_unbroken hinside
  · rintro _ e ⟨on, fs, rfl, hw, hfs | ⟨ht, rfl, -⟩⟩
    · exact readout_cons hw (passing_of_unbroken hfs) fun _ => leaves_of_unbroken hfs
    · exact readout_cons hw nofun fun h => absurd h ht

theorem readout_readOtp : Obeys (S := Recorder σ) Recorder.record Readout (readOtp tables) := by
  have htables := works_readTables tables fun b t ht i => works_readOtpTable (σ := σ) b ht i
  exact fun r => (htables 0 (Buffer.blank tables) r).mono fun _ _ h => readout_of_unbroken h

end Gamma

namespace Panel

open Gamma (Readout EntersFlash LeavesFlash Quiet chained_readout)

variable {σ : Type} [Transport σ] {c : Config}

theorem readout_readTiming (rate : UInt32) :
    Obeys (S := Recorder σ) Recorder.record Readout (readTiming rate) := by
  unfold readTiming
  split
  · exact Gamma.readout_readOtp
  · split
    · exact Gamma.readout_readFlash
    · exact fun _ => Action.exchanges_throw ⟨nofun, by simp⟩

theorem readout_readTimings (ts : List (Timing × Nat)) :
    Obeys (S := State (Recorder σ)) State.record Readout (readTimings ts) := by
  induction ts with
  | nil => exact Obeys.pure chained_readout _
  | cons t ts ih =>
    refine (obeys_onHost (readout_readTiming t.1.rate)).bind chained_readout fun b s => ?_
    exact Action.exchanges_modify_bind rfl (ih _)

theorem readout_readModes : Obeys (S := State (Recorder σ)) State.record Readout (readModes c) := by
  refine (readout_readTimings _).bind chained_readout fun _ s => ?_
  exact ⟨[], (List.append_nil _).symm, chained_readout.nil⟩

/-- What is exchanged to read tables: a panel that does not unlock is asked nothing, any other is
locked at the end, whatever became of the reading. -/
inductive Session : List Exchange → Bool → Prop
  | refused {unlock : Exchange} (hu : unlock.Writes Gamma.unlock true) (ht : ¬unlock.Taken) :
    Session [unlock] false
  | held {unlock lock : Exchange} {inside : List Exchange} {b ok : Bool}
    (hu : unlock.Writes Gamma.unlock true) (ht : unlock.Taken) (hi : Readout inside b)
    (hl : lock.Writes Gamma.lock true) (hb : b = false → ok = false) :
    Session (unlock :: inside ++ [lock]) ok

theorem session_readUnlocked (s : State (Recorder σ)) :
    Action.Exchanges State.record (readUnlocked c) s fun es a => Session es a.isOk := by
  refine (exchanges_write _ _ true s).bind ?_ ?_
  · rintro _ u ⟨unlock, rfl, hu, ht⟩
    refine (readout_readModes _).outcome_bind fun inside r hi => ?_
    have hlock (t : State (Recorder σ)) : Action.Exchanges State.record (do
        onHost (Dsi.writeBuffer Gamma.lock true)
        Action.ofExcept r) t fun es a => Session (unlock :: inside ++ es) a.isOk := by
      refine (exchanges_write _ _ true t).bind ?_ ?_
      · rintro _ u ⟨lock, rfl, hl, -⟩
        exact Action.exchanges_ofExcept (.held hu (ht.mp rfl) hi hl id)
      · rintro _ e ⟨lock, rfl, hl, -⟩
        exact .held hu (ht.mp rfl) hi hl fun _ => rfl
    split
    · exact Action.exchanges_modify_bind rfl (hlock _)
    · exact hlock _
  · rintro _ e ⟨unlock, rfl, hu, ht⟩
    exact .refused hu (nomatch ht.mpr ·)

/-- Flash mode is entered between unlocking and locking, so all that follows is part of the reading but
the lock at the end. -/
theorem Session.leaves {es before rest : List Exchange} {on : Exchange} {ok : Bool} (h : Session es ok)
    (hes : es = before ++ on :: rest) (hon : EntersFlash on) :
    ∃ reading lock b, rest = reading ++ [lock] ∧ lock.Writes Gamma.lock true ∧
      (∀ e ∈ reading, e.message.cmd ≠ 0xF0) ∧ LeavesFlash reading b ∧ (b = false → ok = false) := by
  have hkey {e : Exchange} {tx : List UInt8} (he : e.Writes (0xF0 :: tx) true) : e ≠ on := by
    rintro rfl
    have hcmd : (0xF0 : UInt8) = 0xF1 := he.cmd.symm.trans hon.1.cmd
    exact absurd hcmd (by decide)
  cases before with
  | nil =>
    cases h with
    | refused hu => exact absurd (List.cons.inj hes).1 (hkey hu)
    | held hu => exact absurd (List.cons.inj hes).1 (hkey hu)
  | cons e before =>
    cases h with
    | refused => simp at hes
    | @held unlock lock inside b _ _ _ hi hl hb =>
      have hinside : inside ++ [lock] = before ++ on :: rest := (List.cons.inj hes).2
      obtain rfl | ⟨reading, last, rfl⟩ := List.eq_nil_or_concat rest
      · have hlast := (List.append_inj' hinside rfl).2
        exact absurd (List.cons.inj hlast).1 (hkey hl)
      · rw [List.concat_eq_append, ← List.cons_append, ← List.append_assoc] at hinside
        obtain ⟨rfl, hlast⟩ := List.append_inj' hinside rfl
        obtain rfl := (List.cons.inj hlast).1
        refine ⟨reading, lock, b, List.concat_eq_append, hl, fun e he => ?_, ?_, hb⟩
        · exact hi.unlocked e (by simp [he])
        · exact hi.leaves before on reading rfl hon

theorem session_readGamma (hc : c.family = .gamma) {s : State (Recorder σ)}
    (hs : s.gamma.ready = false) :
    Action.Exchanges State.record (readGamma c) s fun es a => Session es a.isOk :=
  (session_readUnlocked s).congr (readGamma_of_given_up hc hs)

/-- Whatever fails while tables are read, flash mode that was entered is left again if no write fails
in it: the panel is told to end programming and, if it takes that, to leave flash mode. Otherwise the
write that fails is the last message of the reading, which fails, and flash mode is not left. Either
way the panel is locked after it and not before. -/
theorem flash_mode_left_unless_write_fails (c : Config) (s : State (Recorder σ)) :
    ∃ es, ((readGamma c).after s).record = s.record ++ es ∧
      ∀ before on rest, es = before ++ on :: rest → EntersFlash on →
        ∃ inside later lock, rest = inside ++ later ++ [lock] ∧ Quiet inside ∧
          lock.Writes Gamma.lock true ∧ (∀ e ∈ inside ++ later, e.message.cmd ≠ 0xF0) ∧
          ((∃ off leave more, later = off :: leave :: more ∧ off.Writes Gamma.programOff true ∧
              off.Taken ∧ leave.Writes Gamma.flashModeOff true) ∨
            ∃ failed, later = [failed] ∧ ¬failed.Harmless ∧
              ¬failed.Writes Gamma.flashModeOff true ∧ ((readGamma c).answer s).isOk = false) := by
  by_cases hread : c.family = .gamma ∧ s.gamma.ready = false
  · obtain ⟨es, hes, hsession⟩ := session_readGamma hread.1 hread.2
    refine ⟨es, hes, fun before on rest hcut hon => ?_⟩
    obtain ⟨reading, lock, b, rfl, hl, hunlocked, hleaves, hb⟩ := hsession.leaves hcut hon
    cases hleaves with
    | @left inside more off leave _ hi ho ht hleave =>
      exact ⟨inside, _, lock, rfl, hi, hl, hunlocked, .inl ⟨off, leave, more, rfl, ho, ht, hleave⟩⟩
    | @stuck inside failed hi hf hleave =>
      exact ⟨inside, _, lock, rfl, hi, hl, hunlocked, .inr ⟨failed, rfl, hf, hleave, hb rfl⟩⟩
  · -- Nothing is asked of a panel without tables, or of one whose tables are there.
    refine ⟨[], ?_, by simp⟩
    rw [List.append_nil]
    cases hc : c.family with
    | generic => rw [readGamma, hc, Action.after_throw]
    | gamma =>
      have hs : s.gamma.ready = true := by simpa [hc] using hread
      rw [Action.after, readGamma_of_ready hc hs]

/-- The message behind the one that enters flash mode fails. The panel is locked at once and nothing
tells it to leave flash mode. -/
theorem flash_mode_left_on_by_failed_write :
    let c := Bench.gammaPlain none
    let host : Bench.Host := { countdown := some 7 }
    let s := run c (State.initial c ({ host } : Recorder Bench.Host) {} none none)
      [.request .enable, .request .postEnable]
    (Config.ofNode (Bench.gammaNode []) false).toOption = some c ∧
      s.record.map (fun e => (e.message.tx, decide e.Taken)) = [
        ([Dsi.setBrightness, 127], true), (Gamma.unlock, true), ([0xC8], true), ([0xC9], true),
        ([Gamma.parameterPointer, 0x02], true), ([0xB3], true), (Gamma.flashModeOn, true),
        (Gamma.programOn, false), (Gamma.lock, true)] := by
  decide +kernel

end Panel
end OledPanel
