import OledPanel.Proofs.Recording
import OledPanel.Proofs.Turns
import OledPanel.Proofs.Updates

/-! The compensation register as it was written last. Setting or clearing the compensation bit
writes the bytes that are kept, whatever was kept before; nothing else a panel sends is about
compensation, so the bytes kept stay the ones written last. -/

namespace OledPanel

namespace Hbm.Irc

/-- The compensation bit among the bytes of the register, if they reach that far. -/
def bit? (i : Irc) (bytes : List UInt8) : Option Bool :=
  bytes[i.index]?.map fun b => decide (b &&& i.mask ≠ 0)

theorem length_withBit (i : Irc) (on : Bool) (bytes : List UInt8) :
    (i.withBit on bytes).length = bytes.length := List.length_modify ..

theorem size_ne_zero (i : Irc) : i.size ≠ 0 := Nat.succ_ne_zero _

theorem mask_ne_zero (i : Irc) : i.mask ≠ 0 := by
  have h : ∀ k < 8, (1 : UInt8) <<< UInt8.ofNat k ≠ 0 := by decide
  exact h _ (Nat.mod_lt _ (by decide))

/-- Whatever the register held, its bit is as it was asked for. -/
theorem bit?_withBit (i : Irc) (on : Bool) {bytes : List UInt8} (h : bytes.length = i.size) :
    i.bit? (i.withBit on bytes) = some on := by
  have hi : i.index < bytes.length := by
    rw [h, size]
    exact Nat.lt_succ_self _
  have hset (b : UInt8) : (b ||| i.mask) &&& i.mask = i.mask := by
    refine UInt8.toBitVec_inj.1 (BitVec.eq_of_getElem_eq fun k hk => ?_)
    simpa using Or.inr
  have hclear (b : UInt8) : (b &&& ~~~i.mask) &&& i.mask = 0 := by
    rw [UInt8.and_assoc, UInt8.not_and_self, UInt8.and_zero]
  rw [bit?, withBit, List.getElem?_modify_eq, List.getElem?_eq_getElem hi]
  cases on with
  | true => simp [hset, i.mask_ne_zero]
  | false => simp [hclear]

end Hbm.Irc

namespace Dsi

/-- The host took the message, and gave the whole register if that is what it was asked for. -/
def Exchange.Full (irc : Hbm.Irc) (e : Exchange) : Prop :=
  ∃ rx, e.reply = .ok rx ∧ (e.message = question irc.address irc.size → irc.size ≤ rx.length)

instance (irc : Hbm.Irc) (e : Exchange) : Decidable (e.Full irc) :=
  match h : e.reply with
  | .ok rx => decidable_of_iff (e.message = question irc.address irc.size → irc.size ≤ rx.length)
    ⟨fun hl => ⟨rx, h, hl⟩, fun ⟨_, hr, hl⟩ => Except.ok.inj (h.symm.trans hr) ▸ hl⟩
  | .error reason => .isFalse fun ⟨rx, hrx, _⟩ => by
    rw [h] at hrx
    cases hrx

end Dsi

namespace Panel

open OledPanel.Action (Within)
open Dsi (Exchange Message Recorder Transport)

variable {σ α : Type} {c : Config} {irc : Hbm.Irc}

/-- Messages that are not about compensation: those of command sets, and those that address a
register of the driver. -/
def Foreign (c : Config) (m : Message) : Prop :=
  (∃ set, c.Has set ∧ m ∈ set.messages) ∨
    m.cmd ∈ Dsi.setBrightness :: Dsi.getBrightness :: Dsi.writeControl :: Gamma.registers

/-- The bytes kept are the ones written to the register last: nothing that is about compensation was
sent since. -/
structure Kept (c : Config) (irc : Hbm.Irc) (bytes : List UInt8) (s : State (Recorder σ)) : Prop where
  kept : s.hbm.ircBytes = some bytes
  written : ∃ earlier m reply later, s.host.record = earlier ++ ⟨m, reply⟩ :: later ∧
    m.isRead = false ∧ m.tx = irc.address :: bytes ∧ ∀ e ∈ later, Foreign c e.message

/-- Gamma tables are laid out as they are sent, and the bytes kept are the whole register. -/
structure Sized (irc : Hbm.Irc) (s : State σ) : Prop where
  laid : s.gamma.Laid
  size : ∀ bytes, s.hbm.ircBytes = some bytes → bytes.length = irc.size

/-- What a relation says of runs without faults in which the register can be read in full. -/
abbrev Reliably (irc : Hbm.Irc) (R : State (Recorder σ) → State (Recorder σ) → Prop) :
    State (Recorder σ) → State (Recorder σ) → Prop := Recorded (Sized irc) (Exchange.Full irc) R

/-! ### What has nothing to do with compensation -/

/-- The mode, what is owed and the bytes kept are the same. -/
structure Stays (c : Config) (irc : Hbm.Irc) (s t : State (Recorder σ)) : Prop where
  mode : t.hbm.mode = s.hbm.mode
  owed : t.hbm.ircOwed = s.hbm.ircOwed
  kept : ∀ bytes, Kept c irc bytes s → Kept c irc bytes t

instance : IsPreorder (State (Recorder σ)) (Stays c irc) where
  refl _ := ⟨rfl, rfl, fun _ h => h⟩
  trans _ _ _ h k := ⟨k.mode.trans h.mode, k.owed.trans h.owed, fun b hb => k.kept b (h.kept b hb)⟩

theorem Kept.of_eq {bytes : List UInt8} {s t : State (Recorder σ)} (h : Kept c irc bytes s)
    (hh : t.host = s.host) (hb : t.hbm.ircBytes = s.hbm.ircBytes) : Kept c irc bytes t := by
  refine ⟨hb.trans h.kept, ?_⟩
  rw [hh]
  exact h.written

theorem stays_of_eq {s t : State (Recorder σ)} (hh : t.host = s.host) (hg : t.gamma = s.gamma)
    (hm : t.hbm.mode = s.hbm.mode) (ho : t.hbm.ircOwed = s.hbm.ircOwed)
    (hb : t.hbm.ircBytes = s.hbm.ircBytes) : Reliably irc (Stays c irc) s t := by
  refine recorded_of_eq hh (fun hs => ⟨?_, ?_⟩) fun _ => ⟨hm, ho, fun bytes h => h.of_eq hh hb⟩
  · rw [hg]
    exact hs.laid
  · rw [hb]
    exact hs.size

variable [Transport σ]

theorem stays_of_transfer (s : State (Recorder σ)) {m : Message} (hm : s.gamma.Laid → Foreign c m) :
    Reliably irc (Stays c irc) s { s with host := (Dsi.transfer m).after s.host } := by
  refine recorded_of_transfer rfl (fun hs => ⟨hs.laid, hs.size⟩) fun hs _ => ?_
  refine ⟨rfl, rfl, fun bytes h => ?_⟩
  obtain ⟨earlier, k, reply, later, hrecord, hk, htx, hlater⟩ := h.written
  refine ⟨h.kept, earlier, k, reply, later ++ [⟨m, s.host.reply m⟩], ?_, hk, htx, fun e he => ?_⟩
  · rw [Recorder.record_transfer, hrecord, List.append_assoc, List.cons_append]
  · obtain he | he := List.mem_append.mp he
    · exact hlater e he
    · rw [List.mem_singleton.mp he]
      exact hm hs.laid

theorem stays_chore (s t : State (Recorder σ)) (h : Chore c s t) : Reliably irc (Stays c irc) s t := by
  cases h with
  | transfer hm =>
    exact stays_of_transfer s fun hs => (hm.cmd hs).imp_right (List.mem_cons_of_mem _)
  | gamma g hg =>
    exact recorded_of_eq rfl (fun hs => ⟨hg hs.laid, hs.size⟩)
      fun _ => ⟨rfl, rfl, fun _ h => h.of_eq rfl rfl⟩
  | _ => exact stays_of_eq rfl rfl rfl rfl rfl

theorem stays_blind : Blind c (Reliably irc (Stays c irc) : State (Recorder σ) → _ → Prop) where
  task s t h := stays_chore s t h.chore
  dims _ _ _ _ := stays_of_eq rfl rfl rfl rfl rfl

theorem stays_updates : Updates c (Reliably irc (Stays c irc) : State (Recorder σ) → _ → Prop) where
  errand _ _ h := stays_chore _ _ h.chore
  level s level m hm := by
    refine stays_of_transfer s fun _ => .inr ?_
    rw [Message.cmd, (Dsi.plain?_eq hm).1]
    exact List.mem_cons_self ..
  backlight _ _ := stays_of_eq rfl rfl rfl rfl rfl
  restart := related_restartDimming stays_blind
  enter s _ _ _ hh hr _ _ := within_enterRange stays_blind hh hr s

/-! ### Writing the register -/

/-- The bytes kept have the bit as it was asked for. -/
def Wrote (c : Config) (irc : Hbm.Irc) (on : Bool) (t : State (Recorder σ)) : Prop :=
  ∃ bytes, irc.bit? bytes = some on ∧ Kept c irc bytes t

omit [Transport σ] in
theorem Wrote.stays {on : Bool} {s t : State (Recorder σ)} (h : Wrote c irc on s)
    (hst : Stays c irc s t) : Wrote c irc on t := by
  obtain ⟨bytes, hbit, hkept⟩ := h
  exact ⟨bytes, hbit, hst.kept bytes hkept⟩

theorem wrote_put (on : Bool) {old : List UInt8} (ho : old.length = irc.size) (s : State (Recorder σ)) :
    Reliably irc (fun _ => Wrote c irc on) s (Action.after (do
      modify fun s => { s with hbm.ircBytes := some (irc.withBit on old) }
      onHost (Dsi.write irc.address (irc.withBit on old)) : Action (State (Recorder σ)) Unit) s) := by
  obtain ⟨m, hm⟩ := Dsi.plain?_cons irc.address (irc.withBit on old) true
  obtain ⟨htx, hread⟩ := Dsi.plain?_eq hm
  rw [Action.after_modify_bind, after_onHost, Dsi.write, Dsi.writeBuffer_eq hm, Action.after_discard]
  refine recorded_of_transfer rfl (fun hs => ⟨hs.laid, ?_⟩) fun _ _ => ?_
  · rintro bytes ⟨⟩
    exact (irc.length_withBit on old).trans ho
  · refine ⟨_, irc.bit?_withBit on ho, rfl, s.host.record, m, s.host.reply m, [], ?_, hread, htx, nofun⟩
    exact Recorder.record_transfer m s.host

/-- Asking for the register yields all of it, or the host did not give it. -/
theorem fetch_cases (irc : Hbm.Irc) (r : Recorder σ) : let q := Dsi.question irc.address irc.size
    irc.fetch.after r = (Dsi.transfer q).after r ∧
      ((∃ bytes, irc.fetch.answer r = .ok bytes ∧ bytes.length = irc.size) ∨
        (∃ e, irc.fetch.answer r = .error e) ∧ ¬Exchange.Full irc ⟨q, r.reply q⟩) := by
  intro q
  rw [Hbm.Irc.fetch, Dsi.read_eq irc.address irc.size_ne_zero]
  cases hr : r.reply q with
  | error reason =>
    have hq : (Dsi.transfer q).answer r = _ := Dsi.answer_transfer_of_error hr
    simp only [Action.after_bind, Action.answer_bind, q, hq]
    refine ⟨trivial, .inr ⟨⟨_, rfl⟩, ?_⟩⟩
    rintro ⟨rx, ⟨⟩, -⟩
  | ok rx =>
    have hq : (Dsi.transfer q).answer r = .ok rx := Recorder.answer_transfer hr
    simp only [Action.after_bind, Action.answer_bind, q, hq, Action.answer_pure, Action.after_pure]
    split
    · next hl => exact ⟨rfl, .inl ⟨_, rfl, hl⟩⟩
    · next hl =>
      refine ⟨rfl, .inr ⟨⟨_, rfl⟩, ?_⟩⟩
      rintro ⟨bytes, ⟨⟩, hfull⟩
      exact hl (by rw [List.length_take, Nat.min_eq_left (hfull rfl)])

theorem wrote_applyIrc (on : Bool) (s : State (Recorder σ)) :
    Reliably irc (fun _ => Wrote c irc on) s ((applyIrc irc on).after s) := by
  rw [applyIrc, Action.after_get_bind]
  dsimp only
  cases hb : s.hbm.ircBytes with
  | some bytes =>
    intro hs
    exact wrote_put on (hs.size bytes hb) s hs
  | none =>
    obtain ⟨hafter, ⟨bytes, hok, hl⟩ | ⟨⟨e, he⟩, hfull⟩⟩ := fetch_cases irc s.host
    · have hasked : Reliably irc (fun _ _ => True) s { s with host := irc.fetch.after s.host } :=
        recorded_of_transfer hafter (fun hs => ⟨hs.laid, hs.size⟩) fun _ _ => trivial
      rw [Action.after_bind, answer_onHost, after_onHost, hok]
      exact recorded_comp hasked (wrote_put on hl _) fun _ h => h
    · rw [Action.after_bind, answer_onHost, after_onHost, he]
      exact recorded_of_transfer hafter (fun hs => ⟨hs.laid, hs.size⟩) fun _ h => absurd h hfull

theorem wrote_updateIrc (hirc : c.irc? = some irc) (on : Bool) (s : State (Recorder σ)) :
    Reliably irc (fun _ => Wrote c irc on) s ((updateIrc c on).after s) := by
  obtain ⟨h, hh, hi⟩ := Option.bind_eq_some_iff.mp hirc
  have hbind : c.hbm.bind (·.irc) = some irc := hirc
  have hsend {set : Dsi.CommandSet} (hs : c.Has set) (t : State (Recorder σ)) :
      Reliably irc (Stays c irc) t ((onHost set.send).after t) :=
    within_of_chores stays_chore (chores_send hs) t
  rw [updateIrc, hbind]
  dsimp only
  rw [Action.after_attempt_bind, Action.after_outcome_bind, Action.after_attempt_bind,
    Action.after_ofExcept]
  have hwrote : Reliably irc (fun _ => Wrote c irc on) s
      ((applyIrc irc on).after ((onHost irc.unlock.send).after s)) :=
    recorded_comp (hsend (.unlock hh hi) s) (wrote_applyIrc on _) fun _ h => h
  exact recorded_comp hwrote (hsend (.lock hh hi) _) fun h hlock => h.stays hlock

/-! ### Paying what is owed -/

/-- All is as it was, or compensation that was owed has been switched on. -/
def Pays (c : Config) (irc : Hbm.Irc) (s t : State (Recorder σ)) : Prop :=
  Stays c irc s t ∨ t.hbm.mode = s.hbm.mode ∧ s.hbm.ircOwed = true ∧ t.hbm.ircOwed = false ∧
    Wrote c irc true t

instance : IsPreorder (State (Recorder σ)) (Pays c irc) where
  refl s := .inl (refl s)
  trans s t u hst htu := by
    obtain hst | ⟨hm, hs, ht, hw⟩ := hst
    · obtain htu | ⟨hm, ht, hu, hw⟩ := htu
      · exact .inl (IsTrans.trans _ _ _ hst htu)
      · exact .inr ⟨hm.trans hst.mode, hst.owed.symm.trans ht, hu, hw⟩
    · obtain htu | ⟨-, ht', -, -⟩ := htu
      · exact .inr ⟨htu.mode.trans hm, hs, htu.owed.trans ht, hw.stays htu⟩
      · rw [ht] at ht'
        cases ht'

omit [Transport σ] in
theorem pays_of_stays {s t : State (Recorder σ)} (h : Reliably irc (Stays c irc) s t) :
    Reliably irc (Pays c irc) s t := recorded_mono h .inl

theorem pays_settleIrc (hirc : c.irc? = some irc) :
    Within (Reliably irc (Pays c irc)) (settleIrc c : Action (State (Recorder σ)) Unit) := by
  intro s
  rw [settleIrc, Action.after_get_bind]
  dsimp only
  split
  · next ho =>
    obtain ⟨g, b, hu⟩ := updateIrc_frame (c := c) true s
    have hwrote := wrote_updateIrc hirc true s
    rw [Action.after_attempt_bind, Action.after_modify]
    refine recorded_comp hwrote (recorded_of_eq (R := fun _ _ => True) rfl (fun hs => ⟨hs.laid, hs.size⟩)
      fun _ => trivial) ?_
    rintro ⟨bytes, hbit, hkept⟩ -
    exact .inr ⟨by rw [hu], ho, rfl, bytes, hbit, hkept.of_eq rfl rfl⟩
  · exact refl s

theorem pays_blind : Blind c (Reliably irc (Pays c irc) : State (Recorder σ) → _ → Prop) where
  task s t h := pays_of_stays (stays_chore s t h.chore)
  dims s d m i := pays_of_stays (stays_blind.dims s d m i)

theorem pays_admits (hirc : c.irc? = some irc) :
    Admits c (Reliably irc (Pays c irc) : State (Recorder σ) → _ → Prop) where
  chore s t h := pays_of_stays (stays_chore s t h)
  count := within_countFrame pays_blind (pays_settleIrc hirc)
  update := (within_update stays_updates).mono fun _ _ => pays_of_stays

end Panel
end OledPanel
