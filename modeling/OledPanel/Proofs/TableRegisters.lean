import OledPanel.Proofs.Calibration

/-! The registers of the gamma tables. What they deliver stays through every message that writes none
of them, and is replaced by tables that are sent. The tables of 90 Hz that are read then are the same
ones, as their bytes come from flash but for those that stay in the register. -/

namespace OledPanel

open OledPanel.Action (Ensures)
open Dsi (Message)

namespace Bench.Host

variable {h g k : Host} {p : Gamma.Table → List UInt8} {m : Message}

/-- The registers of another host deliver the tables of a rate. -/
def Offers (h : Host) (rate : UInt32) (g : Host) : Prop :=
  ∀ t ∈ Gamma.tables, g.calibration 60 t = h.calibration rate t

instance (h : Host) (rate : UInt32) (g : Host) : Decidable (h.Offers rate g) :=
  inferInstanceAs (Decidable (∀ t ∈ Gamma.tables, g.calibration 60 t = h.calibration rate t))

/-- A host without faults whose registers deliver these payloads, with the flash of another. -/
structure Delivers (h : Host) (p : Gamma.Table → List UInt8) (g : Host) : Prop where
  countdown : g.countdown = none
  failing : g.failing = []
  flash : g.flash = h.flash
  tables : ∀ t ∈ Gamma.tables, g.calibration 60 t = p t

theorem calibration_sixty (g : Host) (t : Gamma.Table) : g.calibration 60 t =
    (List.range t.length).map fun j => ((g.register? t.cmd).getD []).getD j 0 := by
  simp [calibration]

theorem Delivers.like (hg : h.Delivers p g) (hk : g.Like none k) : h.Delivers p k where
  countdown := hk.countdown.trans hg.countdown
  failing := hk.failing.trans hg.failing
  flash := hk.flash.trans hg.flash
  tables t ht := by rw [calibration_sixty, hk.registers t ht, ← calibration_sixty, hg.tables t ht]

theorem Delivers.accepts (hg : h.Delivers p g) (cmds : List UInt8) : g.Accepts cmds :=
  ⟨hg.countdown, fun _ _ => hg.failing ▸ List.not_mem_nil⟩

/-- The message asks a register, or it writes none that a table is read from. -/
def Harmless (m : Message) : Prop := m.isRead = true ∨ m.cmd ∉ Gamma.tables.map (·.cmd)

theorem like_respond_of_harmless (hm : Harmless m) (g : Host) :
    g.Like none (respond m (g.logged m)).2 := by
  have hlogged : g.Like none (g.logged m) := (Like.refl g).logged m
  by_cases hread : m.isRead = true
  · rw [respond, if_pos hread]
    split <;> exact hlogged
  · exact (like_respond hlogged (Bool.not_eq_true _ ▸ hread) (hm.resolve_left hread)).forget

theorem delivers_transfer (hm : Harmless m) :
    Ensures (h.Delivers p) (Dsi.transfer m) fun _ => h.Delivers p := by
  intro g hg
  have hlike : g.Like none _ := like_respond_of_harmless hm g
  exact ⟨_, _, transfer_of_like (hg.accepts _) (Like.refl g), hg.like hlike⟩

theorem delivers_discard (hm : Harmless m) :
    Ensures (h.Delivers p) (discard (Dsi.transfer m)) fun _ => h.Delivers p :=
  (delivers_transfer hm).discard.mono (fun _ hg => hg) fun _ _ ⟨_, hg⟩ => hg

theorem delivers_send {set : Dsi.CommandSet} (hset : ∀ m ∈ set.messages, Harmless m) :
    Ensures (h.Delivers p) set.send fun _ => h.Delivers p := by
  unfold Dsi.CommandSet.send
  generalize set.messages = ms at hset ⊢
  induction ms with
  | nil => exact fun g hg => ⟨⟨⟩, g, rfl, hg⟩
  | cons m ms ih =>
    exact (delivers_discard (hset m (by simp))).bind fun _ => ih fun n hn => hset n (by simp [hn])

theorem delivers_writeBuffer {tx : List UInt8} {last : Bool} (hm : Dsi.plain? tx last = some m)
    (hs : Harmless m) : Ensures (h.Delivers p) (Dsi.writeBuffer tx last) fun _ => h.Delivers p := by
  rw [Dsi.writeBuffer_eq hm]
  exact delivers_discard hs

/-- A write with this command byte spares the tables, if they have other registers. -/
theorem delivers_write (cmd : UInt8) (params : List UInt8) (last : Bool)
    (hcmd : cmd ∉ Gamma.tables.map (·.cmd)) :
    Ensures (h.Delivers p) (Dsi.writeBuffer (cmd :: params) last) fun _ => h.Delivers p := by
  obtain ⟨m, hm⟩ := Dsi.plain?_cons cmd params last
  refine delivers_writeBuffer hm (.inr ?_)
  rwa [Message.cmd, (Dsi.plain?_eq hm).1]

/-! ### Tables in registers -/

/-- The bytes that come from one-time memory are those of the register at either rate, so the tables
of 90 Hz are the same whichever tables the registers deliver. -/
theorem Delivers.ninety {rate : UInt32} (hg : h.Delivers (h.calibration rate) g) {t : Gamma.Table}
    (ht : t ∈ Gamma.tables) : g.calibration 90 t = h.calibration 90 t := by
  have hflash : g.flashByte = h.flashByte := by
    funext a
    rw [flashByte, flashByte, hg.flash]
  refine List.map_congr_left fun j hj => ?_
  by_cases hotp : t.otpLength ≤ j
  · rw [if_pos ⟨rfl, hotp⟩, if_pos ⟨rfl, hotp⟩, hflash]
  · have hbyte := congrArg (·[j]?) (hg.tables t ht)
    rw [List.mem_range] at hj
    simpa [calibration, hj, hotp] using hbyte

/-- Bytes of the length of a table that are in its register are what the register delivers. -/
theorem calibration_of_register {t : Gamma.Table} {bytes : List UInt8}
    (hr : g.register? t.cmd = some bytes) (hl : bytes.length = t.length) :
    g.calibration 60 t = bytes := by
  rw [calibration_sixty, hr]
  refine List.ext_getElem (by simp [hl]) fun j hj _ => ?_
  simp [show j < bytes.length by simpa [hl] using hj]

/-- A table that is written is in its register, and the others stay. -/
theorem respond_table {t : Gamma.Table} (ht : t ∈ Gamma.tables) {bytes : List UInt8}
    (hb : bytes ≠ []) (hm : m.isRead = false) (htx : m.tx = t.cmd :: bytes) (g : Host) :
    (respond m g).2 = g.setRegister t.cmd bytes := by
  have hcmd : m.cmd = t.cmd := by rw [Message.cmd, htx]; rfl
  have hother : ∀ t ∈ Gamma.tables, t.cmd ≠ Bench.flashControl ∧ t.cmd ≠ Bench.parameterPointer := by
    decide
  have hi : instruction? m = none := by
    rw [instruction?, hcmd]
    simp [(hother t ht).1]
  have hlen : 1 < m.tx.length := by
    have hpos := List.length_pos_iff.mpr hb
    rw [htx, List.length_cons]
    omega
  rw [respond, hm, if_neg (by decide), hi]
  dsimp only
  rw [if_pos ⟨hcmd ▸ (hother t ht).2, hlen⟩, hcmd, htx, List.tail_cons]

end Bench.Host

namespace Panel

open Bench (Host)
open Bench.Host (Delivers Harmless)

variable {c : Config} {h : Host}

/-- Tables that are sent are in their registers, and the others stay. -/
theorem after_sendTables {p : Gamma.Table → List UInt8} (hp : ∀ t, (p t).length = t.length)
    (ts : List (Gamma.Table × Nat)) (hts : ∀ t ∈ ts, Gamma.tables[t.2]? = some t.1) {s : State Host}
    (hc : s.host.countdown = none) (hf : s.host.failing = []) :
    ∃ g, (sendTables (Gamma.filled p) ts).after s = { s with host := g } ∧ g.countdown = none ∧
      g.failing = [] ∧ g.flash = s.host.flash ∧ ∀ u ∈ Gamma.tables,
        g.register? u.cmd = if u ∈ ts.map (·.1) then some (p u) else s.host.register? u.cmd := by
  induction ts generalizing s with
  | nil => exact ⟨s.host, rfl, hc, hf, rfl, fun u _ => by simp⟩
  | cons t ts ih =>
    have hat := hts t (by simp)
    have ht : t.1 ∈ Gamma.tables := List.mem_of_getElem? hat
    have hne : p t.1 ≠ [] := by
      have hpos : ∀ t ∈ Gamma.tables, t.length ≠ 0 := by decide
      rw [← List.length_pos_iff, hp]
      exact Nat.pos_of_ne_zero (hpos _ ht)
    have htable : (Gamma.filled p).table t.2 = t.1.cmd :: p t.1 :=
      Gamma.table_eq (Gamma.holds_filled hp) hat (by rw [List.getElem?_map, hat, Option.map_some])
    obtain ⟨m, hm⟩ := Dsi.plain?_cons t.1.cmd (p t.1) (!t.1.grouped)
    obtain ⟨htx, hread⟩ := Dsi.plain?_eq hm
    have hsent : (Dsi.transfer m).after s.host = (s.host.logged m).setRegister t.1.cmd (p t.1) := by
      have haccepts : s.host.Accepts [m.cmd] := ⟨hc, fun _ _ => hf ▸ List.not_mem_nil⟩
      rw [Action.after, Host.transfer_of_like haccepts (Host.Like.refl _)]
      exact Host.respond_table ht hne hread htx _
    obtain ⟨g, hg, hcount, hfail, hflash, hregisters⟩ := ih (fun u hu => hts u (by simp [hu]))
      (s := { s with host := (s.host.logged m).setRegister t.1.cmd (p t.1) }) hc hf
    refine ⟨g, ?_, hcount, hfail, hflash, fun u hu => ?_⟩
    · rw [sendTables, Action.after_attempt_bind, after_onHost, htable, Dsi.writeBuffer_eq hm,
        Action.after_discard, hsent, hg]
    · have hinj : ∀ t ∈ Gamma.tables, ∀ u ∈ Gamma.tables, u.cmd = t.cmd → u = t := by decide
      rw [hregisters u hu, Host.register?_setRegister]
      simp only [List.map_cons, List.mem_cons]
      by_cases hrest : u ∈ ts.map (·.1)
      · simp [hrest]
      · by_cases hut : u = t.1
        · simp [hut]
        · have hcmd : u.cmd ≠ t.1.cmd := fun hcmd => hut (hinj _ ht _ hu hcmd)
          rw [if_neg hrest, if_neg hcmd, if_neg (by simp [hut, hrest])]
          rfl

/-- All tables that are sent are what the registers deliver then. -/
theorem delivers_sendTables {p q : Gamma.Table → List UInt8} (hp : ∀ t, (p t).length = t.length)
    {s : State Host} (hs : h.Delivers q s.host) : ∃ g,
      (sendTables (Gamma.filled p) Gamma.tables.zipIdx).after s = { s with host := g } ∧
        h.Delivers p g := by
  obtain ⟨g, hg, hcount, hfail, hflash, hregisters⟩ := after_sendTables hp Gamma.tables.zipIdx
    (fun t ht => List.mem_zipIdx_iff_getElem?.mp ht) hs.countdown hs.failing
  refine ⟨g, hg, hcount, hfail, hflash.trans hs.flash, fun t ht => ?_⟩
  refine Host.calibration_of_register ?_ (hp t)
  rw [hregisters t ht, List.zipIdx_map_fst, if_pos ht]

end Panel
end OledPanel
