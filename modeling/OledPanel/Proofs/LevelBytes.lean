import OledPanel.Proofs.Handoff

/-! The writing of one level, for any split of its bits. A level that is too wide or is shown already
is not written; any other is handed to the host in one message, with the bits above the split in the
first of two bytes or all of it in one. What a byte cannot hold is cut off, so the bytes stand for
less than the level as soon as either loses a bit. -/

namespace OledPanel.Backlight.Config

open Dsi (Exchange Recorder Transport)

variable {c : Config} {level : UInt32}

/-! ### Bytes -/

theorem isWide_iff : c.isWide = true ↔ c.lowBits < 32 ∧ 2 ^ c.lowBits ≤ c.map.highest.toNat := by
  rw [isWide, Bool.and_eq_true, decide_eq_true_eq, decide_eq_true_eq, Nat.one_shiftLeft]

theorem length_encode_eq_two : (c.encode level).length = 2 ↔ c.isWide = true := by
  unfold encode
  split <;> simp_all

theorem length_encode_eq_one : (c.encode level).length = 1 ↔ c.isWide = false := by
  unfold encode
  split <;> simp_all

/-- Two bytes stand for the level they were made of exactly if each half of it fits in its byte. -/
theorem decode_encode_iff_of_wide (hw : c.isWide = true) :
    c.decode (c.encode level) = some level.toNat ↔
      level.toNat < 2 ^ (c.lowBits + 8) ∧ level.toNat % 2 ^ c.lowBits < 256 := by
  have hhalf : level.toNat / 2 ^ c.lowBits < 256 ↔ level.toNat < 2 ^ (c.lowBits + 8) := by
    rw [Nat.div_lt_iff_lt_mul (Nat.two_pow_pos c.lowBits), Nat.pow_add, Nat.mul_comm]
  rw [← hhalf]
  constructor
  · intro h
    exact halves_of_decode hw h
  · rintro ⟨hhigh, hlow⟩
    rw [← Nat.shiftRight_eq_div_pow] at hhigh
    rw [← Nat.one_shiftLeft] at hlow
    exact decode_encode_of_wide hw hhigh hlow

theorem decode_encode_iff_of_narrow (hw : c.isWide = false) :
    c.decode (c.encode level) = some level.toNat ↔ level.toNat < 256 :=
  ⟨toNat_lt_of_decode hw, decode_encode_of_narrow hw⟩

/-- With no more than eight bits in the low byte no level of the panel loses a bit, if the highest
fits in the bits there are. -/
theorem decode_encode_of_fits (hb : c.lowBits ≤ 8) (hl : level ≤ c.map.highest)
    (hh : c.map.highest.toNat < 2 ^ (c.lowBits + 8)) :
    c.decode (c.encode level) = some level.toNat := by
  have hle : level.toNat ≤ c.map.highest.toNat := UInt32.le_iff_toNat_le.mp hl
  have hpow : 2 ^ c.lowBits ≤ 2 ^ 8 := Nat.pow_le_pow_right (by decide) hb
  cases hw : c.isWide with
  | true =>
    have hlow : level.toNat % 2 ^ c.lowBits < 2 ^ c.lowBits := Nat.mod_lt _ (Nat.two_pow_pos _)
    exact (decode_encode_iff_of_wide hw).mpr ⟨by omega, by omega⟩
  | false =>
    have hnarrow : c.map.highest.toNat < 2 ^ c.lowBits := by
      have hnot : ¬(c.lowBits < 32 ∧ 2 ^ c.lowBits ≤ c.map.highest.toNat) := by
        rw [← isWide_iff, hw]
        decide
      omega
    exact (decode_encode_iff_of_narrow hw).mpr (by omega)

/-! ### The message -/

variable {σ : Type} [Transport σ] {shown : Option UInt32}

theorem writeLevel_of_above (h : 0xFFFF < level) :
    (c.writeLevel shown level : Action σ Unit) = throw (.invalid .levelTooWide) := if_pos h

theorem writeLevel_of_shown (h : level ≤ 0xFFFF) :
    (c.writeLevel (some level) level : Action σ Unit) = pure () := by
  rw [writeLevel, if_neg (UInt32.not_lt.mpr h), if_pos rfl]

theorem writeLevel_of_other (h : level ≤ 0xFFFF) (hs : shown ≠ some level) :
    (c.writeLevel shown level : Action σ Unit) = discard (Dsi.transfer (c.levelMessage level)) := by
  rw [writeLevel, if_neg (UInt32.not_lt.mpr h), if_neg hs]
  exact Dsi.writeBuffer_eq (c.plain?_encode level)

/-- The one message of a level goes well if the host takes it. -/
theorem sent_of_other (h : level ≤ 0xFFFF) (hs : shown ≠ some level) (r : Recorder σ) :
    let e : Exchange := ⟨c.levelMessage level, r.reply (c.levelMessage level)⟩
    ((c.writeLevel shown level).after r).record = r.record ++ [e] ∧
      ((c.writeLevel shown level).answer r = .ok () ↔ e.Taken) := by
  intro e
  rw [writeLevel_of_other h hs, Action.after_discard, Action.answer_discard]
  refine ⟨Recorder.record_transfer _ _, ?_⟩
  cases hr : r.reply (c.levelMessage level) with
  | ok rx =>
    rw [Recorder.answer_transfer hr]
    exact iff_of_true rfl ⟨rx, hr⟩
  | error reason =>
    rw [Recorder.answer_transfer_of_error hr]
    refine iff_of_false nofun ?_
    rintro ⟨rx, hrx⟩
    cases hr.symm.trans hrx

/-- Writing a level fails without a message exactly if the level is too wide, does nothing exactly
if it is the one shown, and else hands over its one message. The bytes of that stand for the level
exactly if none of its bits is cut off. -/
theorem level_written_losslessly_iff (c : Config) (shown : Option UInt32) (level : UInt32)
    (r : Recorder σ) :
    let written := c.writeLevel shown level
    (∃ es, (written.after r).record = r.record ++ es ∧
      ((∃ e, written.answer r = .error e) ∧ es = [] ↔ 0xFFFF < level) ∧
      (written.answer r = .ok () ∧ es = [] ↔ level ≤ 0xFFFF ∧ shown = some level) ∧
      (level ≤ 0xFFFF → shown ≠ some level → ∃ e, es = [e] ∧
        e.message.tx = Dsi.setBrightness :: c.encode level ∧ e.message.isRead = false ∧
        (written.answer r = .ok () ↔ e.Taken))) ∧
    ((c.encode level).length = 2 ∨ (c.encode level).length = 1) ∧
    ((c.encode level).length = 2 ↔ c.lowBits < 32 ∧ 2 ^ c.lowBits ≤ c.map.highest.toNat) ∧
    ((c.encode level).length = 2 → (c.decode (c.encode level) = some level.toNat ↔
      level.toNat < 2 ^ (c.lowBits + 8) ∧ level.toNat % 2 ^ c.lowBits < 256)) ∧
    ((c.encode level).length = 1 →
      (c.decode (c.encode level) = some level.toNat ↔ level.toNat < 256)) ∧
    (c.lowBits ≤ 8 → level ≤ c.map.highest → c.map.highest.toNat < 2 ^ (c.lowBits + 8) →
      c.decode (c.encode level) = some level.toNat) := by
  intro written
  refine ⟨?message, ?form, length_encode_eq_two.trans isWide_iff,
    fun hw => decode_encode_iff_of_wide (length_encode_eq_two.mp hw),
    fun hw => decode_encode_iff_of_narrow (length_encode_eq_one.mp hw), decode_encode_of_fits⟩
  case message =>
    rcases UInt32.lt_or_le 0xFFFF level with habove | hmax
    · have hthrow : written = throw (.invalid .levelTooWide) := writeLevel_of_above habove
      have hnot : ¬level ≤ 0xFFFF := UInt32.not_le.mpr habove
      rw [hthrow]
      exact ⟨[], (List.append_nil _).symm, iff_of_true ⟨⟨_, rfl⟩, rfl⟩ habove,
        iff_of_false nofun fun h => hnot h.1, fun h => absurd h hnot⟩
    have hnot : ¬0xFFFF < level := UInt32.not_lt.mpr hmax
    by_cases hs : shown = some level
    · have hpure : written = pure () := by
        subst hs
        exact writeLevel_of_shown hmax
      rw [hpure]
      exact ⟨[], (List.append_nil _).symm, iff_of_false (fun h => nomatch h.1.choose_spec) hnot,
        iff_of_true ⟨rfl, rfl⟩ ⟨hmax, hs⟩, fun _ h => absurd hs h⟩
    · obtain ⟨hrecord, htaken⟩ := sent_of_other hmax hs r
      obtain ⟨htx, hread⟩ := Dsi.plain?_eq (c.plain?_encode level)
      exact ⟨_, hrecord, iff_of_false (fun h => nomatch h.2) hnot,
        iff_of_false (fun h => nomatch h.2) fun h => hs h.2, fun _ _ => ⟨_, rfl, htx, hread, htaken⟩⟩
  case form =>
    cases hw : c.isWide with
    | true => exact .inl (length_encode_eq_two.mpr hw)
    | false => exact .inr (length_encode_eq_one.mpr hw)

end OledPanel.Backlight.Config
