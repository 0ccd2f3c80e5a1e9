import OledPanel.Gamma.Readout
import OledPanel.Proofs.GammaTables
import OledPanel.Proofs.Sends

/-! Reading gamma tables addresses a few registers only and gives buffers that hold payloads of
the tables, however much of them the panel answered. -/

namespace OledPanel.Gamma

open OledPanel.Action (Within Yields)
open Dsi (Sends)

variable {σ : Type} [Dsi.Transport σ]

/-- The registers that reading and replaying gamma tables addresses. -/
def registers : List UInt8 := [0xF0, 0xF1, 0xC0, 0xC1, 0xB0, 0xFB] ++ tables.map (·.cmd)

/-- Messages to these registers only. -/
abbrev Reads : σ → σ → Prop := Sends (·.cmd ∈ registers)

theorem within_write (tx : List UInt8) (last : Bool) (h : tx.headD 0 ∈ registers) :
    Within (S := σ) Reads (Dsi.writeBuffer tx last) := by
  refine Dsi.within_writeBuffer tx last fun m hm => ?_
  rwa [Dsi.Message.cmd, (Dsi.plain?_eq hm).1]

theorem within_readSome (cmd : UInt8) (n : Nat) (h : cmd ∈ registers) :
    Within (S := σ) Reads (readSome cmd n) := by
  refine (Dsi.within_read cmd n h).outcome.bind fun r => ?_
  cases r <;> exact Within.pure _

theorem yields_readSome (cmd : UInt8) (n : Nat) :
    Yields (S := σ) (·.length ≤ n) (readSome cmd n) := by
  have hread : Yields (S := σ) (·.length ≤ n) (Dsi.read cmd n) := by
    unfold Dsi.read
    dsimp only
    split
    · exact Yields.throw _
    · refine Yields.bind (Yields.of_all fun _ => trivial) fun rx _ => Yields.pure ?_
      exact List.length_take_le n rx
  refine hread.outcome.bind fun r hr => ?_
  cases r with
  | ok rx => exact Yields.pure (hr rx rfl)
  | error e => exact Yields.pure (Nat.zero_le n)

/-! ### One-time memory -/

theorem within_readOtpTable (b : Buffer) (t : Table) (i : Nat) (h : t.cmd ∈ registers) :
    Within (S := σ) Reads (readOtpTable b t i) := by
  unfold readOtpTable
  dsimp only
  split
  · refine (within_write _ _ (by simp [registers, parameterPointer])).bind fun _ => ?_
    exact (within_readSome _ _ h).bind fun rx => Within.pure _
  · exact (within_readSome _ _ h).bind fun rx => Within.pure _

theorem yields_readOtpTable {ts : List Table} {b : Buffer} (hb : Laid ts b) {t : Table} {i : Nat}
    (ht : ts[i]? = some t) : Yields (S := σ) (Laid ts) (readOtpTable b t i) := by
  have hread : Yields (S := σ) (Laid ts)
      (readSome t.cmd t.length >>= fun rx => pure (b.setPayload i 0 rx)) :=
    (yields_readSome t.cmd t.length).bind fun rx hx => Yields.pure (hb.setPayload ht 0 rx (by omega))
  unfold readOtpTable
  dsimp only
  split
  · exact Yields.bind (Yields.of_all fun _ => trivial) fun _ _ => hread
  · exact hread

/-! ### Serial flash -/

theorem within_readFlashByte (offset : Nat) : Within (S := σ) Reads (readFlashByte offset) := by
  refine (within_write _ _ (by simp [registers, flashRead])).bind fun _ => ?_
  refine (within_write _ _ (by decide)).bind fun _ => ?_
  refine (within_write _ _ (by decide)).bind fun _ => ?_
  exact (within_readSome _ _ (by decide)).bind fun rx => Within.pure _

theorem within_readFlashBytes (offset n : Nat) :
    Within (S := σ) Reads (readFlashBytes offset n) := by
  induction n generalizing offset with
  | zero => exact Within.pure _
  | succ n ih =>
    refine (within_readFlashByte offset).bind fun b => ?_
    exact (ih (offset + 1)).bind fun bs => Within.pure _

theorem yields_readFlashBytes (offset n : Nat) :
    Yields (S := σ) (·.length = n) (readFlashBytes offset n) := by
  induction n generalizing offset with
  | zero => exact Yields.pure rfl
  | succ n ih =>
    refine Yields.bind (Yields.of_all fun _ => trivial) fun b _ => ?_
    exact (ih (offset + 1)).bind fun bs hbs => Yields.pure (congrArg (· + 1) hbs)

theorem within_readFlashTable (b : Buffer) (t : Table) (i : Nat) :
    Within (S := σ) Reads (readFlashTable b t i) :=
  (within_readFlashBytes _ _).bind fun _ => Within.pure _

theorem yields_readFlashTable {ts : List Table} {b : Buffer} (hb : Laid ts b) {t : Table} {i : Nat}
    (ht : ts[i]? = some t) (hl : t.otpLength ≤ t.length) :
    Yields (S := σ) (Laid ts) (readFlashTable b t i) :=
  (yields_readFlashBytes _ _).bind fun data hd => Yields.pure (hb.setPayload ht _ _ (by omega))

theorem within_enterFlashMode : Within (S := σ) Reads enterFlashMode := by
  refine (within_write _ _ (by decide)).bind fun _ => ?_
  refine (within_write _ _ (by decide)).bind fun _ => ?_
  refine (within_write _ _ (by decide)).bind fun _ => ?_
  refine (within_write _ _ (by decide)).bind fun _ => ?_
  refine (within_write _ _ (by decide)).bind fun _ => ?_
  exact within_write _ _ (by decide)

theorem within_leaveFlashMode : Within (S := σ) Reads leaveFlashMode :=
  (within_write _ _ (by decide)).bind fun _ => within_write _ _ (by decide)

/-! ### All tables -/

theorem within_readTables {read : Buffer → Table → Nat → Action σ Buffer}
    (hread : ∀ b, ∀ t ∈ tables, ∀ i, Within Reads (read b t i)) (ts : List Table)
    (hts : ∀ t ∈ ts, t ∈ tables) (i : Nat) (b : Buffer) :
    Within Reads (readTables read ts i b) := by
  induction ts generalizing i b with
  | nil => exact Within.pure _
  | cons t ts ih =>
    refine (hread b t (hts t (by simp)) i).bind fun b => ?_
    exact ih (fun u hu => hts u (by simp [hu])) (i + 1) b

omit [Dsi.Transport σ] in
theorem yields_readTables {read : Buffer → Table → Nat → Action σ Buffer}
    (hread : ∀ b t i, Laid tables b → tables[i]? = some t → Yields (Laid tables) (read b t i))
    (ts : List Table) (i : Nat) (hts : ts = tables.drop i) (b : Buffer) (hb : Laid tables b) :
    Yields (Laid tables) (readTables read ts i b) := by
  induction ts generalizing i b with
  | nil => exact Yields.pure hb
  | cons t ts ih =>
    have ht : tables[i]? = some t := by simpa using (congrArg List.head? hts).symm
    have hd : ts = tables.drop (i + 1) := by simpa using congrArg List.tail hts
    exact (hread b t i hb ht).bind fun b hb => ih (i + 1) hd b hb

theorem within_readOtp : Within (S := σ) Reads (readOtp tables) := by
  refine within_readTables (fun b t ht i => within_readOtpTable b t i ?_) _ (fun t ht => ht) _ _
  exact List.mem_append_right _ (List.mem_map_of_mem ht)

theorem yields_readOtp : Yields (S := σ) (Laid tables) (readOtp tables) :=
  yields_readTables (fun _ _ _ hb ht => yields_readOtpTable hb ht) _ 0 rfl _ (laid_blank tables)

theorem within_readFlash : Within (S := σ) Reads (readFlash tables) := by
  refine within_enterFlashMode.bind fun _ => ?_
  refine (within_readTables (fun b t _ i => within_readFlashTable b t i) _ (fun t ht => ht) _ _).bind
    fun b => ?_
  exact within_leaveFlashMode.bind fun _ => Within.pure _

theorem yields_readFlash : Yields (S := σ) (Laid tables) (readFlash tables) := by
  have hshort : ∀ t ∈ tables, t.otpLength ≤ t.length := by decide
  have htables : Yields (S := σ) (Laid tables)
      (readTables readFlashTable tables 0 (Buffer.blank tables)) :=
    yields_readTables
      (fun _ t _ hb ht => yields_readFlashTable hb ht (hshort t (List.mem_of_getElem? ht)))
      _ 0 rfl _ (laid_blank tables)
  refine Yields.bind (Yields.of_all fun _ => trivial) fun _ _ => ?_
  refine htables.bind fun b hb => ?_
  exact Yields.bind (Yields.of_all fun _ => trivial) fun _ _ => Yields.pure hb

end OledPanel.Gamma
