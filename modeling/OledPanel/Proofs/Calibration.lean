import OledPanel.Bench.Plain
import OledPanel.Proofs.GammaReading
import OledPanel.Proofs.Validity

/-! Gamma tables against the calibration data they are read from. On the bench one-time memory is a
register file and serial flash a block of bytes behind a pointer. Reading leaves both as they are,
so what is read is told by the host before it: a table of a 60 Hz timing has the bytes of its
register, and one of a 90 Hz timing those of flash, apart from the leading bytes that come from
one-time memory. Nothing of it depends on the other timings or on their order. -/

namespace OledPanel

open OledPanel.Action (Ensures)
open Dsi (Message Transport)

namespace Bench.Host

/-- The payload of a table for a refresh rate. A byte that a register does not have is zero. -/
def calibration (h : Host) (rate : UInt32) (t : Gamma.Table) : List UInt8 :=
  (List.range t.length).map fun j =>
    if rate = 90 ∧ t.otpLength ≤ j then h.flashByte (t.flashOffset + j)
    else ((h.register? t.cmd).getD []).getD j 0

/-- What is read of a timing before tables are merged, so without what flash does not have. -/
def unmerged (h : Host) (rate : UInt32) (t : Gamma.Table) : List UInt8 :=
  (List.range t.length).map fun j =>
    if rate = 90 then if t.otpLength ≤ j then h.flashByte (t.flashOffset + j) else 0
    else ((h.register? t.cmd).getD []).getD j 0

/-- No transfer of these commands fails. -/
structure Accepts (h : Host) (cmds : List UInt8) : Prop where
  countdown : h.countdown = none
  failing : ∀ cmd ∈ cmds, cmd ∉ h.failing

theorem Accepts.mono {h : Host} {cmds others : List UInt8} (ha : h.Accepts cmds)
    (hsub : others ⊆ cmds) : h.Accepts others :=
  ⟨ha.countdown, fun cmd hcmd => ha.failing cmd (hsub hcmd)⟩

/-- A host with the calibration data and the faults of another. Its flash pointer stands at `o`,
if that is given. -/
structure Like (h : Host) (o : Option Nat) (g : Host) : Prop where
  countdown : g.countdown = h.countdown
  failing : g.failing = h.failing
  flash : g.flash = h.flash
  registers : ∀ t ∈ Gamma.tables, g.register? t.cmd = h.register? t.cmd
  pointer : ∀ a ∈ o, g.flashAddress = a

variable {h g : Host} {o : Option Nat} {m : Message}

theorem Like.refl (h : Host) : h.Like none h :=
  ⟨rfl, rfl, rfl, fun _ _ => rfl, fun _ ha => by cases ha⟩

theorem Like.forget (hg : h.Like o g) : h.Like none g :=
  ⟨hg.countdown, hg.failing, hg.flash, hg.registers, fun _ ha => by cases ha⟩

/-- A host with one more message in its log. -/
def logged (g : Host) (m : Message) : Host := { g with log := g.log.push m }

theorem Like.logged (hg : h.Like o g) (m : Message) : h.Like o (g.logged m) :=
  ⟨hg.countdown, hg.failing, hg.flash, hg.registers, hg.pointer⟩

theorem transfer_of_like (ha : h.Accepts [m.cmd]) (hg : h.Like o g) :
    Dsi.transfer m g = .ok (respond m (g.logged m)).1 (respond m (g.logged m)).2 := by
  have hcount : g.countdown = none := hg.countdown.trans ha.countdown
  have hpass : g.failing.contains m.cmd = false := by
    rw [hg.failing]
    simpa using ha.failing m.cmd (by simp)
  have htransfer : Transport.transfer m g = deliver m g := by
    dsimp only [Transport.transfer]
    rw [hcount]
  simp only [Dsi.transfer, htransfer, deliver]
  rw [hpass]
  rfl

/-- A write to another register than those of the tables leaves the calibration data, and moves the
flash pointer if it is an instruction to read. -/
theorem like_respond (hg : h.Like o g) (hwrite : m.isRead = false)
    (hcmd : m.cmd ∉ Gamma.tables.map (·.cmd)) :
    h.Like ((instruction? m).or o) (respond m g).2 := by
  have hne : ∀ t ∈ Gamma.tables, t.cmd ≠ m.cmd := fun t ht he =>
    hcmd (he ▸ List.mem_map_of_mem ht)
  rw [respond, hwrite, if_neg (by decide)]
  cases hi : instruction? m with
  | some a =>
    exact ⟨hg.countdown, hg.failing, hg.flash, hg.registers, fun _ ha => Option.some.inj ha⟩
  | none =>
    rw [Option.none_or]
    dsimp only
    split
    · refine ⟨hg.countdown, hg.failing, hg.flash, fun t ht => ?_, hg.pointer⟩
      rw [register?_setRegister, if_neg (hne t ht)]
      exact hg.registers t ht
    · exact ⟨hg.countdown, hg.failing, hg.flash, hg.registers, hg.pointer⟩

theorem ensures_writeBuffer {tx : List UInt8} {last : Bool} (hm : Dsi.plain? tx last = some m)
    (ha : h.Accepts [m.cmd]) (hcmd : m.cmd ∉ Gamma.tables.map (·.cmd)) :
    Ensures (h.Like o) (Dsi.writeBuffer tx last) fun _ => h.Like ((instruction? m).or o) := by
  intro g hg
  refine ⟨(), _, ?_, like_respond (hg.logged m) (Dsi.plain?_eq hm).2 hcmd⟩
  rw [Dsi.writeBuffer_eq hm]
  simp only [Functor.discard, Functor.mapConst, Function.comp, EStateM.map, transfer_of_like ha hg]

/-- The bytes with which a register answers. -/
def reply (g : Host) (cmd : UInt8) : List UInt8 :=
  if cmd = flashData then [0, g.flashByte g.flashAddress] else (g.register? cmd).getD []

theorem respond_question (cmd : UInt8) (n : Nat) (g : Host) :
    respond (Dsi.question cmd n) g = (g.reply cmd, g) := by
  have hcmd : (Dsi.question cmd n).cmd = cmd := rfl
  rw [respond, if_pos (show (Dsi.question cmd n).isRead = true from rfl), hcmd, reply]
  split <;> rfl

theorem reply_table (hg : h.Like o g) {t : Gamma.Table} (ht : t ∈ Gamma.tables) :
    g.reply t.cmd = (h.register? t.cmd).getD [] := by
  have hcmd : ∀ t ∈ Gamma.tables, t.cmd ≠ flashData := by decide
  rw [reply, if_neg (hcmd t ht), hg.registers t ht]

theorem reply_flashData {a : Nat} (hg : h.Like (some a) g) :
    g.reply flashData = [0, h.flashByte a] := by
  rw [reply, if_pos rfl, hg.pointer a rfl, flashByte, hg.flash, flashByte]

theorem ensures_readSome {cmd : UInt8} {n : Nat} (hn : n ≠ 0) (ha : h.Accepts [cmd]) :
    Ensures (h.Like o) (Gamma.readSome cmd n) fun rx g =>
      rx = (g.reply cmd).take n ∧ h.Like o g := by
  intro g hg
  let k : Host := g.logged (Dsi.question cmd n)
  have hread : Dsi.read cmd n g = .ok ((k.reply cmd).take n) k := by
    rw [Dsi.read_eq cmd hn, Action.bind_of_ok (transfer_of_like ha hg), respond_question]
    rfl
  have houtcome : Action.outcome (Dsi.read cmd n) g = .ok (.ok ((k.reply cmd).take n)) k := by
    rw [Action.outcome, hread]
  refine ⟨(k.reply cmd).take n, k, ?_, rfl, hg.logged _⟩
  rw [Gamma.readSome, Action.bind_of_ok houtcome]
  rfl

end Bench.Host

namespace Gamma

open Bench (Host)

variable {h : Host} {o : Option Nat} {t : Table} {ps rs : List (List UInt8)} {b : Buffer}

/-- The registers that reading the tables of a timing addresses. -/
def sources (rate : UInt32) : List UInt8 :=
  if rate = 60 then parameterPointer :: tables.map (·.cmd)
  else [0xF1, 0xC0, 0xC1, parameterPointer, flashData]

/-! ### One-time memory -/

/-- What is read of a register, laid over zeros, is filled up with them. -/
theorem overwrite_register (h : Host) (t : Table) :
    Buffer.overwrite 0 (((h.register? t.cmd).getD []).take t.length) (List.replicate t.length 0) =
      h.unmerged 60 t := by
  refine List.ext_getElem? fun j => ?_
  rw [getElem?_overwrite, Host.unmerged]
  by_cases hj : j < t.length
  · simp [hj]
  · simp [hj]

/-- The next table is read into its place. -/
def ReadsInto (h : Host) (p : Table → List UInt8)
    (read : Buffer → Table → Nat → Action Host Buffer) : Prop :=
  ∀ t ∈ tables, ∀ ps rs b, tables[ps.length]? = some t →
    Holds b tables (ps ++ List.replicate t.length 0 :: rs) →
    Ensures (h.Like none) (read b t ps.length) fun b g =>
      Holds b tables (ps ++ p t :: rs) ∧ h.Like none g

/-- Table by table a blank buffer is filled. -/
theorem ensures_readTables {p : Table → List UInt8}
    {read : Buffer → Table → Nat → Action Host Buffer} (hread : ReadsInto h p read)
    (done todo : List Table) (hts : tables = done ++ todo)
    (hb : Holds b tables (done.map p ++ todo.map fun t => List.replicate t.length 0)) :
    Ensures (h.Like none) (readTables read todo done.length b) fun b g =>
      Holds b tables (tables.map p) ∧ h.Like none g := by
  induction todo generalizing done b with
  | nil =>
    refine fun g hg => ⟨b, g, rfl, ?_, hg⟩
    simpa [hts] using hb
  | cons t todo ih =>
    have hat : tables[(done.map p).length]? = some t := by simp [hts]
    have hstep := hread t (by simp [hts]) (done.map p)
      (todo.map fun t => List.replicate t.length 0) b hat (by simpa using hb)
    rw [List.length_map] at hstep
    refine hstep.bind fun b => .of_fact fun hb => ?_
    have hnext := ih (done ++ [t]) (by simp [hts]) (b := b) (by simpa using hb)
    rwa [List.length_append] at hnext

theorem readsInto_readOtpTable (ha : h.Accepts (sources 60)) :
    ReadsInto h (h.unmerged 60) readOtpTable := by
  intro t ht ps rs b hat hb
  have hread : Ensures (h.Like none)
      (readSome t.cmd t.length >>= fun rx => pure (b.setPayload ps.length 0 rx))
      fun b g => Holds b tables (ps ++ h.unmerged 60 t :: rs) ∧ h.Like none g := by
    have hne : t.length ≠ 0 := (by decide : ∀ t ∈ tables, t.length ≠ 0) t ht
    refine (Host.ensures_readSome hne (ha.mono ?_)).bind fun rx g hg => ?_
    · simpa [sources] using .inr ⟨t, ht, rfl⟩
    · obtain ⟨rfl, hg⟩ := hg
      refine ⟨_, g, rfl, ?_, hg⟩
      rw [Host.reply_table hg ht, ← overwrite_register]
      exact holds_setPayload_append hb hat 0 _ (by rw [List.length_take]; omega)
  unfold readOtpTable
  dsimp only
  split
  · refine Ensures.bind (Host.ensures_writeBuffer rfl (ha.mono ?_) ?_) fun _ => hread
    · exact List.cons_subset_cons _ (List.nil_subset _)
    · show parameterPointer ∉ tables.map (·.cmd)
      decide
  · exact hread

/-! ### Serial flash -/

/-- Writes to the registers behind which flash lies. -/
theorem ensures_write {tx : List UInt8} {m : Message} (ha : h.Accepts (sources 90))
    (hm : Dsi.plain? tx true = some m) (hcmd : m.cmd ∈ sources 90)
    (hi : Host.instruction? m = none) :
    Ensures (h.Like o) (Dsi.writeBuffer tx true) fun _ => h.Like o := by
  have hother : ∀ cmd ∈ sources 90, cmd ∉ tables.map (·.cmd) := by decide +kernel
  have hwrite := Host.ensures_writeBuffer (o := o) hm (ha.mono (by simpa using hcmd))
    (hother _ hcmd)
  rwa [hi, Option.none_or] at hwrite

theorem ensures_flashRead {offset : Nat} (ha : h.Accepts (sources 90)) (ho : offset < 65536) :
    Ensures (h.Like none) (Dsi.writeBuffer (flashRead offset) true) fun _ =>
      h.Like (some offset) := by
  obtain ⟨m, hm⟩ := Dsi.plain?_cons 0xC1 (flashRead offset).tail true
  have htx : m.tx = flashRead offset := (Dsi.plain?_eq hm).1
  have hcmd : m.cmd = 0xC1 := by rw [Message.cmd, htx]; rfl
  have hi : Host.instruction? m = some offset := by
    rw [Host.instruction?, hcmd, htx]
    simp [Bench.flashControl, Bench.flashRead, flashRead]
    omega
  have hwrite := Host.ensures_writeBuffer (o := none) hm (h := h) (ha.mono ?_) ?_
  · rwa [hi] at hwrite
  · rw [hcmd]
    decide
  · rw [hcmd]
    decide

theorem ensures_readFlashByte {offset : Nat} (ha : h.Accepts (sources 90)) (ho : offset < 65536) :
    Ensures (h.Like none) (readFlashByte offset) fun b g =>
      b = h.flashByte offset ∧ h.Like none g := by
  refine (ensures_flashRead ha ho).bind fun _ => ?_
  refine (ensures_write ha rfl (by decide) rfl).bind fun _ => ?_
  refine (ensures_write ha rfl (by decide) rfl).bind fun _ => ?_
  refine (Host.ensures_readSome (by decide) (ha.mono (by decide))).bind fun rx g hg => ?_
  obtain ⟨rfl, hg⟩ := hg
  refine ⟨_, g, rfl, ?_, hg.forget⟩
  rw [show flashData = Bench.flashData from rfl, Host.reply_flashData hg]
  rfl

theorem ensures_readFlashBytes {offset n : Nat} (ha : h.Accepts (sources 90))
    (ho : offset + n ≤ 65536) :
    Ensures (h.Like none) (readFlashBytes offset n) fun bs g =>
      bs = (List.range' offset n).map h.flashByte ∧ h.Like none g := by
  induction n generalizing offset with
  | zero => exact fun g hg => ⟨[], g, rfl, rfl, hg⟩
  | succ n ih =>
    refine (ensures_readFlashByte ha (by omega)).bind fun b => .of_fact fun hb => ?_
    refine (ih (by omega)).bind fun bs => .of_fact fun hbs g hg => ?_
    exact ⟨b :: bs, g, rfl, by rw [hb, hbs, List.range'_succ, List.map_cons], hg⟩

/-- What is read of flash, laid over zeros behind the bytes that are not read. -/
theorem overwrite_flash (h : Host) (hotp : t.otpLength ≤ t.length) :
    Buffer.overwrite t.otpLength
        ((List.range' (t.flashOffset + t.otpLength) (t.length - t.otpLength)).map h.flashByte)
        (List.replicate t.length 0) = h.unmerged 90 t := by
  refine List.ext_getElem? fun j => ?_
  rw [getElem?_overwrite, Host.unmerged]
  by_cases hj : j < t.length
  · by_cases hot : t.otpLength ≤ j
    · have hplace : t.flashOffset + t.otpLength + (j - t.otpLength) = t.flashOffset + j := by omega
      simp [hj, hot, hplace, show j - t.otpLength < t.length - t.otpLength by omega]
    · simp [hj, hot]
  · simp [hj]

theorem readsInto_readFlashTable (ha : h.Accepts (sources 90)) :
    ReadsInto h (h.unmerged 90) readFlashTable := by
  intro t ht ps rs b hat hb
  have hin : ∀ t ∈ tables, t.flashOffset + t.length ≤ 65536 ∧ t.otpLength ≤ t.length := by decide
  obtain ⟨hend, hotp⟩ := hin t ht
  refine (ensures_readFlashBytes ha (by omega)).bind fun data => .of_fact fun hdata g hg => ?_
  refine ⟨_, g, rfl, ?_, hg⟩
  subst hdata
  rw [← overwrite_flash h hotp]
  refine holds_setPayload_append hb hat t.otpLength _ ?_
  rw [List.length_map, List.length_range']
  omega

theorem ensures_enterFlashMode (ha : h.Accepts (sources 90)) :
    Ensures (h.Like none) enterFlashMode fun _ => h.Like none := by
  refine (ensures_write ha rfl (by decide) rfl).bind fun _ => ?_
  refine (ensures_write ha rfl (by decide) rfl).bind fun _ => ?_
  refine (ensures_write ha rfl (by decide) rfl).bind fun _ => ?_
  refine (ensures_write ha rfl (by decide) rfl).bind fun _ => ?_
  refine (ensures_write ha rfl (by decide) rfl).bind fun _ => ?_
  exact ensures_write ha rfl (by decide) rfl

theorem ensures_leaveFlashMode (ha : h.Accepts (sources 90)) :
    Ensures (h.Like none) leaveFlashMode fun _ => h.Like none :=
  (ensures_write ha rfl (by decide) rfl).bind fun _ => ensures_write ha rfl (by decide) rfl

/-! ### All tables -/

/-- The buffer with these payloads. -/
def filled (p : Table → List UInt8) : Buffer where
  bytes := layout tables (tables.map p)
  starts := (List.range tables.length).map (offset tables)

theorem eq_filled {p : Table → List UInt8} (hb : Holds b tables (tables.map p)) : b = filled p := by
  cases b
  exact congrArg₂ Buffer.mk hb.bytes hb.starts

theorem ensures_blank {p : Table → List UInt8} {read : Buffer → Table → Nat → Action Host Buffer}
    (hread : ReadsInto h p read) :
    Ensures (h.Like none) (readTables read tables 0 (Buffer.blank tables)) fun b g =>
      b = filled p ∧ h.Like none g :=
  (ensures_readTables hread [] tables rfl (holds_blank tables)).mono (fun _ hg => hg)
    fun _ _ hb => ⟨eq_filled hb.1, hb.2⟩

theorem ensures_readTiming {rate : UInt32} (hrate : rate = 60 ∨ rate = 90)
    (ha : h.Accepts (sources rate)) :
    Ensures (h.Like none) (Panel.readTiming rate) fun b g =>
      b = filled (h.unmerged rate) ∧ h.Like none g := by
  rcases hrate with rfl | rfl
  · exact ensures_blank (readsInto_readOtpTable ha)
  · refine (ensures_enterFlashMode ha).bind fun _ => ?_
    refine (ensures_blank (readsInto_readFlashTable ha)).bind fun b => .of_fact fun hb => ?_
    exact (ensures_leaveFlashMode ha).bind fun _ g hg => ⟨b, g, rfl, hb, hg⟩

/-! ### Merging -/

theorem length_unmerged (h : Host) (rate : UInt32) (t : Table) :
    (h.unmerged rate t).length = t.length := by
  simp [Host.unmerged]

theorem length_calibration (h : Host) (rate : UInt32) (t : Table) :
    (h.calibration rate t).length = t.length := by
  simp [Host.calibration]

theorem holds_filled {p : Table → List UInt8} (hp : ∀ t, (p t).length = t.length) :
    Holds (filled p) tables (tables.map p) :=
  ⟨by simp [hp], rfl, rfl⟩

theorem payload_filled {p : Table → List UInt8} (hp : ∀ t, (p t).length = t.length) {i : Nat}
    (ht : tables[i]? = some t) : (filled p).payload i = p t :=
  payload_eq (holds_filled hp) ht (by rw [List.getElem?_map, ht, Option.map_some])

/-- The leading bytes of a register laid over what was read of flash. -/
theorem overwrite_unmerged (h : Host) (t : Table) :
    Buffer.overwrite 0 ((h.unmerged 60 t).take (min t.otpLength t.length)) (h.unmerged 90 t) =
      h.calibration 90 t := by
  refine List.ext_getElem? fun j => ?_
  rw [getElem?_overwrite, Host.calibration, Host.unmerged, Host.unmerged]
  by_cases hj : j < t.length
  · by_cases hot : t.otpLength ≤ j
    · have hbehind : ¬j < min t.otpLength t.length := by omega
      simp [hj, hot, hbehind]
    · have hleading : j < min t.otpLength t.length := by omega
      simp [hj, hot, hleading]
  · simp [hj]

/-- From one-time memory everything is read at once. -/
theorem unmerged_eq_calibration (h : Host) : h.unmerged 60 = h.calibration 60 := by
  funext t
  simp [Host.unmerged, Host.calibration]

/-- Merging fills in the leading bytes that flash does not have. -/
theorem merge_filled (h : Host) :
    (filled (h.unmerged 90)).merge (filled (h.unmerged 60)) tables = filled (h.calibration 90) := by
  have hpayloads : List.zipWith (fun u p => Buffer.overwrite 0
      (((filled (h.unmerged 60)).payload u.2).take (min u.1.otpLength u.1.length)) p)
      tables.zipIdx (tables.map (h.unmerged 90)) = tables.map (h.calibration 90) := by
    refine List.ext_getElem? fun i => ?_
    rw [List.getElem?_zipWith, List.getElem?_map, List.getElem?_map]
    cases ht : tables[i]? with
    | none => simp [ht]
    | some t =>
      have hi : tables.zipIdx[i]? = some (t, i) := by simp [ht]
      rw [hi, Option.map_some, Option.map_some]
      dsimp only
      rw [payload_filled (length_unmerged h 60) ht, overwrite_unmerged]
  have hmerge := holds_merge (holds_filled (length_unmerged h 90)) (filled (h.unmerged 60))
  rw [hpayloads] at hmerge
  exact eq_filled hmerge

end Gamma

namespace Panel

open Gamma (filled sources)
open Bench (Host)

variable {c : Config} {h : Host}

/-- The buffers of timings with payloads that go by the refresh rate. -/
def buffersOf (p : UInt32 → Gamma.Table → List UInt8) (timings : List Timing) :
    List (Option Gamma.Buffer) :=
  timings.map fun m => some (filled (p m.rate))

/-- The panel has these gamma tables, and its host has the calibration data of another. -/
def Keeping (h : Host) (k : GammaState) (s : State Host) : Prop := s.gamma = k ∧ h.Like none s.host

theorem ensures_onHost {α : Type} {x : Action Host α} {p : α → Prop} {k : GammaState}
    (hx : Ensures (h.Like none) x fun a g => p a ∧ h.Like none g) :
    Ensures (Keeping h k) (onHost x) fun a s => p a ∧ Keeping h k s :=
  hx.within _ _ (fun _ hs => hs.2) fun _ _ _ hs ha => ⟨ha.1, hs.1, ha.2⟩

theorem ensures_modify {k : GammaState} {f : GammaState → GammaState} :
    Ensures (Keeping h k) (modify fun s => { s with gamma := f s.gamma } : Action (State Host) Unit)
      fun _ => Keeping h (f k) :=
  fun _ hs => ⟨(), _, rfl, congrArg f hs.1, hs.2⟩

/-- Timing by timing the buffers are read. -/
theorem ensures_readTimings {ready : Bool} (done todo : List Timing)
    (rest : List (Option Gamma.Buffer)) (hlen : rest.length = todo.length)
    (hrates : ∀ m ∈ todo, m.rate = 60 ∨ m.rate = 90)
    (ha : ∀ m ∈ todo, h.Accepts (sources m.rate)) :
    Ensures (Keeping h ⟨buffersOf h.unmerged done ++ rest, ready⟩)
      (readTimings (todo.zipIdx done.length))
      fun _ => Keeping h ⟨buffersOf h.unmerged (done ++ todo), ready⟩ := by
  induction todo generalizing done rest with
  | nil =>
    obtain rfl : rest = [] := List.length_eq_zero_iff.mp hlen
    exact fun s hs => ⟨⟨⟩, s, rfl, by simpa using hs⟩
  | cons m todo ih =>
    obtain ⟨r, rest, rfl⟩ := List.exists_cons_of_length_eq_add_one hlen
    have hread := Gamma.ensures_readTiming (hrates m (by simp)) (ha m (by simp))
    have hnext := ih (done ++ [m]) rest (by simpa using hlen) (fun k hk => hrates k (by simp [hk]))
      fun k hk => ha k (by simp [hk])
    have hset : (buffersOf h.unmerged done ++ r :: rest).set done.length
        (some (filled (h.unmerged m.rate))) = buffersOf h.unmerged (done ++ [m]) ++ rest := by
      simp [buffersOf, List.set_append_right]
    rw [List.length_append, List.append_assoc] at hnext
    rw [List.zipIdx_cons, readTimings]
    refine (ensures_onHost hread).bind fun b => .of_fact fun hb => ?_
    subst hb
    refine (ensures_modify (f := fun k => { k with buffers := k.buffers.set done.length _ })).bind
      fun _ => ?_
    rwa [hset]

/-- The buffers of the 90 Hz timings get the bytes that only one-time memory has. -/
theorem mergeOtp_buffersOf (hrates : ∀ m ∈ c.timings, m.rate = 60 ∨ m.rate = 90)
    (hotp : ∃ m ∈ c.timings, m.rate = 60) :
    mergeOtp c (buffersOf h.unmerged c.timings) = buffersOf h.calibration c.timings := by
  have hfirst : (c.timings.findIdx? (·.rate = 60)).bind
      (fun i => (buffersOf h.unmerged c.timings)[i]?.join) = some (filled (h.unmerged 60)) := by
    obtain ⟨m, hm, h60⟩ := hotp
    have hsome : (c.timings.findIdx? (·.rate = 60)).isSome := by
      rw [List.findIdx?_isSome, List.any_eq_true]
      exact ⟨m, hm, by simpa using h60⟩
    obtain ⟨i, hi⟩ := Option.isSome_iff_exists.mp hsome
    obtain ⟨hlt, hrate, -⟩ := List.findIdx?_eq_some_iff_getElem.mp hi
    rw [hi, Option.bind_some, buffersOf, List.getElem?_map, List.getElem?_eq_getElem hlt]
    rw [decide_eq_true_eq] at hrate
    rw [Option.map_some, hrate]
    rfl
  rw [mergeOtp, hfirst]
  refine List.ext_getElem? fun j => ?_
  rw [List.getElem?_mapIdx, buffersOf, buffersOf, List.getElem?_map, List.getElem?_map]
  cases hm : c.timings[j]? with
  | none => rfl
  | some m =>
    have hrate : c.hasRate 90 j = decide (m.rate = 90) := by
      simp [Config.hasRate, Config.rate?, hm]
    rcases hrates m (List.mem_of_getElem? hm) with h60 | h90
    · simp [hrate, h60, Gamma.unmerged_eq_calibration]
    · simp [hrate, h90, Gamma.merge_filled]

theorem ensures_readModes {k : GammaState} (hlen : k.buffers.length = c.timings.length)
    (hrates : ∀ m ∈ c.timings, m.rate = 60 ∨ m.rate = 90) (hotp : ∃ m ∈ c.timings, m.rate = 60)
    (ha : ∀ m ∈ c.timings, h.Accepts (sources m.rate)) :
    Ensures (Keeping h k) (readModes c) fun _ =>
      Keeping h ⟨buffersOf h.calibration c.timings, k.ready⟩ := by
  rw [← mergeOtp_buffersOf hrates hotp]
  exact (ensures_readTimings [] c.timings k.buffers hlen hrates ha).bind fun _ =>
    ensures_modify (f := fun k => { k with buffers := mergeOtp c k.buffers })

theorem ensures_key {k : GammaState} {tx : List UInt8} {m : Message}
    (hm : Dsi.plain? tx true = some m) (hcmd : m.cmd = 0xF0) (ha : h.Accepts [0xF0]) :
    Ensures (Keeping h k) (onHost (Dsi.writeBuffer tx true)) fun _ => Keeping h k := by
  have hi : Host.instruction? m = none := by
    rw [Host.instruction?, hcmd]
    rfl
  have hother : m.cmd ∉ Gamma.tables.map (·.cmd) := by
    rw [hcmd]
    decide
  have hwrite := Host.ensures_writeBuffer (o := none) hm (hcmd ▸ ha) hother
  rw [hi] at hwrite
  exact hwrite.within _ _ (fun _ hs => hs.2) fun _ _ _ hs hg => ⟨hs.1, hg⟩

theorem ensures_readUnlocked {k : GammaState} (hlen : k.buffers.length = c.timings.length)
    (hrates : ∀ m ∈ c.timings, m.rate = 60 ∨ m.rate = 90) (hotp : ∃ m ∈ c.timings, m.rate = 60)
    (ha : h.Accepts (0xF0 :: c.timings.flatMap fun m => sources m.rate)) :
    Ensures (Keeping h k) (readUnlocked c) fun _ =>
      Keeping h ⟨buffersOf h.calibration c.timings, true⟩ := by
  have hkey : h.Accepts [0xF0] := ha.mono (List.cons_subset_cons _ (List.nil_subset _))
  have hsources : ∀ m ∈ c.timings, h.Accepts (sources m.rate) := fun m hm =>
    ha.mono fun cmd hcmd => List.mem_cons_of_mem _ (List.mem_flatMap.mpr ⟨m, hm, hcmd⟩)
  refine (ensures_key rfl rfl hkey).bind fun _ => ?_
  refine (ensures_readModes hlen hrates hotp hsources).outcome.bind fun result s hs => ?_
  obtain ⟨⟨⟩, rfl, hs⟩ := hs
  have hlock : Ensures (Keeping h ⟨buffersOf h.calibration c.timings, k.ready⟩)
      ((modify fun s => { s with gamma.ready := true } : Action (State Host) Unit) >>= fun _ =>
        onHost (Dsi.writeBuffer Gamma.lock true) >>= fun _ => Action.ofExcept (.ok ()))
      fun _ => Keeping h ⟨buffersOf h.calibration c.timings, true⟩ :=
    (ensures_modify (f := fun k => { k with ready := true })).bind fun _ =>
      (ensures_key rfl rfl hkey).bind fun _ t ht => ⟨(), t, rfl, ht⟩
  exact hlock s hs

/-- Gamma tables hold the calibration data of the host, whatever the order of the timings, and what
has been read is not read again. -/
theorem readGamma_calibration {s : State Host} (hf : c.family = .gamma)
    (hrates : ∀ m ∈ c.timings, m.rate = 60 ∨ m.rate = 90) (hotp : ∃ m ∈ c.timings, m.rate = 60)
    (hs : s.gamma.Valid c) (hready : s.gamma.ready = false)
    (ha : s.host.Accepts (0xF0 :: c.timings.flatMap fun m => sources m.rate)) :
    let t := (readGamma c).after s
    (readGamma c).answer s = .ok () ∧ t.gamma.ready = true ∧
      t.gamma.buffers = c.timings.map (fun m => some (filled (s.host.calibration m.rate))) ∧
      (∀ i m, c.timings[i]? = some m → ∃ b, t.buffer? i = some b ∧
        ∀ k table, Gamma.tables[k]? = some table →
          b.payload k = s.host.calibration m.rate table) ∧
      readGamma c t = .ok () t := by
  intro t
  have hread : readGamma c s = readUnlocked c s := by
    rw [readGamma, hf]
    show (if (!s.gamma.ready) = true then readUnlocked c else pure ()) s = _
    rw [hready]
    rfl
  obtain ⟨⟨⟩, u, hu, hgamma, -⟩ :=
    ensures_readUnlocked hs.length hrates hotp ha s ⟨rfl, Host.Like.refl _⟩
  rw [← hread] at hu
  have ht : t = u := by
    simp only [t, Action.after, hu]
  have hbuffers : t.gamma.buffers = buffersOf s.host.calibration c.timings := by
    rw [ht, hgamma]
  have hdone : t.gamma.ready = true := by
    rw [ht, hgamma]
  refine ⟨by simp only [Action.answer, hu], hdone, hbuffers, fun i m hm => ?_, ?_⟩
  · refine ⟨filled (s.host.calibration m.rate), ?_, fun k table hk => ?_⟩
    · rw [State.buffer?, hbuffers, buffersOf, List.getElem?_map, hm]
      rfl
    · exact Gamma.payload_filled (Gamma.length_calibration s.host m.rate) hk
  · rw [readGamma, hf]
    show (if (!t.gamma.ready) = true then readUnlocked c else pure ()) t = _
    rw [hdone]
    rfl

/-- The 90 Hz timing comes first. The last table begins with two bytes of its register and goes on
in flash, where the register has a third byte. -/
theorem readGamma_calibration_of_last_table :
    let c : Config := { Bench.gammaPlain none with
      timings := [⟨1080, 2340, 90, {}⟩, ⟨1080, 2340, 60, {}⟩] }
    let host : Host := { registers := [(0xB3, [7, 8, 9])], flash := [(0x013B, [1, 2, 3, 4])] }
    let s := State.initial c host {} none none
    let t := (readGamma c).after s
    c.family = .gamma ∧ (∀ m ∈ c.timings, m.rate = 60 ∨ m.rate = 90) ∧
      (∃ m ∈ c.timings, m.rate = 60) ∧ s.gamma.Valid c ∧ s.gamma.ready = false ∧
      s.host.Accepts (0xF0 :: c.timings.flatMap fun m => sources m.rate) ∧
      (readGamma c).answer s = .ok () ∧
      (∃ b, t.buffer? 0 = some b ∧ (b.payload 2).take 5 = [7, 8, 3, 4, 0]) ∧
      ∃ b, t.buffer? 1 = some b ∧ (b.payload 2).take 5 = [7, 8, 9, 0, 0] := by
  intro c host s t
  have hrates : ∀ m ∈ c.timings, m.rate = 60 ∨ m.rate = 90 := by decide
  have hotp : ∃ m ∈ c.timings, m.rate = 60 := by decide
  have hs : s.gamma.Valid c := ⟨rfl, fun hr => by cases hr⟩
  have ha : s.host.Accepts (0xF0 :: c.timings.flatMap fun m => sources m.rate) :=
    ⟨rfl, fun _ _ => List.not_mem_nil⟩
  obtain ⟨hanswer, -, -, hpayload, -⟩ := readGamma_calibration rfl hrates hotp hs rfl ha
  obtain ⟨b, hb, hb2⟩ := hpayload 0 _ rfl
  obtain ⟨d, hd, hd2⟩ := hpayload 1 _ rfl
  refine ⟨rfl, hrates, hotp, hs, rfl, ha, hanswer, ⟨b, hb, ?_⟩, d, hd, ?_⟩
  · rw [hb2 2 _ rfl]
    decide
  · rw [hd2 2 _ rfl]
    decide

end Panel
end OledPanel
