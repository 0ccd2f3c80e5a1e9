import Mathlib.Data.List.Forall2
import OledPanel.Bench.Plain
import OledPanel.Proofs.TimingInForce

/-! Where the gamma tables that are kept come from. Those of a 60 Hz timing are what its registers
delivered. Those of a 90 Hz timing come from flash without their leading bytes, which they get from
a 60 Hz timing when all timings were read; a reading that breaks off before leaves them without, and
a switch sends them as they are. -/

namespace OledPanel

open OledPanel.Action (Lasting Within Yields)
open Dsi (Exchange Recorder Transport)

/-- The bytes that came back, if the host took the message. -/
def Dsi.Exchange.delivered (e : Exchange) : List UInt8 :=
  match e.reply with
  | .ok rx => rx
  | .error _ => []

namespace Gamma

variable {σ : Type} {r q : List Exchange} {b otp : Buffer} {t : Table}

/-- The register of a table was asked for it, and the payload is what came back, filled up with
zeros. -/
def Answers (r : List Exchange) (t : Table) (p : List UInt8) : Prop :=
  ∃ e ∈ r, e.message = Dsi.question t.cmd t.length ∧
    p = Buffer.overwrite 0 (e.delivered.take t.length) (List.replicate t.length 0)

/-- The payloads of a buffer are what registers delivered. -/
def Delivered (r : List Exchange) (b : Buffer) : Prop :=
  ∀ k t, tables[k]? = some t → Answers r t (b.payload k)

/-- The bytes that flash does not have are zeros. -/
def Unmerged (b : Buffer) : Prop :=
  ∀ k t, tables[k]? = some t → (b.payload k).take t.otpLength = List.replicate t.otpLength 0

/-- The bytes that flash does not have are those of another buffer. -/
def MergedWith (otp b : Buffer) : Prop :=
  ∀ k t, tables[k]? = some t → (b.payload k).take t.otpLength = (otp.payload k).take t.otpLength

theorem Answers.mono {p : List UInt8} (h : Answers r t p) (hr : r <+: q) : Answers q t p := by
  obtain ⟨e, he, hrest⟩ := h
  exact ⟨e, hr.subset he, hrest⟩

theorem Delivered.mono (h : Delivered r b) (hr : r <+: q) : Delivered q b :=
  fun k t ht => (h k t ht).mono hr

theorem mergedWith_merge (hb : Laid tables b) (hotp : Laid tables otp) :
    MergedWith otp (b.merge otp tables) := by
  obtain ⟨ps, hps⟩ := hb
  obtain ⟨os, hos⟩ := hotp
  intro k t ht
  obtain ⟨p, hp, hpl⟩ := hps.payload? ht
  obtain ⟨o, ho, hol⟩ := hos.payload? ht
  have hshort : t.otpLength ≤ t.length :=
    (by decide : ∀ t ∈ tables, t.otpLength ≤ t.length) t (List.mem_of_getElem? ht)
  have hmerged : (b.merge otp tables).payload k = Buffer.overwrite 0 (o.take t.otpLength) p := by
    refine payload_eq (holds_merge hps otp) ht ?_
    rw [List.getElem?_zipWith, List.getElem?_zipIdx, ht, hp]
    simp [payload_eq hos ht ho, Nat.min_eq_left hshort]
  rw [hmerged, payload_eq hos ht ho]
  refine List.ext_getElem? fun j => ?_
  rw [List.getElem?_take, List.getElem?_take, getElem?_overwrite]
  split
  · next hj =>
    have hjp : j < p.length := by omega
    have hjo : j < o.length := by omega
    simp [hj, hjp, hjo]
  · rfl

/-! ### Reading -/

section

variable [Transport σ] {h g : Recorder σ}

/-- Reading addresses the registers of gamma tables only, so what was recorded stays. -/
theorem record_prefix {α : Type} {x : Action (Recorder σ) α} (hx : Within Reads x) {a : α}
    (hrun : x h = .ok a g) : h.record <+: g.record := by
  have hsends := hx h
  rw [Action.after, hrun] at hsends
  obtain ⟨es, hes, -⟩ := Recorder.record_of_sends hsends
  exact ⟨es, hes.symm⟩

/-- A register that is asked gives what was delivered. -/
theorem readSome_recorded {cmd : UInt8} {n : Nat} (hn : n ≠ 0) {rx : List UInt8}
    (hrun : readSome cmd n h = .ok rx g) :
    ∃ e ∈ g.record, e.message = Dsi.question cmd n ∧ rx = e.delivered.take n := by
  have hafter : (readSome cmd n).after h = (Dsi.transfer (Dsi.question cmd n)).after h := by
    rw [readSome, Action.after_outcome_bind, Dsi.read_eq cmd hn, Action.after_bind]
    split <;> split <;> rfl
  have hanswer : (readSome cmd n).answer h =
      .ok (Exchange.delivered ⟨Dsi.question cmd n, h.reply (Dsi.question cmd n)⟩ |>.take n) := by
    rw [readSome, Action.answer_bind, Action.answer_outcome, Dsi.read_eq cmd hn, Action.answer_bind,
      Exchange.delivered]
    cases hr : h.reply (Dsi.question cmd n) with
    | ok rx =>
      rw [Recorder.answer_transfer hr]
      rfl
    | error reason =>
      rw [Recorder.answer_transfer_of_error hr]
      exact congrArg Except.ok List.take_nil.symm
  rw [Action.answer, hrun] at hanswer
  rw [Action.after, hrun] at hafter
  refine ⟨_, ?_, rfl, Except.ok.inj hanswer⟩
  rw [show g = _ from hafter, Recorder.record_transfer]
  exact List.mem_append_right _ (List.mem_singleton_self _)

/-- A way to read a table puts a payload with a property in its place. -/
structure Fills (P : List Exchange → Table → List UInt8 → Prop)
    (read : Buffer → Table → Nat → Action (Recorder σ) Buffer) : Prop where
  lasts : ∀ {r q t p}, P r t p → r <+: q → P q t p
  reads : ∀ b, ∀ t ∈ tables, ∀ i, Within Reads (read b t i)
  fills : ∀ t ∈ tables, ∀ ps rs b h c g, tables[ps.length]? = some t →
    Holds b tables (ps ++ List.replicate t.length 0 :: rs) → read b t ps.length h = .ok c g →
      ∃ p, P g.record t p ∧ Holds c tables (ps ++ p :: rs)

variable {P : List Exchange → Table → List UInt8 → Prop}
  {read : Buffer → Table → Nat → Action (Recorder σ) Buffer}

/-- Table by table a blank buffer is filled. -/
theorem holds_readTables (hread : Fills P read) {c : Buffer} (done todo : List Table)
    (hts : tables = done ++ todo) {ps : List (List UInt8)} (hps : List.Forall₂ (P h.record) done ps)
    (hb : Holds b tables (ps ++ todo.map fun t => List.replicate t.length 0))
    (hrun : readTables read todo done.length b h = .ok c g) :
    ∃ qs, List.Forall₂ (P g.record) tables qs ∧ Holds c tables qs := by
  induction todo generalizing done ps b h with
  | nil =>
    cases hrun
    refine ⟨ps, ?_, by simpa using hb⟩
    rwa [hts, List.append_nil]
  | cons t todo ih =>
    have hlen : done.length = ps.length := hps.length_eq
    have ht : t ∈ tables := by simp [hts]
    obtain ⟨d, k, hstep, hrest⟩ := Action.parts_of_ok hrun
    rw [hlen] at hstep
    obtain ⟨p, hp, hd⟩ :=
      hread.fills t ht ps _ b h d k (by simp [hts, hlen]) (by simpa using hb) hstep
    have hlonger := record_prefix (hread.reads b t ht ps.length) hstep
    have hlast : List.Forall₂ (P k.record) (done ++ [t]) (ps ++ [p]) :=
      List.rel_append (hps.imp fun _ _ h => hread.lasts h hlonger) (.cons hp .nil)
    refine ih (done ++ [t]) (by simp [hts]) hlast (by simpa using hd) ?_
    rwa [List.length_append]

theorem payload_readTables (hread : Fills P read)
    (hrun : readTables read tables 0 (Buffer.blank tables) h = .ok b g) {k : Nat}
    (ht : tables[k]? = some t) : P g.record t (b.payload k) := by
  obtain ⟨ps, hps, hb⟩ := holds_readTables hread [] tables rfl .nil (holds_blank tables) hrun
  obtain ⟨hk, rfl⟩ := List.getElem?_eq_some_iff.mp ht
  have hkp : k < ps.length := hps.length_eq ▸ hk
  rw [payload_eq hb ht (List.getElem?_eq_getElem hkp)]
  exact hps.get hk hkp

theorem fills_readOtpTable : Fills (σ := σ) Answers readOtpTable where
  lasts h hr := h.mono hr
  reads b t ht i := within_readOtpTable b t i (List.mem_append_right _ (List.mem_map_of_mem ht))
  fills := by
    intro t ht ps rs b h c g hat hb hrun
    have hne : t.length ≠ 0 := (by decide : ∀ t ∈ tables, t.length ≠ 0) t ht
    have hread (k : Recorder σ) (hk : (readSome t.cmd t.length >>= fun rx =>
        pure (b.setPayload ps.length 0 rx)) k = .ok c g) :
        ∃ p, Answers g.record t p ∧ Holds c tables (ps ++ p :: rs) := by
      obtain ⟨rx, k, hsome, hset⟩ := Action.parts_of_ok hk
      cases hset
      obtain ⟨e, he, hm, rfl⟩ := readSome_recorded hne hsome
      refine ⟨_, ⟨e, he, hm, rfl⟩, holds_setPayload_append hb hat 0 _ ?_⟩
      rw [List.length_take]
      omega
    unfold readOtpTable at hrun
    dsimp only at hrun
    split at hrun
    · obtain ⟨_, k, -, hrest⟩ := Action.parts_of_ok hrun
      exact hread k hrest
    · exact hread h hrun

theorem fills_readFlashTable : Fills (σ := σ)
    (fun _ t p => p.take t.otpLength = List.replicate t.otpLength 0) readFlashTable where
  lasts h _ := h
  reads b t _ i := within_readFlashTable b t i
  fills := by
    intro t ht ps rs b h c g hat hb hrun
    have hshort : t.otpLength ≤ t.length :=
      (by decide : ∀ t ∈ tables, t.otpLength ≤ t.length) t ht
    obtain ⟨data, k, hdata, hset⟩ := Action.parts_of_ok hrun
    cases hset
    have hanswer : (readFlashBytes (t.flashOffset + t.otpLength) (t.length - t.otpLength)).answer h =
        .ok data := by rw [Action.answer, hdata]
    have hlen := yields_readFlashBytes _ _ h data hanswer
    refine ⟨_, ?_, holds_setPayload_append hb hat t.otpLength data (by omega)⟩
    refine List.ext_getElem? fun j => ?_
    rw [List.getElem?_take, getElem?_overwrite, List.getElem?_replicate, List.getElem?_replicate]
    split
    · next hj => simp [show j < t.length by omega, show ¬t.otpLength ≤ j by omega]
    · rfl

theorem delivered_readOtp (hrun : readOtp tables h = .ok b g) : Delivered g.record b :=
  fun _ _ ht => payload_readTables fills_readOtpTable hrun ht

theorem unmerged_readFlash (hrun : readFlash tables h = .ok b g) : Unmerged b := by
  obtain ⟨_, k, -, hrest⟩ := Action.parts_of_ok hrun
  obtain ⟨d, l, htables, hleave⟩ := Action.parts_of_ok hrest
  obtain ⟨_, m, -, hpure⟩ := Action.parts_of_ok hleave
  cases hpure
  exact fun _ _ ht => payload_readTables fills_readFlashTable htables ht

end

end Gamma

namespace Panel

open Gamma (Delivered MergedWith Unmerged)

variable {σ : Type} {c : Config} {r q : List Exchange} {g k : GammaState}

/-! ### Tables that are kept -/

/-- Where the tables that are kept come from. -/
structure Sourced (c : Config) (r : List Exchange) (g : GammaState) : Prop where
  laid : g.Laid
  valid : g.Valid c
  otp : ∀ j b, c.hasRate 60 j → g.buffers[j]? = some (some b) → Delivered r b
  flash : ∀ i b, c.hasRate 90 i → g.buffers[i]? = some (some b) → Unmerged b ∨
    (∃ j, c.hasRate 60 j) ∧ ∃ otp, Delivered r otp ∧ MergedWith otp b
  /-- Tables that count as read are merged. -/
  merged : g.ready = true → ∀ i j b, c.hasRate 90 i → g.buffers[i]? = some (some b) →
    c.timings.findIdx? (·.rate = 60) = some j →
      ∃ otp, g.buffers[j]? = some (some otp) ∧ MergedWith otp b

theorem Sourced.mono (h : Sourced c r g) (hr : r <+: q) : Sourced c q g where
  laid := h.laid
  valid := h.valid
  otp j b hj hb := (h.otp j b hj hb).mono hr
  flash i b hi hb :=
    (h.flash i b hi hb).imp_right fun ⟨h60, otp, hd, hm⟩ => ⟨h60, otp, hd.mono hr, hm⟩
  merged := h.merged

theorem hasRate_iff {rate : UInt32} {i : Nat} :
    c.hasRate rate i ↔ ∃ t, c.timings[i]? = some t ∧ t.rate = rate := by
  simp [Config.hasRate, Config.rate?]

/-- The first 60 Hz timing is one. -/
theorem hasRate_of_findIdx? {j : Nat} (hj : c.timings.findIdx? (·.rate = 60) = some j) :
    c.hasRate 60 j := by
  obtain ⟨hlt, hrate, -⟩ := List.findIdx?_eq_some_iff_getElem.mp hj
  exact hasRate_iff.mpr ⟨_, List.getElem?_eq_getElem hlt, of_decide_eq_true hrate⟩

theorem not_hasRate_of_ne {rate other : UInt32} (hne : rate ≠ other) {i : Nat}
    (h : c.hasRate rate i) : ¬c.hasRate other i := by
  obtain ⟨t, ht, rfl⟩ := hasRate_iff.mp h
  intro hi
  obtain ⟨u, hu, rfl⟩ := hasRate_iff.mp hi
  rw [ht] at hu
  cases hu
  exact hne rfl

/-- Without tables of the first 60 Hz timing there is nothing to merge with. With them, each of the
90 Hz tables is merged with them, and the others stay. -/
theorem mergeOtp_cases (c : Config) (bs : List (Option Gamma.Buffer)) :
    (mergeOtp c bs = bs ∧
      ∀ j otp, c.timings.findIdx? (·.rate = 60) = some j → bs[j]? ≠ some (some otp)) ∨
      ∃ j otp, c.timings.findIdx? (·.rate = 60) = some j ∧ bs[j]? = some (some otp) ∧
        ∀ i, (mergeOtp c bs)[i]? =
          bs[i]?.map fun b => if c.hasRate 90 i then b.map (·.merge otp Gamma.tables) else b := by
  rw [mergeOtp]
  split
  · next hnone =>
    refine .inl ⟨rfl, fun j otp hj hotp => ?_⟩
    rw [hj, Option.bind_some, hotp] at hnone
    cases hnone
  · next otp hsome =>
    obtain ⟨j, hj, hotp⟩ := Option.bind_eq_some_iff.mp hsome
    exact .inr ⟨j, otp, hj, Option.join_eq_some_iff.mp hotp, fun i => List.getElem?_mapIdx⟩

/-- A table that is kept is the one just read or was kept before. -/
theorem kept_set {bs : List (Option Gamma.Buffer)} {i j : Nat} {b d : Gamma.Buffer}
    (h : (bs.set i (some b))[j]? = some (some d)) : (i = j ∧ b = d) ∨ bs[j]? = some (some d) := by
  rw [List.getElem?_set] at h
  split at h
  · next hij =>
    split at h
    · exact .inl ⟨hij, by simpa using h⟩
    · cases h
  · exact .inr h

variable [Transport σ]

theorem sourced_readTiming {rate : UInt32} {h k : Recorder σ} {b : Gamma.Buffer}
    (hrun : readTiming rate h = .ok b k) :
    (rate = 60 → Delivered k.record b) ∧ (rate = 90 → Unmerged b) := by
  unfold readTiming at hrun
  split at hrun
  · next h60 =>
    have hne (h90 : rate = 90) : False := absurd (h60.symm.trans h90) (by decide)
    exact ⟨fun _ => Gamma.delivered_readOtp hrun, fun h90 => (hne h90).elim⟩
  · next h60 =>
    refine ⟨fun h => absurd h h60, fun h90 => ?_⟩
    rw [if_pos h90] at hrun
    exact Gamma.unmerged_readFlash hrun

/-- Merging all tables leaves where they come from. -/
theorem Sourced.complete (h : Sourced c r g) (hl : GammaState.Laid ⟨mergeOtp c g.buffers, true⟩)
    (hv : GammaState.Valid c ⟨mergeOtp c g.buffers, true⟩) :
    Sourced c r ⟨mergeOtp c g.buffers, true⟩ := by
  obtain ⟨hsame, hnone⟩ | ⟨j, otp, hj, hotp, hmerge⟩ := mergeOtp_cases c g.buffers
  · refine ⟨hl, hv, ?_, ?_, fun _ i j b _ _ hj => ?_⟩
    · simpa only [hsame] using h.otp
    · simpa only [hsame] using h.flash
    · have hlt : j < c.timings.length := (List.findIdx?_eq_some_iff_getElem.mp hj).1
      obtain ⟨otp, hotp⟩ := hv.ready rfl j hlt
      exact absurd (hsame ▸ hotp) (hnone j otp hj)
  have h60 := hasRate_of_findIdx? hj
  have hmerged {i : Nat} {d : Gamma.Buffer} (hi : c.hasRate 90 i)
      (hd : (mergeOtp c g.buffers)[i]? = some (some d)) : MergedWith otp d := by
    rw [hmerge] at hd
    obtain ⟨b, hb, hd⟩ := Option.map_eq_some_iff.mp hd
    rw [if_pos hi] at hd
    obtain ⟨b, rfl, rfl⟩ := Option.map_eq_some_iff.mp hd
    have hlaid := h.laid b (List.mem_of_getElem? hb)
    exact Gamma.mergedWith_merge hlaid (h.laid otp (List.mem_of_getElem? hotp))
  have hother {i : Nat} (hi : c.hasRate 60 i) : (mergeOtp c g.buffers)[i]? = g.buffers[i]? := by
    have h90 : ¬c.hasRate 90 i := not_hasRate_of_ne (by decide) hi
    simp [hmerge, h90]
  refine ⟨hl, hv, fun i b hi hb => h.otp i b hi (hother hi ▸ hb), fun i b hi hb => ?_, ?_⟩
  · exact .inr ⟨⟨j, h60⟩, otp, h.otp j otp h60 hotp, hmerged hi hb⟩
  · intro _ i k b hi hb hk
    obtain rfl : j = k := Option.some.inj (hj.symm.trans hk)
    exact ⟨otp, (hother h60).trans hotp, hmerged hi hb⟩

theorem Sourced.regauges {s : State (Recorder σ)} (hs : Sourced c s.host.record s.gamma)
    (hl : g.Laid) (hv : g.Valid c) (hk : Regauges c s g) : Sourced c s.host.record g := by
  cases hk with
  | forget => exact ⟨hl, hv, hs.otp, hs.flash, nofun⟩
  | @keep h t i b hr ht hb =>
    obtain ⟨h60, h90⟩ := sourced_readTiming hb
    have hrate {rate : UInt32} (hi : c.hasRate rate i) : t.rate = rate := by
      obtain ⟨u, hu, hrate⟩ := hasRate_iff.mp hi
      rw [ht] at hu
      cases hu
      exact hrate
    refine ⟨hl, hv, fun j d hj hd => ?_, fun j d hj hd => ?_, fun hready => ?_⟩
    · obtain ⟨rfl, rfl⟩ | hd := kept_set hd
      · exact h60 (hrate hj)
      · exact hs.otp j d hj hd
    · obtain ⟨rfl, rfl⟩ | hd := kept_set hd
      · exact .inl (h90 (hrate hj))
      · exact hs.flash j d hj hd
    · rw [hr] at hready
      cases hready
  | complete hr => exact hs.complete hl hv

/-! ### Runs -/

/-- It lasts where the tables that are kept come from. -/
def SourcedLasts (c : Config) : State (Recorder σ) → State (Recorder σ) → Prop :=
  Lasting fun s => Sourced c s.host.record s.gamma

instance : IsPreorder (State (Recorder σ)) (SourcedLasts c) :=
  inferInstanceAs (IsPreorder _ (Lasting _))

omit [Transport σ] in
theorem sourced_of_eq {s t : State (Recorder σ)} (hh : t.host = s.host) (hg : t.gamma = s.gamma) :
    SourcedLasts c s t := by
  intro hs
  rwa [hh, hg]

theorem sourced_transfer (s : State (Recorder σ)) (m : Dsi.Message) :
    SourcedLasts c s { s with host := (Dsi.transfer m).after s.host } := by
  intro hs
  refine hs.mono ?_
  rw [Recorder.record_transfer]
  exact List.prefix_append _ _

theorem sourced_task (s t : State (Recorder σ)) (h : Task c s t) : SourcedLasts c s t := by
  cases h with
  | transfer hm => exact sourced_transfer s _
  | gamma g hg hv hk => exact fun hs => hs.regauges (hg hs.laid) (hv hs.valid) hk
  | _ => exact sourced_of_eq rfl rfl

theorem sourced_detached :
    Detached c (SourcedLasts c : State (Recorder σ) → State (Recorder σ) → Prop) where
  task := sourced_task
  dims _ _ _ _ := sourced_of_eq rfl rfl
  ask s _ _ := sourced_transfer s _
  store s _ _ m _ _ := sourced_transfer s m
  keep _ _ _ := sourced_of_eq rfl rfl
  mode _ _ := sourced_of_eq rfl rfl
  errand s t h := by
    cases h with
    | task h => exact sourced_task s t h
    | _ => exact sourced_of_eq rfl rfl
  level s _ m _ := sourced_transfer s m
  power _ _ _ _ := sourced_of_eq rfl rfl

theorem sourced_step {s : State (Recorder σ)} (hs : Sourced c s.host.record s.gamma) (i : Input) :
    Sourced c (step c s i).host.record (step c s i).gamma :=
  sourced_detached.oblivious.step
    (fun h => h.related sourced_task fun _ _ => sourced_of_eq rfl rfl) s i hs

theorem sourced_run {s : State (Recorder σ)} (hs : Sourced c s.host.record s.gamma)
    (is : List Input) : Sourced c (run c s is).host.record (run c s is).gamma := by
  induction is generalizing s with
  | nil => exact hs
  | cons i is ih => exact ih (sourced_step hs i)

omit [Transport σ] in
theorem sourced_initial (c : Config) (h : Recorder σ) (display : Display) (pwm : Option Pwm)
    (regulator : Option Regulator) :
    Sourced c h.record (State.initial c h display pwm regulator).gamma := by
  have hnone (i : Nat) (b : Gamma.Buffer) :
      (State.initial c h display pwm regulator).gamma.buffers[i]? ≠ some (some b) := by
    intro hb
    have hmem := List.mem_of_getElem? hb
    simp [State.initial] at hmem
  exact {
    laid := laid_initial c h display pwm regulator
    valid := ⟨List.length_map _, fun hready => absurd hready Bool.false_ne_true⟩
    otp := fun j b _ hb => absurd hb (hnone j b)
    flash := fun i b _ hb => absurd hb (hnone i b)
    merged := fun hready => absurd hready Bool.false_ne_true }

/-! ### Switches -/

/-- The tables stay, and what is recorded is recorded after what was. -/
def Records (s t : State (Recorder σ)) : Prop :=
  t.gamma = s.gamma ∧ s.host.record <+: t.host.record

omit [Transport σ] in
instance : IsPreorder (State (Recorder σ)) Records where
  refl _ := ⟨rfl, List.prefix_refl _⟩
  trans _ _ _ h k := ⟨k.1.trans h.1, h.2.trans k.2⟩

theorem records_onHost {α : Type} {x : Action (Recorder σ) α}
    (hx : Within (Dsi.Sends fun _ => True) x) :
    Within Records (onHost x : Action (State (Recorder σ)) α) := by
  intro s
  obtain ⟨es, hes, -⟩ := Recorder.record_of_sends (hx s.host)
  rw [after_onHost]
  exact ⟨rfl, es, hes.symm⟩

theorem records_writeBuffer (tx : List UInt8) (last : Bool) :
    Within Records (onHost (Dsi.writeBuffer tx last) : Action (State (Recorder σ)) Unit) :=
  records_onHost (Dsi.within_writeBuffer tx last fun _ _ => trivial)

/-- Tables are sent as they are kept, whatever fails. -/
theorem recorded_sendTables {b : Gamma.Buffer} (hb : Gamma.Laid Gamma.tables b)
    (ts : List (Gamma.Table × Nat)) (hts : ∀ t ∈ ts, Gamma.tables[t.2]? = some t.1)
    (s : State (Recorder σ)) : ∃ es, ((sendTables b ts).after s).host.record = s.host.record ++ es ∧
      es.map (·.message.tx) = ts.map fun t => t.1.cmd :: b.payload t.2 := by
  induction ts generalizing s with
  | nil => exact ⟨[], (List.append_nil _).symm, rfl⟩
  | cons t ts ih =>
    obtain ⟨p, hp⟩ := hb.table (hts t (by simp))
    have hpayload : b.payload t.2 = p := by rw [Gamma.Buffer.payload, hp, List.tail_cons]
    obtain ⟨m, hm⟩ := Dsi.plain?_cons t.1.cmd p (!t.1.grouped)
    obtain ⟨es, hes, htx⟩ := ih (fun u hu => hts u (by simp [hu]))
      { s with host := (Dsi.transfer m).after s.host }
    refine ⟨⟨m, s.host.reply m⟩ :: es, ?_, ?_⟩
    · rw [sendTables, Action.after_attempt_bind, after_onHost, hp, Dsi.writeBuffer_eq hm,
        Action.after_discard, hes, Recorder.record_transfer, List.append_assoc, List.singleton_append]
    · rw [List.map_cons, List.map_cons, htx, (Dsi.plain?_eq hm).1, hpayload]

/-- A switch that the panel unlocks for sends the tables of its timing as they are kept. -/
theorem recorded_performSwitch (hc : c.family = .gamma) {s : State (Recorder σ)} {i : Nat}
    (hu : (s.switch c i).unlocked = true) {b : Gamma.Buffer} (hb : s.buffer? i = some b)
    (hl : Gamma.Laid Gamma.tables b) : ∃ before es later,
      ((performSwitch c i).after s).host.record = s.host.record ++ (before ++ es ++ later) ∧
        es.map (·.message.tx) = Gamma.tables.zipIdx.map fun t => t.1.cmd :: b.payload t.2 := by
  rw [State.switch, hc] at hu
  dsimp only at hu
  have htiming : Within Records (sendTiming c i : Action (State (Recorder σ)) Unit) := by
    unfold sendTiming
    split
    · exact Within.pure _
    · exact records_onHost (Dsi.CommandSet.within_send _ fun _ _ => trivial)
  have hcontrol : Within Records
      (writeControl c ((c.rate? (some i)).getD 0) : Action (State (Recorder σ)) Unit) :=
    Within.get fun t => records_writeBuffer _ _
  let t := (writeControl c ((c.rate? (some i)).getD 0)).after ((sendTiming c i).after
    ((onHost (Dsi.writeBuffer Gamma.unlock true)).after s))
  obtain ⟨hgamma, before, hbefore⟩ : Records s t := IsTrans.trans _ _ _ (records_writeBuffer _ _ s)
    (IsTrans.trans _ _ _ (htiming _) (hcontrol _))
  obtain ⟨es, hes, htx⟩ := recorded_sendTables hl Gamma.tables.zipIdx
    (fun u hu => List.mem_zipIdx_iff_getElem?.mp hu) t
  have hreplay : (switchUnlocked c i).after ((onHost (Dsi.writeBuffer Gamma.unlock true)).after s) =
      (sendTables b Gamma.tables.zipIdx).after t := by
    have hkept : t.buffer? i = some b := by rw [State.buffer?, hgamma, ← State.buffer?, hb]
    rw [switchUnlocked, Action.after_attempt_bind, Action.after_attempt_bind, replayGamma,
      Action.after_get_bind, hkept]
  obtain ⟨-, later, hlater⟩ :=
    records_writeBuffer Gamma.lock true ((sendTables b Gamma.tables.zipIdx).after t)
  refine ⟨before, es, later, ?_, htx⟩
  rw [after_performSwitch hc i s]
  dsimp only
  rw [if_pos hu, ← after_onHost, hreplay, ← hlater, hes, ← hbefore]
  simp only [List.append_assoc]

/-- Whatever is asked of a panel and whatever fails, the leading bytes of the tables of a 90 Hz timing
are zeros, or what registers delivered to a reading of a 60 Hz timing. They are those that the first
60 Hz timing has now if the last reading that changed any tables went well to its end. A switch that
the panel unlocks for sends the tables as they are kept, merged or not. -/
theorem leading_bytes_of_replayed_tables (c : Config) (host : σ) (display : Display)
    (pwm : Option Pwm) (regulator : Option Regulator) (inputs : List Input) :
    let start := State.initial c ({ host } : Recorder σ) display pwm regulator
    let s := run c start inputs
    let history := changes c (fun t => t.gamma.buffers) start inputs
    ∀ i b, c.hasRate 90 i → s.buffer? i = some b →
      (Unmerged b ∨ (∃ j, c.hasRate 60 j) ∧ ∃ otp, Delivered s.host.record otp ∧ MergedWith otp b) ∧
      ((∀ t ∈ history.getLast?, t.gamma.ready = true) →
        ∀ j, c.timings.findIdx? (·.rate = 60) = some j →
          ∃ otp, s.buffer? j = some otp ∧ Delivered s.host.record otp ∧ MergedWith otp b) ∧
      (c.family = .gamma → (s.switch c i).unlocked = true → ∃ before es later,
        ((performSwitch c i).after s).host.record = s.host.record ++ (before ++ es ++ later) ∧
          es.map (·.message.tx) = Gamma.tables.zipIdx.map fun t => t.1.cmd :: b.payload t.2) := by
  intro start s history i b hi hb
  have hstart : Sourced c start.host.record start.gamma :=
    sourced_initial c _ display pwm regulator
  have hs : Sourced c s.host.record s.gamma := sourced_run hstart inputs
  have hkept : s.gamma.buffers[i]? = some (some b) := Option.join_eq_some_iff.mp hb
  refine ⟨hs.flash i b hi hkept, fun hlast j hj => ?_, fun hc hu => ?_⟩
  · -- There was a change, as no table is there at the start.
    have hbuffers : s.gamma.buffers = _ := last_change (fun t => t.gamma.buffers) start inputs
    cases ht : history.getLast? with
    | none =>
      rw [show (changes c _ start inputs).getLast? = none from ht] at hbuffers
      rw [hbuffers] at hkept
      have hmem := List.mem_of_getElem? hkept
      simp [start, State.initial] at hmem
    | some t =>
      rw [show (changes c _ start inputs).getLast? = some t from ht] at hbuffers
      have hbuffers : s.gamma.buffers = t.gamma.buffers := hbuffers
      obtain ⟨js, -, rfl⟩ := reached_of_changes (List.mem_of_getLast? ht)
      rw [hbuffers] at hkept
      obtain ⟨otp, hotp, hmerged⟩ := (sourced_run hstart js).merged (hlast _ ht) i j b hi hkept hj
      have hstored : s.gamma.buffers[j]? = some (some otp) := hbuffers ▸ hotp
      refine ⟨otp, ?_, hs.otp j otp (hasRate_of_findIdx? hj) hstored, hmerged⟩
      rw [State.buffer?, hstored]
      rfl
  · exact recorded_performSwitch hc hu hb (hs.laid b (List.mem_of_getElem? hkept))

/-- All tables were read. The register of the last table begins with two bytes that the 90 Hz timing
has got too. -/
theorem leading_bytes_after_reading :
    let c := Bench.gammaPlain none
    let host : Bench.Host := { registers := [(0xB3, [0x5A, 0x3C])] }
    let start := State.initial c ({ host } : Recorder Bench.Host) {} none none
    let inputs : List Input := [.request .enable, .request .postEnable]
    let s := run c start inputs
    ∃ b otp, s.buffer? 1 = some b ∧ (b.payload 2).take 2 = [0x5A, 0x3C] ∧
      s.buffer? 0 = some otp ∧ Delivered s.host.record otp ∧ MergedWith otp b := by
  intro c host start inputs s
  have hrun : (s.buffer? 1).map (fun b => (b.payload 2).take 2) = some [0x5A, 0x3C] ∧
      ∀ t ∈ (changes c (fun t => t.gamma.buffers) start inputs).getLast?, t.gamma.ready = true := by
    decide +kernel
  obtain ⟨hbytes, hlast⟩ := hrun
  obtain ⟨b, hb, hpayload⟩ := Option.map_eq_some_iff.mp hbytes
  obtain ⟨-, hmerged, -⟩ :=
    leading_bytes_of_replayed_tables c host {} none none inputs 1 b (by decide) hb
  obtain ⟨otp, hotp, hdelivered, hwith⟩ := hmerged hlast 0 (by decide)
  exact ⟨b, otp, hb, hpayload, hotp, hdelivered, hwith⟩

/-- One write fails while a third timing is read, so the reading breaks off after the 90 Hz timing.
The switch to that sends its last table without the bytes that were delivered for it. -/
theorem leading_bytes_of_broken_reading :
    let timings := { name := Timing.nodeName, children := [60, 90, 60].map Bench.timingNode }
    let node :=
      Bench.withProperties (Bench.plainNode [timings]) [("compatible", .texts [Gamma.compatible])]
    let c := { Bench.gammaPlain none with
      timings := [⟨1080, 2340, 60, {}⟩, ⟨1080, 2340, 90, {}⟩, ⟨1080, 2340, 60, {}⟩] }
    let host : Bench.Host := {
      registers := [(0xB3, [0x5A, 0x3C])]
      flash := [(0x013B, [0x11, 0x22, 0x33, 0x44])]
      countdown := some 1448 }
    let inputs := [.request .enable, .request .postEnable, .request (.setMode ⟨none, 90⟩)]
    let s := run c (State.initial c host {} none none) inputs
    (Config.ofNode node false).toOption = some c ∧
      (s.buffer? 0).map (fun b => (b.payload 2).take 4) = some [0x5A, 0x3C, 0, 0] ∧
      (s.buffer? 1).map (fun b => (b.payload 2).take 4) = some [0, 0, 0x33, 0x44] ∧
      (s.host.register? 0xB3).map (·.take 4) = some [0, 0, 0x33, 0x44] := by
  decide +kernel

end Panel
end OledPanel
