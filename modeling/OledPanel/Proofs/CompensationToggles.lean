import OledPanel.Proofs.Compensation
import OledPanel.Proofs.Exchanges

/-! Setting and clearing the compensation bit, message by message. The register is asked for only if
no bytes are kept, it is written at most once, and the panel is locked whatever fails. Once the
register was read in full, all that is ever written to it are the bytes read with the compensation bit
as asked for, even if what was written before never arrived. -/

namespace OledPanel

open OledPanel.Action (Exchanges)
open Dsi (Attempt Exchange Message Recorder Transport question)

namespace Hbm.Irc

/-- A bit of a register, counted from the lowest of the first byte. -/
def bitAt (bytes : List UInt8) (k : Nat) : Bool := (bytes.getD (k / 8) 0).toNat.testBit (k % 8)

/-- The new bytes are the old ones, except that the compensation bit is as asked for. -/
structure Amends (i : Irc) (on : Bool) (old new : List UInt8) : Prop where
  length : new.length = old.length
  bits : ∀ k, bitAt new k = if k = i.bit then on else bitAt old k

variable {i : Irc}

/-- Of several changes of the bit the last counts. -/
theorem Amends.trans {b on : Bool} {old mid new : List UInt8} (h : i.Amends b old mid)
    (k : i.Amends on mid new) : i.Amends on old new where
  length := k.length.trans h.length
  bits n := by
    rw [k.bits, h.bits]
    split <;> rfl

theorem testBit_mask (i : Irc) {j : Nat} (hj : j < 8) :
    i.mask.toNat.testBit j = decide (j = i.bit % 8) := by
  have h : ∀ n < 8, ∀ j < 8, ((1 : UInt8) <<< UInt8.ofNat n).toNat.testBit j = decide (j = n) := by
    decide
  exact h _ (Nat.mod_lt _ (by decide)) j hj

theorem testBit_or_mask (i : Irc) (b : UInt8) {j : Nat} (hj : j < 8) :
    (b ||| i.mask).toNat.testBit j = if j = i.bit % 8 then true else b.toNat.testBit j := by
  rw [UInt8.toNat_or, Nat.testBit_or, i.testBit_mask hj]
  split <;> simp_all

theorem testBit_and_not_mask (i : Irc) (b : UInt8) {j : Nat} (hj : j < 8) :
    (b &&& ~~~i.mask).toNat.testBit j = if j = i.bit % 8 then false else b.toNat.testBit j := by
  have hnot : (~~~i.mask).toNat.testBit j = !decide (j = i.bit % 8) := by
    have h := BitVec.getLsbD_not (x := i.mask.toBitVec) (i := j)
    rw [decide_eq_true hj, Bool.true_and] at h
    rw [← i.testBit_mask hj]
    exact h
  rw [UInt8.toNat_and, Nat.testBit_and, hnot]
  split <;> simp_all

theorem amends_withBit (on : Bool) {bytes : List UInt8} (h : i.index < bytes.length) :
    i.Amends on bytes (i.withBit on bytes) where
  length := i.length_withBit on bytes
  bits k := by
    have hj : k % 8 < 8 := Nat.mod_lt _ (by decide)
    by_cases hk : k / 8 = i.index
    · have hbit : k = i.bit ↔ k % 8 = i.bit % 8 := by
        rw [index] at hk
        omega
      have hget : (i.withBit on bytes).getD (k / 8) 0 =
          if on then bytes.getD (k / 8) 0 ||| i.mask else bytes.getD (k / 8) 0 &&& ~~~i.mask := by
        rw [withBit, hk, List.getD_eq_getElem?_getD, List.getD_eq_getElem?_getD, List.getElem?_modify_eq,
          List.getElem?_eq_getElem h]
        rfl
      simp only [bitAt, hget, hbit]
      cases on with
      | true => exact i.testBit_or_mask _ hj
      | false => exact i.testBit_and_not_mask _ hj
    · have hne : k ≠ i.bit := by
        rintro rfl
        exact hk rfl
      rw [if_neg hne, bitAt, bitAt, withBit, List.getD_eq_getElem?_getD, List.getD_eq_getElem?_getD,
        List.getElem?_modify_ne _ _ (Ne.symm hk)]

/-- The register up to the bit is asked for once. It is there if the host gives all of it. -/
theorem exchanges_fetch {σ : Type} [Transport σ] (i : Irc) (r : Recorder σ) :
    Exchanges Recorder.record (i.fetch : Action (Recorder σ) (List UInt8)) r fun es a =>
      ∃ reply, es = [⟨question i.address i.size, reply⟩] ∧
        ((∃ rx, reply = .ok rx ∧ i.size ≤ rx.length ∧ a = .ok (rx.take i.size)) ∨
          (∀ rx, reply = .ok rx → rx.length < i.size) ∧ ∃ e, a = .error e) := by
  refine (Dsi.exchanges_read i.address i.size_ne_zero r).bind ?_ ?_
  · rintro _ bytes ⟨⟨_, reply⟩, rfl, rfl, ha⟩
    cases reply with
    | error reason => cases ha
    | ok rx =>
      obtain rfl : bytes = rx.take i.size := Except.ok.inj ha
      split
      · next hl =>
        have hfull : i.size ≤ rx.length := by
          rw [← hl, List.length_take]
          exact Nat.min_le_right _ _
        exact Action.exchanges_pure ⟨_, rfl, .inl ⟨rx, rfl, hfull, rfl⟩⟩
      · next hl =>
        refine Action.exchanges_throw ⟨_, rfl, .inr ⟨?_, _, rfl⟩⟩
        rintro _ ⟨⟩
        rw [List.length_take] at hl
        omega
  · rintro _ e ⟨⟨_, reply⟩, rfl, rfl, ha⟩
    cases reply with
    | ok rx => cases ha
    | error reason => exact ⟨_, rfl, .inr ⟨nofun, e, rfl⟩⟩

end Hbm.Irc

namespace Panel

variable {σ : Type} {c : Config} {irc : Hbm.Irc}

/-- What a call does between unlocking and locking: from the bytes that are kept, what is asked for,
what is written, whether the call goes well, and the bytes that are kept from then on. -/
inductive Toggles (irc : Hbm.Irc) (on : Bool) :
    Option (List UInt8) → List Exchange → List Exchange → Bool → Option (List UInt8) → Prop
  | kept {bytes : List UInt8} {put : Exchange} {ok : Bool}
    (hw : put.Writes (irc.address :: irc.withBit on bytes) true) (ho : ok = true ↔ put.Taken) :
    Toggles irc on (some bytes) [] [put] ok (some (irc.withBit on bytes))
  | asked {rx : List UInt8} {put : Exchange} {ok : Bool} (hr : irc.size ≤ rx.length)
    (hw : put.Writes (irc.address :: irc.withBit on (rx.take irc.size)) true)
    (ho : ok = true ↔ put.Taken) :
    Toggles irc on none [⟨question irc.address irc.size, .ok rx⟩] [put] ok
      (some (irc.withBit on (rx.take irc.size)))
  | unanswered {reply : Except String (List UInt8)} (hr : ∀ rx, reply = .ok rx → rx.length < irc.size) :
    Toggles irc on none [⟨question irc.address irc.size, reply⟩] [] false none

variable [Transport σ]

/-- Bytes are kept before they are written, so they are kept even if the write fails. -/
def putIrc (irc : Hbm.Irc) (bytes : List UInt8) : Action (State σ) Unit := do
  modify fun s => { s with hbm.ircBytes := some bytes }
  onHost (Dsi.write irc.address bytes)

theorem applyIrc_of_kept (on : Bool) {bytes : List UInt8} {s : State σ}
    (hs : s.hbm.ircBytes = some bytes) :
    applyIrc irc on s = putIrc irc (irc.withBit on bytes) s := by
  rw [applyIrc, Action.get_bind, hs]
  rfl

theorem applyIrc_of_none (on : Bool) {s : State σ} (hs : s.hbm.ircBytes = none) :
    applyIrc irc on s = (onHost irc.fetch >>= fun old => putIrc irc (irc.withBit on old)) s := by
  rw [applyIrc, Action.get_bind, hs]
  rfl

theorem exchanges_putIrc (bytes : List UInt8) (s : State (Recorder σ)) :
    Exchanges State.record (putIrc irc bytes) s fun es a => ∃ put : Exchange, es = [put] ∧
      put.Writes (irc.address :: bytes) true ∧ (a.isOk = true ↔ put.Taken) :=
  Action.exchanges_modify_bind rfl (exchanges_write irc.address bytes true _)

theorem ircBytes_putIrc (bytes : List UInt8) (s : State σ) :
    ((putIrc irc bytes).after s).hbm.ircBytes = some bytes := by
  rw [putIrc, Action.after_modify_bind, after_onHost]

theorem exchanges_applyIrc (on : Bool) (s : State (Recorder σ)) :
    Exchanges State.record (applyIrc irc on) s fun es a => ∃ ask put, es = ask ++ put ∧
      Toggles irc on s.hbm.ircBytes ask put a.isOk ((applyIrc irc on).after s).hbm.ircBytes := by
  cases hs : s.hbm.ircBytes with
  | some bytes =>
    have happly : applyIrc irc on s = _ := applyIrc_of_kept on hs
    refine (exchanges_putIrc (irc.withBit on bytes) s).mono ?_ |>.congr happly
    rintro _ a ⟨put, rfl, hw, ho⟩
    refine ⟨[], [put], rfl, ?_⟩
    rw [Action.after, happly, ← Action.after, ircBytes_putIrc]
    exact .kept hw ho
  | none =>
    have happly : applyIrc irc on s = _ := applyIrc_of_none on hs
    rw [Action.after, happly, ← Action.after]
    have hafter (old : List UInt8) (ha : irc.fetch.answer s.host = .ok old) :
        ((onHost irc.fetch >>= fun old => putIrc irc (irc.withBit on old)).after s).hbm.ircBytes =
          some (irc.withBit on old) := by
      rw [Action.after_bind, answer_onHost, ha]
      exact ircBytes_putIrc _ _
    have hfailed (e : Error) (ha : irc.fetch.answer s.host = .error e) :
        ((onHost irc.fetch >>= fun old => putIrc irc (irc.withBit on old)).after s).hbm.ircBytes =
          none := by
      rw [Action.after_bind, answer_onHost, ha, after_onHost]
      exact hs
    refine (exchanges_onHost (irc.exchanges_fetch s.host).with_answer).bind ?_ ?_ |>.congr happly
    · rintro _ old ⟨⟨reply, rfl, ⟨rx, rfl, hr, ha⟩ | ⟨-, e, ⟨⟩⟩⟩, hanswer⟩
      obtain rfl := Except.ok.inj ha
      rw [hafter _ hanswer]
      refine (exchanges_putIrc _ _).mono ?_
      rintro _ a ⟨put, rfl, hw, ho⟩
      exact ⟨_, [put], rfl, .asked hr hw ho⟩
    · rintro _ e ⟨⟨reply, rfl, ⟨rx, -, -, ⟨⟩⟩ | ⟨hr, -⟩⟩, hanswer⟩
      rw [hfailed _ hanswer]
      exact ⟨_, [], rfl, .unanswered hr⟩

theorem updateIrc_eq (hirc : c.irc? = some irc) (on : Bool) :
    (updateIrc c on : Action (State σ) Unit) = (do
      Action.attempt (onHost irc.unlock.send)
      let result ← Action.outcome (applyIrc irc on)
      Action.attempt (onHost irc.lock.send)
      Action.ofExcept result) := by
  rw [updateIrc, show c.hbm.bind (·.irc) = some irc from hirc]

theorem ircBytes_updateIrc (hirc : c.irc? = some irc) (on : Bool) (s : State σ) :
    ((updateIrc c on).after s).hbm.ircBytes =
      ((applyIrc irc on).after ((onHost irc.unlock.send).after s)).hbm.ircBytes := by
  rw [updateIrc_eq hirc, Action.after_attempt_bind, Action.after_outcome_bind,
    Action.after_attempt_bind, Action.after_ofExcept, after_onHost irc.lock.send]

/-- A call unlocks, does its work and locks, and it is the work that the answer is about. -/
theorem exchanges_updateIrc (hirc : c.irc? = some irc) (on : Bool) (s : State (Recorder σ)) :
    Exchanges State.record (updateIrc c on) s fun es a => ∃ unlock ask put lock,
      es = unlock ++ ask ++ put ++ lock ∧ Attempt irc.unlock.messages unlock ∧
        Attempt irc.lock.messages lock ∧ Toggles irc on s.hbm.ircBytes ask put a.isOk
          ((updateIrc c on).after s).hbm.ircBytes := by
  rw [ircBytes_updateIrc hirc, updateIrc_eq hirc]
  refine (exchanges_onHost (irc.unlock.exchanges_send s.host)).attempt_bind fun unlock _ hu => ?_
  refine (exchanges_applyIrc on _).outcome_bind ?_
  rintro _ r ⟨ask, put, rfl, htoggles⟩
  refine (exchanges_onHost (irc.lock.exchanges_send _)).attempt_bind fun lock _ hl => ?_
  refine Action.exchanges_ofExcept ⟨unlock, ask, put, lock, ?_, hu, hl, ?_⟩
  · simp
  · rwa [after_onHost] at htoggles ⊢

/-! ### Calls after the register was read -/

/-- The states in which a call may find the panel after a state: calls and whatever leaves the bytes
that are kept have happened in between. -/
def Later (c : Config) : State σ → State σ → Prop :=
  Relation.ReflTransGen fun s t =>
    (∃ on, t = (updateIrc c on).after s) ∨ t.hbm.ircBytes = s.hbm.ircBytes

/-- The bytes kept are those that were read, but for the compensation bit. -/
def Holding (irc : Hbm.Irc) (read : List UInt8) (s : State σ) : Prop :=
  ∃ b bytes, s.hbm.ircBytes = some bytes ∧ irc.Amends b read bytes

/-- The register is written with the bytes that were read, and the compensation bit as asked for. -/
def Puts (irc : Hbm.Irc) (on : Bool) (read : List UInt8) (e : Exchange) : Prop :=
  ∃ bytes, irc.Amends on read bytes ∧ e.Writes (irc.address :: bytes) true

omit [Transport σ] in
/-- A panel that was asked for the register and gave all of it holds what it gave. -/
theorem Toggles.of_asked {on ok : Bool} {kept : Option (List UInt8)} {rx : List UInt8}
    (hfull : irc.size ≤ rx.length) {t : State σ} {put : List Exchange}
    (h : Toggles irc on kept [⟨question irc.address irc.size, .ok rx⟩] put ok t.hbm.ircBytes) :
    (∃ e, put = [e] ∧ Puts irc on (rx.take irc.size) e) ∧ Holding irc (rx.take irc.size) t := by
  have hnew : irc.Amends on (rx.take irc.size) (irc.withBit on (rx.take irc.size)) := by
    refine Hbm.Irc.amends_withBit on ?_
    rw [List.length_take, Nat.min_eq_left hfull]
    exact Nat.lt_succ_self _
  generalize ht : t.hbm.ircBytes = bytes at h
  cases h with
  | asked hr hw ho => exact ⟨⟨_, rfl, _, hnew, hw⟩, on, _, ht, hnew⟩
  | unanswered hr => exact absurd (hr rx rfl) (Nat.not_lt.mpr hfull)

omit [Transport σ] in
/-- A panel that holds the bytes is asked nothing, and it holds them afterwards. -/
theorem Toggles.of_holding {on ok : Bool} {read : List UInt8} (hread : read.length = irc.size)
    {s t : State σ} (hs : Holding irc read s) {ask put : List Exchange}
    (h : Toggles irc on s.hbm.ircBytes ask put ok t.hbm.ircBytes) :
    ask = [] ∧ (∃ e, put = [e] ∧ Puts irc on read e) ∧ Holding irc read t := by
  obtain ⟨b, bytes, hkept, hbytes⟩ := hs
  rw [hkept] at h
  have hnew : irc.Amends on read (irc.withBit on bytes) :=
    hbytes.trans (Hbm.Irc.amends_withBit on (hbytes.length.trans hread ▸ Nat.lt_succ_self _))
  generalize ht : t.hbm.ircBytes = kept at h
  cases h with
  | kept hw ho => exact ⟨rfl, ⟨_, rfl, _, hnew, hw⟩, on, _, ht, hnew⟩

/-- Bytes that were read stay held through calls and through whatever leaves them alone. -/
theorem holding_later (hirc : c.irc? = some irc) {read : List UInt8} (hread : read.length = irc.size)
    {s t : State (Recorder σ)} (hs : Holding irc read s) (h : Later c s t) : Holding irc read t := by
  induction h with
  | refl => exact hs
  | @tail t u _ step ih =>
    obtain ⟨on, rfl⟩ | hu := step
    · obtain ⟨-, -, -, ask, put, -, -, -, -, htoggles⟩ := exchanges_updateIrc hirc on t
      exact (htoggles.of_holding hread ih).2.2
    · obtain ⟨b, bytes, hkept, hbytes⟩ := ih
      exact ⟨b, bytes, hu.trans hkept, hbytes⟩

/-- Whatever fails, a call unlocks the panel, asks for the register up to the bit if no bytes are kept,
writes it at most once, and locks the panel. It writes nothing and keeps nothing if the register does
not come in full. Once it has come, this call and all later ones write the bytes read with nothing but
the compensation bit changed to what is asked for, whether or not earlier writes arrived. -/
theorem compensation_toggles_one_bit (c : Config) {irc : Hbm.Irc} (hirc : c.irc? = some irc)
    (s : State (Recorder σ)) (on : Bool) :
    let t := (updateIrc c on).after s
    ∃ unlock ask put lock, t.record = s.record ++ (unlock ++ ask ++ put ++ lock) ∧
      Attempt irc.unlock.messages unlock ∧ Attempt irc.lock.messages lock ∧
      Toggles irc on s.hbm.ircBytes ask put ((updateIrc c on).answer s).isOk t.hbm.ircBytes ∧
      ∀ rx, ask = [⟨question irc.address irc.size, .ok rx⟩] → irc.size ≤ rx.length →
        (∃ e, put = [e] ∧ Puts irc on (rx.take irc.size) e) ∧
        ∀ u, Later c t u → ∀ next, ∃ unlock put lock,
          ((updateIrc c next).after u).record = u.record ++ (unlock ++ put :: lock) ∧
            Attempt irc.unlock.messages unlock ∧ Attempt irc.lock.messages lock ∧
            Puts irc next (rx.take irc.size) put := by
  intro t
  obtain ⟨_, hrecord, unlock, ask, put, lock, rfl, hu, hl, htoggles⟩ := exchanges_updateIrc hirc on s
  refine ⟨unlock, ask, put, lock, hrecord, hu, hl, htoggles, fun rx hask hfull => ?_⟩
  have hread : (rx.take irc.size).length = irc.size := by
    rw [List.length_take, Nat.min_eq_left hfull]
  subst hask
  have hwritten := htoggles.of_asked hfull
  refine ⟨hwritten.1, fun u hlater next => ?_⟩
  obtain ⟨_, hrecord, unlock, ask, put, lock, rfl, hu, hl, htoggles⟩ := exchanges_updateIrc hirc next u
  obtain ⟨rfl, ⟨e, rfl, he⟩, -⟩ :=
    htoggles.of_holding hread (holding_later hirc hread hwritten.2 hlater)
  refine ⟨unlock, e, lock, ?_, hu, hl, he⟩
  rw [hrecord]
  simp

/-- The first call reads the register, but its write fails. The second does not read again and changes
the bit in what was read. -/
theorem compensation_toggles_one_bit_after_failed_write :
    let irc : Hbm.Irc := {
      address := 0xB5
      bit := 11
      unlock := { commands := [⟨.longWrite, true, 0, Gamma.unlock⟩] }
      lock := { commands := [⟨.longWrite, true, 0, Gamma.lock⟩] } }
    let c := Bench.plain (some
      { ranges := [], exit := {}, exitStop := {}, exitFrames := 0, irc := some irc })
    let host : Bench.Host := { registers := [(0xB5, [0x00, 0xFF])], countdown := some 2 }
    let s := State.initial c ({ host } : Recorder Bench.Host) {} none none
    let t := (updateIrc c false).after s
    t.record.map (fun e => (e.message.tx, decide e.Taken)) = [(Gamma.unlock, true), ([0xB5], true),
        ([0xB5, 0x00, 0xF7], false), (Gamma.lock, true)] ∧
      ((updateIrc c true).after t).record.map (fun e => (e.message.tx, decide e.Taken)) =
        t.record.map (fun e => (e.message.tx, decide e.Taken)) ++ [(Gamma.unlock, true),
          ([0xB5, 0x00, 0xFF], true), (Gamma.lock, true)] ∧
      ∃ unlock put lock, ((updateIrc c true).after t).record = t.record ++ (unlock ++ put :: lock) ∧
        Puts irc true [0x00, 0xFF] put := by
  intro irc c host s t
  obtain ⟨unlock, ask, put, lock, hrecord, hunlock, -, htoggles, hlater⟩ :=
    compensation_toggles_one_bit c (show c.irc? = some irc from rfl) s false
  have hone : ∃ e, unlock = [e] := by
    cases hunlock with
    | fail m ms reason => exact ⟨_, rfl⟩
    | next rx h =>
      cases h
      exact ⟨_, rfl⟩
  obtain ⟨e, rfl⟩ := hone
  have hreply : (t.record.tail.map fun e => e.reply.toOption).head? = some (some [0x00, 0xFF]) := by
    decide +kernel
  rw [show t.record = _ from hrecord] at hreply
  have hask : ask = [⟨question irc.address irc.size, .ok [0x00, 0xFF]⟩] := by
    have hnone : s.hbm.ircBytes = none := rfl
    rw [hnone] at htoggles
    generalize ((updateIrc c false).answer s).isOk = ok at htoggles
    generalize ((updateIrc c false).after s).hbm.ircBytes = kept at htoggles
    cases htoggles with
    | @asked rx =>
      obtain rfl : rx = [0x00, 0xFF] := Option.some.inj (Option.some.inj hreply)
      rfl
    | @unanswered reply hr =>
      cases reply with
      | error reason => cases Option.some.inj hreply
      | ok rx =>
        obtain rfl : rx = [0x00, 0xFF] := Option.some.inj (Option.some.inj hreply)
        exact absurd (hr _ rfl) (by decide)
  obtain ⟨-, hcalls⟩ := hlater _ hask (by decide)
  obtain ⟨unlock, put, lock, hrecord, -, -, hput⟩ := hcalls t .refl true
  rw [show ([0x00, 0xFF] : List UInt8).take irc.size = [0x00, 0xFF] by decide] at hput
  exact ⟨by decide +kernel, by decide +kernel, unlock, put, lock, hrecord, hput⟩

end Panel
end OledPanel
