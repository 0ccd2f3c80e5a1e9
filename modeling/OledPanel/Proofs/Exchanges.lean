import OledPanel.Proofs.RangeEntry

/-! What an action exchanges with its host. Whatever becomes of an action, the record grows by the
messages it hands over and by what they meet, and an action made of parts adds what its parts add,
one after the other, up to the first part that fails. -/

namespace OledPanel

open Dsi (Attempt Exchange Message Recorder Transport)

namespace Dsi

/-- The message is the plain write of these bytes. -/
def Exchange.Writes (tx : List UInt8) (last : Bool) (e : Exchange) : Prop :=
  plain? tx last = some e.message

instance (tx : List UInt8) (last : Bool) (e : Exchange) : Decidable (e.Writes tx last) :=
  inferInstanceAs (Decidable (_ = _))

theorem Exchange.Writes.tx {tx : List UInt8} {last : Bool} {e : Exchange} (h : e.Writes tx last) :
    e.message.tx = tx := (plain?_eq h).1

theorem Exchange.Writes.isRead {tx : List UInt8} {last : Bool} {e : Exchange}
    (h : e.Writes tx last) : e.message.isRead = false := (plain?_eq h).2

theorem Exchange.Writes.cmd {cmd : UInt8} {params : List UInt8} {last : Bool} {e : Exchange}
    (h : e.Writes (cmd :: params) last) : e.message.cmd = cmd := by
  rw [Message.cmd, h.tx, List.headD_cons]

end Dsi

namespace Action

variable {S α β : Type} {record : S → List Exchange} {s : S} {x : Action S α}
  {Q : List Exchange → Except Error α → Prop}

/-- What is added to the record from a state on has a property together with the answer. -/
def Exchanges (record : S → List Exchange) (x : Action S α) (s : S)
    (Q : List Exchange → Except Error α → Prop) : Prop :=
  ∃ es, record (x.after s) = record s ++ es ∧ Q es (x.answer s)

theorem exchanges_pure {a : α} (h : Q [] (.ok a)) : Exchanges record (pure a) s Q :=
  ⟨[], (List.append_nil _).symm, h⟩

theorem exchanges_throw {e : Error} (h : Q [] (.error e)) : Exchanges record (throw e) s Q :=
  ⟨[], (List.append_nil _).symm, h⟩

theorem Exchanges.mono {R : List Exchange → Except Error α → Prop} (hx : Exchanges record x s Q)
    (h : ∀ es r, Q es r → R es r) : Exchanges record x s R := by
  obtain ⟨es, hes, hQ⟩ := hx
  exact ⟨es, hes, h es _ hQ⟩

theorem Exchanges.with_answer (hx : Exchanges record x s Q) :
    Exchanges record x s fun es r => Q es r ∧ x.answer s = r := by
  obtain ⟨es, hes, hQ⟩ := hx
  exact ⟨es, hes, hQ, rfl⟩

theorem Exchanges.congr {y : Action S α} (hx : Exchanges record x s Q) (h : y s = x s) :
    Exchanges record y s Q := by
  obtain ⟨es, hes, hQ⟩ := hx
  refine ⟨es, ?_, ?_⟩
  · rw [after, h, ← after, hes]
  · rwa [answer, h, ← answer]

/-- What follows an answer adds to what came before. -/
theorem Exchanges.bind {f : α → Action S β} {R : List Exchange → Except Error β → Prop}
    (hx : Exchanges record x s Q)
    (hf : ∀ es a, Q es (.ok a) → Exchanges record (f a) (x.after s) fun fs r => R (es ++ fs) r)
    (he : ∀ es e, Q es (.error e) → R es (.error e)) : Exchanges record (x >>= f) s R := by
  obtain ⟨es, hes, hQ⟩ := hx
  rw [Exchanges, after_bind, answer_bind]
  cases hr : x.answer s with
  | ok a =>
    rw [hr] at hQ
    obtain ⟨fs, hfs, hR⟩ := hf es a hQ
    exact ⟨es ++ fs, by rw [← List.append_assoc, ← hes, ← hfs], hR⟩
  | error e =>
    rw [hr] at hQ
    exact ⟨es, hes, he es e hQ⟩

/-- An action that does not fail goes on. -/
theorem Exchanges.bind_of_succeeds {f : α → Action S β} {R : List Exchange → Except Error β → Prop}
    (hx : Exchanges record x s Q) (hs : Succeeds x)
    (hf : ∀ es a, Q es (.ok a) → Exchanges record (f a) (x.after s) fun fs r => R (es ++ fs) r) :
    Exchanges record (x >>= f) s R := by
  obtain ⟨a, ha⟩ := hs s
  refine hx.with_answer.bind (fun es b h => hf es b h.1) fun es e h => ?_
  cases ha.symm.trans h.2

/-- An action whose outcome is looked at goes on in any case. -/
theorem Exchanges.outcome_bind {f : Except Error α → Action S β}
    {R : List Exchange → Except Error β → Prop} (hx : Exchanges record x s Q)
    (hf : ∀ es r, Q es r → Exchanges record (f r) (x.after s) fun fs q => R (es ++ fs) q) :
    Exchanges record (x.outcome >>= f) s R := by
  have houtcome : Exchanges record x.outcome s fun es r => ∃ a, r = .ok a ∧ Q es a := by
    obtain ⟨es, hes, hQ⟩ := hx
    exact ⟨es, by rw [after_outcome, hes], _, answer_outcome x s, hQ⟩
  refine houtcome.bind ?_ ?_
  · rintro es r ⟨_, ⟨⟩, hQ⟩
    rw [after_outcome]
    exact hf es r hQ
  · rintro es e ⟨_, ⟨⟩, -⟩

/-- An action whose failure is passed over. -/
theorem Exchanges.attempt_bind {f : Unit → Action S β} {R : List Exchange → Except Error β → Prop}
    (hx : Exchanges record x s Q)
    (hf : ∀ es r, Q es r → Exchanges record (f ()) (x.after s) fun fs q => R (es ++ fs) q) :
    Exchanges record (x.attempt >>= f) s R := by
  obtain ⟨es, hes, hQ⟩ := hx
  obtain ⟨fs, hfs, hR⟩ := hf es _ hQ
  exact ⟨es ++ fs, by rw [after_attempt_bind, hfs, hes, List.append_assoc], hR⟩

theorem Exchanges.attempt {R : List Exchange → Except Error Unit → Prop}
    (hx : Exchanges record x s Q) (h : ∀ es r, Q es r → R es (.ok ())) :
    Exchanges record x.attempt s R := by
  obtain ⟨es, hes, hQ⟩ := hx
  exact ⟨es, hes, h es _ hQ⟩

theorem exchanges_get_bind {f : S → Action S α} (hf : Exchanges record (f s) s Q) :
    Exchanges record (get >>= f) s Q := hf

theorem exchanges_modify_bind {g : S → S} {f : PUnit → Action S α} (hg : record (g s) = record s)
    (hf : Exchanges record (f ⟨⟩) (g s) Q) : Exchanges record (modify g >>= f) s Q := by
  obtain ⟨es, hes, hQ⟩ := hf
  exact ⟨es, by rw [after_modify_bind, hes, hg], hQ⟩

theorem exchanges_ofExcept {r : Except Error α} (h : Q [] r) :
    Exchanges record (ofExcept r) s Q :=
  ⟨[], by rw [after_ofExcept, List.append_nil], by rwa [answer_ofExcept]⟩

/-! ### Properties of parts put together -/

/-- What parts have that went well, the last of them perhaps not, the whole has. -/
structure Chained (Q : List Exchange → Bool → Prop) : Prop where
  nil : Q [] true
  append : ∀ {es fs b}, Q es true → Q fs b → Q (es ++ fs) b

/-- From any state on, what is exchanged has the property, together with whether all went well. -/
def Obeys (record : S → List Exchange) (Q : List Exchange → Bool → Prop) (x : Action S α) : Prop :=
  ∀ s, Exchanges record x s fun es r => Q es r.isOk

variable {Q : List Exchange → Bool → Prop}

theorem Obeys.pure (hQ : Chained Q) (a : α) : Obeys record Q (Pure.pure a : Action S α) :=
  fun _ => exchanges_pure hQ.nil

theorem Obeys.bind (hQ : Chained Q) {f : α → Action S β} (hx : Obeys record Q x)
    (hf : ∀ a, Obeys record Q (f a)) : Obeys record Q (x >>= f) := by
  intro s
  refine (hx s).bind (fun es a hes => ?_) fun es e hes => hes
  exact (hf a (x.after s)).mono fun fs r hfs => hQ.append hes hfs

end Action

/-! ### Messages -/

namespace Dsi

open OledPanel.Action (Exchanges)

variable {σ α : Type} [Transport σ]

/-- A message is exchanged for its reply, which is the answer. -/
theorem exchanges_transfer (m : Message) (r : Recorder σ) :
    Exchanges Recorder.record (transfer m) r fun es a => ∃ e : Exchange, es = [e] ∧ e.message = m ∧
      a = e.reply.mapError fun reason => .transfer m.cmd (.host reason) := by
  refine ⟨[⟨m, r.reply m⟩], Recorder.record_transfer m r, _, rfl, rfl, ?_⟩
  cases hr : r.reply m with
  | ok rx => exact Recorder.answer_transfer hr
  | error reason => exact Recorder.answer_transfer_of_error hr

/-- A plain write goes well if the host takes it. -/
theorem exchanges_writeBuffer (cmd : UInt8) (params : List UInt8) (last : Bool) (r : Recorder σ) :
    Exchanges Recorder.record (writeBuffer (cmd :: params) last) r fun es a =>
      ∃ e : Exchange, es = [e] ∧ e.Writes (cmd :: params) last ∧ (a.isOk = true ↔ e.Taken) := by
  obtain ⟨m, hm⟩ := plain?_cons cmd params last
  obtain ⟨_, hes, e, rfl, rfl, ha⟩ := exchanges_transfer m r
  rw [writeBuffer_eq hm]
  refine ⟨[e], by rw [Action.after_discard, hes], e, rfl, hm, ?_⟩
  rw [Action.answer_discard, ha, Exchange.Taken]
  cases e.reply <;> simp [Except.mapError, Except.map, Except.isOk, Except.toBool]

/-- A question is exchanged for its reply; it goes well if the host replies at all. -/
theorem exchanges_read (cmd : UInt8) {n : Nat} (hn : n ≠ 0) (r : Recorder σ) :
    Exchanges Recorder.record (read cmd n) r fun es a => ∃ e : Exchange, es = [e] ∧
      e.message = question cmd n ∧
      a = (e.reply.map (·.take n)).mapError fun reason => .transfer cmd (.host reason) := by
  rw [read_eq cmd hn]
  refine (exchanges_transfer (question cmd n) r).bind ?_ ?_
  · rintro _ rx ⟨e, rfl, he, ha⟩
    refine Action.exchanges_pure ⟨e, rfl, he, ?_⟩
    cases hr : e.reply with
    | ok bytes =>
      rw [hr] at ha
      obtain rfl := Except.ok.inj ha
      rfl
    | error reason =>
      rw [hr] at ha
      cases ha
  · rintro _ f ⟨e, rfl, he, ha⟩
    refine ⟨e, rfl, he, ?_⟩
    cases hr : e.reply with
    | ok bytes =>
      rw [hr] at ha
      cases ha
    | error reason =>
      rw [hr] at ha
      obtain rfl := Except.error.inj ha
      rfl

/-- A set is sent up to its first message that fails. -/
theorem CommandSet.exchanges_send (set : CommandSet) (r : Recorder σ) :
    Exchanges Recorder.record (set.send : Action (Recorder σ) Unit) r fun es _ =>
      Attempt set.messages es := attempt_sendAll set.messages r

end Dsi

namespace Panel

open OledPanel.Action (Exchanges Obeys)

variable {σ α : Type}

/-- What was exchanged with the host of a panel. -/
abbrev State.record (s : State (Recorder σ)) : List Exchange := s.host.record

theorem exchanges_onHost {x : Action (Recorder σ) α} {s : State (Recorder σ)}
    {Q : List Exchange → Except Error α → Prop} (hx : Exchanges Recorder.record x s.host Q) :
    Exchanges State.record (onHost x) s Q := by
  obtain ⟨es, hes, hQ⟩ := hx
  exact ⟨es, by rw [after_onHost, State.record, hes], by rwa [answer_onHost]⟩

theorem exchanges_write [Transport σ] (cmd : UInt8) (params : List UInt8) (last : Bool)
    (s : State (Recorder σ)) :
    Exchanges State.record (onHost (Dsi.writeBuffer (cmd :: params) last)) s fun es a =>
      ∃ e : Exchange, es = [e] ∧ e.Writes (cmd :: params) last ∧ (a.isOk = true ↔ e.Taken) :=
  exchanges_onHost (Dsi.exchanges_writeBuffer cmd params last s.host)

theorem obeys_onHost {Q : List Exchange → Bool → Prop} {x : Action (Recorder σ) α}
    (hx : Obeys Recorder.record Q x) : Obeys State.record Q (onHost x) :=
  fun s => exchanges_onHost (hx s.host)

end Panel
end OledPanel
