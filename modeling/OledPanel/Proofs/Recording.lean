import OledPanel.Proofs.Dimming

/-! A host that keeps a record of the messages it was handed and of what became of them. What
holds only while transfers go well is told of records: a relation is promised as long as no
exchange recorded up to the later state is bad. -/

namespace OledPanel

open OledPanel.Action (Given Within)

namespace Dsi

/-- A message and what became of it. -/
structure Exchange where
  message : Message
  reply : Except String (List UInt8)

/-- The host took the message. -/
def Exchange.Taken (e : Exchange) : Prop := ∃ rx, e.reply = .ok rx

instance (e : Exchange) : Decidable e.Taken :=
  match h : e.reply with
  | .ok rx => .isTrue ⟨rx, h⟩
  | .error reason => .isFalse fun ⟨rx, hrx⟩ => by
    rw [h] at hrx
    cases hrx

/-- A host with all that it was handed, the oldest first. -/
structure Recorder (σ : Type) where
  host : σ
  record : List Exchange := []

variable {σ : Type} [Transport σ]

instance : Transport (Recorder σ) where
  transfer m r :=
    ((Transport.transfer m r.host).1,
      { host := (Transport.transfer m r.host).2
        record := r.record ++ [⟨m, (Transport.transfer m r.host).1⟩] })

namespace Recorder

/-- What becomes of a message handed to the host now. -/
def reply (m : Message) (r : Recorder σ) : Except String (List UInt8) :=
  (Transport.transfer m r.host).1

theorem record_transfer (m : Message) (r : Recorder σ) :
    ((transfer m).after r).record = r.record ++ [⟨m, r.reply m⟩] := by
  rw [after_transfer]
  rfl

theorem answer_transfer {m : Message} {r : Recorder σ} {rx : List UInt8} (h : r.reply m = .ok rx) :
    (transfer m).answer r = .ok rx := Dsi.answer_transfer h

theorem answer_transfer_of_error {m : Message} {r : Recorder σ} {reason : String}
    (h : r.reply m = .error reason) :
    (transfer m).answer r = .error (.transfer m.cmd (.host reason)) := Dsi.answer_transfer_of_error h

/-- The writes of a command, the oldest first. -/
def writes (cmd : UInt8) (r : Recorder σ) : List Message :=
  (r.record.map (·.message)).filter fun m => !m.isRead && m.cmd = cmd

theorem writes_transfer (cmd : UInt8) (m : Message) (r : Recorder σ) :
    ((transfer m).after r).writes cmd =
      r.writes cmd ++ if !m.isRead && m.cmd = cmd then [m] else [] := by
  rw [writes, record_transfer, List.map_append, List.filter_append]
  simp only [List.map_cons, List.map_nil, List.filter_cons, List.filter_nil]
  rfl

/-- Questions and other commands are no writes of a command. -/
theorem writes_transfer_of_other {cmd : UInt8} {m : Message} (hm : m.isRead = true ∨ m.cmd ≠ cmd)
    (r : Recorder σ) : ((transfer m).after r).writes cmd = r.writes cmd := by
  rw [writes_transfer, if_neg, List.append_nil]
  obtain hm | hm := hm <;> simp [hm]

theorem writes_transfer_of_ne {cmd : UInt8} {m : Message} (hm : m.cmd ≠ cmd) (r : Recorder σ) :
    ((transfer m).after r).writes cmd = r.writes cmd := writes_transfer_of_other (.inr hm) r

theorem writes_of_sends {cmd : UInt8} {r q : Recorder σ}
    (h : Sends (fun m => m.isRead = true ∨ m.cmd ≠ cmd) r q) : q.writes cmd = r.writes cmd := by
  induction h with
  | refl => rfl
  | tail _ step ih =>
    obtain ⟨m, hm, rfl⟩ := step
    rw [writes_transfer_of_other hm, ih]

/-- What is handed to the host is recorded after what was. -/
theorem record_of_sends {P : Message → Prop} {r q : Recorder σ} (h : Sends P r q) :
    ∃ es, q.record = r.record ++ es ∧ ∀ e ∈ es, P e.message := by
  induction h with
  | refl => exact ⟨[], by simp, by simp⟩
  | @tail p q _ step ih =>
    obtain ⟨es, hes, hP⟩ := ih
    obtain ⟨m, hm, rfl⟩ := step
    refine ⟨es ++ [⟨m, p.reply m⟩], ?_, fun e he => ?_⟩
    · rw [record_transfer, hes, List.append_assoc]
    · obtain he | he := List.mem_append.mp he
      · exact hP e he
      · obtain rfl := List.mem_singleton.mp he
        exact hm

end Recorder
end Dsi

namespace Panel

open Dsi (Exchange Message Recorder Transport)

variable {σ α : Type}

/-- The relation between states with a property, as long as all that is recorded is good. -/
def Recorded (P : State (Recorder σ) → Prop) (good : Exchange → Prop)
    (R : State (Recorder σ) → State (Recorder σ) → Prop) :
    State (Recorder σ) → State (Recorder σ) → Prop :=
  Given P fun s t => s.host.record <+: t.host.record ∧ ((∀ e ∈ t.host.record, good e) → R s t)

variable {P : State (Recorder σ) → Prop} {good : Exchange → Prop}
  {R : State (Recorder σ) → State (Recorder σ) → Prop}

theorem recorded_mono {Q : State (Recorder σ) → State (Recorder σ) → Prop} {s t : State (Recorder σ)}
    (h : Recorded P good R s t) (hRQ : R s t → Q s t) : Recorded P good Q s t := by
  intro p
  obtain ⟨q, hst, hR⟩ := h p
  exact ⟨q, hst, fun hgood => hRQ (hR hgood)⟩

/-- Relations that hold one after the other, as long as all that is recorded is good. -/
theorem recorded_comp {Q X : State (Recorder σ) → State (Recorder σ) → Prop}
    {s t u : State (Recorder σ)} (hst : Recorded P good R s t) (htu : Recorded P good Q t u)
    (hX : R s t → Q t u → X s u) : Recorded P good X s u := by
  intro p
  obtain ⟨q, hst, hR⟩ := hst p
  obtain ⟨r, htu, hQ⟩ := htu q
  exact ⟨r, hst.trans htu, fun hgood => hX (hR fun e he => hgood e (htu.subset he)) (hQ hgood)⟩

instance [IsPreorder (State (Recorder σ)) R] : IsPreorder (State (Recorder σ)) (Recorded P good R) where
  refl s p := ⟨p, List.prefix_refl _, fun _ => refl s⟩
  trans _ _ _ hst htu := recorded_comp hst htu (IsTrans.trans _ _ _)

/-- What does not concern the host adds nothing to the record. -/
theorem recorded_of_eq {s t : State (Recorder σ)} (hh : t.host = s.host) (hP : P s → P t)
    (hR : P s → R s t) : Recorded P good R s t := by
  intro p
  exact ⟨hP p, hh ▸ List.prefix_refl _, fun _ => hR p⟩

variable [Transport σ]

/-- One message more is recorded, and it is good if the record stays good. -/
theorem recorded_of_transfer {s t : State (Recorder σ)} {m : Message}
    (hh : t.host = (Dsi.transfer m).after s.host) (hP : P s → P t)
    (hR : P s → good ⟨m, s.host.reply m⟩ → R s t) : Recorded P good R s t := by
  intro p
  have hrecord : t.host.record = s.host.record ++ [⟨m, s.host.reply m⟩] := by
    rw [hh, Recorder.record_transfer]
  refine ⟨hP p, ?_, fun hgood => hR p (hgood _ ?_)⟩
  · simp only [hrecord, List.prefix_append]
  · simp [hrecord]

end Panel
end OledPanel
