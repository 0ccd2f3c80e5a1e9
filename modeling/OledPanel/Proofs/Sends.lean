import Mathlib.Logic.Relation
import OledPanel.Backlight.Level
import OledPanel.Hbm.Irc
import OledPanel.Panel.State
import OledPanel.Proofs.Within

/-! What actions on a host send. A host reaches another by handing it messages one after the
other; an action sends messages with a property if it leads to hosts reached by such messages
alone, whatever they answer and whether they fail. -/

namespace OledPanel

open OledPanel.Action (Within)

namespace Dsi

variable {σ α : Type} [Transport σ] {P : Message → Prop}

theorem after_transfer (m : Message) (h : σ) : (transfer m).after h = (Transport.transfer m h).2 := by
  simp only [transfer, Action.after]
  rcases Transport.transfer m h with ⟨_ | _, g⟩ <;> rfl

/-- The answer to a message that does not fail is what the host replies. -/
theorem answer_transfer {m : Message} {h : σ} {rx : List UInt8}
    (hr : (Transport.transfer m h).1 = .ok rx) : (transfer m).answer h = .ok rx := by
  simp only [transfer, Action.answer]
  rcases ht : Transport.transfer m h with ⟨_ | _, g⟩ <;> simp_all

theorem answer_transfer_of_error {m : Message} {h : σ} {reason : String}
    (hr : (Transport.transfer m h).1 = .error reason) :
    (transfer m).answer h = .error (.transfer m.cmd (.host reason)) := by
  simp only [transfer, Action.answer]
  rcases ht : Transport.transfer m h with ⟨_ | _, g⟩ <;> simp_all

/-- The hosts reached by messages that have a property. -/
def Sends (P : Message → Prop) : σ → σ → Prop :=
  Relation.ReflTransGen fun h g => ∃ m, P m ∧ g = (transfer m).after h

instance : IsPreorder σ (Sends P) := inferInstanceAs (IsPreorder σ (Relation.ReflTransGen _))

theorem Sends.mono {Q : Message → Prop} {h g : σ} (hs : Sends P h g) (hPQ : ∀ m, P m → Q m) :
    Sends Q h g := by
  refine Relation.ReflTransGen.mono (fun _ _ => ?_) _ _ hs
  rintro ⟨m, hm, he⟩
  exact ⟨m, hPQ m hm, he⟩

theorem within_transfer (m : Message) (hm : P m) :
    Within (Sends P) (transfer m : Action σ (List UInt8)) := fun _ => .single ⟨m, hm, rfl⟩

/-- The message of a plain write, if there is anything to write. -/
def plain? (tx : List UInt8) (last : Bool) : Option Message :=
  (PacketType.ofLength? tx.length).map fun type => { type, tx, last }

theorem plain?_eq {tx : List UInt8} {last : Bool} {m : Message} (hm : m ∈ plain? tx last) :
    m.tx = tx ∧ m.isRead = false := by
  obtain ⟨type, ht, rfl⟩ := Option.map_eq_some_iff.mp hm
  refine ⟨rfl, ?_⟩
  cases h : tx.length with
  | zero => simp [h, PacketType.ofLength?] at ht
  | succ n =>
    rw [h] at ht
    match n, ht with
    | 0, rfl | 1, rfl | n + 2, rfl => rfl

/-- With a command there is always something to write. -/
theorem plain?_cons (cmd : UInt8) (params : List UInt8) (last : Bool) :
    ∃ m, plain? (cmd :: params) last = some m := by
  rw [plain?, List.length_cons]
  rcases params.length with _ | _ | n <;> exact ⟨_, rfl⟩

/-- A plain write sends its message. -/
theorem writeBuffer_eq {tx : List UInt8} {last : Bool} {m : Message} (hm : plain? tx last = some m) :
    (writeBuffer tx last : Action σ Unit) = discard (transfer m) := by
  obtain ⟨type, ht, rfl⟩ := Option.map_eq_some_iff.mp hm
  rw [writeBuffer, PacketType.ofLength, ht]
  rfl

theorem within_writeBuffer (tx : List UInt8) (last : Bool) (h : ∀ m ∈ plain? tx last, P m) :
    Within (Sends P) (writeBuffer tx last : Action σ Unit) := by
  refine (Within.ofExcept _).bind_of_answer fun s type ht => ?_
  refine (within_transfer _ (h _ ?_)).discard _
  rw [Action.answer_ofExcept, PacketType.ofLength] at ht
  unfold plain?
  split at ht <;> simp_all

theorem within_write (cmd : UInt8) (params : List UInt8) (h : ∀ m ∈ plain? (cmd :: params) true, P m) :
    Within (Sends P) (write cmd params : Action σ Unit) := within_writeBuffer _ _ h

/-- The message that asks a register for a number of bytes. -/
def question (cmd : UInt8) (n : Nat) : Message :=
  { type := .read, tx := [cmd], rxLength := n, last := true }

theorem read_eq (cmd : UInt8) {n : Nat} (hn : n ≠ 0) : (read cmd n : Action σ (List UInt8)) =
    transfer (question cmd n) >>= fun rx => pure (rx.take n) := by
  rw [read, if_neg hn]
  rfl

theorem within_read (cmd : UInt8) (n : Nat) (h : P (question cmd n)) :
    Within (Sends P) (read cmd n : Action σ (List UInt8)) := by
  refine Within.ite (fun _ => Within.throw _) fun _ => ?_
  exact (within_transfer _ h).bind fun rx => Within.pure _

namespace CommandSet

theorem within_sendAll (ms : List Message) (h : ∀ m ∈ ms, P m) :
    Within (Sends P) (sendAll ms : Action σ Unit) := by
  induction ms with
  | nil => exact Within.pure _
  | cons m ms ih =>
    have hm : P m := h m (by simp)
    exact (within_transfer m hm).discard.bind fun _ => ih fun k hk => h k (by simp [hk])

theorem within_send (set : CommandSet) (h : ∀ m ∈ set.messages, P m) :
    Within (Sends P) (set.send : Action σ Unit) := within_sendAll _ h

end CommandSet
end Dsi

section

variable {σ : Type} [Dsi.Transport σ] {P : Dsi.Message → Prop}

theorem Backlight.Config.within_handoff (c : Config) (h : P (Dsi.question Dsi.getBrightness 2)) :
    Within (Dsi.Sends P) (c.handoff : Action σ UInt32) := by
  refine (Dsi.within_read _ _ h).bind fun rx => ?_
  split
  · exact Within.ofExcept _
  · exact Within.throw _

theorem Hbm.Irc.within_fetch (i : Irc) (h : P (Dsi.question i.address i.size)) :
    Within (Dsi.Sends P) (i.fetch : Action σ (List UInt8)) := by
  refine (Dsi.within_read _ _ h).bind fun rx => ?_
  exact Within.ite (fun _ => Within.pure _) fun _ => Within.throw _

end

namespace Panel

open Dsi

variable {σ α : Type}

@[simp] theorem after_onHost (x : Action σ α) (s : State σ) :
    (onHost x).after s = { s with host := x.after s.host } := Action.after_within ..

@[simp] theorem answer_onHost (x : Action σ α) (s : State σ) :
    (onHost x).answer s = x.answer s.host := Action.answer_within ..

variable [Transport σ] {R : State σ → State σ → Prop} [IsPreorder (State σ) R]

/-- A host reached from that of a state by messages that stay within a relation is within it. -/
theorem related_of_sends {P : Message → Prop} (s : State σ) {g : σ} (hs : Sends P s.host g)
    (h : ∀ h m, P m → R { s with host := h } { s with host := (transfer m).after h }) :
    R s { s with host := g } := by
  induction hs with
  | refl => exact refl s
  | tail _ step ih =>
    obtain ⟨m, hm, rfl⟩ := step
    exact IsTrans.trans _ _ _ ih (h _ m hm)

end Panel
end OledPanel
