import OledPanel.Proofs.BinChoice
import OledPanel.Proofs.BinOrder
import OledPanel.Proofs.Exchanges
import OledPanel.Proofs.LevelBytes
import OledPanel.Proofs.ScaledLevels

/-! Entering bins. An update that reaches a panel with bins hands over the commands of a bin if the
panel is in low power and the bin that serves the brightness is another than the one in force, and
behind them those of the edge that goes with the bin. While the bin in force serves, nothing is handed
over; where no bin does, a level at most. -/

namespace OledPanel.Panel

open OledPanel.Action (Exchanges)
open Dsi (Exchange Message Recorder Transport)
open LowPower (Bin)

variable {σ : Type} [Transport σ] {c : Config}

/-! ### Messages -/

/-- The messages of the edge that goes with a bin, on a panel that has edges. -/
def edgeMessages (c : Config) (bin : Bin) : List Message :=
  match c.edges with
  | none => []
  | some e => (if e.threshold < bin.threshold then e.high else e.low).messages

/-- The messages that bring a panel into a bin. -/
def binMessages (c : Config) (bin : Bin) : List Message := bin.enter.messages ++ edgeMessages c bin

/-- What is exchanged are these messages, as long as none fails. -/
def SentInFull (ms : List Message) (es : List Exchange) : Prop :=
  (∀ e ∈ es, e.Taken) → es.map (·.message) = ms

omit [Transport σ] in
theorem SentInFull.append {ms ns : List Message} {es fs : List Exchange} (h : SentInFull ms es)
    (k : SentInFull ns fs) : SentInFull (ms ++ ns) (es ++ fs) := fun ht => by
  rw [List.map_append, h fun e he => ht e (List.mem_append_left _ he),
    k fun e he => ht e (List.mem_append_right _ he)]

theorem sent_send (set : Dsi.CommandSet) (s : State (Recorder σ)) :
    Exchanges State.record (onHost set.send) s fun es _ => SentInFull set.messages es :=
  (exchanges_onHost (set.exchanges_send s.host)).mono fun _ _ h => h.eq_of_taken

theorem sent_writeEdge (bin : Bin) (s : State (Recorder σ)) :
    Exchanges State.record (writeEdge c bin) s fun es _ => SentInFull (edgeMessages c bin) es := by
  unfold writeEdge edgeMessages
  cases c.edges with
  | none => exact Action.exchanges_throw fun _ => rfl
  | some e =>
    have hcommands : e.commands bin = if e.threshold < bin.threshold then e.high else e.low := by
      rw [LowPower.Edges.commands, LowPower.Edges.edge]
      by_cases h : e.threshold < bin.threshold <;> simp [h]
    refine Action.exchanges_modify_bind rfl ?_
    dsimp only
    rw [← hcommands]
    exact sent_send _ _

theorem sent_enterBin {bins : List Bin} {i : Nat} {bin : Bin} (hbin : bins[i]? = some bin)
    (s : State (Recorder σ)) :
    Exchanges State.record (enterBin c bins i) s fun es _ => SentInFull (binMessages c bin) es := by
  unfold enterBin
  rw [hbin]
  refine (sent_send bin.enter s).attempt_bind fun es _ hes => ?_
  exact (sent_writeEdge bin _).attempt fun fs _ hfs => hes.append hfs

/-- A level that is written is one message, unless it is shown or too wide. -/
theorem exchanges_writeLevel (level : UInt32) (s : State (Recorder σ)) :
    Exchanges State.record (writeLevel c level) s fun es _ =>
      es = [] ∨ ∃ l, es.map (·.message) = [c.backlight.levelMessage l] := by
  refine Action.exchanges_get_bind (exchanges_onHost ?_)
  obtain habove | hmax := UInt32.lt_or_le 0xFFFF level
  · rw [Backlight.Config.writeLevel_of_above habove]
    exact Action.exchanges_throw (.inl rfl)
  · by_cases hs : s.backlight.level = some level
    · rw [hs, Backlight.Config.writeLevel_of_shown hmax]
      exact Action.exchanges_pure (.inl rfl)
    · exact ⟨_, (Backlight.Config.sent_of_other hmax hs s.host).1, .inr ⟨level, rfl⟩⟩

/-! ### Updates -/

/-- What an update hands over to a panel with bins, by the state it finds. -/
structure Shifts (c : Config) (bins : List Bin) (b : Backlight.State) (es : List Exchange) : Prop where
  /-- In low power the bin of the brightness is entered if it is not the one in force. -/
  bin : ∀ i bin, b.bits.isLowPower = true → Bin.select? bins b.brightness = some i →
    bins[i]? = some bin → SentInFull (if b.bin = some i then [] else binMessages c bin) es
  /-- Without a bin to enter no commands of bins are sent. -/
  level : ¬(b.bits.isLowPower = true ∧ (Bin.select? bins b.brightness).isSome = true) →
    es = [] ∨ ∃ l, es.map (·.message) = [c.backlight.levelMessage l]

omit [Transport σ] in
theorem binOf_eq_some {bins : List Bin} {b : Backlight.State} {i : Nat} :
    binOf bins b = some i ↔ b.bits.isLowPower = true ∧ Bin.select? bins b.brightness = some i := by
  rw [binOf]
  cases b.bits.isLowPower <;> simp

omit [Transport σ] in
theorem shifts_of_bin {bins : List Bin} {b : Backlight.State} {i : Nat} {bin : Bin}
    {es : List Exchange} (hi : binOf bins b = some i) (hbin : bins[i]? = some bin)
    (h : SentInFull (if b.bin = some i then [] else binMessages c bin) es) : Shifts c bins b es := by
  obtain ⟨hlow, hselect⟩ := binOf_eq_some.mp hi
  refine ⟨fun j other _ hj hother => ?_, fun hnone => absurd ⟨hlow, by simp [hselect]⟩ hnone⟩
  obtain rfl := Option.some.inj (hselect.symm.trans hj)
  obtain rfl := Option.some.inj (hbin.symm.trans hother)
  exact h

omit [Transport σ] in
theorem shifts_of_level {bins : List Bin} {b : Backlight.State} {es : List Exchange}
    (hb : binOf bins b = none)
    (h : es = [] ∨ ∃ l, es.map (·.message) = [c.backlight.levelMessage l]) : Shifts c bins b es := by
  refine ⟨fun i bin hlow hi _ => ?_, fun _ => h⟩
  rw [binOf_eq_some.mpr ⟨hlow, hi⟩] at hb
  cases hb

theorem shifts_writeBin (bins : List Bin) (level : UInt32) (s : State (Recorder σ)) :
    Exchanges State.record (writeBin c bins level) s fun es _ => Shifts c bins s.backlight es := by
  refine Action.exchanges_get_bind ?_
  dsimp only
  refine Action.exchanges_modify_bind rfl ?_
  cases hb : binOf bins s.backlight with
  | some i =>
    obtain ⟨bin, hbin⟩ : ∃ bin, bins[i]? = some bin :=
      ⟨_, List.getElem?_eq_getElem (lt_of_binOf hb)⟩
    dsimp only
    split
    · next hne =>
      refine (sent_enterBin hbin _).mono fun es _ hes => shifts_of_bin hb hbin ?_
      rwa [if_neg (Ne.symm hne)]
    · next heq =>
      refine Action.exchanges_pure (shifts_of_bin hb hbin fun _ => ?_)
      rw [if_pos (by simpa using Eq.symm (not_not.mp heq))]
      rfl
  | none =>
    dsimp only
    split
    · refine Action.exchanges_modify_bind rfl ?_
      exact (exchanges_writeLevel level _).mono fun es _ hes => shifts_of_level hb hes
    · exact (exchanges_writeLevel level _).mono fun es _ hes => shifts_of_level hb hes

theorem shifts_commit {bins : List Bin} (ha : c.actuator = .bins bins) (b level : UInt32)
    {s : State (Recorder σ)} (hs : s.Live) :
    ∃ es, ((commit c b level).after s).record = s.record ++ es ∧ Shifts c bins s.backlight es := by
  obtain ⟨m, hrestart⟩ := restartDimming_frame s
  have hrecord : ((commit c b level).after s).record =
      ((actuate c level).after (restartDimming s)).record := by
    obtain ⟨e, -, h⟩ | ⟨-, d, a, h⟩ := commit_cases (c := c) hs b level
    · rw [h]
    · rw [h]
      rfl
  obtain ⟨es, hes, hshifts⟩ := shifts_writeBin (c := c) bins level (restartDimming s)
  rw [hrestart] at hes hshifts
  refine ⟨es, ?_, hshifts⟩
  rw [hrecord, actuate, ha, hrestart]
  exact hes

/-- An update that reaches the panel first finds its level and then brings it out by bins. -/
theorem shifts_update {bins : List Bin} (ha : c.actuator = .bins bins) {s : State (Recorder σ)}
    (hs : Actuates c s) :
    ∃ es, ((update c).after s).record =
      ((levelOf c s.backlight.wanted).after s).record ++ es ∧ Shifts c bins s.backlight es := by
  obtain ⟨hlive, level, hlevel, hshown⟩ := hs
  have hfound := enters_levelOf (c := c) s.backlight.wanted s
  obtain ⟨es, hes, hshifts⟩ :=
    shifts_commit ha s.backlight.wanted level (hfound.keeps.live.mpr hlive)
  obtain ⟨d, -, -, -, h⟩ := update_frame (c := c) s
  rw [hfound.backlight] at hshifts
  refine ⟨es, ?_, hshifts⟩
  rw [h, updateLevel_of_found hlevel, if_neg (by simp [hshown])]
  exact hes

/-- The bins of a description are sorted and chosen by their thresholds, whatever the order of different
thresholds there. An update that reaches the panel enters the bin that is chosen in low power if it is
not the one in force, and sends the commands of a bin at no other time. -/
theorem bins_in_order_and_entered_on_change {n : Node} {bins : List Bin}
    (hn : Bin.allOf n = .ok (some bins)) :
    (∃ modes declared, n.child? Bin.nodeName = some modes ∧
      modes.children.mapM Bin.ofNode = .ok declared ∧ Bin.Thresholds modes.children declared ∧
      Bin.Sorted declared bins ∧ Bin.Chooses declared bins ∧
      ∀ n' modes', n'.child? Bin.nodeName = some modes' → modes'.children.Perm modes.children →
        (declared.map (·.threshold)).Nodup → Bin.allOf n' = .ok (some bins)) ∧
    ∀ (c : Config) (s : State (Recorder σ)), c.actuator = .bins bins → Actuates c s →
      ((update c).after s).backlight.bin = binOf bins s.backlight ∧
      ∃ es, ((update c).after s).record = ((levelOf c s.backlight.wanted).after s).record ++ es ∧
        Shifts c bins s.backlight es := by
  refine ⟨?_, fun c s ha hs => ⟨bin_update ha hs, shifts_update ha hs⟩⟩
  obtain ⟨modes, declared, hchild, hne, hle, hread, hsort⟩ := Bin.allOf_eq_some.mp hn
  have hsorted : Bin.Sorted declared bins := hsort ▸ Bin.sorted_sort declared
  exact ⟨modes, declared, hchild, hread, Bin.thresholds_of_mapM hread, hsorted, hsorted.chooses,
    fun n' modes' hchild' hperm hnodup => Bin.allOf_of_perm hn hchild hchild' hperm hread hnodup⟩

/-- The two bins described the other way round, on a panel with edges. Asked for a brightness of the
brighter one in low power, it enters that and takes the high edge. -/
theorem bins_in_order_and_entered_on_change_of_two :
    let modes : Node := { binsNode with children := binsNode.children.reverse }
    let edges : LowPower.Edges := ⟨40, { commands := [⟨.shortWriteParam, true, 0, [0xE2, 0x02]⟩] },
      { commands := [⟨.shortWriteParam, true, 0, [0xE2, 0x01]⟩] }⟩
    let c : Config := { Bench.plain none with actuator := .bins twoBins, edges := some edges }
    let r := run c (State.initial c ({ host := {} } : Recorder Bench.Host) {} none none)
      [.request .enable, .request (.setBrightness 20), .request .enterLp1]
    let s := { r with backlight.brightness := 50 }
    Bin.allOf { twoBinsNode with children := [modes] } = .ok (some twoBins) ∧
      Actuates c s ∧ s.backlight.bin = some 0 ∧ ∃ es, ((update c).after s).record = s.record ++ es ∧
        (es.map (·.message)).map (·.tx) = [[0xE1, 0x02], [0xE2, 0x02]] := by
  intro modes edges c r s
  obtain ⟨⟨_, declared, hchild, hread, -, -, -, hperm⟩, hupdate⟩ :=
    bins_in_order_and_entered_on_change (σ := Bench.Host) allOf_twoBinsNode
  obtain rfl : binsNode = _ := Option.some.inj ((by rfl : twoBinsNode.child? _ = _).symm.trans hchild)
  obtain rfl : twoBins = declared := by
    have htwo : binsNode.children.mapM Bin.ofNode = .ok twoBins := by with_unfolding_all rfl
    exact Except.ok.inj (htwo.symm.trans hread)
  have hs : Actuates c s :=
    ⟨⟨by decide +kernel, by decide +kernel⟩, 50, by decide +kernel, by decide +kernel⟩
  have hbin : s.backlight.bin = some 0 := by decide +kernel
  obtain ⟨-, es, hes, hshifts⟩ := hupdate c s rfl hs
  have hfound : (levelOf c s.backlight.wanted).after s = s :=
    (levelOf_of_off (by decide +kernel) s.backlight.wanted).2
  rw [hfound] at hes
  have htaken : ∀ e ∈ es, e.Taken := by
    have hall : ∀ e ∈ ((update c).after s).record, e.Taken := by decide +kernel
    exact fun e he => hall e (hes ▸ List.mem_append_right _ he)
  have hsent := hshifts.bin 1 _ (by decide +kernel) (by decide +kernel) rfl htaken
  rw [if_neg (by rw [hbin]; decide)] at hsent
  refine ⟨hperm _ modes rfl (List.reverse_perm _) (by decide), hs, hbin, es, hes, ?_⟩
  rw [hsent]
  decide +kernel

end OledPanel.Panel
