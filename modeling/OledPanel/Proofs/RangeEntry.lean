import Mathlib.Data.List.Induction
import OledPanel.Bench.Plain
import OledPanel.Proofs.Phases
import OledPanel.Proofs.Recording

/-! Entering a range. On a panel without a control register the commands of a range are sent in the
step that makes it the range in force, before any level of that step. They are sent up to the first
that fails and not again while the range is in force, so levels in the range follow the whole of
its commands unless one of them failed when the range was entered. -/

namespace OledPanel

namespace Dsi

/-- What became of messages that are sent up to the first that fails. -/
inductive Attempt : List Message → List Exchange → Prop
  | done : Attempt [] []
  | fail (m : Message) (ms : List Message) (reason : String) : Attempt (m :: ms) [⟨m, .error reason⟩]
  | next {m : Message} {ms : List Message} {es : List Exchange} (rx : List UInt8)
    (h : Attempt ms es) : Attempt (m :: ms) (⟨m, .ok rx⟩ :: es)

theorem Attempt.isPrefix {ms : List Message} {es : List Exchange} (h : Attempt ms es) :
    es.map (·.message) <+: ms := by
  induction h with
  | done => exact List.prefix_refl _
  | fail m ms reason => exact ⟨ms, rfl⟩
  | next rx h ih => exact List.prefix_cons_inj _ |>.mpr ih

/-- Where no message fails, all are sent. -/
theorem Attempt.eq_of_taken {ms : List Message} {es : List Exchange} (h : Attempt ms es)
    (ht : ∀ e ∈ es, e.Taken) : es.map (·.message) = ms := by
  induction h with
  | done => rfl
  | fail m ms reason =>
    obtain ⟨rx, hrx⟩ := ht ⟨m, .error reason⟩ (by simp)
    cases hrx
  | next rx h ih => rw [List.map_cons, ih fun e he => ht e (List.mem_cons_of_mem _ he)]

variable {σ : Type} [Transport σ]

theorem attempt_sendAll (ms : List Message) (r : Recorder σ) :
    ∃ es, ((CommandSet.sendAll ms).after r).record = r.record ++ es ∧ Attempt ms es := by
  induction ms generalizing r with
  | nil => exact ⟨[], by simp [CommandSet.sendAll], .done⟩
  | cons m ms ih =>
    have hrecord := Recorder.record_transfer m r
    rw [CommandSet.sendAll, Action.after_bind, Action.answer_discard, Action.after_discard]
    cases hreply : r.reply m with
    | ok rx =>
      obtain ⟨es, hes, h⟩ := ih ((transfer m).after r)
      rw [Recorder.answer_transfer hreply]
      refine ⟨⟨m, .ok rx⟩ :: es, ?_, .next rx h⟩
      show ((CommandSet.sendAll ms).after ((transfer m).after r)).record = _
      rw [hes, hrecord, hreply, List.append_assoc]
      rfl
    | error reason =>
      rw [Recorder.answer_transfer_of_error hreply]
      exact ⟨[⟨m, .error reason⟩], by rw [← hreply]; exact hrecord, .fail m ms reason⟩

end Dsi

namespace Panel

open Dsi (Attempt Exchange Recorder Sends Transport)

variable {σ : Type} [Transport σ] {c : Config}

/-- What a step does to the range in force. Either it stays or none is left, or another range is
entered, and then its commands are sent after nothing but messages that are not levels. -/
inductive Passage (c : Config) (s t : State (Recorder σ)) : Prop
  | keep (later : List Exchange) (hr : t.hbm.range = s.hbm.range ∨ t.hbm.range = none)
    (h : t.host.record = s.host.record ++ later)
  | enter {h : Hbm.Config} {i : Nat} {r : Hbm.Range} (hh : c.hbm = some h)
    (hr : h.ranges[i]? = some r) (hs : s.hbm.range ≠ some i) (ht : t.hbm.range = some i)
    (earlier sent later : List Exchange) (haside : ∀ e ∈ earlier, Aside c e.message)
    (hsent : Attempt r.entry.messages sent)
    (hrecord : t.host.record = s.host.record ++ (earlier ++ sent ++ later))

/-- On a panel without a control register a range is entered by sending its commands. -/
theorem after_enterRange (hc : c.family = .generic) (i : Nat) (r : Hbm.Range) (s : State σ) :
    ((enterRange c i r).after s).host = r.entry.send.after s.host ∧
      ((enterRange c i r).after s).hbm.range = some i := by
  obtain ⟨d, m, h⟩ := startDimming_frame r.frames (.range i) s
  rw [enterRange, Action.after_attempt_bind, Action.after_modify_bind, announce, hc, h]
  dsimp only
  rw [after_onHost]
  exact ⟨rfl, rfl⟩

/-- An update leaves the range in force, or it enters another and sends its commands first. -/
theorem update_passage (hc : c.family = .generic) {u w : State (Recorder σ)} (hu : u.gamma.Laid)
    (hw : w = (update c).after u) :
    (w.hbm.range = u.hbm.range ∧ ∃ later, w.host.record = u.host.record ++ later) ∨
      ¬u.Barred ∧ ∃ h i r sent later, c.hbm = some h ∧ h.ranges[i]? = some r ∧
        u.hbm.range ≠ some i ∧ w.hbm.range = some i ∧ Attempt r.entry.messages sent ∧
          w.host.record = u.host.record ++ (sent ++ later) := by
  obtain ⟨v, huv, hvw⟩ := update_strokes (c := c) u
  rw [← hw] at hvw
  have hv : v.gamma.Laid := by
    rw [huv.keeps.gamma]
    exact hu
  obtain ⟨later, hlater, -⟩ := Recorder.record_of_sends (speaks_strokes hvw hv).2
  have hrange : w.hbm.range = v.hbm.range := hvw.range
  cases huv with
  | stay => exact .inl ⟨hrange, later, hlater⟩
  | @enter h i r hh hr hb hm hi =>
    obtain ⟨hhost, hentered⟩ := after_enterRange hc i r u
    obtain ⟨sent, hsent, hattempt⟩ := Dsi.attempt_sendAll r.entry.messages u.host
    have hbarred : ¬u.Barred := by
      rintro ⟨-, hoff | hdark⟩
      · rw [hoff] at hm
        cases hm
      · exact hb hdark
    have hrecord : w.host.record = u.host.record ++ (sent ++ later) := by
      rw [hlater, hhost, Dsi.CommandSet.send, hsent, List.append_assoc]
    exact .inr ⟨hbarred, h, i, r, sent, later, hh, hr, hi, hrange.trans hentered, hattempt, hrecord⟩

theorem passage_step (hc : c.family = .generic) {s : State (Recorder σ)} (hs : s.gamma.Laid)
    (i : Input) : Passage c s (step c s i) := by
  have h := phases_step (c := c) s i
  generalize step c s i = t at h ⊢
  cases h with
  | aside h hr =>
    obtain ⟨es, hes, -⟩ := Recorder.record_of_sends (h hs).2
    exact .keep es hr hes
  | update u h hr k hk =>
    obtain ⟨hu, hbefore⟩ := h hs
    have hupdated : ((update c).after u).gamma.Laid := by
      rw [(keeps_update u).gamma]
      exact hu
    obtain ⟨earlier, hearlier, haside⟩ := Recorder.record_of_sends hbefore
    obtain ⟨late, hlate, -⟩ := Recorder.record_of_sends (k hupdated).2
    have hrange : t.hbm.range = ((update c).after u).hbm.range := (Prod.mk.inj hk).2
    rcases update_passage hc hu rfl with ⟨hsame, later, hlater⟩ |
      ⟨hbarred, h, i, r, sent, later, hh, hri, hi, hentered, hattempt, hlater⟩
    · have hrecord : t.host.record = s.host.record ++ (earlier ++ later ++ late) := by
        rw [hlate, hlater, hearlier]
        simp only [List.append_assoc]
      have hleft : t.hbm.range = s.hbm.range ∨ t.hbm.range = none := by
        rw [hrange, hsame]
        exact hr.imp_right fun hbarred => hbarred.1
      exact .keep _ hleft hrecord
    · have hrecord : t.host.record = s.host.record ++ (earlier ++ sent ++ (later ++ late)) := by
        rw [hlate, hlater, hearlier]
        simp only [List.append_assoc]
      have hother : s.hbm.range ≠ some i := by
        rcases hr with hr | hr
        · rw [← hr]
          exact hi
        · exact absurd hr hbarred
      exact .enter hh hri hother (hrange.trans hentered) earlier sent _ haside hattempt hrecord

/-! ### Runs -/

/-- The step of a run that entered a range, where the range is in force since. Of what was sent from
that step on, what became of the commands of the range comes before every level. -/
structure Entrance (c : Config) (start : State (Recorder σ)) (inputs : List Input) (i : Nat)
    (r : Hbm.Range) (is js : List Input) (j : Input) (sent : List Exchange) : Prop where
  range : ∃ h, c.hbm = some h ∧ h.ranges[i]? = some r
  split : inputs = is ++ j :: js
  before : (run c start is).hbm.range ≠ some i
  since : ∀ ks, ks <+: js → (run c start (is ++ j :: ks)).hbm.range = some i
  attempt : Attempt r.entry.messages sent
  record : ∃ earlier later, (∀ e ∈ earlier, Aside c e.message) ∧
    (run c start inputs).host.record = (run c start is).host.record ++ (earlier ++ sent ++ later)

theorem Entrance.keep {start : State (Recorder σ)} {inputs is js : List Input} {j k : Input} {i : Nat}
    {r : Hbm.Range} {sent later : List Exchange} (h : Entrance c start inputs i r is js j sent)
    (hi : (run c start (inputs ++ [k])).hbm.range = some i)
    (hrecord : (run c start (inputs ++ [k])).host.record = (run c start inputs).host.record ++ later) :
    Entrance c start (inputs ++ [k]) i r is (js ++ [k]) j sent where
  range := h.range
  split := by simp [h.split]
  before := h.before
  since ks hks := by
    rcases List.prefix_concat_iff.mp hks with rfl | hks
    · rw [show is ++ j :: (js ++ [k]) = inputs ++ [k] by simp [h.split]]
      exact hi
    · exact h.since ks hks
  attempt := h.attempt
  record := by
    obtain ⟨earlier, rest, haside, hsent⟩ := h.record
    refine ⟨earlier, rest ++ later, haside, ?_⟩
    rw [hrecord, hsent]
    simp only [List.append_assoc]

theorem entrance_of_run (hc : c.family = .generic) {start : State (Recorder σ)}
    (hlaid : start.gamma.Laid) (hnone : start.hbm.range = none) (inputs : List Input) {i : Nat}
    (hi : (run c start inputs).hbm.range = some i) :
    ∃ r is js j sent, Entrance c start inputs i r is js j sent := by
  -- From the right, so that the entrance found before is still the last one.
  induction inputs using List.reverseRecOn with
  | nil =>
    rw [run_nil, hnone] at hi
    cases hi
  | append_singleton inputs k ih =>
    have hpassage := passage_step hc (laid_run (c := c) hlaid inputs) k
    rw [← show run c start (inputs ++ [k]) = step c (run c start inputs) k from
      run_append c start inputs [k]] at hpassage
    cases hpassage with
    | keep later hr hrecord =>
      have hold : (run c start inputs).hbm.range = some i := by
        rcases hr with hr | hr
        · rw [← hr]
          exact hi
        · rw [hr] at hi
          cases hi
      obtain ⟨r, is, js, j, sent, h⟩ := ih hold
      exact ⟨r, is, js ++ [k], j, sent, h.keep hi hrecord⟩
    | @enter h i' r hh hr hs ht earlier sent later haside hattempt hrecord =>
      obtain rfl : i' = i := Option.some.inj (ht.symm.trans hi)
      have hsince (ks : List Input) (hks : ks <+: []) :
          (run c start (inputs ++ k :: ks)).hbm.range = some i' := by
        rw [List.prefix_nil.mp hks]
        exact hi
      exact ⟨r, inputs, [], k, sent, ⟨h, hh, hr⟩, rfl, hs, hsince, hattempt, earlier, later, haside,
        hrecord⟩

/-- While a range is in force on a panel without a control register, levels come after its commands:
after the whole of them if none of them failed in the step that entered the range, else after those
up to the first that failed, and the rest is not sent. -/
theorem entry_precedes_levels_up_to_failure (hc : c.family = .generic) (host : σ) (display : Display)
    (pwm : Option Pwm) (regulator : Option Regulator) (inputs : List Input) {i : Nat} :
    let start := State.initial c ({ host } : Recorder σ) display pwm regulator
    (run c start inputs).hbm.range = some i → ∃ r is js j sent,
      Entrance c start inputs i r is js j sent ∧ sent.map (·.message) <+: r.entry.messages ∧
        ((∀ e ∈ sent, e.Taken) → sent.map (·.message) = r.entry.messages) := by
  intro start hi
  have hlaid : start.gamma.Laid := laid_initial c _ display pwm regulator
  obtain ⟨r, is, js, j, sent, h⟩ := entrance_of_run hc hlaid rfl inputs hi
  exact ⟨r, is, js, j, sent, h, h.attempt.isPrefix, h.attempt.eq_of_taken⟩

theorem entry_precedes_levels_without_failure :
    let entry : Dsi.CommandSet := { commands := [⟨.shortWriteParam, true, 0, [0x53, 0xE0]⟩] }
    let hbm : Hbm.Config := {
      ranges := [⟨0, 255, 100, 200, entry, {}, 0⟩]
      exit := {}
      exitStop := {}
      exitFrames := 0
      irc := none }
    let c := Bench.plain (some hbm)
    let start := State.initial c ({ host := {} } : Recorder Bench.Host) {} none none
    ∃ r is js j sent, sent.map (·.message) = entry.messages ∧
      Entrance c start [.request .enable, .request (.setHbm .on)] 0 r is js j sent := by
  intro entry hbm c start
  have hgood : ∀ e ∈ (run c start [.request .enable, .request (.setHbm .on)]).host.record, e.Taken := by
    decide +kernel
  obtain ⟨r, is, js, j, sent, h, -, hall⟩ := entry_precedes_levels_up_to_failure (c := c) (i := 0) rfl
    ({} : Bench.Host) {} none none [.request .enable, .request (.setHbm .on)] (by decide +kernel)
  have hr : r.entry = entry := by
    obtain ⟨h, hh, hr⟩ := h.range
    obtain rfl : hbm = h := Option.some.inj hh
    obtain rfl := Option.some.inj hr
    rfl
  have htaken : ∀ e ∈ sent, e.Taken := by
    obtain ⟨earlier, later, -, hrecord⟩ := h.record
    intro e he
    refine hgood e ?_
    rw [show (run c start _).host.record = _ from hrecord]
    simp [he]
  exact ⟨r, is, js, j, sent, hr ▸ hall htaken, h⟩

/-- The level is written in a range whose only command failed, and the command is not sent. -/
theorem level_written_without_entry :
    let hbm : Hbm.Config := {
      ranges := [⟨0, 255, 100, 200, { commands := [⟨.shortWriteParam, true, 0, [0x53, 0xE0]⟩] }, {}, 0⟩]
      exit := {}
      exitStop := {}
      exitFrames := 0
      irc := none }
    let s := Bench.plainRun (some hbm) { countdown := some 1 }
      [.request .enable, .request (.setHbm .on), .request .update]
    (Config.ofNode (Bench.plainNode [Bench.hbmNode []
      [Bench.withProperties (Bench.rangeNode 0 100 200 none)
        [(Hbm.keyEntry, .cells (Dsi.CommandSet.pack [[0x53, 0xE0]]))]]]) false).toOption =
          some (Bench.plain (some hbm)) ∧
      s.hbm.mode = .on ∧ s.hbm.range = some 0 ∧ s.host.countdown = none ∧
      s.host.log.toList.map (·.tx) = [[0x51, 0x7F], [0x51, 0x96]] := by
  refine ⟨by decide +kernel, ?_⟩
  decide +kernel

end Panel
end OledPanel
