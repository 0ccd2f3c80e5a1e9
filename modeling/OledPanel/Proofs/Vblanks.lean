import OledPanel.Proofs.Dimming

/-! The vblanks of a display, whoever uses it and in whatever order. A pulse that is fired while a
reference is held is pending until a wait is given it or the last reference goes. So from the first
reference on, for as long as one is held, the pulses that waits were given and those that are pending
are together the pulses that were fired, in their order, and no wait is given an older one. References
are counted and not told apart: one that is taken while another is held shares what is pending. -/

namespace OledPanel.Display

/-- What is done with a display. -/
inductive Op where
  | fire
  | acquire
  | release
  | wait
  | listen (id : Nat)
  | ignore (id : Nat)
  | notify (e : Event)
deriving DecidableEq, Repr

def Op.perform : Op → Action Display Unit
  | .fire => modify Display.fire
  | .acquire => Display.acquire
  | .release => modify Display.release
  | .wait => Display.wait
  | .listen id => modify (·.listen id)
  | .ignore id => modify (·.ignore id)
  | .notify e => modify (·.notify e)

/-- The display an operation leaves, whether it succeeds or not. -/
def Op.step (o : Op) (d : Display) : Display := o.perform.after d

def run (d : Display) (ops : List Op) : Display := ops.foldl (fun d o => o.step d) d

@[simp] theorem run_nil (d : Display) : run d [] = d := rfl

@[simp] theorem run_cons (o : Op) (ops : List Op) (d : Display) :
    run d (o :: ops) = run (o.step d) ops := rfl

/-- A reference is held now and after each of the operations. -/
def Held : Display → List Op → Prop
  | d, [] => 0 < d.references
  | d, o :: ops => 0 < d.references ∧ Held (o.step d) ops

instance decidableHeld : (d : Display) → (ops : List Op) → Decidable (Held d ops)
  | d, [] => inferInstanceAs (Decidable (0 < d.references))
  | d, o :: ops => @instDecidableAnd _ _ _ (decidableHeld (o.step d) ops)

theorem Held.references {d : Display} {ops : List Op} (h : Held d ops) : 0 < d.references := by
  cases ops with
  | nil => exact h
  | cons o ops => exact h.1

/-- The operation is a wait that succeeds. -/
def Op.served : Op → Display → Bool
  | .wait, d => (Display.wait.answer d).isOk
  | _, _ => false

/-- The number of waits that succeed. -/
def waits : Display → List Op → Nat
  | _, [] => 0
  | d, o :: ops => (o.served d).toNat + waits (o.step d) ops

/-! ### What an operation does -/

@[simp] theorem step_fire (d : Display) : Op.fire.step d = d.fire := rfl

@[simp] theorem step_release (d : Display) : Op.release.step d = d.release := rfl

theorem step_acquire (d : Display) : Op.acquire.step d = if d.refusing then d else d.lent := by
  change acquire.after d = _
  rw [Action.after, acquire_eq]
  cases d.refusing <;> rfl

theorem step_wait (d : Display) :
    Op.wait.step d =
      if 0 < d.references ∧ 0 < d.pending then { d with pending := d.pending - 1 } else d :=
  after_wait d

theorem served_wait (d : Display) :
    Op.wait.served d = decide (0 < d.references ∧ 0 < d.pending) := by
  rw [Op.served, answer_wait]
  split
  · next h => simp [h, Except.isOk, Except.toBool]
  · next h => simp [h, Except.isOk, Except.toBool]

theorem fired_step (o : Op) (d : Display) : (o.step d).fired = d.fired + [o].count .fire := by
  cases o with
  | acquire =>
    rw [step_acquire]
    split <;> rfl
  | wait =>
    rw [step_wait]
    split <;> rfl
  | _ => rfl

/-- No vblank is pending that nobody holds a reference for. -/
def Tidy (d : Display) : Prop := d.references = 0 → d.pending = 0

theorem tidy_step {d : Display} (h : Tidy d) (o : Op) : Tidy (o.step d) := by
  cases o with
  | fire =>
    intro hr
    simp only [step_fire, fire] at hr ⊢
    simp [hr, h hr]
  | acquire =>
    rw [step_acquire]
    split
    · exact h
    · exact fun hr => absurd hr (Nat.succ_ne_zero d.references)
  | release =>
    intro hr
    simp only [step_release, release] at hr ⊢
    rw [if_pos (by omega)]
  | wait =>
    rw [step_wait]
    split
    · next hw => exact fun hr => absurd hr (Nat.ne_of_gt hw.1)
    · exact h
  | _ => exact h

theorem tidy_run {d : Display} (h : Tidy d) (ops : List Op) : Tidy (run d ops) := by
  induction ops generalizing d with
  | nil => exact h
  | cons o ops ih => exact ih (tidy_step h o)

/-! ### Pulses by number -/

/-- The pulses that waits were given and those that are pending, the oldest first. A pulse has the
number of those that were fired before it. -/
structure Ledger where
  given : List Nat := []
  pending : List Nat := []
deriving DecidableEq, Repr

/-- What an operation makes of the pulses. The oldest that is pending is the first to be given. -/
def Op.enter : Op → Display → Ledger → Ledger
  | .fire, d, l => if 0 < d.references then { l with pending := l.pending ++ [d.fired] } else l
  | .release, d, l => if d.references ≤ 1 then { l with pending := [] } else l
  | .wait, d, l =>
    if Op.wait.served d then { given := l.given ++ l.pending.take 1, pending := l.pending.drop 1 }
    else l
  | _, _, l => l

def ledger : Display → Ledger → List Op → Ledger
  | _, l, [] => l
  | d, l, o :: ops => ledger (o.step d) (o.enter d l) ops

theorem ledger_append (d : Display) (l : Ledger) (ops later : List Op) :
    ledger d l (ops ++ later) = ledger (run d ops) (ledger d l ops) later := by
  induction ops generalizing d l with
  | nil => rfl
  | cons o ops ih => exact ih (o.step d) (o.enter d l)

/-- The display counts the pulses that are pending. -/
def Ledger.Counted (l : Ledger) (d : Display) : Prop := l.pending.length = d.pending

theorem counted_enter {d : Display} {l : Ledger} (h : l.Counted d) (o : Op) :
    (o.enter d l).Counted (o.step d) := by
  unfold Ledger.Counted at h ⊢
  cases o with
  | fire =>
    simp only [Op.enter, step_fire, fire]
    split <;> simp [h]
  | acquire =>
    rw [step_acquire]
    split <;> exact h
  | release =>
    simp only [Op.enter, step_release, release]
    split <;> simp [h]
  | wait =>
    simp only [Op.enter, served_wait, decide_eq_true_eq, step_wait]
    split <;> simp [h]
  | _ => exact h

theorem counted_ledger {d : Display} {l : Ledger} (h : l.Counted d) (ops : List Op) :
    (ledger d l ops).Counted (run d ops) := by
  induction ops generalizing d l with
  | nil => exact h
  | cons o ops ih => exact ih (counted_enter h o)

/-- A wait is given one pulse if it succeeds and none otherwise. -/
theorem given_enter {d : Display} {l : Ledger} (h : l.Counted d) (o : Op) :
    ∃ new, (o.enter d l).given = l.given ++ new ∧ new.length = (o.served d).toNat := by
  cases o with
  | wait =>
    rw [Op.enter]
    cases hs : Op.wait.served d with
    | true =>
      rw [served_wait, decide_eq_true_eq] at hs
      refine ⟨l.pending.take 1, rfl, ?_⟩
      rw [List.length_take, h, Bool.toNat_true]
      omega
    | false => exact ⟨[], (List.append_nil _).symm, rfl⟩
  | fire | release =>
    refine ⟨[], ?_, rfl⟩
    rw [Op.enter, List.append_nil]
    split <;> rfl
  | _ => exact ⟨[], (List.append_nil _).symm, rfl⟩

theorem given_ledger {d : Display} {l : Ledger} (h : l.Counted d) (ops : List Op) :
    ∃ new, (ledger d l ops).given = l.given ++ new ∧ new.length = waits d ops := by
  induction ops generalizing d l with
  | nil => exact ⟨[], (List.append_nil _).symm, rfl⟩
  | cons o ops ih =>
    obtain ⟨first, hfirst, hone⟩ := given_enter h o
    obtain ⟨rest, hrest, hmore⟩ := ih (counted_enter h o)
    refine ⟨first ++ rest, ?_, ?_⟩
    · rw [ledger, hrest, hfirst, List.append_assoc]
    · rw [List.length_append, hone, hmore, waits]

/-- While a reference is held no pulse is lost, and a wait moves the oldest that is pending. -/
theorem enter_of_held {d : Display} (o : Op) (l : Ledger) (hd : 0 < d.references)
    (ho : 0 < (o.step d).references) :
    (o.enter d l).given ++ (o.enter d l).pending =
      l.given ++ l.pending ++ List.range' d.fired ([o].count .fire) := by
  cases o with
  | fire => simp [Op.enter, hd]
  | release =>
    simp only [step_release, release] at ho
    have hkept : ¬d.references ≤ 1 := by omega
    simp [Op.enter, hkept]
  | wait =>
    rw [Op.enter]
    split
    · rw [List.append_assoc, List.take_append_drop]
      simp
    · simp
  | _ => simp [Op.enter]

/-- The pulses given and pending grow by those that are fired while a reference is held. -/
theorem ledger_of_held {d : Display} {ops : List Op} (l : Ledger) (h : Held d ops) :
    (ledger d l ops).given ++ (ledger d l ops).pending =
      l.given ++ l.pending ++ List.range' d.fired (ops.count .fire) := by
  induction ops generalizing d l with
  | nil => simp [ledger]
  | cons o ops ih =>
    obtain ⟨hd, hrest⟩ := h
    rw [ledger, ih _ hrest, enter_of_held o l hd hrest.references, fired_step, List.append_assoc,
      List.range'_append_1, ← List.count_append, List.singleton_append]

/-! ### Runs -/

/-- No operation adds more than one to a count. -/
theorem counts_step_le (o : Op) (d : Display) :
    (o.step d).references ≤ d.references + 1 ∧ (o.step d).pending ≤ d.pending + 1 ∧
      (o.step d).fired ≤ d.fired + 1 := by
  cases o with
  | fire =>
    simp only [step_fire, fire]
    split <;> omega
  | acquire =>
    rw [step_acquire]
    split <;> simp [lent]
  | release =>
    simp only [step_release, release]
    split <;> omega
  | wait =>
    rw [step_wait]
    split
    · dsimp only
      omega
    · omega
  | _ => exact ⟨Nat.le_succ _, Nat.le_succ _, Nat.le_succ _⟩

/-- No count outgrows the operations. -/
theorem counts_run_le (d : Display) (ops : List Op) :
    (run d ops).references ≤ d.references + ops.length ∧
      (run d ops).pending ≤ d.pending + ops.length ∧ (run d ops).fired ≤ d.fired + ops.length := by
  induction ops generalizing d with
  | nil => exact ⟨Nat.le_refl _, Nat.le_refl _, Nat.le_refl _⟩
  | cons o ops ih =>
    have hone := counts_step_le o d
    have hrest := ih (o.step d)
    rw [run_cons, List.length_cons]
    omega

/-- Vblanks are accounted for. Whatever is done with a display, none is pending while no reference
is held. No count outgrows the operations, so those of a new display fit 32 bits for as long as
fewer than 2 ^ 32 operations are done with it. From the first reference on, for as long as one is
held, the waits that succeed and the vblanks that are pending are as many as the pulses fired since:
they are these pulses in the order in which they were fired, and no wait of that time is given a
pulse fired before the reference was taken. -/
theorem vblanks_accounted_for {d : Display} (hd : d.pending = 0) (earlier : List Op) :
    let s := run d earlier
    (s.references = 0 → s.pending = 0) ∧
      (s.references ≤ d.references + earlier.length ∧ s.pending ≤ earlier.length ∧
        s.fired ≤ d.fired + earlier.length) ∧
      ∀ later, s.references = 0 → Held (Op.acquire.step s) later →
        let first := Op.acquire.step s
        let t := run first later
        let before := ledger d {} earlier
        let after := ledger d {} (earlier ++ .acquire :: later)
        waits first later + t.pending = later.count .fire ∧
          ∃ given, after.given = before.given ++ given ∧ given.length = waits first later ∧
            after.pending.length = t.pending ∧
            given ++ after.pending = List.range' s.fired (later.count .fire) ∧
            ∀ n ∈ given, s.fired ≤ n := by
  intro s
  have htidy : s.Tidy := tidy_run (fun _ => hd) earlier
  have hcounts := counts_run_le d earlier
  rw [hd, Nat.zero_add] at hcounts
  refine ⟨htidy, hcounts, ?_⟩
  intro later hs hheld first t before after
  have hbefore : before.Counted s := counted_ledger (l := {}) hd.symm earlier
  have hfirst : before.Counted first := counted_enter hbefore .acquire
  have hafter : after = ledger first before later := ledger_append d {} earlier (.acquire :: later)
  have hnone : before.pending = [] := by
    rw [← List.length_eq_zero_iff, hbefore]
    exact htidy hs
  have hfired : first.fired = s.fired := fired_step .acquire s
  have hcounted : after.Counted t := hafter ▸ counted_ledger hfirst later
  obtain ⟨given, hgiven, hwaits⟩ := given_ledger hfirst later
  rw [← hafter] at hgiven
  have hpulses : given ++ after.pending = List.range' s.fired (later.count .fire) := by
    have hall := ledger_of_held before hheld
    rw [← hafter, hgiven, hnone, hfired, List.append_nil, List.append_assoc] at hall
    exact List.append_cancel_left hall
  refine ⟨?_, given, hgiven, hwaits, hcounted, hpulses, fun n hn => ?_⟩
  · rw [← hwaits, ← hcounted, ← List.length_append, hpulses, List.length_range']
  · have hmem : n ∈ List.range' s.fired (later.count .fire) :=
      hpulses ▸ List.mem_append_left after.pending hn
    exact (List.mem_range'_1.mp hmem).1

/-- One reference too many is returned, a pulse comes while none is held, and another is left over
when the only reference goes. References nest in what follows, and the waits are given the pulses
numbered 2 and 3. -/
theorem vblanks_accounted_for_in_nested_references :
    let earlier : List Op := [.release, .fire, .acquire, .fire, .release]
    let later : List Op := [.fire, .acquire, .wait, .fire, .release, .fire, .wait]
    let s := run {} earlier
    let first := Op.acquire.step s
    s.references = 0 ∧ s.fired = 2 ∧ Held first later ∧
      waits first later = 2 ∧ (run first later).pending = 1 ∧
      waits first later + (run first later).pending = later.count .fire ∧
      (ledger {} {} (earlier ++ .acquire :: later)).given = [2, 3] ∧ s.fired ≤ earlier.length := by
  intro earlier later s first
  have hs : s.references = 0 := by decide
  have hheld : Held first later := by decide
  obtain ⟨-, ⟨-, -, hfired⟩, hall⟩ := vblanks_accounted_for (d := {}) rfl earlier
  obtain ⟨hsum, -⟩ := hall later hs hheld
  exact ⟨hs, by decide, hheld, by decide, by decide, hsum, by decide,
    by simpa using hfired⟩

end OledPanel.Display
