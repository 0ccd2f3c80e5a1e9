import Mathlib.Logic.Relation
import OledPanel.Action

/-! Actions as relations between the state they find and the state they leave. A preorder that
holds of the parts of an action holds of the whole, so what an action may do to a state is told
part by part. One preorder is that of a property that lasts; others say what an action leaves
alone, or what it may add. -/

namespace OledPanel.Action

variable {S T α β : Type}

/-! ### States after parts of an action -/

/-- What follows an answer starts in the state that came with it. -/
theorem bind_of_ok {x : Action S α} {a : α} {s t : S} (h : x s = .ok a t) (f : α → Action S β) :
    (x >>= f) s = f a t := by
  simp only [bind, EStateM.bind, h]

/-- Nothing follows a failure. -/
theorem bind_of_error {x : Action S α} {e : Error} {s t : S} (h : x s = .error e t)
    (f : α → Action S β) : (x >>= f) s = .error e t := by
  simp only [bind, EStateM.bind, h]

/-- What a sequence answers comes from what follows an answer of its first part. -/
theorem parts_of_ok {x : Action S α} {f : α → Action S β} {b : β} {s u : S}
    (h : (x >>= f) s = .ok b u) : ∃ a t, x s = .ok a t ∧ f a t = .ok b u := by
  simp only [bind, EStateM.bind] at h
  split at h
  · next a t hx => exact ⟨a, t, hx, h⟩
  · cases h

/-- What answers leaves its state behind. -/
theorem eq_of_answer {x : Action S α} {a : α} {s : S} (h : x.answer s = .ok a) :
    x s = .ok a (x.after s) := by
  unfold answer at h
  unfold after
  cases hx : x s with
  | ok b t =>
    rw [hx] at h
    rw [Except.ok.inj h]
  | error e t =>
    rw [hx] at h
    cases h

theorem get_bind (f : S → Action S β) (s : S) : (get >>= f) s = f s s := rfl

theorem modify_bind (f : S → S) (g : PUnit → Action S β) (s : S) :
    (modify f >>= g) s = g ⟨⟩ (f s) := rfl

@[simp] theorem after_get_bind (f : S → Action S β) (s : S) :
    after (get >>= f) s = (f s).after s := rfl

@[simp] theorem after_set_bind (t : S) (f : PUnit → Action S β) (s : S) :
    after (set t >>= f) s = (f ⟨⟩).after t := rfl

@[simp] theorem after_modify (f : S → S) (s : S) : (modify f : Action S PUnit).after s = f s := rfl

@[simp] theorem after_modify_bind (f : S → S) (g : PUnit → Action S β) (s : S) :
    after (modify f >>= g) s = (g ⟨⟩).after (f s) := rfl

@[simp] theorem after_pure_bind (a : α) (f : α → Action S β) (s : S) :
    after (pure a >>= f) s = (f a).after s := rfl

@[simp] theorem answer_get_bind (f : S → Action S β) (s : S) :
    answer (get >>= f) s = (f s).answer s := rfl

@[simp] theorem answer_modify_bind (f : S → S) (g : PUnit → Action S β) (s : S) :
    answer (modify f >>= g) s = (g ⟨⟩).answer (f s) := rfl

@[simp] theorem after_throw_bind (e : Error) (f : α → Action S β) (s : S) :
    after ((throw e : Action S α) >>= f) s = s := rfl

@[simp] theorem after_attempt_bind (x : Action S α) (f : Unit → Action S β) (s : S) :
    after (x.attempt >>= f) s = (f ()).after (x.after s) := rfl

@[simp] theorem after_outcome_bind (x : Action S α) (f : Except Error α → Action S β) (s : S) :
    after (x.outcome >>= f) s = (f (x.answer s)).after (x.after s) := by
  simp only [after_bind, answer_outcome, after_outcome]

@[simp] theorem after_ofExcept (r : Except Error α) (s : S) : (ofExcept r).after s = s := by
  cases r <;> rfl

@[simp] theorem answer_ofExcept (r : Except Error α) (s : S) : (ofExcept r).answer s = r := by
  cases r <;> rfl

/-- An outcome that is given in the end changes nothing any more. -/
theorem after_bind_ofExcept (x : Action S α) (r : Except Error β) (s : S) :
    after (x >>= fun _ => ofExcept r) s = x.after s := by
  rw [after_bind]
  split
  · rw [after_ofExcept]
  · rfl

@[simp] theorem after_map (f : α → β) (x : Action S α) (s : S) : (f <$> x).after s = x.after s := by
  simp only [after, Functor.map, EStateM.map]
  cases x s <;> rfl

@[simp] theorem after_discard (x : Action S α) (s : S) :
    (discard x : Action S PUnit).after s = x.after s := after_map _ x s

@[simp] theorem answer_discard (x : Action S α) (s : S) :
    (discard x : Action S PUnit).answer s = (x.answer s).map fun _ => ⟨⟩ := by
  simp only [answer, Functor.discard, Functor.mapConst, EStateM.map, Function.comp]
  cases x s <;> rfl

/-! ### Relations -/

/-- Whatever state the action finds, the one it leaves is related to it. -/
def Within (R : S → S → Prop) (x : Action S α) : Prop := ∀ s, R s (x.after s)

/-- The relation of a property that lasts. -/
def Lasting (P : S → Prop) (s t : S) : Prop := P s → P t

instance (P : S → Prop) : IsPreorder S (Lasting P) where
  refl _ h := h
  trans _ _ _ h k p := k (h p)

/-- What is read of the states is the same. -/
def Same (f : S → α) (s t : S) : Prop := f t = f s

instance (f : S → α) : IsPreorder S (Same f) where
  refl _ := rfl
  trans _ _ _ h k := k.trans h

/-- A relation between states with a property, which lasts. -/
def Given (P : S → Prop) (R : S → S → Prop) (s t : S) : Prop := P s → P t ∧ R s t

instance (P : S → Prop) (R : S → S → Prop) [IsPreorder S R] : IsPreorder S (Given P R) where
  refl s p := ⟨p, refl s⟩
  trans _ _ _ h k p := by
    obtain ⟨q, hst⟩ := h p
    obtain ⟨r, htu⟩ := k q
    exact ⟨r, IsTrans.trans _ _ _ hst htu⟩

/-- A preorder that admits each step admits what is made of steps. -/
theorem related_of_closure {R T : S → S → Prop} [IsPreorder S R] (hR : ∀ s t, T s t → R s t) {s t : S}
    (h : Relation.ReflTransGen T s t) : R s t := by
  induction h with
  | refl => exact refl s
  | tail _ step ih => exact IsTrans.trans _ _ _ ih (hR _ _ step)

section

variable {R Q : S → S → Prop}

theorem Within.mono {x : Action S α} (hx : Within R x) (h : ∀ s t, R s t → Q s t) : Within Q x :=
  fun s => h _ _ (hx s)

theorem Within.get {f : S → Action S β} (hf : ∀ s, Within R (f s)) : Within R (MonadState.get >>= f) :=
  fun s => hf s s

theorem Within.attempt {x : Action S α} (hx : Within R x) : Within R x.attempt := hx

theorem Within.outcome {x : Action S α} (hx : Within R x) : Within R x.outcome := fun s => by
  rw [after_outcome]
  exact hx s

theorem Within.map {x : Action S α} (hx : Within R x) (f : α → β) : Within R (f <$> x) := fun s => by
  rw [after_map]
  exact hx s

theorem Within.discard {x : Action S α} (hx : Within R x) : Within R (Functor.discard x) := hx.map _

theorem Within.ite {p : Prop} [Decidable p] {x y : Action S α} (hx : p → Within R x)
    (hy : ¬p → Within R y) : Within R (if p then x else y) := by
  split
  · exact hx ‹p›
  · exact hy ‹¬p›

end

/-! ### Answers -/

instance decidableEqAnswer [DecidableEq α] : DecidableEq (Except Error α)
  | .ok a, .ok b => decidable_of_iff (a = b) (by simp)
  | .error d, .error e => decidable_of_iff (d = e) (by simp)
  | .ok _, .error _ => .isFalse nofun
  | .error _, .ok _ => .isFalse nofun

/-- A value that took two parts came from both. -/
theorem ok_of_bind {x : Except Error α} {f : α → Except Error β} {b : β} (h : x >>= f = .ok b) :
    ∃ a, x = .ok a ∧ f a = .ok b := by
  cases x with
  | error e => cases h
  | ok a => exact ⟨a, rfl, h⟩

/-- Values taken from a list one by one each come from a member. -/
theorem mapM_eq_ok {f : α → Except Error β} {xs : List α} {ys : List β} (h : xs.mapM f = .ok ys) :
    ys.length = xs.length ∧ ∀ y ∈ ys, ∃ x ∈ xs, f x = .ok y := by
  induction xs generalizing ys with
  | nil =>
    cases h
    simp
  | cons x xs ih =>
    rw [List.mapM_cons] at h
    obtain ⟨y, hy, h⟩ := ok_of_bind h
    obtain ⟨rest, hrest, h⟩ := ok_of_bind h
    cases h
    obtain ⟨hlength, hmem⟩ := ih hrest
    refine ⟨by rw [List.length_cons, List.length_cons, hlength], fun z hz => ?_⟩
    obtain rfl | hz := List.mem_cons.mp hz
    · exact ⟨x, by simp, hy⟩
    · obtain ⟨w, hw, hwz⟩ := hmem z hz
      exact ⟨w, List.mem_cons_of_mem _ hw, hwz⟩

/-- Every answer the action gives has the property. -/
def Yields (Q : α → Prop) (x : Action S α) : Prop := ∀ s a, x.answer s = .ok a → Q a

theorem Yields.pure {Q : α → Prop} {a : α} (ha : Q a) : Yields Q (Pure.pure a : Action S α) := by
  rintro s b ⟨⟩
  exact ha

theorem Yields.throw {Q : α → Prop} (e : Error) : Yields Q (MonadExcept.throw e : Action S α) := by
  rintro s b ⟨⟩

theorem Yields.bind {P : α → Prop} {Q : β → Prop} {x : Action S α} {f : α → Action S β}
    (hx : Yields P x) (hf : ∀ a, P a → Yields Q (f a)) : Yields Q (x >>= f) := by
  intro s b hb
  rw [answer_bind] at hb
  split at hb
  · next a ha => exact hf a (hx s a ha) _ b hb
  · cases hb

theorem Yields.of_all {Q : α → Prop} {x : Action S α} (h : ∀ a, Q a) : Yields Q x := fun _ a _ => h a

theorem Yields.outcome {Q : α → Prop} {x : Action S α} (hx : Yields Q x) :
    Yields (fun r => ∀ a, r = .ok a → Q a) x.outcome := by
  intro s r hr a ha
  rw [answer_outcome, Except.ok.injEq] at hr
  exact hx s a (hr.trans ha)

/-! ### Actions that do not fail -/

/-- The action answers in every state. -/
def Succeeds (x : Action S α) : Prop := ∀ s, ∃ a, x.answer s = .ok a

theorem Succeeds.pure (a : α) : Succeeds (Pure.pure a : Action S α) := fun _ => ⟨a, rfl⟩

theorem Succeeds.attempt (x : Action S α) : Succeeds x.attempt := fun _ => ⟨(), rfl⟩

theorem Succeeds.modify (f : S → S) : Succeeds (MonadState.modifyGet fun s => ((), f s) : Action S Unit) :=
  fun _ => ⟨(), rfl⟩

theorem Succeeds.get {f : S → Action S β} (hf : ∀ s, Succeeds (f s)) :
    Succeeds (MonadState.get >>= f) := fun s => hf s s

theorem Succeeds.ite {p : Prop} [Decidable p] {x y : Action S α} (hx : p → Succeeds x)
    (hy : ¬p → Succeeds y) : Succeeds (if p then x else y) := by
  split
  · exact hx ‹p›
  · exact hy ‹¬p›

theorem Succeeds.bind {x : Action S α} {f : α → Action S β} (hx : Succeeds x)
    (hf : ∀ a, Succeeds (f a)) : Succeeds (x >>= f) := by
  intro s
  obtain ⟨a, ha⟩ := hx s
  rw [answer_bind, ha]
  exact hf a (x.after s)

theorem Succeeds.bind_eq {x : Action S Unit} (hx : Succeeds x) (f : Unit → Action S β) (s : S) :
    (x >>= f) s = f () (x.after s) := by
  obtain ⟨a, ha⟩ := hx s
  exact bind_of_ok (eq_of_answer ha) f

theorem Succeeds.after_bind {x : Action S Unit} (hx : Succeeds x) (f : Unit → Action S β) (s : S) :
    after (x >>= f) s = (f ()).after (x.after s) := by
  rw [after, hx.bind_eq f s, ← after]

/-! ### Causes of failure -/

/-- Every failure of the action has the property. -/
def FailsWith (Q : Error → Prop) (x : Action S α) : Prop := ∀ s e, x.answer s = .error e → Q e

theorem FailsWith.mono {P Q : Error → Prop} {x : Action S α} (hx : FailsWith P x)
    (h : ∀ e, P e → Q e) : FailsWith Q x := fun s e he => h e (hx s e he)

theorem Succeeds.failsWith {x : Action S α} (hx : Succeeds x) (Q : Error → Prop) : FailsWith Q x := by
  intro s e he
  obtain ⟨a, ha⟩ := hx s
  cases ha.symm.trans he

theorem FailsWith.throw {Q : Error → Prop} {e : Error} (he : Q e) :
    FailsWith Q (MonadExcept.throw e : Action S α) := by
  rintro s _ ⟨⟩
  exact he

theorem FailsWith.bind {Q : Error → Prop} {x : Action S α} {f : α → Action S β}
    (hx : FailsWith Q x) (hf : ∀ a, FailsWith Q (f a)) : FailsWith Q (x >>= f) := by
  intro s e he
  rw [answer_bind] at he
  split at he
  · next a _ => exact hf a _ e he
  · next d hd =>
    cases he
    exact hx s _ hd

theorem FailsWith.get {Q : Error → Prop} {f : S → Action S β} (hf : ∀ s, FailsWith Q (f s)) :
    FailsWith Q (MonadState.get >>= f) := fun s => hf s s

theorem FailsWith.ite {Q : Error → Prop} {p : Prop} [Decidable p] {x y : Action S α}
    (hx : p → FailsWith Q x) (hy : ¬p → FailsWith Q y) : FailsWith Q (if p then x else y) := by
  split
  · exact hx ‹p›
  · exact hy ‹¬p›

theorem FailsWith.discard {Q : Error → Prop} {x : Action S α} (hx : FailsWith Q x) :
    FailsWith Q (Functor.discard x) := by
  intro s e he
  rw [answer_discard] at he
  cases h : x.answer s with
  | ok a =>
    rw [h] at he
    cases he
  | error d =>
    rw [h] at he
    cases he
    exact hx s _ h

theorem FailsWith.within {Q : Error → Prop} {x : Action T α} (hx : FailsWith Q x) (part : S → T)
    (put : T → S → S) : FailsWith Q (Action.within part put x) := by
  intro s e he
  rw [answer_within] at he
  exact hx _ e he

/-! ### What an action comes to -/

/-- From every state with a property the action answers, and the answer has another property
together with the state it comes with. -/
def Ensures (P : S → Prop) (x : Action S α) (Q : α → S → Prop) : Prop :=
  ∀ s, P s → ∃ a t, x s = .ok a t ∧ Q a t

theorem Ensures.bind {P : S → Prop} {Q : α → S → Prop} {R : β → S → Prop} {x : Action S α}
    {f : α → Action S β} (hx : Ensures P x Q) (hf : ∀ a, Ensures (Q a) (f a) R) :
    Ensures P (x >>= f) R := by
  intro s hs
  obtain ⟨a, t, ht, hq⟩ := hx s hs
  obtain ⟨b, u, hu, hr⟩ := hf a t hq
  exact ⟨b, u, (bind_of_ok ht f).trans hu, hr⟩

theorem Ensures.mono {P P' : S → Prop} {Q Q' : α → S → Prop} {x : Action S α} (hx : Ensures P x Q)
    (hP : ∀ s, P' s → P s) (hQ : ∀ a s, Q a s → Q' a s) : Ensures P' x Q' := by
  intro s hs
  obtain ⟨a, t, ht, hq⟩ := hx s (hP s hs)
  exact ⟨a, t, ht, hQ a t hq⟩

/-- A fact that does not speak of the state may be used from the start. -/
theorem Ensures.of_fact {P : S → Prop} {Q : α → S → Prop} {p : Prop} {x : Action S α}
    (hx : p → Ensures P x Q) : Ensures (fun s => p ∧ P s) x Q := fun s hs => hx hs.1 s hs.2

theorem Ensures.outcome {P : S → Prop} {Q : α → S → Prop} {x : Action S α} (hx : Ensures P x Q) :
    Ensures P x.outcome fun r t => ∃ a, r = .ok a ∧ Q a t := by
  intro s hs
  obtain ⟨a, t, ht, hq⟩ := hx s hs
  exact ⟨.ok a, t, by rw [Action.outcome, ht], a, rfl, hq⟩

theorem Ensures.discard {P : S → Prop} {Q : α → S → Prop} {x : Action S α} (hx : Ensures P x Q) :
    Ensures P (Functor.discard x) fun _ t => ∃ a, Q a t := by
  intro s hs
  obtain ⟨a, t, ht, hq⟩ := hx s hs
  refine ⟨⟨⟩, t, ?_, a, hq⟩
  simp only [Functor.discard, Functor.mapConst, Function.comp, EStateM.map, ht]

/-- The state an action leaves has what the action ensures. -/
theorem Ensures.after {P Q : S → Prop} {x : Action S α} (hx : Ensures P x fun _ => Q) {s : S}
    (hs : P s) : Q (x.after s) := by
  obtain ⟨a, t, ht, hq⟩ := hx s hs
  rwa [Action.after, ht]

theorem Ensures.answer {P Q : S → Prop} {x : Action S α} (hx : Ensures P x fun _ => Q) {s : S}
    (hs : P s) : ∃ a, x.answer s = .ok a := by
  obtain ⟨a, t, ht, -⟩ := hx s hs
  exact ⟨a, by rw [Action.answer, ht]⟩

/-- What an action on a part of the state ensures of the part it ensures of the whole. -/
theorem Ensures.within {P : T → Prop} {Q : α → T → Prop} {R : S → Prop} {Q' : α → S → Prop}
    {x : Action T α} (hx : Ensures P x Q) (part : S → T) (put : T → S → S)
    (hP : ∀ s, R s → P (part s)) (hQ : ∀ a t s, R s → Q a t → Q' a (put t s)) :
    Ensures R (Action.within part put x) Q' := by
  intro s hs
  obtain ⟨a, t, ht, hq⟩ := hx _ (hP s hs)
  exact ⟨a, put t s, by rw [Action.within, ht], hQ a t s hs hq⟩

/-! ### Sequences -/

variable {R : S → S → Prop} [IsPreorder S R]

theorem Within.pure (a : α) : Within R (Pure.pure a : Action S α) := fun s => refl s

theorem Within.throw (e : Error) : Within R (MonadExcept.throw e : Action S α) := fun s => refl s

theorem Within.ofExcept (r : Except Error α) : Within R (Action.ofExcept r : Action S α) := fun s => by
  rw [after_ofExcept]
  exact refl s

/-- What follows may rely on the answer it is given. -/
theorem Within.bind_of_answer {x : Action S α} {f : α → Action S β} (hx : Within R x)
    (hf : ∀ s a, x.answer s = .ok a → R (x.after s) ((f a).after (x.after s))) :
    Within R (x >>= f) := by
  intro s
  rw [after_bind]
  split
  · next a h => exact IsTrans.trans _ _ _ (hx s) (hf s a h)
  · exact hx s

theorem Within.bind {x : Action S α} {f : α → Action S β} (hx : Within R x)
    (hf : ∀ a, Within R (f a)) : Within R (x >>= f) :=
  hx.bind_of_answer fun s a _ => hf a (x.after s)

end OledPanel.Action
