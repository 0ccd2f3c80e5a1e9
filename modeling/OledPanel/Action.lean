import OledPanel.Error

/-! Actions on a state. An action answers or fails, and in both cases leaves a state: what
was done before a failure stays done. `after` is the state an action leaves and `answer`
is what it says. -/
namespace OledPanel

abbrev Action (S α : Type) := EStateM Error S α

namespace Action

variable {S T α β : Type}

def after (x : Action S α) (s : S) : S :=
  match x s with
  | .ok _ t => t
  | .error _ t => t

def answer (x : Action S α) (s : S) : Except Error α :=
  match x s with
  | .ok a _ => .ok a
  | .error e _ => .error e

/-- An answer known beforehand. -/
def ofExcept : Except Error α → Action S α
  | .ok a => pure a
  | .error e => throw e

/-- The action with its failure made an answer. -/
def outcome (x : Action S α) : Action S (Except Error α) := fun s =>
  match x s with
  | .ok a t => .ok (.ok a) t
  | .error e t => .ok (.error e) t

/-- The action with its failure passed over. -/
def attempt (x : Action S α) : Action S Unit := fun s => .ok () (x.after s)

/-- An action on a part of the state. -/
def within (part : S → T) (put : T → S → S) (x : Action T α) : Action S α := fun s =>
  match x (part s) with
  | .ok a t => .ok a (put t s)
  | .error e t => .error e (put t s)

@[simp] theorem after_pure (a : α) (s : S) : (pure a : Action S α).after s = s := rfl

@[simp] theorem answer_pure (a : α) (s : S) : (pure a : Action S α).answer s = .ok a := rfl

@[simp] theorem after_throw (e : Error) (s : S) : (throw e : Action S α).after s = s := rfl

@[simp] theorem answer_throw (e : Error) (s : S) : (throw e : Action S α).answer s = .error e := rfl

@[simp] theorem after_outcome (x : Action S α) (s : S) : x.outcome.after s = x.after s := by
  simp only [outcome, after]
  cases x s <;> rfl

@[simp] theorem answer_outcome (x : Action S α) (s : S) : x.outcome.answer s = .ok (x.answer s) := by
  simp only [outcome, answer]
  cases x s <;> rfl

@[simp] theorem after_attempt (x : Action S α) (s : S) : x.attempt.after s = x.after s := rfl

@[simp] theorem answer_attempt (x : Action S α) (s : S) : x.attempt.answer s = .ok () := rfl

theorem after_bind (x : Action S α) (f : α → Action S β) (s : S) :
    after (x >>= f) s = match x.answer s with
      | .ok a => (f a).after (x.after s)
      | .error _ => x.after s := by
  simp only [after, answer, bind, EStateM.bind]
  cases x s <;> rfl

theorem answer_bind (x : Action S α) (f : α → Action S β) (s : S) :
    answer (x >>= f) s = match x.answer s with
      | .ok a => (f a).answer (x.after s)
      | .error e => .error e := by
  simp only [after, answer, bind, EStateM.bind]
  cases x s <;> rfl

@[simp] theorem after_within (part : S → T) (put : T → S → S) (x : Action T α) (s : S) :
    (within part put x).after s = put (x.after (part s)) s := by
  simp only [within, after]
  cases x (part s) <;> rfl

@[simp] theorem answer_within (part : S → T) (put : T → S → S) (x : Action T α) (s : S) :
    (within part put x).answer s = x.answer (part s) := by
  simp only [within, answer]
  cases x (part s) <;> rfl

end Action
end OledPanel
