import SimpleQuery.Fault

/-!
# Actions

An action works on a state, gives a value or a fault, and keeps what it did to the state in both
cases.

* `Act.Moves` — every run of an action moves the state along a relation. Where the relation is
  reflexive and transitive, `Act.Moves.bind` and its companions carry it from the parts of an action
  to the whole.

Model of calls that may raise an exception, and leave what they have done by then.
-/

set_option autoImplicit false

namespace SimpleQuery

/-- An action on a state `σ` that gives an `α`. -/
abbrev Act (σ α : Type) := EStateM Fault σ α

namespace Act

variable {σ τ α β : Type}

/-- What a run comes to: a value or a fault. -/
def outcome : EStateM.Result Fault σ α → Except Fault α
  | .ok a _ => .ok a
  | .error fault _ => .error fault

/-- The state that a run leaves. -/
def state : EStateM.Result Fault σ α → σ
  | .ok _ s => s
  | .error _ s => s

@[simp] theorem outcome_ok (a : α) (s : σ) : outcome (.ok a s : EStateM.Result Fault σ α) = .ok a := rfl

@[simp] theorem outcome_error (fault : Fault) (s : σ) :
    outcome (.error fault s : EStateM.Result Fault σ α) = .error fault := rfl

@[simp] theorem state_ok (a : α) (s : σ) : state (.ok a s : EStateM.Result Fault σ α) = s := rfl

@[simp] theorem state_error (fault : Fault) (s : σ) :
    state (.error fault s : EStateM.Result Fault σ α) = s := rfl

/-- The action that gives a value, or fails, and does nothing else. -/
def ofExcept : Except Fault α → Act σ α
  | .ok a => pure a
  | .error fault => throw fault

theorem get_eq (s : σ) : (MonadState.get : Act σ σ) s = .ok s s := rfl

theorem throw_eq (fault : Fault) (s : σ) : (throw fault : Act σ α) s = .error fault s := rfl

/-- An action on a part of a state. -/
def on (part : τ → σ) (put : σ → τ → τ) (act : Act σ α) : Act τ α := fun t =>
  match act (part t) with
  | .ok a s => .ok a (put s t)
  | .error fault s => .error fault (put s t)

/-- Every run of the action moves the state along `r`. -/
def Moves (r : σ → σ → Prop) (act : Act σ α) : Prop := ∀ s, r s (state (act s))

namespace Moves

variable {r : σ → σ → Prop}

theorem pure (refl : ∀ s, r s s) (a : α) : Moves r (Pure.pure a : Act σ α) := fun s => refl s

theorem throw (refl : ∀ s, r s s) (fault : Fault) : Moves r (throw fault : Act σ α) :=
  fun s => refl s

theorem ofExcept (refl : ∀ s, r s s) (x : Except Fault α) : Moves r (Act.ofExcept x : Act σ α) := by
  cases x <;> exact fun s => refl s

theorem get (refl : ∀ s, r s s) : Moves r (MonadState.get : Act σ σ) := fun s => refl s

theorem bind (trans : ∀ a b c, r a b → r b c → r a c) {act : Act σ α} {next : α → Act σ β}
    (h : Moves r act) (hn : ∀ a, Moves r (next a)) : Moves r (act >>= next) := by
  intro s
  have hs := h s
  simp only [Bind.bind, EStateM.bind]
  cases hr : act s with
  | ok a t =>
    rw [hr] at hs
    exact trans _ _ _ hs (hn a t)
  | error fault t =>
    rw [hr] at hs
    exact hs

theorem map (trans : ∀ a b c, r a b → r b c → r a c) (refl : ∀ s, r s s) {act : Act σ α} (f : α → β)
    (h : Moves r act) : Moves r (f <$> act) :=
  show Moves r (act >>= fun a => Pure.pure (f a)) from
    bind trans h fun a => Moves.pure refl (f a)

theorem mapM (trans : ∀ a b c, r a b → r b c → r a c) (refl : ∀ s, r s s) {f : α → Act σ β}
    (h : ∀ a, Moves r (f a)) : ∀ l : List α, Moves r (l.mapM f)
  | [] => by rw [List.mapM_nil]; exact Moves.pure refl _
  | a :: l => by
    rw [List.mapM_cons]
    exact bind trans (h a) fun b => bind trans (mapM trans refl h l) fun _ => Moves.pure refl _

end Moves

end Act

end SimpleQuery
