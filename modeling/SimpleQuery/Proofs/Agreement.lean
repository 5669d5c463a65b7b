import SimpleQuery.Act

/-!
# Two runs side by side

A relation between the states of two runs is carried from the parts of an action to the whole.

* `Act.Alike` — two runs end alike: with related values or with the same fault, in related states.
* `Act.Respects` — an action run from two related states ends alike. `Act.Respects.bind` and its
  companions follow the way actions are put together.
* `Act.Respects.of_view` — an action that a view of the state is enough to describe respects the
  relation of having the same view.
-/

set_option autoImplicit false

namespace SimpleQuery.Act

variable {σ τ ρ α β : Type}

/-- Two runs end alike: with related values, or with the same fault, and in related states. -/
inductive Alike (R : σ → τ → Prop) (V : α → β → Prop) :
    EStateM.Result Fault σ α → EStateM.Result Fault τ β → Prop where
  | ok {a : α} {b : β} {s : σ} {t : τ} (values : V a b) (states : R s t) :
      Alike R V (.ok a s) (.ok b t)
  | error {fault : Fault} {s : σ} {t : τ} (states : R s t) :
      Alike R V (.error fault s) (.error fault t)

namespace Alike

variable {R : σ → τ → Prop} {V : α → β → Prop} {r : EStateM.Result Fault σ α}
  {r' : EStateM.Result Fault τ β}

theorem states (h : Alike R V r r') : R (state r) (state r') := by
  cases h with
  | ok _ h => exact h
  | error h => exact h

theorem outcomes {r' : EStateM.Result Fault τ α} (h : Alike R Eq r r') : outcome r = outcome r' := by
  cases h with
  | ok h _ => simp only [outcome_ok, h]
  | error _ => rfl

end Alike

/-- From two related states the action ends alike. -/
def Respects (R : σ → σ → Prop) (act : Act σ α) : Prop := ∀ s t, R s t → Alike R Eq (act s) (act t)

namespace Respects

variable {R : σ → σ → Prop}

theorem pure (a : α) : Respects R (Pure.pure a : Act σ α) := fun _ _ h => .ok rfl h

theorem throw (fault : Fault) : Respects R (throw fault : Act σ α) := fun _ _ h => .error h

theorem ofExcept (x : Except Fault α) : Respects R (Act.ofExcept x : Act σ α) := by
  cases x with
  | ok a => exact pure a
  | error fault => exact throw fault

theorem bind {act : Act σ α} {next : α → Act σ β} (h : Respects R act)
    (hn : ∀ a, Respects R (next a)) : Respects R (act >>= next) := by
  intro s t hst
  have hr := h s t hst
  simp only [Bind.bind, EStateM.bind]
  revert hr
  generalize act s = r
  generalize act t = r'
  intro hr
  cases hr with
  | ok hv hst => subst hv; exact hn _ _ _ hst
  | error hst => exact .error hst

/-- What an action reads of the state may only be what related states share. -/
theorem get_bind {next : σ → Act σ β} (same : ∀ s t, R s t → next s = next t)
    (h : ∀ s, Respects R (next s)) : Respects R (MonadState.get >>= next) := by
  intro s t hst
  show Alike R Eq (next s s) (next t t)
  rw [← same s t hst]
  exact h s s t hst

theorem modify {f : σ → σ} (h : ∀ s t, R s t → R (f s) (f t)) : Respects R (modify f : Act σ Unit) :=
  fun s t hst => .ok rfl (h s t hst)

/-- States that an action does not tell apart may be related more closely, as long as it keeps that. -/
theorem closer {S : σ → σ → Prop} {act : Act σ α} (h : Respects R act) (parts : ∀ s t, S s t → R s t)
    (kept : ∀ s t, S s t → R (state (act s)) (state (act t)) → S (state (act s)) (state (act t))) :
    Respects S act := by
  intro s t hst
  have alike := h s t (parts s t hst)
  have states := kept s t hst alike.states
  revert alike states
  generalize act s = r
  generalize act t = r'
  intro alike states
  cases alike with
  | ok values _ => exact .ok values states
  | error _ => exact .error states

/-- An action on a part of the state. -/
theorem on {S : τ → τ → Prop} {part : τ → σ} {put : σ → τ → τ} {act : Act σ α}
    (h : Respects R act) (parts : ∀ s t, S s t → R (part s) (part t))
    (puts : ∀ s t a b, S s t → R a b → S (put a s) (put b t)) : Respects S (Act.on part put act) := by
  intro s t hst
  have hr := h _ _ (parts s t hst)
  simp only [Act.on]
  revert hr
  generalize act (part s) = r
  generalize act (part t) = r'
  intro hr
  cases hr with
  | ok hv hab => exact .ok hv (puts _ _ _ _ hst hab)
  | error hab => exact .error (puts _ _ _ _ hst hab)

end Respects

/-- What is seen of the result of a run through a view of the state. -/
def seen (view : σ → ρ) : EStateM.Result Fault σ α → EStateM.Result Fault ρ α
  | .ok a s => .ok a (view s)
  | .error fault s => .error fault (view s)

@[simp] theorem outcome_seen (view : σ → ρ) (r : EStateM.Result Fault σ α) :
    outcome (seen view r) = outcome r := by
  cases r <;> rfl

@[simp] theorem state_seen (view : σ → ρ) (r : EStateM.Result Fault σ α) :
    state (seen view r) = view (state r) := by
  cases r <;> rfl

@[simp] theorem state_ofExcept (x : Except Fault α) (s : σ) : state (ofExcept x s) = s := by
  cases x <;> rfl

theorem seen_ofExcept (view : σ → ρ) (x : Except Fault α) (s : σ) :
    seen view (ofExcept x s) = ofExcept x (view s) := by
  cases x <;> rfl

theorem alike_of_seen_eq {view : σ → ρ} {r r' : EStateM.Result Fault σ α}
    (h : seen view r = seen view r') : Alike (fun s t => view s = view t) Eq r r' := by
  cases r <;> cases r' <;> simp only [seen, reduceCtorEq, EStateM.Result.ok.injEq,
    EStateM.Result.error.injEq] at h
  · exact .ok h.1 h.2
  · obtain ⟨rfl, h⟩ := h
    exact .error h

/-- A run that comes to a value gives it. -/
theorem eq_ok_of_outcome {r : EStateM.Result Fault σ α} {a : α} (h : outcome r = .ok a) :
    r = .ok a (state r) := by
  cases r with
  | ok b s => rw [outcome_ok, Except.ok.injEq] at h; rw [h, state_ok]
  | error fault s => cases h

/-- A run that comes to a fault fails with it. -/
theorem eq_error_of_outcome {r : EStateM.Result Fault σ α} {fault : Fault} (h : outcome r = .error fault) :
    r = .error fault (state r) := by
  cases r with
  | ok b s => cases h
  | error cause s => rw [outcome_error, Except.error.injEq] at h; rw [h, state_error]

/-- A sequence that gives a value is one of two actions that do. -/
theorem exists_of_bind_ok {act : Act σ α} {next : α → Act σ β} {b : β} {s t : σ}
    (h : (act >>= next) s = .ok b t) : ∃ a u, act s = .ok a u ∧ next a u = .ok b t := by
  simp only [Bind.bind, EStateM.bind] at h
  cases hact : act s with
  | ok a u =>
    rw [hact] at h
    exact ⟨a, u, rfl, h⟩
  | error fault u =>
    rw [hact] at h
    cases h

theorem exists_of_map_ok {f : α → β} {act : Act σ α} {b : β} {s t : σ} (h : (f <$> act) s = .ok b t) :
    ∃ a, act s = .ok a t ∧ b = f a := by
  have hbind : (act >>= fun a => Pure.pure (f a)) s = .ok b t := h
  obtain ⟨a, u, hact, hpure⟩ := exists_of_bind_ok hbind
  cases hpure
  exact ⟨a, hact, rfl⟩

section Answered

variable {act : Act σ α} {answer : α → β} {s t : σ}

/-- An action and its answer leave what the action leaves. -/
theorem state_answered : state ((act >>= fun a => Pure.pure (answer a)) s) = state (act s) := by
  simp only [Bind.bind, EStateM.bind]
  cases act s <;> rfl

theorem outcome_answered :
    outcome ((act >>= fun a => Pure.pure (answer a)) s) = (outcome (act s)).map answer := by
  simp only [Bind.bind, EStateM.bind]
  cases act s <;> rfl

/-- They fail as the action does. -/
theorem answered_error_iff {fault : Fault} :
    (act >>= fun a => Pure.pure (answer a)) s = .error fault t ↔ act s = .error fault t := by
  simp only [Bind.bind, EStateM.bind]
  cases act s with
  | error cause u => simp
  | ok a u =>
    constructor <;>
    · intro h
      cases h

/-- They succeed as the action does. -/
theorem answered_ok_iff {b : β} :
    (act >>= fun a => Pure.pure (answer a)) s = .ok b t ↔ ∃ a, act s = .ok a t ∧ answer a = b := by
  simp only [Bind.bind, EStateM.bind]
  cases act s with
  | error cause u =>
    constructor
    · intro h
      cases h
    · rintro ⟨_, h, -⟩
      cases h
  | ok a u =>
    constructor
    · intro h
      cases h
      exact ⟨a, rfl, rfl⟩
    · rintro ⟨_, h, rfl⟩
      cases h
      rfl

end Answered

/-- A result that is seen through a view is one with that view. -/
theorem exists_of_seen_ok {τ : Type} {view : σ → τ} {r : EStateM.Result Fault σ α} {a : α} {v : τ}
    (h : seen view r = .ok a v) : ∃ s, r = .ok a s ∧ view s = v := by
  cases r with
  | ok b s =>
    cases h
    exact ⟨s, rfl, rfl⟩
  | error fault s => cases h

theorem exists_of_seen_error {τ : Type} {view : σ → τ} {r : EStateM.Result Fault σ α} {fault : Fault}
    {v : τ} (h : seen view r = .error fault v) : ∃ s, r = .error fault s ∧ view s = v := by
  cases r with
  | ok b s => cases h
  | error cause s =>
    cases h
    exact ⟨s, rfl, rfl⟩

/-- An action whose results are seen to depend on a view of the state alone respects the view. -/
theorem Respects.of_view {view : σ → ρ} {act : Act σ α} {image : Act ρ α}
    (h : ∀ s, seen view (act s) = image (view s)) :
    Respects (fun s t => view s = view t) act := by
  intro s t hst
  refine alike_of_seen_eq ?_
  rw [h s, h t, hst]

/-- An action that does not see a change of the state, but keeps it, respects the relation of being so
changed. -/
theorem Respects.of_change {change : σ → σ} {act : Act σ α}
    (h : ∀ s, act (change s) = seen change (act s)) : Respects (fun s t => t = change s) act := by
  rintro s t rfl
  rw [h]
  cases act s with
  | ok a t => exact .ok rfl rfl
  | error fault t => exact .error rfl

theorem Respects.change {change : σ → σ} {act : Act σ α} (h : Respects (fun s t => t = change s) act) (s : σ) :
    act (change s) = seen change (act s) := by
  have alike := h s (change s) rfl
  revert alike
  generalize act s = r
  generalize act (change s) = r'
  intro alike
  cases alike with
  | ok values states => rw [seen, values, states]
  | error states => rw [seen, states]

end SimpleQuery.Act
