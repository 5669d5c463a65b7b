import SimpleQuery.Proofs.Agreement
import SimpleQuery.Proofs.Assembly

/-!
# Loops and their passes

A loop is told by what one pass of it does. It comes to an end where each pass that another one follows makes
some measure smaller, and what all passes have, whether they succeed or fail, the whole loop has.

* `Act.Loops` — what the passes of a loop come to, and how many there are.
* `Act.IsLoop` — an action is a loop that a measure brings to its end.
* `Act.Turns` — where runs lead that succeed, and where those that fail.
* `Act.IsLoop.turns` — what all passes have, the whole loop has, by induction on their number.
-/

set_option autoImplicit false

namespace SimpleQuery

namespace Act

variable {σ δ α : Type}

/-- How a pass of a loop ends: with what the next pass starts from, or with what the loop gives. -/
inductive Pass (δ α : Type) where
  | again (carried : δ)
  | done (value : α)
  deriving DecidableEq, Repr

/-- What a loop comes to when its passes are made one after another, and how many passes there are in front of
the last one, which is done or fails. -/
inductive Loops (pass : δ → Act σ (Pass δ α)) : Nat → δ → σ → EStateM.Result Fault σ α → Prop where
  | done {carried : δ} {s t : σ} {value : α} (last : pass carried s = .ok (.done value) t) :
      Loops pass 0 carried s (.ok value t)
  | fault {carried : δ} {s t : σ} {fault : Fault} (last : pass carried s = .error fault t) :
      Loops pass 0 carried s (.error fault t)
  | again {carried next : δ} {s t : σ} {count : Nat} {result : EStateM.Result Fault σ α}
      (here : pass carried s = .ok (.again next) t) (rest : Loops pass count next t result) :
      Loops pass (count + 1) carried s result

/-- The passes come to one result, and their number is one. -/
theorem Loops.unique {pass : δ → Act σ (Pass δ α)} {count count' : Nat} {carried : δ} {s : σ}
    {result result' : EStateM.Result Fault σ α} (h : Loops pass count carried s result)
    (h' : Loops pass count' carried s result') : count = count' ∧ result = result' := by
  induction h generalizing count' with
  | done last =>
    cases h' with
    | done last' =>
      rw [last] at last'
      cases last'
      exact ⟨rfl, rfl⟩
    | fault other | again other =>
      rw [last] at other
      cases other
  | fault last =>
    cases h' with
    | fault last' =>
      rw [last] at last'
      cases last'
      exact ⟨rfl, rfl⟩
    | done other | again other =>
      rw [last] at other
      cases other
  | again here _ ih =>
    cases h' with
    | done other | fault other =>
      rw [here] at other
      cases other
    | again here' rest' =>
      rw [here] at here'
      cases here'
      obtain ⟨rfl, rfl⟩ := ih rest'
      exact ⟨rfl, rfl⟩

/-- An action is what the passes of a loop come to, and nothing else. Each pass that another one follows makes
the measure smaller, so that there are no more of these than it is large. -/
structure IsLoop (pass : δ → Act σ (Pass δ α)) (measure : σ → Nat) (act : δ → Act σ α) : Prop where
  lowers : ∀ carried next s t, pass carried s = .ok (.again next) t → measure t < measure s
  comes : ∀ carried s, ∃ count ≤ measure s, ∀ number result,
    Loops pass number carried s result ↔ number = count ∧ result = act carried s

/-- What follows a pass. -/
def Pass.follow (act : δ → Act σ α) : Pass δ α → Act σ α
  | .again next => act next
  | .done value => pure value

section

variable {pass : δ → Act σ (Pass δ α)} {measure : σ → Nat} {act : δ → Act σ α}

/-- If the measure is made smaller, an action that makes one pass, and then gives its value or goes on as itself,
is what passes come to. -/
theorem exists_loops (unfold : ∀ carried s, act carried s = (pass carried >>= Pass.follow act) s)
    (lowers : ∀ carried next s t, pass carried s = .ok (.again next) t → measure t < measure s)
    (carried : δ) (s : σ) : ∃ count ≤ measure s, Loops pass count carried s (act carried s) := by
  induction hm : measure s using Nat.strongRecOn generalizing carried s with
  | ind _ ih =>
    rw [unfold]
    simp only [bind, EStateM.bind]
    cases hp : pass carried s with
    | error fault t => exact ⟨0, Nat.zero_le _, .fault hp⟩
    | ok ended t =>
      cases ended with
      | done value => exact ⟨0, Nat.zero_le _, .done hp⟩
      | again next =>
        have smaller := lowers carried next s t hp
        rw [hm] at smaller
        obtain ⟨count, few, loops⟩ := ih _ smaller next t rfl
        exact ⟨count + 1, Nat.lt_of_le_of_lt few smaller, .again hp loops⟩

theorem IsLoop.of_unfold (unfold : ∀ carried s, act carried s = (pass carried >>= Pass.follow act) s)
    (lowers : ∀ carried next s t, pass carried s = .ok (.again next) t → measure t < measure s) :
    IsLoop pass measure act where
  lowers := lowers
  comes carried s := by
    obtain ⟨count, few, loops⟩ := exists_loops unfold lowers carried s
    refine ⟨count, few, fun number result => ⟨fun other => other.unique loops, ?_⟩⟩
    rintro ⟨rfl, rfl⟩
    exact loops

end

/-! ## Runs that succeed and runs that fail -/

/-- What a run from `s` comes to: if it succeeds, a state behind `s` in the first relation, and if it fails, one
behind `s` in the second. -/
def Ended (went failed : σ → σ → Prop) (s : σ) : EStateM.Result Fault σ α → Prop
  | .ok _ t => went s t
  | .error _ t => failed s t

/-- Every run that succeeds moves the state along the first relation, and every one that fails along the
second. -/
def Turns (went failed : σ → σ → Prop) (act : Act σ α) : Prop := ∀ s, Ended went failed s (act s)

/-- Two relations along which runs can be put together: those that succeed come first. -/
structure Turning (went failed : σ → σ → Prop) : Prop where
  refl : ∀ s, went s s
  trans : ∀ s t u, went s t → went t u → went s u
  stuck : ∀ s, failed s s
  later : ∀ s t u, went s t → failed t u → failed s u

namespace Turning

variable {went failed : σ → σ → Prop}

theorem after (h : Turning went failed) {s t : σ} {result : EStateM.Result Fault σ α} (first : went s t)
    (rest : Ended went failed t result) : Ended went failed s result := by
  cases result with
  | ok a u => exact h.trans s t u first rest
  | error fault u => exact h.later s t u first rest

theorem throw (h : Turning went failed) (fault : Fault) : Turns went failed (throw fault : Act σ α) :=
  h.stuck

theorem ofExcept (h : Turning went failed) (x : Except Fault α) : Turns went failed (Act.ofExcept x) := by
  cases x with
  | ok a => exact h.refl
  | error fault => exact h.stuck

theorem sequencing (h : Turning went failed) :
    Sequencing fun {α : Type} (act : Act σ α) => Turns went failed act where
  pure _ := h.refl
  violate _ := h.stuck
  bind {α β act next} ha hn := by
    intro s
    have first := ha s
    simp only [Bind.bind, EStateM.bind]
    cases hact : act s with
    | ok a t =>
      rw [hact] at first
      exact h.after first (hn a t)
    | error fault t =>
      rw [hact] at first
      exact first

end Turning

section

variable {went failed : σ → σ → Prop} {pass : δ → Act σ (Pass δ α)}

/-- What all passes have is had by what they come to. -/
theorem Loops.ended {count : Nat} {carried : δ} {s : σ} {result : EStateM.Result Fault σ α}
    (loops : Loops pass count carried s result) (h : Turning went failed)
    (passes : ∀ carried, Turns went failed (pass carried)) : Ended went failed s result := by
  induction loops with
  | @done carried s _ _ last | @fault carried s _ _ last =>
    have only := passes carried s
    rwa [last] at only
  | @again carried next s t count result here _ ih =>
    have first := passes carried s
    rw [here] at first
    exact h.after first ih

/-- What all passes of a loop have, the loop has. -/
theorem IsLoop.turns {measure : σ → Nat} {act : δ → Act σ α} (loop : IsLoop pass measure act)
    (h : Turning went failed) (passes : ∀ carried, Turns went failed (pass carried)) (carried : δ) :
    Turns went failed (act carried) := by
  intro s
  obtain ⟨count, -, comes⟩ := loop.comes carried s
  exact ((comes count _).2 ⟨rfl, rfl⟩).ended h passes

end

end Act

end SimpleQuery
