import SimpleQuery.Proofs.Agreement
import SimpleQuery.Session.Command

/-!
# The statements that control transactions, on record

A session issues statements of its own: the first `begin` when it connects, and those of
`setAutocommit`, `commit` and `rollback`. A user may run the same texts as queries, so neither the link
nor the log tells the two apart. `Tracked` keeps a record of the session's own attempts beside the state
of the program, and each tracked action is the program's action with the attempts noted.

* `Tracked.erases_perform`, `Tracked.erase_runAll` — without the record, the tracked session is the
  session.
-/

set_option autoImplicit false

namespace SimpleQuery

/-- An attempt of a session at a statement that controls transactions. -/
structure Attempt where
  statement : Control
  /-- Whether the answer was read and was no error. -/
  succeeded : Bool
  /-- What the session's flag was when the statement was issued. -/
  autocommit : Bool
  deriving DecidableEq, Repr

/-- A state, and the attempts that were made on the way to it, the earliest first. -/
structure Tracked (σ : Type) where
  state : σ
  attempts : List Attempt := []

namespace Tracked

variable {σ α β : Type}

/-- An action that attempts none of the statements. -/
def quiet (act : Act σ α) : Act (Tracked σ) α :=
  Act.on Tracked.state (fun s t => { t with state := s }) act

/-- An action that is the attempt at a statement. -/
def attempt (statement : Control) (autocommit : σ → Bool) (act : Act σ α) : Act (Tracked σ) α := fun t =>
  match act t.state with
  | .ok a s => .ok a ⟨s, t.attempts ++ [⟨statement, true, autocommit t.state⟩]⟩
  | .error fault s => .error fault ⟨s, t.attempts ++ [⟨statement, false, autocommit t.state⟩]⟩

/-- `Session.handshake`, where `autocommit` is the session's flag. -/
def handshake (settings : Settings) (handling : NoticeHandling) (autocommit : Bool) :
    Act (Tracked Stream) Unit := do
  quiet (Startup.send settings)
  let _ ← quiet (Session.execute handling Query.blank)
  if !settings.autocommit then
    let _ ← attempt .begin (fun _ => autocommit) (Session.execute handling Control.begin.statement)

/-- `Session.greet` on a stream, with the attempts of its handshake. -/
def greet (stream : Stream) : Act (Tracked Session) Unit := fun t =>
  let shaken := handshake t.state.settings t.state.handling t.state.autocommit ⟨stream, t.attempts⟩
  quiet (Session.greet stream) { t with attempts := (Act.state shaken).attempts }

/-- `Session.connect`. -/
def connect : Act (Tracked Session) Unit := fun t =>
  match t.state.phase with
  | .open _ => .ok () t
  | .broken stream => greet (stream.log (Session.connecting t.state.settings)) t
  | .fresh link =>
    match Session.dial t.state.settings (link.log (Session.connecting t.state.settings)) with
    | .ok stream => greet stream t
    | .error (fault, link) => .error fault { t with state := { t.state with phase := .fresh link } }

/-- `Session.control`. -/
def control (statement : Control) : Act (Tracked Session) Unit :=
  attempt statement Session.autocommit (Session.control statement)

/-- `Session.setAutocommit`. -/
def setAutocommit (autocommit : Bool) : Act (Tracked Session) Unit := do
  quiet Session.requireOpen
  if (← get).state.autocommit != autocommit then
    control (if autocommit then .end else .begin)
    quiet (Session.noteAutocommit autocommit)

/-- `Session.finish`. -/
def finish (statement : Control) : Act (Tracked Session) Unit := do
  quiet Session.requireOpen
  if !(← get).state.autocommit then
    control statement
    quiet (Session.noteAutocommit true)
    control .begin
    quiet (Session.noteAutocommit false)

/-- `Session.perform`. A statement of the user is none of the session's own, whatever it says. -/
def perform : Session.Command → Act (Tracked Session) Answer
  | .connect => do connect; return .done
  | .setAutocommit autocommit => do setAutocommit autocommit; return .done
  | .commit => do finish .commit; return .done
  | .rollback => do finish .rollback; return .done
  | command => quiet (Session.perform command)

mutual

/-- `Session.run`. -/
def run : Session.Step → Tracked Session → Session.Outcome × Tracked Session
  | .one command, t =>
    let result := perform command t
    (.one (Act.outcome result), Act.state result)
  | .block body, t =>
    let (outcomes, t) := runAll body t
    (.block outcomes, { t with state := t.state.close })

/-- `Session.runAll`. -/
def runAll : List Session.Step → Tracked Session → List Session.Outcome × Tracked Session
  | [], t => ([], t)
  | step :: rest, t =>
    let (outcome, t) := run step t
    let (outcomes, t) := runAll rest t
    (outcome :: outcomes, t)

end

/-! ## Without the record -/

/-- Without the record, the tracked action is the action. -/
def Erases (tracked : Act (Tracked σ) α) (act : Act σ α) : Prop :=
  ∀ t, Act.seen Tracked.state (tracked t) = act t.state

theorem Erases.pure (a : α) : Erases (Pure.pure a : Act (Tracked σ) α) (Pure.pure a) := fun _ => rfl

theorem Erases.bind {tracked : Act (Tracked σ) α} {act : Act σ α} {next : α → Act (Tracked σ) β}
    {next' : α → Act σ β} (h : Erases tracked act) (hn : ∀ a, Erases (next a) (next' a)) :
    Erases (tracked >>= next) (act >>= next') := by
  intro t
  have ht := h t
  simp only [Bind.bind, EStateM.bind]
  rw [← ht]
  cases tracked t with
  | ok a u => exact hn a u
  | error fault u => rfl

theorem Erases.get_bind {next : Tracked σ → Act (Tracked σ) β} {next' : σ → Act σ β}
    (h : ∀ t, Erases (next t) (next' t.state)) :
    Erases (MonadState.get >>= next) (MonadState.get >>= next') := fun t => h t t

theorem erases_quiet (act : Act σ α) : Erases (quiet act) act := by
  intro t
  simp only [quiet, Act.on]
  cases act t.state <;> rfl

theorem erases_attempt (statement : Control) (autocommit : σ → Bool) (act : Act σ α) :
    Erases (attempt statement autocommit act) act := by
  intro t
  simp only [attempt]
  cases act t.state <;> rfl

theorem erases_greet (stream : Stream) : Erases (greet stream) (Session.greet stream) :=
  fun _ => erases_quiet _ _

theorem erases_connect : Erases connect Session.connect := by
  intro t
  unfold connect Session.connect
  cases t.state.phase with
  | «open» stream => rfl
  | broken stream => exact erases_greet _ t
  | fresh link =>
    simp only
    cases Session.dial t.state.settings (link.log (Session.connecting t.state.settings)) with
    | ok stream => exact erases_greet _ t
    | error failure => rfl

theorem erases_setAutocommit (autocommit : Bool) :
    Erases (setAutocommit autocommit) (Session.setAutocommit autocommit) := by
  refine Erases.bind (erases_quiet _) fun _ => Erases.get_bind fun t => ?_
  split
  · exact Erases.bind (erases_attempt _ _ _) fun _ => erases_quiet _
  · exact Erases.pure _

theorem erases_finish (statement : Control) : Erases (finish statement) (Session.finish statement) := by
  refine Erases.bind (erases_quiet _) fun _ => Erases.get_bind fun t => ?_
  split
  · exact Erases.bind (erases_attempt _ _ _) fun _ => Erases.bind (erases_quiet _) fun _ =>
      Erases.bind (erases_attempt _ _ _) fun _ => erases_quiet _
  · exact Erases.pure _

theorem erases_perform (command : Session.Command) : Erases (perform command) (Session.perform command) := by
  cases command with
  | connect => exact Erases.bind erases_connect fun _ => Erases.pure _
  | setAutocommit autocommit => exact Erases.bind (erases_setAutocommit _) fun _ => Erases.pure _
  | commit | rollback => exact Erases.bind (erases_finish _) fun _ => Erases.pure _
  | _ => exact erases_quiet _

mutual

theorem erase_run (step : Session.Step) (t : Tracked Session) :
    ((run step t).1, (run step t).2.state) = Session.run step t.state := by
  match step with
  | .one command =>
    simp only [run, Session.run]
    rw [← erases_perform command t]
    cases perform command t <;> rfl
  | .block body =>
    have hb := erase_runAll body t
    simp only [run, Session.run]
    rw [← hb]

/-- Without the record, a tracked run is the run. -/
theorem erase_runAll (steps : List Session.Step) (t : Tracked Session) :
    ((runAll steps t).1, (runAll steps t).2.state) = Session.runAll steps t.state := by
  match steps with
  | [] => rfl
  | step :: rest =>
    have hs := erase_run step t
    have hr := erase_runAll rest (run step t).2
    simp only [runAll, Session.runAll]
    rw [← hs, ← hr]

end

end Tracked

end SimpleQuery
