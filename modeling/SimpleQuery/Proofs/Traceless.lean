import Mathlib.Data.List.InsertIdx
import SimpleQuery.Proofs.Faults
import SimpleQuery.Proofs.SideBySide
import SimpleQuery.Proofs.Startups

/-!
# Operations without a trace

Some operations are settled by the session alone: what it refuses before anything is staged, what asks for
the state that it is in, and what only concerns its advice to the caller. Leaving one out of a run changes
nothing that is seen of the others, but for what they read of the advice.

* `Session.Command.isTraceless` — which operations these are, in which sessions.
* `Session.butAdvice_traceless` — such an operation changes nothing but the advice.
* `Session.respects_perform_butAdvice` — no other operation sees the advice.
* `traceless_operations_can_be_left_out` — what this means for a run.
-/

set_option autoImplicit false

namespace SimpleQuery

open Act (Respects Alike)

/-! ## Statements that are not asked -/

/-- Whether a statement is refused before anything is staged for it: it is too long, or the charset cannot
spell it. -/
def Fault.isUnasked : Fault → Bool
  | .refusal (.statementTooLong _) | .unencodable => true
  | _ => false

namespace Stream

/-- Reading an answer gives no such fault. -/
theorem receiveAnswer_asked {handling : NoticeHandling} {s t : Stream} {fault : Fault}
    (h : receiveAnswer handling s = .error fault t) : fault.isUnasked = false := by
  unfold receiveAnswer Reader.read at h
  simp only [Bind.bind, EStateM.bind] at h
  cases hread : Reader.readFrom handling { stream := s } with
  | error cause r =>
    have reading := (Reader.assembly_reads handling).readFrom _ _ _ hread
    rw [hread] at h
    cases h
    cases fault with
    | refusal cause => cases cause <;> first | rfl | cases reading
    | unencodable => cases reading
    | _ => rfl
  | ok _ r =>
    rw [hread] at h
    simp only [Reader.finish] at h
    cases hresult : r.response.result with
    | ok bundle =>
      rw [hresult] at h
      cases h
    | error message =>
      rw [hresult] at h
      cases h
      rfl

/-- A statement that is refused in this way leaves the stream as it was. -/
theorem query_unasked {handling : NoticeHandling} {statement : String} {s t : Stream} {fault : Fault}
    (h : s.query handling statement = .error fault t) (unasked : fault.isUnasked = true) : t = s := by
  by_cases long : maxStatementLength < statement.length
  · rw [query_of_long long] at h
    cases h
    rfl
  rw [query_of_short (Nat.not_lt.1 long)] at h
  cases hencode : s.encode statement with
  | error cause =>
    rw [hencode] at h
    cases h
    rfl
  | ok bytes =>
    rw [hencode] at h
    simp only [Act.ofExcept, Pure.pure, EStateM.pure, Bind.bind, EStateM.bind] at h
    cases hsend : sendQuery bytes s with
    | error cause u =>
      have lost := @within_sendQuery Fault.isLoss (fun _ => rfl) bytes s cause u hsend
      rw [hsend] at h
      cases h
      cases fault with
      | loss cause => cases unasked
      | _ => cases lost
    | ok _ u =>
      rw [hsend] at h
      rw [receiveAnswer_asked h] at unasked
      cases unasked

end Stream

namespace Session

/-! ## Operations that the session settles alone -/

/-- Whether the session settles a command without its backend: a statement that is refused before anything
is staged, or a command that needs an open session, where the session is not open; switching autocommit to
what it is, and ending a transaction where none is kept open; connecting an open session; and what asks
the session for something, or changes its advice. -/
def Command.isTraceless (session : Session) : Command → Bool
  | .query statement =>
    !session.isOpen ||
      match Act.outcome (Session.query statement session) with
      | .ok _ => false
      | .error fault => fault.isUnasked
  | .setAutocommit autocommit => !session.isOpen || session.autocommit == autocommit
  | .commit | .rollback => !session.isOpen || session.autocommit
  | .connect => session.isOpen
  | .isOpen | .get _ | .setReadOnly _ | .setCursorName _ | .setCatalog | .setIsolation | .metadata
  | .prepareCall | .nativeStatement _ | .clearWarnings | .describe _ => true
  | .close | .feed _ => false

/-- Whether a command changes the advice to the caller. -/
def Command.setsAdvice : Command → Bool
  | .setReadOnly _ | .setCursorName _ => true
  | _ => false

/-- Whether a command reads it. -/
def Command.readsAdvice : Command → Bool
  | .get .readOnly | .get .cursorName => true
  | _ => false

/-- Sessions that are the same but for the advice. -/
structure ButAdvice (a b : Session) : Prop where
  settings : a.settings = b.settings
  handling : a.handling = b.handling
  phase : a.phase = b.phase
  autocommit : a.autocommit = b.autocommit

theorem ButAdvice.isOpen {a b : Session} (h : a.ButAdvice b) : a.isOpen = b.isOpen := by
  unfold Session.isOpen
  rw [h.phase]

/-- A statement that is refused before anything is staged leaves the session as it was. -/
theorem state_query_unasked {statement : String} {session : Session} {fault : Fault}
    (h : Act.outcome (query statement session) = .error fault) (unasked : fault.isUnasked = true) :
    Act.state (query statement session) = session := by
  have hquery : query statement session = onStream (execute session.handling statement) session := rfl
  cases hp : session.phase with
  | fresh link | broken s =>
    rw [hquery, onStream_of_not_open _ (by simp [Session.isOpen, hp])]
    rfl
  | «open» s =>
    rw [hquery, onStream_of_open _ hp] at h ⊢
    unfold execute at h ⊢
    cases hs : s.query session.handling statement with
    | ok bundle t =>
      rw [hs] at h
      cases h
    | error cause t =>
      rw [hs] at h
      cases cause with
      | loss cause =>
        cases h
        cases unasked
      | _ =>
        cases h
        obtain rfl := Stream.query_unasked hs unasked
        simp only [Fault.isLoss]
        show { session with phase := .open t } = session
        rw [← hp]

/-- What the session settles alone, but for what concerns its advice, changes nothing. -/
theorem state_settled {command : Command} {session : Session}
    (traceless : command.isTraceless session = true) (keeps : command.setsAdvice = false) :
    Act.state (perform command session) = session := by
  by_cases refused : command.needsOpen = true ∧ session.isOpen = false
  · rw [perform_of_not_open refused.2 refused.1]
    rfl
  -- What is left to show of a command that needs an open session, it does in one.
  have isOpen (needs : command.needsOpen = true) : session.isOpen = true := by
    cases h : session.isOpen with
    | true => rfl
    | false => exact absurd ⟨needs, h⟩ refused
  cases command with
  | query statement =>
    simp only [Command.isTraceless, isOpen rfl, Bool.not_true, Bool.false_or] at traceless
    cases houtcome : Act.outcome (query statement session) with
    | ok bundle =>
      rw [houtcome] at traceless
      cases traceless
    | error fault =>
      rw [houtcome] at traceless
      exact Act.state_answered.trans (state_query_unasked houtcome traceless)
  | setAutocommit autocommit =>
    simp only [Command.isTraceless, isOpen rfl, Bool.not_true, Bool.false_or, beq_iff_eq] at traceless
    simp only [perform, Session.setAutocommit, Bind.bind, EStateM.bind, requireOpen_of_isOpen (isOpen rfl),
      Act.get_eq, traceless, bne_self_eq_false]
    rfl
  | commit | rollback =>
    simp only [Command.isTraceless, isOpen rfl, Bool.not_true, Bool.false_or] at traceless
    simp only [perform, Session.commit, Session.rollback, Session.finish, Bind.bind, EStateM.bind,
      requireOpen_of_isOpen (isOpen rfl), Act.get_eq, traceless]
    rfl
  | connect =>
    obtain ⟨s, hp⟩ := open_of_isOpen (show session.isOpen = true from traceless)
    simp only [perform, Session.connect, Bind.bind, EStateM.bind, hp]
    rfl
  | setReadOnly _ | setCursorName _ => cases keeps
  | close | feed _ => cases traceless
  | _ => rfl

/-- What the session settles alone, it settles without any change but to its advice. -/
theorem butAdvice_traceless {command : Command} {session : Session}
    (traceless : command.isTraceless session = true) :
    session.ButAdvice (Act.state (perform command session)) := by
  cases keeps : command.setsAdvice with
  | false =>
    rw [state_settled traceless keeps]
    exact ⟨rfl, rfl, rfl, rfl⟩
  | true =>
    cases command with
    | setReadOnly _ | setCursorName _ => exact ⟨rfl, rfl, rfl, rfl⟩
    | _ => cases keeps

/-! ## Operations that do not see the advice -/

theorem respects_onStream_butAdvice {α : Type} (act : Act Stream α) :
    Respects ButAdvice (onStream act) := by
  intro a b hab
  unfold onStream
  rw [← hab.phase]
  cases a.phase with
  | fresh link | broken s => exact .error hab
  | «open» s =>
    dsimp only
    cases act s with
    | ok value t => exact .ok rfl ⟨hab.settings, hab.handling, rfl, hab.autocommit⟩
    | error fault t => exact .error ⟨hab.settings, hab.handling, rfl, hab.autocommit⟩

theorem unnoticed_butAdvice : Unnoticed ButAdvice where
  requireOpen := respects_onStream_butAdvice _
  execute _ _ := respects_onStream_butAdvice _
  noteAutocommit _ _ _ hab := .ok rfl ⟨hab.settings, hab.handling, hab.phase, rfl⟩
  handling _ _ hab := hab.handling
  autocommit _ _ hab := hab.autocommit

theorem alike_greet_butAdvice {a b : Session} (hab : a.ButAdvice b) (stream : Stream) :
    Alike ButAdvice Eq (greet stream a) (greet stream b) := by
  unfold greet
  rw [← hab.settings, ← hab.handling, ← hab.autocommit]
  cases handshake a.settings a.handling stream with
  | ok _ t => exact .ok rfl ⟨rfl, rfl, rfl, rfl⟩
  | error fault t => cases fault <;> exact .error ⟨rfl, rfl, rfl, rfl⟩

theorem respects_connect_butAdvice : Respects ButAdvice connect := by
  intro a b hab
  unfold connect
  rw [← hab.phase, ← hab.settings]
  cases a.phase with
  | «open» s => exact .ok rfl hab
  | broken s => exact alike_greet_butAdvice hab _
  | fresh link =>
    dsimp only
    cases dial a.settings (link.log (connecting a.settings)) with
    | ok stream => exact alike_greet_butAdvice hab stream
    | error failed => exact .error ⟨rfl, hab.handling, rfl, hab.autocommit⟩

theorem close_butAdvice {a b : Session} (hab : a.ButAdvice b) : a.close.ButAdvice b.close := by
  unfold Session.close
  rw [← hab.phase]
  cases a.phase with
  | fresh link => exact hab
  | broken s | «open» s => exact ⟨hab.settings, hab.handling, rfl, hab.autocommit⟩

/-- What sessions say of themselves is the same but for the advice. -/
theorem property_butAdvice {a b : Session} (hab : a.ButAdvice b) {name : Property}
    (other : (Command.get name).readsAdvice = false) : a.property name = b.property name := by
  cases name with
  | readOnly | cursorName => cases other
  | _ => simp only [property, hab.settings, hab.autocommit]

theorem describe_butAdvice {a b : Session} (hab : a.ButAdvice b) (id : String) :
    a.describe id = b.describe id := by
  unfold describe
  rw [hab.settings, hab.isOpen]

/-- No command sees the advice, but for those that read it. -/
theorem respects_perform_butAdvice {command : Command} (other : command.readsAdvice = false) :
    Respects ButAdvice (perform command) := by
  cases command with
  | connect => exact Respects.bind respects_connect_butAdvice fun _ => Respects.pure _
  | query statement => exact Respects.bind (unnoticed_butAdvice.query _) fun _ => Respects.pure _
  | setAutocommit autocommit =>
    exact Respects.bind (unnoticed_butAdvice.setAutocommit _) fun _ => Respects.pure _
  | commit | rollback => exact Respects.bind (unnoticed_butAdvice.finish _) fun _ => Respects.pure _
  | close =>
    exact Respects.bind (Respects.modify fun _ _ hab => close_butAdvice hab) fun _ => Respects.pure _
  | isOpen =>
    exact Respects.get_bind (fun a b hab => by rw [hab.isOpen]) fun _ => Respects.pure _
  | get name =>
    exact Respects.get_bind (fun a b hab => by rw [property_butAdvice hab other]) fun _ => Respects.pure _
  | setReadOnly readOnly | setCursorName name =>
    exact Respects.bind
      (Respects.modify fun _ _ hab => ⟨hab.settings, hab.handling, hab.phase, hab.autocommit⟩)
      fun _ => Respects.pure _
  | setCatalog | clearWarnings | nativeStatement => exact Respects.pure _
  | setIsolation | metadata | prepareCall => exact Respects.throw _
  | describe id =>
    have same (a b : Session) (hab : a.ButAdvice b) :
        (pure (.text (a.describe id)) : Act Session Answer) = pure (.text (b.describe id)) := by
      rw [describe_butAdvice hab]
    exact Respects.get_bind same fun _ => Respects.pure _
  | feed more =>
    refine Respects.bind (Respects.modify fun a b hab => ?_) fun _ => Respects.pure _
    exact ⟨hab.settings, hab.handling, congrArg (Phase.mapLink (Link.feed more)) hab.phase, hab.autocommit⟩

/-- Those that read it change nothing. -/
theorem state_of_readsAdvice {command : Command} (reads : command.readsAdvice = true) (session : Session) :
    Act.state (perform command session) = session := by
  cases command with
  | get name => rfl
  | _ => cases reads

theorem state_perform_butAdvice (command : Command) {a b : Session} (hab : a.ButAdvice b) :
    (Act.state (perform command a)).ButAdvice (Act.state (perform command b)) := by
  cases other : command.readsAdvice with
  | false => exact (respects_perform_butAdvice other a b hab).states
  | true =>
    rw [state_of_readsAdvice other, state_of_readsAdvice other]
    exact hab

/-! ## What is seen of a run -/

/-- What is seen of a command: what it comes to, and behind it all that was sent, how often bytes were
asked for, the notices that were handed over, and how the session stands. -/
structure Sight where
  command : Command
  outcome : Except Fault Answer
  sent : List Bytes
  receives : Nat
  notices : List String
  isOpen : Bool
  autocommit : Bool

/-- The same without what a command has read of the advice. -/
def Sight.unadvised (sight : Sight) : Sight :=
  if sight.command.readsAdvice then { sight with outcome := .ok .done } else sight

def sight (command : Command) (session : Session) : Sight :=
  let after := Act.state (perform command session)
  { command
    outcome := Act.outcome (perform command session)
    sent := after.phase.link.sent
    receives := after.phase.link.receives
    notices := after.phase.link.notices
    isOpen := after.isOpen
    autocommit := after.autocommit }

/-- What is seen of commands that are carried out in order. -/
def sights : List Command → Session → List Sight
  | [], _ => []
  | command :: rest, session => sight command session :: sights rest (Act.state (perform command session))

theorem length_sights (commands : List Command) (session : Session) :
    (sights commands session).length = commands.length := by
  induction commands generalizing session with
  | nil => rfl
  | cons command rest ih => simp [sights, ih]

theorem sights_append (before after : List Command) (session : Session) :
    sights (before ++ after) session = sights before session ++ sights after (follow before session) := by
  induction before generalizing session with
  | nil => rfl
  | cons command rest ih => simp only [List.cons_append, sights, follow, ih]

mutual

/-- What the commands of a step come to. Closing behind a block never fails. -/
def Outcome.leaves : Outcome → List (Except Fault Answer)
  | .one outcome => [outcome]
  | .block outcomes => leavesOf outcomes ++ [.ok .done]

/-- What the commands of a run come to. -/
def leavesOf : List Outcome → List (Except Fault Answer)
  | [] => []
  | outcome :: rest => outcome.leaves ++ leavesOf rest

end

mutual

theorem leaves_run (step : Step) (session : Session) :
    (run step session).1.leaves = (sights step.commands session).map Sight.outcome := by
  match step with
  | .one command => rfl
  | .block body =>
    simp only [run, Outcome.leaves, Step.commands]
    rw [sights_append, List.map_append, leaves_runAll body session]
    rfl

/-- What a run comes to is seen of its commands. -/
theorem leaves_runAll (steps : List Step) (session : Session) :
    leavesOf (runAll steps session).1 = (sights (commandsOf steps) session).map Sight.outcome := by
  match steps with
  | [] => rfl
  | step :: rest =>
    simp only [runAll, leavesOf, commandsOf]
    rw [sights_append, List.map_append, leaves_run step session, run_follow step session,
      leaves_runAll rest (follow step.commands session)]

end

/-- Of one command the same is seen, but for what it reads of the advice. -/
theorem sight_butAdvice (command : Command) {a b : Session} (hab : a.ButAdvice b) :
    (sight command a).unadvised = (sight command b).unadvised := by
  have states := state_perform_butAdvice command hab
  unfold Sight.unadvised sight
  simp only [states.phase, states.isOpen, states.autocommit]
  cases other : command.readsAdvice with
  | true => rfl
  | false =>
    rw [(respects_perform_butAdvice other a b hab).outcomes]

/-- And so it is of a run. -/
theorem sights_butAdvice (commands : List Command) {a b : Session} (hab : a.ButAdvice b) :
    (sights commands a).map Sight.unadvised = (sights commands b).map Sight.unadvised ∧
      (follow commands a).ButAdvice (follow commands b) := by
  induction commands generalizing a b with
  | nil => exact ⟨rfl, hab⟩
  | cons command rest ih =>
    obtain ⟨hsights, hfollow⟩ := ih (state_perform_butAdvice command hab)
    refine ⟨?_, hfollow⟩
    simp only [sights, List.map_cons, hsights, sight_butAdvice command hab]

/-- What is seen of a run without one of its commands. -/
theorem eraseIdx_sights (before after : List Command) (command : Command) (session : Session) :
    (sights (before ++ command :: after) session).eraseIdx before.length =
      sights before session ++
        sights after (Act.state (perform command (follow before session))) := by
  rw [sights_append, List.eraseIdx_append_of_length_le (Nat.le_of_eq (length_sights _ _)), length_sights,
    Nat.sub_self]
  rfl

end Session

open SimpleQuery.Session

/-- **Operations without a trace can be left out of a run.** Let one command of a run, in a block or not,
be such that the session settles it alone: a statement that is too long or cannot be spelled, a command
for open sessions where the session is not open, a switch of autocommit to what it is, an end of a
transaction with autocommit on, a connect of an open session, or a use of what the session keeps for
itself. It leaves the stream as it is, with all that waits on it and all that happened on its link, and
autocommit too. Without it, all other commands come to what they come to with it, and behind each of them
the same was sent, asked for and handed over, and the session stands alike; only what is read of the advice
may differ, and that only where the command was one that changes the advice. -/
theorem traceless_operations_can_be_left_out {steps shorter : List Step} {before after : List Command}
    {command : Command} (session : Session) (whole : commandsOf steps = before ++ command :: after)
    (rest : commandsOf shorter = before ++ after)
    (traceless : command.isTraceless (follow before session) = true) :
    let here := follow before session
    (sights (commandsOf shorter) session).map Sight.unadvised =
        ((sights (commandsOf steps) session).map Sight.unadvised).eraseIdx before.length ∧
    (command.setsAdvice = false →
      sights (commandsOf shorter) session =
        (sights (commandsOf steps) session).eraseIdx before.length) ∧
    (Act.state (perform command here)).phase = here.phase ∧
    (Act.state (perform command here)).autocommit = here.autocommit ∧
    (runAll shorter session).2.ButAdvice (runAll steps session).2 ∧
    leavesOf (runAll steps session).1 = (sights (commandsOf steps) session).map Sight.outcome ∧
    leavesOf (runAll shorter session).1 = (sights (commandsOf shorter) session).map Sight.outcome := by
  intro here
  have same : here.ButAdvice (Act.state (perform command here)) := butAdvice_traceless traceless
  obtain ⟨hsights, hfollow⟩ := sights_butAdvice after same
  refine ⟨?seen, ?exactly, same.phase.symm, same.autocommit.symm, ?ends, leaves_runAll steps session,
    leaves_runAll shorter session⟩
  case seen =>
    rw [whole, rest, List.eraseIdx_map, eraseIdx_sights, sights_append, List.map_append, List.map_append,
      hsights]
  case exactly =>
    intro keeps
    have unchanged : Act.state (perform command here) = here := state_settled traceless keeps
    rw [whole, rest, eraseIdx_sights, sights_append, unchanged]
  case ends =>
    rw [runAll_follow, runAll_follow, whole, rest, follow_append, follow_append]
    exact hfollow

/-- A statement that the charset cannot spell is left out of a block with another statement. -/
theorem unspelled_statement_is_left_out :
    let session : Session :=
      { settings := { database := "d", user := "u" }, handling := .collected,
        phase := .open
          { charset := .known .ascii, link := { incoming := [.bytes [0x43, 0x6F, 0, 0x49, 0]] } } }
    let before : List Command := [.setReadOnly true]
    let after : List Command := [.query "x", .close, .get .readOnly]
    let steps : List Step :=
      [.block [.one (.setReadOnly true), .one (.query "é"), .one (.query "x")], .one (.get .readOnly)]
    let shorter : List Step :=
      [.block [.one (.setReadOnly true), .one (.query "x")], .one (.get .readOnly)]
    commandsOf steps = before ++ .query "é" :: after ∧ commandsOf shorter = before ++ after ∧
      Command.isTraceless (follow before session) (.query "é") = true ∧
      leavesOf (runAll steps session).1 = [.ok .done, .error .unencodable,
        .ok (.bundle { status := some "o" }), .ok .done, .ok (.flag true)] ∧
      sights (commandsOf shorter) session = (sights (commandsOf steps) session).eraseIdx 1 := by
  intro session before after steps shorter
  have whole : commandsOf steps = before ++ .query "é" :: after := rfl
  have rest : commandsOf shorter = before ++ after := rfl
  have traceless : Command.isTraceless (follow before session) (.query "é") = true := by decide +kernel
  obtain ⟨-, exactly, -⟩ := traceless_operations_can_be_left_out session whole rest traceless
  exact ⟨whole, rest, traceless, by decide +kernel, exactly rfl⟩

end SimpleQuery
