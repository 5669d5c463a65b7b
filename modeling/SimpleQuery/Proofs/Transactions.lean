import Mathlib.Data.List.Basic
import Mathlib.Data.List.Induction
import SimpleQuery.Proofs.Attempts
import SimpleQuery.Proofs.Frame

/-!
# Transactions are tracked

The flag of a session says what the backend was told last: it is off exactly if the last statement of
the session's own that succeeded was `begin`.

* `Tracked.Consistent` — the invariant. A session whose last success was `begin` cannot shake hands
  again: it is open, or its stream is closed.
* `Tracked.consistent_perform`, `Tracked.consistent_runAll` — every operation keeps it, and so does
  every run.
* `transactions_tracked` — what it says of the attempts of a run.
-/

set_option autoImplicit false

namespace SimpleQuery

namespace Attempt

/-- The statements that succeeded, in order. -/
def successes (attempts : List Attempt) : List Control :=
  (attempts.filter (·.succeeded)).map (·.statement)

/-- The last statement that succeeded, if one did. -/
def lastSuccess (attempts : List Attempt) : Option Control := (successes attempts).getLast?

/-- How an attempt has to fit those before it: the flag tells whether the last that succeeded was
`begin`, and `begin` is attempted exactly if it was not. -/
structure Fits (before : List Attempt) (attempt : Attempt) : Prop where
  flag : attempt.autocommit = false ↔ lastSuccess before = some .begin
  turn : attempt.statement = .begin ↔ lastSuccess before ≠ some .begin

/-- Each attempt fits those before it. -/
def InOrder (attempts : List Attempt) : Prop :=
  ∀ before attempt after, attempts = before ++ attempt :: after → attempt.Fits before

theorem successes_concat (attempts : List Attempt) (attempt : Attempt) :
    successes (attempts ++ [attempt]) =
      successes attempts ++ if attempt.succeeded then [attempt.statement] else [] := by
  unfold successes
  rw [List.filter_append, List.map_append]
  cases h : attempt.succeeded <;> simp [h]

theorem lastSuccess_failed {attempts : List Attempt} {attempt : Attempt}
    (h : attempt.succeeded = false) :
    lastSuccess (attempts ++ [attempt]) = lastSuccess attempts := by
  simp [lastSuccess, successes_concat, h]

theorem lastSuccess_succeeded {attempts : List Attempt} {attempt : Attempt}
    (h : attempt.succeeded = true) :
    lastSuccess (attempts ++ [attempt]) = some attempt.statement := by
  simp [lastSuccess, successes_concat, h]

theorem inOrder_nil : InOrder [] := by
  intro before attempt after h
  cases before <;> cases h

theorem inOrder_concat {attempts : List Attempt} {attempt : Attempt} (h : InOrder attempts)
    (hf : attempt.Fits attempts) : InOrder (attempts ++ [attempt]) := by
  intro before a after he
  rcases List.eq_nil_or_concat' after with rfl | ⟨rest, last, rfl⟩
  · obtain ⟨rfl, hlast⟩ := List.append_inj' he rfl
    cases hlast
    exact hf
  · refine h before a rest ?_
    have hsplit : attempts ++ [attempt] = (before ++ a :: rest) ++ [last] := by simpa using he
    exact (List.append_inj' hsplit rfl).1

theorem InOrder.of_append {attempts more : List Attempt} (h : InOrder (attempts ++ more)) :
    InOrder attempts := by
  intro before attempt after he
  refine h before attempt (after ++ more) ?_
  rw [he, List.append_assoc, List.cons_append]

/-- Statements that begin and statements that end take turns, and `begin` comes first. -/
def Alternate (statements : List Control) : Prop :=
  ∀ (k : Nat) (statement : Control), statements[k]? = some statement → (statement = .begin ↔ k % 2 = 0)

theorem Alternate.getLast? {statements : List Control} (h : Alternate statements) :
    statements.getLast? = some .begin ↔ statements.length % 2 = 1 := by
  rcases List.eq_nil_or_concat' statements with rfl | ⟨rest, last, rfl⟩
  · simp
  · have hlast := h rest.length last (by simp)
    simp only [List.getLast?_append, List.getLast?_singleton, Option.some_or, Option.some.injEq,
      List.length_append, List.length_singleton]
    rw [hlast]
    omega

/-- Where each attempt fits those before it, the successes take turns. -/
theorem alternate_successes {attempts : List Attempt} (h : InOrder attempts) :
    Alternate (successes attempts) := by
  induction attempts using List.reverseRecOn with
  | nil => intro k statement hk; simp [successes] at hk
  | append_singleton before attempt ih =>
    have hb := ih h.of_append
    have hfits := h before attempt [] rfl
    rw [successes_concat]
    split
    · intro k statement hk
      rcases Nat.lt_trichotomy k (successes before).length with hlt | rfl | hgt
      · rw [List.getElem?_append_left hlt] at hk
        exact hb k statement hk
      · rw [List.getElem?_concat_length, Option.some.injEq] at hk
        subst hk
        have hlast : lastSuccess before = some .begin ↔ (successes before).length % 2 = 1 := hb.getLast?
        rw [hfits.turn, Ne, hlast]
        omega
      · rw [List.getElem?_eq_none (by simp only [List.length_append, List.length_singleton]; omega)] at hk
        cases hk
    · rw [List.append_nil]
      exact hb

end Attempt

open Attempt (lastSuccess Fits InOrder)

/-! ## Moves of a session that attempt nothing -/

/-- Whether a session in this phase can shake hands no more: it is open, or its stream is closed. -/
def Phase.Settled : Phase → Prop
  | .fresh _ => False
  | .broken stream => stream.closed = true
  | .open _ => True

/-- A move that keeps the flag, and a settled session settled. -/
structure Session.Settles (a b : Session) : Prop where
  autocommit : b.autocommit = a.autocommit
  phase : a.phase.Settled → b.phase.Settled

namespace Session

theorem Settles.refl (a : Session) : a.Settles a := ⟨rfl, id⟩

theorem Settles.trans (a b c : Session) (h : a.Settles b) (h' : b.Settles c) : a.Settles c :=
  ⟨h'.autocommit.trans h.autocommit, fun ha => h'.phase (h.phase ha)⟩

theorem settles_onStream {α : Type} {act : Act Stream α}
    (h : ∀ s t fault, act s = .error fault t → fault.isLoss = true → t.closed = true) :
    Act.Moves Settles (onStream act) := by
  intro session
  unfold onStream
  cases session.phase with
  | fresh link | broken stream => exact Settles.refl session
  | «open» stream =>
    simp only
    cases hr : act stream with
    | ok a t => exact ⟨rfl, fun _ => trivial⟩
    | error fault t =>
      refine ⟨rfl, fun _ => ?_⟩
      simp only [Act.state_error]
      split
      · exact h stream t fault hr (by assumption)
      · trivial

theorem settles_query (statement : String) : Act.Moves Settles (query statement) :=
  Act.Moves.bind Settles.trans (Act.Moves.get Settles.refl) fun _ =>
    settles_onStream fun _ _ _ => closed_of_execute

theorem settles_close (session : Session) : session.Settles session.close := by
  unfold close
  cases session.phase with
  | fresh link => exact Settles.refl session
  | broken stream | «open» stream =>
    refine ⟨rfl, fun _ => ?_⟩
    show Stream.closed _ = true
    split
    · assumption
    · exact Stream.closed_close stream

theorem settles_feed (session : Session) (more : List Delivery) :
    session.Settles { session with phase := session.phase.mapLink (Link.feed more) } := by
  refine ⟨rfl, fun h => ?_⟩
  revert h
  cases session.phase <;> exact id

/-- An attempt at a statement leaves the session open if it succeeds. -/
theorem control_cases (statement : Control) (session : Session) :
    (∃ next s, control statement session = .ok () next ∧ next.autocommit = session.autocommit ∧
      next.phase = .open s) ∨
    ∃ fault next, control statement session = .error fault next ∧ session.Settles next := by
  have hs := settles_query statement.statement session
  cases hq : query statement.statement session with
  | error fault next =>
    rw [hq] at hs
    refine .inr ⟨fault, next, ?_, hs⟩
    simp only [control, bind, EStateM.bind, hq]
  | ok bundle next =>
    rw [hq] at hs
    have hopen : ∃ s, next.phase = .open s := by
      change onStream (execute session.handling statement.statement) session = .ok bundle next at hq
      unfold onStream at hq
      cases hp : session.phase with
      | fresh link | broken stream => rw [hp] at hq; cases hq
      | «open» stream =>
        rw [hp] at hq
        simp only at hq
        cases hr : execute session.handling statement.statement stream with
        | error fault t => rw [hr] at hq; cases hq
        | ok a t => rw [hr] at hq; cases hq; exact ⟨t, rfl⟩
    obtain ⟨s, hopen⟩ := hopen
    refine .inl ⟨next, s, ?_, hs.autocommit, hopen⟩
    simp only [control, bind, EStateM.bind, hq]
    rfl

theorem requireOpen_cases (session : Session) :
    (∃ s, session.phase = .open s ∧ requireOpen session = .ok () session) ∨
      requireOpen session = .error (.loss .notOpen) session := by
  unfold requireOpen onStream
  cases hp : session.phase with
  | fresh link | broken stream => exact .inr rfl
  | «open» stream =>
    refine .inl ⟨stream, rfl, ?_⟩
    show EStateM.Result.ok () { session with phase := .open stream } = .ok () session
    rw [← hp]

end Session

namespace Tracked

/-! ## The invariant -/

/-- The flag and the attempts of a session agree. -/
structure Consistent (t : Tracked Session) : Prop where
  flag : t.state.autocommit = false ↔ lastSuccess t.attempts = some .begin
  inOrder : InOrder t.attempts
  settled : lastSuccess t.attempts = some .begin → t.state.phase.Settled

theorem Consistent.fits {t : Tracked Session} (h : Consistent t) {statement : Control}
    (turn : statement = .begin ↔ t.state.autocommit = true) (succeeded : Bool) :
    Fits t.attempts ⟨statement, succeeded, t.state.autocommit⟩ where
  flag := h.flag
  turn := by
    show statement = .begin ↔ lastSuccess t.attempts ≠ some .begin
    rw [turn, Ne, ← h.flag, Bool.not_eq_false]

theorem Consistent.settles {t : Tracked Session} (h : Consistent t) {next : Session}
    (hs : t.state.Settles next) : Consistent { t with state := next } where
  flag := by
    show next.autocommit = false ↔ _
    rw [hs.autocommit]
    exact h.flag
  inOrder := h.inOrder
  settled hl := hs.phase (h.settled hl)

theorem Consistent.failed {t : Tracked Session} (h : Consistent t) {attempt : Attempt}
    (hf : attempt.succeeded = false) (fits : attempt.Fits t.attempts) :
    Consistent { t with attempts := t.attempts ++ [attempt] } where
  flag := by
    rw [Attempt.lastSuccess_failed hf]
    exact h.flag
  inOrder := Attempt.inOrder_concat h.inOrder fits
  settled hl := by
    rw [Attempt.lastSuccess_failed hf] at hl
    exact h.settled hl

/-- Once a statement succeeded and the flag was set, all agrees again. -/
theorem Consistent.succeeded {t : Tracked Session} (h : Consistent t) {attempt : Attempt}
    (hs : attempt.succeeded = true) (fits : attempt.Fits t.attempts) {next : Session}
    (flag : next.autocommit = false ↔ attempt.statement = .begin) (settled : next.phase.Settled) :
    Consistent ⟨next, t.attempts ++ [attempt]⟩ where
  flag := by
    rw [Attempt.lastSuccess_succeeded hs, Option.some.injEq]
    exact flag
  inOrder := Attempt.inOrder_concat h.inOrder fits
  settled _ := settled

theorem consistent_quiet {α : Type} {act : Act Session α} (ha : Act.Moves Session.Settles act)
    {t : Tracked Session} (h : Consistent t) : Consistent (Act.state (quiet act t)) := by
  have hs := ha t.state
  simp only [quiet, Act.on]
  split <;> rename_i hr <;> rw [hr] at hs <;> exact h.settles hs

/-! ## Switching -/

/-- A statement and the flag that goes with it. -/
def switch (statement : Control) (autocommit : Bool) : Act (Tracked Session) Unit := do
  control statement
  quiet (Session.noteAutocommit autocommit)

/-- A switch is done, or its statement failed. -/
theorem switch_cases {statement : Control} {autocommit : Bool}
    (hflag : autocommit = false ↔ statement = .begin) {t : Tracked Session} (h : Consistent t)
    (turn : statement = .begin ↔ t.state.autocommit = true) :
    (∃ next s, switch statement autocommit t = .ok () next ∧ Consistent next ∧
      next.state.autocommit = autocommit ∧ next.state.phase = .open s) ∨
    ∃ fault next, Session.control statement t.state = .error fault next ∧
      switch statement autocommit t =
        .error fault ⟨next, t.attempts ++ [⟨statement, false, t.state.autocommit⟩]⟩ ∧
      Consistent ⟨next, t.attempts ++ [⟨statement, false, t.state.autocommit⟩]⟩ := by
  rcases Session.control_cases statement t.state with ⟨next, s, hc, ha, hp⟩ | ⟨fault, next, hc, hs⟩
  · refine .inl ⟨⟨{ next with autocommit },
      t.attempts ++ [⟨statement, true, t.state.autocommit⟩]⟩, s, ?_, ?_, rfl, hp⟩
    · simp only [switch, control, attempt, bind, EStateM.bind, hc]
      rfl
    · refine h.succeeded rfl (h.fits turn true) hflag ?_
      show next.phase.Settled
      rw [hp]
      trivial
  · refine .inr ⟨fault, next, hc, ?_, (h.settles hs).failed rfl ?_⟩
    · simp only [switch, control, attempt, bind, EStateM.bind, hc]
    · exact h.fits turn false

theorem consistent_setAutocommit (autocommit : Bool) {t : Tracked Session} (h : Consistent t) :
    Consistent (Act.state (setAutocommit autocommit t)) := by
  rcases Session.requireOpen_cases t.state with ⟨s, hp, hr⟩ | hr
  · have hrun : setAutocommit autocommit t =
        (if t.state.autocommit != autocommit then
          switch (if autocommit then .end else .begin) autocommit
        else pure ()) t := by
      simp only [setAutocommit, quiet, Act.on, bind, EStateM.bind, hr]
      rfl
    rw [hrun]
    split
    · rename_i hne
      have hflag : autocommit = false ↔ (if autocommit then Control.end else .begin) = .begin := by
        cases autocommit <;> decide
      have turn : (if autocommit then Control.end else .begin) = .begin ↔
          t.state.autocommit = true := by
        revert hne
        cases autocommit <;> cases t.state.autocommit <;> decide
      rcases switch_cases hflag h turn with ⟨next, s, he, hc, -⟩ | ⟨fault, next, -, he, hc⟩
      · rw [he]
        exact hc
      · rw [he]
        exact hc
    · exact h
  · simp only [setAutocommit, quiet, Act.on, bind, EStateM.bind, hr, Act.state_error]
    exact h

/-- What ending a transaction comes to: both switches, or the first, or none. -/
theorem finish_of_open {verb : Control} {t : Tracked Session} {s : Stream}
    (hp : t.state.phase = .open s) (ha : t.state.autocommit = false) :
    finish verb t = (switch verb true >>= fun _ => switch .begin false) t := by
  rcases Session.requireOpen_cases t.state with ⟨s', hp', hr⟩ | hr
  · have hrun : finish verb t = (do
        control verb
        quiet (Session.noteAutocommit true)
        control .begin
        quiet (Session.noteAutocommit false) : Act (Tracked Session) Unit) t := by
      simp only [finish, quiet, Act.on, bind, EStateM.bind, hr, Act.get_eq, ha]
      rfl
    rw [hrun]
    simp only [switch, bind, EStateM.bind]
    cases control verb t with
    | error fault u => rfl
    | ok a u => rfl
  · unfold Session.requireOpen Session.onStream at hr
    rw [hp] at hr
    cases hr

theorem consistent_finish {verb : Control} (hv : verb ≠ .begin) {t : Tracked Session}
    (h : Consistent t) : Consistent (Act.state (finish verb t)) := by
  rcases Session.requireOpen_cases t.state with ⟨s, hp, hr⟩ | hr
  · cases ha : t.state.autocommit with
    | true =>
      simp only [finish, quiet, Act.on, bind, EStateM.bind, hr, Act.get_eq, ha]
      exact h
    | false =>
      rw [finish_of_open hp ha]
      simp only [bind, EStateM.bind]
      have turn : verb = .begin ↔ t.state.autocommit = true := by simp [hv, ha]
      have hflag : true = false ↔ verb = .begin := by simp [hv]
      rcases switch_cases hflag h turn with ⟨next, s, he, hc, hnext, -⟩ | ⟨fault, next, -, he, hc⟩
      · rw [he]
        obtain ⟨last, s, he, hc, -⟩ | ⟨fault, last, -, he, hc⟩ :=
          switch_cases (show false = false ↔ Control.begin = .begin by simp) hc (by simp [hnext])
        · simp only
          rw [he]
          exact hc
        · simp only
          rw [he]
          exact hc
      · rw [he]
        exact hc
  · simp only [finish, quiet, Act.on, bind, EStateM.bind, hr, Act.state_error]
    exact h

end Tracked

/-! ## Connecting -/

namespace Session

/-- On a closed stream no startup packet is sent, so the handshake fails before its first statement. -/
theorem startup_of_closed (settings : Settings) {s : Stream} (h : s.closed = true) :
    ∃ fault t, Startup.send settings s = .error fault t ∧ t.closed = true := by
  simp only [Startup.send, Stream.stageInteger, Stream.stagePadded, Stream.stage, bind, EStateM.bind]
  cases Text.encodeIn settings.encoding.charset settings.database with
  | error fault => exact ⟨_, _, rfl, h⟩
  | ok database =>
    cases Text.encodeIn settings.encoding.charset settings.user with
    | error fault => exact ⟨_, _, rfl, h⟩
    | ok user =>
      have hne : s.staged ++ Width.four.encode Startup.length ++ Width.four.encode Startup.code ++
          Stream.padded Startup.databaseWidth database ++ Stream.padded Startup.userWidth user ≠ [] := by
        simp [Width.encode, Width.bytes, BigEndian.encode]
      have hf := Stream.flush_of_closed (show Stream.staged ⟨s.link, s.charset, s.closed, s.unread, _⟩ ≠ []
        from hne) h
      simp only [Act.ofExcept, pure, EStateM.pure, hf]
      exact ⟨_, _, rfl, h⟩

theorem greet_of_ok {stream t : Stream} {session : Session}
    (h : handshake session.settings session.handling stream = .ok () t) :
    ∃ u, greet stream session = .ok () { session with
      phase := .open u, autocommit := session.settings.autocommit && session.autocommit } := by
  unfold greet
  rw [h]
  exact ⟨_, rfl⟩

theorem greet_of_error {stream t : Stream} {session : Session} {fault : Fault}
    (h : handshake session.settings session.handling stream = .error fault t) :
    ∃ cause u, greet stream session = .error cause { session with phase := .broken u } ∧
      (t.closed = true → u.closed = true) := by
  unfold greet
  rw [h]
  cases fault with
  | loss cause => exact ⟨_, _, rfl, fun _ => Stream.closed_close t⟩
  | refusal cause => exact ⟨_, _, rfl, fun _ => Stream.closed_close t⟩
  | _ => exact ⟨_, _, rfl, id⟩

end Session

namespace Tracked

/-- The attempts of a handshake: its `begin` is attempted last and only if it is wanted, and on a closed
stream nothing is. -/
theorem handshake_cases (settings : Settings) (handling : NoticeHandling) (autocommit : Bool)
    (stream : Stream) (attempts : List Attempt) :
    let shaken := (Act.state (handshake settings handling autocommit ⟨stream, attempts⟩)).attempts
    (∃ t, Session.handshake settings handling stream = .ok () t ∧ stream.closed = false ∧
      shaken = attempts ++ if settings.autocommit then [] else [⟨.begin, true, autocommit⟩]) ∨
    ∃ fault t, Session.handshake settings handling stream = .error fault t ∧
      (stream.closed = true → t.closed = true) ∧
      (shaken = attempts ∨ stream.closed = false ∧ shaken = attempts ++ [⟨.begin, false, autocommit⟩]) := by
  simp only [handshake, Session.handshake, quiet, Act.on, bind, EStateM.bind]
  cases hs : Startup.send settings stream with
  | error fault t =>
    refine .inr ⟨fault, t, rfl, fun hc => ?_, .inl rfl⟩
    obtain ⟨fault', t', he, hc'⟩ := Session.startup_of_closed settings hc
    rw [hs] at he
    cases he
    exact hc'
  | ok _ t =>
    have hopen : stream.closed = false := by
      cases hc : stream.closed with
      | false => rfl
      | true =>
        obtain ⟨fault', t', he, -⟩ := Session.startup_of_closed settings hc
        rw [hs] at he
        cases he
    simp only
    cases Session.execute handling Query.blank t with
    | error fault u => exact .inr ⟨fault, u, rfl, by simp [hopen], .inl rfl⟩
    | ok _ u =>
      cases settings.autocommit with
      | true => exact .inl ⟨u, rfl, hopen, (List.append_nil _).symm⟩
      | false =>
        simp only [attempt, Bool.not_false, if_true, EStateM.bind, Bool.false_eq_true, if_false]
        cases Session.execute handling Control.begin.statement u with
        | error fault v => exact .inr ⟨fault, v, rfl, by simp [hopen], .inr ⟨hopen, rfl⟩⟩
        | ok _ v => exact .inl ⟨v, rfl, hopen, rfl⟩

theorem consistent_greet {stream : Stream} {t : Tracked Session} (h : Consistent t)
    (hclosed : t.state.phase.Settled → stream.closed = true) :
    Consistent (Act.state (greet stream t)) := by
  have hfresh (ho : stream.closed = false) : t.state.autocommit = true := by
    cases ha : t.state.autocommit with
    | true => rfl
    | false =>
      have hs := hclosed (h.settled (h.flag.1 ha))
      rw [ho] at hs
      cases hs
  obtain ⟨u, hr, ho, ha⟩ | ⟨fault, u, hr, hu, ha⟩ :=
    handshake_cases t.state.settings t.state.handling t.state.autocommit stream t.attempts
  · obtain ⟨v, hg⟩ := Session.greet_of_ok hr
    simp only [greet, quiet, Act.on, hg, ha, Act.state_ok]
    have hflag := hfresh ho
    cases hset : t.state.settings.autocommit with
    | true =>
      simp only [if_true, List.append_nil, Bool.true_and]
      exact h.settles ⟨rfl, fun _ => trivial⟩
    | false =>
      refine h.succeeded rfl (h.fits ?_ true) ?_ trivial
      · simp [hflag]
      · simp
  · obtain ⟨cause, v, hg, hv⟩ := Session.greet_of_error hr
    simp only [greet, quiet, Act.on, hg, Act.state_error]
    have hs : t.state.Settles { t.state with phase := .broken v } :=
      ⟨rfl, fun hp => hv (hu (hclosed hp))⟩
    rcases ha with ha | ⟨ho, ha⟩
    · rw [ha]
      exact h.settles hs
    · rw [ha]
      refine (h.settles hs).failed rfl (h.fits ?_ false)
      simp [hfresh ho]

theorem consistent_connect {t : Tracked Session} (h : Consistent t) :
    Consistent (Act.state (connect t)) := by
  unfold connect
  cases hp : t.state.phase with
  | «open» stream => exact h
  | broken stream =>
    refine consistent_greet h fun hs => ?_
    rw [hp] at hs
    exact hs
  | fresh link =>
    have hnot (hs : t.state.phase.Settled) : False := by
      rw [hp] at hs
      exact hs
    simp only
    cases Session.dial t.state.settings (link.log (Session.connecting t.state.settings)) with
    | ok stream => exact consistent_greet h fun hs => (hnot hs).elim
    | error failure => exact h.settles ⟨rfl, fun hs => (hnot hs).elim⟩

/-! ## Runs -/

/-- Every operation keeps the flag and the attempts in agreement. -/
theorem consistent_perform (command : Session.Command) {t : Tracked Session} (h : Consistent t) :
    Consistent (Act.state (perform command t)) := by
  have done {act : Act (Tracked Session) Unit} (hc : Consistent (Act.state (act t))) :
      Consistent (Act.state ((act >>= fun _ => pure Answer.done : Act (Tracked Session) Answer) t)) := by
    rwa [Act.state_answered]
  cases command with
  | connect => exact done (consistent_connect h)
  | setAutocommit autocommit => exact done (consistent_setAutocommit autocommit h)
  | commit => exact done (consistent_finish (by decide) h)
  | rollback => exact done (consistent_finish (by decide) h)
  | query statement =>
    refine consistent_quiet (Act.Moves.bind Session.Settles.trans ?_ fun _ => ?_) h
    · exact Session.settles_query statement
    · exact Act.Moves.pure Session.Settles.refl _
  | close =>
    refine consistent_quiet ?_ h
    exact fun session => Session.settles_close session
  | feed more =>
    refine consistent_quiet ?_ h
    exact fun session => Session.settles_feed session more
  | setReadOnly | setCursorName =>
    refine consistent_quiet ?_ h
    exact fun _ => ⟨rfl, id⟩
  | isOpen | get | describe | setCatalog | clearWarnings | nativeStatement | setIsolation | metadata
  | prepareCall =>
    refine consistent_quiet ?_ h
    exact fun session => Session.Settles.refl session

mutual

theorem consistent_run (step : Session.Step) {t : Tracked Session} (h : Consistent t) :
    Consistent (run step t).2 := by
  match step with
  | .one command => exact consistent_perform command h
  | .block body => exact (consistent_runAll body h).settles (Session.settles_close _)

/-- Every run keeps the flag and the attempts in agreement. -/
theorem consistent_runAll (steps : List Session.Step) {t : Tracked Session} (h : Consistent t) :
    Consistent (runAll steps t).2 := by
  match steps with
  | [] => exact h
  | step :: rest => exact consistent_runAll rest (consistent_run step h)

end

/-! ## A verb that fails -/

/-- If the verb fails, ending the transaction comes to that failure and to no other attempt. -/
theorem finish_of_failed {verb : Control} {t : Tracked Session} {s : Stream} {fault : Fault}
    {next : Session} (hp : t.state.phase = .open s) (ha : t.state.autocommit = false)
    (hc : Session.control verb t.state = .error fault next) :
    finish verb t = .error fault ⟨next, t.attempts ++ [⟨verb, false, false⟩]⟩ := by
  rw [finish_of_open hp ha]
  simp only [switch, control, attempt, bind, EStateM.bind, hc, ha]

end Tracked

/-- The payloads of a verb that ends a transaction are none of them a query for `begin`. -/
theorem Stream.Asks.begin_notMem {s : Stream} {verb : Control} (hv : verb = .commit ∨ verb = .rollback)
    (usual : ∀ codec, s.charset ≠ .other codec) {payloads : List Bytes}
    (h : s.Asks verb.statement payloads) {bytes : Bytes} (hb : s.encode Control.begin.statement = .ok bytes) : Query.frame bytes ∉ payloads := by
  rcases h with rfl | ⟨verbBytes, count, he, rfl⟩
  · exact List.not_mem_nil
  · -- `begin` is shorter than either verb and longer than the empty statement, in all four charsets
    have lengths : bytes.length = 5 ∧ 6 ≤ verbBytes.length := by
      unfold Stream.encode Text.encodeIn at hb he
      cases hcs : s.charset with
      | malformed | unknown => rw [hcs] at hb; cases hb
      | other codec => exact absurd hcs (usual codec)
      | known cs =>
        rw [hcs] at hb he
        cases cs <;> obtain rfl | rfl := hv <;> cases hb <;> cases he <;> decide
    obtain ⟨hlb, hlv⟩ := lengths
    intro hmem
    rcases List.mem_cons.1 hmem with hm | hm
    · have hl := congrArg List.length hm
      simp only [Query.frame, List.length_append, List.length_cons, List.length_nil] at hl
      omega
    · have hl := congrArg List.length (List.eq_of_mem_replicate hm)
      simp only [Query.frame, Query.blankBytes, List.length_append, List.length_cons,
        List.length_nil] at hl
      omega

/-- **Transactions are tracked.** From a session that has issued no statement of its own, after every
run: the flag is off exactly if the last of the session's own statements that succeeded was `begin`; so
it was at each attempt, and `begin` was attempted exactly where the last success was not `begin`; the
successes take turns, and `begin` comes first. And where the run is followed by a `commit` or `rollback`
whose verb fails, that failure is all it comes to: nothing else is attempted, and no more is sent than the
verb's own query and flush queries, of which none is a query for `begin` unless some other codec than the
four charsets spells that as one of them. -/
theorem transactions_tracked (session : Session) (start : session.autocommit = true)
    (steps : List Session.Step) :
    let run := Tracked.runAll steps { state := session }
    let t := run.2
    (run.1, t.state) = Session.runAll steps session ∧
    (t.state.autocommit = false ↔ lastSuccess t.attempts = some .begin) ∧
    InOrder t.attempts ∧
    Attempt.Alternate (Attempt.successes t.attempts) ∧
    ∀ verb s fault next, verb = .commit ∨ verb = .rollback → t.state.phase = .open s →
      t.state.autocommit = false → Session.control verb t.state = .error fault next →
      Session.finish verb t.state = .error fault next ∧
      Tracked.finish verb t = .error fault ⟨next, t.attempts ++ [⟨verb, false, false⟩]⟩ ∧
      ∃ payloads, next.phase.link.sent = s.link.sent ++ payloads ∧ s.Asks verb.statement payloads ∧
        ((∀ codec, s.charset ≠ .other codec) →
          ∀ bytes, s.encode Control.begin.statement = .ok bytes → Query.frame bytes ∉ payloads) := by
  have initial : Tracked.Consistent { state := session } :=
    { flag := by simp [start, lastSuccess, Attempt.successes]
      inOrder := Attempt.inOrder_nil
      settled := fun h => by cases h }
  have h := Tracked.consistent_runAll steps initial
  refine ⟨Tracked.erase_runAll steps _, h.flag, h.inOrder, Attempt.alternate_successes h.inOrder, ?_⟩
  intro verb s fault next hv hp ha hc
  have hf := Tracked.finish_of_failed hp ha hc
  refine ⟨?_, hf, ?_⟩
  · rw [← Tracked.erases_finish verb, hf]
    rfl
  · obtain ⟨payloads, hsent, hasks⟩ := Session.sent_control verb hp
    rw [hc] at hsent
    exact ⟨payloads, hsent, hasks, fun usual bytes hb => hasks.begin_notMem hv usual hb⟩

/-- A session without autocommit connects, and the first `commit` is answered with an error. -/
theorem transactions_tracked_over_failed_commit :
    let acknowledgment : Bytes := [0x49, 0x00]
    let began : Bytes := [0x43, 0x42, 0x00]
    let failed : Bytes := [0x45, 0x21, 0x00]
    let session : Session :=
      { settings := { database := "d", user := "u", autocommit := false }
        phase := .fresh { incoming := [.bytes (acknowledgment ++ began ++ acknowledgment ++ failed)] } }
    let t := (Tracked.runAll [.one .connect, .one .commit] { state := session }).2
    session.autocommit = true ∧
      t.attempts = [⟨.begin, true, true⟩, ⟨.commit, false, false⟩] ∧
      t.state.autocommit = false := by
  intro acknowledgment began failed session t
  have attempts : t.attempts = [⟨.begin, true, true⟩, ⟨.commit, false, false⟩] := by decide +kernel
  refine ⟨rfl, attempts, (transactions_tracked session rfl [.one .connect, .one .commit]).2.1.2 ?_⟩
  change lastSuccess t.attempts = some .begin
  rw [attempts]
  rfl

end SimpleQuery
