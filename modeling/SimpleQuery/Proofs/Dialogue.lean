import SimpleQuery.Proofs.Exchange
import SimpleQuery.Proofs.Finality
import SimpleQuery.Session.Command

/-!
# Sessions as dialogues

What a session and a backend do together, without bytes and without waiting: each statement is asked
together with its flush queries, and the answer is the machine's. A session that is loaded with what a
backend says to exactly the statements that the dialogue asks does what the dialogue does; loaded with
what the backend says to fewer, it runs dry after it asked more than was answered.

* `Dialogue` — the dialogue, with the operations of a session on it.
* `Dialogue.Along` — a relation along which a dialogue moves; what was asked stays asked, and has no zero
  bytes.
* `Dialogue.Follows` — an action of a session follows an action of a dialogue, in both respects.
* `Dialogue.full_runAll`, `Dialogue.short_runAll` — whole runs follow.
-/

set_option autoImplicit false

namespace SimpleQuery

/-- What is asked of a session that is open. -/
inductive Request where
  | query (statement : String)
  | setAutocommit (autocommit : Bool)
  | commit
  | rollback
  deriving DecidableEq, Repr

/-- The request as an operation of the session. -/
def Request.command : Request → Session.Command
  | .query statement => .query statement
  | .setAutocommit autocommit => .setAutocommit autocommit
  | .commit => .commit
  | .rollback => .rollback

/-- The statement with which the request ends a transaction, if it does. -/
def Request.verb? : Request → Option Control
  | .commit => some .commit
  | .rollback => some .rollback
  | .query _ | .setAutocommit _ => none

/-- The statement of the request, if it brings one, is spelled without zero bytes. -/
def Request.Plain (cs : Charset) : Request → Prop
  | .query statement => ∀ text, cs.encode? statement = some text → 0 ∉ text
  | .setAutocommit _ | .commit | .rollback => True

/-- The requests as steps of a run. -/
def Request.steps (requests : List Request) : List Session.Step :=
  requests.map fun request => .one request.command

/-- What was asked so far, and whether no transaction is kept open. -/
structure Dialogue where
  /-- The statements of all queries, flush queries among them, the earliest first. -/
  asked : List Bytes := []
  autocommit : Bool
  deriving DecidableEq, Repr

namespace Dialogue

section Operations

variable (cs : Charset) (b : Backend)

/-- Asks a statement and, for each status without rows in its answer, a flush query. -/
def execute (statement : String) : Act Dialogue Bundle := fun d =>
  if maxStatementLength < statement.length then
    .error (.refusal (.statementTooLong statement.length)) d
  else
    match cs.encode? statement with
    | none => .error .unencodable d
    | some text =>
      let answer := b.answer d.asked.length text
      Act.ofExcept answer.verdict
        { d with asked := d.asked ++ text :: List.replicate answer.flushes Query.blankBytes }

def control (statement : Control) : Act Dialogue Unit := do
  let _ ← execute cs b statement.statement

def noteAutocommit (autocommit : Bool) : Act Dialogue Unit := fun d => .ok () { d with autocommit }

/-- Switches autocommit: off begins a transaction, and on ends it. -/
def setAutocommit (autocommit : Bool) : Act Dialogue Unit := do
  if (← get).autocommit != autocommit then
    control cs b (if autocommit then .end else .begin)
    noteAutocommit autocommit

/-- Ends the transaction and begins the next. With autocommit there is none to end. -/
def finish (statement : Control) : Act Dialogue Unit := do
  if !(← get).autocommit then
    control cs b statement
    noteAutocommit true
    control cs b .begin
    noteAutocommit false

def perform : Request → Act Dialogue Answer
  | .query statement => do return .bundle (← execute cs b statement)
  | .setAutocommit autocommit => do setAutocommit cs b autocommit; return .done
  | .commit => do finish cs b .commit; return .done
  | .rollback => do finish cs b .rollback; return .done

/-- Carries out requests in order; one that fails does not stop those after it. -/
def runAll : List Request → Dialogue → List (Except Fault Answer) × Dialogue
  | [], d => ([], d)
  | request :: rest, d =>
    let result := perform cs b request d
    let (outcomes, d) := runAll rest (Act.state result)
    (Act.outcome result :: outcomes, d)

theorem runAll_append (first rest : List Request) (d : Dialogue) :
    runAll cs b (first ++ rest) d =
      ((runAll cs b first d).1 ++ (runAll cs b rest (runAll cs b first d).2).1,
        (runAll cs b rest (runAll cs b first d).2).2) := by
  induction first generalizing d with
  | nil => rfl
  | cons request first ih => simp only [List.cons_append, runAll, ih]

end Operations

/-! ## What is asked -/

section Asking

variable {cs : Charset} {b : Backend} {r : Dialogue → Dialogue → Prop} {α β : Type}

/-- A relation along which a dialogue moves whatever it does by itself. -/
structure Along (cs : Charset) (b : Backend) (r : Dialogue → Dialogue → Prop) : Prop where
  refl : ∀ d, r d d
  trans : ∀ d e f, r d e → r e f → r d f
  note : ∀ autocommit, Act.Moves r (noteAutocommit autocommit)
  control : ∀ statement : Control, Act.Moves r (execute cs b statement.statement)

namespace Along

theorem pure (h : Along cs b r) (a : α) : Act.Moves r (Pure.pure a : Act Dialogue α) :=
  Act.Moves.pure h.refl a

theorem bind (h : Along cs b r) {act : Act Dialogue α} {next : α → Act Dialogue β}
    (ha : Act.Moves r act) (hn : ∀ a, Act.Moves r (next a)) : Act.Moves r (act >>= next) :=
  Act.Moves.bind h.trans ha hn

theorem controls (h : Along cs b r) (statement : Control) :
    Act.Moves r (Dialogue.control cs b statement) :=
  h.bind (h.control statement) fun _ => h.pure _

theorem setAutocommit (h : Along cs b r) (autocommit : Bool) :
    Act.Moves r (setAutocommit cs b autocommit) := by
  apply h.bind (Act.Moves.get h.refl)
  intro d
  split
  · exact h.bind (h.controls _) fun _ => h.note _
  · exact h.pure _

/-- What is done about the next transaction once one has ended. -/
theorem begins (h : Along cs b r) :
    Act.Moves r (noteAutocommit true >>= fun _ =>
      Dialogue.control cs b .begin >>= fun _ => noteAutocommit false) :=
  h.bind (h.note _) fun _ => h.bind (h.controls _) fun _ => h.note _

theorem finish (h : Along cs b r) (statement : Control) : Act.Moves r (finish cs b statement) := by
  apply h.bind (Act.Moves.get h.refl)
  intro d
  split
  · exact h.bind (h.controls _) fun _ => h.begins
  · exact h.pure _

theorem perform (h : Along cs b r) {request : Request}
    (hq : ∀ statement, request = .query statement → Act.Moves r (execute cs b statement)) :
    Act.Moves r (perform cs b request) := by
  cases request with
  | query statement => exact h.bind (hq statement rfl) fun _ => h.pure _
  | setAutocommit autocommit => exact h.bind (h.setAutocommit autocommit) fun _ => h.pure _
  | commit => exact h.bind (h.finish .commit) fun _ => h.pure _
  | rollback => exact h.bind (h.finish .rollback) fun _ => h.pure _

theorem runAll (h : Along cs b r) {requests : List Request}
    (hq : ∀ statement, .query statement ∈ requests → Act.Moves r (execute cs b statement))
    (d : Dialogue) : r d (runAll cs b requests d).2 := by
  induction requests generalizing d with
  | nil => exact h.refl d
  | cons request rest ih =>
    have hfirst : Act.Moves r (Dialogue.perform cs b request) := by
      apply h.perform
      rintro statement rfl
      exact hq statement List.mem_cons_self
    exact h.trans _ _ _ (hfirst d) (ih (fun s hs => hq s (List.mem_cons_of_mem _ hs)) _)

end Along

theorem execute_of_long {statement : String} (hl : maxStatementLength < statement.length)
    (d : Dialogue) :
    execute cs b statement d = .error (.refusal (.statementTooLong statement.length)) d := by
  simp only [execute, if_pos hl]

theorem execute_of_unencodable {statement : String} (hl : statement.length ≤ maxStatementLength)
    (he : cs.encode? statement = none) (d : Dialogue) :
    execute cs b statement d = .error .unencodable d := by
  simp only [execute, if_neg (Nat.not_lt.2 hl), he]

theorem execute_of_text {statement : String} (hl : statement.length ≤ maxStatementLength) {text : Bytes}
    (he : cs.encode? statement = some text) (d : Dialogue) :
    execute cs b statement d = Act.ofExcept (b.answer d.asked.length text).verdict
      { d with asked := d.asked ++
          text :: List.replicate (b.answer d.asked.length text).flushes Query.blankBytes } := by
  simp only [execute, if_neg (Nat.not_lt.2 hl), he]

/-- What a statement adds to what is asked. -/
theorem asked_execute (cs : Charset) (b : Backend) (statement : String) (d : Dialogue) :
    (Act.state (execute cs b statement d)).asked = d.asked ∨
      ∃ text, cs.encode? statement = some text ∧
        (Act.state (execute cs b statement d)).asked = d.asked ++
          text :: List.replicate (b.answer d.asked.length text).flushes Query.blankBytes := by
  by_cases hl : maxStatementLength < statement.length
  · left
    rw [execute_of_long hl, Act.state_error]
  have hshort := Nat.not_lt.1 hl
  cases he : cs.encode? statement with
  | none =>
    left
    rw [execute_of_unencodable hshort he, Act.state_error]
  | some text =>
    right
    refine ⟨text, rfl, ?_⟩
    rw [execute_of_text hshort he, Act.state_ofExcept]

/-- What was asked stays asked. -/
def Grows (d e : Dialogue) : Prop := d.asked <+: e.asked

theorem grows_execute (statement : String) : Act.Moves Grows (execute cs b statement) := by
  intro d
  unfold Grows
  rcases asked_execute cs b statement d with h | ⟨text, -, h⟩
  · simp only [h, List.prefix_refl]
  · rw [h]
    exact List.prefix_append _ _

theorem along_grows (cs : Charset) (b : Backend) : Along cs b Grows where
  refl d := List.prefix_refl d.asked
  trans _ _ _ := List.IsPrefix.trans
  note _ d := List.prefix_refl d.asked
  control statement := grows_execute statement.statement

/-- What was asked in two stages is what was asked in the first and then in the second. -/
theorem Grows.split {d e f : Dialogue} {new : List Bytes} (h : Grows d e) (h' : Grows e f)
    (hasked : f.asked = d.asked ++ new) :
    ∃ first second, e.asked = d.asked ++ first ∧ f.asked = e.asked ++ second ∧ first ++ second = new := by
  obtain ⟨first, hfirst⟩ := h
  obtain ⟨second, hsecond⟩ := h'
  refine ⟨first, second, hfirst.symm, hsecond.symm, ?_⟩
  rw [← hfirst, List.append_assoc] at hsecond
  exact List.append_cancel_left (hsecond.trans hasked)

/-- Where something asked lies, if it comes after something that is answered. -/
theorem locate {first second answered more : List Bytes} {ask : Bytes}
    (h : first ++ second = answered ++ ask :: more) :
    (∃ rest, answered = first ++ rest ∧ second = rest ++ ask :: more) ∨
      ∃ rest, first = answered ++ ask :: rest := by
  rcases List.append_eq_append_iff.1 h with ⟨rest, hanswered, hsecond⟩ | ⟨rest, hfirst, hrest⟩
  · exact .inl ⟨rest, hanswered, hsecond⟩
  · cases rest with
    | nil => exact .inl ⟨[], by simpa using hfirst.symm, by simpa using hrest.symm⟩
    | cons ask' rest =>
      obtain ⟨rfl, -⟩ := List.cons.inj hrest
      exact .inr ⟨rest, hfirst⟩

theorem prefix_runAll (requests : List Request) (d : Dialogue) :
    d.asked <+: (runAll cs b requests d).2.asked :=
  (along_grows cs b).runAll (fun statement _ => grows_execute statement) d

theorem prefix_bind {act : Act Dialogue α} {next : α → Act Dialogue β}
    (hn : ∀ a, Act.Moves Grows (next a)) (d : Dialogue) :
    (Act.state (act d)).asked <+: (Act.state ((act >>= next) d)).asked := by
  simp only [Bind.bind, EStateM.bind]
  cases act d with
  | ok a e => exact hn a e
  | error fault e => exact List.prefix_refl _

/-- With a transaction open, what ends it is asked before all else. -/
theorem prefix_verb {request : Request} {verb : Control} (hv : request.verb? = some verb) {d : Dialogue}
    (hoff : d.autocommit = false) :
    (Act.state (control cs b verb d)).asked <+: (Act.state (perform cs b request d)).asked := by
  have hfinish : finish cs b verb d = (control cs b verb >>= fun _ => noteAutocommit true >>= fun _ =>
      control cs b .begin >>= fun _ => noteAutocommit false) d := by
    show (if !d.autocommit then _ else _ : Act Dialogue Unit) d = _
    rw [hoff]
    rfl
  have hall : (Act.state (control cs b verb d)).asked <+: (Act.state (finish cs b verb d)).asked := by
    rw [hfinish]
    exact prefix_bind (fun _ => (along_grows cs b).begins) d
  cases request with
  | query _ | setAutocommit _ => cases hv
  | commit | rollback =>
    cases hv
    exact hall.trans (prefix_bind (fun _ => (along_grows cs b).pure _) d)

/-- If nothing asked before has a zero byte, nothing asked by then has. -/
def StaysPlain (d e : Dialogue) : Prop := (∀ text ∈ d.asked, 0 ∉ text) → ∀ text ∈ e.asked, 0 ∉ text

theorem staysPlain_execute {statement : String}
    (h : ∀ text, cs.encode? statement = some text → 0 ∉ text) :
    Act.Moves StaysPlain (execute cs b statement) := by
  intro d hd
  rcases asked_execute cs b statement d with hasked | ⟨text, he, hasked⟩
  · rw [hasked]
    exact hd
  · rw [hasked]
    intro text' hmem
    rcases List.mem_append.1 hmem with hmem | hmem
    · exact hd text' hmem
    · rcases List.mem_cons.1 hmem with rfl | hmem
      · exact h _ he
      · rw [List.eq_of_mem_replicate hmem]
        decide

theorem along_staysPlain (cs : Charset) (b : Backend) : Along cs b StaysPlain where
  refl _ := id
  trans _ _ _ h h' hd := h' (h hd)
  note _ _ := id
  control statement := by
    apply staysPlain_execute
    intro text he
    cases cs <;> cases statement <;> cases he <;> decide

/-- Requests without zero bytes are asked without them. -/
theorem plain_runAll {requests : List Request} (h : ∀ request ∈ requests, request.Plain cs)
    (autocommit : Bool) : ∀ text ∈ (runAll cs b requests { autocommit }).2.asked, 0 ∉ text := by
  apply (along_staysPlain cs b).runAll
  · intro statement hmem
    exact staysPlain_execute (h _ hmem)
  · intro text hmem
    exact absurd hmem List.not_mem_nil

end Asking

/-! ## Sessions that follow -/

section Following

variable {cs : Charset} {b : Backend} {handling : NoticeHandling} {base : List Bytes} {α β : Type}

/-- An open session that is loaded with these bytes and has asked what the dialogue has. -/
structure InStep (cs : Charset) (handling : NoticeHandling) (base : List Bytes) (session : Session)
    (d : Dialogue) (bytes : Bytes) : Prop where
  stream : ∃ s, session.phase = .open s ∧ s.Loaded cs bytes ∧
    s.link.sent = base ++ d.asked.map Query.frame
  handling : session.handling = handling
  autocommit : session.autocommit = d.autocommit

/-- An action of a session follows an action of a dialogue: loaded with all that it will be answered, it
does the same and leaves what is loaded for later; loaded with less, it runs dry, is broken, and has
asked more than was answered. -/
structure Follows (cs : Charset) (b : Backend) (handling : NoticeHandling) (base : List Bytes)
    (act : Act Session α) (ideal : Act Dialogue α) : Prop where
  grows : Act.Moves Grows ideal
  full : ∀ {session d new later}, (Act.state (ideal d)).asked = d.asked ++ new →
    InStep cs handling base session d (b.output cs d.asked.length (new ++ later)) →
    ∃ next, act session = Act.seen (fun _ => next) (ideal d) ∧
      InStep cs handling base next (Act.state (ideal d))
        (b.output cs (Act.state (ideal d)).asked.length later)
  short : ∀ {session d answered next more},
    (Act.state (ideal d)).asked = d.asked ++ (answered ++ next :: more) →
    InStep cs handling base session d (b.output cs d.asked.length answered) →
    ∃ broken, act session = .error (.loss .endOfStream) broken ∧ broken.isOpen = false ∧
      base.length + d.asked.length + answered.length < broken.phase.link.sent.length

namespace Follows

/-- Actions that ask nothing. -/
theorem of_still {act : Act Session α} {ideal : Act Dialogue α}
    (still : ∀ d, (Act.state (ideal d)).asked = d.asked)
    (same : ∀ {session d bytes}, InStep cs handling base session d bytes →
      ∃ next, act session = Act.seen (fun _ => next) (ideal d) ∧
        InStep cs handling base next (Act.state (ideal d)) bytes) :
    Follows cs b handling base act ideal where
  grows d := by simp only [Grows, still, List.prefix_refl]
  full := by
    intro session d new later hasked h
    rw [still] at hasked
    obtain rfl := List.self_eq_append_right.1 hasked
    rw [List.nil_append] at h
    obtain ⟨next, hact, hnext⟩ := same h
    refine ⟨next, hact, ?_⟩
    rw [still]
    exact hnext
  short := by
    intro session d answered next more hasked h
    rw [still] at hasked
    have hnil := List.self_eq_append_right.1 hasked
    simp at hnil

theorem pure (a : α) : Follows cs b handling base (Pure.pure a) (Pure.pure a) :=
  of_still (fun _ => rfl) fun h => ⟨_, rfl, h⟩

theorem noteAutocommit (autocommit : Bool) :
    Follows cs b handling base (Session.noteAutocommit autocommit) (noteAutocommit autocommit) :=
  of_still (fun _ => rfl) fun {session _ _} h =>
    ⟨{ session with autocommit }, rfl, h.stream, h.handling, rfl⟩

section Bind

variable {act : Act Session α} {ideal : Act Dialogue α} {next : α → Act Session β}
  {next' : α → Act Dialogue β}

theorem full_bind (h : Follows cs b handling base act ideal)
    (hn : ∀ a, Follows cs b handling base (next a) (next' a)) {session : Session} {d : Dialogue}
    {new later : List Bytes} (hasked : (Act.state ((ideal >>= next') d)).asked = d.asked ++ new)
    (hstep : InStep cs handling base session d (b.output cs d.asked.length (new ++ later))) :
    ∃ τ, (act >>= next) session = Act.seen (fun _ => τ) ((ideal >>= next') d) ∧
      InStep cs handling base τ (Act.state ((ideal >>= next') d))
        (b.output cs (Act.state ((ideal >>= next') d)).asked.length later) := by
  have hgrows := h.grows d
  simp only [Bind.bind, EStateM.bind] at hasked ⊢
  cases hi : ideal d with
  | error fault e =>
    rw [hi] at hasked
    obtain ⟨σ, hact, hσ⟩ := h.full (by rw [hi]; exact hasked) hstep
    rw [hi] at hact hσ
    exact ⟨σ, by rw [hact]; rfl, hσ⟩
  | ok a e =>
    rw [hi] at hasked hgrows
    obtain ⟨first, second, hfirst, hsecond, rfl⟩ := hgrows.split ((hn a).grows e) hasked
    rw [List.append_assoc] at hstep
    obtain ⟨σ, hact, hσ⟩ := h.full (by rw [hi]; exact hfirst) hstep
    rw [hi] at hact hσ
    obtain ⟨τ, hact', hτ⟩ := (hn a).full hsecond hσ
    exact ⟨τ, by rw [hact]; exact hact', hτ⟩

theorem short_bind (h : Follows cs b handling base act ideal)
    (hn : ∀ a, Follows cs b handling base (next a) (next' a)) {session : Session} {d : Dialogue}
    {answered more : List Bytes} {ask : Bytes}
    (hasked : (Act.state ((ideal >>= next') d)).asked = d.asked ++ (answered ++ ask :: more))
    (hstep : InStep cs handling base session d (b.output cs d.asked.length answered)) :
    ∃ broken, (act >>= next) session = .error (.loss .endOfStream) broken ∧ broken.isOpen = false ∧
      base.length + d.asked.length + answered.length < broken.phase.link.sent.length := by
  have hgrows := h.grows d
  simp only [Bind.bind, EStateM.bind] at hasked ⊢
  cases hi : ideal d with
  | error fault e =>
    rw [hi] at hasked
    obtain ⟨σ, hact, hσ⟩ := h.short (by rw [hi]; exact hasked) hstep
    exact ⟨σ, by rw [hact], hσ⟩
  | ok a e =>
    rw [hi] at hasked hgrows
    obtain ⟨first, second, hfirst, hsecond, hall⟩ := hgrows.split ((hn a).grows e) hasked
    -- either all that the first action asks is answered, or it is the first that runs dry
    rcases locate hall with ⟨rest, rfl, rfl⟩ | ⟨rest, rfl⟩
    · obtain ⟨σ, hact, hσ⟩ := h.full (by rw [hi]; exact hfirst) hstep
      rw [hi] at hact hσ
      obtain ⟨τ, hact', hbroken, hsent⟩ := (hn a).short hsecond hσ
      refine ⟨τ, by rw [hact]; exact hact', hbroken, ?_⟩
      simp only [Act.state_ok] at hfirst
      simp only [hfirst, List.length_append] at hsent ⊢
      omega
    · obtain ⟨σ, hact, hσ⟩ := h.short (by rw [hi]; exact hfirst) hstep
      exact ⟨σ, by rw [hact], hσ⟩

theorem bind (h : Follows cs b handling base act ideal)
    (hn : ∀ a, Follows cs b handling base (next a) (next' a)) :
    Follows cs b handling base (act >>= next) (ideal >>= next') where
  grows := (along_grows cs b).bind h.grows fun a => (hn a).grows
  full := full_bind h hn
  short := short_bind h hn

end Bind

/-- The session and the dialogue share the flag, so what depends on it is done by both or by neither. -/
theorem depending (p : Bool → Bool) {act : Act Session Unit} {ideal : Act Dialogue Unit}
    (h : Follows cs b handling base act ideal) :
    Follows cs b handling base
      (MonadState.get >>= fun session => if p session.autocommit then act else Pure.pure ())
      (MonadState.get >>= fun d => if p d.autocommit then ideal else Pure.pure ()) := by
  have both (autocommit : Bool) : Follows cs b handling base (if p autocommit then act else Pure.pure ())
      (if p autocommit then ideal else Pure.pure ()) := by
    split
    · exact h
    · exact pure ()
  refine ⟨fun d => (both d.autocommit).grows d, ?_, ?_⟩
  · intro session d new later hasked hstep
    obtain ⟨σ, hact, hσ⟩ := (both d.autocommit).full hasked hstep
    refine ⟨σ, ?_, hσ⟩
    show (if p session.autocommit then act else Pure.pure ()) session = _
    rw [hstep.autocommit]
    exact hact
  · intro session d answered ask more hasked hstep
    obtain ⟨σ, hact, hσ⟩ := (both d.autocommit).short hasked hstep
    refine ⟨σ, ?_, hσ⟩
    show (if p session.autocommit then act else Pure.pure ()) session = _
    rw [hstep.autocommit]
    exact hact

/-! ### Statements -/

/-- A statement that is not sent. -/
theorem query_of_unsent {statement : String} (fault : Fault) (hno : ∀ cause, fault ≠ .loss cause)
    (hideal : ∀ d, execute cs b statement d = .error fault d)
    (hact : ∀ s : Stream, s.Ready cs → s.query handling statement = .error fault s) :
    Follows cs b handling base (Session.query statement) (execute cs b statement) := by
  refine of_still (fun d => by rw [hideal]; rfl) fun {session d bytes} h => ?_
  obtain ⟨s, hp, hs, hsent⟩ := h.stream
  have hquery := hact s hs.ready
  rw [← h.handling] at hquery
  have hexecute : Session.execute session.handling statement s = .error fault s := by
    unfold Session.execute
    rw [hquery]
    cases fault with
    | loss cause => exact absurd rfl (hno cause)
    | _ => rfl
  refine ⟨{ session with phase := .open s }, ?_, ?_⟩
  · rw [hideal, Session.query_of_no_loss hp (congrArg Act.outcome hexecute) (by simpa using hno), hexecute]
    rfl
  · rw [hideal]
    exact ⟨⟨s, rfl, hs, hsent⟩, h.handling, h.autocommit⟩

/-- A statement that is sent. -/
theorem query_of_sent (hb : b.Obeys cs) (hh : handling.Willing) {statement : String}
    (hl : statement.length ≤ maxStatementLength) {text : Bytes} (he : cs.encode? statement = some text) :
    Follows cs b handling base (Session.query statement) (execute cs b statement) := by
  have hideal (d : Dialogue) := execute_of_text (b := b) hl he d
  refine ⟨grows_execute statement, ?_, ?_⟩
  · intro session d new later hasked h
    rw [hideal, Act.state_ofExcept] at hasked
    obtain rfl := List.append_cancel_left hasked
    obtain ⟨s, hp, hs, hsent⟩ := h.stream
    obtain ⟨houtcome, hloaded, hmore⟩ := Session.execute_full hb hh hl he hs
    rw [← h.handling] at houtcome hloaded hmore
    refine ⟨{ session with
      phase := .open (Act.state (Session.execute session.handling statement s)) }, ?_, ?_⟩
    · rw [hideal, Act.seen_ofExcept]
      exact Session.query_of_no_loss hp houtcome (Transcript.verdict_ne_loss _)
    · rw [hideal, Act.state_ofExcept]
      refine ⟨⟨_, rfl, ?_, ?_⟩, h.handling, h.autocommit⟩
      · simpa using hloaded
      · rw [hmore, hsent, List.map_append, List.append_assoc]
  · intro session d answered ask more hasked h
    rw [hideal, Act.state_ofExcept] at hasked
    obtain ⟨s, hp, hs, hsent⟩ := h.stream
    obtain ⟨t, ht, hlength⟩ := Session.execute_short hb hh hl he (List.append_cancel_left hasked) hs
    rw [← h.handling] at ht
    rw [hsent, List.length_append, List.length_map] at hlength
    exact ⟨_, Session.query_of_loss hp ht, rfl, hlength⟩

theorem query (hb : b.Obeys cs) (hh : handling.Willing) (statement : String) :
    Follows cs b handling base (Session.query statement) (execute cs b statement) := by
  by_cases hl : maxStatementLength < statement.length
  · apply query_of_unsent (.refusal (.statementTooLong statement.length)) (by simp)
    · exact execute_of_long hl
    · intro s _
      exact Stream.query_of_long hl s
  have hshort := Nat.not_lt.1 hl
  cases he : cs.encode? statement with
  | none =>
    apply query_of_unsent .unencodable (by simp)
    · exact execute_of_unencodable hshort he
    · intro s hs
      rw [Stream.query_of_short hshort]
      simp only [Stream.encode, Text.encodeIn, hs.charset, he]
      rfl
  | some text => exact query_of_sent hb hh hshort he

theorem control (hb : b.Obeys cs) (hh : handling.Willing) (statement : Control) :
    Follows cs b handling base (Session.control statement) (control cs b statement) :=
  (query hb hh _).bind fun _ => pure _

/-- An open session is found to be open. -/
theorem requireOpen : Follows cs b handling base Session.requireOpen (Pure.pure ()) := by
  refine of_still (fun _ => rfl) fun {session d bytes} h => ?_
  obtain ⟨s, hp, hs, hsent⟩ := h.stream
  refine ⟨{ session with phase := .open s }, ?_, ⟨s, rfl, hs, hsent⟩, h.handling, h.autocommit⟩
  exact Session.onStream_of_open _ hp

/-- What is done to an open session. -/
theorem once_open {act : Act Session α} {ideal : Act Dialogue α}
    (h : Follows cs b handling base act ideal) :
    Follows cs b handling base (Session.requireOpen >>= fun _ => act) ideal :=
  show Follows cs b handling base _ ((Pure.pure () : Act Dialogue Unit) >>= fun _ => ideal) from
    requireOpen.bind fun _ => h

theorem setAutocommit (hb : b.Obeys cs) (hh : handling.Willing) (autocommit : Bool) :
    Follows cs b handling base (Session.setAutocommit autocommit) (setAutocommit cs b autocommit) := by
  apply once_open
  apply depending (· != autocommit)
  exact (control hb hh _).bind fun _ => noteAutocommit _

theorem finish (hb : b.Obeys cs) (hh : handling.Willing) (statement : Control) :
    Follows cs b handling base (Session.finish statement) (finish cs b statement) := by
  apply once_open
  apply depending (! ·)
  exact (control hb hh _).bind fun _ => (noteAutocommit _).bind fun _ =>
    (control hb hh _).bind fun _ => noteAutocommit _

theorem perform (hb : b.Obeys cs) (hh : handling.Willing) (request : Request) :
    Follows cs b handling base (Session.perform request.command) (perform cs b request) := by
  cases request with
  | query statement => exact (query hb hh statement).bind fun _ => pure _
  | setAutocommit autocommit => exact (setAutocommit hb hh autocommit).bind fun _ => pure _
  | commit => exact (finish hb hh .commit).bind fun _ => pure _
  | rollback => exact (finish hb hh .rollback).bind fun _ => pure _

end Follows

end Following

/-! ## Runs -/

section Runs

variable {cs : Charset} {b : Backend} {handling : NoticeHandling} {base : List Bytes}

theorem steps_cons (request : Request) (rest : List Request) (session : Session) :
    Session.runAll (Request.steps (request :: rest)) session =
      let result := Session.perform request.command session
      let others := Session.runAll (Request.steps rest) (Act.state result)
      (.one (Act.outcome result) :: others.1, others.2) := rfl

/-- A session that is not open does nothing that is requested. -/
theorem runAll_of_not_open (requests : List Request) {session : Session} (h : session.isOpen = false) :
    (Session.runAll (Request.steps requests) session).2 = session := by
  have still (request : Request) : Act.state (Session.perform request.command session) = session := by
    rw [Session.perform_of_not_open h (by cases request <;> rfl)]
    rfl
  induction requests with
  | nil => rfl
  | cons request rest ih =>
    rw [steps_cons]
    simp only [still, ih]

/-- Loaded with all that will be answered, a session does what the dialogue does. -/
theorem full_runAll (hb : b.Obeys cs) (hh : handling.Willing) (requests : List Request)
    {session : Session} {d : Dialogue} {new later : List Bytes}
    (hasked : (runAll cs b requests d).2.asked = d.asked ++ new)
    (h : InStep cs handling base session d (b.output cs d.asked.length (new ++ later))) :
    ∃ next, Session.runAll (Request.steps requests) session =
        ((runAll cs b requests d).1.map .one, next) ∧
      InStep cs handling base next (runAll cs b requests d).2
        (b.output cs (runAll cs b requests d).2.asked.length later) := by
  induction requests generalizing session d new with
  | nil =>
    obtain rfl : new = [] := List.self_eq_append_right.1 hasked
    exact ⟨session, rfl, h⟩
  | cons request rest ih =>
    have hf : Follows cs b handling base (Session.perform request.command) (perform cs b request) :=
      Follows.perform hb hh request
    obtain ⟨first, second, hfirst, hsecond, rfl⟩ := (hf.grows d).split (prefix_runAll rest _) hasked
    rw [List.append_assoc] at h
    obtain ⟨σ, hact, hσ⟩ := hf.full hfirst h
    obtain ⟨τ, hrun, hτ⟩ := ih hsecond hσ
    refine ⟨τ, ?_, hτ⟩
    simp only [steps_cons, hact, Act.outcome_seen, Act.state_seen, hrun, runAll, List.map_cons]

/-- Loaded with less, it runs dry, after it asked more than was answered. -/
theorem short_runAll (hb : b.Obeys cs) (hh : handling.Willing) (requests : List Request)
    {session : Session} {d : Dialogue} {answered more : List Bytes} {ask : Bytes}
    (hasked : (runAll cs b requests d).2.asked = d.asked ++ (answered ++ ask :: more))
    (h : InStep cs handling base session d (b.output cs d.asked.length answered)) :
    (Session.runAll (Request.steps requests) session).2.isOpen = false ∧
      base.length + d.asked.length + answered.length <
        (Session.runAll (Request.steps requests) session).2.phase.link.sent.length := by
  induction requests generalizing session d answered with
  | nil => simp [runAll] at hasked
  | cons request rest ih =>
    have hf : Follows cs b handling base (Session.perform request.command) (perform cs b request) :=
      Follows.perform hb hh request
    obtain ⟨first, second, hfirst, hsecond, hall⟩ := (hf.grows d).split (prefix_runAll rest _) hasked
    rw [steps_cons]
    rcases locate hall with ⟨left, rfl, rfl⟩ | ⟨left, rfl⟩
    · obtain ⟨σ, hact, hσ⟩ := hf.full hfirst h
      obtain ⟨hbroken, hsent⟩ := ih hsecond hσ
      rw [hfirst] at hsent
      simp only [hact, Act.state_seen]
      refine ⟨hbroken, ?_⟩
      simp only [List.length_append] at hsent ⊢
      omega
    · obtain ⟨σ, hact, hbroken, hsent⟩ := hf.short hfirst h
      simp only [hact, Act.state_error, runAll_of_not_open rest hbroken]
      exact ⟨hbroken, hsent⟩

end Runs

end Dialogue

end SimpleQuery
