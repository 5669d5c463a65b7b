import SimpleQuery.Proofs.Refinement

/-!
# Backends

A backend answers one query after the other. What it may answer is a grammar over messages: some
statuses without rows, and then nothing, an error, or one group of rows; messages that may come at any
time stand anywhere but at the end. The empty statement is only acknowledged.

* `Transcript.Reply`, `Transcript.Idle` — what may be answered to a statement, and to the empty one.
* `Backend.Obeys` — a backend all of whose answers are of that kind and travel whole.
* `Backend.Obeys.reaches_transcript` — over an answer and some of the acknowledgments of its flush
  queries a response is not done before the last message, and at the end exactly if no acknowledgment is
  missing.
-/

set_option autoImplicit false

namespace SimpleQuery

/-- A message that may come at any time. -/
def Message.Aside : Message → Prop
  | .notice _ | .notification .. | .portal _ => True
  | _ => False

namespace Transcript

/-- What may follow the status of a row group, where flush queries are pending. -/
inductive Trailing : Transcript → Prop where
  | complete (status : String) : Trailing [.complete status]
  | error (message : String) : Trailing [.error message]
  | further {rest : Transcript} (status : String) (h : Trailing rest) : Trailing (.complete status :: rest)
  | aside {message : Message} {rest : Transcript} (aside : message.Aside) (h : Trailing rest) :
      Trailing (message :: rest)

/-- What may follow the columns of a row group, where so many statuses came before them. -/
inductive Rows : Nat → Transcript → Prop where
  | complete {count : Nat} (status : String) : Rows count [.complete status]
  | error {count : Nat} (message : String) : Rows count [.error message]
  | row {count : Nat} {rest : Transcript} (binary : Bool) (slots : Row) (h : Rows count rest) :
      Rows count (.row binary slots :: rest)
  | further {count : Nat} {rest : Transcript} (status : String) (flushed : 0 < count) (h : Trailing rest) :
      Rows count (.complete status :: rest)
  | aside {count : Nat} {message : Message} {rest : Transcript} (aside : message.Aside)
      (h : Rows count rest) : Rows count (message :: rest)

/-- What may follow so many statuses without rows. From no status on, it is an answer to a statement
that is not empty. -/
inductive Reply : Nat → Transcript → Prop where
  | complete {count : Nat} (status : String) : Reply count [.complete status]
  | error {count : Nat} (message : String) : Reply count [.error message]
  | further {count : Nat} {rest : Transcript} (status : String) (h : Reply (count + 1) rest) :
      Reply count (.complete status :: rest)
  | columns {count : Nat} {rest : Transcript} (group : List Column) (h : Rows count rest) :
      Reply count (.columns group :: rest)
  | aside {count : Nat} {message : Message} {rest : Transcript} (aside : message.Aside)
      (h : Reply count rest) : Reply count (message :: rest)

/-- An answer to the empty statement. -/
inductive Idle : Transcript → Prop where
  | acknowledgment : Idle [.acknowledgment]
  | aside {message : Message} {rest : Transcript} (aside : message.Aside) (h : Idle rest) :
      Idle (message :: rest)

/-- What the machine gives after an answer. -/
def verdict (transcript : Transcript) : Except Fault Bundle :=
  match Machine.run {} transcript with
  | .ok last => last.result
  | .error cause => .error (.refusal (.violation cause))

/-- The bytes of messages. -/
def bytes (cs : Charset) (transcript : Transcript) : Bytes := (transcript.encode? cs).getD []

end Transcript

/-- What a backend answers to the `n`-th query, if that is for the given statement. -/
structure Backend where
  answer : Nat → Bytes → Transcript

namespace Backend

/-- A backend that answers as it should, with messages that travel whole. -/
structure Obeys (cs : Charset) (b : Backend) : Prop where
  idle : ∀ n, (b.answer n Query.blankBytes).Idle
  reply : ∀ n statement, statement ≠ Query.blankBytes → (b.answer n statement).Reply 0
  fits : ∀ n statement, (b.answer n statement).Fits cs 0

/-- A backend that has a status for everything. -/
def dutiful : Backend where
  answer _ statement := if statement = Query.blankBytes then [.acknowledgment] else [.complete "done"]

theorem obeys_dutiful (cs : Charset) : dutiful.Obeys cs where
  idle _ := by
    simp only [dutiful, if_true]
    exact .acknowledgment
  reply _ statement h := by
    simp only [dutiful, if_neg h]
    exact .complete "done"
  fits _ statement := by
    simp only [dutiful]
    split
    · exact ⟨trivial, trivial⟩
    · refine ⟨?_, trivial⟩
      cases cs <;> exact ⟨_, rfl, by decide, by decide⟩

/-- The messages that answer queries for these statements, the first of them the `n`-th. -/
def transcript (b : Backend) : Nat → List Bytes → Transcript
  | _, [] => []
  | n, statement :: rest => b.answer n statement ++ transcript b (n + 1) rest

/-- The bytes of those messages. -/
def output (b : Backend) (cs : Charset) : Nat → List Bytes → Bytes
  | _, [] => []
  | n, statement :: rest => (b.answer n statement).bytes cs ++ output b cs (n + 1) rest

theorem output_append (b : Backend) (cs : Charset) (n : Nat) (first rest : List Bytes) :
    b.output cs n (first ++ rest) = b.output cs n first ++ b.output cs (n + first.length) rest := by
  induction first generalizing n with
  | nil => rfl
  | cons statement first ih =>
    simp only [List.cons_append, output, ih, List.append_assoc, List.length_cons]
    rw [Nat.add_right_comm, Nat.add_assoc]

end Backend

/-! ## What an answer makes of a response -/

namespace Response

/-- A response that is done where no flush query is pending. -/
def Settled (r : Response) : Prop := r.pendingFlushes = 0 → r.finalSeen = true

theorem Settled.done {r : Response} (h : r.Settled) (hp : r.pendingFlushes = 0) : r.done = true := by
  simp [Response.done, h hp, hp]

theorem undone_of_pending {r : Response} (h : 0 < r.pendingFlushes) : r.done = false := by
  have hne : r.pendingFlushes ≠ 0 := by omega
  simp [Response.done, hne]

theorem undone_of_not_final {r : Response} (h : r.finalSeen = false) : r.done = false := by
  simp [Response.done, h]

theorem advance_aside {message : Message} (h : message.Aside) (r : Response) :
    r.advance message = .ok r := by
  cases message <;> first | rfl | exact h.elim

/-- The last message of an answer. -/
theorem Reaches.last {r next : Response} {message : Message} (undone : r.done = false)
    (allowed : r.advance message = .ok next) : r.Reaches [message] next :=
  .step undone allowed (.refl next)

theorem reaches_trailing {transcript : Transcript} (h : transcript.Trailing) {r : Response}
    (hc : r.columns.isSome = true) (hp : 0 < r.pendingFlushes) (hf : r.finalSeen = true) :
    ∃ last, r.Reaches transcript last ∧ last.pendingFlushes = r.pendingFlushes ∧
      last.finalSeen = true := by
  obtain ⟨group, hgroup⟩ := Option.isSome_iff_exists.1 hc
  have completes (status : String) :
      r.advance (.complete status) = .ok (r.after (.complete status)) := by
    simp [advance, hgroup]
  induction h generalizing r with
  | complete status =>
    refine ⟨_, .last (undone_of_pending hp) (completes status), rfl, ?_⟩
    simp [after, hf]
  | error message => exact ⟨_, .last (undone_of_pending hp) rfl, rfl, rfl⟩
  | further status _ ih =>
    obtain ⟨last, hreaches, hpending, hfinal⟩ := ih (r := r.after (.complete status)) hc hp
      (by simp [after, hf]) hgroup (fun status => by simp [advance, after, hgroup])
    exact ⟨last, .step (undone_of_pending hp) (completes status) hreaches, hpending, hfinal⟩
  | aside aside _ ih =>
    obtain ⟨last, hreaches, hpending, hfinal⟩ := ih hc hp hf hgroup completes
    exact ⟨last, .step (undone_of_pending hp) (advance_aside aside r) hreaches, hpending, hfinal⟩

theorem reaches_rows {count : Nat} {transcript : Transcript} (h : transcript.Rows count) {r : Response}
    (hc : r.columns.isSome = true) (hp : r.pendingFlushes = count) (hf : r.finalSeen = false) :
    ∃ last, r.Reaches transcript last ∧ last.pendingFlushes = count ∧ last.finalSeen = true := by
  have undone := undone_of_not_final hf
  obtain ⟨group, hgroup⟩ := Option.isSome_iff_exists.1 hc
  induction h generalizing r with
  | complete status =>
    refine ⟨r.after (.complete status), .last undone (by simp [advance, hgroup]), hp, ?_⟩
    simp [after, hc]
  | error message => exact ⟨_, .last undone rfl, hp, rfl⟩
  | row binary slots _ ih =>
    obtain ⟨last, hreaches, hpending, hfinal⟩ := ih (r := r.after (.row binary slots)) hc hp hf
      (undone_of_not_final hf) hgroup
    exact ⟨last, .step undone (by simp [advance, hgroup]) hreaches, hpending, hfinal⟩
  | further status flushed h =>
    obtain ⟨last, hreaches, hpending, hfinal⟩ := reaches_trailing h (r := r.after (.complete status)) hc
      (by rw [← hp] at flushed; exact flushed) (by simp [after, hc])
    exact ⟨last, .step undone (by simp [advance, hgroup]) hreaches, hpending.trans hp, hfinal⟩
  | aside aside _ ih =>
    obtain ⟨last, hreaches, hpending, hfinal⟩ := ih hc hp hf undone hgroup
    exact ⟨last, .step undone (advance_aside aside r) hreaches, hpending, hfinal⟩

/-- Over an answer, as many flush queries become pending as the answer calls for. -/
theorem reaches_reply {count : Nat} {transcript : Transcript} (h : transcript.Reply count) {r : Response}
    (hc : r.columns = none) (hp : r.pendingFlushes = count) (hf : r.finalSeen = false) :
    ∃ last, r.Reaches transcript last ∧ last.pendingFlushes = count + transcript.flushes ∧
      last.Settled := by
  have undone := undone_of_not_final hf
  induction h generalizing r with
  | complete status =>
    refine ⟨(r.after (.complete status)).flushed, .last undone (by simp [advance, hc]), ?_, ?_⟩
    · simp [after, flushed, Transcript.flushes, hp]
    · intro hzero
      simp [after, flushed] at hzero
  | error message => exact ⟨r.after (.error message), .last undone rfl, hp, fun _ => rfl⟩
  | further status _ ih =>
    have hf' : (r.after (.complete status)).flushed.finalSeen = false := by simp [after, flushed, hf, hc]
    obtain ⟨last, hreaches, hpending, hsettled⟩ := ih (r := (r.after (.complete status)).flushed) hc
      (congrArg (· + 1) hp) hf' (undone_of_not_final hf')
    refine ⟨last, .step undone (by simp [advance, hc]) hreaches, ?_, hsettled⟩
    rw [hpending, Transcript.flushes]
    omega
  | columns group h =>
    obtain ⟨last, hreaches, hpending, hfinal⟩ :=
      reaches_rows h (r := r.after (.columns group)) rfl hp hf
    exact ⟨last, .step undone (by simp [advance, hc]) hreaches, hpending, fun _ => hfinal⟩
  | @aside count message rest aside _ ih =>
    obtain ⟨last, hreaches, hpending, hsettled⟩ := ih hc hp hf undone
    refine ⟨last, .step undone (advance_aside aside r) hreaches, ?_, hsettled⟩
    rw [hpending]
    cases message <;> first | rfl | exact aside.elim

/-- An answer to the empty statement is an acknowledgment. -/
theorem reaches_idle {transcript : Transcript} (h : transcript.Idle) {r : Response}
    (undone : r.done = false) : r.Reaches transcript (r.after .acknowledgment) := by
  induction h with
  | acknowledgment => exact .last undone rfl
  | aside aside _ ih => exact .step undone (advance_aside aside r) ih

/-- A response that is reached stands for the machine after the same messages. -/
theorem Reaches.run_eq {r last : Response} {transcript : Transcript} (h : r.Reaches transcript last) :
    (Machine.ofResponse r).run transcript = .ok (Machine.ofResponse last) := by
  induction h with
  | refl r => rfl
  | step _ allowed _ ih =>
    rw [Machine.run_cons, Machine.next_ofResponse, allowed]
    exact ih

end Response

theorem Transcript.flushes_idle {transcript : Transcript} (h : transcript.Idle) :
    transcript.flushes = 0 := by
  induction h with
  | acknowledgment => rfl
  | @aside message rest aside _ ih =>
    cases message <;> first | exact ih | exact aside.elim

/-- Whether an answer to the empty statement travels whole does not depend on columns. -/
theorem Transcript.Fits.idle {cs : Charset} {columns : Nat} {transcript : Transcript}
    (fits : transcript.Fits cs columns) (h : transcript.Idle) (columns' : Nat) :
    transcript.Fits cs columns' := by
  induction h generalizing columns columns' with
  | acknowledgment => exact ⟨trivial, trivial⟩
  | @aside message rest aside _ ih =>
    obtain ⟨hm, hr⟩ := fits
    refine ⟨?_, ih hr _⟩
    cases message <;> first | exact hm | exact aside.elim

theorem Transcript.Fits.append {cs : Charset} {columns : Nat} {first rest : Transcript}
    (hf : first.Fits cs columns) (hr : ∀ columns, rest.Fits cs columns) :
    Transcript.Fits cs columns (first ++ rest) := by
  induction first generalizing columns with
  | nil => exact hr columns
  | cons message first ih => exact ⟨hf.1, ih hf.2⟩

theorem Transcript.encode?_append {cs : Charset} {first rest : Transcript} {bytes bytes' : Bytes}
    (hf : first.encode? cs = some bytes) (hr : rest.encode? cs = some bytes') :
    Transcript.encode? cs (first ++ rest) = some (bytes ++ bytes') := by
  induction first generalizing bytes with
  | nil =>
    obtain rfl : [] = bytes := Option.some.inj hf
    exact hr
  | cons message first ih =>
    obtain ⟨body, others, hbody, hothers, rfl⟩ := Transcript.encode?_cons.1 hf
    exact Transcript.encode?_cons.2 ⟨body, others ++ bytes', hbody, ih hothers, List.append_assoc ..⟩

namespace Backend

variable {cs : Charset} {b : Backend}

/-- Every answer makes of a response what it should. -/
theorem Obeys.reaches (h : b.Obeys cs) (n : Nat) (statement : Bytes) :
    ∃ last, Response.Reaches {} (b.answer n statement) last ∧
      last.pendingFlushes = (b.answer n statement).flushes ∧ last.Settled := by
  by_cases hb : statement = Query.blankBytes
  · subst hb
    refine ⟨_, Response.reaches_idle (h.idle n) rfl, ?_, fun _ => rfl⟩
    rw [Transcript.flushes_idle (h.idle n)]
    rfl
  · obtain ⟨last, hreaches, hpending, hsettled⟩ := Response.reaches_reply (h.reply n statement hb) (r := {})
      rfl rfl rfl
    exact ⟨last, hreaches, hpending.trans (Nat.zero_add _), hsettled⟩

theorem Obeys.encode?_answer (h : b.Obeys cs) (n : Nat) (statement : Bytes) :
    (b.answer n statement).encode? cs = some ((b.answer n statement).bytes cs) := by
  obtain ⟨last, hreaches, -⟩ := h.reaches n statement
  obtain ⟨bytes, he⟩ := hreaches.encodes (h.fits n statement)
  rw [Transcript.bytes, he]
  rfl

theorem Obeys.encode?_transcript (h : b.Obeys cs) (n : Nat) (statements : List Bytes) :
    (b.transcript n statements).encode? cs = some (b.output cs n statements) := by
  induction statements generalizing n with
  | nil => rfl
  | cons statement rest ih => exact Transcript.encode?_append (h.encode?_answer n statement) (ih (n + 1))

/-- Acknowledgments travel whole, whatever the columns. -/
theorem Obeys.fits_acknowledgments (h : b.Obeys cs) (n count columns : Nat) :
    (b.transcript n (List.replicate count Query.blankBytes)).Fits cs columns := by
  induction count generalizing n columns with
  | zero => trivial
  | succ count ih =>
    rw [List.replicate_succ]
    exact ((h.fits n Query.blankBytes).idle (h.idle n) columns).append fun columns => ih (n + 1) columns

/-- Over acknowledgments of flush queries, as many fewer are pending. -/
theorem Obeys.reaches_acknowledgments (h : b.Obeys cs) (n : Nat) {count : Nat} {r : Response}
    (hcount : count ≤ r.pendingFlushes) (hs : r.Settled) :
    ∃ last, r.Reaches (b.transcript n (List.replicate count Query.blankBytes)) last ∧
      last.pendingFlushes = r.pendingFlushes - count ∧ last.Settled ∧
      (Machine.ofResponse last).result = (Machine.ofResponse r).result := by
  induction count generalizing n r with
  | zero => exact ⟨r, .refl r, rfl, hs, rfl⟩
  | succ count ih =>
    have hfirst := Response.reaches_idle (h.idle n) (Response.undone_of_pending (r := r) (by omega))
    have hsettled : (r.after .acknowledgment).Settled := by
      intro hp
      have hle : r.pendingFlushes ≤ 1 := by
        simp only [Response.after] at hp
        omega
      simp [Response.after, hle]
    obtain ⟨last, hreaches, hpending, hlast, hresult⟩ := ih (n + 1) (r := r.after .acknowledgment)
      (by simp only [Response.after]; omega) hsettled
    refine ⟨last, hfirst.append hreaches, ?_, hlast, hresult⟩
    rw [hpending]
    simp only [Response.after]
    omega

/-- Over an answer and the acknowledgments of some of its flush queries. -/
theorem Obeys.reaches_transcript (h : b.Obeys cs) (n : Nat) (statement : Bytes) {count : Nat}
    (hcount : count ≤ (b.answer n statement).flushes) :
    ∃ last, Response.Reaches {} (b.transcript n (statement :: List.replicate count Query.blankBytes)) last ∧
      last.pendingFlushes = (b.answer n statement).flushes - count ∧ last.Settled ∧
      (Machine.ofResponse last).result = (b.answer n statement).verdict := by
  obtain ⟨mid, hreply, hpending, hsettled⟩ := h.reaches n statement
  have hle : count ≤ mid.pendingFlushes := by omega
  obtain ⟨last, hacks, hleft, hlast, hresult⟩ := h.reaches_acknowledgments (n + 1) hle hsettled
  refine ⟨last, hreply.append hacks, by rw [hleft, hpending], hlast, hresult.trans ?_⟩
  have hrun : Machine.run {} (b.answer n statement) = .ok (Machine.ofResponse mid) := hreply.run_eq
  simp only [Transcript.verdict, hrun]

theorem Obeys.fits_transcript (h : b.Obeys cs) (n : Nat) (statement : Bytes) (count : Nat) :
    (b.transcript n (statement :: List.replicate count Query.blankBytes)).Fits cs 0 :=
  (h.fits n statement).append fun columns => h.fits_acknowledgments (n + 1) count columns

end Backend

end SimpleQuery
