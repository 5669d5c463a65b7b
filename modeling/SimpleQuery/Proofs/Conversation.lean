import SimpleQuery.Proofs.Dialogue
import SimpleQuery.Proofs.Patience

/-!
# Conversations

A client and a backend over a network on which everything takes its time: the client writes and takes
what was delivered, the backend answers, the network delivers, one of them at a time and in any order.

* `Client.run` — what the client does with the chunks it took; it *waits* if they are not enough.
* `Network.Step` — what can happen next.
* `Network.Sound` — the invariant: what was delivered and what is under way answers the queries that
  were served, and these are the first of those that the dialogue asks.
* `conversation_completes` — every run comes to an end, and then the client has what the dialogue has.
-/

set_option autoImplicit false

namespace SimpleQuery

/-! ## Requests that wait -/

namespace Session

open Act (Patient)

theorem patient_perform (request : Request) : Patient fed (perform request.command) := by
  cases request with
  | query statement => exact (patient_query statement).bind fun _ => Patient.pure _
  | setAutocommit autocommit => exact (patient_setAutocommit autocommit).bind fun _ => Patient.pure _
  | commit => exact (patient_finish .commit).bind fun _ => Patient.pure _
  | rollback => exact (patient_finish .rollback).bind fun _ => Patient.pure _

theorem grows_runAll (requests : List Request) (session : Session) :
    fed.sent session <+: fed.sent (runAll (Request.steps requests) session).2 := by
  induction requests generalizing session with
  | nil => exact List.prefix_refl _
  | cons request rest ih => exact ((patient_perform request).grows session).trans (ih _)

/-- With more delivered, requests come to the same, or the run was starved. -/
theorem waits_runAll (requests : List Request) (session : Session) (more : List Delivery) :
    runAll (Request.steps requests) (fed.feed more session) =
        ((runAll (Request.steps requests) session).1,
          fed.feed more (runAll (Request.steps requests) session).2) ∨
      fed.starved (runAll (Request.steps requests) session).2 ∧
        fed.sent (runAll (Request.steps requests) session).2 <+:
          fed.sent (runAll (Request.steps requests) (fed.feed more session)).2 := by
  induction requests generalizing session with
  | nil => exact .inl rfl
  | cons request rest ih =>
    simp only [Dialogue.steps_cons]
    rcases (patient_perform request).waits session more with hsame | ⟨t, ht, hstarved, hsent⟩
    · rw [hsame, Act.state_seen, Act.outcome_seen]
      rcases ih (Act.state (perform request.command session)) with hrest | hrest
      · rw [hrest]
        exact .inl rfl
      · exact .inr hrest
    · right
      rw [ht, Act.state_error, Dialogue.runAll_of_not_open rest hstarved.2]
      exact ⟨hstarved, hsent.trans (grows_runAll rest _)⟩

/-- The session over a link that delivers these chunks. -/
def delivering (chunks : List Bytes) (session : Session) : Session :=
  { session with phase := session.phase.mapLink (Link.delivering (chunks.map .bytes)) }

theorem feed_delivering (chunks more : List Bytes) (session : Session) :
    fed.feed (more.map .bytes) (session.delivering chunks) = session.delivering (chunks ++ more) := by
  unfold delivering
  rw [List.map_append]
  cases hp : session.phase <;> simp only [fed, Phase.mapLink, Link.feed, Link.delivering]

end Session

/-! ## Agreement -/

namespace Dialogue

/-- An open session that agrees with a dialogue: it has sent what the dialogue asked, with nothing left
to be sent, and what there is to read is what answers these later queries. -/
structure Agrees (cs : Charset) (b : Backend) (base later : List Bytes) (session : Session)
    (d : Dialogue) : Prop where
  sent : session.phase.link.sent = base ++ d.asked.map Query.frame
  autocommit : session.autocommit = d.autocommit
  left : ∃ t, session.phase = .open t ∧ t.closed = false ∧ t.staged = [] ∧
    t.line = (b.output cs d.asked.length later).map .byte

/-- A session that is in step agrees, and so does the same with its deliveries cut otherwise. -/
theorem InStep.agrees {cs : Charset} {b : Backend} {handling : NoticeHandling} {base later : List Bytes}
    {session other : Session} {d : Dialogue}
    (h : InStep cs handling base session d (b.output cs d.asked.length later)) (hs : other.Same session) :
    Agrees cs b base later other d := by
  obtain ⟨t, hp, hloaded, hsent⟩ := h.stream
  refine ⟨?_, hs.autocommit.trans h.autocommit, ?_⟩
  · rw [hs.matches.sent, hp]
    exact hsent
  · have hphase := hs.phase
    rw [hp] at hphase
    cases hopen : other.phase with
    | fresh link | broken u => rw [hopen] at hphase; cases hphase
    | «open» u =>
      rw [hopen] at hphase
      cases hphase with
      | «open» hu =>
        refine ⟨u, rfl, hu.closed.trans hloaded.ready.isOpen, hu.staged.trans hloaded.ready.staged,
          hu.line.trans ?_⟩
        simp only [Stream.line, hloaded.unread, hloaded.incoming, hloaded.ready.isOpen,
          Bool.false_eq_true, if_false, Link.line, List.append_nil]

end Dialogue

/-! ## Clients -/

/-- A session, and what is to be requested of it. -/
structure Client where
  session : Session
  requests : List Request

namespace Client

/-- The payloads that the session had sent before. -/
def base (c : Client) : List Bytes := c.session.phase.link.sent

/-- What the client comes to if no more than these chunks are ever delivered. -/
def run (c : Client) (chunks : List Bytes) : List Session.Outcome × Session :=
  Session.runAll (Request.steps c.requests) (c.session.delivering chunks)

/-- The payloads that the client sends on these chunks. -/
def sent (c : Client) (chunks : List Bytes) : List Bytes :=
  (c.run chunks).2.phase.link.sent.drop c.base.length

/-- On these chunks the client asks for bytes where none are left. With nothing more to come it is that
which breaks its session; otherwise it waits there. -/
def Waits (c : Client) (chunks : List Bytes) : Prop := Session.fed.starved (c.run chunks).2

instance (c : Client) (chunks : List Bytes) : Decidable (c.Waits chunks) :=
  inferInstanceAs (Decidable (Link.Starved _ ∧ _ = false))

/-- A client whose session is open and has nothing to read, and can be run. -/
structure Ready (cs : Charset) (c : Client) : Prop where
  stream : ∃ s, c.session.phase = .open s ∧ s.Loaded cs []
  handling : c.session.handling.Willing
  plain : ∀ request ∈ c.requests, request.Plain cs

/-- The dialogue that the client has when nothing takes any time. -/
def dialogue (cs : Charset) (b : Backend) (c : Client) : List (Except Fault Answer) × Dialogue :=
  Dialogue.runAll cs b c.requests { autocommit := c.session.autocommit }

/-- The statements of all queries in that dialogue. -/
def asked (cs : Charset) (b : Backend) (c : Client) : List Bytes := (c.dialogue cs b).2.asked

variable {cs : Charset} {b : Backend} {c : Client} {chunks : List Bytes}

theorem base_delivering (c : Client) (chunks : List Bytes) :
    (c.session.delivering chunks).phase.link.sent = c.base := by
  unfold Session.delivering base
  cases c.session.phase <;> rfl

theorem base_append_sent (c : Client) (chunks : List Bytes) :
    c.base ++ c.sent chunks = (c.run chunks).2.phase.link.sent := by
  obtain ⟨payloads, h⟩ := Session.grows_runAll c.requests (c.session.delivering chunks)
  have hall : (c.run chunks).2.phase.link.sent = c.base ++ payloads := by
    rw [← base_delivering c chunks]
    exact h.symm
  rw [sent, hall, List.drop_left]

/-- With more chunks the client does the same, unless it waits, and what it sent it has sent. -/
theorem run_append (c : Client) (chunks more : List Bytes) :
    c.run (chunks ++ more) =
        ((c.run chunks).1, Session.fed.feed (more.map .bytes) (c.run chunks).2) ∨
      c.Waits chunks ∧ c.sent chunks <+: c.sent (chunks ++ more) := by
  have h := Session.waits_runAll c.requests (c.session.delivering chunks) (more.map .bytes)
  rw [Session.feed_delivering] at h
  rcases h with h | ⟨hwaits, h⟩
  · exact .inl h
  · right
    refine ⟨hwaits, ?_⟩
    rw [← List.prefix_append_right_inj c.base, base_append_sent, base_append_sent]
    exact h

/-- More chunks do not undo what was sent. -/
theorem sent_prefix_append (c : Client) (chunks more : List Bytes) :
    c.sent chunks <+: c.sent (chunks ++ more) := by
  rcases c.run_append chunks more with h | ⟨-, h⟩
  · have hsame : c.sent (chunks ++ more) = c.sent chunks := by
      unfold sent
      rw [h]
      cases hp : (c.run chunks).2.phase <;> simp only [Session.fed, hp, Phase.mapLink] <;> rfl
    simp only [hsame, List.prefix_refl]
  · exact h

/-- A client on chunks that all have bytes is one that is loaded with their bytes, but for the
cutting. -/
theorem Ready.loaded (hc : c.Ready cs) (hchunks : ∀ chunk ∈ chunks, chunk ≠ []) :
    ∃ σ, (c.session.delivering chunks).Same σ ∧
      Dialogue.InStep cs c.session.handling c.base σ { autocommit := c.session.autocommit }
        chunks.flatten := by
  obtain ⟨s, hp, hs⟩ := hc.stream
  have hsame : Stream.Same { s with link := s.link.delivering (chunks.map .bytes) }
      (s.loaded chunks.flatten) :=
    Stream.same_loaded hs.ready.isOpen hs.unread rfl hchunks rfl
  have hready : (s.loaded chunks.flatten).Ready cs :=
    ⟨hs.ready.charset, hs.ready.isOpen, hs.ready.staged, hs.ready.sends⟩
  refine ⟨{ c.session with phase := .open (s.loaded chunks.flatten) }, ?_, ?_⟩
  · refine ⟨rfl, rfl, ?_, rfl, rfl, rfl⟩
    simp only [Session.delivering, hp, Phase.mapLink]
    exact .open hsame
  · refine ⟨⟨_, rfl, ⟨hready, rfl, rfl⟩, ?_⟩, rfl, rfl⟩
    simp only [base, hp, List.map_nil, List.append_nil]
    rfl

/-- On what answers all that the client asks it comes to what the dialogue comes to. What answers later
queries is left. -/
theorem Ready.follows (hb : b.Obeys cs) (hc : c.Ready cs) (hchunks : ∀ chunk ∈ chunks, chunk ≠ [])
    {later : List Bytes} (hall : chunks.flatten = b.output cs 0 (c.asked cs b ++ later)) :
    (c.run chunks).1 = (c.dialogue cs b).1.map .one ∧
      ∃ τ, (c.run chunks).2.Same τ ∧ Dialogue.InStep cs c.session.handling c.base τ (c.dialogue cs b).2
        (b.output cs (c.asked cs b).length later) := by
  obtain ⟨σ, hsame, hstep⟩ := hc.loaded hchunks
  rw [hall] at hstep
  obtain ⟨τ, hrun, hτ⟩ := Dialogue.full_runAll hb hc.handling c.requests (List.nil_append _).symm hstep
  obtain ⟨houtcomes, hstates⟩ := Session.same_runAll (Request.steps c.requests) hsame
  rw [hrun] at houtcomes hstates
  exact ⟨houtcomes, τ, hstates, hτ⟩

/-- What answers all that the client asks is enough, and nothing of it is left. -/
theorem Ready.agrees (hb : b.Obeys cs) (hc : c.Ready cs) (hchunks : ∀ chunk ∈ chunks, chunk ≠ [])
    (hall : chunks.flatten = b.output cs 0 (c.asked cs b)) :
    c.sent chunks = (c.asked cs b).map Query.frame ∧
      ∃ t, (c.run chunks).2.phase = .open t ∧ t.closed = false ∧ t.line = [] := by
  rw [← List.append_nil (c.asked cs b)] at hall
  obtain ⟨-, τ, hsame, hτ⟩ := hc.follows hb hchunks hall
  have h := hτ.agrees hsame
  obtain ⟨t, hopen, hclosed, -, hline⟩ := h.left
  refine ⟨?_, t, hopen, hclosed, hline⟩
  rw [← List.append_right_inj c.base, base_append_sent, h.sent]
  rfl

/-- What answers only the first queries is not enough, and more than those are sent. -/
theorem Ready.falls_short (hb : b.Obeys cs) (hc : c.Ready cs) (hchunks : ∀ chunk ∈ chunks, chunk ≠ [])
    {answered more : List Bytes} {ask : Bytes} (hasked : c.asked cs b = answered ++ ask :: more)
    (hall : chunks.flatten = b.output cs 0 answered) :
    (c.run chunks).2.isOpen = false ∧ answered.length < (c.sent chunks).length := by
  obtain ⟨σ, hsame, hstep⟩ := hc.loaded hchunks
  rw [hall] at hstep
  obtain ⟨hbroken, hsent⟩ := Dialogue.short_runAll hb hc.handling c.requests hasked hstep
  obtain ⟨-, hstates⟩ := Session.same_runAll (Request.steps c.requests) hsame
  refine ⟨hstates.isOpen.trans hbroken, ?_⟩
  rw [← hstates.matches.sent] at hsent
  have hlength : c.base.length + (c.sent chunks).length = _ :=
    List.length_append.symm.trans (congrArg List.length (c.base_append_sent chunks))
  simp only [List.length_nil, run] at hsent hlength
  omega

/-- What was delivered of what answers the client can be completed. -/
theorem exists_rest (hchunks : ∀ chunk ∈ chunks, chunk ≠ [])
    (h : chunks.flatten <+: b.output cs 0 (c.asked cs b)) :
    ∃ rest : List Bytes, (∀ chunk ∈ chunks ++ rest, chunk ≠ []) ∧
      (chunks ++ rest).flatten = b.output cs 0 (c.asked cs b) := by
  obtain ⟨more, h⟩ := h
  cases more with
  | nil => exact ⟨[], by simpa using hchunks, by simpa using h⟩
  | cons byte more =>
    refine ⟨[byte :: more], fun chunk hmem => ?_, by simpa using h⟩
    rcases List.mem_append.1 hmem with hmem | hmem
    · exact hchunks chunk hmem
    · rw [List.mem_singleton.1 hmem]
      exact List.cons_ne_nil _ _

/-- Whatever was delivered of its answers, the client sends nothing that the dialogue does not ask. -/
theorem Ready.prefix_sent (hb : b.Obeys cs) (hc : c.Ready cs) (hchunks : ∀ chunk ∈ chunks, chunk ≠ [])
    (h : chunks.flatten <+: b.output cs 0 (c.asked cs b)) :
    c.sent chunks <+: (c.asked cs b).map Query.frame := by
  obtain ⟨rest, hrest, hall⟩ := exists_rest hchunks h
  rw [← (hc.agrees hb hrest hall).1]
  exact c.sent_prefix_append chunks rest

/-- Where the client does not wait, all answers were delivered. -/
theorem Ready.flatten_eq (hb : b.Obeys cs) (hc : c.Ready cs) (hchunks : ∀ chunk ∈ chunks, chunk ≠ [])
    (h : chunks.flatten <+: b.output cs 0 (c.asked cs b)) (hw : ¬ c.Waits chunks) :
    chunks.flatten = b.output cs 0 (c.asked cs b) := by
  obtain ⟨rest, hrest, hall⟩ := exists_rest hchunks h
  obtain ⟨-, t, hopen, hclosed, hline⟩ := hc.agrees hb hrest hall
  rcases c.run_append chunks rest with hrun | ⟨hwaits, -⟩
  · rw [hrun] at hopen
    have hincoming : ∃ incoming, t.link.incoming = incoming ++ rest.map .bytes := by
      cases hp : (c.run chunks).2.phase with
      | fresh link | broken s => simp [Session.fed, hp, Phase.mapLink] at hopen
      | «open» s =>
        simp only [Session.fed, hp, Phase.mapLink, Phase.open.injEq] at hopen
        exact ⟨s.link.incoming, by rw [← hopen]; rfl⟩
    obtain ⟨incoming, hincoming⟩ := hincoming
    have hmore : ∀ chunk ∈ rest, chunk ≠ [] := fun chunk hmem =>
      hrest chunk (List.mem_append_right _ hmem)
    simp only [Stream.line, hclosed, hincoming, Link.line_append, Link.line_chunks hmore,
      Bool.false_eq_true, if_false, List.append_eq_nil_iff, List.map_eq_nil_iff] at hline
    rw [← hall, List.flatten_append, hline.2.2, List.append_nil]
  · exact absurd hwaits hw

/-- The client with other requests. -/
def doing (c : Client) (requests : List Request) : Client := { c with requests }

section Beginning

variable {first rest : List Request} {request : Request}

theorem Ready.doing (hc : c.Ready cs) (hr : c.requests = first ++ rest) : (c.doing first).Ready cs :=
  ⟨hc.stream, hc.handling, fun r hmem => hc.plain r (hr ▸ List.mem_append_left _ hmem)⟩

/-- What the client asks begins with what it asks for its first requests. -/
theorem prefix_asked_doing (cs : Charset) (b : Backend) (hr : c.requests = first ++ rest) :
    (c.doing first).asked cs b <+: c.asked cs b := by
  unfold asked dialogue
  rw [hr, Dialogue.runAll_append]
  exact Dialogue.prefix_runAll rest _

/-- Once all answers are there, the client agrees with the dialogue after each of its requests. -/
theorem Ready.doing_agrees (hb : b.Obeys cs) (hc : c.Ready cs) (hchunks : ∀ chunk ∈ chunks, chunk ≠ [])
    (hall : chunks.flatten = b.output cs 0 (c.asked cs b)) (hr : c.requests = first ++ rest) :
    ((c.doing first).run chunks).1 = ((c.doing first).dialogue cs b).1.map .one ∧
      Dialogue.Agrees cs b c.base ((c.asked cs b).drop ((c.doing first).asked cs b).length)
        ((c.doing first).run chunks).2 ((c.doing first).dialogue cs b).2 := by
  rw [← List.prefix_iff_eq_append.1 (prefix_asked_doing cs b hr)] at hall
  obtain ⟨houtcomes, τ, hsame, hτ⟩ := (hc.doing hr).follows hb hchunks hall
  exact ⟨houtcomes, hτ.agrees hsame⟩

/-- So it does between the two statements of a request that ends a transaction. -/
theorem Ready.verb_agrees (hb : b.Obeys cs) (hc : c.Ready cs) (hchunks : ∀ chunk ∈ chunks, chunk ≠ [])
    (hall : chunks.flatten = b.output cs 0 (c.asked cs b)) (hr : c.requests = first ++ request :: rest)
    {verb : Control} (hv : request.verb? = some verb)
    (hoff : ((c.doing first).dialogue cs b).2.autocommit = false) :
    let ended := Session.control verb ((c.doing first).run chunks).2
    let ideal := Dialogue.control cs b verb ((c.doing first).dialogue cs b).2
    Act.outcome ended = Act.outcome ideal ∧
      Dialogue.Agrees cs b c.base ((c.asked cs b).drop (Act.state ideal).asked.length)
        (Act.state ended) (Act.state ideal) := by
  intro ended ideal
  have hf : Dialogue.Follows cs b c.session.handling c.base (Session.control verb)
      (Dialogue.control cs b verb) := Dialogue.Follows.control hb hc.handling verb
  obtain ⟨new, hnew⟩ := hf.grows ((c.doing first).dialogue cs b).2
  have hideal : (Act.state ideal).asked <+: c.asked cs b := by
    refine (Dialogue.prefix_verb hv hoff).trans ?_
    unfold asked dialogue
    rw [hr, Dialogue.runAll_append]
    exact Dialogue.prefix_runAll rest _
  have hsplit : (c.doing first).asked cs b ++ (new ++ (c.asked cs b).drop (Act.state ideal).asked.length) =
      c.asked cs b := by
    rw [← List.append_assoc]
    exact (congrArg (· ++ _) hnew).trans (List.prefix_iff_eq_append.1 hideal)
  rw [← hsplit] at hall
  obtain ⟨-, τ, hsame, hτ⟩ := (hc.doing hr).follows hb hchunks hall
  obtain ⟨next, hact, hnext⟩ := hf.full hnew.symm hτ
  have halike := Session.respects_control verb _ _ hsame
  have hstates := halike.states
  rw [hact, Act.state_seen] at hstates
  refine ⟨halike.outcomes.trans ?_, hnext.agrees hstates⟩
  rw [hact, Act.outcome_seen]

end Beginning

end Client

/-! ## The network -/

/-- What is under way between a client and a backend. -/
structure Network where
  /-- The chunks that were delivered to the client, the earliest first. -/
  delivered : List Bytes := []
  /-- How many of them the client has taken. -/
  taken : Nat := 0
  /-- How many payloads the client has written. -/
  written : Nat := 0
  /-- How many queries the backend has answered. -/
  served : Nat := 0
  /-- What the backend has said and was not delivered yet. -/
  outbox : Bytes := []
  deriving DecidableEq, Repr

namespace Network

/-- The chunks that the client has taken. -/
def heard (n : Network) : List Bytes := n.delivered.take n.taken

/-- What can happen next: the client writes its next payload, or has written all that it can and waits,
and takes the next chunk; the backend answers the next query of those that it can read in what was
written; or some of what it said is delivered. -/
inductive Step (cs : Charset) (b : Backend) (c : Client) : Network → Network → Prop where
  | write {n : Network} (more : n.written < (c.sent n.heard).length) :
      Step cs b c n { n with written := n.written + 1 }
  | take {n : Network} (idle : n.written = (c.sent n.heard).length) (waits : c.Waits n.heard)
      (arrived : n.taken < n.delivered.length) : Step cs b c n { n with taken := n.taken + 1 }
  | serve {n : Network} {statements : List Bytes} {statement : Bytes}
      (readable : Query.statements? ((c.sent n.heard).take n.written).flatten = some statements)
      (next : statements[n.served]? = some statement) :
      Step cs b c n { n with
        served := n.served + 1
        outbox := n.outbox ++ (b.answer n.served statement).bytes cs }
  | deliver {n : Network} {chunk rest : Bytes} (nonempty : chunk ≠ []) (next : n.outbox = chunk ++ rest) :
      Step cs b c n { n with delivered := n.delivered ++ [chunk], outbox := rest }

/-- So many steps, one after the other. -/
inductive Steps (cs : Charset) (b : Backend) (c : Client) : Nat → Network → Network → Prop where
  | refl (n : Network) : Steps cs b c 0 n n
  | tail {count : Nat} {l m n : Network} (steps : Steps cs b c count l m) (step : Step cs b c m n) :
      Steps cs b c (count + 1) l n

/-- The client has made all its requests, and waits for nothing. -/
structure Finished (c : Client) (n : Network) : Prop where
  idle : n.written = (c.sent n.heard).length
  quiet : ¬ c.Waits n.heard

/-- What was said answers the queries that were served, and those were written. -/
structure Sound (cs : Charset) (b : Backend) (c : Client) (n : Network) : Prop where
  chunks : ∀ chunk ∈ n.delivered, chunk ≠ []
  taken : n.taken ≤ n.delivered.length
  written : n.written ≤ (c.sent n.heard).length
  served : n.served ≤ n.written
  said : n.delivered.flatten ++ n.outbox = b.output cs 0 ((c.asked cs b).take n.served)

variable {cs : Charset} {b : Backend} {c : Client} {n m : Network}

theorem prefix_output_take (b : Backend) (cs : Charset) (count : Nat) (statements : List Bytes) :
    b.output cs 0 (statements.take count) <+: b.output cs 0 statements := by
  have h := b.output_append cs 0 (statements.take count) (statements.drop count)
  rw [List.take_append_drop] at h
  rw [h]
  exact List.prefix_append _ _

namespace Sound

theorem chunks_heard (h : n.Sound cs b c) : ∀ chunk ∈ n.heard, chunk ≠ [] :=
  fun chunk hmem => h.chunks chunk (List.mem_of_mem_take hmem)

theorem prefix_delivered (h : n.Sound cs b c) :
    n.delivered.flatten <+: b.output cs 0 (c.asked cs b) :=
  (List.prefix_append _ n.outbox).trans (h.said ▸ prefix_output_take b cs n.served (c.asked cs b))

theorem prefix_heard (h : n.Sound cs b c) : n.heard.flatten <+: b.output cs 0 (c.asked cs b) := by
  have hsplit := congrArg List.flatten (List.take_append_drop n.taken n.delivered)
  rw [List.flatten_append] at hsplit
  exact List.IsPrefix.trans ⟨_, hsplit⟩ h.prefix_delivered

/-- What was written are the first queries of the dialogue. -/
theorem written_eq (hb : b.Obeys cs) (hc : c.Ready cs) (h : n.Sound cs b c) :
    (c.sent n.heard).take n.written = ((c.asked cs b).take n.written).map Query.frame := by
  have hp := hc.prefix_sent hb h.chunks_heard h.prefix_heard
  rw [List.map_take, List.prefix_iff_eq_take.1 hp, List.take_take, Nat.min_eq_left h.written]

theorem written_le (hb : b.Obeys cs) (hc : c.Ready cs) (h : n.Sound cs b c) :
    n.written ≤ (c.asked cs b).length := by
  have hp := (hc.prefix_sent hb h.chunks_heard h.prefix_heard).length_le
  rw [List.length_map] at hp
  exact Nat.le_trans h.written hp

/-- The backend can read all that was written. -/
theorem readable (hb : b.Obeys cs) (hc : c.Ready cs) (h : n.Sound cs b c) :
    Query.statements? ((c.sent n.heard).take n.written).flatten =
      some ((c.asked cs b).take n.written) := by
  rw [h.written_eq hb hc]
  apply Query.statements?_frames
  intro text hmem
  exact Dialogue.plain_runAll hc.plain c.session.autocommit text (List.mem_of_mem_take hmem)

theorem start (cs : Charset) (b : Backend) (c : Client) : Sound cs b c {} where
  chunks _ hmem := absurd hmem List.not_mem_nil
  taken := Nat.le_refl _
  written := Nat.zero_le _
  served := Nat.le_refl _
  said := rfl

theorem step (hb : b.Obeys cs) (hc : c.Ready cs) (h : n.Sound cs b c) (hs : Step cs b c n m) :
    m.Sound cs b c := by
  cases hs with
  | write more => exact { h with written := more, served := Nat.le_succ_of_le h.served }
  | take idle waits arrived =>
    have hheard : n.delivered.take (n.taken + 1) = n.heard ++ [n.delivered[n.taken]] :=
      (List.take_append_getElem arrived).symm
    refine { h with taken := arrived, written := Nat.le_trans h.written ?_ }
    show _ ≤ (c.sent (n.delivered.take (n.taken + 1))).length
    rw [hheard]
    exact (c.sent_prefix_append n.heard _).length_le
  | @serve statements statement readable next =>
    rw [h.readable hb hc, Option.some.injEq] at readable
    subst readable
    obtain ⟨hlt, rfl⟩ := List.getElem?_eq_some_iff.1 next
    rw [List.length_take] at hlt
    refine { h with served := by show n.served + 1 ≤ n.written; omega, said := ?_ }
    have hserved : n.served < (c.asked cs b).length := by omega
    show n.delivered.flatten ++ (n.outbox ++ _) = b.output cs 0 ((c.asked cs b).take (n.served + 1))
    rw [← List.append_assoc, h.said, ← List.take_append_getElem hserved, Backend.output_append,
      List.length_take, Nat.min_eq_left (by omega), List.getElem_take]
    simp [Backend.output]
  | @deliver chunk rest nonempty next =>
    have hsaid := h.said
    rw [next] at hsaid
    have hheard : ({ n with delivered := n.delivered ++ [chunk], outbox := rest } : Network).heard =
        n.heard := List.take_append_of_le_length h.taken
    refine ⟨fun chunk' hmem => ?_, ?_, ?_, h.served, ?_⟩
    · rcases List.mem_append.1 hmem with hmem | hmem
      · exact h.chunks chunk' hmem
      · rw [List.mem_singleton.1 hmem]
        exact nonempty
    · show n.taken ≤ (n.delivered ++ [chunk]).length
      rw [List.length_append]
      exact Nat.le_add_right_of_le h.taken
    · rw [hheard]
      exact h.written
    · show (n.delivered ++ [chunk]).flatten ++ rest = b.output cs 0 ((c.asked cs b).take n.served)
      rw [← hsaid]
      simp

theorem steps (hb : b.Obeys cs) (hc : c.Ready cs) (h : n.Sound cs b c) {count : Nat}
    (hs : Steps cs b c count n m) : m.Sound cs b c := by
  induction hs with
  | refl => exact h
  | tail _ hstep ih => exact (ih h).step hb hc hstep

/-- While not all is answered the client waits for more than was said, and has sent more than was
answered. -/
theorem falls_short (hb : b.Obeys cs) (hc : c.Ready cs) (h : n.Sound cs b c)
    (hserved : n.served < (c.asked cs b).length) (hout : n.outbox = []) :
    (c.run n.delivered).2.isOpen = false ∧ n.served < (c.sent n.delivered).length := by
  have hsaid := h.said
  rw [hout, List.append_nil] at hsaid
  have hasked : c.asked cs b = (c.asked cs b).take n.served ++
      (c.asked cs b)[n.served] :: (c.asked cs b).drop (n.served + 1) := by
    rw [← List.drop_eq_getElem_cons hserved, List.take_append_drop]
  have hshort := hc.falls_short hb h.chunks hasked hsaid
  rw [List.length_take, Nat.min_eq_left (Nat.le_of_lt hserved)] at hshort
  exact hshort

/-- No run gets stuck: where the client has not finished, something can happen. -/
theorem progress (hb : b.Obeys cs) (hc : c.Ready cs) (h : n.Sound cs b c) :
    n.Finished c ∨ ∃ m, Step cs b c n m := by
  by_cases more : n.written < (c.sent n.heard).length
  · exact .inr ⟨_, .write more⟩
  have idle : n.written = (c.sent n.heard).length := Nat.le_antisymm h.written (Nat.not_lt.1 more)
  by_cases quiet : ¬ c.Waits n.heard
  · exact .inl ⟨idle, quiet⟩
  have waits := Classical.not_not.1 quiet
  by_cases arrived : n.taken < n.delivered.length
  · exact .inr ⟨_, .take idle waits arrived⟩
  have hheard : n.heard = n.delivered := List.take_of_length_le (Nat.not_lt.1 arrived)
  by_cases hsome : n.outbox ≠ []
  · exact .inr ⟨_, .deliver hsome (List.append_nil _).symm⟩
  have hout := Classical.not_not.1 hsome
  have hwritten := h.written_le hb hc
  by_cases hserved : n.served < n.written
  · have hlt : n.served < (c.asked cs b).length := by omega
    have hnext : ((c.asked cs b).take n.written)[n.served]? = some (c.asked cs b)[n.served] := by
      rw [List.getElem?_take_of_lt hserved, List.getElem?_eq_getElem hlt]
    exact .inr ⟨_, .serve (h.readable hb hc) hnext⟩
  -- what is left cannot be: all that was sent is answered, all of it has arrived, and the client waits
  exfalso
  rw [hheard] at idle waits
  have hle := h.served
  by_cases hall : n.served < (c.asked cs b).length
  · have hsent := (h.falls_short hb hc hall hout).2
    omega
  · have hsaid := h.said
    rw [hout, List.append_nil, List.take_of_length_le (Nat.not_lt.1 hall)] at hsaid
    obtain ⟨-, t, hopen, -⟩ := hc.agrees hb h.chunks hsaid
    have hbroken := waits.2
    simp [Session.isOpen, hopen] at hbroken

/-- A client that has finished has taken all that it is answered, and nothing else is under way. -/
theorem drained (hb : b.Obeys cs) (hc : c.Ready cs) (h : n.Sound cs b c) (hf : n.Finished c) :
    n.taken = n.delivered.length ∧ n.outbox = [] ∧ n.served = (c.asked cs b).length ∧
      n.delivered.flatten = b.output cs 0 (c.asked cs b) := by
  have hheard := hc.flatten_eq hb h.chunks_heard h.prefix_heard hf.quiet
  have hsplit := congrArg (fun chunks => chunks.flatten.length) (List.take_append_drop n.taken n.delivered)
  have hdelivered := h.prefix_delivered.length_le
  have hsaid := congrArg List.length h.said
  have htake := (prefix_output_take b cs n.served (c.asked cs b)).length_le
  simp only [List.flatten_append, List.length_append] at hsplit hsaid
  rw [show n.delivered.take n.taken = n.heard from rfl, hheard] at hsplit
  have hout : n.outbox = [] := List.eq_nil_of_length_eq_zero (by omega)
  have hdrop : (n.delivered.drop n.taken).flatten = [] := List.eq_nil_of_length_eq_zero (by omega)
  have hnone : n.delivered.drop n.taken = [] := by
    apply List.eq_nil_iff_forall_not_mem.2
    intro chunk hmem
    exact h.chunks chunk (List.mem_of_mem_drop hmem) (List.flatten_eq_nil_iff.1 hdrop chunk hmem)
  have htaken : n.taken = n.delivered.length :=
    Nat.le_antisymm h.taken (List.drop_eq_nil_iff.1 hnone)
  have hflatten : n.delivered.flatten = b.output cs 0 (c.asked cs b) := by
    rw [← hheard, heard, htaken, List.take_length]
  have hall : ¬ n.served < (c.asked cs b).length := by
    intro hserved
    obtain ⟨-, t, hopen, -⟩ := hc.agrees hb h.chunks hflatten
    have hbroken := (h.falls_short hb hc hserved hout).1
    simp [Session.isOpen, hopen] at hbroken
  have hle := h.served
  have hwritten := h.written_le hb hc
  exact ⟨htaken, hout, by omega, hflatten⟩

end Sound

/-- Each step adds to what was written, taken, served or delivered. -/
theorem Steps.count_eq {count : Nat} (h : Steps cs b c count n m) :
    m.written + m.taken + m.served + m.delivered.length =
      n.written + n.taken + n.served + n.delivered.length + count := by
  induction h with
  | refl => rfl
  | tail _ hstep ih =>
    cases hstep <;> simp only [List.length_append, List.length_singleton] <;> omega

theorem length_le_length_flatten {chunks : List Bytes} (h : ∀ chunk ∈ chunks, chunk ≠ []) :
    chunks.length ≤ chunks.flatten.length := by
  induction chunks with
  | nil => exact Nat.le_refl _
  | cons chunk rest ih =>
    have hr := ih fun chunk' hmem => h chunk' (List.mem_cons_of_mem _ hmem)
    have hc := List.length_pos_iff.2 (h chunk List.mem_cons_self)
    simp only [List.flatten_cons, List.length_append, List.length_cons]
    omega

/-- No run has more steps than there are queries to write and to serve and chunks to deliver and to
take. -/
theorem Sound.count_le (hb : b.Obeys cs) (hc : c.Ready cs) (h : n.Sound cs b c) :
    n.written + n.taken + n.served + n.delivered.length ≤
      2 * ((c.asked cs b).length + (b.output cs 0 (c.asked cs b)).length) := by
  have hwritten := h.written_le hb hc
  have hserved := h.served
  have htaken := h.taken
  have hbytes := h.prefix_delivered.length_le
  have hchunks := length_le_length_flatten h.chunks
  omega

/-- All is in step again: nothing is under way, and the client agrees with the dialogue, after each of
its requests and between the two statements of one that ends a transaction. -/
structure Resynchronised (cs : Charset) (b : Backend) (c : Client) (n : Network) : Prop where
  taken : n.taken = n.delivered.length
  outbox : n.outbox = []
  served : n.served = (c.asked cs b).length
  requests : ∀ {first rest}, c.requests = first ++ rest →
    ((c.doing first).run n.delivered).1 = ((c.doing first).dialogue cs b).1.map .one ∧
      Dialogue.Agrees cs b c.base ((c.asked cs b).drop ((c.doing first).asked cs b).length)
        ((c.doing first).run n.delivered).2 ((c.doing first).dialogue cs b).2
  verbs : ∀ {first request rest verb}, c.requests = first ++ request :: rest →
    request.verb? = some verb → ((c.doing first).dialogue cs b).2.autocommit = false →
    let ended := Session.control verb ((c.doing first).run n.delivered).2
    let ideal := Dialogue.control cs b verb ((c.doing first).dialogue cs b).2
    Act.outcome ended = Act.outcome ideal ∧
      Dialogue.Agrees cs b c.base ((c.asked cs b).drop (Act.state ideal).asked.length)
        (Act.state ended) (Act.state ideal)

end Network

/-- **Conversations complete.** However a client and a backend that answers as it should take turns, and
however what is said is cut and delayed: no run takes more steps than twice the queries that the
dialogue asks and the bytes that answer them; no run gets stuck before the client has finished; and then
the requests have come to what the dialogue comes to, each statement was sent with exactly the flush
queries that its answer calls for, each has taken its own answer with the acknowledgments and nothing
else, and nothing is under way. -/
theorem conversation_completes {cs : Charset} {b : Backend} (hb : b.Obeys cs) {c : Client}
    (hc : c.Ready cs) {count : Nat} {n : Network} (h : Network.Steps cs b c count {} n) :
    count ≤ 2 * ((c.asked cs b).length + (b.output cs 0 (c.asked cs b)).length) ∧
      (n.Finished c ∨ ∃ m, Network.Step cs b c n m) ∧
      (n.Finished c → n.Resynchronised cs b c) := by
  have hsound := (Network.Sound.start cs b c).steps hb hc h
  refine ⟨?_, hsound.progress hb hc, ?_⟩
  · have hcount := h.count_eq
    have hle := hsound.count_le hb hc
    simp only [List.length_nil] at hcount
    omega
  · intro hf
    obtain ⟨htaken, hout, hserved, hall⟩ := hsound.drained hb hc hf
    exact
      { taken := htaken
        outbox := hout
        served := hserved
        requests := hc.doing_agrees hb hsound.chunks hall
        verbs := fun hr hv hoff => hc.verb_agrees hb hsound.chunks hall hr hv hoff }

/-- A statement that is answered with one status. The flush query is sent when that has arrived. -/
theorem conversation_of_one_status :
    let c : Client :=
      { session := { settings := { database := "d", user := "u" }, phase := .open { link := {} } }
        requests := [.query "x"] }
    let status : Bytes := [0x43, 0x64, 0x6F, 0x6E, 0x65, 0x00]
    let n : Network := { delivered := [status, [0x49, 0x00]], taken := 2, written := 2, served := 2 }
    Network.Steps .utf8 Backend.dutiful c 8 {} n ∧ n.Finished c ∧
      n.Resynchronised .utf8 Backend.dutiful c := by
  intro c status n
  have hc : c.Ready .utf8 := by
    refine ⟨⟨{ link := {} }, rfl, ⟨⟨rfl, rfl, rfl, by decide⟩, rfl, rfl⟩⟩, NoticeHandling.willing_logged, ?_⟩
    intro request hmem
    rw [List.mem_singleton.1 hmem]
    intro text he
    cases he
    decide
  let n₁ : Network := { written := 1 }
  let n₂ : Network := { n₁ with served := 1, outbox := [] ++ (Backend.dutiful.answer 0 [0x78]).bytes .utf8 }
  let n₃ : Network := { n₂ with delivered := [status], outbox := [] }
  let n₄ : Network := { n₃ with taken := 1 }
  let n₅ : Network := { n₄ with written := 2 }
  let n₆ : Network := { n₅ with served := 2, outbox := [] ++ (Backend.dutiful.answer 1 [0x20]).bytes .utf8 }
  let n₇ : Network := { n₆ with delivered := [status, [0x49, 0x00]], outbox := [] }
  have hs₁ : Network.Step .utf8 Backend.dutiful c {} n₁ := .write (by decide +kernel)
  have hs₂ : Network.Step .utf8 Backend.dutiful c n₁ n₂ :=
    @Network.Step.serve .utf8 _ c n₁ [[0x78]] [0x78] (by decide +kernel) rfl
  have hs₃ : Network.Step .utf8 Backend.dutiful c n₂ n₃ :=
    .deliver (by decide) (by decide +kernel)
  have hs₄ : Network.Step .utf8 Backend.dutiful c n₃ n₄ :=
    .take (by decide +kernel) (by decide +kernel) (by decide)
  have hs₅ : Network.Step .utf8 Backend.dutiful c n₄ n₅ := .write (by decide +kernel)
  have hs₆ : Network.Step .utf8 Backend.dutiful c n₅ n₆ :=
    @Network.Step.serve .utf8 _ c n₅ [[0x78], [0x20]] [0x20] (by decide +kernel) rfl
  have hs₇ : Network.Step .utf8 Backend.dutiful c n₆ n₇ :=
    .deliver (by decide) (by decide +kernel)
  have hs₈ : Network.Step .utf8 Backend.dutiful c n₇ n :=
    .take (by decide +kernel) (by decide +kernel) (by decide)
  have hs : Network.Steps .utf8 Backend.dutiful c 8 {} n :=
    (((((((Network.Steps.refl {}).tail hs₁).tail hs₂).tail hs₃).tail hs₄).tail hs₅).tail hs₆).tail hs₇
      |>.tail hs₈
  have hf : n.Finished c := ⟨by decide +kernel, by decide +kernel⟩
  exact ⟨hs, hf, (conversation_completes (Backend.obeys_dutiful .utf8) hc hs).2.2 hf⟩

end SimpleQuery
