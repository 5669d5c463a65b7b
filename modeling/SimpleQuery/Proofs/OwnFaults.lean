import SimpleQuery.Proofs.Connecting

/-!
# Sessions that give up only with faults of their own

Only a handler, a charset and an attempt to connect give up with faults that are not the client's own. Where
no handler raises an error and texts travel in UTF-8, which spells them all, every fault of a session that has
its stream is one of its own.

* `Act.Owns` — from a state of some kind, an action leaves such a state and gives up only with own faults.
* `Stream.owns_query` — a statement does, where the charset of the stream is UTF-8.
* `Session.own_of_connect` — so does connecting, unless the attempt is one that cannot be made.
* `Session.owns_perform` — and so does every other operation.
-/

set_option autoImplicit false

namespace SimpleQuery

namespace Act

variable {σ α : Type} {good : σ → Prop}

/-- From a good state the action leaves a good one, and gives up only with a fault of the client's own. -/
def Owns (good : σ → Prop) (act : Act σ α) : Prop :=
  ∀ s, good s → good (state (act s)) ∧ ∀ fault, outcome (act s) = .error fault → fault.isOwn = true

theorem Owns.throw {fault : Fault} (own : fault.isOwn = true) : Owns good (throw fault : Act σ α) := by
  intro s hs
  refine ⟨hs, fun cause h => ?_⟩
  cases h
  exact own

theorem Owns.sequencing : Sequencing fun {α : Type} (act : Act σ α) => Owns good act where
  pure a s hs := ⟨hs, fun fault h => by cases h⟩
  violate cause := .throw rfl
  bind {α β act next} h hn := by
    intro s hs
    obtain ⟨kept, own⟩ := h s hs
    simp only [Bind.bind, EStateM.bind]
    cases hr : act s with
    | ok a t =>
      rw [hr] at kept
      exact hn a t kept
    | error fault t =>
      rw [hr] at kept own
      refine ⟨kept, fun cause hcause => ?_⟩
      cases hcause
      exact own fault rfl

theorem Owns.get_bind {next : σ → Act σ α} (h : ∀ s, Owns good (next s)) :
    Owns good (MonadState.get >>= next) :=
  fun s => h s s

/-- An action that keeps the state good, whatever comes of it. -/
theorem Owns.of_moves {r : σ → σ → Prop} {act : Act σ α} (moves : Moves r act)
    (kept : ∀ s t, r s t → good s → good t) (within : Within Fault.isOwn act) : Owns good act := by
  intro s hs
  refine ⟨kept _ _ (moves s) hs, fun fault h => ?_⟩
  cases hr : act s with
  | ok a t =>
    rw [hr] at h
    cases h
  | error cause t =>
    rw [hr] at h
    cases h
    exact within s _ t hr

end Act

/-- UTF-8 spells every text. -/
theorem Text.encodeIn_utf8 (text : String) :
    encodeIn (.known .utf8) text = .ok (Utf8.encode text.toList) := rfl

/-! ## A statement -/

namespace Stream

open Act (Owns)

/-- Whether texts travel in UTF-8. -/
def Plain (s : Stream) : Prop := s.charset = .known .utf8

theorem Keeps.plain (s t : Stream) (h : s.Keeps t) (plain : s.Plain) : t.Plain := h.charset.trans plain

theorem owns_encode (text : String) :
    Owns Plain (MonadState.get >>= fun s : Stream => Act.ofExcept (s.encode text)) := by
  intro s hs
  have run : (MonadState.get >>= fun s : Stream => Act.ofExcept (s.encode text) : Act Stream Bytes) s =
      Act.ofExcept (Text.encodeIn s.charset text) s := rfl
  rw [run, show s.charset = .known .utf8 from hs, Text.encodeIn_utf8]
  exact ⟨hs, fun fault h => by cases h⟩

theorem owns_decode (bytes : Bytes) :
    Owns Plain (MonadState.get >>= fun s : Stream => Act.ofExcept (s.decode bytes)) := by
  intro s hs
  have run : (MonadState.get >>= fun s : Stream => Act.ofExcept (s.decode bytes) : Act Stream String) s =
      Act.ofExcept (Text.decodeIn s.charset bytes) s := rfl
  rw [run, show s.charset = .known .utf8 from hs]
  exact ⟨hs, fun fault h => by cases h⟩

theorem owns_logged (entry : Log.Entry) : Owns Plain (logged entry) :=
  fun _ hs => ⟨hs, fun fault h => by cases h⟩

theorem assembly_owns : Assembly fun {α : Type} (act : Act Stream α) => Owns Plain act where
  toSequencing := Owns.sequencing
  logged := owns_logged
  receive n := .of_moves (along_keeps.receive n) Keeps.plain (within_receive (fun _ => rfl) n)
  receiveText cap _ := by
    apply receiveText_of Owns.sequencing owns_logged
    · refine Owns.sequencing.bind ?_ fun _ => ?_
      · exact .of_moves along_keeps.await Keeps.plain (within_await fun _ => rfl)
      · exact .of_moves (along_keeps.gather cap) Keeps.plain (within_gather (fun _ => rfl) cap)
    · exact owns_decode

theorem owns_sendQuery (statement : Bytes) : Owns Plain (sendQuery statement) := by
  have charset : Act.Moves (fun s t : Stream => t.charset = s.charset) (sendQuery statement) := by
    intro s
    rcases sendQuery_cases statement s with ⟨fault, t, hs, -, charset, -⟩ | ⟨t, hs, -, charset, -⟩ <;>
    · rw [hs]
      exact charset
  exact .of_moves charset (fun _ _ kept plain => kept.trans plain) (within_sendQuery (fun _ => rfl) _)

end Stream

namespace Reader

open Act (Owns)

theorem assembly_owns {handling : NoticeHandling} (hh : handling.Willing) :
    Assembly handling (fun {α : Type} (act : Act Stream α) => Owns Stream.Plain act)
      fun {α : Type} (act : Act Reader α) => Owns (fun r : Reader => r.stream.Plain) act where
  toSequencing := Owns.sequencing
  reading := Stream.assembly_owns
  handle notice s hs := by
    cases handling with
    | logged => exact ⟨hs, fun fault h => by cases h⟩
    | handled raises =>
      rw [handle_of_willing hh]
      exact ⟨hs, fun fault h => by cases h⟩
  sends := Stream.owns_sendQuery _
  onStream {α act} h r hr := by
    have owned := h r.stream hr
    unfold onStream Act.on
    cases hs : act r.stream with
    | ok a s | error fault s =>
      rw [hs] at owned
      exact owned
  respond _ _ hr := ⟨hr, fun fault h => by cases h⟩
  response _ hn r := hn r.response r
  pairwise h r := by
    obtain ⟨part, hpart, hr, -⟩ := h r r
    rw [hr]
    exact hpart r

end Reader

open Act (Owns)

variable {handling : NoticeHandling}

namespace Stream

theorem owns_receiveAnswer (hh : handling.Willing) : Owns Plain (receiveAnswer handling) := by
  intro s hs
  have read := (Reader.assembly_owns hh).read (fun _ => .throw rfl) { stream := s } hs
  unfold receiveAnswer
  cases hr : Reader.read handling { stream := s } with
  | ok bundle r | error fault r =>
    rw [hr] at read
    exact read

theorem owns_query (hh : handling.Willing) (statement : String) :
    Owns Plain (query handling statement) :=
  query_of Owns.sequencing owns_encode owns_sendQuery (owns_receiveAnswer hh) (fun _ => .throw rfl)
    statement

end Stream

/-! ## A session -/

namespace Session

theorem owns_execute (hh : handling.Willing) (statement : String) :
    Owns Stream.Plain (execute handling statement) := by
  intro s hs
  obtain ⟨-, own⟩ := Stream.owns_query hh statement s hs
  rw [← outcome_execute] at own
  exact ⟨(charset_execute handling statement s).trans hs, own⟩

theorem owns_probing (settings : Settings) (hh : handling.Willing) :
    Owns Stream.Plain (probing settings handling) := by
  refine Owns.sequencing.bind (owns_execute hh _) fun _ => ?_
  unfold beginning
  split
  · exact Owns.sequencing.bind (owns_execute hh _) fun _ => Owns.sequencing.pure _
  · exact Owns.sequencing.pure _

/-- A session in which nothing gives up but the client: no handler raises an error, and texts travel in
UTF-8. -/
structure Plain (session : Session) : Prop where
  handled : session.handling.Willing
  encoding : session.settings.encoding.charset = .known .utf8
  charset : session.charset = .known .utf8
  tidy : session.Tidy

theorem Plain.packetOf {session : Session} (h : session.Plain) :
    ∃ packet, Startup.packetOf session.settings = .ok packet := by
  unfold Startup.packetOf
  rw [h.encoding]
  exact ⟨_, rfl⟩

/-- On the stream of a plain session an action gives up as it does there. -/
theorem owns_onStream {α : Type} {act : Act Stream α} {session : Session}
    (h : Owns Stream.Plain act) (plain : session.Plain) {fault : Fault}
    (hf : Act.outcome (onStream act session) = .error fault) : fault.isOwn = true := by
  cases ho : session.isOpen with
  | false =>
    rw [onStream_of_not_open act ho] at hf
    cases hf
    rfl
  | true =>
    obtain ⟨s, hs⟩ := open_of_isOpen ho
    rw [(onStream_eq act hs).1] at hf
    refine (h s ?_).2 fault hf
    have charset := plain.charset
    rwa [Session.charset, hs] at charset

theorem owns_query (statement : String) : Owns Plain (query statement) := by
  intro session plain
  have said := said_query plain.tidy statement
  refine ⟨⟨?_, ?_, said.charset.trans plain.charset, said.tidy⟩, fun fault hf => ?_⟩
  · rw [handling_query]
    exact plain.handled
  · rw [said.settings]
    exact plain.encoding
  · exact owns_onStream (owns_execute plain.handled statement) plain hf

theorem owns_control (statement : Control) : Owns Plain (control statement) :=
  Owns.sequencing.bind (owns_query _) fun _ => Owns.sequencing.pure _

theorem owns_requireOpen : Owns Plain requireOpen := by
  intro session plain
  rw [state_requireOpen]
  exact ⟨plain, fun fault hf => owns_onStream (Owns.sequencing.pure _) plain hf⟩

theorem owns_noteAutocommit (autocommit : Bool) : Owns Plain (noteAutocommit autocommit) :=
  fun _ plain => ⟨⟨plain.handled, plain.encoding, plain.charset, plain.tidy⟩, fun fault hf => by cases hf⟩

theorem owns_setAutocommit (autocommit : Bool) : Owns Plain (setAutocommit autocommit) := by
  refine Owns.sequencing.bind owns_requireOpen fun _ => Owns.get_bind fun session => ?_
  split
  · exact Owns.sequencing.bind (owns_control _) fun _ => owns_noteAutocommit autocommit
  · exact Owns.sequencing.pure _

theorem owns_finish (statement : Control) : Owns Plain (finish statement) := by
  refine Owns.sequencing.bind owns_requireOpen fun _ => Owns.get_bind fun session => ?_
  split
  · refine Owns.sequencing.bind (owns_control _) fun _ => ?_
    refine Owns.sequencing.bind (owns_noteAutocommit true) fun _ => ?_
    exact Owns.sequencing.bind (owns_control _) fun _ => owns_noteAutocommit false
  · exact Owns.sequencing.pure _

/-- A handshake gives up only with a fault of the client's own. -/
theorem Greets.own {session after : Session} {s : Stream} {fault : Fault} (plain : session.Plain)
    (here : s.charset = session.charset) (h : Greets session s (.error fault after)) :
    fault.isOwn = true := by
  cases h with
  | unspelled unspelled foreign =>
    obtain ⟨packet, spelled⟩ := plain.packetOf
    cases spelled.symm.trans unspelled
  | unsent | failed => rfl
  | @abandoned packet t u _ spelled packed probed foreign =>
    have charset : t.charset = .known .utf8 := packed.charset.trans (here.trans plain.charset)
    exact (owns_probing session.settings plain.handled t charset).2 fault (by rw [probed]; rfl)

theorem plain_connect {session : Session} (plain : session.Plain) : (Act.state (connect session)).Plain := by
  cases ho : session.isOpen with
  | true =>
    obtain ⟨s, hs⟩ := open_of_isOpen ho
    simp only [connect, hs]
    exact plain
  | false =>
    obtain ⟨packets, payloads, starts⟩ := starts_connect plain.tidy ho
    refine ⟨?_, ?_, starts.charset.trans plain.charset, starts.tidy⟩
    · rw [handling_connect]
      exact plain.handled
    · rw [starts.settings]
      exact plain.encoding

/-- Connecting gives up with a fault of the client's own, unless the attempt is one that cannot be made. -/
theorem own_of_connect {session after : Session} {fault : Fault} (plain : session.Plain)
    (h : connect session = .error fault after) :
    fault.isOwn = true ∨ ∃ cause, session.unreached = some (.foreign cause) ∧ fault = .foreign cause := by
  have connects := connects_connect plain.tidy
  rw [h] at connects
  cases connects with
  | undialled phase dials =>
    obtain ⟨cause, fails, rfl, -⟩ := link_of_dial dials
    cases cause with
    | refused reason => exact .inl rfl
    | «foreign» cause =>
      refine .inr ⟨cause, ?_, rfl⟩
      rw [unreached, phase]
      exact fails
  | dialled phase dials greets =>
    refine .inl (greets.own plain ?_)
    rw [(justDialled_of_dial dials).charset, charset, phase]
  | again phase greets =>
    refine .inl (greets.own plain ?_)
    rw [charset, phase]
    rfl

/-- A session that is closed stays plain. -/
theorem Plain.close {session : Session} (plain : session.Plain) : session.close.Plain := by
  have said := said_close plain.tidy ()
  refine ⟨?_, ?_, said.charset.trans plain.charset, said.tidy⟩
  · have handling : session.close.handling = session.handling := by
      unfold Session.close
      split <;> rfl
    rw [handling]
    exact plain.handled
  · rw [show session.close.settings = session.settings from said.settings]
    exact plain.encoding

/-- Whatever else a plain session is asked, it gives up only with a fault of the client's own. -/
theorem owns_perform {command : Command} (other : command ≠ .connect) : Owns Plain (perform command) := by
  have answers {α : Type} {act : Act Session α} (answer : α → Answer) (h : Owns Plain act) :
      Owns Plain (act >>= fun a => pure (answer a)) :=
    Owns.sequencing.bind h fun _ => Owns.sequencing.pure _
  cases command with
  | connect => exact absurd rfl other
  | query statement => exact answers _ (owns_query statement)
  | setAutocommit autocommit => exact answers _ (owns_setAutocommit autocommit)
  | commit | rollback => exact answers _ (owns_finish _)
  | close => exact fun _ plain => ⟨plain.close, fun fault h => by cases h⟩
  | feed more =>
    intro session plain
    have said := said_feed plain.tidy more Answer.done
    exact ⟨⟨plain.handled, plain.encoding, said.charset.trans plain.charset, said.tidy⟩,
      fun fault h => by cases h⟩
  | setIsolation | metadata | prepareCall => exact .throw rfl
  | setReadOnly | setCursorName =>
    exact fun _ plain => ⟨⟨plain.handled, plain.encoding, plain.charset, plain.tidy⟩,
      fun fault h => by cases h⟩
  | isOpen | get | describe | setCatalog | clearWarnings | nativeStatement =>
    exact fun _ plain => ⟨plain, fun fault h => by cases h⟩

end Session

end SimpleQuery
