import SimpleQuery.Proofs.Exchange
import SimpleQuery.Proofs.Lifecycle
import SimpleQuery.Proofs.Prospect

/-!
# Bytes that a query leaves behind

Nothing is put away between two queries: the bytes that one has not read are the first that the next one
reads. A query is done with the status of its first row group, and with the first message that does not fit,
whatever the backend has still to say.

* `Response.reaches_group` — a row group is an answer of its own.
* `Session.execute_ahead` — a complete answer is read, whether it has arrived or is still to come.
* `row_group_leaves_rest` — what follows a row group is left to the next query.
* `next_query_reads_leftover` — and so is what is behind a failure.
-/

set_option autoImplicit false

namespace SimpleQuery

/-! ## Row groups -/

/-- A message that may stand between the columns of a row group and its status. -/
def Message.Inner : Message → Prop
  | .row .. => True
  | message => message.Aside

namespace Transcript

/-- A row group: columns, rows and messages that may come at any time, and a status. -/
def group (columns : List Column) (inner : Transcript) (status : String) : Transcript :=
  .columns columns :: (inner ++ [.complete status])

end Transcript

namespace Response

theorem reaches_inner {inner : Transcript} (hinner : ∀ message ∈ inner, message.Inner) (status : String)
    {r : Response} (hc : r.columns.isSome = true) (hf : r.finalSeen = false) :
    r.Reaches (inner ++ [.complete status])
      { r with rows := r.rows ++ (inner.filterMap Message.slots?).toArray,
               status := some status, finalSeen := true } := by
  have undone := undone_of_not_final hf
  obtain ⟨columns, hcolumns⟩ := Option.isSome_iff_exists.1 hc
  induction inner generalizing r with
  | nil =>
    refine .last undone ?_
    simp [advance, after, hcolumns]
  | cons message rest ih =>
    obtain ⟨hmessage, hrest⟩ := List.forall_mem_cons.1 hinner
    cases message with
    | row binary slots =>
      refine .step undone (show r.advance (.row binary slots) = .ok (r.after (.row binary slots)) by
        simp [advance, hcolumns]) ?_
      have := ih hrest (r := r.after (.row binary slots)) hc hf (undone_of_not_final hf) hcolumns
      simpa [after, Message.slots?] using this
    | notice | notification | portal => exact .step undone rfl (ih hrest hc hf undone hcolumns)
    | _ => exact hmessage.elim

/-- A row group is an answer of its own. -/
theorem reaches_group {inner : Transcript} (hinner : ∀ message ∈ inner, message.Inner)
    (columns : List Column) (status : String) :
    Response.Reaches {} (.group columns inner status)
      { columns := some columns, rows := (inner.filterMap Message.slots?).toArray,
        status := some status, finalSeen := true } := by
  have h := reaches_inner hinner status (r := after {} (.columns columns)) rfl rfl
  exact .step rfl rfl (by simpa [after] using h)

end Response

/-! ## Answers that have arrived, and answers still to come -/

namespace Session

variable {cs : Charset} {handling : NoticeHandling}

/-- A complete answer that is the first to be read is read, and nothing behind it. -/
theorem execute_ahead (hh : handling.Willing) {last : Response} {transcript : Transcript}
    (hreaches : Response.Reaches {} transcript last) (hdone : last.done = true)
    (fits : transcript.Fits cs 0) {bytes rest text : Bytes} (hbytes : transcript.encode? cs = some bytes)
    {statement : String} (hl : statement.length ≤ maxStatementLength)
    (he : cs.encode? statement = some text) {s : Stream} (hs : s.Ready cs)
    (hline : s.line = (bytes ++ rest).map .byte) :
    let t := Act.state (execute handling statement s)
    Act.outcome (execute handling statement s) = (Machine.ofResponse last).result ∧
      t.Ready cs ∧ t.line = rest.map .byte ∧
      t.link.sent = s.link.sent ++
        (text :: List.replicate transcript.flushes Query.blankBytes).map Query.frame := by
  intro t
  have hsame := Stream.same_loaded_of_line hs.isOpen hline
  have hloaded : (s.loaded (bytes ++ rest)).Loaded cs (bytes ++ rest) :=
    ⟨⟨hs.charset, hs.isOpen, hs.staged, hs.sends⟩, rfl, rfl⟩
  obtain ⟨houtcome, hafter, hsent⟩ := execute_takes hh hreaches hdone fits hbytes hl he hloaded
  have halike := congruence_same.execute handling statement s (s.loaded (bytes ++ rest)) hsame
  have hstates := halike.states
  refine ⟨halike.outcomes.trans houtcome, ⟨?_, ?_, ?_, ?_⟩, ?_, ?_⟩
  · exact hstates.charset.trans hafter.ready.charset
  · exact hstates.closed.trans hafter.ready.isOpen
  · exact hstates.staged.trans hafter.ready.staged
  · rw [hstates.sendFaults]
    exact hafter.ready.sends
  · rw [hstates.line, Stream.line, hafter.unread, hafter.incoming]
    simp [Link.line]
  · exact (Link.sent_of_uncut_eq hstates.told).trans hsent

/-- What a query comes to on an open session is what it comes to on its stream. -/
theorem outcome_query {session : Session} {s : Stream} (hs : session.phase = .open s) (statement : String) :
    Act.outcome (query statement session) = Act.outcome (execute session.handling statement s) := by
  show Act.outcome (onStream (execute session.handling statement) session) = _
  rw [onStream_of_open _ hs]
  cases execute session.handling statement s <;> rfl

end Session

/-- **A query that begins with rows is done with its first row group.** On an open session whose stream is
in order, where the first to be read is a row group whose messages travel whole, a query gives that group,
whatever is behind it. All of that is left to be read, on a session that is still open. If it is another
complete answer, the next query gives that one, whatever its own answer is. -/
theorem row_group_leaves_rest {cs : Charset} {session : Session} {s : Stream}
    (hp : session.phase = .open s) (hs : s.Ready cs) (hh : session.handling.Willing)
    {columns : List Column} {inner : Transcript} {status : String}
    (hinner : ∀ message ∈ inner, message.Inner) (fits : (Transcript.group columns inner status).Fits cs 0) :
    ∃ bytes, (Transcript.group columns inner status).encode? cs = some bytes ∧
      ∀ (rest text : Bytes) (statement : String), statement.length ≤ maxStatementLength →
        cs.encode? statement = some text → s.line = (bytes ++ rest).map .byte →
        let result := Session.query statement session
        Act.outcome result = .ok
            { columns, rows := (inner.filterMap Message.slots?).toArray, status := some status } ∧
          ∃ t, (Act.state result).phase = .open t ∧ t.line = rest.map .byte ∧
            t.link.sent = s.link.sent ++ [Query.frame text] ∧
            ∀ (stale : Transcript) (last : Machine) (left later nextText : Bytes) (next : String),
              stale.Fits cs 0 → Machine.Finishes stale last → stale.encode? cs = some left →
              rest = left ++ later → next.length ≤ maxStatementLength →
              cs.encode? next = some nextText →
              Act.outcome (Session.query next (Act.state result)) = last.result := by
  have hreaches := Response.reaches_group hinner columns status
  obtain ⟨bytes, hbytes⟩ := hreaches.encodes fits
  refine ⟨bytes, hbytes, fun rest text statement hl he hline => ?_⟩
  obtain ⟨houtcome, hready, hrest, hsent⟩ := Session.execute_ahead hh hreaches rfl fits hbytes hl he hs hline
  have hquery := Session.query_of_no_loss hp houtcome (Machine.result_ne_loss _)
  intro result
  have hresult : result = _ := hquery
  rw [hresult, Act.state_ofExcept]
  refine ⟨rfl, _, rfl, hrest, hsent, ?_⟩
  intro stale last left later nextText next hfits hfinishes hleft hsplit hnl hne
  obtain ⟨final, hstale, rfl, hdone⟩ := hfinishes.reaches
  rw [hsplit] at hrest
  obtain ⟨hnext, -⟩ := Session.execute_ahead hh hstale hdone hfits hleft hnl hne hready hrest
  exact (Session.outcome_query rfl next).trans hnext

/-- The second row group of an answer is what the next query gives. -/
theorem second_row_group_is_left :
    let column : Column := { name := "a", typeOid := 23, typeLength := 4 }
    let group (digit : UInt8) : Bytes :=
      [0x54, 0, 1, 0x61, 0, 0, 0, 0, 23, 0, 4, 0x44, 0x80, 0, 0, 0, 5, digit, 0x43, 0x53, 0]
    let session : Session :=
      { settings := { database := "d", user := "u" }
        phase := .open { link := { incoming := [.bytes (group 0x31 ++ group 0x32)] } } }
    let result := Session.query "x" session
    Act.outcome result = .ok { columns := [column], rows := #[[some [0x31]]], status := some "S" } ∧
      Act.outcome (Session.query "y" (Act.state result)) =
        .ok { columns := [column], rows := #[[some [0x32]]], status := some "S" } := by
  intro column group session result
  let answer (digit : UInt8) : Transcript := .group [column] [.row false [some [digit]]] "S"
  have text (c : String) (bytes : Bytes) (h : Charset.encode? .utf8 c = some bytes) (hzero : 0 ∉ bytes)
      (hlength : bytes.length < 4096) {cap : Nat} (hcap : 4096 ≤ cap) : Message.TextFits .utf8 cap c :=
    ⟨bytes, h, hzero, Nat.lt_of_lt_of_le hlength hcap⟩
  have inner (digit : UInt8) : ∀ message ∈ [Message.row false [some [digit]]], message.Inner := by
    simp [Message.Inner]
  have fits (digit : UInt8) : (answer digit).Fits .utf8 0 := by
    refine ⟨⟨by decide, ?_⟩, ⟨rfl, ?_⟩, text "S" [0x53] rfl (by decide) (by decide) (by decide), trivial⟩
    · intro c hc
      rw [List.mem_singleton.1 hc]
      exact ⟨text "a" [0x61] rfl (by decide) (by decide) (by decide), by decide, by decide⟩
    · intro bytes hbytes
      rw [Option.some.inj (List.mem_singleton.1 hbytes)]
      exact (by decide : 5 < Width.four.range)
  have encoded : ∀ digit ∈ [0x31, 0x32], (answer digit).encode? .utf8 = some (group digit) := by
    decide +kernel
  have ready : Stream.Ready .utf8 { link := { incoming := [.bytes (group 0x31 ++ group 0x32)] } } :=
    ⟨rfl, rfl, rfl, by simp⟩
  have hp : session.phase = .open { link := { incoming := [.bytes (group 0x31 ++ group 0x32)] } } := rfl
  obtain ⟨bytes, hbytes, h⟩ := row_group_leaves_rest hp ready NoticeHandling.willing_logged (inner 0x31) (fits 0x31)
  obtain rfl : group 0x31 = bytes := Option.some.inj ((encoded 0x31 (by simp)).symm.trans hbytes)
  obtain ⟨houtcome, t, ht, -, -, hnext⟩ := h (group 0x32) [0x78] "x" (by decide) rfl (by decide +kernel)
  refine ⟨houtcome, ?_⟩
  refine hnext (answer 0x32)
    { descriptors := some [column], rows := [[some [0x32]]], status := some "S", finalSeen := true }
    (group 0x32) [] [0x79] "y" (fits 0x32) ⟨rfl, ⟨rfl, rfl⟩, ?_⟩ (encoded 0x32 (by simp))
    (List.append_nil _).symm (by decide) rfl
  intro k hk mid hrun
  match k with
  | 0 | 1 | 2 =>
    cases hrun
    exact fun hdone => by cases hdone.1
  | k + 3 => exact absurd hk (by simp [answer, Transcript.group])

/-- **What a failure leaves behind is read by the next query.** On an open session, in whatever way it was
reached, an operation other than closing that fails, and not by a loss, leaves the session open, on a stream
that can be used. With whatever the backend delivers later, a query then comes to what it comes to on any
session that is open on a stream with the same charset and the same faults of sending, which has read
nothing yet and is delivered all that is left of the failed answer before what is delivered later; unless a
handler makes something else of later notices because it remembers those of the failed answer. -/
theorem next_query_reads_leftover {session now : Session} (start : session.New)
    (reached : session.Leads now) (isOpen : now.isOpen = true) {command : Session.Command}
    (hc : command ≠ .close) {fault : Fault}
    (failed : Act.outcome (Session.perform command now) = .error fault)
    (kept : ∀ cause, fault ≠ .loss cause) :
    let after := Act.state (Session.perform command now)
    ∃ t, after.phase = .open t ∧ t.closed = false ∧ t.staged = [] ∧
      ∀ (later : List Delivery) (fresh : Session) (f : Stream), fresh.phase = .open f →
        fresh.handling = after.handling → f.charset = t.charset → f.closed = false → f.staged = [] →
        f.link.sendFaults = t.link.sendFaults → f.line = t.line ++ Link.line later →
        after.handling.Indifferent f.link.notices t.link.notices → ∀ statement,
          Act.outcome (Session.query statement (Act.state (Session.perform (.feed later) after))) =
            Act.outcome (Session.query statement fresh) := by
  intro after
  have still : after.isOpen = true := by
    rw [Session.tells_perform hc now isOpen, Bool.not_eq_true', Bool.eq_false_iff]
    intro lost
    obtain ⟨cause, hcause⟩ := (Act.isLost_iff _).1 lost
    rw [failed] at hcause
    exact kept cause (Except.error.inj hcause)
  obtain ⟨t, ht⟩ := Session.open_of_isOpen still
  have standing : after.phase.Standing := (reached.tail command).standing start
  rw [ht] at standing
  have usable := standing.2
  refine ⟨t, ht, usable.isOpen, usable.staged, ?_⟩
  intro later fresh f hf handling charset closed staged sendFaults line indifferent statement
  have hfed : (Act.state (Session.perform (.feed later) after)).phase =
      .open { t with link := t.link.feed later } := by
    show after.phase.mapLink (Link.feed later) = _
    rw [ht]
    rfl
  have ahead : f.prospect = Stream.prospect { t with link := t.link.feed later } := by
    refine Stream.prospect_eq_of charset (closed.trans usable.isOpen.symm) (staged.trans usable.staged.symm)
      ?_ sendFaults
    rw [line]
    simp [Stream.line, usable.isOpen, Link.feed, Link.line_append]
  rw [Session.outcome_query hfed, Session.outcome_query hf, Session.outcome_execute, Session.outcome_execute,
    handling]
  exact (Stream.outcome_query_of_prospect_eq ahead indifferent statement).symm

/-- An answer that begins with an unknown tag. What is behind the tag is what the next query gives, and not
what the backend delivers later, which is what it gives on a session that was just opened. -/
theorem stale_status_after_violation :
    let answer (status : UInt8) : Bytes := [0x54, 0, 0, 0x43, status, 0]
    let session (incoming : List Delivery) : Session :=
      { settings := { database := "d", user := "u" }
        phase := .fresh { incoming := .bytes [0x49, 0] :: incoming } }
    let opened (incoming : List Delivery) := Act.state (Session.perform .connect (session incoming))
    let now := opened [.bytes (0x5A :: answer 0x6F)]
    let result := Session.perform (.query "x") now
    let fed := Act.state (Session.perform (.feed [.bytes (answer 0x6E)]) (Act.state result))
    Act.outcome result = .error (.refusal (.violation (.unknownTag 0x5A))) ∧
      Act.outcome (Session.query "y" fed) =
        Act.outcome (Session.query "y" (opened [.bytes (answer 0x6F), .bytes (answer 0x6E)])) ∧
      Act.outcome (Session.query "y" fed) = .ok { status := some "o" } ∧
      Act.outcome (Session.query "y" (opened [.bytes (answer 0x6E)])) = .ok { status := some "n" } := by
  intro answer session opened now result fed
  have failed : Act.outcome result = .error (.refusal (.violation (.unknownTag 0x5A))) := by decide +kernel
  have start (incoming : List Delivery) : (session incoming).New := ⟨rfl, rfl⟩
  have reached (incoming : List Delivery) : (session incoming).Leads (opened incoming) :=
    (Session.Leads.refl _).tail .connect
  obtain ⟨t, ht, -, -, h⟩ := next_query_reads_leftover (start _) (reached _) (by decide +kernel)
    (show Session.Command.query "x" ≠ .close by decide) failed (by simp)
  let fresh := opened [.bytes (answer 0x6F), .bytes (answer 0x6E)]
  obtain ⟨f, hf⟩ := Session.open_of_isOpen (show fresh.isOpen = true by decide +kernel)
  have standing := (reached _).standing (start [.bytes (answer 0x6F), .bytes (answer 0x6E)])
  rw [show (opened _).phase = _ from hf] at standing
  -- what else is to be known of the two streams is computed from the runs
  let view (s : Stream) := (s.charset.charset?, s.link.sendFaults, s.line)
  have left : (Act.state result).phase.stream?.map view =
      some (some .utf8, [], (answer 0x6F).map .byte) := by decide +kernel
  have ahead : fresh.phase.stream?.map view =
      some (some .utf8, [], (answer 0x6F ++ answer 0x6E).map .byte) := by decide +kernel
  rw [ht] at left
  rw [hf] at ahead
  simp only [Phase.stream?, Option.map_some, Option.some.injEq, Prod.mk.injEq, view] at left ahead
  obtain ⟨hcharset, hfaults, hline⟩ := left
  obtain ⟨fcharset, ffaults, fline⟩ := ahead
  refine ⟨failed, ?_, by decide +kernel, by decide +kernel⟩
  have charset : f.charset = t.charset :=
    (NamedCharset.eq_known_of_charset? fcharset).trans (NamedCharset.eq_known_of_charset? hcharset).symm
  -- neither session has a handler
  have unhandled (incoming : List Delivery) : (opened incoming).handling = .logged := by
    show (Act.state (Session.perform .connect (session incoming))).handling = .logged
    rw [Session.perform, Act.state_answered, Session.handling_connect]
  have still : (Act.state result).handling = .logged := by
    show (Act.state (Session.perform (.query "x") now)).handling = .logged
    rw [Session.perform, Act.state_answered, Session.handling_query]
    exact unhandled _
  refine h [.bytes (answer 0x6E)] fresh f hf ((unhandled _).trans still.symm) charset standing.2.isOpen
    standing.2.staged (ffaults.trans hfaults.symm) ?_ (by rw [still]; trivial) "y"
  rw [fline, hline]
  rfl

end SimpleQuery
