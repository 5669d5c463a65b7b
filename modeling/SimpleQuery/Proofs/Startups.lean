import SimpleQuery.Proofs.Sending
import SimpleQuery.Proofs.Transactions

/-!
# How many startup packets a session sends

A session sends one startup packet, unless connecting came to a *mishap*: a handler of notices, or a
charset, gave up in the middle of it. Connecting closes the stream only where the fault is one of the
client's own, so a mishap leaves it open, and the next attempt sends another packet.

* `Startup.isPacket` — packets are told from queries by how they begin.
* `Session.tried_connect` — what one attempt to connect does to the count.
* `Session.trials_perform`, `Session.trials_follow` — one packet more than there were mishaps, at most, by
  induction on the operations.
* `startup_packets_bounded_by_mishaps` — what this says of a whole run.
-/

set_option autoImplicit false

namespace SimpleQuery

/-- Whether this begins as a startup packet does: with its length and the code of the protocol. -/
def Startup.isPacket (payload : Bytes) : Bool :=
  (Width.four.encode length ++ Width.four.encode code).isPrefixOf payload

theorem Startup.isPacket_of_packetOf {settings : Settings} {packet : Bytes}
    (h : packetOf settings = .ok packet) : isPacket packet = true := by
  obtain ⟨database, user, -, -, rfl⟩ := names_of_packetOf h
  rw [isPacket, packet, List.append_assoc, List.isPrefixOf_iff_prefix]
  exact List.prefix_append _ _

theorem Query.isPacket_frame (text : Bytes) : Startup.isPacket (frame text) = false := rfl

/-- None of the queries is a packet. -/
theorem Query.Asking.packets_eq_zero {charset : NamedCharset} {texts : List String} {payloads : List Bytes}
    (h : Asking charset texts payloads) : payloads.countP Startup.isPacket = 0 := by
  induction h with
  | nil => rfl
  | cons count encoded _ ih =>
    rw [List.countP_append, List.countP_cons, ih, List.countP_replicate, isPacket_frame, isPacket_frame]
    rfl

namespace Session

variable {session : Session}

/-- How many startup packets were sent. -/
def packets (session : Session) : Nat := session.phase.link.sent.countP Startup.isPacket

theorem Sends.packets_eq {command : Command} {after : Session} {packets payloads : List Bytes}
    (h : Sends command session after packets payloads) :
    after.packets = session.packets + packets.length ∧ packets.length ≤ 1 := by
  obtain ⟨said, -, -, asking⟩ := h.asked
  unfold Session.packets
  rw [h.sent, List.countP_append, List.countP_append, asking.packets_eq_zero]
  rcases h.packed with rfl | ⟨-, packet, spelled, rfl⟩
  · exact ⟨rfl, by simp⟩
  · exact ⟨by simp [Startup.isPacket_of_packetOf spelled], by simp⟩

theorem Starts.packets_eq {after : Session} {packets payloads : List Bytes}
    (h : Starts session after packets payloads) : after.packets = session.packets + packets.length := by
  obtain ⟨said, -, -, asking⟩ := h.asked
  unfold Session.packets
  rw [h.sent, List.countP_append, List.countP_append, asking.packets_eq_zero]
  rcases h.packed with ⟨rfl, -⟩ | ⟨packet, spelled, rfl⟩
  · rfl
  · simp [Startup.isPacket_of_packetOf spelled]

end Session

/-- Whether a run gave up with a fault that is none of the client's own. -/
def Act.isForeign {σ α : Type} : EStateM.Result Fault σ α → Bool
  | .ok _ _ => false
  | .error fault _ => !fault.isOwn

namespace Session

variable {session : Session}

/-! ## Runs as lists of operations -/

mutual

/-- The operations of a step. A block is its body, and closing behind it. -/
def Step.commands : Step → List Command
  | .one command => [command]
  | .block body => commandsOf body ++ [.close]

/-- The operations of a run. -/
def commandsOf : List Step → List Command
  | [] => []
  | step :: rest => step.commands ++ commandsOf rest

end

/-- What operations lead to, one after the other. -/
def follow : List Command → Session → Session
  | [], session => session
  | command :: rest, session => follow rest (Act.state (perform command session))

theorem follow_append (before after : List Command) (session : Session) :
    follow (before ++ after) session = follow after (follow before session) := by
  induction before generalizing session with
  | nil => rfl
  | cons command rest ih => exact ih _

theorem leads_follow (commands : List Command) (session : Session) :
    session.Leads (follow commands session) := by
  induction commands generalizing session with
  | nil => exact .refl session
  | cons command rest ih => exact ((Leads.refl session).tail command).trans (ih _)

mutual

theorem run_follow (step : Step) (session : Session) :
    (run step session).2 = follow step.commands session := by
  match step with
  | .one command => rfl
  | .block body =>
    simp only [run, Step.commands]
    rw [follow_append, ← runAll_follow body session]
    rfl

/-- A run comes to what its operations lead to. -/
theorem runAll_follow (steps : List Step) (session : Session) :
    (runAll steps session).2 = follow (commandsOf steps) session := by
  match steps with
  | [] => rfl
  | step :: rest =>
    simp only [runAll, commandsOf]
    rw [follow_append, ← run_follow step session, ← runAll_follow rest (run step session).2]

end

/-! ## Mishaps -/

/-- Whether a run gave up with a foreign fault on a stream. -/
def strays (result : EStateM.Result Fault Session Unit) : Bool :=
  Act.isForeign result && (Act.state result).phase.stream?.isSome

/-- Whether an operation is an attempt to connect that comes to a foreign fault on a stream. -/
def isMishap (command : Command) (session : Session) : Bool :=
  command == .connect && strays (connect session)

/-- The mishaps among operations. -/
def mishaps : List Command → Session → Nat
  | [], _ => 0
  | command :: rest, session =>
    (isMishap command session).toNat + mishaps rest (Act.state (perform command session))

/-! ## One attempt -/

/-- A session on whose link nothing was exchanged. -/
structure Untouched (session : Session) : Prop where
  notOpen : session.isOpen = false
  sent : session.phase.link.sent = []
  receives : session.phase.link.receives = 0
  unread : session.unread = []

theorem Unused.untouched (h : session.Unused) : session.Untouched where
  notOpen := h.notOpen
  sent := h.sent
  receives := by
    rw [Link.receives, Link.history, h.journal]
    rfl
  unread := by
    have notOpen := h.notOpen
    unfold isOpen at notOpen
    unfold unread
    cases hp : session.phase with
    | fresh link => rfl
    | broken s => exact (h.stream s hp).2.1
    | «open» s =>
      rw [hp] at notOpen
      cases notOpen

/-- What opening a session on its stream leaves is settled, or it came to a mishap. -/
theorem Greets.settled {s : Stream} {result : EStateM.Result Fault Session Unit}
    (h : Greets session s result) : strays result = true ∨ (Act.state result).phase.Settled := by
  cases h with
  | unspelled unspelled foreign | abandoned spelled packed probed foreign =>
    exact .inl (by rw [strays, Act.isForeign, foreign]; rfl)
  | unsent spelled failed closed => exact .inr closed
  | opened => exact .inr trivial
  | failed => exact .inr (Stream.closed_close _)

/-- An attempt to connect comes to a mishap, or leaves a settled session, or was in vain and leaves the
link as it is, but for what was noted there. -/
theorem tried_connect (tidy : session.Tidy) (notOpen : session.isOpen = false) :
    strays (connect session) = true ∨ (Act.state (connect session)).phase.Settled ∨
      ∃ link m, session.phase = .fresh link ∧ (Act.state (connect session)).phase = .fresh m ∧
        m.sent = link.sent ∧ m.receives = link.receives := by
  have connects := connects_connect tidy
  generalize connect session = result at *
  cases connects with
  | already isOpen =>
    rw [notOpen] at isOpen
    cases isOpen
  | undialled phase dials =>
    exact .inr (.inr ⟨_, _, phase, rfl, sent_of_vain_dial dials, receives_of_vain_dial dials⟩)
  | dialled phase dials greets | again phase greets =>
    exact greets.settled.imp_right .inl

/-! ## The count -/

/-- What is settled stays so. -/
theorem settled_perform (h : session.phase.Settled) (command : Command) :
    (Act.state (perform command session)).phase.Settled := by
  have passes : session.phase.Passes (Act.state (perform command session)).phase :=
    passes_perform command session
  generalize session.phase = p at *
  generalize (Act.state (perform command session)).phase = q at *
  cases p with
  | fresh link => exact h.elim
  | broken s =>
    obtain ⟨t, rfl, closed, -⟩ := passes.broken_of_closed h
    exact closed
  | «open» s =>
    cases passes with
    | works => trivial
    | breaks _ closed => exact closed

/-- A settled session sends no packet. -/
theorem packets_of_settled (tidy : session.Tidy) (h : session.phase.Settled) (command : Command) :
    (Act.state (perform command session)).packets = session.packets := by
  obtain ⟨packets, payloads, sends⟩ := sends_perform tidy command
  rcases sends.packed with rfl | ⟨rfl, -⟩
  · exact sends.packets_eq.1
  unfold Session.packets
  cases hp : session.phase with
  | fresh link =>
    rw [hp] at h
    exact h.elim
  | broken s =>
    rw [hp] at h
    rw [(mute_perform ⟨s, hp, .inl h⟩ .connect).2, hp]
  | «open» s =>
    have already : connect session = .ok () session := by simp only [connect, hp]
    rw [state_perform_connect, already, Act.state_ok, hp]

theorem Leads.packets_of_settled {now : Session} (h : session.Leads now) (tidy : session.Tidy)
    (settled : session.phase.Settled) : now.phase.Settled ∧ now.packets = session.packets := by
  induction h with
  | refl => exact ⟨settled, rfl⟩
  | tail reached command ih =>
    refine ⟨settled_perform ih.1 command, ?_⟩
    rw [Session.packets_of_settled (reached.tidy tidy).1 ih.1 command, ih.2]

/-- Without an attempt to connect nothing is exchanged, though the stream may be closed. -/
theorem Untouched.idles {after : Session} (h : session.Untouched)
    (idles : Idles session.phase after.phase) : after.Untouched ∨ after.phase.Settled := by
  obtain ⟨notOpen, sent, receives, unread⟩ := h
  have notOpen := idles.notOpen notOpen
  have sent := idles.sent.trans sent
  unfold Session.unread at unread
  generalize session.phase = p at *
  generalize hq : after.phase = q at *
  cases idles with
  | closed s => exact .inr (Stream.closed_close s)
  | same =>
    rw [← hq] at sent receives unread
    exact .inl ⟨notOpen, sent, receives, unread⟩
  | fed p more =>
    rw [← hq] at sent
    refine .inl ⟨notOpen, sent, ?_, ?_⟩
    · rw [hq]
      cases p <;> exact receives
    · rw [Session.unread, hq]
      cases p <;> exact unread

/-- Where a session stands after so many mishaps: nothing was exchanged, or it is settled with at most one
packet more than mishaps, or the last attempt was a mishap. -/
inductive Trials (mishaps : Nat) (session : Session) : Prop where
  | untouched (h : session.Untouched)
  | settled (phase : session.phase.Settled) (count : session.packets ≤ mishaps + 1)
  | left (count : session.packets ≤ mishaps) (some : 0 < mishaps)

theorem Untouched.packets_eq (h : session.Untouched) : session.packets = 0 := by
  rw [Session.packets, h.sent]
  rfl

theorem Trials.count {mishaps : Nat} (h : Trials mishaps session) : session.packets ≤ mishaps + 1 := by
  cases h with
  | untouched h =>
    rw [h.packets_eq]
    exact Nat.zero_le _
  | settled _ count => exact count
  | left count _ => exact Nat.le_succ_of_le count

/-- What one operation does to the count. -/
theorem trials_perform {mishaps : Nat} (h : Trials mishaps session) (tidy : session.Tidy)
    (command : Command) :
    Trials (mishaps + (isMishap command session).toNat) (Act.state (perform command session)) := by
  -- A settled session sends no packet, and any other only by connecting; what that comes to decides
  -- whether the packet was the last or is to be paid for with a mishap.
  by_cases hs : session.phase.Settled
  · refine .settled (settled_perform hs command) ?_
    have := h.count
    rw [packets_of_settled tidy hs command]
    omega
  have notOpen : session.isOpen = false := by
    unfold isOpen
    cases hp : session.phase with
    | fresh link | broken s => rfl
    | «open» s =>
      rw [hp] at hs
      exact absurd trivial hs
  obtain ⟨packets, payloads, sends⟩ := sends_perform tidy command
  obtain ⟨count, single⟩ := sends.packets_eq
  by_cases hcommand : command = .connect
  · have foreign : isMishap command session = strays (connect session) := by
      rw [hcommand, isMishap, beq_self_eq_true, Bool.true_and]
    have hstate : Act.state (perform command session) = Act.state (connect session) := by
      rw [hcommand, state_perform_connect]
    -- Of a session that is not settled all packets are paid for, so that one more may be sent.
    have before : session.packets ≤ mishaps := by
      cases h with
      | untouched h =>
        rw [h.packets_eq]
        exact Nat.zero_le _
      | settled phase => exact absurd phase hs
      | left count => exact count
    rcases tried_connect tidy notOpen with mishap | settled | ⟨link, m, phase, hphase, sent, receives⟩
    · rw [foreign, mishap]
      exact .left (by rw [Bool.toNat_true]; omega) (Nat.succ_pos _)
    · exact .settled (hstate ▸ settled) (by omega)
    · rw [← hstate] at hphase
      generalize Act.state (perform command session) = after at *
      cases h with
      | untouched h =>
        have before := h.sent
        have unasked := h.receives
        rw [phase] at before unasked
        refine .untouched ⟨by rw [isOpen, hphase], ?_, ?_, by rw [unread, hphase]; rfl⟩
        · rw [hphase]
          exact sent.trans before
        · rw [hphase]
          exact receives.trans unasked
      | settled phase => exact absurd phase hs
      | left count some =>
        refine .left (Nat.le_trans ?_ (Nat.le_add_right _ _)) (Nat.lt_of_lt_of_le some (Nat.le_add_right _ _))
        rw [Session.packets, hphase]
        rw [Session.packets, phase] at count
        show m.sent.countP _ ≤ _
        rw [sent]
        exact count
  · have none : isMishap command session = false := by
      rw [isMishap, beq_eq_false_iff_ne.2 hcommand, Bool.false_and]
    have idles := idles_perform hcommand notOpen
    rw [none]
    cases h with
    | untouched h =>
      rcases h.idles idles with still | closed
      · exact .untouched still
      · refine .settled closed ?_
        rw [Session.packets, idles.sent]
        exact Nat.le_trans (Nat.le_of_eq h.packets_eq) (Nat.zero_le _)
    | settled phase => exact absurd phase hs
    | left count some =>
      refine .left ?_ some
      rw [Session.packets, idles.sent]
      exact count

/-- What a run does to the count, by induction on its operations. -/
theorem trials_follow (commands : List Command) {mishaps : Nat} (h : Trials mishaps session)
    (tidy : session.Tidy) :
    Trials (mishaps + session.mishaps commands) (session.follow commands) := by
  induction commands generalizing session mishaps with
  | nil => exact h
  | cons command rest ih =>
    obtain ⟨packets, payloads, sends⟩ := sends_perform tidy command
    have := ih (trials_perform h tidy command) sends.tidy
    rwa [Nat.add_assoc] at this

/-! ## The attempt that opens the session, and those that do not -/

/-- The attempt that opens a session sends one packet. -/
theorem packets_of_opened (tidy : session.Tidy) (notOpen : session.isOpen = false)
    (opened : (Act.state (connect session)).isOpen = true) :
    (Act.state (connect session)).packets = session.packets + 1 := by
  obtain ⟨packets, payloads, starts⟩ := starts_connect tidy notOpen
  rcases starts.packed with ⟨rfl, rfl⟩ | ⟨packet, spelled, rfl⟩
  · obtain ⟨said, -, all, asking⟩ := starts.asked
    cases asking
    cases all opened
  · exact starts.packets_eq

theorem Greets.left {s : Stream} {result : EStateM.Result Fault Session Unit}
    (h : Greets session s result) (sent : s.link.sent = session.phase.link.sent)
    (packed : (Act.state result).packets ≠ session.packets) :
    (Act.state result).phase.Settled ∨ Act.isForeign result = true ∧
      (∃ packet, Startup.packetOf (Act.state result).settings = .ok packet) ∧
      ∃ t, (Act.state result).phase = .broken t ∧ t.Usable := by
  cases h with
  | unspelled unspelled foreign =>
    refine absurd ?_ packed
    rw [packets, packets, ← sent]
    rfl
  | unsent spelled failed closed => exact .inl closed
  | opened => exact .inl trivial
  | failed => exact .inl (Stream.closed_close _)
  | @abandoned packet t u fault spelled hpacked probed foreign =>
    have usable := (said_probing session.settings session.handling hpacked.usable).usable
    rw [probed] at usable
    refine .inr ⟨?_, ⟨packet, spelled⟩, u, rfl, usable (Fault.isLoss_of_foreign foreign)⟩
    rw [Act.isForeign, foreign]
    rfl

/-- An attempt that sends a packet leaves a settled session, or it comes to a mishap and leaves a stream
that can be used. -/
theorem left_of_packet (tidy : session.Tidy)
    (packed : (Act.state (connect session)).packets ≠ session.packets) :
    (Act.state (connect session)).phase.Settled ∨ Act.isForeign (connect session) = true ∧
      (∃ packet, Startup.packetOf (Act.state (connect session)).settings = .ok packet) ∧
      ∃ s, (Act.state (connect session)).phase = .broken s ∧ s.Usable := by
  have connects := connects_connect tidy
  generalize connect session = result at *
  cases connects with
  | already => exact absurd rfl packed
  | @undialled link m reason phase dials =>
    refine absurd ?_ packed
    rw [packets, packets, phase]
    exact congrArg _ (sent_of_vain_dial dials)
  | @dialled link s _ phase dials greets =>
    refine greets.left ?_ packed
    rw [(justDialled_of_dial dials).sent, phase]
    exact Link.sent_log _ link
  | @again s _ phase greets =>
    refine greets.left ?_ packed
    rw [phase]
    exact (Stream.keeps_log _ _).sent

/-- On such a stream the next attempt sends another packet, unless the call to send it fails. -/
theorem packets_of_retry {s : Stream} (phase : session.phase = .broken s) (usable : s.Usable)
    (spelled : ∃ packet, Startup.packetOf session.settings = .ok packet)
    (unfailing : Link.nextFault s.link.sendFaults = none) :
    (Act.state (connect session)).packets = session.packets + 1 := by
  have tidy : session.Tidy := by
    rw [Tidy, phase]
    exact .inl usable.clear
  have notOpen : session.isOpen = false := by rw [isOpen, phase]
  obtain ⟨packets, payloads, starts⟩ := starts_connect tidy notOpen
  rcases starts.packed with ⟨rfl, -⟩ | ⟨packet, spelled, rfl⟩
  · obtain ⟨packet, spelled⟩ := spelled
    rcases starts.unsent rfl s phase with ⟨fault, unspelled⟩ | closed | failing
    · rw [spelled] at unspelled
      cases unspelled
    · rw [usable.isOpen] at closed
      cases closed
    · exact absurd unfailing failing
  · exact starts.packets_eq

/-- Where there was no mishap, a session that can still be opened is untouched. -/
theorem Trials.untouched_of_opened (h : Trials 0 session) (notOpen : session.isOpen = false)
    (opened : (Act.state (connect session)).isOpen = true) : session.Untouched := by
  cases h with
  | untouched h => exact h
  | left _ some => exact absurd some (Nat.lt_irrefl 0)
  | settled settled =>
    unfold isOpen at notOpen
    cases hp : session.phase with
    | fresh link =>
      rw [hp] at settled
      exact settled.elim
    | «open» s =>
      rw [hp] at notOpen
      cases notOpen
    | broken s =>
      rw [hp] at settled
      obtain ⟨t, ht, -⟩ := (mute_perform ⟨s, hp, .inl settled⟩ .connect).1
      rw [state_perform_connect] at ht
      rw [isOpen, ht] at opened
      cases opened

end Session

/-- **A session sends one startup packet more than it came to mishaps, at most.** A mishap is an attempt to
connect that ends, on a stream, in a fault which is none of the client's own. Each attempt that opens the
session sends one packet and then reads the answers to its own probe and `begin`; where there was no mishap
before, no byte was sent or received before that packet. After an attempt that sent a packet, either no other
is ever sent; or it came to a mishap, its stream is still open, and the next attempt sends another packet,
unless the call to send it fails. -/
theorem startup_packets_bounded_by_mishaps {session : Session} (start : session.Unused) :
    (∀ steps, (Session.runAll steps session).2 = session.follow (Session.commandsOf steps)) ∧
    ∀ operations : List Session.Command,
      let now := session.follow operations
      let result := Session.connect now
      let after := Act.state result
      now.packets ≤ session.mishaps operations + 1 ∧
      (now.isOpen = false → after.isOpen = true → after.packets = now.packets + 1 ∧
        ∃ packet s t u, Session.Opens now after packet s t u ∧
          (session.mishaps operations = 0 →
            now.phase.link.sent = [] ∧ now.phase.link.receives = 0 ∧ s.unread = [])) ∧
      (after.packets ≠ now.packets →
        (∀ later, after.Leads later → later.packets = after.packets) ∨
        Act.isForeign result = true ∧ ∃ s, after.phase = .broken s ∧ s.closed = false ∧
          (Link.nextFault s.link.sendFaults = none →
            (Act.state (Session.connect after)).packets = after.packets + 1)) := by
  refine ⟨fun steps => Session.runAll_follow steps session, fun operations => ?_⟩
  intro now result after
  have trials : Session.Trials (session.mishaps operations) now := by
    have := Session.trials_follow operations (.untouched start.untouched : Session.Trials 0 session) start.tidy
    rwa [Nat.zero_add] at this
  have reached : session.Leads now := Session.leads_follow operations session
  have tidy : now.Tidy := (reached.tidy start.tidy).1
  refine ⟨trials.count, fun notOpen opened => ?_, fun packed => ?_⟩
  · refine ⟨Session.packets_of_opened tidy notOpen opened, ?_⟩
    have succeeded : result = .ok () after := by
      cases hr : result with
      | ok _ after' => rw [show after = after' from congrArg Act.state hr]
      | error fault after' =>
        have closed := Session.notOpen_of_connect tidy hr
        rw [show after = after' from congrArg Act.state hr, closed] at opened
        cases opened
    obtain ⟨packet, s, t, u, opens⟩ := Session.opens_of_connect tidy notOpen succeeded
    refine ⟨packet, s, t, u, opens, fun none => ?_⟩
    have untouched := (none ▸ trials).untouched_of_opened notOpen opened
    exact ⟨untouched.sent, untouched.receives, opens.unread.trans untouched.unread⟩
  · have later : after.Tidy := by
      have := ((reached.tail .connect).tidy start.tidy).1
      rwa [Session.state_perform_connect] at this
    rcases Session.left_of_packet tidy packed with settled | ⟨foreign, spelled, s, phase, usable⟩
    · exact .inl fun _ hlater => (hlater.packets_of_settled later settled).2
    · exact .inr ⟨foreign, s, phase, usable.isOpen, Session.packets_of_retry phase usable spelled⟩

/-- The handler gives up on a notice in front of the acknowledgment. Connecting again sends another packet,
and takes the acknowledgment of the first probe for that of its own. -/
theorem second_packet_after_mishap :
    let session : Session :=
      { settings := { database := "d", user := "u" }
        handling := .handled fun notices => some ("handler: " ++ notices.getLastD "")
        phase := .broken { link := { incoming := [.bytes [0x4E, 0x68, 0x69, 0, 0x49, 0]] } } }
    let operations := [Session.Command.connect, .connect]
    let now := session.follow operations
    session.Unused ∧ session.mishaps operations = 1 ∧ now.isOpen = true ∧ now.packets = 2 ∧
      now.packets ≤ session.mishaps operations + 1 := by
  intro session operations now
  have start : session.Unused := ⟨rfl, rfl, rfl, rfl, fun s hs => by cases hs; exact ⟨rfl, rfl, rfl⟩⟩
  obtain ⟨-, bound⟩ := startup_packets_bounded_by_mishaps start
  exact ⟨start, by decide +kernel, by decide +kernel, by decide +kernel, (bound operations).1⟩

end SimpleQuery
