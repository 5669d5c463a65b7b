import SimpleQuery.Proofs.Frame
import SimpleQuery.Proofs.Uncut

/-!
# What lies ahead of a stream

What a stream has been through leaves no trace in the answers it reads later. These depend on its charset,
on whether it is closed, on what is staged, on which calls to send will fail, and on all that is still to
be read, whether it has arrived or not.

* `Stream.congruence_prospect` — the primitives end alike on streams that agree in that much.
* `Stream.outcome_query_of_prospect_eq` — so does a statement with its answer, unless a handler makes
  something else of later notices because it remembers other notices.
-/

set_option autoImplicit false

namespace SimpleQuery

/-- A handler that makes the same of later notices, whichever of two lists of notices it has taken before. -/
def NoticeHandling.Indifferent (handling : NoticeHandling) (past past' : List String) : Prop :=
  match handling with
  | .logged => True
  | .handled raises => ∀ later, later ≠ [] → raises (past ++ later) = raises (past' ++ later)

namespace Stream

open Link (arrived beyond)

namespace Uncut

/-- The same without its past. -/
def prospect (u : Uncut) : Uncut :=
  { u with link := { u.link with dialFaults := [], hangUpFault := none, hungUp := false, told := [] } }

theorem prospect_starve {α : Type} (u : Uncut) :
    Act.seen prospect (starve u : EStateM.Result Fault Uncut α) = Act.seen prospect (starve u.prospect) := by
  unfold starve
  by_cases hc : u.closed = true
  · rw [if_pos hc, if_pos (show u.prospect.closed = true from hc)]
    rfl
  · rw [if_neg hc, if_neg (show ¬u.prospect.closed = true from hc)]
    simp only [show u.prospect.link.line = u.link.line from rfl]
    split <;> rfl

theorem prospect_receive (n : Nat) (u : Uncut) :
    Act.seen prospect (receive n u) = Act.seen prospect (receive n u.prospect) := by
  unfold receive
  by_cases hn : n ≤ (arrived u.link.line).length
  · rw [if_pos hn, if_pos (show n ≤ (arrived u.prospect.link.line).length from hn)]
    rfl
  · rw [if_neg hn, if_neg (show ¬n ≤ (arrived u.prospect.link.line).length from hn)]
    exact prospect_starve u

theorem prospect_gather (room : Nat) (u : Uncut) :
    Act.seen prospect (gather room u) = Act.seen prospect (gather room u.prospect) := by
  unfold gather
  simp only [show u.prospect.link.line = u.link.line from rfl]
  cases scan room (arrived u.link.line) with
  | ended text rest | full rest => rfl
  | «open» text more => exact prospect_starve (u.withLine (beyond u.link.line))

theorem prospect_await (u : Uncut) :
    Act.seen prospect (await u) = Act.seen prospect (await u.prospect) := by
  unfold await
  by_cases ha : arrived u.link.line = []
  · rw [if_pos ha, if_pos (show arrived u.prospect.link.line = [] from ha)]
    exact prospect_starve u
  · rw [if_neg ha, if_neg (show ¬arrived u.prospect.link.line = [] from ha)]
    rfl

theorem prospect_flush (u : Uncut) :
    Act.seen prospect (flush u) = Act.seen prospect (flush u.prospect) := by
  unfold flush
  by_cases hs : u.staged = []
  · rw [if_pos hs, if_pos (show u.prospect.staged = [] from hs)]
    rfl
  rw [if_neg hs, if_neg (show ¬u.prospect.staged = [] from hs)]
  by_cases hc : u.closed = true
  · rw [if_pos hc, if_pos (show u.prospect.closed = true from hc)]
    rfl
  · rw [if_neg hc, if_neg (show ¬u.prospect.closed = true from hc)]
    simp only [show u.prospect.link.sendFaults = u.link.sendFaults from rfl]
    cases Link.nextFault u.link.sendFaults <;> rfl

end Uncut

/-- What lies ahead of a stream. -/
def prospect (s : Stream) : Uncut := s.uncut.prospect

theorem prospect_eq_of {s t : Stream} (charset : s.charset = t.charset) (closed : s.closed = t.closed)
    (staged : s.staged = t.staged) (line : s.line = t.line)
    (sendFaults : s.link.sendFaults = t.link.sendFaults) : s.prospect = t.prospect := by
  simp only [prospect, Uncut.prospect, uncut, Link.uncut, charset, closed, staged, line, sendFaults]

/-- An action that is described by the view without the cutting, and there does not look back. -/
theorem respects_prospect {α : Type} {act : Act Stream α} {image : Act Uncut α}
    (seen : ∀ s, Act.seen uncut (act s) = image s.uncut)
    (ahead : ∀ u, Act.seen Uncut.prospect (image u) = Act.seen Uncut.prospect (image u.prospect)) :
    Act.Respects (fun s t : Stream => s.prospect = t.prospect) act := by
  have view (s : Stream) : Act.seen prospect (act s) = Act.seen Uncut.prospect (image s.prospect) := by
    rw [prospect, ← ahead, ← seen]
    cases act s <;> rfl
  intro s t h
  refine Act.alike_of_seen_eq ?_
  rw [view, view, h]

/-- Reading does not see what a stream has been through. -/
theorem congruence_prospect : Congruence fun s t : Stream => s.prospect = t.prospect where
  charset _ _ h := congrArg Uncut.charset h
  receive n := respects_prospect (seen_receive n) (Uncut.prospect_receive n)
  gather room := respects_prospect (seen_gather room) (Uncut.prospect_gather room)
  await := respects_prospect seen_await Uncut.prospect_await
  record event hevent s t h := by
    rw [prospect, prospect, uncut_say hevent s s.link.sendFaults s.staged,
      uncut_say hevent t t.link.sendFaults t.staged]
    exact h
  stage bytes s t h :=
    .ok rfl (congrArg (fun u : Uncut => { u with staged := u.staged ++ bytes }) h)
  flush := respects_prospect seen_flush Uncut.prospect_flush

/-- Streams with the same ahead of them, of which each has its own past of notices, and behind these the same
were taken. -/
def Recalling (past past' : List String) (s t : Stream) : Prop :=
  s.prospect = t.prospect ∧ ∃ later, s.link.notices = past ++ later ∧ t.link.notices = past' ++ later

theorem recalling_of_notices {α : Type} {past past' : List String} {act : Act Stream α}
    (h : Act.Respects (fun s t : Stream => s.prospect = t.prospect) act)
    (same : ∀ s, (Act.state (act s)).link.notices = s.link.notices) : Act.Respects (Recalling past past') act := by
  refine h.closer (fun _ _ recalling => recalling.1) fun s t recalling ahead => ⟨ahead, ?_⟩
  rw [same, same]
  exact recalling.2

/-- Reading and sending do not see which notices were taken. -/
theorem congruence_recalling (past past' : List String) : Congruence (Recalling past past') where
  charset s t h := congruence_prospect.charset s t h.1
  receive n := recalling_of_notices (congruence_prospect.receive n) fun s => (along_keeps.receive n s).notices
  gather room := recalling_of_notices (congruence_prospect.gather room) fun s =>
    (along_keeps.gather room s).notices
  await := recalling_of_notices congruence_prospect.await fun s => (along_keeps.await s).notices
  record event hevent s t h := by
    obtain ⟨ahead, later, first, second⟩ := h
    refine ⟨congruence_prospect.record event hevent s t ahead, later ++ event.notice?.toList, ?_, ?_⟩
    · rw [Link.notices_record, first, List.append_assoc]
    · rw [Link.notices_record, second, List.append_assoc]
  stage bytes := recalling_of_notices (congruence_prospect.stage bytes) fun _ => rfl
  flush := recalling_of_notices congruence_prospect.flush notices_flush

/-- Nor does a handler that is indifferent to it. -/
theorem blind_recalling {handling : NoticeHandling} {past past' : List String}
    (indifferent : handling.Indifferent past past') : handling.Blind (Recalling past past') := by
  intro notice s t h
  cases handling with
  | logged => exact (congruence_recalling past past').logged _ s t h
  | handled raises =>
    have recorded := (congruence_recalling past past').record (.noticed notice) rfl s t h
    obtain ⟨-, later, first, second⟩ := h
    have alike : raises (s.link.record (.noticed notice)).notices =
        raises (t.link.record (.noticed notice)).notices := by
      rw [Link.notices_record, Link.notices_record, first, second, List.append_assoc, List.append_assoc]
      exact indifferent (later ++ [notice]) (List.append_ne_nil_of_right_ne_nil later (List.cons_ne_nil _ _))
    simp only [Reader.handle, alike]
    cases raises (t.link.record (.noticed notice)).notices with
    | none => exact .ok rfl recorded
    | some reason => exact .error recorded

/-- A statement comes to the same on streams with the same ahead of them, unless a handler makes something
else of its notices because it remembers others. -/
theorem outcome_query_of_prospect_eq {s t : Stream} (h : s.prospect = t.prospect)
    {handling : NoticeHandling} (indifferent : handling.Indifferent s.link.notices t.link.notices)
    (statement : String) :
    Act.outcome (s.query handling statement) = Act.outcome (t.query handling statement) := by
  have recalling : Recalling s.link.notices t.link.notices s t :=
    ⟨h, [], (List.append_nil _).symm, (List.append_nil _).symm⟩
  exact ((congruence_recalling _ _).query (blind_recalling indifferent) statement s t recalling).outcomes

end Stream

end SimpleQuery
