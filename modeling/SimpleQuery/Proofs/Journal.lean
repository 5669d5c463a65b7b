import SimpleQuery.Proofs.SideBySide

/-!
# The journal is only written

The journal of a link tells what happened, and nothing that is done depends on it, but for a handler of
notices that remembers those it has taken: behind two pasts with the same notices every run comes to the
same, and each past is still there in the end.

* `Stream.congruence_since` — reading and sending do not see the past.
* `Session.congruence_since` — nor does anything that a session does, where the notices are the same.
* `Session.runAll_since` — so a run goes on from a longer past without notices as from a shorter one.
-/

set_option autoImplicit false

namespace SimpleQuery

open Act (Alike Respects seen)

/-- The link with more of a past. -/
def Link.since (past : List Event) (link : Link) : Link := { link with journal := link.journal ++ past }

/-- The stream with more of a past. -/
def Stream.since (past : List Event) (s : Stream) : Stream := { s with link := s.link.since past }

/-- The session with more of a past. -/
def Session.since (past : List Event) (session : Session) : Session :=
  { session with phase := session.phase.mapLink (Link.since past) }

theorem Link.since_nil (link : Link) : link.since [] = link := by
  unfold since
  rw [List.append_nil]

theorem Stream.since_nil (s : Stream) : s.since [] = s := by
  unfold since
  rw [s.link.since_nil]

variable (past : List Event)

namespace Stream

theorem fill_since (s : Stream) : fill (s.since past) = seen (since past) (fill s) := by
  unfold fill
  by_cases hc : s.closed = true
  · rw [if_pos hc, if_pos (show (s.since past).closed = true from hc)]
    rfl
  · rw [if_neg hc, if_neg (show ¬(s.since past).closed = true from hc)]
    simp only [Link.receive, show (s.since past).link.incoming = s.link.incoming from rfl]
    cases (Link.takeDelivery chunkLimit s.link.incoming).1 with
    | error reason => rfl
    | ok chunk => cases chunk <;> rfl

theorem receive_since (n : Nat) (s : Stream) :
    receive n (s.since past) = seen (since past) (receive n s) := by
  show receive n (s.since past) = seen (since past) (receiveFrom n s)
  fun_induction receiveFrom n s with
  | case1 s bytes rest h =>
    rw [receive_of_some (show cut? n (s.since past).unread = some (bytes, rest) from h)]
    rfl
  | case2 s h t ht ih =>
    rw [receive_of_none (show cut? n (s.since past).unread = none from h)]
    simp only [bind, EStateM.bind, fill_since, ht]
    exact ih
  | case3 s h fault t ht =>
    rw [receive_of_none (show cut? n (s.since past).unread = none from h)]
    simp only [bind, EStateM.bind, fill_since, ht]
    rfl

theorem gather_since (room : Nat) (s : Stream) :
    gather room (s.since past) = seen (since past) (gather room s) := by
  show gather room (s.since past) = seen (since past) (gatherFrom room s)
  fun_induction gatherFrom room s with
  | case1 room s text rest h =>
    rw [gather_of_ended (show scan room (s.since past).unread = .ended text rest from h)]
    rfl
  | case2 room s rest h =>
    rw [gather_of_full (show scan room (s.since past).unread = .full rest from h)]
    rfl
  | case3 room s text left h t ht rest u hu ih | case4 room s text left h t ht u hu ih
  | case5 room s text left h t ht fault u hu ih =>
    rw [gather_of_open (show scan room (s.since past).unread = .open text left from h)]
    rw [hu] at ih
    have hfill := fill_since past { s with unread := [] }
    rw [ht] at hfill
    simp only [bind, EStateM.bind, Functor.map, EStateM.map]
    rw [show ({ s.since past with unread := [] } : Stream) = since past { s with unread := [] } from rfl, hfill]
    simp only [seen, ih, Option.map_some, Option.map_none]
  | case6 room s text left h fault t ht =>
    rw [gather_of_open (show scan room (s.since past).unread = .open text left from h)]
    have hfill := fill_since past { s with unread := [] }
    rw [ht] at hfill
    simp only [bind, EStateM.bind]
    rw [show ({ s.since past with unread := [] } : Stream) = since past { s with unread := [] } from rfl, hfill]
    rfl

theorem await_since (s : Stream) : await (s.since past) = seen (since past) (await s) := by
  unfold await
  by_cases hu : s.unread = []
  · rw [if_pos hu, if_pos (show (s.since past).unread = [] from hu)]
    exact fill_since past s
  · rw [if_neg hu, if_neg (show ¬(s.since past).unread = [] from hu)]
    rfl

theorem flush_since (s : Stream) : flush (s.since past) = seen (since past) (flush s) := by
  unfold flush
  by_cases hs : s.staged = []
  · rw [if_pos hs, if_pos (show (s.since past).staged = [] from hs)]
    rfl
  rw [if_neg hs, if_neg (show ¬(s.since past).staged = [] from hs)]
  by_cases hc : s.closed = true
  · rw [if_pos hc, if_pos (show (s.since past).closed = true from hc)]
    rfl
  · rw [if_neg hc, if_neg (show ¬(s.since past).closed = true from hc)]
    simp only [Link.send, show (s.since past).link.sendFaults = s.link.sendFaults from rfl]
    cases Link.nextFault s.link.sendFaults <;> rfl

theorem close_since (s : Stream) : (s.since past).close = s.close.since past := by
  unfold close
  simp only [show (s.since past).closed = s.closed from rfl]
  split
  · rfl
  · simp only [Link.hangUp, show (s.since past).link.hangUpFault = s.link.hangUpFault from rfl]
    cases s.link.hangUpFault <;> rfl

variable {past}

/-- Of two streams, the first is behind one past where the second is behind another. -/
def Parted (past past' : List Event) (s t : Stream) : Prop := ∃ u : Stream, s = u.since past ∧ t = u.since past'

theorem respects_parted {α : Type} {act : Act Stream α} {past past' : List Event}
    (h : ∀ past s, act (s.since past) = seen (since past) (act s)) : Respects (Parted past past') act := by
  rintro s t ⟨u, rfl, rfl⟩
  rw [h, h]
  cases act u with
  | ok a v => exact .ok rfl ⟨v, rfl, rfl⟩
  | error fault v => exact .error ⟨v, rfl, rfl⟩

/-- Two results that are alike are one result, behind the one past and behind the other. -/
theorem exists_seen_of_parted {α : Type} {past past' : List Event} {r r' : EStateM.Result Fault Stream α}
    (h : Alike (Parted past past') Eq r r') :
    ∃ u : EStateM.Result Fault Stream α, r = seen (since past) u ∧ r' = seen (since past') u := by
  cases h with
  | ok value parted =>
    obtain ⟨u, rfl, rfl⟩ := parted
    exact ⟨.ok _ u, rfl, by rw [← value]; rfl⟩
  | error parted =>
    obtain ⟨u, rfl, rfl⟩ := parted
    exact ⟨.error _ u, rfl, rfl⟩

/-- Reading and sending do not see the past. -/
theorem congruence_since (past past' : List Event) : Congruence (Parted past past') where
  charset := by
    rintro s t ⟨u, rfl, rfl⟩
    rfl
  receive n := respects_parted fun past => receive_since past n
  gather room := respects_parted fun past => gather_since past room
  await := respects_parted await_since
  record event _ := by
    rintro s t ⟨u, rfl, rfl⟩
    exact ⟨{ u with link := u.link.record event }, rfl, rfl⟩
  stage bytes := respects_parted fun _ _ => rfl
  flush := respects_parted flush_since

end Stream

/-- The notices that a past has. -/
def Event.heard (past : List Event) : List String := past.reverse.filterMap Event.notice?

theorem Link.notices_since (past : List Event) (link : Link) :
    (link.since past).notices = Event.heard past ++ link.notices := by
  simp [notices, history, since, Event.heard]

theorem Stream.Parted.notices {past past' : List Event} (same : Event.heard past = Event.heard past')
    {s t : Stream} (h : Parted past past' s t) : s.link.notices = t.link.notices := by
  obtain ⟨u, rfl, rfl⟩ := h
  exact (Link.notices_since past u.link).trans ((congrArg (· ++ u.link.notices) same).trans
    (Link.notices_since past' u.link).symm)

/-- Of two links, the first is behind one past where the second is behind another. -/
def Link.Parted (past past' : List Event) (l m : Link) : Prop := ∃ k : Link, l = k.since past ∧ m = k.since past'

namespace Session

theorem dial_since (settings : Settings) (past : List Event) (link : Link) :
    dial settings (link.since past) = match dial settings link with
      | .ok s => .ok (s.since past)
      | .error (fault, m) => .error (fault, m.since past) := by
  unfold dial
  simp only [Link.dial, show (link.since past).dialFaults = link.dialFaults from rfl]
  cases Link.nextFault link.dialFaults with
  | none => rfl
  | some cause => cases cause <;> rfl

/-- Nor does anything that a session does, behind pasts with the same notices. -/
theorem congruence_since {past past' : List Event} (same : Event.heard past = Event.heard past') :
    Congruence (Link.Parted past past') (Stream.Parted past past') where
  toCongruence := Stream.congruence_since past past'
  notices _ _ h := h.notices same
  closed := by
    rintro s t ⟨u, rfl, rfl⟩
    rfl
  close := by
    rintro s t ⟨u, rfl, rfl⟩
    exact ⟨u.close, Stream.close_since past u, Stream.close_since past' u⟩
  feed more := by
    rintro s t ⟨u, rfl, rfl⟩
    exact ⟨{ u with link := u.link.feed more }, rfl, rfl⟩
  logLink entry := by
    rintro l m ⟨k, rfl, rfl⟩
    exact ⟨k.log entry, rfl, rfl⟩
  feedLink more := by
    rintro l m ⟨k, rfl, rfl⟩
    exact ⟨k.feed more, rfl, rfl⟩
  dial settings := by
    rintro l m ⟨k, rfl, rfl⟩
    rw [dial_since, dial_since]
    cases dial settings k with
    | ok s => exact .inl ⟨_, _, rfl, rfl, s, rfl, rfl⟩
    | error failure => exact .inr ⟨_, _, _, rfl, rfl, failure.2, rfl, rfl⟩

variable {past : List Event}

theorem beside_since (session : Session) :
    Beside (Link.Parted [] past) (Stream.Parted [] past) session (session.since past) := by
  refine ⟨rfl, rfl, ?_, rfl, rfl, rfl⟩
  unfold since
  cases session.phase with
  | fresh link => exact .fresh ⟨link, link.since_nil.symm, rfl⟩
  | broken s => exact .broken ⟨s, s.since_nil.symm, rfl⟩
  | «open» s => exact .open ⟨s, s.since_nil.symm, rfl⟩

theorem Beside.eq_since {a b : Session}
    (h : Beside (Link.Parted [] past) (Stream.Parted [] past) a b) : b = a.since past := by
  obtain ⟨settings, handling, phase, autocommit, readOnly, cursorName⟩ := h
  have hphase : b.phase = a.phase.mapLink (Link.since past) := by
    generalize a.phase = p at *
    generalize b.phase = q at *
    cases phase with
    | fresh parted =>
      obtain ⟨k, rfl, rfl⟩ := parted
      rw [k.since_nil]
      rfl
    | broken parted | «open» parted =>
      obtain ⟨u, rfl, rfl⟩ := parted
      rw [u.since_nil]
      rfl
  cases a
  cases b
  simp only at settings handling autocommit readOnly cursorName hphase
  subst_vars
  rfl

/-- A run goes on from a longer past as from a shorter one, unless a handler has more to remember. -/
theorem runAll_since (unheard : Event.heard past = []) (steps : List Step) (session : Session) :
    runAll steps (session.since past) =
      ((runAll steps session).1, (runAll steps session).2.since past) := by
  have same : Event.heard [] = Event.heard past := unheard.symm
  obtain ⟨outcomes, states⟩ := (congruence_since same).unseen.runAll steps (beside_since session)
  exact Prod.ext outcomes.symm states.eq_since

end Session

end SimpleQuery
