import SimpleQuery.Proofs.Assembly
import SimpleQuery.Proofs.Calls
import SimpleQuery.Proofs.Uncut

/-!
# When bytes are asked for

A call for bytes waits for ever if none are to come. A run that comes to no loss therefore asks for
bytes only while those that it has are fewer than those that it takes.

* `Act.Carries` — unless it comes to a loss, every run of an action moves the state along a relation.
* `Stream.Frugal` — between two states bytes were taken, and each call for bytes was needed for that.
* `Stream.frugal_receive`, `Stream.frugal_gather` — the primitives of reading are frugal.
* `asks_only_for_what_is_taken` — so are an answer and a statement.
-/

set_option autoImplicit false

namespace SimpleQuery

namespace Act

variable {σ α : Type}

/-- Unless it comes to a loss, every run of the action moves the state along `r`. -/
def Carries (r : σ → σ → Prop) (act : Act σ α) : Prop := ∀ s, isLost (act s) = false → r s (state (act s))

theorem Carries.sequencing {r : σ → σ → Prop} (refl : ∀ s, r s s)
    (trans : ∀ a b c, r a b → r b c → r a c) :
    Sequencing fun {α : Type} (act : Act σ α) => Carries r act where
  pure _ s _ := refl s
  violate _ s _ := refl s
  bind {α β act next} h hn := by
    intro s
    have hs := h s
    simp only [Bind.bind, EStateM.bind]
    cases hr : act s with
    | ok a t =>
      intro kept
      rw [hr] at hs
      exact trans _ _ _ (hs rfl) (hn a t kept)
    | error fault t =>
      intro kept
      rw [hr] at hs
      exact hs kept

end Act

/-- The bytes that an event brings. -/
def Event.delivered : Event → Bytes
  | .received chunk => chunk
  | _ => []

/-- The bytes that events bring. -/
def Event.brought (events : List Event) : Bytes := events.flatMap Event.delivered

namespace Stream

open Act (Carries)
open Event (brought)

/-- A successful call for bytes adds to the unread ones what it is brought. -/
theorem fill_brings {s t : Stream} (h : s.fill = .ok () t) :
    ∃ chunk, t.unread = s.unread ++ chunk ∧ t.link.history = s.link.history ++ [.received chunk] := by
  unfold fill at h
  split at h
  · cases h
  split at h
  · cases h
  · cases h
  rename_i b chunk link hreceive
  cases h
  refine ⟨b :: chunk, rfl, ?_⟩
  simp only [Link.receive, Prod.mk.injEq] at hreceive
  rw [← hreceive.2, Link.history_record, hreceive.1]
  rfl

/-- From `s` to `t` the events happened, the bytes were taken, and each call for bytes was made while
fewer were at hand than were taken in the end. -/
structure Frugal (s t : Stream) (events : List Event) (taken : Bytes) : Prop where
  history : t.link.history = s.link.history ++ events
  conserved : s.unread ++ brought events = taken ++ t.unread
  needed : ∀ before event after, events = before ++ event :: after → event.isReceive = true →
    (s.unread ++ brought before).length < taken.length

/-- Between the two states all calls for bytes were needed. -/
def Thrifty (s t : Stream) : Prop := ∃ events taken, Frugal s t events taken

namespace Frugal

/-- What happens without a call for bytes, and takes none. -/
theorem idle {s t : Stream} {events : List Event} (history : t.link.history = s.link.history ++ events)
    (unread : t.unread = s.unread) (quiet : ∀ event ∈ events, event.isReceive = false) :
    Frugal s t events [] where
  history := history
  conserved := by
    have none : brought events = [] := by
      rw [brought, List.flatMap_eq_nil_iff]
      intro event hmem
      cases event with
      | received chunk => cases quiet _ hmem
      | _ => rfl
    rw [none, unread, List.append_nil, List.nil_append]
  needed before event after hevents hcall := by
    rw [quiet event (by rw [hevents]; simp)] at hcall
    cases hcall

/-- Taking bytes that are at hand. -/
theorem take {s : Stream} {taken rest : Bytes} (h : s.unread = taken ++ rest) :
    Frugal s { s with unread := rest } [] taken where
  history := (List.append_nil _).symm
  conserved := by simp [brought, h]
  needed before event after hevents := by
    cases before <;> cases hevents

theorem trans {s t u : Stream} {events events' : List Event} {taken taken' : Bytes}
    (h : Frugal s t events taken) (h' : Frugal t u events' taken') :
    Frugal s u (events ++ events') (taken ++ taken') where
  history := by rw [h'.history, h.history, List.append_assoc]
  conserved := by
    have first := h.conserved
    have second := h'.conserved
    rw [brought, List.flatMap_append, ← List.append_assoc, ← brought, first, List.append_assoc,
      ← brought, second, List.append_assoc]
  needed before event after hevents hcall := by
    -- by the time of a call that is made from `t` on, all that was taken before counts as taken
    have later (between : List Event) (hbefore : before = events ++ between)
        (hlater : events' = between ++ event :: after) :
        (s.unread ++ brought before).length < (taken ++ taken').length := by
      have missing := h'.needed between event after hlater hcall
      have first := congrArg List.length h.conserved
      rw [hbefore, brought, List.flatMap_append]
      simp only [brought, List.length_append] at missing first ⊢
      omega
    rcases List.append_eq_append_iff.1 hevents with ⟨between, hbefore, hlater⟩ | ⟨between, hearlier, hrest⟩
    · exact later between hbefore hlater
    · cases between with
      | nil => exact later [] (by simpa using hearlier.symm) (by simpa using hrest.symm)
      | cons head between =>
        obtain ⟨rfl, -⟩ := List.cons.inj hrest
        have missing := h.needed before event between hearlier hcall
        simp only [List.length_append] at missing ⊢
        omega

/-- A call for bytes, where more are taken than were at hand. -/
theorem fill {s t u : Stream} {events : List Event} {taken : Bytes} (hfill : s.fill = .ok () t)
    (h : Frugal t u events taken) (few : s.unread.length < taken.length) :
    ∃ event, Frugal s u (event :: events) taken := by
  obtain ⟨chunk, hunread, hhistory⟩ := fill_brings hfill
  have conserved := h.conserved
  refine ⟨.received chunk, ?_, ?_, ?_⟩
  · rw [h.history, hhistory, List.append_assoc]
    rfl
  · rw [← conserved, hunread, List.append_assoc]
    rfl
  · intro before event after hevents hcall
    cases before with
    | nil => simpa [brought] using few
    | cons first before =>
      obtain ⟨rfl, hrest⟩ := List.cons.inj hevents
      have missing := h.needed before event after hrest hcall
      rw [hunread, List.append_assoc] at missing
      exact missing

/-- Once as many bytes are at hand as are taken, no call is made for more. -/
theorem sated {s t : Stream} {before after : List Event} {taken : Bytes}
    (h : Frugal s t (before ++ after) taken)
    (enough : taken.length ≤ (s.unread ++ brought before).length) :
    ∀ event ∈ after, event.isReceive = false := by
  intro event hmem
  obtain ⟨first, last, rfl⟩ := List.append_of_mem hmem
  rw [Bool.eq_false_iff]
  intro hcall
  have missing := h.needed (before ++ first) event last (List.append_assoc _ _ _).symm hcall
  rw [brought, List.flatMap_append] at missing
  simp only [brought, List.length_append] at enough missing
  omega

end Frugal

/-! ## The primitives of reading -/

theorem Thrifty.refl (s : Stream) : s.Thrifty s :=
  ⟨[], [], .idle (List.append_nil _).symm rfl (by simp)⟩

theorem Thrifty.trans (a b c : Stream) (h : a.Thrifty b) (h' : b.Thrifty c) : a.Thrifty c := by
  obtain ⟨events, taken, h⟩ := h
  obtain ⟨events', taken', h'⟩ := h'
  exact ⟨_, _, h.trans h'⟩

theorem sequencing_thrifty :
    Act.Sequencing fun {α : Type} (act : Act Stream α) => Carries Thrifty act :=
  Carries.sequencing Thrifty.refl Thrifty.trans

theorem frugal_receive (n : Nat) (s : Stream) (kept : Act.isLost (receive n s) = false) :
    ∃ events taken, Frugal s (Act.state (receive n s)) events taken ∧ taken.length = n := by
  revert kept
  show Act.isLost (receiveFrom n s) = false → ∃ events taken,
    Frugal s (Act.state (receiveFrom n s)) events taken ∧ taken.length = n
  fun_induction receiveFrom n s with
  | case1 s bytes rest h =>
    intro _
    rw [cut?_eq] at h
    split at h
    · rename_i hn
      cases h
      exact ⟨[], s.unread.take n, .take (List.take_append_drop n _).symm, List.length_take_of_le hn⟩
    · cases h
  | case2 s h t ht ih =>
    intro kept
    obtain ⟨events, taken, hfrugal, hlength⟩ := ih kept
    have few : s.unread.length < taken.length := by
      rw [hlength]
      refine Nat.lt_of_not_le fun enough => ?_
      rw [cut?_eq, if_pos enough] at h
      cases h
    obtain ⟨event, hall⟩ := hfrugal.fill ht few
    exact ⟨_, _, hall, hlength⟩
  | case3 s h fault t ht =>
    intro kept
    rw [Act.isLost, lost_of_fill ht] at kept
    cases kept

/-- What a search for a zero byte goes through. -/
theorem scan_takes (room : Nat) (bytes : Bytes) :
    match scan room bytes with
    | .ended text rest => bytes = text ++ 0 :: rest
    | .full rest => ∃ taken : Bytes, taken.length = room ∧ bytes = taken ++ rest
    | .open text _ => bytes = text := by
  induction room generalizing bytes with
  | zero => exact ⟨[], rfl, rfl⟩
  | succ room ih =>
    cases bytes with
    | nil => rfl
    | cons b bytes =>
      have hrest := ih bytes
      simp only [scan]
      by_cases hb : b = 0
      · rw [if_pos hb, hb]
        rfl
      rw [if_neg hb]
      revert hrest
      cases scan room bytes with
      | ended text rest => exact congrArg (b :: ·)
      | full rest =>
        rintro ⟨taken, hlength, htaken⟩
        exact ⟨b :: taken, congrArg (· + 1) hlength, congrArg (b :: ·) htaken⟩
      | «open» text left => exact congrArg (b :: ·)

/-- With room for a byte, gathering takes one. -/
theorem frugal_gather (room : Nat) (s : Stream) (kept : Act.isLost (gather room s) = false) :
    ∃ events taken, Frugal s (Act.state (gather room s)) events taken ∧ (0 < room → 0 < taken.length) := by
  revert kept
  show Act.isLost (gatherFrom room s) = false → ∃ events taken,
    Frugal s (Act.state (gatherFrom room s)) events taken ∧ (0 < room → 0 < taken.length)
  have goesOn {room left : Nat} {s t u : Stream} {text : Bytes} (h : scan room s.unread = .open text left)
      (ht : ({ s with unread := [] } : Stream).fill = .ok () t)
      (ih : ∃ events taken, Frugal t u events taken ∧ (0 < left → 0 < taken.length)) :
      ∃ events taken, Frugal s u events taken ∧ (0 < room → 0 < taken.length) := by
    obtain ⟨events, taken, hfrugal, htaken⟩ := ih
    have few := htaken (scan_open_pos h)
    obtain ⟨event, hall⟩ := hfrugal.fill ht few
    refine ⟨_, _, (Frugal.take (List.append_nil _).symm).trans hall, fun _ => ?_⟩
    rw [List.length_append]
    omega
  fun_induction gatherFrom room s with
  | case1 room s text rest h =>
    intro _
    have htext := scan_takes room s.unread
    rw [h] at htext
    refine ⟨[], text ++ [0], .take ?_, fun _ => ?_⟩
    · rw [htext, List.append_assoc]
      rfl
    · simp
  | case2 room s rest h =>
    intro _
    have hfull := scan_takes room s.unread
    rw [h] at hfull
    obtain ⟨taken, hlength, htaken⟩ := hfull
    exact ⟨[], taken, .take htaken, fun hroom => hlength ▸ hroom⟩
  | case3 room s text left h t ht rest u hu ih | case4 room s text left h t ht u hu ih
  | case5 room s text left h t ht fault u hu ih =>
    intro kept
    rw [hu] at ih
    exact goesOn h ht (ih kept)
  | case6 room s text left h fault t ht =>
    intro kept
    rw [Act.isLost, lost_of_fill ht] at kept
    cases kept

/-- A byte that is waited for is one of those that are then gathered. -/
theorem carries_gathered {cap : Nat} (room : 0 < cap) : Carries Thrifty (await >>= fun _ => gather cap) := by
  intro s
  simp only [bind, EStateM.bind, await]
  by_cases hs : s.unread = []
  · rw [if_pos hs]
    cases hfill : s.fill with
    | error fault t =>
      intro kept
      rw [Act.isLost, lost_of_fill hfill] at kept
      cases kept
    | ok _ t =>
      intro kept
      obtain ⟨events, taken, hfrugal, htaken⟩ := frugal_gather cap t kept
      obtain ⟨event, hall⟩ := hfrugal.fill hfill (by rw [hs]; exact htaken room)
      exact ⟨_, _, hall⟩
  · rw [if_neg hs]
    intro kept
    obtain ⟨events, taken, hfrugal, -⟩ := frugal_gather cap s kept
    exact ⟨_, _, hfrugal⟩

theorem carries_logged (entry : Log.Entry) : Carries Thrifty (logged entry) := by
  intro s _
  exact ⟨[.logged entry], [], .idle (Link.history_record _ _) rfl (by simp [Event.isReceive])⟩

theorem carries_text {α : Type} {next : Stream → Except Fault α} :
    Carries Thrifty (MonadState.get >>= fun s : Stream => Act.ofExcept (next s)) := by
  intro s _
  show Thrifty s (Act.state (Act.ofExcept (next s) s))
  rw [Act.state_ofExcept]
  exact .refl s

theorem assembly_thrifty : Assembly fun {α : Type} (act : Act Stream α) => Carries Thrifty act where
  toSequencing := sequencing_thrifty
  logged := carries_logged
  receive n s kept := by
    obtain ⟨events, taken, hfrugal, -⟩ := frugal_receive n s kept
    exact ⟨events, taken, hfrugal⟩
  receiveText cap room :=
    receiveText_of sequencing_thrifty carries_logged (carries_gathered room) fun _ => carries_text

/-! ## Answers and statements -/

/-- A query that is sent asks for nothing, and one that is not sent is a loss. -/
theorem carries_sendQuery (statement : Bytes) : Carries Thrifty (sendQuery statement) := by
  intro s kept
  rcases sendQuery_run statement s with ⟨-, h⟩ | ⟨-, -, h⟩ | ⟨reason, -, -, h⟩ <;> rw [h] at kept ⊢
  · cases kept
  · exact ⟨[.sent (s.staged ++ Query.frame statement)], [], .idle (Link.history_record _ _) rfl
      (by simp [Event.isReceive])⟩
  · cases kept

theorem carries_handle (handling : NoticeHandling) (notice : String) :
    Carries Thrifty (Reader.handle handling notice) := by
  intro s kept
  cases handling with
  | logged => exact carries_logged _ s kept
  | handled raises =>
    rw [Reader.state_handle_handled]
    exact ⟨[.noticed notice], [], .idle (Link.history_record _ _) rfl (by simp [Event.isReceive])⟩

end Stream

namespace Reader

open Act (Carries)
open SimpleQuery.Stream (Thrifty)
open SimpleQuery.Stream.AlongAnswers (onReader)

theorem assembly_thrifty (handling : NoticeHandling) :
    Assembly handling (fun {α : Type} (act : Act Stream α) => Carries Thrifty act)
      fun {α : Type} (act : Act Reader α) => Carries (onReader Thrifty) act where
  toSequencing := Carries.sequencing (fun r => Thrifty.refl r.stream)
    fun _ _ _ h h' => Thrifty.trans _ _ _ h h'
  reading := Stream.assembly_thrifty
  handle := Stream.carries_handle handling
  sends := Stream.carries_sendQuery _
  onStream {α act} h r kept := by
    rw [onReader, stream_onStream]
    refine h r.stream ?_
    revert kept
    simp only [onStream, Act.on]
    cases act r.stream <;> exact id
  respond _ r _ := Thrifty.refl r.stream
  response _ h r kept := h r.response r kept
  pairwise h r kept := by
    obtain ⟨part, hpart, hr, -⟩ := h r r
    rw [hr] at kept ⊢
    exact hpart r kept

theorem carries_read (handling : NoticeHandling) : Carries (onReader Thrifty) (read handling) :=
  (assembly_thrifty handling).read fun _ r _ => Thrifty.refl r.stream

end Reader

namespace Stream

open Act (Carries)

theorem carries_receiveAnswer (handling : NoticeHandling) : Carries Thrifty (receiveAnswer handling) := by
  intro s
  have hread := Reader.carries_read handling { stream := s }
  unfold receiveAnswer
  revert hread
  cases Reader.read handling { stream := s } <;> exact id

theorem carries_query (handling : NoticeHandling) (statement : String) :
    Carries Thrifty (query handling statement) :=
  query_of sequencing_thrifty (fun _ => carries_text) carries_sendQuery (carries_receiveAnswer handling)
    (fun _ s _ => Thrifty.refl s) statement

end Stream

/-- A statement that comes to no loss leaves the session open, on a stream that was frugal. -/
theorem Session.thrifty_query {session : Session} {s : Stream} (hp : session.phase = .open s)
    (statement : String) (kept : Act.isLost (query statement session) = false) :
    ∃ t, (Act.state (query statement session)).phase = .open t ∧ s.Thrifty t := by
  have hquery := Stream.carries_query session.handling statement s
  have hrun : query statement session = onStream (execute session.handling statement) session := rfl
  revert kept
  rw [hrun, onStream_of_open _ hp, execute]
  cases hr : s.query session.handling statement with
  | ok bundle t =>
    intro _
    rw [hr] at hquery
    exact ⟨_, rfl, .trans _ _ _ (hquery rfl) (Stream.carries_logged _ t rfl)⟩
  | error fault t =>
    rw [hr] at hquery
    cases fault with
    | loss cause =>
      intro kept
      cases kept
    | _ =>
      intro kept
      exact ⟨t, rfl, hquery rfl⟩

/-- **Bytes are asked for only while too few are at hand.** Unless it comes to a loss, reading an answer
makes each call for bytes while fewer are at hand than it takes in the end, and so do a statement and
its answer, on a stream or for a session. Once as many are at hand no call is made. A payload without
bytes and a row without columns ask for none. -/
theorem asks_only_for_what_is_taken (handling : NoticeHandling) (s : Stream) :
    (Act.isLost (s.receiveAnswer handling) = false →
      s.Thrifty (Act.state (s.receiveAnswer handling))) ∧
    (∀ statement, Act.isLost (s.query handling statement) = false →
      s.Thrifty (Act.state (s.query handling statement))) ∧
    (∀ (session : Session) (statement : String), session.phase = .open s →
      Act.isLost (Session.query statement session) = false →
        ∃ t, (Act.state (Session.query statement session)).phase = .open t ∧ s.Thrifty t) ∧
    (∀ (t : Stream) (before after : List Event) (taken : Bytes), s.Frugal t (before ++ after) taken →
      taken.length ≤ (s.unread ++ Event.brought before).length →
        ∀ event ∈ after, event.isReceive = false) ∧
    (∀ (binary : Bool) (word : Nat) (t : Stream), s.receiveInteger .four = .ok word t →
      Stream.payloadLength binary word = 0 → s.receivePayload binary = .ok [] t) ∧
    ∀ binary, s.receiveRow 0 binary = .ok [] s := by
  refine ⟨Stream.carries_receiveAnswer handling s, fun statement => Stream.carries_query handling statement s,
    fun session statement hp => Session.thrifty_query hp statement, ?_, ?_, ?_⟩
  · intro t before after taken hfrugal enough event hmem
    exact hfrugal.sated enough event hmem
  · intro binary word t hword hlength
    simp only [Stream.receivePayload, bind, EStateM.bind, hword, hlength]
    exact Stream.receive_of_some rfl
  · intro binary
    have none : s.receive (Stream.bitmapLength 0) = .ok [] s := Stream.receive_of_some rfl
    simp only [Stream.receiveRow, bind, EStateM.bind, none]
    rfl

/-- A status that comes in two pieces and its acknowledgment are taken with three calls, and what is
delivered behind them is left on the link. A payload of no bytes is taken with no call. -/
theorem three_calls_for_a_status :
    let s : Stream := { link := { incoming := [.bytes [0x43], .bytes [0x6F, 0, 0x49], .bytes [0],
      .bytes [0x5A]] } }
    let session : Session := { settings := { database := "d", user := "u" }, phase := .open s }
    let word : Stream := { link := {}, unread := [0, 0, 0, 0] }
    (Act.isLost (s.receiveAnswer .logged) = false ∧
      s.Thrifty (Act.state (s.receiveAnswer .logged)) ∧
      (Act.state (s.receiveAnswer .logged)).link.receives = 3 ∧
      (Act.state (s.receiveAnswer .logged)).link.incoming = [.bytes [0x5A]]) ∧
    (Act.isLost (s.query .logged "x") = false ∧ s.Thrifty (Act.state (s.query .logged "x"))) ∧
    (Act.isLost (Session.query "x" session) = false ∧
      ∃ t, (Act.state (Session.query "x" session)).phase = .open t ∧ s.Thrifty t) ∧
    (∀ event ∈ [Event.logged .streamClosed], event.isReceive = false) ∧
    word.receivePayload true = .ok [] { word with unread := [] } := by
  intro s session word
  have answered : Act.isLost (s.receiveAnswer .logged) = false := by decide +kernel
  have asked : Act.isLost (s.query .logged "x") = false := by decide +kernel
  have kept : Act.isLost (Session.query "x" session) = false := by decide +kernel
  obtain ⟨answer, query, run, sated, -, -⟩ := asks_only_for_what_is_taken .logged s
  obtain ⟨-, -, -, -, payload, -⟩ := asks_only_for_what_is_taken .logged word
  have logged : s.Frugal (s.log .streamClosed) ([] ++ [.logged .streamClosed]) [] :=
    .idle (Link.history_record _ _) rfl (by simp [Event.isReceive])
  have four : word.receive Width.four.bytes = .ok [0, 0, 0, 0] { word with unread := [] } :=
    Stream.receive_of_some rfl
  have zero : word.receiveInteger .four = .ok 0 { word with unread := [] } := by
    simp only [Stream.receiveInteger, bind, EStateM.bind, four]
    rfl
  exact ⟨⟨answered, answer answered, by decide +kernel, by decide +kernel⟩, ⟨asked, query "x" asked⟩,
    ⟨kept, run session "x" rfl kept⟩, sated _ [] _ [] logged (Nat.zero_le _), payload true 0 _ zero rfl⟩

end SimpleQuery
