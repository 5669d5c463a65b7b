import SimpleQuery.Proofs.Lifecycle

/-!
# What a backend makes of the queries

A backend takes the bytes that it receives apart at the zero bytes. What it finds are the statements
that were run, each in front of the flush queries for its answer, unless one of them is spelled with a zero
byte: that one is sent as it is, and is found cut in two. In the four charsets only the zero character has
that byte; a charset of two bytes for each character has it everywhere.

* `Charset.zero_mem_encode?` — the zero byte spells the zero character, and is part of no other.
* `Query.zero_not_mem_statement` — what a backend finds has no zero byte.
* `Session.sent_queries` — what a run of statements sends, by induction on the statements.
* `queries_are_found_as_asked_iff` — the backend finds what was asked exactly when that is spelled without
  a zero byte.
-/

set_option autoImplicit false

namespace SimpleQuery

/-! ## The zero byte -/

/-- A list that is mapped one by one has a value exactly when one of its elements is mapped to it. -/
theorem mem_of_mapM {α β : Type} {f : α → Option β} {l : List α} {m : List β} (h : l.mapM f = some m)
    (b : β) : b ∈ m ↔ ∃ a ∈ l, f a = some b := by
  induction l generalizing m with
  | nil =>
    cases h
    simp
  | cons a l ih =>
    simp only [List.mapM_cons, Option.bind_eq_bind, Option.pure_def, Option.bind_eq_some_iff,
      Option.some.injEq] at h
    obtain ⟨c, hc, r, hr, rfl⟩ := h
    rw [List.mem_cons, ih hr]
    constructor
    · rintro (rfl | ⟨d, hd, hf⟩)
      · exact ⟨a, List.mem_cons_self, hc⟩
      · exact ⟨d, List.mem_cons_of_mem _ hd, hf⟩
    · rintro ⟨d, hd, hf⟩
      rcases List.mem_cons.1 hd with rfl | hd
      · exact .inl (Option.some.inj (hf.symm.trans hc))
      · exact .inr ⟨d, hd, hf⟩

/-- The zero character. -/
def zeroChar : Char := Char.ofNat 0

/-- Of all characters only the zero character has the zero byte in UTF-8. -/
theorem Utf8.zero_mem_encodeChar (c : Char) : 0 ∈ String.utf8EncodeChar c ↔ c = zeroChar := by
  constructor
  · intro h
    have hc := ofNat_val c
    have hr := scalar_range c
    simp only [String.utf8EncodeChar] at h
    generalize c.val.toNat = n at *
    have byte {m : Nat} (hm : 0 = UInt8.ofNat m) : m % 256 = 0 := by
      have := congrArg UInt8.toNat hm
      rw [UInt8.toNat_ofNat'] at this
      exact this.symm
    suffices n = 0 by rw [← hc, this]; rfl
    -- behind the first 128 characters each byte has its high bit set
    split at h
    · have := byte (List.mem_singleton.1 h)
      omega
    split at h
    · simp only [List.mem_cons, List.not_mem_nil, or_false] at h
      rcases h with h | h <;> have := byte h <;> omega
    split at h
    · simp only [List.mem_cons, List.not_mem_nil, or_false] at h
      rcases h with h | h | h <;> have := byte h <;> omega
    · simp only [List.mem_cons, List.not_mem_nil, or_false] at h
      rcases h with h | h | h | h <;> have := byte h <;> omega
  · rintro rfl
    decide

namespace Charset

theorem byte?_eq_zero (cs : Charset) (c : Char) : cs.byte? c = some 0 ↔ c = zeroChar := by
  constructor
  · intro h
    have hc := char?_of_byte? h
    have zero : cs.char? 0 = some zeroChar := by cases cs <;> rfl
    exact (Option.some.inj (zero.symm.trans hc)).symm
  · rintro rfl
    cases cs <;> rfl

/-- The zero byte spells the zero character, and is part of no other. -/
theorem zero_mem_encode? {cs : Charset} {text : String} {bytes : Bytes}
    (h : cs.encode? text = some bytes) : 0 ∈ bytes ↔ zeroChar ∈ text.toList := by
  cases cs with
  | utf8 =>
    cases h
    simp only [Utf8.encode, List.mem_flatMap, Utf8.zero_mem_encodeChar, exists_eq_right]
  | ascii | latin1 | windows1252 =>
    rw [mem_of_mapM h]
    simp only [byte?_eq_zero, exists_eq_right]

end Charset

namespace Query

/-- What a backend finds has no zero byte. -/
theorem zero_not_mem_statement (bytes : Bytes) :
    (∀ found, statements? bytes = some found → ∀ text ∈ found, 0 ∉ text) ∧
      ∀ begun found, 0 ∉ begun → statementFrom? begun bytes = some found → ∀ text ∈ found, 0 ∉ text := by
  induction bytes with
  | nil =>
    constructor
    · intro found h
      cases h
      simp
    · intro begun found _ h
      cases h
  | cons b bytes ih =>
    obtain ⟨whole, behind⟩ := ih
    constructor
    · intro found h
      rw [statements?] at h
      split at h
      · exact behind [] found (by simp) h
      · cases h
    · intro begun found hbegun h
      rw [statementFrom?] at h
      split at h
      · obtain ⟨rest, hrest, rfl⟩ := Option.map_eq_some_iff.1 h
        intro text hmem
        rcases List.mem_cons.1 hmem with rfl | hmem
        · rwa [List.mem_reverse]
        · exact whole rest hrest text hmem
      · rename_i hb
        refine behind (b :: begun) found ?_ h
        simp only [List.mem_cons, not_or]
        exact ⟨Ne.symm hb, hbegun⟩

/-- Queries one behind the other are found as their statements exactly when these have no zero byte. -/
theorem statements?_frames_iff (texts : List Bytes) :
    statements? (texts.map frame).flatten = some texts ↔ ∀ text ∈ texts, 0 ∉ text :=
  ⟨fun h => (zero_not_mem_statement _).1 texts h, statements?_frames⟩

/-- The statements that a backend is asked for by texts that each are sent in front of some flush
queries. -/
def asked (charset : NamedCharset) (run : List (String × Nat)) : List Bytes :=
  run.flatMap fun part =>
    (Text.encodeIn charset part.1).toOption.toList ++ List.replicate part.2 blankBytes

end Query

/-! ## A run of statements -/

namespace Stream

/-- A statement leaves the charset as it is. -/
theorem charset_query (handling : NoticeHandling) (statement : String) :
    Act.Moves (fun s t => t.charset = s.charset) (query handling statement) := by
  have sequencing := Act.Moves.sequencing (r := fun s t : Stream => t.charset = s.charset)
    (fun _ => rfl) fun _ _ _ h h' => h'.trans h
  apply query_of sequencing
  · intro text s
    show (Act.state (Act.ofExcept (s.encode text) s)).charset = s.charset
    cases s.encode text <;> rfl
  · intro bytes s
    rcases sendQuery_cases bytes s with ⟨fault, t, hs, -, hcharset, -⟩ | ⟨t, hs, -, hcharset, -⟩ <;>
    · rw [hs]
      exact hcharset
  · exact fun s => ((alongAnswers_addsFlushes handling).receiveAnswer s).2.1
  · exact fun _ _ => rfl

end Stream

namespace Session

/-- Runs statements one behind the other. -/
def queries : List String → Session → Session
  | [], session => session
  | statement :: rest, session => queries rest (Act.state (query statement session))

/-- What running a statement sends. -/
def payloads (statement : String) (session : Session) : List Bytes :=
  (Act.state (query statement session)).phase.link.sent.drop session.phase.link.sent.length

/-- Those of the statements that are accepted and sent, each with the number of flush queries that are
sent behind it. -/
def accepted : List String → Session → List (String × Nat)
  | [], _ => []
  | statement :: rest, session =>
    let later := accepted rest (Act.state (query statement session))
    match payloads statement session with
    | [] => later
    | _ :: flushes => (statement, flushes.length) :: later

/-- A session in good standing that, while it is open, speaks this charset. -/
structure Speaks (charset : NamedCharset) (session : Session) : Prop where
  standing : session.phase.Standing
  charset : ∀ s, session.phase = .open s → s.charset = charset

theorem charset_of_query {session : Session} {s t : Stream} (hp : session.phase = .open s)
    {statement : String} (h : (Act.state (query statement session)).phase = .open t) :
    t.charset = s.charset := by
  have hcharset := Stream.charset_query session.handling statement s
  have hrun : query statement session = onStream (execute session.handling statement) session := rfl
  rw [hrun, onStream_of_open _ hp, execute] at h
  revert h
  cases hq : s.query session.handling statement with
  | ok bundle u =>
    intro h
    rw [hq] at hcharset
    cases h
    exact hcharset
  | error fault u =>
    rw [hq] at hcharset
    cases fault with
    | loss cause =>
      intro h
      cases h
    | _ =>
      intro h
      cases h
      exact hcharset

/-- A statement sends nothing, or its own frame and then flush queries. -/
theorem payloads_cases {charset : NamedCharset} {session : Session} (h : session.Speaks charset)
    (statement : String) :
    (Act.state (query statement session)).Speaks charset ∧
      (Act.state (query statement session)).phase.link.sent =
        session.phase.link.sent ++ payloads statement session ∧
      (payloads statement session = [] ∨ ∃ bytes count, Text.encodeIn charset statement = .ok bytes ∧
        payloads statement session =
          Query.frame bytes :: List.replicate count (Query.frame Query.blankBytes)) := by
  cases ho : session.isOpen with
  | false =>
    have hstate : Act.state (query statement session) = session := by
      show Act.state (onStream (execute session.handling statement) session) = session
      rw [onStream_of_not_open _ ho]
      rfl
    have none : payloads statement session = [] := by rw [payloads, hstate, List.drop_length]
    rw [hstate, none, List.append_nil]
    exact ⟨h, rfl, .inl rfl⟩
  | true =>
    obtain ⟨s, hp⟩ := open_of_isOpen ho
    have standing := h.standing
    rw [hp] at standing
    obtain ⟨sent, hsent, asks⟩ := sent_query statement hp
    have hpayloads : payloads statement session = sent := by
      rw [payloads, hsent, hp]
      exact List.drop_left
    refine ⟨⟨(passes_query statement session).standing h.standing, fun t ht => ?_⟩, ?_, ?_⟩
    · exact (charset_of_query hp ht).trans (h.charset s hp)
    · rw [hpayloads, hsent, hp]
      rfl
    · rw [hpayloads]
      rcases asks with none | ⟨bytes, count, hencode, framed⟩
      · exact .inl none
      · rw [standing.2.staged, List.nil_append] at framed
        refine .inr ⟨bytes, count, ?_, framed⟩
        rw [← hencode, Stream.encode, h.charset s hp]

/-- A run of statements sends the frames of those that are accepted, each in front of its flush
queries. -/
theorem sent_queries {charset : NamedCharset} (statements : List String) {session : Session}
    (h : session.Speaks charset) :
    (queries statements session).phase.link.sent = session.phase.link.sent ++
        (Query.asked charset (accepted statements session)).map Query.frame ∧
      ∀ part ∈ accepted statements session, ∃ bytes, Text.encodeIn charset part.1 = .ok bytes := by
  induction statements generalizing session with
  | nil =>
    refine ⟨(List.append_nil _).symm, ?_⟩
    simp [accepted]
  | cons statement rest ih =>
    obtain ⟨speaks, hsent, hpayloads⟩ := payloads_cases h statement
    obtain ⟨hrest, hspelled⟩ := ih speaks
    rcases hpayloads with none | ⟨bytes, count, hencode, framed⟩
    · rw [none, List.append_nil] at hsent
      simp only [queries, accepted, none]
      rw [hrest, hsent]
      exact ⟨rfl, hspelled⟩
    · simp only [queries, accepted, framed]
      refine ⟨?_, ?_⟩
      · rw [hrest, hsent, framed]
        simp [Query.asked, hencode, Except.toOption]
      · rintro part hpart
        rcases List.mem_cons.1 hpart with rfl | hpart
        · exact ⟨bytes, hencode⟩
        · exact hspelled part hpart

end Session

/-- Whether a charset reads what it has written as what was written. -/
def NamedCharset.ReadsBack (charset : NamedCharset) : Prop :=
  ∀ text bytes, Text.encodeIn charset text = .ok bytes → Text.decodeIn charset bytes = .ok text

/-- What one of the four charsets spells. -/
theorem Text.encodeIn_known_ok_iff {cs : Charset} {text : String} {bytes : Bytes} :
    encodeIn (.known cs) text = .ok bytes ↔ cs.encode? text = some bytes := by
  cases spelled : cs.encode? text <;> simp [encodeIn, spelled]

/-- The four charsets do. -/
theorem NamedCharset.readsBack_known (cs : Charset) : (known cs).ReadsBack := by
  intro text bytes h
  simp only [Text.decodeIn, Charset.decode_encode? (Text.encodeIn_known_ok_iff.1 h)]

/-- In one of the four charsets only the zero character has the zero byte. -/
theorem Text.zero_mem_of_encodeIn_known {cs : Charset} {text : String} {bytes : Bytes}
    (h : encodeIn (.known cs) text = .ok bytes) : 0 ∈ bytes ↔ zeroChar ∈ text.toList :=
  Charset.zero_mem_encode? (encodeIn_known_ok_iff.1 h)

/-- **A backend finds the statements that were asked exactly when none of them is spelled with a zero byte.**
Whatever statements are run on an open session, the bytes that are sent are the frames of those that
are accepted, each in front of the flush queries for its answer, and each spells its statement. Taken
apart at the zero bytes they are one query for each of these and nothing else, unless the bytes of an
accepted statement have a zero byte. In the four charsets these are the statements with a zero character,
and what is found is read as the statement. -/
theorem queries_are_found_as_asked_iff {first session : Session} (start : first.New)
    (reached : first.Leads session) {s : Stream} (isOpen : session.phase = .open s)
    (statements : List String) :
    let accepted := session.accepted statements
    let asked := Query.asked s.charset accepted
    let plain := ∀ part ∈ accepted, ∀ bytes, s.encode part.1 = .ok bytes → 0 ∉ bytes
    ∃ sent,
      (session.queries statements).phase.link.sent = session.phase.link.sent ++ sent ∧
      sent = asked.map Query.frame ∧
      (∀ part ∈ accepted, ∃ bytes, s.encode part.1 = .ok bytes ∧
        (s.charset.ReadsBack → s.decode bytes = .ok part.1)) ∧
      (Query.statements? sent.flatten = some asked ↔ plain) ∧
      ∀ cs, s.charset = .known cs →
        s.charset.ReadsBack ∧ (plain ↔ ∀ part ∈ accepted, zeroChar ∉ part.1.toList) := by
  intro accepted asked plain
  have speaks : session.Speaks s.charset := by
    refine ⟨reached.standing start, fun t ht => ?_⟩
    rw [isOpen] at ht
    cases ht
    rfl
  obtain ⟨hsent, spelled⟩ := Session.sent_queries statements speaks
  refine ⟨_, hsent, rfl, fun part hpart => ?_, ?_, fun cs hcs => ⟨?_, ?_⟩⟩
  · obtain ⟨bytes, hbytes⟩ := spelled part hpart
    exact ⟨bytes, hbytes, fun readsBack => readsBack _ _ hbytes⟩
  · rw [Query.statements?_frames_iff]
    constructor
    · intro free part hpart bytes hbytes
      refine free bytes (List.mem_flatMap.2 ⟨part, hpart, List.mem_append_left _ ?_⟩)
      have hbytes : Text.encodeIn s.charset part.1 = .ok bytes := hbytes
      simp [hbytes, Except.toOption]
    · intro free text htext
      obtain ⟨part, hpart, hmem⟩ := List.mem_flatMap.1 htext
      obtain ⟨bytes, hbytes⟩ := spelled part hpart
      simp only [hbytes, Except.toOption, Option.toList_some, List.singleton_append, List.mem_cons] at hmem
      rcases hmem with rfl | hmem
      · exact free part hpart _ hbytes
      · rw [List.eq_of_mem_replicate hmem]
        decide
  · rw [hcs]
    exact NamedCharset.readsBack_known cs
  · rw [hcs] at spelled
    have spells {part : String × Nat} {bytes : Bytes} (hbytes : Text.encodeIn (.known cs) part.1 = .ok bytes) :
        s.encode part.1 = .ok bytes := by rw [Stream.encode, hcs, hbytes]
    constructor
    · intro free part hpart zero
      obtain ⟨bytes, hbytes⟩ := spelled part hpart
      exact free part hpart bytes (spells hbytes) ((Text.zero_mem_of_encodeIn_known hbytes).2 zero)
    · intro free part hpart bytes hbytes zero
      rw [Stream.encode, hcs] at hbytes
      exact free part hpart ((Text.zero_mem_of_encodeIn_known hbytes).1 zero)

/-- Two statements, the first of them without rows, and one between them that ASCII cannot spell. -/
theorem two_statements_are_found :
    let new : Session :=
      { settings := { database := "d", user := "u", encoding := { name := "ascii", charset := .known .ascii } }
        phase := .fresh { incoming := [.bytes [0x49, 0], .bytes [0x43, 0x6F, 0, 0x49, 0],
          .bytes [0x54, 0, 0, 0x43, 0x6F, 0]] } }
    let session := Act.state (Session.perform .connect new)
    let statements := ["a", "é", "b"]
    session.isOpen = true ∧ session.accepted statements = [("a", 1), ("b", 0)] ∧
      ∃ sent, (session.queries statements).phase.link.sent = session.phase.link.sent ++ sent ∧
        Query.statements? sent.flatten = some [[0x61], [0x20], [0x62]] := by
  intro new session statements
  have start : new.New := ⟨rfl, rfl⟩
  have reached : new.Leads session := (Session.Leads.refl _).tail .connect
  have still : session.isOpen = true := by decide +kernel
  have accepted : session.accepted statements = [("a", 1), ("b", 0)] := by decide +kernel
  obtain ⟨s, hs⟩ := Session.open_of_isOpen still
  have charset : s.charset = .known .ascii := by
    have view : session.phase.stream?.bind (fun stream => stream.charset.charset?) = some .ascii := by
      decide +kernel
    rw [hs] at view
    exact NamedCharset.eq_known_of_charset? view
  obtain ⟨sent, hsent, -, -, hfound, four⟩ := queries_are_found_as_asked_iff start reached hs statements
  rw [(four .ascii charset).2, accepted, charset] at hfound
  exact ⟨still, accepted, sent, hsent, hfound.2 (by decide)⟩

/-- A statement with a zero character is accepted, and a backend finds two queries that nobody asked. -/
theorem zero_character_forges_query :
    let new : Session :=
      { settings := { database := "d", user := "u" }
        phase := .fresh { incoming := [.bytes [0x49, 0], .bytes [0x54, 0, 0, 0x43, 0x6F, 0]] } }
    let session := Act.state (Session.perform .connect new)
    let statement := "a\x00Qb"
    let sent := (session.payloads statement).flatten
    session.isOpen = true ∧
      Act.outcome (session.query statement) = .ok { status := some "o" } ∧
      session.accepted [statement] = [(statement, 0)] ∧
      Query.statements? sent = some [[0x61], [0x62]] ∧
      Query.statements? sent ≠ some (Query.asked (.known .utf8) [(statement, 0)]) := by
  decide +kernel

-- In a charset of two bytes for each character a statement without a zero character is found cut short.
example :
    let wide : Codec :=
      { encode := fun text =>
          .ok (text.toList.flatMap fun c => [UInt8.ofNat c.toNat, UInt8.ofNat (c.toNat / 256)])
        decode := fun _ => .ok "" }
    let session : Session :=
      { settings := { database := "d", user := "u" }
        phase := .open { link := { incoming := [.bytes [0x54, 0, 0, 0x43, 0x6F, 0]] },
                         charset := .other wide } }
    session.accepted ["a"] = [("a", 0)] ∧
      session.payloads "a" = [Query.frame [0x61, 0]] ∧
      Query.statements? [0x51, 0x61, 0, 0] = none := by
  decide +kernel

end SimpleQuery
