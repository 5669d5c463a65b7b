import SimpleQuery.Proofs.Takes
import SimpleQuery.Proofs.Uncut

/-!
# What reading accepts

`Stream.Accepts` says which bytes an action reads as which value, in both directions: what it gives
is derived from the bytes that it took off the line, and whatever is derived from the first bytes of a
line is given, however these are cut and whatever is behind them.

* `Stream.Accepts.bind` and its companions — the bytes of a sequence are those of its parts, one behind
  the other.
* `Stream.accepts_receive`, `Stream.accepts_receiveText` — the primitives of reading.
* `Stream.Takes.of_line` — what is read off the unread bytes is read off the line.
-/

set_option autoImplicit false

namespace SimpleQuery

open Link (Arrival arrived beyond)

/-- The bytes in front of a barrier are the first on the line. -/
theorem Link.take_append_drop {n : Nat} {l : List Arrival} (h : n ≤ (arrived l).length) :
    ((arrived l).take n).map .byte ++ l.drop n = l := by
  have hl := arrived_append_beyond l
  have hdrop : l.drop n = ((arrived l).drop n).map Arrival.byte ++ beyond l := by
    rw [List.map_drop, ← List.drop_append_of_le_length (by simpa using h), hl]
  rw [hdrop, ← List.append_assoc, ← List.map_append, List.take_append_drop, hl]

namespace Stream

variable {α β : Type}

/-- The action reads these bytes as these values, takes no others, and does nothing else. -/
structure Accepts (act : Act Stream α) (derives : NamedCharset → Bytes → α → Prop) : Prop where
  sound : ∀ {s t : Stream} {a : α}, act s = .ok a t →
    ∃ bytes, derives s.charset bytes a ∧ s.line = bytes.map .byte ++ t.line ∧
      t.uncut = s.uncut.withLine t.line
  complete : ∀ {s : Stream} {a : α} {bytes : Bytes} {rest : List Arrival}, derives s.charset bytes a →
    s.line = bytes.map .byte ++ rest → ∃ t, act s = .ok a t ∧ t.uncut = s.uncut.withLine rest

namespace Accepts

theorem pure (a : α) : Accepts (Pure.pure a) fun _ bytes b => bytes = [] ∧ b = a where
  sound h := by
    cases h
    exact ⟨[], ⟨rfl, rfl⟩, rfl, rfl⟩
  complete := by
    rintro s a bytes rest ⟨rfl, rfl⟩ hline
    refine ⟨s, rfl, ?_⟩
    rw [List.map_nil, List.nil_append] at hline
    rw [← hline]
    rfl

theorem bind {act : Act Stream α} {next : α → Act Stream β}
    {first : NamedCharset → Bytes → α → Prop} {second : α → NamedCharset → Bytes → β → Prop}
    (h : Accepts act first) (hn : ∀ a, Accepts (next a) (second a)) :
    Accepts (act >>= next) fun charset bytes b => ∃ a front back,
      bytes = front ++ back ∧ first charset front a ∧ second a charset back b where
  sound {s t b} hrun := by
    obtain ⟨a, u, hact, hnext⟩ := Act.exists_of_bind_ok hrun
    obtain ⟨front, hfirst, hline, hu⟩ := h.sound hact
    obtain ⟨back, hsecond, hline', ht⟩ := (hn a).sound hnext
    have hcharset : u.charset = s.charset := congrArg Uncut.charset hu
    rw [hcharset] at hsecond
    refine ⟨front ++ back, ⟨a, front, back, rfl, hfirst, hsecond⟩, ?_, ?_⟩
    · rw [hline, hline', List.map_append, List.append_assoc]
    · rw [ht, hu, Uncut.withLine_withLine]
  complete := by
    rintro s b _ rest ⟨a, front, back, rfl, hfirst, hsecond⟩ hline
    rw [List.map_append, List.append_assoc] at hline
    obtain ⟨u, hact, hu⟩ := h.complete hfirst hline
    have hcharset : u.charset = s.charset := congrArg Uncut.charset hu
    rw [← hcharset] at hsecond
    obtain ⟨t, hnext, ht⟩ := (hn a).complete hsecond (congrArg (·.link.line) hu)
    refine ⟨t, ?_, by rw [ht, hu, Uncut.withLine_withLine]⟩
    simp only [Bind.bind, EStateM.bind, hact]
    exact hnext

/-- The same grammar in other words. -/
theorem congr {act : Act Stream α} {derives derives' : NamedCharset → Bytes → α → Prop}
    (h : Accepts act derives) (same : ∀ charset bytes a, derives charset bytes a ↔ derives' charset bytes a) :
    Accepts act derives' where
  sound hrun := by
    obtain ⟨bytes, hderives, rest⟩ := h.sound hrun
    exact ⟨bytes, (same _ _ _).1 hderives, rest⟩
  complete hderives := h.complete ((same _ _ _).2 hderives)

theorem map (f : α → β) {act : Act Stream α} {derives : NamedCharset → Bytes → α → Prop}
    (h : Accepts act derives) :
    Accepts (f <$> act) fun charset bytes b => ∃ a, derives charset bytes a ∧ b = f a := by
  have mapped : Accepts (act >>= fun a => Pure.pure (f a)) _ := h.bind fun a => pure (f a)
  refine mapped.congr fun charset bytes b => ⟨?_, ?_⟩
  · rintro ⟨a, front, back, rfl, hfront, rfl, rfl⟩
    exact ⟨a, by rwa [List.append_nil], rfl⟩
  · rintro ⟨a, hbytes, rfl⟩
    exact ⟨a, bytes, [], (List.append_nil _).symm, hbytes, rfl, rfl⟩

end Accepts

/-! ## The primitives of reading -/

theorem accepts_receive (n : Nat) :
    Accepts (receive n) fun _ bytes given => bytes = given ∧ given.length = n where
  sound {s t given} hrun := by
    have hseen := seen_receive n s
    rw [hrun, Uncut.receive, uncut_line] at hseen
    split at hseen
    · rename_i hn
      obtain ⟨rfl, ht⟩ : given = (arrived s.line).take n ∧ t.uncut = s.uncut.withLine (s.line.drop n) := by
        simpa [Act.seen] using hseen
      have hline : t.line = s.line.drop n := congrArg (·.link.line) ht
      rw [hline]
      exact ⟨_, ⟨rfl, List.length_take_of_le hn⟩, (Link.take_append_drop hn).symm, ht⟩
    · obtain ⟨fault, u, hstarve⟩ := s.uncut.starve_error
      rw [hstarve] at hseen
      cases hseen
  complete := by
    rintro s given bytes rest ⟨hbytes, rfl⟩ hline
    subst hbytes
    have hseen := seen_receive bytes.length s
    rw [Uncut.receive, uncut_line, hline, Link.arrived_append,
      if_pos (by rw [List.length_append]; omega), List.take_left] at hseen
    have hdrop : (bytes.map Arrival.byte ++ rest).drop bytes.length = rest :=
      List.drop_left' (List.length_map _)
    rw [hdrop] at hseen
    exact Act.exists_of_seen_ok hseen

theorem accepts_receiveByte : Accepts receiveByte fun _ bytes b => bytes = [b] := by
  refine ((accepts_receive 1).map (List.headD · 0)).congr fun _ bytes b => ⟨?_, ?_⟩
  · rintro ⟨given, ⟨rfl, hone⟩, rfl⟩
    obtain ⟨only, rfl⟩ := List.length_eq_one_iff.1 hone
    rfl
  · rintro rfl
    exact ⟨[b], ⟨rfl, rfl⟩, rfl⟩

theorem accepts_receiveInteger (width : Width) : Accepts (receiveInteger width) fun _ bytes v =>
    v < width.range ∧ bytes = BigEndian.encode width.bytes v := by
  refine ((accepts_receive width.bytes).map BigEndian.decode).congr fun _ bytes v => ⟨?_, ?_⟩
  · rintro ⟨given, ⟨rfl, hlength⟩, rfl⟩
    rw [Width.range, ← hlength]
    exact ⟨BigEndian.decode_lt bytes, (BigEndian.encode_decode bytes).symm⟩
  · rintro ⟨hv, rfl⟩
    exact ⟨_, ⟨rfl, BigEndian.length_encode _ _⟩,
      ((BigEndian.decode_encode _ _).trans (Nat.mod_eq_of_lt hv)).symm⟩

/-- A text as it is read: bytes without a zero byte, fewer than there is room for, and the zero byte
behind them. -/
def SpellsText (cap : Nat) (charset : NamedCharset) (bytes : Bytes) (text : String) : Prop :=
  ∃ raw, bytes = raw ++ [0] ∧ 0 ∉ raw ∧ raw.length < cap ∧ Text.decodeIn charset raw = .ok text

/-- Waiting takes nothing off the line. -/
theorem await_ok {s t : Stream} (h : await s = .ok () t) : t.uncut = s.uncut := by
  have hseen := seen_await s
  rw [h, Uncut.await] at hseen
  split at hseen
  · obtain ⟨fault, u, hstarve⟩ := s.uncut.starve_error
    rw [hstarve] at hseen
    cases hseen
  · injection hseen

/-- What was gathered is a text with the zero byte behind it. -/
theorem gather_ok {room : Nat} {s t : Stream} {raw : Bytes} (h : gather room s = .ok (some raw) t) :
    0 ∉ raw ∧ raw.length < room ∧ s.line = (raw ++ [0]).map .byte ++ t.line ∧
      t.uncut = s.uncut.withLine t.line := by
  have hseen := seen_gather room s
  rw [h, Uncut.gather, uncut_line] at hseen
  cases hscan : scan room (arrived s.line) with
  | full rest =>
    rw [hscan] at hseen
    cases hseen
  | «open» text left =>
    obtain ⟨fault, u, hstarve⟩ := (s.uncut.withLine (beyond s.line)).starve_error
    simp only [hscan, hstarve] at hseen
    cases hseen
  | ended text rest =>
    obtain ⟨hbytes, hz, hroom⟩ := scan_ended hscan
    rw [hscan] at hseen
    obtain ⟨rfl, ht⟩ : raw = text ∧ t.uncut = s.uncut.withLine (rest.map .byte ++ beyond s.line) := by
      simpa [Act.seen] using hseen
    have hline : t.line = rest.map .byte ++ beyond s.line := congrArg (·.link.line) ht
    refine ⟨hz, hroom, ?_, by rw [hline]; exact ht⟩
    rw [← Link.arrived_append_beyond s.line, hbytes, hline]
    simp

theorem accepts_receiveText (cap : Nat) : Accepts (receiveText cap) (SpellsText cap) where
  sound {s t text} hrun := by
    obtain ⟨_, u, hawait, hrun⟩ := Act.exists_of_bind_ok hrun
    obtain ⟨gathered, v, hgather, hrun⟩ := Act.exists_of_bind_ok hrun
    cases gathered with
    | none => cases hrun
    | some raw =>
      have hu := await_ok hawait
      have huline : u.line = s.line := congrArg (·.link.line) hu
      obtain ⟨hz, hroom, hline, hv⟩ := gather_ok hgather
      rw [huline] at hline
      rw [hu] at hv
      have hcharset : v.charset = s.charset := congrArg Uncut.charset hv
      have hrun : (Act.ofExcept (Text.decodeIn v.charset raw) : Act Stream String) v = .ok text t := hrun
      rw [hcharset] at hrun
      cases hdecode : Text.decodeIn s.charset raw with
      | error fault =>
        rw [hdecode] at hrun
        cases hrun
      | ok given =>
        rw [hdecode] at hrun
        cases hrun
        exact ⟨raw ++ [0], ⟨raw, rfl, hz, hroom, hdecode⟩, hline, hv⟩
  complete := by
    rintro s text _ rest ⟨raw, rfl, hz, hroom, hdecode⟩ hline
    have harrived : arrived s.line = raw ++ 0 :: arrived rest := by
      rw [hline, Link.arrived_append, List.append_assoc, List.singleton_append]
    have hbeyond : beyond s.line = beyond rest := by rw [hline, Link.beyond_append]
    obtain ⟨u, hawait, hu⟩ : ∃ u, await s = .ok () u ∧ u.uncut = s.uncut := by
      have hseen := seen_await s
      rw [Uncut.await, uncut_line, harrived, if_neg (by simp)] at hseen
      exact Act.exists_of_seen_ok hseen
    obtain ⟨v, hgather, hv⟩ : ∃ v, gather cap u = .ok (some raw) v ∧ v.uncut = s.uncut.withLine rest := by
      have hseen := seen_gather cap u
      simp only [Uncut.gather, uncut_line, harrived, scan_text _ hz hroom, hbeyond,
        Link.arrived_append_beyond, hu] at hseen
      exact Act.exists_of_seen_ok hseen
    have hcharset : v.charset = s.charset := congrArg Uncut.charset hv
    refine ⟨v, ?_, hv⟩
    simp only [receiveText, Bind.bind, EStateM.bind, hawait, hgather, Act.get_eq, decode, hcharset, hdecode]
    rfl

/-! ## From the unread bytes to the line -/

/-- The stream when all that is in front of the first barrier has been delivered. -/
def delivered (s : Stream) : Stream :=
  { s with unread := arrived s.line, link := { s.link with incoming := Link.ofLine (beyond s.line) } }

theorem uncut_delivered (s : Stream) (unread : Bytes) :
    ({ s.delivered with unread } : Stream).uncut = s.uncut.withLine (unread.map .byte ++ beyond s.line) := by
  have hline : ({ s.delivered with unread } : Stream).line = unread.map .byte ++ beyond s.line := by
    cases hc : s.closed with
    | false => simp [line, delivered, hc, Link.line_ofLine]
    | true =>
      -- nothing is behind the unread bytes of a closed stream
      have hbeyond : beyond s.line = [] := by simp [line, hc]
      rw [hbeyond]
      simp [line, delivered, hc]
  rw [← hline]
  rfl

theorem same_delivered (s : Stream) : Same s s.delivered := by
  have hview := s.uncut_delivered (arrived s.line)
  rw [Link.arrived_append_beyond] at hview
  exact hview.symm

/-- Bytes that are taken where they are unread are taken wherever they are first on the line. -/
theorem Takes.of_line {cs : Charset} {act : Act Stream α} {bytes : Bytes} {value : α}
    (h : Takes cs act bytes value) (uncuttable : Uncuttable act) {s : Stream} {rest : List Arrival}
    (charset : s.charset = .known cs) (hline : s.line = bytes.map .byte ++ rest) :
    ∃ t, act s = .ok value t ∧ t.uncut = s.uncut.withLine rest := by
  have hunread : s.delivered.unread = bytes ++ arrived rest := by
    rw [delivered, hline, Link.arrived_append]
  have alike := uncuttable s s.delivered (same_delivered s)
  rw [h s.delivered (arrived rest) charset hunread] at alike
  have hleft : ({ s.delivered with unread := arrived rest } : Stream).uncut = s.uncut.withLine rest := by
    rw [uncut_delivered, hline, Link.beyond_append, Link.arrived_append_beyond]
  revert alike
  cases act s with
  | error fault t => intro alike; cases alike
  | ok a t =>
    intro alike
    cases alike with
    | ok values states =>
      rw [values]
      exact ⟨t, rfl, states.trans hleft⟩

end Stream

end SimpleQuery
