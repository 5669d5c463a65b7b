import SimpleQuery.Proofs.Congruence
import SimpleQuery.Session.Command

/-!
# Sessions side by side

Two sessions may differ in much that no outcome depends on. Where the primitives of sessions do not see a
relation between them, no operation does, and no run.

Such a relation comes from one between streams that reading and sending do not see, with one between links
that goes with it, so that closing, feeding and dialling respect the two.

* `Session.Unnoticed` — what has to be known of a relation between sessions that statements do not see.
* `Session.Unseen` — what has to be known of one that no operation sees.
* `Session.Unseen.perform` — one operation.
* `Session.Unseen.runAll` — a run, by induction on its steps.
* `Session.Congruence` — what has to be known of relations between streams and between links.
* `Session.Congruence.unseen` — the relation between sessions that comes from them.
-/

set_option autoImplicit false

namespace SimpleQuery

open Act (Respects Alike)

/-! ## Relations between sessions -/

namespace Session

/-- A relation between sessions that their primitives do not see, and keep. -/
structure Unseen (S : Session → Session → Prop) : Prop where
  connect : Respects S connect
  requireOpen : Respects S requireOpen
  execute : ∀ handling statement, Respects S (onStream (execute handling statement))
  noteAutocommit : ∀ autocommit, Respects S (noteAutocommit autocommit)
  handling : ∀ a b, S a b → a.handling = b.handling
  autocommit : ∀ a b, S a b → a.autocommit = b.autocommit
  isOpen : ∀ a b, S a b → a.isOpen = b.isOpen
  property : ∀ name a b, S a b → a.property name = b.property name
  describe : ∀ id a b, S a b → a.describe id = b.describe id
  setReadOnly : ∀ readOnly a b, S a b → S { a with readOnly } { b with readOnly }
  setCursorName : ∀ cursorName a b, S a b → S { a with cursorName } { b with cursorName }
  close : ∀ a b, S a b → S a.close b.close
  feed : ∀ more a b, S a b → S { a with phase := a.phase.mapLink (Link.feed more) }
    { b with phase := b.phase.mapLink (Link.feed more) }

/-- A relation between sessions that their statements do not see, and keep. -/
structure Unnoticed (S : Session → Session → Prop) : Prop where
  requireOpen : Respects S requireOpen
  execute : ∀ handling statement, Respects S (onStream (execute handling statement))
  noteAutocommit : ∀ autocommit, Respects S (noteAutocommit autocommit)
  handling : ∀ a b, S a b → a.handling = b.handling
  autocommit : ∀ a b, S a b → a.autocommit = b.autocommit

namespace Unnoticed

variable {S : Session → Session → Prop}

theorem query (h : Unnoticed S) (statement : String) : Respects S (query statement) :=
  Respects.get_bind (fun a b hab => by rw [h.handling a b hab]) fun _ => h.execute _ _

theorem control (h : Unnoticed S) (statement : Control) : Respects S (control statement) :=
  Respects.bind (h.query _) fun _ => Respects.pure _

theorem setAutocommit (h : Unnoticed S) (autocommit : Bool) : Respects S (setAutocommit autocommit) := by
  refine Respects.bind h.requireOpen fun _ => ?_
  refine Respects.get_bind (fun a b hab => by rw [h.autocommit a b hab]) fun a => ?_
  split
  · exact Respects.bind (h.control _) fun _ => h.noteAutocommit _
  · exact Respects.pure _

theorem finish (h : Unnoticed S) (statement : Control) : Respects S (finish statement) := by
  refine Respects.bind h.requireOpen fun _ => ?_
  refine Respects.get_bind (fun a b hab => by rw [h.autocommit a b hab]) fun a => ?_
  split
  · refine Respects.bind (h.control _) fun _ => ?_
    refine Respects.bind (h.noteAutocommit _) fun _ => ?_
    exact Respects.bind (h.control _) fun _ => h.noteAutocommit _
  · exact Respects.pure _

end Unnoticed

namespace Unseen

variable {S : Session → Session → Prop}

/-- Statements do not see what no operation sees. -/
theorem unnoticed (h : Unseen S) : Unnoticed S :=
  ⟨h.requireOpen, h.execute, h.noteAutocommit, h.handling, h.autocommit⟩

theorem query (h : Unseen S) (statement : String) : Respects S (Session.query statement) :=
  h.unnoticed.query statement

theorem control (h : Unseen S) (statement : Control) : Respects S (Session.control statement) :=
  h.unnoticed.control statement

theorem setAutocommit (h : Unseen S) (autocommit : Bool) : Respects S (Session.setAutocommit autocommit) :=
  h.unnoticed.setAutocommit autocommit

theorem finish (h : Unseen S) (statement : Control) : Respects S (Session.finish statement) :=
  h.unnoticed.finish statement

/-- Every operation comes to the same on both sides. -/
theorem perform (h : Unseen S) (command : Command) : Respects S (perform command) := by
  cases command with
  | connect => exact Respects.bind h.connect fun _ => Respects.pure _
  | query statement => exact Respects.bind (h.query _) fun _ => Respects.pure _
  | setAutocommit autocommit => exact Respects.bind (h.setAutocommit _) fun _ => Respects.pure _
  | commit | rollback => exact Respects.bind (h.finish _) fun _ => Respects.pure _
  | close => exact Respects.bind (Respects.modify h.close) fun _ => Respects.pure _
  | isOpen =>
    exact Respects.get_bind (fun a b hab => by rw [h.isOpen a b hab]) fun _ => Respects.pure _
  | get name =>
    exact Respects.get_bind (fun a b hab => by rw [h.property name a b hab]) fun _ => Respects.pure _
  | setReadOnly readOnly =>
    exact Respects.bind (Respects.modify (h.setReadOnly readOnly)) fun _ => Respects.pure _
  | setCursorName name =>
    exact Respects.bind (Respects.modify (h.setCursorName name)) fun _ => Respects.pure _
  | setCatalog | clearWarnings | nativeStatement => exact Respects.pure _
  | setIsolation | metadata | prepareCall => exact Respects.throw _
  | describe id =>
    have same (a b : Session) (hab : S a b) :
        (pure (.text (a.describe id)) : Act Session Answer) = pure (.text (b.describe id)) := by
      rw [h.describe id a b hab]
    exact Respects.get_bind same fun _ => Respects.pure _
  | feed more => exact Respects.bind (Respects.modify (h.feed more)) fun _ => Respects.pure _

mutual

theorem run (h : Unseen S) (step : Step) {a b : Session} (hab : S a b) :
    (run step a).1 = (run step b).1 ∧ S (run step a).2 (run step b).2 := by
  match step with
  | .one command =>
    have hr := h.perform command a b hab
    exact ⟨by simp only [Session.run, hr.outcomes], by simp only [Session.run]; exact hr.states⟩
  | .block body =>
    obtain ⟨ho, hs⟩ := h.runAll body hab
    exact ⟨by simp only [Session.run, ho], by simp only [Session.run]; exact h.close _ _ hs⟩

/-- Runs on both sides have the same outcomes step by step, and end side by side. -/
theorem runAll (h : Unseen S) (steps : List Step) {a b : Session} (hab : S a b) :
    (runAll steps a).1 = (runAll steps b).1 ∧ S (runAll steps a).2 (runAll steps b).2 := by
  match steps with
  | [] => exact ⟨rfl, hab⟩
  | step :: rest =>
    obtain ⟨ho, hs⟩ := h.run step hab
    obtain ⟨hos, hss⟩ := h.runAll rest hs
    exact ⟨by simp only [Session.runAll, ho, hos], by simp only [Session.runAll]; exact hss⟩

end

end Unseen

end Session

/-! ## Sessions over related links and streams -/

variable {L : Link → Link → Prop} {R : Stream → Stream → Prop}

/-- Phases whose links or streams are related. -/
inductive Phase.Beside (L : Link → Link → Prop) (R : Stream → Stream → Prop) : Phase → Phase → Prop where
  | fresh {l m : Link} (link : L l m) : Beside L R (.fresh l) (.fresh m)
  | broken {s t : Stream} (stream : R s t) : Beside L R (.broken s) (.broken t)
  | «open» {s t : Stream} (stream : R s t) : Beside L R (.open s) (.open t)

namespace Session

/-- Sessions that are the same but for their links and streams, which are related. -/
structure Beside (L : Link → Link → Prop) (R : Stream → Stream → Prop) (a b : Session) : Prop where
  settings : a.settings = b.settings
  handling : a.handling = b.handling
  phase : a.phase.Beside L R b.phase
  autocommit : a.autocommit = b.autocommit
  readOnly : a.readOnly = b.readOnly
  cursorName : a.cursorName = b.cursorName

theorem Beside.isOpen {a b : Session} (h : Beside L R a b) : a.isOpen = b.isOpen := by
  have hp := h.phase
  unfold Session.isOpen
  revert hp
  generalize a.phase = p
  generalize b.phase = q
  intro hp
  cases hp <;> rfl

/-- Relations between links and between streams that sessions do not see. -/
structure Congruence (L : Link → Link → Prop) (R : Stream → Stream → Prop) : Prop extends
    Stream.Congruence R where
  notices : ∀ s t, R s t → s.link.notices = t.link.notices
  closed : ∀ s t, R s t → s.closed = t.closed
  close : ∀ s t, R s t → R s.close t.close
  feed : ∀ more s t, R s t → R { s with link := s.link.feed more } { t with link := t.link.feed more }
  logLink : ∀ entry l m, L l m → L (l.log entry) (m.log entry)
  feedLink : ∀ more l m, L l m → L (l.feed more) (m.feed more)
  dial : ∀ settings l m, L l m →
    (∃ s t, Session.dial settings l = .ok s ∧ Session.dial settings m = .ok t ∧ R s t) ∨
      ∃ fault l' m', Session.dial settings l = .error (fault, l') ∧
        Session.dial settings m = .error (fault, m') ∧ L l' m'

namespace Congruence

variable {a b : Session} {s t : Stream}

/-! ## The handshake -/

theorem execute (h : Congruence L R) (handling : NoticeHandling) (statement : String) :
    Respects R (execute handling statement) := by
  intro s t hst
  have hr := h.query (h.blind h.notices handling) statement s t hst
  unfold Session.execute
  revert hr
  generalize s.query handling statement = r
  generalize t.query handling statement = r'
  intro hr
  cases hr with
  | ok hv hs => subst hv; exact .ok rfl (h.log _ hs)
  | @error fault _ _ hs =>
    cases fault with
    | loss cause => exact .error (h.close _ _ (h.log _ hs))
    | _ => exact .error hs

theorem startup (h : Congruence L R) (settings : Settings) : Respects R (Startup.send settings) := by
  refine Respects.bind (h.stage _) fun _ => ?_
  refine Respects.bind (h.stage _) fun _ => ?_
  refine Respects.bind (Respects.ofExcept _) fun _ => Respects.bind (h.stage _) fun _ => ?_
  refine Respects.bind (Respects.ofExcept _) fun _ => Respects.bind (h.stage _) fun _ => ?_
  exact Respects.bind h.flush fun _ => h.logged _

theorem handshake (h : Congruence L R) (settings : Settings) (handling : NoticeHandling) :
    Respects R (handshake settings handling) := by
  refine Respects.bind (h.startup settings) fun _ => ?_
  refine Respects.bind (h.execute _ _) fun _ => ?_
  split
  · exact Respects.bind (h.execute _ _) fun _ => Respects.pure _
  · exact Respects.pure _

theorem greet (h : Congruence L R) (hab : Beside L R a b) (hst : R s t) :
    Alike (Beside L R) Eq (greet s a) (greet t b) := by
  have hr := h.handshake a.settings a.handling s t hst
  unfold Session.greet
  rw [← hab.settings, ← hab.handling, ← hab.autocommit]
  revert hr
  generalize Session.handshake a.settings a.handling s = r
  generalize Session.handshake a.settings a.handling t = r'
  intro hr
  cases hr with
  | ok hv hs =>
    exact .ok rfl ⟨rfl, rfl, .open (h.log _ hs), rfl, hab.readOnly, hab.cursorName⟩
  | @error fault _ _ hs =>
    cases fault with
    | loss cause | refusal cause =>
      exact .error ⟨rfl, rfl, .broken (h.close _ _ hs), rfl, hab.readOnly, hab.cursorName⟩
    | _ => exact .error ⟨rfl, rfl, .broken hs, rfl, hab.readOnly, hab.cursorName⟩

theorem connect (h : Congruence L R) : Respects (Beside L R) connect := by
  intro a b hab
  have hp := hab.phase
  unfold Session.connect
  rw [← hab.settings]
  revert hp
  generalize a.phase = p
  generalize b.phase = q
  intro hp
  cases hp with
  | «open» hs => exact .ok rfl hab
  | broken hs => exact h.greet hab (h.log _ hs)
  | @fresh l m hl =>
    rcases h.dial a.settings _ _ (h.logLink (connecting a.settings) l m hl) with
      ⟨s, t, hs, ht, hst⟩ | ⟨fault, l', m', hs, ht, hlm⟩
    · simp only [hs, ht]
      exact h.greet hab hst
    · simp only [hs, ht]
      exact .error ⟨rfl, hab.handling, .fresh hlm, hab.autocommit, hab.readOnly, hab.cursorName⟩

theorem onStream (_h : Congruence L R) {α : Type} {act : Act Stream α} (ha : Respects R act) :
    Respects (Beside L R) (onStream act) := by
  intro a b hab
  have hp := hab.phase
  unfold Session.onStream
  revert hp
  generalize a.phase = p
  generalize b.phase = q
  intro hp
  cases hp with
  | fresh _ => exact .error hab
  | broken _ => exact .error hab
  -- A loss breaks both sessions or none, for both runs come to the same.
  | @«open» s t hs =>
    have hr := ha s t hs
    dsimp only
    revert hr
    generalize act s = r
    generalize act t = r'
    intro hr
    cases hr with
    | ok hv hs =>
      refine .ok hv ?_
      exact ⟨hab.settings, hab.handling, .open hs, hab.autocommit, hab.readOnly, hab.cursorName⟩
    | error hs =>
      refine .error ?_
      refine ⟨hab.settings, hab.handling, ?_, hab.autocommit, hab.readOnly, hab.cursorName⟩
      split
      · exact .broken hs
      · exact .open hs

/-! ## Outside the conversation -/

theorem beside_close (h : Congruence L R) (hab : Beside L R a b) : Beside L R a.close b.close := by
  have hp := hab.phase
  unfold Session.close
  revert hp
  generalize a.phase = p
  generalize b.phase = q
  intro hp
  cases hp with
  | fresh _ => exact hab
  | @broken s t hs | @«open» s t hs =>
    refine ⟨hab.settings, hab.handling, .broken ?_, hab.autocommit, hab.readOnly, hab.cursorName⟩
    rw [h.closed s t hs]
    split
    · exact hs
    · exact h.log _ (h.close s t hs)

theorem beside_feed (h : Congruence L R) (hab : Beside L R a b) (more : List Delivery) :
    Beside L R { a with phase := a.phase.mapLink (Link.feed more) }
      { b with phase := b.phase.mapLink (Link.feed more) } := by
  refine ⟨hab.settings, hab.handling, ?_, hab.autocommit, hab.readOnly, hab.cursorName⟩
  have hp := hab.phase
  revert hp
  generalize a.phase = p
  generalize b.phase = q
  intro hp
  cases hp with
  | fresh hl => exact .fresh (h.feedLink more _ _ hl)
  | broken hs => exact .broken (h.feed more _ _ hs)
  | «open» hs => exact .open (h.feed more _ _ hs)

theorem property_eq (hab : Beside L R a b) (name : Property) : a.property name = b.property name := by
  cases name <;> simp only [property, hab.settings, hab.autocommit, hab.readOnly, hab.cursorName]

theorem describe_eq (hab : Beside L R a b) (id : String) : a.describe id = b.describe id := by
  unfold describe
  rw [hab.settings, hab.isOpen]

/-- Sessions do not see how links and streams are related. -/
theorem unseen (h : Congruence L R) : Unseen (Beside L R) where
  connect := h.connect
  requireOpen := h.onStream (Respects.pure _)
  execute handling statement := h.onStream (h.execute handling statement)
  noteAutocommit _ _ _ hab :=
    .ok rfl ⟨hab.settings, hab.handling, hab.phase, rfl, hab.readOnly, hab.cursorName⟩
  handling _ _ hab := hab.handling
  autocommit _ _ hab := hab.autocommit
  isOpen _ _ hab := hab.isOpen
  property name _ _ hab := property_eq hab name
  describe id _ _ hab := describe_eq hab id
  setReadOnly _ _ _ hab := ⟨hab.settings, hab.handling, hab.phase, hab.autocommit, rfl, hab.cursorName⟩
  setCursorName _ _ _ hab := ⟨hab.settings, hab.handling, hab.phase, hab.autocommit, hab.readOnly, rfl⟩
  close _ _ hab := h.beside_close hab
  feed more _ _ hab := h.beside_feed hab more

end Congruence

end Session

end SimpleQuery
