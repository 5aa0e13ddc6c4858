import SmbServer.Effects.Negotiation
import SmbServer.Client
import Mathlib.Logic.Function.Basic

/-!
# SmbServer.Properties.Negotiation

Whether a connection keeps what it has negotiated, and what it says about it.

Main results:

  Over every run, once a NEGOTIATE with a concrete dialect is answered, no later frame changes the
  dialect and the signing algorithm of the connection if and only if no later frame executes an
  SMB2 NEGOTIATE that picks another dialect.

  After every run, the last SMB2 NEGOTIATE response that was sent agrees with the connection and
  with VALIDATE_NEGOTIATE_INFO in every field; an SMB1 response agrees in server GUID and security
  mode, and commits nothing.

Proof strategy: only an executed NEGOTIATE writes the two fields, and it writes what it announces
(`DialectStep`). What was announced is remembered by an observer of the run.
-/

namespace SmbServer

open Lib

section

variable {σ η : Type} [Host σ η] [Crypto]

/-! ### Observers -/

namespace System

/-- The frame gets a payload back. -/
def answered (s : System σ η) (cid : UInt64) (frame : Bytes) : Bool :=
  (s.serve cid frame).1.any Option.isSome

/-- What the frame announces, on a live connection. -/
def announced (s : System σ η) (cid : UInt64) (frame : Bytes) : List Announcement :=
  match s.conns.lookup cid with
  | none => []
  | some conn => announcements s.server frame ⟨conn, s.env⟩

end System

/-- The two fields that a NEGOTIATE commits. -/
def Connection.negotiated (conn : Connection η) : Option Dialect × SigningAlgo :=
  (conn.dialect, conn.signingAlgo)

/-- For every connection, what it had negotiated when a NEGOTIATE with a concrete dialect was
answered for the first time. -/
def rememberFirst (kept : UInt64 → Option (Option Dialect × SigningAlgo)) (s : System σ η) :
    Event → UInt64 → Option (Option Dialect × SigningAlgo)
  | .accept => Function.update kept s.nextConnId none
  | .hangup cid => Function.update kept cid none
  | .config _ => kept
  | .frame cid frame =>
    if (kept cid).isNone && s.answered cid frame &&
        (s.announced cid frame).any Announcement.concrete then
      Function.update kept cid
        (((s.step (.frame cid frame)).conns.lookup cid).map Connection.negotiated)
    else kept

/-- For every connection, the last successful NEGOTIATE response. Nothing is known behind a NEGOTIATE
whose response is lost with its frame. -/
def rememberLast (last : UInt64 → Option Announcement) (s : System σ η) :
    Event → UInt64 → Option Announcement
  | .accept => Function.update last s.nextConnId none
  | .hangup cid => Function.update last cid none
  | .config _ => last
  | .frame cid frame =>
    match (s.announced cid frame).getLast? with
    | none => last
    | some a => Function.update last cid (if s.answered cid frame then some a else none)

/-! ### One step -/

/-- The step executes a NEGOTIATE of this connection for another dialect than it has. -/
def System.Renegotiates (s : System σ η) (cid : UInt64) (step : Step) : Prop :=
  ∃ e conn d, step = .element cid e ∧ s.conns.lookup cid = some conn ∧
    Negotiates conn e.bytes d ∧ conn.dialect ≠ some d

/-- The signing algorithm of every live connection is that of its dialect. -/
def AlgoMatches (s : System σ η) : Prop :=
  ∀ cid conn, s.conns.lookup cid = some conn →
    ∀ d, conn.dialect = some d → conn.signingAlgo = Negotiate.signingAlgoFor d

omit [Crypto] in
theorem Removal.negotiated {before after : Connection η}
    (removed : Relation.ReflTransGen Removal before after) :
    after.negotiated = before.negotiated := by
  induction removed with
  | refl => rfl
  | tail _ r ih => rw [← ih, Connection.negotiated, r.dialect.1, r.dialect.2, Connection.negotiated]

/-- A connection after a step: new, unchanged, or renegotiated. -/
theorem System.execute_negotiated (s : System σ η) (step : Step) (cid : UInt64)
    (conn' : Connection η) (found : (s.execute step).conns.lookup cid = some conn') :
    (step = .accept ∧ conn'.dialect = none) ∨
      ∃ conn, s.conns.lookup cid = some conn ∧
        (conn'.negotiated = conn.negotiated ∨
          ∃ e d, step = .element cid e ∧ Negotiates conn e.bytes d ∧
            conn'.negotiated = (some d, Negotiate.signingAlgoFor d)) := by
  rcases s.execute_lookup step cid conn' found with ⟨accepted, -, rfl⟩ | ⟨conn, live, same⟩
  · exact .inl ⟨accepted, rfl⟩
  · refine .inr ⟨conn, live, ?_⟩
    rcases same with ⟨e, rfl, rfl⟩ | removed
    · have step := dispatchOne_dialect s.server e.bytes e.ordinal ⟨conn, s.env⟩
      revert step
      generalize (dispatchOne s.server e.bytes e.ordinal ⟨conn, s.env⟩).1 = answer
      generalize (dispatchOne s.server e.bytes e.ordinal ⟨conn, s.env⟩).2.conn = after
      intro step
      cases step with
      | commits d reply _ here _ dialect algo =>
        exact .inr ⟨e, d, rfl, here, by rw [Connection.negotiated, dialect, algo]⟩
      | keeps _ _ _ _ dialect algo =>
        exact .inl (by rw [Connection.negotiated, dialect, algo, Connection.negotiated])
    · exact .inl (Removal.negotiated removed)

theorem algoMatches_execute (s : System σ η) (step : Step) (inv : AlgoMatches s) :
    AlgoMatches (s.execute step) := by
  intro cid conn' found d dialect
  rcases s.execute_negotiated step cid conn' found with ⟨-, none⟩ | ⟨conn, live, same | change⟩
  · rw [none] at dialect
    cases dialect
  · obtain ⟨dialectSame, algoSame⟩ := Prod.mk.inj same
    rw [algoSame]
    exact inv cid conn live d (dialectSame ▸ dialect)
  · obtain ⟨e, d', -, -, negotiated⟩ := change
    obtain ⟨dialect', algo⟩ := Prod.mk.inj negotiated
    obtain rfl := Option.some.inj (dialect'.symm.trans dialect)
    exact algo

/-- A NEGOTIATE for another dialect is seen in the connection. -/
theorem System.Renegotiates.changes {s : System σ η} {cid : UInt64} {step : Step}
    (h : s.Renegotiates cid step) :
    ∃ conn conn', s.conns.lookup cid = some conn ∧
      (s.execute step).conns.lookup cid = some conn' ∧ conn'.dialect ≠ conn.dialect := by
  obtain ⟨e, conn, d, rfl, live, here, other⟩ := h
  have after : (s.execute (.element cid e)).conns.lookup cid =
      some (dispatchOne s.server e.bytes e.ordinal ⟨conn, s.env⟩).2.conn := by
    simp only [System.execute, System.lookup_onConn, if_true, live, Option.map_some]
  refine ⟨conn, _, live, after, ?_⟩
  clear after
  have step := dispatchOne_dialect s.server e.bytes e.ordinal ⟨conn, s.env⟩
  revert step
  generalize (dispatchOne s.server e.bytes e.ordinal ⟨conn, s.env⟩).1 = answer
  generalize (dispatchOne s.server e.bytes e.ordinal ⟨conn, s.env⟩).2.conn = after
  intro step
  cases step with
  | commits d' reply _ here' _ dialect =>
    obtain rfl := here.unique here'
    rw [dialect]
    exact other.symm
  | keeps _ _ not => exact absurd here (not d)

/-! ### One frame -/

/-- Every step of the frame leaves the connection with what it had negotiated. -/
def KeepsNegotiated (s : System σ η) (cid : UInt64) (frame : Bytes)
    (kept : Option Dialect × SigningAlgo) : Prop :=
  Always System.execute (fun s step => ∀ conn', (s.execute step).conns.lookup cid = some conn' →
    conn'.negotiated = kept) s (s.expand (.frame cid frame))

/-- No step of the frame executes a NEGOTIATE for another dialect. -/
def NeverRenegotiates (s : System σ η) (cid : UInt64) (frame : Bytes) : Prop :=
  Always System.execute (fun s step => ¬s.Renegotiates cid step) s (s.expand (.frame cid frame))

theorem accept_not_mem_expand (s : System σ η) (cid : UInt64) (frame : Bytes) :
    Step.accept ∉ s.expand (.frame cid frame) := by
  intro member
  rw [System.expand] at member
  cases live : s.conns.lookup cid with
  | none => simp [live] at member
  | some conn =>
    cases choice : smb1Choice frame with
    | some chosen => simp [live, choice] at member
    | none => simp [live, choice, elements_eq] at member

/-- The connection has what is remembered of it. -/
def Holds (s : System σ η) (cid : UInt64) (kept : Option Dialect × SigningAlgo) : Prop :=
  ∀ conn, s.conns.lookup cid = some conn → conn.negotiated = kept

/-- A frame that executes no NEGOTIATE for another dialect changes nothing, and only such a
frame. -/
theorem keepsNegotiated_iff (s : System σ η) (cid : UInt64) (frame : Bytes)
    (kept : Option Dialect × SigningAlgo) (algo : AlgoMatches s) (here : Holds s cid kept) :
    KeepsNegotiated s cid frame kept ↔ NeverRenegotiates s cid frame := by
  refine Always.congr (fun s => AlgoMatches s ∧ Holds s cid kept) s _ ⟨algo, here⟩ ?_ ?_
  · rintro s step member ⟨algo, here⟩
    constructor
    · intro keeps changes
      obtain ⟨conn, conn', live, found, other⟩ := changes.changes
      have same := (keeps conn' found).trans (here conn live).symm
      exact other (Prod.mk.inj same).1
    · intro never conn' found
      rcases s.execute_negotiated step cid conn' found with
        ⟨rfl, -⟩ | ⟨conn, live, same | ⟨e, d, rfl, negotiates, negotiated⟩⟩
      · exact absurd member (accept_not_mem_expand _ cid frame)
      · rw [same, here conn live]
      · have dialect : conn.dialect = some d := by
          by_contra other
          exact never ⟨e, conn, d, rfl, live, negotiates, other⟩
        rw [negotiated, ← here conn live, Connection.negotiated, dialect, algo cid conn live d dialect]
  · rintro s step - ⟨algo, here⟩ keeps
    exact ⟨algoMatches_execute s step algo, keeps⟩

theorem KeepsNegotiated.holds {s : System σ η} {cid : UInt64} {frame : Bytes}
    {kept : Option Dialect × SigningAlgo} (h : KeepsNegotiated s cid frame kept)
    (here : Holds s cid kept) : Holds (s.step (.frame cid frame)) cid kept := by
  rw [System.step_eq]
  exact Always.invariant (fun s => Holds s cid kept) (fun _ _ _ keeps => keeps) s _ here h

/-! ### Negotiation is final -/

/-- Behind the first answer with a concrete dialect, a frame keeps what is negotiated. -/
def Final (p : System σ η × (UInt64 → Option (Option Dialect × SigningAlgo))) (e : Event) : Prop :=
  ∀ cid frame kept, e = .frame cid frame → p.2 cid = some kept →
    KeepsNegotiated p.1 cid frame kept

/-- Behind the first answer with a concrete dialect, a frame executes no NEGOTIATE for another
one. -/
def NegotiatedOnce (p : System σ η × (UInt64 → Option (Option Dialect × SigningAlgo)))
    (e : Event) : Prop :=
  ∀ cid frame, e = .frame cid frame → (p.2 cid).isSome → NeverRenegotiates p.1 cid frame

/-- What is remembered is what the connections have. -/
structure Remembered (p : System σ η × (UInt64 → Option (Option Dialect × SigningAlgo))) :
    Prop where
  algo : AlgoMatches p.1
  holds : ∀ cid kept, p.2 cid = some kept → Holds p.1 cid kept

theorem algoMatches_step (s : System σ η) (e : Event) (inv : AlgoMatches s) :
    AlgoMatches (s.step e) := by
  rw [System.step_eq]
  exact runAll_invariant _ s _ inv algoMatches_execute

theorem remembered_step (p : System σ η × (UInt64 → Option (Option Dialect × SigningAlgo)))
    (e : Event) (inv : Remembered p) (final : Final p e) :
    Remembered (watch System.step rememberFirst p e) := by
  refine ⟨algoMatches_step p.1 e inv.algo, ?_⟩
  intro cid kept remembered conn found
  obtain ⟨s, g⟩ := p
  simp only [watch] at remembered found
  cases e with
  -- a new connection remembers nothing, and the others are as they were
  | accept =>
    simp only [rememberFirst, Function.update_apply] at remembered
    split at remembered
    · cases remembered
    next other =>
      simp only [System.step, System.accept, Table.lookup_insert, other, if_false] at found
      exact inv.holds cid kept remembered conn found
  | hangup gone =>
    simp only [rememberFirst, Function.update_apply] at remembered
    split at remembered
    · cases remembered
    next other =>
      simp only [System.step, System.hangup, Table.lookup_erase, other, if_false] at found
      exact inv.holds cid kept remembered conn found
  -- the dialect and the algorithm are not administered
  | config op =>
    obtain ⟨before, live, removed⟩ := s.configure_lookup op cid conn found
    rw [Removal.negotiated removed]
    exact inv.holds cid kept remembered before live
  | frame cid' frame =>
    simp only [rememberFirst] at remembered
    by_cases same : cid = cid'
    · subst same
      cases known : g cid with
      -- something was remembered: the frame must not negotiate again
      | some kept' =>
        simp only [known, Option.isNone_some, Bool.false_and, Bool.false_eq_true, if_false,
          Option.some.injEq] at remembered
        subst remembered
        have keeps := final cid frame kept' rfl known
        exact keeps.holds (inv.holds cid kept' known) conn found
      -- what the frame negotiates is remembered now
      | none =>
        split at remembered
        · rw [Function.update_self, found, Option.map_some, Option.some.injEq] at remembered
          exact remembered
        · rw [known] at remembered
          cases remembered
    · have elsewhere : s.conns.lookup cid = some conn := by
        simpa only [System.step, System.serve, System.lookup_onConn, same, if_false] using found
      refine inv.holds cid kept ?_ conn elsewhere
      split at remembered
      · rwa [Function.update_of_ne same] at remembered
      · exact remembered

/-- Over every run, negotiation is final exactly when no frame behind the first answer with a
concrete dialect executes an SMB2 NEGOTIATE for another one. -/
theorem negotiation_final_iff (server : ServerState) (host : σ) (events : List Event) :
    Always (watch System.step rememberFirst) Final
        ((System.start server host : System σ η), fun _ => none) events ↔
      Always (watch System.step rememberFirst) NegotiatedOnce
        ((System.start server host : System σ η), fun _ => none) events := by
  refine Always.congr Remembered _ events ⟨nofun, nofun⟩ ?_ ?_
  · intro p e _ inv
    constructor
    · intro final cid frame split known
      obtain ⟨kept, known⟩ := Option.isSome_iff_exists.mp known
      exact (keepsNegotiated_iff p.1 cid frame kept inv.algo (inv.holds cid kept known)).mp
        (final cid frame kept split known)
    · intro once cid frame kept split known
      exact (keepsNegotiated_iff p.1 cid frame kept inv.algo (inv.holds cid kept known)).mpr
        (once cid frame split (by rw [known]; rfl))
  · exact fun p e _ inv final => remembered_step p e inv final

/-! ### What is announced and what is validated -/

/-- The output of VALIDATE_NEGOTIATE_INFO in a reply: capabilities, server GUID, security mode and
dialect. -/
def validated (reply : Bytes) : Bytes := slice reply 0x70 24

/-- The same four fields of a NEGOTIATE response. -/
def announcedFields (reply : Bytes) : Bytes :=
  slice reply 0x58 4 ++ slice reply 0x48 16 ++ slice reply 0x42 2 ++ slice reply 0x44 2

/-- The output of a VALIDATE_NEGOTIATE_INFO behind an SMB1 response: server GUID and security mode
of the response, capabilities and dialect of the connection. -/
def uncommittedFields (conn : Connection η) (reply : Bytes) : Bytes :=
  u32le Negotiate.negotiateCapabilities ++ slice reply 0x48 16 ++ slice reply 0x42 2 ++
    u16le ((conn.dialect.map Dialect.asU16).getD 0)

/-- Every VALIDATE_NEGOTIATE_INFO that is executed on the connection next has this output. -/
def ValidatesAs (server : ServerState) (w : World σ η) (output : Bytes) : Prop :=
  ∀ frame ordinal, Validates w.conn frame → ∃ reply,
    (dispatchOne server frame ordinal w).1 = some reply ∧
      readU32 reply 0x08 = statusSuccess ∧ validated reply = output

/-- The connection and its last NEGOTIATE response agree. -/
def Agrees (server : ServerState) (w : World σ η) (a : Announcement) : Prop :=
  if a.smb1 then ValidatesAs server w (uncommittedFields w.conn a.reply)
  else
    (∃ d, w.conn.dialect = some d ∧ slice a.reply 0x44 2 = u16le d.asU16) ∧
      ValidatesAs server w (announcedFields a.reply)

/-- What the last NEGOTIATE response has said of the server, and of the connection. -/
def Backed (config : ServerConfig) (conn : Connection η) (a : Announcement) : Prop :=
  slice a.reply 0x42 2 = u16le Negotiate.negotiateSecurityMode ∧
    slice a.reply 0x48 16 = config.serverGuid.val ∧
    (a.smb1 = false → ∃ d, conn.dialect = some d ∧ slice a.reply 0x44 2 = u16le d.asU16 ∧
      slice a.reply 0x58 4 = u32le Negotiate.negotiateCapabilities)

theorem Backed.agrees {server : ServerState} {w : World σ η} {a : Announcement}
    (h : Backed server.config w.conn a) : Agrees server w a := by
  obtain ⟨mode, guid, committed⟩ := h
  have answers (output : Bytes) (same : Ioctl.validateNegotiateInfo server w.conn = output) :
      ValidatesAs server w output := by
    intro frame ordinal validates
    obtain ⟨reply, answer, success, sent⟩ := dispatchOne_validate server frame ordinal w validates
    exact ⟨reply, answer, success, sent.trans same⟩
  rw [Agrees]
  split
  next smb1 => exact answers _ (by rw [uncommittedFields, guid, mode, Ioctl.validateNegotiateInfo])
  next smb2 =>
    obtain ⟨d, dialect, revision, capabilities⟩ := committed (by simpa using smb2)
    refine ⟨⟨d, dialect, revision⟩, answers _ ?_⟩
    rw [announcedFields, capabilities, guid, mode, revision, Ioctl.validateNegotiateInfo, dialect]
    rfl

/-- What is remembered of every live connection is backed by it. -/
def AllBacked (p : System σ η × (UInt64 → Option Announcement)) : Prop :=
  ∀ cid conn a, p.1.conns.lookup cid = some conn → p.2 cid = some a →
    Backed p.1.server.config conn a

/-- An SMB1 NEGOTIATE commits nothing. -/
theorem dispatchFrame_smb1 (server : ServerState) (frame : Bytes) (chosen : UInt16)
    (w : World σ η) (choice : smb1Choice frame = some chosen) :
    (dispatchFrame server frame w).2.conn = w.conn := by
  simp only [dispatchFrame, choice, Action.bind_apply, Action.pure_apply, smb1_frame]

/-- A frame without an announcement leaves the connection backing the last one, and the last
announcement of any other frame is backed. -/
theorem backed_dispatchFrame (server : ServerState) (frame : Bytes) (w : World σ η) :
    match (announcements server frame w).getLast? with
    | none => (dispatchFrame server frame w).2.conn.dialect = w.conn.dialect
    | some a => Backed server.config (dispatchFrame server frame w).2.conn a := by
  cases choice : smb1Choice frame with
  -- an SMB1 greeting announces nothing that the connection would have to keep
  | some chosen =>
    have said := announces_smb1 server chosen w
    simp only [announcements, choice, List.getLast?_singleton]
    refine ⟨said.securityMode, said.serverGuid, ?_⟩
    intro modern
    cases modern
  | none =>
    have spoken := dispatchFrame_spoken server frame w choice
    rw [Spoken] at spoken
    cases last : (announcements server frame w).getLast? with
    | none => simpa only [last] using spoken
    | some a =>
      simp only [last] at spoken
      obtain ⟨-, d, dialect, said⟩ := spoken
      exact ⟨said.securityMode, said.serverGuid, fun _ => ⟨d, dialect, said.dialect,
        said.capabilities⟩⟩

omit [Host σ η] [Crypto] in
theorem Backed.of_dialect {config : ServerConfig} {conn conn' : Connection η} {a : Announcement}
    (h : Backed config conn a) (same : conn'.dialect = conn.dialect) : Backed config conn' a := by
  rwa [Backed, same]

theorem allBacked_step (p : System σ η × (UInt64 → Option Announcement)) (e : Event)
    (inv : AllBacked p) : AllBacked (watch System.step rememberLast p e) := by
  obtain ⟨s, g⟩ := p
  intro cid conn a found remembered
  have config := s.step_config e
  simp only [watch] at found remembered ⊢
  rw [config]
  cases e with
  | accept =>
    simp only [rememberLast, Function.update_apply] at remembered
    split at remembered
    · cases remembered
    next other =>
      simp only [System.step, System.accept, Table.lookup_insert, other, if_false] at found
      exact inv cid conn a found remembered
  | hangup gone =>
    simp only [rememberLast, Function.update_apply] at remembered
    split at remembered
    · cases remembered
    next other =>
      simp only [System.step, System.hangup, Table.lookup_erase, other, if_false] at found
      exact inv cid conn a found remembered
  | config op =>
    obtain ⟨before, live, removed⟩ := s.configure_lookup op cid conn found
    have same := (Prod.mk.inj (Removal.negotiated removed)).1
    exact (inv cid before a live remembered).of_dialect same
  | frame cid' frame =>
    simp only [System.step, System.serve, System.lookup_onConn] at found
    simp only [rememberLast] at remembered
    -- the announcements of the frame concern its own connection
    by_cases same : cid = cid'
    · subst same
      rw [if_pos rfl] at found
      obtain ⟨before, live, rfl⟩ := Option.map_eq_some_iff.mp found
      simp only [System.announced, live] at remembered
      have backed := backed_dispatchFrame s.server frame ⟨before, s.env⟩
      revert backed remembered
      generalize (announcements s.server frame ⟨before, s.env⟩).getLast? = last
      intro remembered backed
      cases last with
      | none => exact (inv cid before a live remembered).of_dialect backed
      | some a' =>
        dsimp only at remembered
        rw [Function.update_self] at remembered
        split at remembered
        · obtain rfl := Option.some.inj remembered
          exact backed
        · cases remembered
    · rw [if_neg same] at found
      refine inv cid conn a found ?_
      cases last : (s.announced cid' frame).getLast? with
      | none => simpa only [last] using remembered
      | some a' => simpa only [last, Function.update_of_ne same] using remembered

/-- After every run, the last NEGOTIATE response that was sent on a connection agrees with the
connection and with VALIDATE_NEGOTIATE_INFO. -/
theorem announced_validated (server : ServerState) (host : σ) (events : List Event) :
    let p := runAll (watch System.step rememberLast)
      ((System.start server host : System σ η), fun _ => none) events
    (∀ cid conn a, p.1.conns.lookup cid = some conn → p.2 cid = some a →
      Agrees p.1.server ⟨conn, p.1.env⟩ a) ∧
      ∀ cid frame, (smb1Choice frame).isSome →
        (p.1.step (.frame cid frame)).conns.lookup cid = p.1.conns.lookup cid := by
  intro p
  have backed : AllBacked p := runAll_invariant _ _ events (fun _ _ _ found => nomatch found)
    allBacked_step
  refine ⟨fun cid conn a found last => (backed cid conn a found last).agrees, ?_⟩
  intro cid frame smb1
  -- an SMB1 greeting is answered and leaves the connection as it is
  obtain ⟨chosen, choice⟩ := Option.isSome_iff_exists.mp smb1
  rw [System.step, System.serve, System.lookup_onConn, if_pos rfl]
  cases p.1.conns.lookup cid with
  | none => rfl
  | some conn => rw [Option.map_some, dispatchFrame_smb1 _ _ _ _ choice]

end

/-! ### A second NEGOTIATE -/

open scoped Sample

def Sample.negotiate (dialect : UInt16) : Event :=
  .frame 1 (Client.plain .negotiate 0 0 (Client.negotiateBody [dialect]))

/-- A NEGOTIATE for 2.0.2 replaces the dialect that one for 3.1.1 was answered with. -/
theorem negotiation_not_final :
    ¬∀ events : List Event, Always (watch System.step rememberFirst) Final
      ((System.start Sample.server () : System Unit Unit), fun _ => none) events := by
  intro all
  have final := (Always.iff_split _ _).mp
    (all [.accept, Sample.negotiate 0x0311, Sample.negotiate 0x0202])
    [.accept, Sample.negotiate 0x0311] (Sample.negotiate 0x0202) [] rfl
  have reached :
      let p := runAll (watch System.step rememberFirst)
        ((System.start Sample.server () : System Unit Unit), fun _ => none)
        [.accept, Sample.negotiate 0x0311]
      p.2 1 = some (some .smb311, .aesCmac) ∧
        ((p.1.conns.lookup 1).all fun conn => conn.negotiated = (some .smb311, .aesCmac)) = true ∧
        (((p.1.step (Sample.negotiate 0x0202)).conns.lookup 1).any
          fun conn => conn.negotiated ≠ (some .smb311, .aesCmac)) = true := by
    decide +kernel
  obtain ⟨kept, before, after⟩ := reached
  obtain ⟨conn, found, other⟩ := (Option.any_eq_true _ _).mp after
  have holds := (final 1 _ _ rfl kept).holds fun conn live =>
    of_decide_eq_true ((Option.all_eq_true _ _).mp before conn live)
  exact of_decide_eq_true other (holds conn found)

/-! ### An SMB1 NEGOTIATE -/

/-- An SMB1 NEGOTIATE that lists "SMB 2.002". -/
def Sample.smb1Negotiate : Bytes :=
  [0xFF, 0x53, 0x4D, 0x42, 0x72] ++ List.replicate 28 0 ++ u16le 11 ++ [0x02] ++ smb202Name ++ [0]

/-- It announces 2.0.2, and the connection has no dialect. -/
theorem smb1_announces_uncommitted :
    ¬∀ events : List Event,
      let p := runAll (watch System.step rememberLast)
        ((System.start Sample.server () : System Unit Unit), fun _ => none) events
      ∀ cid conn a, p.1.conns.lookup cid = some conn → p.2 cid = some a → a.concrete →
        conn.dialect.map (fun d => u16le d.asU16) = some (slice a.reply 0x44 2) := by
  intro all
  have uncommitted := all [.accept, .frame 1 Sample.smb1Negotiate]
  have reached :
      let p := runAll (watch System.step rememberLast)
        ((System.start Sample.server () : System Unit Unit), fun _ => none)
        [.accept, .frame 1 Sample.smb1Negotiate]
      ((p.1.conns.lookup 1).any (·.dialect.isNone) && (p.2 1).any Announcement.concrete) = true := by
    decide +kernel
  simp only [Bool.and_eq_true, Option.any_eq_true, Option.isNone_iff_eq_none] at reached
  obtain ⟨⟨conn, live, none⟩, a, last, concrete⟩ := reached
  have same := uncommitted 1 conn a live last concrete
  rw [none] at same
  cases same

end SmbServer
