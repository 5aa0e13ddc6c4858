import Mathlib.Logic.Function.Basic
import SmbServer.Effects.SessionIds

/-!
# SmbServer.Properties.SessionLifecycle

The life of a session id: allocated by a first round, pending, authenticated once, live, closed.

Main result: in every state that a connection reaches within fewer than 2^64 first rounds, the
pending and the live ids are disjoint and were allocated, no acceptor authenticates twice, and a
closed id stays closed; a session enters the table only for an acceptor that is taken and
authenticates in the same request, and never replaces another.

Proof strategy: an observer writes down which ids were allocated, which acceptors were taken and
which sessions were closed. `History.Tracks` says how the tables relate to that record, and
`SetupTurn` and `FewerSessions` are all that a step can do to them.
-/

namespace SmbServer

open Lib

variable {σ η : Type}

/-- What an observer of a connection has seen of its session ids. -/
structure History where
  issued : List UInt64
  consumed : List UInt64
  closed : UInt64 → Prop

namespace History

def empty : History := ⟨[], [], fun _ => False⟩

/-- One step of the connection, with the round that it gets to. -/
def extend (h : History) (conn conn' : Connection η) (round : Option SetupRound) : History where
  issued :=
    match round with
    | some .opens => conn.nextSessionId :: h.issued
    | _ => h.issued
  consumed :=
    match round with
    | some (.authenticates sid _ _) => sid :: h.consumed
    | _ => h.consumed
  closed sid :=
    h.closed sid ∨ (conn.sessions.lookup sid).isSome ∧ conn'.sessions.lookup sid = none

/-- How the tables of a connection relate to its history. -/
structure Tracks (h : History) (conn : Connection η) : Prop where
  next : conn.nextSessionId = UInt64.ofNat (h.issued.length + 1)
  range : ∀ sid ∈ h.issued, 1 ≤ sid.toNat ∧ sid.toNat ≤ h.issued.length
  issuedOnce : h.issued.Nodup
  consumedOnce : h.consumed.Nodup
  consumed : ∀ sid ∈ h.consumed, sid ∈ h.issued
  closed : ∀ sid, h.closed sid → sid ∈ h.consumed
  pending : ∀ sid, (conn.pendingAuths.lookup sid).isSome → sid ∈ h.issued ∧ sid ∉ h.consumed
  live : ∀ sid, (conn.sessions.lookup sid).isSome → sid ∈ h.consumed ∧ ¬h.closed sid

theorem tracks_empty (cid : UInt64) (guid : ByteVec 16) (maxRead maxWrite : UInt32) :
    empty.Tracks (Connection.new cid guid maxRead maxWrite : Connection η) where
  next := rfl
  range := by simp [empty]
  issuedOnce := .nil
  consumedOnce := .nil
  consumed := by simp [empty]
  closed := fun _ absurd => absurd.elim
  pending := by simp [Connection.new]
  live := by simp [Connection.new]

/-! ### What a step does to the record -/

theorem Tracks.extend_fewer {h : History} {conn conn' : Connection η} (tracks : h.Tracks conn)
    (fewer : FewerSessions conn conn') : (h.extend conn conn' none).Tracks conn' := by
  -- a session that is left was there before
  have before (sid : UInt64) (live : (conn'.sessions.lookup sid).isSome) :
      (conn.sessions.lookup sid).isSome := by
    obtain ⟨sess, found⟩ := Option.isSome_iff_exists.mp live
    have seen : conn'.sessionView sid = some sess.view := by
      rw [Connection.sessionView, found, Option.map_some]
    have old := fewer.views sid sess.view seen
    rw [Connection.sessionView] at old
    exact Option.isSome_map ▸ (by rw [old]; rfl)
  constructor
  · exact fewer.nextSessionId.trans tracks.next
  · exact tracks.range
  · exact tracks.issuedOnce
  · exact tracks.consumedOnce
  · exact tracks.consumed
  · rintro sid (closed | ⟨live, -⟩)
    · exact tracks.closed sid closed
    · exact (tracks.live sid live).1
  · intro sid pending
    rw [fewer.pendingAuths] at pending
    exact tracks.pending sid pending
  · intro sid live
    obtain ⟨consumed, open_⟩ := tracks.live sid (before sid live)
    refine ⟨consumed, ?_⟩
    -- it was open, and this step has not closed it
    rintro (closed | ⟨-, gone⟩)
    · exact open_ closed
    · rw [gone] at live
      cases live

/-- The id that the allocator hands out next has not been handed out. -/
theorem Tracks.fresh {h : History} {conn : Connection η} (tracks : h.Tracks conn)
    (room : h.issued.length + 1 < 2 ^ 64) :
    conn.nextSessionId.toNat = h.issued.length + 1 ∧ conn.nextSessionId ∉ h.issued := by
  have value : conn.nextSessionId.toNat = h.issued.length + 1 := by
    rw [tracks.next, UInt64.toNat_ofNat']
    exact Nat.mod_eq_of_lt room
  refine ⟨value, fun issued => ?_⟩
  have low := (tracks.range _ issued).2
  omega

/-- Without a change to the sessions nothing is closed. -/
private theorem closed_of_eq {h : History} {conn conn' : Connection η} {round : Option SetupRound}
    (sessions : conn'.sessions = conn.sessions) (sid : UInt64) :
    (h.extend conn conn' round).closed sid ↔ h.closed sid := by
  constructor
  · rintro (closed | ⟨live, gone⟩)
    · exact closed
    · rw [sessions] at gone
      rw [gone] at live
      cases live
  · exact .inl

theorem Tracks.extend_opened {h : History} {conn conn' : Connection η} (tracks : h.Tracks conn)
    (room : h.issued.length + 1 < 2 ^ 64) (sessions : conn'.sessions = conn.sessions)
    (pendingAuths : conn'.pendingAuths = conn.pendingAuths ∨
      ∃ acceptor, conn'.pendingAuths = conn.pendingAuths.insert conn.nextSessionId acceptor)
    (nextSessionId : conn'.nextSessionId = conn.nextSessionId + 1) :
    (h.extend conn conn' (some .opens)).Tracks conn' := by
  obtain ⟨value, fresh⟩ := tracks.fresh room
  have grown : (h.extend conn conn' (some .opens)).issued.length = h.issued.length + 1 :=
    List.length_cons
  constructor
  · rw [nextSessionId, tracks.next, grown]
    exact (UInt64.ofNat_add _ _).symm
  · intro sid member
    rw [grown]
    rcases List.mem_cons.mp member with rfl | old
    · omega
    · have := tracks.range sid old
      omega
  · exact List.nodup_cons.mpr ⟨fresh, tracks.issuedOnce⟩
  · exact tracks.consumedOnce
  · exact fun sid member => List.mem_cons_of_mem _ (tracks.consumed sid member)
  · exact fun sid closed => tracks.closed sid ((closed_of_eq sessions sid).mp closed)
  · intro sid pending
    -- The new acceptor waits under the fresh id, which nothing has consumed.
    have either : sid = conn.nextSessionId ∨ (conn.pendingAuths.lookup sid).isSome := by
      rcases pendingAuths with same | ⟨acceptor, inserted⟩
      · rw [same] at pending
        exact .inr pending
      · rw [inserted, Table.lookup_insert] at pending
        split at pending
        next new => exact .inl new
        next => exact .inr pending
    rcases either with rfl | old
    · exact ⟨List.mem_cons_self, fun consumed => fresh (tracks.consumed _ consumed)⟩
    · obtain ⟨issued, waiting⟩ := tracks.pending sid old
      exact ⟨List.mem_cons_of_mem _ issued, waiting⟩
  · intro sid live
    rw [sessions] at live
    obtain ⟨consumed, open_⟩ := tracks.live sid live
    exact ⟨consumed, fun closed => open_ ((closed_of_eq sessions sid).mp closed)⟩

/-- Taking the acceptor of an id, with or without a session coming of it. -/
theorem Tracks.extend_consumed {h : History} {conn conn' : Connection η} (tracks : h.Tracks conn)
    (sid : UInt64) (acceptor : NtlmServer) (token : SessionSetup.Token)
    (waits : (conn.pendingAuths.lookup sid).isSome)
    (sessions : ∀ sid', sid' ≠ sid → conn'.sessions.lookup sid' = conn.sessions.lookup sid')
    (pendingAuths : conn'.pendingAuths = conn.pendingAuths.erase sid)
    (nextSessionId : conn'.nextSessionId = conn.nextSessionId) :
    (h.extend conn conn' (some (.authenticates sid acceptor token))).Tracks conn' := by
  obtain ⟨issued, waiting⟩ := tracks.pending sid waits
  -- taking an acceptor closes no session: the id had none yet
  have closed_iff (sid' : UInt64) :
      (h.extend conn conn' (some (.authenticates sid acceptor token))).closed sid' ↔
        h.closed sid' := by
    constructor
    · rintro (closed | ⟨live, gone⟩)
      · exact closed
      · have other : sid' ≠ sid := fun same => waiting (same ▸ (tracks.live sid' live).1)
        rw [sessions sid' other] at gone
        rw [gone] at live
        cases live
    · exact .inl
  constructor
  · exact nextSessionId.trans tracks.next
  · exact tracks.range
  · exact tracks.issuedOnce
  · exact List.nodup_cons.mpr ⟨waiting, tracks.consumedOnce⟩
  · intro sid' member
    rcases List.mem_cons.mp member with rfl | old
    · exact issued
    · exact tracks.consumed sid' old
  · exact fun sid' closed =>
      List.mem_cons_of_mem _ (tracks.closed sid' ((closed_iff sid').mp closed))
  · intro sid' pending
    rw [pendingAuths, Table.lookup_erase] at pending
    split at pending
    · cases pending
    next other =>
      obtain ⟨there, untaken⟩ := tracks.pending sid' pending
      exact ⟨there, fun member => (List.mem_cons.mp member).elim other untaken⟩
  · intro sid' live
    by_cases same : sid' = sid
    -- the id is taken only now, so it cannot have been closed before
    · subst same
      refine ⟨List.mem_cons_self, fun closed => ?_⟩
      exact waiting (tracks.closed sid' ((closed_iff sid').mp closed))
    · rw [sessions sid' same] at live
      obtain ⟨consumed, open_⟩ := tracks.live sid' live
      exact ⟨List.mem_cons_of_mem _ consumed, fun closed => open_ ((closed_iff sid').mp closed)⟩

end History

/-! ### The lifecycle -/

/-- The next session id as a number: an allocator that has wrapped around reads 0 for 2^64. -/
def Connection.idLimit (conn : Connection η) : Nat :=
  if conn.nextSessionId = 0 then 2 ^ 64 else conn.nextSessionId.toNat

/-- What holds of the session ids of a connection, and of the record that is kept of them. -/
structure History.Orderly (h : History) (conn : Connection η) : Prop where
  disjoint : ∀ sid, (conn.pendingAuths.lookup sid).isSome → conn.sessions.lookup sid = none
  allocated : ∀ sid, (conn.pendingAuths.lookup sid).isSome ∨ (conn.sessions.lookup sid).isSome →
    1 ≤ sid.toNat ∧ sid.toNat < conn.idLimit
  issuedOnce : h.issued.Nodup
  consumedOnce : h.consumed.Nodup
  closed : ∀ sid, h.closed sid → conn.sessions.lookup sid = none

/-- What a step does to the sessions of a connection, at the round that it gets to. -/
structure Enters [Crypto] (server : ServerState) (round : Option SetupRound)
    (conn conn' : Connection η) : Prop where
  entered : ∀ sid, conn.sessions.lookup sid = none → (conn'.sessions.lookup sid).isSome →
    ∃ acceptor token rawForm outcome, round = some (.authenticates sid acceptor token) ∧
      conn.pendingAuths.lookup sid = some (acceptor, rawForm) ∧
      conn'.pendingAuths.lookup sid = none ∧
      acceptor.authenticate token.innerToken server.users.lookup = some outcome
  kept : ∀ sid v, conn.sessionView sid = some v →
    conn'.sessionView sid = some v ∨ conn'.sessions.lookup sid = none
  consumes : ∀ sid acceptor token, round = some (.authenticates sid acceptor token) →
    (∃ rawForm, conn.pendingAuths.lookup sid = some (acceptor, rawForm)) ∧
      conn'.pendingAuths.lookup sid = none ∧ conn.sessions.lookup sid = none

theorem History.Tracks.idLimit_eq {h : History} {conn : Connection η} (tracks : h.Tracks conn)
    (room : h.issued.length < 2 ^ 64) : conn.idLimit = h.issued.length + 1 := by
  have value : conn.nextSessionId.toNat = (h.issued.length + 1) % 2 ^ 64 := by
    rw [tracks.next, UInt64.toNat_ofNat']
  rw [Connection.idLimit]
  split
  next zero =>
    rw [zero] at value
    have : (0 : UInt64).toNat = 0 := rfl
    omega
  next nonzero =>
    have : conn.nextSessionId.toNat ≠ 0 := fun zero => nonzero (UInt64.toNat_inj.mp zero)
    omega

theorem History.Tracks.orderly {h : History} {conn : Connection η} (tracks : h.Tracks conn)
    (room : h.issued.length < 2 ^ 64) : h.Orderly conn where
  disjoint sid pending := by
    by_contra live
    exact (tracks.pending sid pending).2 (tracks.live sid (Option.isSome_iff_ne_none.mpr live)).1
  allocated sid there := by
    have issued : sid ∈ h.issued := by
      rcases there with pending | live
      · exact (tracks.pending sid pending).1
      · exact tracks.consumed sid (tracks.live sid live).1
    have limit := tracks.idLimit_eq room
    have := tracks.range sid issued
    omega
  issuedOnce := tracks.issuedOnce
  consumedOnce := tracks.consumedOnce
  closed sid closed := by
    by_contra live
    exact (tracks.live sid (Option.isSome_iff_ne_none.mpr live)).2 closed

theorem Enters.of_fewer [Crypto] {server : ServerState} {conn conn' : Connection η}
    (fewer : FewerSessions conn conn') : Enters server none conn conn' where
  entered sid gone live := by
    obtain ⟨sess, found⟩ := Option.isSome_iff_exists.mp live
    have old := fewer.views sid sess.view (by rw [Connection.sessionView, found]; rfl)
    rw [Connection.sessionView, gone] at old
    cases old
  kept sid v seen := by
    cases found : conn'.sessions.lookup sid with
    | none => exact .inr rfl
    | some sess =>
      have view : conn'.sessionView sid = some sess.view := by
        rw [Connection.sessionView, found, Option.map_some]
      left
      rw [view, ← fewer.views sid sess.view view, seen]
  consumes _ _ _ round := by cases round

theorem Enters.of_opened [Crypto] {server : ServerState} {conn conn' : Connection η}
    (sessions : conn'.sessions = conn.sessions) : Enters server (some .opens) conn conn' where
  entered sid gone live := by
    rw [sessions, gone] at live
    cases live
  kept sid v seen := by
    rw [Connection.sessionView, ← sessions] at seen
    exact .inl seen
  consumes _ _ _ round := by cases round

/-- The acceptor of an id is taken; a session may come of it. -/
theorem Enters.of_consumed [Crypto] {server : ServerState} {conn conn' : Connection η}
    {h : History} (tracks : h.Tracks conn) {sid : UInt64} {acceptor : NtlmServer}
    {token : SessionSetup.Token} {rawForm : Bool}
    (waits : conn.pendingAuths.lookup sid = some (acceptor, rawForm))
    (others : ∀ sid', sid' ≠ sid → conn'.sessions.lookup sid' = conn.sessions.lookup sid')
    (pendingAuths : conn'.pendingAuths = conn.pendingAuths.erase sid)
    (own : (conn'.sessions.lookup sid).isSome → ∃ outcome,
      acceptor.authenticate token.innerToken server.users.lookup = some outcome) :
    Enters server (some (.authenticates sid acceptor token)) conn conn' := by
  have taken : conn'.pendingAuths.lookup sid = none := by
    rw [pendingAuths, Table.lookup_erase_self]
  -- a live session has consumed its acceptor, and this one is still waiting
  have absent : conn.sessions.lookup sid = none := by
    by_contra live
    have pending : (conn.pendingAuths.lookup sid).isSome := by rw [waits]; rfl
    exact (tracks.pending sid pending).2 (tracks.live sid (Option.isSome_iff_ne_none.mpr live)).1
  constructor
  · intro sid' gone live
    by_cases same : sid' = sid
    · subst same
      obtain ⟨outcome, authenticated⟩ := own live
      exact ⟨acceptor, token, rawForm, outcome, rfl, waits, taken, authenticated⟩
    · rw [others sid' same, gone] at live
      cases live
  · intro sid' v seen
    by_cases same : sid' = sid
    · rw [same, Connection.sessionView, absent] at seen
      cases seen
    · rw [Connection.sessionView, ← others sid' same] at seen
      exact .inl seen
  · intro sid' acceptor' token' round
    cases round
    exact ⟨⟨rawForm, waits⟩, taken, absent⟩

/-- The round that a step gets to on a connection. -/
def Step.roundOn [Crypto] (step : Step) (cid : UInt64) (conn : Connection η) : Option SetupRound :=
  match step with
  | .element cid' e => if cid' = cid then conn.roundOf e.bytes else none
  | _ => none

variable [Host σ η] [Crypto]

/-- The histories of all connections, one step after another. -/
def lifecycle (hs : UInt64 → History) (s : System σ η) (step : Step) : UInt64 → History :=
  match step with
  | .accept => Function.update hs s.nextConnId .empty
  | step => fun cid =>
    match s.conns.lookup cid, (s.execute step).conns.lookup cid with
    | some conn, some conn' => (hs cid).extend conn conn' (step.roundOn cid conn)
    | _, _ => hs cid

omit [Host σ η] [Crypto] in
/-- A round that authenticates takes an acceptor that waits. -/
theorem setupRound_authenticates {conn : Connection η} {sid : UInt64} {body : Bytes}
    {acceptor : NtlmServer} {token : SessionSetup.Token}
    (round : conn.setupRound sid body = some (.authenticates sid acceptor token)) :
    ∃ rawForm, conn.pendingAuths.lookup sid = some (acceptor, rawForm) := by
  rw [Connection.setupRound] at round
  split at round
  · cases round
  split at round
  · cases round
  split at round
  · cases round
  obtain ⟨⟨acceptor', rawForm⟩, found, same⟩ := Option.map_eq_some_iff.mp round
  cases same
  exact ⟨rawForm, found⟩

/-- One SESSION_SETUP keeps the record. -/
theorem SetupTurn.tracked {server : ServerState} {sid : UInt64} {body : Bytes}
    {conn conn' : Connection η} (turn : SetupTurn server sid body conn conn') {h : History}
    (tracks : h.Tracks conn)
    (room : (h.extend conn conn' (conn.setupRound sid body)).issued.length < 2 ^ 64) :
    (h.extend conn conn' (conn.setupRound sid body)).Tracks conn' ∧
      Enters server (conn.setupRound sid body) conn conn' := by
  cases turn with
  -- no round was fought: the connection differs at most in sessions that are gone
  | idle round same =>
    have fewer : FewerSessions conn conn' := by
      refine ⟨fun sid v seen => ?_, same.pendingAuths, same.nextSessionId⟩
      rwa [Connection.sessionView, same.sessions] at seen
    rw [round]
    exact ⟨tracks.extend_fewer fewer, .of_fewer fewer⟩
  | opened round sessions pending next =>
    rw [round] at room ⊢
    exact ⟨tracks.extend_opened room sessions pending next, .of_opened sessions⟩
  -- the acceptor is used up and no session comes of it
  | refused acceptor token round sessions pending next =>
    obtain ⟨rawForm, waits⟩ := setupRound_authenticates round
    have others (sid' : UInt64) (_ : sid' ≠ sid) :
        conn'.sessions.lookup sid' = conn.sessions.lookup sid' := by rw [sessions]
    have there : (conn.pendingAuths.lookup sid).isSome := by rw [waits]; rfl
    rw [round]
    refine ⟨tracks.extend_consumed sid acceptor token there others pending next,
      .of_consumed tracks waits others pending fun live => ?_⟩
    rw [sessions] at live
    exact absurd (tracks.live sid live).1 (tracks.pending sid there).2
  -- the acceptor is used up and the session of its outcome is entered
  | completed acceptor token outcome sess round authenticated _ sessions pending next =>
    obtain ⟨rawForm, waits⟩ := setupRound_authenticates round
    have others (sid' : UInt64) (other : sid' ≠ sid) :
        conn'.sessions.lookup sid' = conn.sessions.lookup sid' := by
      rw [sessions, if_neg other]
    have there : (conn.pendingAuths.lookup sid).isSome := by rw [waits]; rfl
    rw [round]
    exact ⟨tracks.extend_consumed sid acceptor token there others pending next,
      .of_consumed tracks waits others pending fun _ => ⟨outcome, authenticated⟩⟩

/-! ### A step and a run -/

/-- The record of every live connection is kept. -/
def AllTracked (p : System σ η × (UInt64 → History)) : Prop :=
  ∀ cid conn, p.1.conns.lookup cid = some conn → (p.2 cid).issued.length < 2 ^ 64 →
    (p.2 cid).Tracks conn

omit [Host σ η] [Crypto] in
theorem History.length_issued_le (h : History) (conn conn' : Connection η)
    (round : Option SetupRound) : h.issued.length ≤ (h.extend conn conn' round).issued.length := by
  cases round with
  | none => exact Nat.le_refl _
  | some round =>
    cases round with
    | opens => exact Nat.le_succ _
    | authenticates => exact Nat.le_refl _

/-- The record and the sessions of one connection behind an element of its own, or behind anything
that only takes sessions away. -/
private theorem moved_tracked {s : System σ η} {step : Step} {cid : UInt64}
    {conn conn' : Connection η} {h : History} (tracks : h.issued.length < 2 ^ 64 → h.Tracks conn)
    (moved : (∃ e, step = .element cid e ∧
        conn' = (dispatchOne s.server e.bytes e.ordinal ⟨conn, s.env⟩).2.conn) ∨
      (step.roundOn cid conn = none ∧ FewerSessions conn conn'))
    (room : (h.extend conn conn' (step.roundOn cid conn)).issued.length < 2 ^ 64) :
    (h.extend conn conn' (step.roundOn cid conn)).Tracks conn' ∧
      Enters s.server (step.roundOn cid conn) conn conn' := by
  have before := tracks (Nat.lt_of_le_of_lt (h.length_issued_le _ _ _) room)
  rcases moved with ⟨e, rfl, rfl⟩ | ⟨noRound, fewer⟩
  · have round : (Step.element cid e).roundOn cid conn = conn.roundOf e.bytes := if_pos rfl
    rw [round] at room ⊢
    rcases dispatchOne_ids s.server e.bytes e.ordinal ⟨conn, s.env⟩ with
      ⟨noRound, fewer⟩ | ⟨hdr, body, -, -, setup, turn⟩
    · dsimp only at noRound
      rw [noRound]
      exact ⟨before.extend_fewer fewer, .of_fewer fewer⟩
    · dsimp only at setup
      rw [setup] at room ⊢
      exact turn.tracked before room
  · rw [noRound]
    exact ⟨before.extend_fewer fewer, .of_fewer fewer⟩

/-- How a connection gets to where a step leaves it. -/
private theorem execute_moved (s : System σ η) (step : Step) (noAccept : step ≠ .accept)
    (cid : UInt64) (conn' : Connection η)
    (found : (s.execute step).conns.lookup cid = some conn') :
    ∃ conn, s.conns.lookup cid = some conn ∧ ((∃ e, step = .element cid e ∧
        conn' = (dispatchOne s.server e.bytes e.ordinal ⟨conn, s.env⟩).2.conn) ∨
      (step.roundOn cid conn = none ∧ FewerSessions conn conn')) := by
  by_cases own : ∃ e, step = .element cid e
  · obtain ⟨e, rfl⟩ := own
    simp only [System.execute, System.lookup_onConn, if_true] at found
    obtain ⟨conn, live, rfl⟩ := Option.map_eq_some_iff.mp found
    exact ⟨conn, live, .inl ⟨e, rfl, rfl⟩⟩
  rcases s.execute_lookup step cid conn' found with ⟨accept, -⟩ | ⟨conn, live, moved | removed⟩
  · exact absurd accept noAccept
  · obtain ⟨e, same, -⟩ := moved
    exact absurd ⟨e, same⟩ own
  · refine ⟨conn, live, .inr ⟨?_, ?_⟩⟩
    · cases step with
      | element cid' e => exact if_neg fun same => own ⟨e, by rw [same]⟩
      | accept | smb1 | config | hangup => rfl
    · clear found
      induction removed with
      | refl => exact .refl conn
      | tail _ last ih => exact ih.trans last.fewerSessions

theorem step_tracked (p : System σ η × (UInt64 → History)) (step : Step) (inv : AllTracked p)
    (cid : UInt64) (room : (lifecycle p.2 p.1 step cid).issued.length < 2 ^ 64)
    (conn' : Connection η) (found : (p.1.execute step).conns.lookup cid = some conn') :
    (lifecycle p.2 p.1 step cid).Tracks conn' ∧ ∀ conn, p.1.conns.lookup cid = some conn →
      Enters p.1.server (step.roundOn cid conn) conn conn' := by
  obtain ⟨s, hs⟩ := p
  by_cases accept : step = .accept
  · subst accept
    simp only [System.execute, System.accept, Table.lookup_insert, lifecycle] at found room ⊢
    split at found
    -- the connection that is accepted
    next new =>
      obtain rfl := Option.some.inj found
      rw [new, Function.update_self]
      refine ⟨History.tracks_empty _ _ _ _, fun conn live => ⟨?_, ?_, ?_⟩⟩
      · intro sid _ live
        cases live
      · exact fun _ _ _ => .inr rfl
      · intro _ _ _ round
        cases round
    next old =>
      rw [Function.update_of_ne old] at room ⊢
      refine ⟨inv cid conn' found room, fun conn live => ?_⟩
      obtain rfl := Option.some.inj (live.symm.trans found)
      exact .of_fewer (.refl conn)
  -- any other step finds the connection and moves it
  · obtain ⟨conn, live, moved⟩ := execute_moved s step accept cid conn' found
    have record : lifecycle hs s step cid = (hs cid).extend conn conn' (step.roundOn cid conn) := by
      cases step with
      | accept => exact absurd rfl accept
      | _ => simp only [lifecycle, live, found]
    rw [record] at room ⊢
    obtain ⟨tracks, enters⟩ := moved_tracked (inv cid conn live) moved room
    refine ⟨tracks, fun conn₀ there => ?_⟩
    obtain rfl := Option.some.inj (live.symm.trans there)
    exact enters

/-- Over every run, as long as a connection has served fewer than 2^64 first rounds, its sessions
keep to their lifecycle. -/
theorem sessionLifecycle (server : ServerState) (host : σ) (events : List Event) :
    Always (watch System.execute lifecycle) (fun (p : System σ η × (UInt64 → History)) step =>
        ∀ cid conn', (p.1.execute step).conns.lookup cid = some conn' →
          (lifecycle p.2 p.1 step cid).issued.length < 2 ^ 64 →
            (lifecycle p.2 p.1 step cid).Orderly conn' ∧
              ∀ conn, p.1.conns.lookup cid = some conn →
                Enters p.1.server (step.roundOn cid conn) conn conn')
      (System.start server host, fun _ => .empty) ((System.start server host).steps events) := by
  apply Always.of_preserved AllTracked
  · intro p step inv cid conn' found room
    exact (step_tracked p step inv cid room conn' found).1
  · intro p step inv cid conn' found room
    obtain ⟨tracks, enters⟩ := step_tracked p step inv cid room conn' found
    exact ⟨tracks.orderly room, enters⟩
  · intro cid conn live
    cases live

end SmbServer
