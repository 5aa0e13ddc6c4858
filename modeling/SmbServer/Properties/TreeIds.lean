import SmbServer.Properties.FailedRequest
import SmbServer.Properties.Isolation
import SmbServer.Properties.LiveContext

/-!
# SmbServer.Properties.TreeIds

The tree ids that a session hands out.

## Main result

`treeId_new_iff`: over every run, a successful TREE_CONNECT returns the id of a new tree, which is
neither 0 nor the id that related elements inherit by, and replaces no live tree, if and only if its
number in the session has `Room`: it is neither 0 nor 2^32 - 1 modulo 2^32, and no live tree of the
session was connected a multiple of 2^32 TREE_CONNECTs before.

The counter behind the ids has 32 bits. It wraps, and nothing compares it with the trees that are
live.

## Proof strategy

An observer numbers the successful TREE_CONNECTs of every session from its logon on, and writes down
which of them returned which id last. `ConnectHistory.Tracks` says that the counter and the ids of
the live trees are these numbers modulo 2^32. A request that fails keeps counters and trees
(`dispatchOne_failed`); among those that succeed only TREE_CONNECT moves a counter, and only
SESSION_SETUP starts one.
-/

namespace SmbServer

open Lib

variable {σ η : Type}

/-! ### The record of an observer -/

/-- The successful TREE_CONNECTs of a session: how many there were, and the number of the one that
returned an id last. -/
structure ConnectHistory where
  count : Nat
  ordinal : UInt32 → Nat

namespace ConnectHistory

def empty : ConnectHistory := ⟨0, fun _ => 0⟩

/-- One more TREE_CONNECT, with the id that it returned. -/
def connect (h : ConnectHistory) (tid : UInt32) : ConnectHistory :=
  ⟨h.count + 1, Function.update h.ordinal tid (h.count + 1)⟩

/-- A response with STATUS_SUCCESS to a request of the session. -/
def extend (h : ConnectHistory) (hdr : Smb2Header) (bytes : Bytes) : ConnectHistory :=
  match hdr.command with
  | .sessionSetup => .empty
  | .treeConnect => h.connect (readU32 bytes 0x24)
  | _ => h

/-- How a session relates to its history. -/
structure Tracks (h : ConnectHistory) (sess : Session η) : Prop where
  next : sess.nextTreeId = UInt32.ofNat (h.count + 1)
  range : ∀ tid, (sess.trees.lookup tid).isSome → 1 ≤ h.ordinal tid ∧ h.ordinal tid ≤ h.count
  ids : ∀ tid, (sess.trees.lookup tid).isSome → tid = UInt32.ofNat (h.ordinal tid)

/-- The next TREE_CONNECT of a session has an id to take: its number is neither 0 nor 2^32 - 1
modulo 2^32, nor that of a tree that is still live. -/
structure Room (h : ConnectHistory) (conn : Connection η) (sid : UInt64) : Prop where
  zero : (h.count + 1) % 2 ^ 32 ≠ 0
  wildcard : (h.count + 1) % 2 ^ 32 ≠ 2 ^ 32 - 1
  live : ∀ tid, (conn.findTree sid tid).isSome →
    (h.count + 1) % 2 ^ 32 ≠ h.ordinal tid % 2 ^ 32

/-- A new session has connected nothing. -/
theorem tracks_empty (sess : Session η) (next : sess.nextTreeId = 1)
    (bare : sess.trees = Table.empty) : empty.Tracks sess where
  next := next
  range := by simp [bare]
  ids := by simp [bare]

/-- A session that keeps its counter and loses trees. -/
theorem Tracks.fewer {h : ConnectHistory} {sess sess' : Session η} (tracks : h.Tracks sess)
    (next : sess'.nextTreeId = sess.nextTreeId)
    (trees : ∀ tid, (sess'.trees.lookup tid).isSome → (sess.trees.lookup tid).isSome) :
    h.Tracks sess' where
  next := next.trans tracks.next
  range tid live := tracks.range tid (trees tid live)
  ids tid live := tracks.ids tid (trees tid live)

/-- A session behind a successful TREE_CONNECT. -/
theorem Tracks.connected {h : ConnectHistory} {sess : Session η} (tracks : h.Tracks sess)
    (tree : TreeConnect η) :
    (h.connect sess.nextTreeId).Tracks
      { sess with
        nextTreeId := sess.nextTreeId + 1
        trees := sess.trees.insert sess.nextTreeId tree } := by
  constructor
  -- the counter and the number of grants go up together, modulo 2^32
  · rw [tracks.next]
    exact (UInt32.ofNat_add (h.count + 1) 1).symm
  · intro tid live
    simp only [connect, Function.update_apply]
    split
    next => omega
    next other =>
      simp only [Table.lookup_insert, if_neg other] at live
      have before := tracks.range tid live
      omega
  · intro tid live
    simp only [connect, Function.update_apply]
    split
    next same => rw [same, tracks.next]
    next other =>
      simp only [Table.lookup_insert, if_neg other] at live
      exact tracks.ids tid live

/-- The first 2^32 - 2 TREE_CONNECTs of a session have room. -/
theorem Tracks.room {h : ConnectHistory} {conn : Connection η} {sid : UInt64} {sess : Session η}
    (tracks : h.Tracks sess) (session : conn.sessions.lookup sid = some sess)
    (few : h.count + 1 < 2 ^ 32 - 1) : h.Room conn sid := by
  have value : (h.count + 1) % 2 ^ 32 = h.count + 1 := Nat.mod_eq_of_lt (by omega)
  constructor
  · omega
  · omega
  · intro tid live
    rw [Connection.findTree, session, Option.bind_some] at live
    have before := tracks.range tid live
    omega

end ConnectHistory

/-! ### What keeps the ids -/

/-- Every session was there before, with the same counter and all of its trees. -/
def KeepsIds (conn conn' : Connection η) : Prop :=
  ∀ sid sess', conn'.sessions.lookup sid = some sess' →
    ∃ sess, conn.sessions.lookup sid = some sess ∧ sess'.nextTreeId = sess.nextTreeId ∧
      ∀ tid, (sess'.trees.lookup tid).isSome → (sess.trees.lookup tid).isSome

namespace KeepsIds

theorem refl (conn : Connection η) : KeepsIds conn conn :=
  fun _ sess' live => ⟨sess', live, rfl, fun _ there => there⟩

theorem of_sessions {conn conn' : Connection η} (same : conn'.sessions = conn.sessions) :
    KeepsIds conn conn' := by
  intro sid sess' live
  rw [same] at live
  exact ⟨sess', live, rfl, fun _ there => there⟩

theorem trans {a b c : Connection η} (first : KeepsIds a b) (second : KeepsIds b c) :
    KeepsIds a c := by
  intro sid sess'' live
  obtain ⟨sess', live', next', trees'⟩ := second sid sess'' live
  obtain ⟨sess, before, next, trees⟩ := first sid sess' live'
  exact ⟨sess, before, next'.trans next, fun tid there => trees tid (trees' tid there)⟩

theorem eraseSession (conn : Connection η) (sid : UInt64) :
    KeepsIds conn { conn with sessions := conn.sessions.erase sid } := by
  intro sid' sess' live
  rw [Table.lookup_erase] at live
  split at live
  · cases live
  · exact ⟨sess', live, rfl, fun _ there => there⟩

theorem modifySession (conn : Connection η) (sid : UInt64) (f : Session η → Session η)
    (next : ∀ sess, (f sess).nextTreeId = sess.nextTreeId)
    (trees : ∀ sess tid, ((f sess).trees.lookup tid).isSome → (sess.trees.lookup tid).isSome) :
    KeepsIds conn (conn.modifySession sid f) := by
  intro sid' sess' live
  rw [Connection.lookup_modifySession] at live
  split at live
  · obtain ⟨sess, before, rfl⟩ := Option.map_eq_some_iff.mp live
    exact ⟨sess, before, next sess, trees sess⟩
  · exact ⟨sess', live, rfl, fun _ there => there⟩

theorem eraseTree (conn : Connection η) (sid : UInt64) (tid : UInt32) :
    KeepsIds conn (conn.modifySession sid fun sess =>
      { sess with trees := sess.trees.erase tid }) := by
  refine modifySession conn sid _ (fun _ => rfl) fun sess tid' there => ?_
  rw [Table.lookup_erase] at there
  split at there
  · cases there
  · exact there

theorem modifyTree (conn : Connection η) (sid : UInt64) (tid : UInt32)
    (f : TreeConnect η → TreeConnect η) : KeepsIds conn (conn.modifyTree sid tid f) := by
  refine modifySession conn sid _ (fun _ => rfl) fun sess tid' there => ?_
  rw [Table.lookup_modify] at there
  split at there
  · rwa [Option.isSome_map] at there
  · exact there

end KeepsIds

theorem Removal.keepsIds {conn conn' : Connection η} (r : Removal conn conn') :
    KeepsIds conn conn' := by
  cases r with
  | session sid => exact .eraseSession conn sid
  | tree sid tid => exact .eraseTree conn sid tid

section
variable [Host σ η] {server : ServerState} {hdr : Smb2Header}

/-- TREE_CONNECT moves a counter, SESSION_SETUP starts one, and that is all. -/
theorem Edit.keepsIds [Crypto] {conn conn' : Connection η} (e : Edit σ server hdr conn conn')
    (noSetup : hdr.command ≠ .sessionSetup) (noConnect : hdr.command ≠ .treeConnect) :
    KeepsIds conn conn' := by
  cases e with
  | preauth | commit => exact .of_sessions rfl
  | exchange _ cmd | sessionId cmd | acceptors _ cmd | logon _ _ _ _ cmd | snapshot _ _ cmd =>
    exact absurd cmd noSetup
  | dropSession sid => exact .eraseSession conn sid
  | treeId _ cmd | addTree _ _ _ _ _ _ cmd => exact absurd cmd noConnect
  | dropTree sid tid => exact .eraseTree conn sid tid
  | register sid tid => exact KeepsIds.trans (.modifyTree conn sid tid _) (.modifyTree _ sid tid _)
  | dropOpen sid tid | disposition sid tid | lastPath sid tid | cursor sid tid =>
    exact .modifyTree conn sid tid _

theorem Edits.keepsIds [Crypto] {conn conn' : Connection η} (edits : Edits σ server hdr conn conn')
    (noSetup : hdr.command ≠ .sessionSetup) (noConnect : hdr.command ≠ .treeConnect) :
    KeepsIds conn conn' := by
  induction edits with
  | refl => exact .refl conn
  | tail _ last ih => exact ih.trans (last.keepsIds noSetup noConnect)

omit [Host σ η] in
/-- Of a request that fails nothing stays but a cursor. -/
theorem Intact.keepsIds {status : NtStatus} {w w' : World σ η} (h : Intact hdr status w w') :
    KeepsIds w.conn w'.conn := by
  rcases h.tables with same | ⟨-, tid, fid, cursor, -, stored⟩
  · exact .of_sessions same
  · exact KeepsIds.trans (.modifyTree w.conn hdr.sessionId tid _) (.of_sessions stored)

/-! ### What a request that succeeds does to the ids -/

theorem SessionSetup.validate_fails (body : Bytes) : NeverSuccess (SessionSetup.validate body) := by
  have blob (b : Bytes) : NeverSuccess (decodeBlob b) := by
    unfold decodeBlob
    repeat' split
    all_goals first
      | exact .error (by decide)
      | exact .ok _
  rw [SessionSetup.validate]
  split
  · exact .error (by decide)
  split
  · exact .error (by decide)
  · exact blob _

/-- A first round is answered with a challenge or a failure. -/
theorem SessionSetup.firstRound_fails (token : SessionSetup.Token) :
    Action.Returns (fun resp => resp.status ≠ statusSuccess)
      (firstRound server token : Action (World σ η) HandlerResponse) := by
  refine .bind fun sid => .bind fun challenge => .bind fun now => ?_
  dsimp only
  cases NtlmServer.step1Negotiate _ token.innerToken with
  | none => exact .pure (by decide)
  | some acceptor =>
    exact .bind fun _ => .pure (show statusMoreProcessingRequired ≠ statusSuccess by decide)

/-- A SESSION_SETUP succeeds with a new session under the id that it names. -/
theorem SessionSetup.handle_success [Crypto] {body : Bytes} (w : World σ η)
    (success : (SessionSetup.handle server hdr body w).1.status = statusSuccess) :
    ∃ outcome dialect, (SessionSetup.handle server hdr body w).2.conn.sessions =
      w.conn.sessions.insert hdr.sessionId (newSession hdr.sessionId outcome dialect) := by
  revert success
  rw [handle]
  cases valid : validate body with
  | error status => exact fun success => absurd success ((validate_fails body).status valid)
  | ok token =>
    dsimp only
    split
    · intro success
      exact absurd success (firstRound_fails token w)
    -- a final round: every way out but the last has a failing status
    · rw [finalRound]
      split
      · intro success
        exact absurd (show statusInvalidParameter = statusSuccess from success) (by decide)
      rw [Action.bind_apply, takeAcceptor]
      -- the exchange begun under the id, if there is one
      cases w.conn.pendingAuths.lookup hdr.sessionId with
      | none =>
        intro success
        exact absurd (show statusUserSessionDeleted = statusSuccess from success) (by decide)
      | some pending =>
        obtain ⟨acceptor, rawForm⟩ := pending
        dsimp only
        -- and whether its credentials match
        cases logon server.users server.anonymousAllowed acceptor token.innerToken with
        | none =>
          intro success
          exact absurd (show statusLogonFailure = statusSuccess from success) (by decide)
        | some outcome =>
          simp only [Action.bind_apply, getConn_apply, World.setConn_conn]
          cases w.conn.dialect with
          | none =>
            intro success
            exact absurd (show statusInvalidParameter = statusSuccess from success) (by decide)
          | some dialect =>
            intro _
            exact ⟨outcome, dialect, rfl⟩

/-- A TREE_CONNECT that is granted returns the id that it takes from the counter. -/
theorem TreeConnect.handle_success {body : Bytes} (w : World σ η)
    (success : (TreeConnect.handle server hdr body w).1.status = statusSuccess) :
    ∃ sess share granted, Grants σ server w.conn hdr body sess share granted ∧
      (TreeConnect.handle server hdr body w).1.overrideTreeId = some sess.nextTreeId := by
  revert success
  rw [TreeConnect.handle]
  cases named : validate body with
  | error status => exact fun success => absurd success ((validate_fails body).status named)
  | ok name =>
    simp only [Action.bind_apply, getConn_apply]
    cases session : lookupSession w.conn hdr.sessionId with
    | error status =>
      exact fun success => absurd success ((lookupSession_fails _ _).status session)
    | ok sess =>
      -- every refusal has a status of its own, so a success went through all four checks
      cases bound : bindShare server name with
      | none =>
        intro success
        exact absurd (show statusBadNetworkName = statusSuccess from success) (by decide)
      | some share =>
        cases access : grantedOn σ server share sess.identity with
        | none =>
          simp only [access]
          intro success
          exact absurd (show statusAccessDenied = statusSuccess from success) (by decide)
        | some granted =>
          simp only [access, Action.bind_apply, Action.pure_apply]
          intro _
          exact ⟨sess, share, granted, ⟨session, ⟨name, named, bound⟩, access⟩, rfl⟩

variable [Crypto]

/-- The header of an element and the response to it, where that says STATUS_SUCCESS. -/
def succeeded (server : ServerState) (frame : Bytes) (ordinal : UInt32) (w : World σ η) :
    Option (Smb2Header × Bytes) := do
  let (hdr, _) ← Smb2Header.parse frame
  let bytes ← (dispatchOne server frame ordinal w).1
  if readU32 bytes 0x08 = statusSuccess then some (hdr, bytes) else none

theorem succeeded_eq_some {frame : Bytes} {ordinal : UInt32} {w : World σ η} {bytes : Bytes} :
    succeeded server frame ordinal w = some (hdr, bytes) ↔
      (∃ body, Smb2Header.parse frame = some (hdr, body)) ∧
        (dispatchOne server frame ordinal w).1 = some bytes ∧
        readU32 bytes 0x08 = statusSuccess := by
  simp only [succeeded, Option.bind_eq_bind, Option.bind_eq_some_iff, Prod.exists,
    Option.ite_none_right_eq_some, Option.some.injEq, Prod.mk.injEq]
  constructor
  · rintro ⟨hdr', body, parsed, bytes', answer, success, rfl, rfl⟩
    exact ⟨⟨body, parsed⟩, answer, success⟩
  · rintro ⟨⟨body, parsed⟩, answer, success⟩
    exact ⟨hdr, body, parsed, bytes, answer, success, rfl, rfl⟩

/-- What an element does to the tree ids of its connection, by the success that it is answered
with. -/
inductive TreeTurn (conn conn' : Connection η) : Option (Smb2Header × Bytes) → Prop where
  | failed (kept : KeepsIds conn conn') : TreeTurn conn conn' none
  | setUp (hdr : Smb2Header) (bytes : Bytes) (cmd : hdr.command = .sessionSetup)
      (mid : Connection η) (sess : Session η) (next : sess.nextTreeId = 1)
      (bare : sess.trees = Table.empty)
      (sessions : mid.sessions = conn.sessions.insert hdr.sessionId sess)
      (kept : KeepsIds mid conn') : TreeTurn conn conn' (some (hdr, bytes))
  | connected (hdr : Smb2Header) (bytes : Bytes) (cmd : hdr.command = .treeConnect)
      (sess : Session η) (share : ShareBindings) (granted : Access)
      (live : conn.sessions.lookup hdr.sessionId = some sess)
      (tid : readU32 bytes 0x24 = sess.nextTreeId)
      (after : conn' = TreeConnect.insertTree hdr.sessionId
        (TreeConnect.new sess.nextTreeId share granted)
        (TreeConnect.allocTreeId hdr.sessionId conn)) : TreeTurn conn conn' (some (hdr, bytes))
  | other (hdr : Smb2Header) (bytes : Bytes) (noSetup : hdr.command ≠ .sessionSetup)
      (noConnect : hdr.command ≠ .treeConnect) (kept : KeepsIds conn conn') :
      TreeTurn conn conn' (some (hdr, bytes))

omit [Host σ η] in
/-- The snapshot keeps the ids. -/
theorem takeSnapshot_keepsIds (resp : HandlerResponse) (p : Option PreauthIntegrity)
    (w : World σ η) : KeepsIds w.conn (takeSnapshot resp p w).2.conn := by
  rw [takeSnapshot]
  cases resp.takePreauthSnapshotForSession with
  | none => exact .refl _
  | some sid =>
    cases p with
    | none => exact .refl _
    | some snap =>
      refine .modifySession w.conn sid _ (fun sess => ?_) fun sess tid there => ?_
      · exact stashSnapshot_nextTreeId snap w.conn sess
      · rwa [stashSnapshot_trees] at there

/-- A SESSION_SETUP that succeeds. -/
theorem runHandler_setUp {frame body : Bytes} (w : World σ η) (cmd : hdr.command = .sessionSetup)
    (success : readU32 (runHandler server hdr frame body w).1 0x08 = statusSuccess) :
    ∃ (mid : Connection η) (sess : Session η), sess.nextTreeId = 1 ∧ sess.trees = Table.empty ∧
      mid.sessions = w.conn.sessions.insert hdr.sessionId sess ∧
      KeepsIds mid (runHandler server hdr frame body w).2.conn := by
  have before := (preauthBefore_ids hdr frame w).sessions
  simp only [runHandler, Action.bind_apply, getConn_apply, Action.pure_apply,
    readU32_status_buildResponseBytes, dispatchCommand, cmd] at success before ⊢
  generalize preauthBefore hdr frame w = prepared at success before ⊢
  obtain ⟨p, w₁⟩ := prepared
  obtain ⟨outcome, dialect, sessions⟩ := SessionSetup.handle_success w₁ success
  rw [before] at sessions
  refine ⟨_, _, rfl, rfl, sessions, ?_⟩
  refine (takeSnapshot_keepsIds (SessionSetup.handle server hdr body w₁).1 p _).trans ?_
  refine .of_sessions ?_
  rw [(preauthAfter_frame _ _ _ _).1, (alike_record _ _ _).conn]

theorem dispatchOne_treeTurn (server : ServerState) (frame : Bytes) (ordinal : UInt32)
    (w : World σ η) : TreeTurn w.conn (dispatchOne server frame ordinal w).2.conn
      (succeeded server frame ordinal w) := by
  cases answered : succeeded server frame ordinal w with
  | none =>
    -- no reply, or one with a failing status
    refine .failed ?_
    cases answer : (dispatchOne server frame ordinal w).1 with
    | none => exact .of_sessions (by rw [(dispatchOne_silent server frame ordinal w answer).conn])
    | some bytes =>
      obtain ⟨_, hdr, _, ⟨body, parsed⟩, -⟩ := dispatchOne_built server frame ordinal w bytes answer
      have failed : readU32 bytes 0x08 ≠ statusSuccess := by
        intro success
        rw [succeeded_eq_some.mpr ⟨⟨body, parsed⟩, answer, success⟩] at answered
        cases answered
      exact (dispatchOne_failed server frame ordinal w _ hdr body bytes parsed
        (Prod.ext answer rfl) failed).keepsIds
  | some reply =>
    obtain ⟨hdr, bytes⟩ := reply
    obtain ⟨⟨body, parsed⟩, answer, success⟩ := succeeded_eq_some.mp answered
    have accepted := accepted_of_success parsed answer success
    -- a success was accepted, so the handler of its command ran; two commands touch the ids
    by_cases setup : hdr.command = .sessionSetup
    · obtain ⟨w₁, before, sent, after⟩ := dispatchOne_handled server frame ordinal w hdr body accepted
      obtain rfl := Option.some.inj (answer.symm.trans sent)
      obtain ⟨mid, sess, next, bare, sessions, kept⟩ := runHandler_setUp w₁ setup success
      rw [before.conn] at sessions
      rw [after]
      exact .setUp hdr _ setup mid sess next bare sessions kept
    by_cases connect : hdr.command = .treeConnect
    · obtain ⟨w₁, before, sent, after⟩ := dispatchOne_answer server frame ordinal w hdr body accepted
        (by simp [connect]) (by simp [connect])
      obtain rfl := Option.some.inj (answer.symm.trans sent)
      simp only [dispatchCommand, connect] at success after ⊢
      rw [readU32_status_buildResponseBytes] at success
      obtain ⟨sess, share, granted, grants, returned⟩ := TreeConnect.handle_success w₁ success
      -- the reply carries the id that was taken from the counter
      have left := grants.handle_conn
      obtain ⟨-, live⟩ := (lookupSession_eq_ok _ _ _).mp grants.session
      rw [before.conn] at left live
      refine .connected hdr _ connect sess share granted live ?_ (after.conn.trans left)
      rw [readU32_treeId_buildResponseBytes, returned, Option.getD_some]
    · refine .other hdr bytes setup connect ?_
      rcases dispatchOne_effect server frame ordinal w with same | ⟨hdr', body', again, effect⟩
      · exact .of_sessions (by rw [same.conn])
      · obtain ⟨rfl, rfl⟩ := Prod.mk.inj (Option.some.inj (parsed.symm.trans again.1))
        exact Edits.keepsIds effect.conn setup connect

end

/-! ### A step and a run -/

section
variable [Host σ η] [Crypto]

/-- The header and the response of an element of the connection that succeeds. -/
def System.success (s : System σ η) (step : Step) (cid : UInt64) : Option (Smb2Header × Bytes) :=
  match step with
  | .element cid' e =>
    if cid' = cid then
      (s.conns.lookup cid).bind fun conn => succeeded s.server e.bytes e.ordinal ⟨conn, s.env⟩
    else none
  | _ => none

/-- A response, in the histories of its connection. -/
def noteReply (hs : UInt64 → ConnectHistory) : Option (Smb2Header × Bytes) → UInt64 → ConnectHistory
  | none => hs
  | some (hdr, bytes) =>
    Function.update hs hdr.sessionId ((hs hdr.sessionId).extend hdr bytes)

/-- Number the TREE_CONNECTs of every session. -/
def countConnects (hs : UInt64 → UInt64 → ConnectHistory) (s : System σ η) (step : Step)
    (cid : UInt64) : UInt64 → ConnectHistory :=
  noteReply (hs cid) (s.success step cid)

/-- A TREE_CONNECT has added a tree with a new id: neither that of a live tree nor 0 nor the one
that related elements inherit by. Every live tree is still there. -/
structure NewTree (conn conn' : Connection η) (sid : UInt64) (tid : UInt32) : Prop where
  unused : conn.findTree sid tid = none
  zero : tid ≠ 0
  wildcard : tid ≠ maxU32
  kept : ∀ tid' tree, conn.findTree sid tid' = some tree → conn'.findTree sid tid' = some tree

/-- The histories of all sessions of a connection. -/
def TracksAll (hs : UInt64 → ConnectHistory) (conn : Connection η) : Prop :=
  ∀ sid sess, conn.sessions.lookup sid = some sess → (hs sid).Tracks sess

/-- The record of every live session is kept. -/
def Counted (p : System σ η × (UInt64 → UInt64 → ConnectHistory)) : Prop :=
  ∀ cid conn, p.1.conns.lookup cid = some conn → TracksAll (p.2 cid) conn

omit [Host σ η] [Crypto] in
theorem TracksAll.kept {hs : UInt64 → ConnectHistory} {conn conn' : Connection η}
    (tracks : TracksAll hs conn) (kept : KeepsIds conn conn') : TracksAll hs conn' := by
  intro sid sess' live
  obtain ⟨sess, before, next, trees⟩ := kept sid sess' live
  exact (tracks sid sess before).fewer next trees

omit [Host σ η] [Crypto] in
/-- What the session of a granted TREE_CONNECT looks like behind it. -/
theorem lookup_insertTree {conn : Connection η} {sid : UInt64} {sess : Session η}
    (live : conn.sessions.lookup sid = some sess) (share : ShareBindings) (granted : Access)
    (sid' : UInt64) :
    (TreeConnect.insertTree sid (TreeConnect.new sess.nextTreeId share granted)
      (TreeConnect.allocTreeId sid conn)).sessions.lookup sid' =
      if sid' = sid then some { sess with
        nextTreeId := sess.nextTreeId + 1
        trees := sess.trees.insert sess.nextTreeId (TreeConnect.new sess.nextTreeId share granted) }
      else conn.sessions.lookup sid' := by
  simp only [TreeConnect.insertTree, TreeConnect.allocTreeId, Connection.lookup_modifySession]
  split
  next same =>
    rw [same, live]
    rfl
  next => rfl

omit [Host σ η] [Crypto] in
/-- One element, by what it does to the ids. -/
theorem TreeTurn.tracksAll {hs : UInt64 → ConnectHistory} {conn conn' : Connection η}
    {reply : Option (Smb2Header × Bytes)} (turn : TreeTurn conn conn' reply)
    (tracks : TracksAll hs conn) :
    TracksAll (noteReply hs reply) conn' := by
  cases turn with
  | failed kept => exact tracks.kept kept
  -- a new session begins with no grant on record
  | setUp hdr bytes cmd mid sess next bare sessions kept =>
    refine @TracksAll.kept _ _ mid _ ?_ kept
    intro sid sess' live
    rw [sessions, Table.lookup_insert] at live
    simp only [noteReply, ConnectHistory.extend, cmd, Function.update_apply]
    split at live
    next same =>
      obtain rfl := Option.some.inj live
      rw [if_pos same]
      exact ConnectHistory.tracks_empty sess next bare
    next other =>
      rw [if_neg other]
      exact tracks sid sess' live
  -- one grant more for the session named, under the id that the reply carries
  | connected hdr bytes cmd sess share granted session tid after =>
    intro sid sess' live
    rw [after, lookup_insertTree session] at live
    simp only [noteReply, ConnectHistory.extend, cmd, tid, Function.update_apply]
    split at live
    next same =>
      obtain rfl := Option.some.inj live
      rw [if_pos same]
      exact (tracks hdr.sessionId sess session).connected _
    next other =>
      rw [if_neg other]
      exact tracks sid sess' live
  -- no other reply is recorded
  | other hdr bytes noSetup noConnect kept =>
    have same : (hs hdr.sessionId).extend hdr bytes = hs hdr.sessionId := by
      unfold ConnectHistory.extend
      split
      next cmd => exact absurd cmd noSetup
      next cmd => exact absurd cmd noConnect
      next => rfl
    rw [noteReply, same, Function.update_eq_self]
    exact tracks.kept kept

/-- A step keeps the record. -/
theorem counted_step (p : System σ η × (UInt64 → UInt64 → ConnectHistory)) (step : Step)
    (inv : Counted p) : Counted (watch System.execute countConnects p step) := by
  obtain ⟨s, hs⟩ := p
  intro cid conn' live
  simp only [watch, countConnects] at live ⊢
  by_cases own : ∃ e, step = .element cid e
  · obtain ⟨e, rfl⟩ := own
    simp only [System.execute, System.lookup_onConn, if_true] at live
    obtain ⟨conn, before, rfl⟩ := Option.map_eq_some_iff.mp live
    simp only [System.success, if_true, before, Option.bind_some]
    exact (dispatchOne_treeTurn s.server e.bytes e.ordinal ⟨conn, s.env⟩).tracksAll
      (inv cid conn before)
  -- any other step says nothing on this connection, and only takes trees away from it
  · have silent : s.success step cid = none := by
      cases step with
      | element cid' e =>
        refine if_neg fun same => own ⟨e, ?_⟩
        rw [same]
      | accept | smb1 | config | hangup => rfl
    rw [silent, noteReply]
    rcases s.execute_lookup step cid conn' live with
      ⟨-, -, rfl⟩ | ⟨conn, before, ⟨e, same, -⟩ | removed⟩
    · intro sid sess session
      cases session
    · exact absurd ⟨e, same⟩ own
    · refine (inv cid conn before).kept ?_
      clear live
      induction removed with
      | refl => exact .refl conn
      | tail _ last ih => exact ih.trans last.keepsIds

omit [Host σ η] [Crypto] in
/-- The id that a TREE_CONNECT takes is new when there is room for it. -/
theorem ConnectHistory.Tracks.newTree_iff {h : ConnectHistory} {conn : Connection η} {sid : UInt64}
    {sess : Session η} (tracks : h.Tracks sess) (session : conn.sessions.lookup sid = some sess)
    (share : ShareBindings) (granted : Access) :
    NewTree conn (TreeConnect.insertTree sid (TreeConnect.new sess.nextTreeId share granted)
      (TreeConnect.allocTreeId sid conn)) sid sess.nextTreeId ↔ h.Room conn sid := by
  have value : sess.nextTreeId.toNat = (h.count + 1) % 2 ^ 32 := by
    rw [tracks.next, UInt32.toNat_ofNat']
  have trees (tid : UInt32) : conn.findTree sid tid = sess.trees.lookup tid := by
    rw [Connection.findTree, session, Option.bind_some]
  -- the id of a live tree is its number modulo 2^32
  have named (tid : UInt32) (live : (sess.trees.lookup tid).isSome) :
      tid.toNat = h.ordinal tid % 2 ^ 32 := by
    rw [← UInt32.toNat_ofNat']
    exact congrArg UInt32.toNat (tracks.ids tid live)
  constructor
  · intro new
    constructor
    · intro zero
      exact new.zero (UInt32.toNat_inj.mp (value.trans zero))
    · intro wildcard
      exact new.wildcard (UInt32.toNat_inj.mp (value.trans wildcard))
    · intro tid live same
      rw [trees] at live
      have taken : tid = sess.nextTreeId :=
        UInt32.toNat_inj.mp ((named tid live).trans (same.symm.trans value.symm))
      rw [taken, ← trees, new.unused] at live
      cases live
  · intro room
    have unused : sess.trees.lookup sess.nextTreeId = none := by
      cases found : sess.trees.lookup sess.nextTreeId with
      | none => rfl
      | some tree =>
        have live : (sess.trees.lookup sess.nextTreeId).isSome := by rw [found]; rfl
        refine absurd ?_ (room.live sess.nextTreeId (by rwa [trees]))
        exact value.symm.trans (named _ live)
    constructor
    · rw [trees, unused]
    · intro zero
      rw [zero] at value
      exact room.zero value.symm
    · intro wildcard
      rw [wildcard] at value
      exact room.wildcard value.symm
    · intro tid' tree there
      rw [trees] at there
      rw [Connection.findTree, lookup_insertTree session, if_pos rfl, Option.bind_some,
        Table.lookup_insert, if_neg]
      · exact there
      · rintro rfl
        rw [unused] at there
        cases there

/-- Over every run, a successful TREE_CONNECT returns the id of a new tree if and only if there is
room for its number; the first 2^32 - 2 of a session have room. -/
theorem treeId_new_iff (server : ServerState) (host : σ) (events : List Event) :
    Always (watch System.execute countConnects)
      (fun (p : System σ η × (UInt64 → UInt64 → ConnectHistory)) step =>
        ∀ cid hdr bytes, p.1.success step cid = some (hdr, bytes) → hdr.command = .treeConnect →
          ∃ conn conn', p.1.conns.lookup cid = some conn ∧
            (p.1.execute step).conns.lookup cid = some conn' ∧
            (NewTree conn conn' hdr.sessionId (readU32 bytes 0x24) ↔
              (p.2 cid hdr.sessionId).Room conn hdr.sessionId) ∧
            ((p.2 cid hdr.sessionId).count < 2 ^ 32 - 2 →
              (p.2 cid hdr.sessionId).Room conn hdr.sessionId))
      (System.start server host, fun _ _ => .empty) ((System.start server host).steps events) := by
  apply Always.of_preserved Counted
  · exact fun p step inv => counted_step p step inv
  · rintro ⟨s, hs⟩ step inv cid hdr bytes success connect
    -- the step is an element of the connection, and its reply is the one in question
    obtain ⟨e, conn, rfl, live, replied⟩ : ∃ e conn, step = .element cid e ∧
        s.conns.lookup cid = some conn ∧
        succeeded s.server e.bytes e.ordinal ⟨conn, s.env⟩ = some (hdr, bytes) := by
      cases step with
      | element cid' e =>
        simp only [System.success, Option.ite_none_right_eq_some] at success
        obtain ⟨rfl, success⟩ := success
        obtain ⟨conn, live, replied⟩ := Option.bind_eq_some_iff.mp success
        exact ⟨e, conn, rfl, live, replied⟩
      | accept | smb1 | config | hangup => cases success
    have turn := dispatchOne_treeTurn s.server e.bytes e.ordinal ⟨conn, s.env⟩
    rw [replied] at turn
    have after : (s.execute (.element cid e)).conns.lookup cid =
        some (dispatchOne s.server e.bytes e.ordinal ⟨conn, s.env⟩).2.conn := by
      rw [System.execute, System.lookup_onConn, if_pos rfl, live, Option.map_some]
    refine ⟨conn, _, live, after, ?_⟩
    cases turn with
    | setUp _ _ cmd => rw [connect] at cmd; cases cmd
    | other _ _ _ noConnect => exact absurd connect noConnect
    | connected _ _ _ sess share granted session tid left =>
      have tracks := inv cid conn live hdr.sessionId sess session
      rw [left, tid]
      exact ⟨tracks.newTree_iff session share granted, fun few => tracks.room session (by omega)⟩
  · intro cid conn live
    cases live

/-- A TREE_CONNECT that is granted succeeds. -/
theorem TreeConnect.Grants.succeeds {server : ServerState} {frame body : Bytes} {ordinal : UInt32}
    {w : World σ η} {hdr : Smb2Header} {sess : Session η} {share : ShareBindings} {granted : Access}
    (h : Grants σ server w.conn hdr body sess share granted)
    (accepted : Accepted w.conn frame hdr body) (cmd : hdr.command = .treeConnect) :
    ∃ bytes, succeeded server frame ordinal w = some (hdr, bytes) ∧
      readU32 bytes 0x24 = sess.nextTreeId := by
  obtain ⟨w₁, before, answer, -⟩ := dispatchOne_answer server frame ordinal w hdr body accepted
    (by simp [cmd]) (by simp [cmd])
  rw [← before.conn] at h
  have granted := h.handle_answer
  simp only [dispatchCommand, cmd] at answer
  refine ⟨_, succeeded_eq_some.mpr ⟨⟨body, accepted.1⟩, answer, ?_⟩, ?_⟩
  · rw [readU32_status_buildResponseBytes, granted]
    rfl
  · rw [readU32_treeId_buildResponseBytes, granted, Option.getD_some]

end

/-! ### The counter comes back to a live tree -/

open scoped Sample

/-- Behind 2^32 - 1 more TREE_CONNECTs the session hands out the id of its first tree again. -/
theorem treeConnect_repeats_id :
    ¬∀ events : List Event, System.Throughout Sample.server () events
      fun (s : System Unit Unit) step => ∀ cid hdr bytes conn conn',
        s.success step cid = some (hdr, bytes) → hdr.command = .treeConnect →
          s.conns.lookup cid = some conn → (s.execute step).conns.lookup cid = some conn' →
            NewTree conn conn' hdr.sessionId (readU32 bytes 0x24) := by
  intro all
  obtain ⟨n, full⟩ : ∃ n, n + 1 = 2 ^ 32 := ⟨2 ^ 32 - 1, by decide⟩
  -- one short of the round: the counter has come back to the id of the first tree
  let s : System Unit Unit := (System.start Sample.server ()).run
    (Sample.openedFile ++ List.replicate n (.frame 1 Sample.connectAgain))
  obtain ⟨conn, sess, waiting⟩ : ∃ conn sess, Sample.Waiting 1 s conn sess := by
    have circled := Sample.waiting_run _ Sample.waiting_openedFile n (by omega)
    have one : UInt32.ofNat (n + 2) = 1 := by
      rw [show n + 2 = 2 ^ 32 + 1 by omega]
      rfl
    rwa [one, ← System.run_append] at circled
  have live : (s.conns.lookup 1).isSome := by rw [waiting.live]; rfl
  -- one TREE_CONNECT more
  have last := (all (Sample.openedFile ++ List.replicate n (.frame 1 Sample.connectAgain) ++
    [.frame 1 Sample.connectAgain])).last live (by decide +kernel)
  obtain ⟨hdr, body, share, granted, accepted, command, sid, grants⟩ := waiting.grants
  have grantsHere : TreeConnect.Grants Unit s.server (⟨conn, s.env⟩ : World Unit Unit).conn hdr
      body _ share granted := grants
  obtain ⟨bytes, succeeds, tid⟩ := grantsHere.succeeds accepted command
  obtain ⟨share', granted', connected⟩ := waiting.connects
  have success : s.success (.element 1 (.single Sample.connectAgain)) 1 = some (hdr, bytes) := by
    rw [System.success, if_pos rfl, waiting.live, Option.bind_some]
    exact succeeds
  have new := (last 1 hdr bytes conn _ success command waiting.live connected).unused
  -- the first tree still holds its open file, so the id was in use
  obtain ⟨tree, fid, file, there, -⟩ := waiting.holds
  rw [tid, waiting.next, sid, Connection.findTree, waiting.session, Option.bind_some, there] at new
  cases new

end SmbServer
