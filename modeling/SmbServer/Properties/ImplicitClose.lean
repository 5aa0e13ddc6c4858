import SmbServer.Effects.Teardown
import SmbServer.Properties.SignedResponse

/-!
# SmbServer.Properties.ImplicitClose

Main result: over every run, a TREE_DISCONNECT, a LOGOFF and a configuration operation leave the
backend as CLOSE requests for the same opens would, exactly when none of these opens is marked for
deletion. The implicit end of an open closes its handle and never unlinks.

Proof strategy: both ways of ending opens are folds over the opens they name (`Ended` for the
implicit one, `closeEach_host` for the requests); the folds agree on unmarked opens, and the record
of calls tells them apart on a marked one.
-/

namespace SmbServer

open Lib

variable {σ η : Type} [Host σ η]

/-! ### CLOSE requests -/

theorem closeBody_parse (fid : FileId) :
    CloseRequest.parse (Client.closeBody fid) = some ⟨24, 0, 0, fid⟩ := by
  have split : Client.closeBody fid =
      u16le 24 ++ (u16le 0 ++ (u32le 0 ++ (fid.write ++ []))) := by
    simp only [Client.closeBody, List.append_assoc, List.append_nil]
  simp only [CloseRequest.parse, Reader.parse, StateT.run, bind, StateT.bind, split,
    Reader.u16_append, Reader.u32_append, FileId.read_append, Reader.pure_apply, Option.bind_some,
    Option.map_some]

/-- The CLOSE request for one open. -/
def closeRequest [Crypto] (server : ServerState) (k : OpenKey) :
    Action (World σ η) HandlerResponse :=
  dispatchCommand server (Client.header .close 0 k.session k.tree) (Client.closeBody k.file)

omit [Host σ η] in
theorem opened_erase (conn : Connection η) (k k' : OpenKey) (other : k' ≠ k) :
    (conn.modifyOpens k.session k.tree fun opens => opens.erase k.file).opened k' =
      conn.opened k' := by
  simp only [Connection.opened, Connection.modifyOpens, Connection.findTree_modifyTree]
  split
  next same =>
    have otherFile : k'.file ≠ k.file := by
      intro sameFile
      obtain ⟨sid, tid, fid⟩ := k
      obtain ⟨sid', tid', fid'⟩ := k'
      exact other (by simp only [OpenKey.mk.injEq]; exact ⟨same.1, same.2, sameFile⟩)
    cases conn.findTree k'.session k'.tree with
    | none => rfl
    | some tree =>
      simp only [Option.map_some, Option.bind_some, Table.lookup_erase, otherFile, if_false]
  next => rfl

/-- A CLOSE ends the open that it names and no other. -/
theorem closeRequest_spec [Crypto] (server : ServerState) (k : OpenKey) (w : World σ η)
    (o : Opened η) (nonzero : k.session ≠ 0) (found : w.conn.opened k = some o) :
    (closeRequest server k w).2.env.host = o.closeExplicit w.env.host ∧
      (closeRequest server k w).2.conn =
        w.conn.modifyOpens k.session k.tree fun opens => opens.erase k.file := by
  obtain ⟨tree, there, here⟩ := Option.bind_eq_some_iff.mp found
  obtain ⟨file, live, rfl⟩ := Option.map_eq_some_iff.mp here
  let target : Target η := ⟨k.tree, tree, file⟩
  -- the header and the body that the client builds pass every check
  have admitted : Close.validate w.conn (Client.header .close 0 k.session k.tree)
      (Client.closeBody k.file) = .ok (⟨24, 0, 0, k.file⟩, target) := by
    have looked : lookupTarget w.conn (Client.header .close 0 k.session k.tree) k.file =
        .ok target :=
      (lookupTarget_eq_ok _ _ _ _).mpr
        ⟨(lookupSessionTree_eq_ok _ _ _ _).mpr ⟨rfl, nonzero, there⟩, live⟩
    simp only [Close.validate, closeBody_parse, looked]
    rfl
  -- the flags ask for no attributes, so the backend is not asked for any
  have noAttrs : Close.wantAttrs ⟨24, 0, 0, k.file⟩ = false :=
    show ((0 : UInt16) &&& Close.flagPostqueryAttrib != 0) = false by decide
  have quiet (origin : Origin) (w' : World σ η) :
      Close.infoBeforeClose ⟨24, 0, 0, k.file⟩ origin file.handle w' = (none, w') := by
    simp only [Close.infoBeforeClose, noAttrs]
    rfl
  have recorded (event : TraceEvent) := alike_record server.traceSink event
    (w.setConn (w.conn.modifyOpens k.session k.tree fun opens => opens.erase k.file))
  have handler : closeRequest server k w =
      Close.perform server k.session ⟨24, 0, 0, k.file⟩ target w := by
    show Close.handle server _ _ w = _
    simp only [Close.handle, Action.bind_apply, getConn_apply, admitted]
    rfl
  rw [handler]
  simp only [Close.perform, Action.bind_apply, modifyConn_apply, target, quiet]
  -- with and without a backend handle, marked for deletion or not
  cases handle : file.handle with
  | none =>
    cases marked : file.deleteOnClose <;>
      simp [Opened.closeExplicit, Opened.closeImplicit, handle, marked, backendUnlink, (recorded _).host,
        (recorded _).conn]
  | some h =>
    cases marked : file.deleteOnClose <;>
      simp [Opened.closeExplicit, Opened.closeImplicit, handle, marked, backendUnlink, (recorded _).host,
        (recorded _).conn, Boxed.close]

/-! ### The ways of ending opens -/

namespace System

/-- The open of a name on a connection. -/
def opened (s : System σ η) (k : UInt64 × OpenKey) : Option (Opened η) :=
  (s.conns.lookup k.1).bind fun conn => conn.opened k.2

/-- Names of one connection, as names of the system. -/
def keysOn (s : System σ η) (cid : UInt64) (keys : Connection η → List OpenKey) :
    List (UInt64 × OpenKey) :=
  match s.conns.lookup cid with
  | some conn => (keys conn).map fun k => (cid, k)
  | none => []

/-- One CLOSE request after another. -/
def closeEach [Crypto] (s : System σ η) (order : List (UInt64 × OpenKey)) : System σ η :=
  order.foldl (fun s k => (s.onConn k.1 (closeRequest s.server k.2)).2) s

/-- The calls made between two states of a run. -/
def callsBetween (s s' : System σ η) : List BackendCall :=
  (s'.env.calls.map Issued.call).drop s.env.calls.length

end System

/-- What ends opens without a CLOSE. -/
inductive Teardown where
  | treeDisconnect (conn : UInt64) (hdr : Smb2Header)
  | logoff (conn : UInt64) (hdr : Smb2Header)
  | configure (op : ConfigOp)

namespace Teardown

variable [Crypto]

def perform (s : System σ η) : Teardown → System σ η
  | .treeDisconnect cid hdr => (s.onConn cid (TreeDisconnect.handle hdr)).2
  | .logoff cid hdr => (s.onConn cid (Logoff.handle hdr)).2
  | .configure op => (s.configure op).2

/-- The opens of the trees and sessions that are taken down. -/
def keys (s : System σ η) : Teardown → List (UInt64 × OpenKey)
  | .treeDisconnect cid hdr => s.keysOn cid fun conn =>
    match hdr.treeId with
    | some tid => conn.treeKeys hdr.sessionId tid
    | none => []
  | .logoff cid hdr => s.keysOn cid fun conn => conn.sessionKeys hdr.sessionId
  | .configure op =>
    match s.server.edit op with
    | .ok (_, sweep) => s.conns.keys.flatMap fun cid => s.keysOn cid fun conn => sweep.keys conn
    | .error _ => []

/-- The backend is left as by CLOSE requests for the opens, in some order: every handle of theirs
is closed, and every marked one has its file unlinked. -/
structure LikeCloses (t : Teardown) (s : System σ η) : Prop where
  backend : ∃ order, order.Perm (t.keys s) ∧ (t.perform s).env.host = (s.closeEach order).env.host
  closed : ∀ k ∈ t.keys s, ∀ o, s.opened k = some o → ∀ call, o.closing = some call →
    call ∈ s.callsBetween (t.perform s)
  unlinked : ∀ k ∈ t.keys s, ∀ o, s.opened k = some o → o.file.deleteOnClose = true →
    .unlink o.backend o.file.lastPath ∈ s.callsBetween (t.perform s)

/-- No open that is taken down is marked for deletion. -/
def Unmarked (t : Teardown) (s : System σ η) : Prop :=
  ∀ k ∈ t.keys s, ∀ o, s.opened k = some o → o.file.deleteOnClose = false

end Teardown

/-! ### The implicit end -/

namespace System

omit [Host σ η] in
theorem opened_keysOn (s : System σ η) (cid : UInt64) (keys : Connection η → List OpenKey)
    (conn : Connection η) (live : s.conns.lookup cid = some conn) :
    (s.keysOn cid keys).filterMap s.opened = (keys conn).filterMap conn.opened := by
  simp only [keysOn, live, List.filterMap_map, Function.comp_def, opened, Option.bind_some]

theorem ended_onConn {α : Type} (s : System σ η) (cid : UInt64) (m : Action (World σ η) α)
    (keys : Connection η → List OpenKey)
    (ends : ∀ conn, s.conns.lookup cid = some conn →
      Ended ((keys conn).filterMap conn.opened) s.env (m ⟨conn, s.env⟩).2.env) :
    Ended ((s.keysOn cid keys).filterMap s.opened) s.env (s.onConn cid m).2.env := by
  cases live : s.conns.lookup cid with
  | none =>
    simp only [onConn_of_none s cid m live, keysOn, live, List.filterMap_nil]
    exact .refl s.env
  | some conn =>
    rw [onConn_of_some s cid m conn live, opened_keysOn s cid keys conn live]
    exact ends conn live

/-- An action on every connection ends on each what it ends there alone. -/
theorem ended_onEach (s : System σ η) (m : Action (World σ η) Unit)
    (keys : Connection η → List OpenKey)
    (ends : ∀ w, Ended ((keys w.conn).filterMap w.conn.opened) w.env (m w).2.env) :
    Ended ((s.conns.keys.flatMap fun cid => s.keysOn cid keys).filterMap s.opened) s.env
      (s.onEach m).env := by
  rw [onEach]
  have nodup := s.conns.nodup_keys
  generalize s.conns.keys = cids at nodup
  induction cids generalizing s with
  | nil => exact .refl s.env
  | cons cid rest ih =>
    obtain ⟨fresh, nodup⟩ := List.nodup_cons.mp nodup
    have here := ended_onConn s cid m keys fun conn _ => ends ⟨conn, s.env⟩
    have later := ih (s.onConn cid m).2 nodup
    -- the connections that are still to come have not been touched
    have kept : ((rest.flatMap fun cid' => (s.onConn cid m).2.keysOn cid' keys).filterMap
        (s.onConn cid m).2.opened) =
        (rest.flatMap fun cid' => s.keysOn cid' keys).filterMap s.opened := by
      simp only [List.filterMap_flatMap]
      refine List.flatMap_congr fun cid' member => ?_
      have other : cid' ≠ cid := by
        rintro rfl
        exact fresh member
      have same := lookup_onConn s cid cid' m
      rw [if_neg other] at same
      cases live : s.conns.lookup cid' with
      | none => simp only [keysOn, same, live, List.filterMap_nil]
      | some conn =>
        rw [opened_keysOn s cid' keys conn live,
          opened_keysOn _ cid' keys conn (same.trans live)]
    rw [kept] at later
    rw [List.flatMap_cons, List.filterMap_append]
    exact here.trans later

end System

section
variable [Crypto]

/-- No connection has a session under the number zero. -/
abbrev NoSessionZero (s : System σ η) : Prop :=
  s.Conns fun _ conn => conn.sessions.lookup 0 = none

theorem ended_perform (t : Teardown) (s : System σ η) (noZero : NoSessionZero s) :
    Ended ((t.keys s).filterMap s.opened) s.env (t.perform s).env := by
  cases t with
  | treeDisconnect cid hdr =>
    refine System.ended_onConn s cid _ _ fun conn live => ?_
    rw [TreeDisconnect.handle]
    cases hdr.treeId with
    | none => exact .refl s.env
    | some tid =>
      simp only [Action.bind_apply, getConn_apply]
      cases session : lookupSession conn hdr.sessionId with
      | error status =>
        -- without the session there is no tree, and nothing to end
        have gone : conn.findTree hdr.sessionId tid = none := by
          cases found : conn.sessions.lookup hdr.sessionId with
          | none => rw [Connection.findTree, found, Option.bind_none]
          | some sess =>
            have nonzero : hdr.sessionId ≠ 0 :=
              Connection.session_ne_zero (noZero cid conn live) found
            rw [(lookupSession_eq_ok conn hdr.sessionId sess).mpr ⟨nonzero, found⟩] at session
            cases session
        simp only [Connection.treeKeys, gone]
        exact .refl s.env
      | ok sess =>
        have removed := ended_removeTree hdr.sessionId tid ⟨conn, s.env⟩
        simp only [Connection.closeTree, Action.bind_apply]
        split <;> exact removed
  | logoff cid hdr =>
    refine System.ended_onConn s cid _ _ fun conn live => ?_
    rw [Logoff.handle]
    split
    -- no session has the id 0
    next zero =>
      simp only [Connection.sessionKeys, zero, noZero cid conn live]
      exact .refl s.env
    next => exact ended_closeSession hdr.sessionId ⟨conn, s.env⟩
  | configure op =>
    simp only [Teardown.keys, Teardown.perform, System.configure]
    cases s.server.edit op with
    | error e => exact .refl s.env
    | ok edited =>
      obtain ⟨server, sweep⟩ := edited
      exact System.ended_onEach { s with server := server } sweep.onConnection
        (fun conn => sweep.keys conn) (ended_sweep sweep)

omit [Host σ η] in
/-- The names that a teardown goes over are of live opens, each named once. -/
theorem Teardown.mem_keys (t : Teardown) (s : System σ η) (k : UInt64 × OpenKey)
    (member : k ∈ t.keys s) : ∃ o, s.opened k = some o := by
  -- from one connection to the system
  have lift (cid : UInt64) (keys : Connection η → List OpenKey)
      (live : ∀ conn k, k ∈ keys conn → ∃ o, conn.opened k = some o)
      (member : k ∈ s.keysOn cid keys) : ∃ o, s.opened k = some o := by
    rw [System.keysOn] at member
    cases found : s.conns.lookup cid with
    | none => simp [found] at member
    | some conn =>
      simp only [found, List.mem_map] at member
      obtain ⟨k', here, rfl⟩ := member
      obtain ⟨o, there⟩ := live conn k' here
      exact ⟨o, by rw [System.opened, found, Option.bind_some, there]⟩
  cases t with
  | treeDisconnect cid hdr =>
    refine lift cid _ (fun conn k' here => ?_) member
    split at here
    next tid _ => exact (conn.mem_treeKeys hdr.sessionId tid k' here).2.2
    next => cases here
  | logoff cid hdr =>
    exact lift cid _ (fun conn k' here => (conn.mem_sessionKeys _ k' here).2) member
  | configure op =>
    simp only [keys] at member
    split at member
    next server sweep _ =>
      obtain ⟨cid, -, here⟩ := List.mem_flatMap.mp member
      exact lift cid _ (fun conn k' listed => sweep.mem_keys conn k' listed) here
    next => cases member

omit [Host σ η] in
theorem Teardown.nodup_keys (t : Teardown) (s : System σ η) : (t.keys s).Nodup := by
  have lift (cid : UInt64) (keys : Connection η → List OpenKey)
      (nodup : ∀ conn, (keys conn).Nodup) : (s.keysOn cid keys).Nodup := by
    rw [System.keysOn]
    split
    · exact (nodup _).map fun k k' same => (Prod.mk.inj same).2
    · exact List.nodup_nil
  cases t with
  | treeDisconnect cid hdr =>
    refine lift cid _ fun conn => ?_
    split
    · exact conn.nodup_treeKeys _ _
    · exact List.nodup_nil
  | logoff cid hdr => exact lift cid _ fun conn => conn.nodup_sessionKeys _
  | configure op =>
    simp only [keys]
    split
    next server sweep _ =>
      refine nodup_flatMap_of_label Prod.fst s.conns.nodup_keys
        (fun cid _ => lift cid _ fun conn => sweep.nodup_keys conn) fun cid _ k member => ?_
      rw [System.keysOn] at member
      split at member
      · obtain ⟨k', -, rfl⟩ := List.mem_map.mp member
        rfl
      · cases member
    next => exact List.nodup_nil

/-! ### The explicit end -/

/-- A CLOSE request for a live open, on the connection that it names. -/
theorem closeOne_spec (s : System σ η) (k : UInt64 × OpenKey) (o : Opened η)
    (noZero : NoSessionZero s) (found : s.opened k = some o) :
    (s.onConn k.1 (closeRequest s.server k.2)).2.env.host = o.closeExplicit s.env.host ∧
      NoSessionZero (s.onConn k.1 (closeRequest s.server k.2)).2 ∧
      ∀ k', k' ≠ k → (s.onConn k.1 (closeRequest s.server k.2)).2.opened k' = s.opened k' := by
  obtain ⟨conn, live, here⟩ := Option.bind_eq_some_iff.mp found
  obtain ⟨tree, there, -⟩ := Option.bind_eq_some_iff.mp here
  obtain ⟨sess, session, -⟩ := Option.bind_eq_some_iff.mp there
  have nonzero : k.2.session ≠ 0 := Connection.session_ne_zero (noZero k.1 conn live) session
  obtain ⟨host, after⟩ := closeRequest_spec s.server k.2 ⟨conn, s.env⟩ o nonzero here
  refine ⟨?_, ?_, ?_⟩
  · rw [System.onConn_of_some s k.1 _ conn live]
    exact host
  -- the CLOSE changes the session it names, which is not the session 0
  · intro cid conn' found'
    rw [System.lookup_onConn] at found'
    split at found'
    next same =>
      subst same
      rw [live, Option.map_some, Option.some.injEq] at found'
      rw [← found', after, Connection.modifyOpens, Connection.modifyTree,
        Connection.lookup_modifySession, noZero _ conn live]
      split <;> rfl
    next => exact noZero cid conn' found'
  -- no other open is named by the same connection and the same key
  · intro k' other
    rw [System.opened, System.lookup_onConn, System.opened]
    split
    next same =>
      rw [same, live, Option.map_some, Option.bind_some, Option.bind_some, after]
      refine opened_erase conn k.2 k'.2 fun sameKey => other ?_
      exact Prod.ext same sameKey
    next => rfl

theorem closeEach_host (order : List (UInt64 × OpenKey)) (s : System σ η)
    (noZero : NoSessionZero s) (nodup : order.Nodup)
    (live : ∀ k ∈ order, ∃ o, s.opened k = some o) :
    (s.closeEach order).env.host =
      (order.filterMap s.opened).foldl Opened.closeExplicit s.env.host := by
  induction order generalizing s with
  | nil => rfl
  | cons k rest ih =>
    obtain ⟨fresh, nodup⟩ := List.nodup_cons.mp nodup
    obtain ⟨o, found⟩ := live k List.mem_cons_self
    obtain ⟨host, noZero', others⟩ := closeOne_spec s k o noZero found
    -- the opens that come later are the same before and after the first CLOSE
    have apart (k' : UInt64 × OpenKey) (member : k' ∈ rest) :
        (s.onConn k.1 (closeRequest s.server k.2)).2.opened k' = s.opened k' :=
      others k' fun same => fresh (same ▸ member)
    have later := ih (s.onConn k.1 (closeRequest s.server k.2)).2 noZero' nodup
      fun k' member => by
        rw [apart k' member]
        exact live k' (List.mem_cons_of_mem k member)
    rw [List.filterMap_congr apart, host] at later
    rw [List.filterMap_cons, found, List.foldl_cons]
    exact later

/-! ### One and the other -/

omit [Crypto] in
/-- On unmarked opens both ways of ending them are the same. -/
theorem foldl_closeExplicit (opened : List (Opened η))
    (unmarked : ∀ o ∈ opened, o.file.deleteOnClose = false) (host : σ) :
    opened.foldl Opened.closeExplicit host = opened.foldl Opened.closeImplicit host := by
  induction opened generalizing host with
  | nil => rfl
  | cons o rest ih =>
    have here : o.closeExplicit host = o.closeImplicit host := by
      rw [Opened.closeExplicit, unmarked o List.mem_cons_self]
      rfl
    rw [List.foldl_cons, List.foldl_cons, here]
    exact ih (fun o' member => unmarked o' (List.mem_cons_of_mem o member)) _

omit [Crypto] in
/-- The calls of an implicit end. -/
theorem Ended.callsBetween {opened : List (Opened η)} {s s' : System σ η}
    (h : Ended opened s.env s'.env) : s.callsBetween s' = opened.filterMap Opened.closing := by
  rw [System.callsBetween, h.calls, ← List.length_map (f := Issued.call), List.drop_left]

/-- In one state, a teardown does what CLOSE requests do exactly when it meets no marked open. -/
theorem Teardown.likeCloses_iff (t : Teardown) (s : System σ η) (noZero : NoSessionZero s) :
    t.LikeCloses s ↔ t.Unmarked s := by
  have ended := ended_perform t s noZero
  constructor
  · intro like k member o found
    by_contra marked
    have unlinked := like.unlinked k member o found (by simpa using marked)
    rw [ended.callsBetween] at unlinked
    obtain ⟨o', -, closing⟩ := List.mem_filterMap.mp unlinked
    obtain ⟨h, -, absurd⟩ := Option.map_eq_some_iff.mp closing
    cases absurd
  · intro unmarked
    refine ⟨⟨t.keys s, .refl _, ?_⟩, ?_, ?_⟩
    · rw [ended.host, closeEach_host _ s noZero (t.nodup_keys s) (t.mem_keys s)]
      refine (foldl_closeExplicit _ (fun o member => ?_) _).symm
      obtain ⟨k, listed, found⟩ := List.mem_filterMap.mp member
      exact unmarked k listed o found
    · intro k member o found call closing
      rw [ended.callsBetween]
      exact List.mem_filterMap.mpr ⟨o, List.mem_filterMap.mpr ⟨k, member, found⟩, closing⟩
    · intro k member o found marked
      rw [unmarked k member o found] at marked
      cases marked

theorem noSessionZero_run (server : ServerState) (host : σ) (events : List Event) :
    NoSessionZero ((System.start server host : System σ η).run events) := by
  rw [System.run_eq]
  exact runAll_invariant _ _ _ (fun _ _ found => nomatch found) noSessionZero_execute

/-- In every state that a server reaches, a TREE_DISCONNECT, a LOGOFF or a configuration operation
leaves the backend as CLOSE requests would exactly when it takes down no marked open. -/
theorem implicitClose_iff (server : ServerState) (host : σ) (events : List Event) (t : Teardown) :
    t.LikeCloses ((System.start server host : System σ η).run events) ↔
      t.Unmarked ((System.start server host : System σ η).run events) :=
  t.likeCloses_iff _ (noSessionZero_run server host events)

end

/-! ### TREE_DISCONNECT -/

open scoped Sample

/-- An open marked for deletion by its CREATE. -/
def Sample.markedOpen : List Event :=
  Sample.session (Sample.anonymousOn ['w'] ++
    [Client.plain .create 1 1 (Client.createBody 0x00010000 2 Create.fileDeleteOnClose ['f'])])

/-- A TREE_DISCONNECT of its tree leaves the file behind. -/
theorem treeDisconnect_unlinks_nothing :
    ¬∀ (events : List Event) (t : Teardown),
      t.LikeCloses ((System.start Sample.server () : System Unit Unit).run events) := by
  intro all
  let t : Teardown := .treeDisconnect 1 (Client.header .treeDisconnect 0 1 1)
  have marked : (t.keys ((System.start Sample.server () : System Unit Unit).run
      Sample.markedOpen)).any (fun k =>
        (((System.start Sample.server () : System Unit Unit).run Sample.markedOpen).opened k).any
          (·.file.deleteOnClose)) = true := by decide +kernel
  have unmarked := (t.likeCloses_iff _ (noSessionZero_run Sample.server () Sample.markedOpen)).mp
    (all Sample.markedOpen t)
  obtain ⟨k, member, found⟩ := List.any_eq_true.mp marked
  obtain ⟨o, here, deletes⟩ := (Option.any_eq_true _ _).mp found
  rw [unmarked k member o here] at deletes
  cases deletes

end SmbServer
