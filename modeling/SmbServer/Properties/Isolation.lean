import SmbServer.Client
import SmbServer.Effects.Isolation

/-!
# SmbServer.Properties.Isolation

What one element of a frame can touch.

Main result: `isolation`. In every run an element either does nothing or executes its request, and
the request stays with the tree that its header names: backend calls go to the share of that tree,
handle calls to a handle registered in it or, for CREATE, to the one just opened, and every other
tree and session is as it was. LOGOFF stays with its session. The condition is that the request
takes no id that is in use.

The condition can fail: a tree id is drawn from a counter of 32 bits that is never compared with the
ids of the live trees, and `treeConnect_replaces_tree` follows one session through the whole circle
until a TREE_CONNECT puts an empty tree in place of one with an open file.

Proof strategy: `dispatchOne_isolated` for one element; for the counterexample one TREE_CONNECT of a
waiting session (`Waiting.step`) and an induction over their number.
-/

namespace SmbServer

open Lib

section
variable {σ η : Type} [Host σ η] [Crypto]

namespace System

/-- What one element leaves behind: other connections are untouched, and its own is untouched too
or has executed its request within the reach of its header. -/
structure Isolates (s : System σ η) (cid : UInt64) (e : Element) : Prop where
  others : ∀ other, other ≠ cid →
    (s.execute (.element cid e)).conns.lookup other = s.conns.lookup other
  own : ∀ conn, s.conns.lookup cid = some conn → ∃ conn' new,
    (s.execute (.element cid e)).conns.lookup cid = some conn' ∧
      (s.execute (.element cid e)).env.calls = s.env.calls ++ new ∧
      ((conn' = conn ∧ new = []) ∨ ∃ hdr body, Accepted conn e.bytes hdr body ∧
        if hdr.command = .logoff then OwnSession hdr conn new conn'
        else Isolated hdr conn new conn')

theorem execute_isolates (s : System σ η) (cid : UInt64) (e : Element)
    (fresh : ∀ conn hdr body, s.Executes (.element cid e) conn hdr body →
      ¬ReusesId σ s.server conn hdr body) : s.Isolates cid e := by
  constructor
  · intro other apart
    rw [execute, lookup_onConn, if_neg apart]
  · intro conn live
    have here : (s.execute (.element cid e)).conns.lookup cid =
        some (dispatchOne s.server e.bytes e.ordinal ⟨conn, s.env⟩).2.conn := by
      rw [execute, lookup_onConn, if_pos rfl, live, Option.map_some]
    have calls : (s.execute (.element cid e)).env.calls =
        (dispatchOne s.server e.bytes e.ordinal ⟨conn, s.env⟩).2.env.calls := by
      rw [execute, onConn_of_some s cid _ conn live]
    rw [here, calls]
    rcases dispatchOne_effect s.server e.bytes e.ordinal ⟨conn, s.env⟩ with
      same | ⟨hdr, body, accepted, -⟩
    · exact ⟨_, [], rfl, by rw [same.calls, List.append_nil], .inl ⟨same.conn, rfl⟩⟩
    by_cases logoff : hdr.command = .logoff
    · obtain ⟨new, grown, own⟩ := dispatchOne_logoff s.server e.ordinal accepted logoff
      exact ⟨_, new, rfl, grown, .inr ⟨hdr, body, accepted, by rwa [if_pos logoff]⟩⟩
    · obtain ⟨new, grown, isolated⟩ := dispatchOne_isolated s.server e.ordinal accepted logoff
        (fresh conn hdr body ⟨cid, e, rfl, live, accepted⟩)
      exact ⟨_, new, rfl, grown, .inr ⟨hdr, body, accepted, by rwa [if_neg logoff]⟩⟩

end System

/-- In every run, an element whose request takes no id in use stays within the reach of its
header. -/
theorem isolation (server : ServerState) (host : σ) (events : List Event) :
    System.Throughout server host events fun (s : System σ η) step =>
      ∀ cid e, step = .element cid e →
        (∀ conn hdr body, s.Executes step conn hdr body → ¬ReusesId σ s.server conn hdr body) →
        s.Isolates cid e := by
  apply System.Throughout.of_invariant (fun _ => True) server host events trivial
    (fun _ _ inv => inv)
  rintro s step - cid e rfl fresh
  exact s.execute_isolates cid e fresh

end

/-! ### A session that comes full circle -/

namespace Sample

open scoped Sample

/-- An anonymous client opens a file on the writable share. -/
def openedFile : List Event :=
  session (anonymousOn ['w'] ++
    [Client.plain .create 1 1 (Client.createBody Create.fileReadData 1 0 ['x'])])

/-- Another TREE_CONNECT to the same share. -/
def connectAgain : Bytes :=
  Client.plain .treeConnect 1 0 (Client.treeConnectBody ['\\', '\\', 's', '\\', 'w'])

/-- The session has its open file in tree 1, and `next` is the tree id it would hand out. -/
structure Waiting (next : UInt32) (s : System Unit Unit) (conn : Connection Unit)
    (sess : Session Unit) : Prop where
  server : s.server = Sample.server
  live : s.conns.lookup 1 = some conn
  session : conn.sessions.lookup 1 = some sess
  anonymous : sess.identity = .anonymous
  next : sess.nextTreeId = next
  holds : ∃ tree fid file, sess.trees.lookup 1 = some tree ∧ tree.opens.lookup fid = some file

theorem run_frames_server (frames : List Bytes) (s : System Unit Unit) :
    (s.run (frames.map (.frame 1))).server = s.server := by
  induction frames generalizing s with
  | nil => rfl
  | cons frame rest ih =>
    rw [List.map_cons, System.run_cons, ih]
    exact System.onConn_server s 1 (dispatchFrame s.server frame)

theorem waiting_openedFile :
    ∃ conn sess, Waiting 2 ((System.start Sample.server ()).run openedFile) conn sess := by
  have reached : (((System.start Sample.server () : System Unit Unit).run
      openedFile).conns.lookup 1).any (fun conn => (conn.sessions.lookup 1).any fun sess =>
        sess.identity == .anonymous && sess.nextTreeId == 2 &&
          (sess.trees.lookup 1).any fun tree => (tree.opens.lookup ⟨1, 1⟩).isSome) = true := by
    decide +kernel
  simp only [Option.any_eq_true, Bool.and_eq_true, beq_iff_eq] at reached
  obtain ⟨conn, live, sess, session, ⟨anonymous, next⟩, tree, there, here⟩ := reached
  obtain ⟨file, here⟩ := Option.isSome_iff_exists.mp here
  have server : ((System.start Sample.server ()).run openedFile : System Unit Unit).server =
      Sample.server := by
    rw [openedFile, Sample.session, System.run_cons, run_frames_server]
    rfl
  exact ⟨conn, sess, server, live, session, anonymous, next, tree, ⟨1, 1⟩, file, there, here⟩

/-- The request of the frame. -/
theorem connectAgain_request :
    ∃ hdr body, Smb2Header.parse (Element.single connectAgain).bytes = some (hdr, body) ∧
      hdr.command = .treeConnect ∧ hdr.sessionId = 1 ∧ hdr.treeId = some 0 ∧
      hasFlag hdr.flags smb2FlagsSigned = false ∧ TreeConnect.validate body = .ok ['w'] := by
  have parsed : (Smb2Header.parse (Element.single connectAgain).bytes).any (fun found =>
      found.1.command == .treeConnect && found.1.sessionId == 1 && found.1.treeId == some 0 &&
        hasFlag found.1.flags smb2FlagsSigned == false &&
          (TreeConnect.validate found.2).toOption == some ['w']) = true := by
    decide +kernel
  simp only [Option.any_eq_true, Bool.and_eq_true, beq_iff_eq, Prod.exists] at parsed
  obtain ⟨hdr, body, parsed, ⟨⟨⟨command, sid⟩, tid⟩, unsigned⟩, named⟩ := parsed
  refine ⟨hdr, body, parsed, command, sid, tid, unsigned, ?_⟩
  cases valid : TreeConnect.validate body with
  | error status =>
    rw [valid] at named
    cases named
  | ok name =>
    rw [valid] at named
    exact congrArg Except.ok (Option.some.inj named)

/-- The TREE_CONNECT is granted, whatever trees there are. -/
theorem Waiting.grants {next : UInt32} {s : System Unit Unit} {conn : Connection Unit}
    {sess : Session Unit} (h : Waiting next s conn sess) :
    ∃ hdr body share granted, Accepted conn (Element.single connectAgain).bytes hdr body ∧
      hdr.command = .treeConnect ∧ hdr.sessionId = 1 ∧
      TreeConnect.Grants Unit s.server conn hdr body sess share granted := by
  obtain ⟨hdr, body, parsed, command, sid, -, unsigned, named⟩ := connectAgain_request
  have accepted : Accepted conn (Element.single connectAgain).bytes hdr body := by
    refine ⟨parsed, ?_, by simp [command]⟩
    rw [verifyRequestSignature, if_neg (by simp [command]), sid, if_neg (by decide)]
    simp only [h.session, unsigned, Bool.false_eq_true, if_false, command, h.anonymous,
      Identity.isAnonymous, not_true, and_false]
  have bound : (TreeConnect.bindShare Sample.server ['w']).any (fun share =>
      (TreeConnect.grantedOn Unit Sample.server share .anonymous).isSome) = true := by
    decide +kernel
  simp only [Option.any_eq_true] at bound
  obtain ⟨share, bound, access⟩ := bound
  obtain ⟨granted, access⟩ := Option.isSome_iff_exists.mp access
  refine ⟨hdr, body, share, granted, accepted, command, sid, ?_⟩
  refine ⟨?_, ⟨['w'], named, by rw [h.server]; exact bound⟩, ?_⟩
  · rw [sid]
    exact (lookupSession_eq_ok conn 1 sess).mpr ⟨by decide, h.session⟩
  · rw [h.server, h.anonymous]
    exact access

/-- It takes the next tree id. -/
theorem Waiting.connects {next : UInt32} {s : System Unit Unit} {conn : Connection Unit}
    {sess : Session Unit} (h : Waiting next s conn sess) :
    ∃ share granted, (s.execute (.element 1 (.single connectAgain))).conns.lookup 1 =
      some (TreeConnect.insertTree 1 (TreeConnect.new next share granted)
        (TreeConnect.allocTreeId 1 conn)) := by
  obtain ⟨hdr, body, share, granted, accepted, command, sid, grants⟩ := h.grants
  obtain ⟨w₁, before, after⟩ := dispatchOne_of_accepted s.server _ 0 ⟨conn, s.env⟩ hdr body accepted
    (by simp [command]) (by simp [command])
  rw [← show w₁.conn = conn from before.conn] at grants
  refine ⟨share, granted, ?_⟩
  simp only [dispatchCommand, command] at after
  rw [System.execute, System.lookup_onConn, if_pos rfl, h.live, Option.map_some]
  refine congrArg some (after.conn.trans ?_)
  rw [grants.handle_conn, before.conn, sid, h.next]

/-- The session that a TREE_CONNECT leaves. -/
theorem lookup_connected (conn : Connection Unit) (sess : Session Unit)
    (session : conn.sessions.lookup 1 = some sess) (tree : TreeConnect Unit) :
    (TreeConnect.insertTree 1 tree (TreeConnect.allocTreeId 1 conn)).sessions.lookup 1 =
      some { sess with
        nextTreeId := sess.nextTreeId + 1
        trees := sess.trees.insert tree.id tree } := by
  rw [TreeConnect.insertTree, TreeConnect.allocTreeId, Connection.lookup_modifySession,
    if_pos rfl, Connection.lookup_modifySession, if_pos rfl, session]
  rfl

/-- Until its counter comes to 1, the session keeps its open file. -/
theorem Waiting.step {next : UInt32} {s : System Unit Unit} {conn : Connection Unit}
    {sess : Session Unit} (h : Waiting next s conn sess) (other : next ≠ 1) :
    ∃ conn' sess', Waiting (next + 1) (s.step (.frame 1 connectAgain)) conn' sess' := by
  have live : (s.conns.lookup 1).isSome := by rw [h.live]; rfl
  obtain ⟨alone, -⟩ := s.expand_single 1 connectAgain live (by decide +kernel)
  obtain ⟨share, granted, connected⟩ := h.connects
  obtain ⟨tree, fid, file, there, here⟩ := h.holds
  rw [System.step_eq, alone, runAll_cons, runAll_nil]
  refine ⟨_, _, ?_, connected, lookup_connected conn sess h.session _, h.anonymous, ?_, ?_⟩
  · rw [System.execute, System.onConn_server, h.server]
  · rw [h.next]
  · refine ⟨tree, fid, file, ?_, here⟩
    rw [Table.lookup_insert, if_neg]
    · exact there
    · exact fun same => other same.symm

/-- After `n` more TREE_CONNECTs, while there are less than the counter has values. -/
theorem waiting_run (s : System Unit Unit) (first : ∃ conn sess, Waiting 2 s conn sess) (n : Nat)
    (few : n < 2 ^ 32) :
    ∃ conn sess, Waiting (UInt32.ofNat (n + 2))
      (s.run (List.replicate n (.frame 1 connectAgain))) conn sess := by
  induction n with
  | zero => exact first
  | succ n ih =>
    obtain ⟨conn, sess, waiting⟩ := ih (by omega)
    have other : UInt32.ofNat (n + 2) ≠ 1 := by
      intro same
      have values : (n + 2) % 2 ^ 32 = 1 := congrArg UInt32.toNat same
      omega
    obtain ⟨conn', sess', next⟩ := waiting.step other
    rw [List.replicate_succ', System.run_append, System.run_cons, System.run_nil]
    refine ⟨conn', sess', ?_⟩
    rw [UInt32.ofNat_add (n + 2) 1] at *
    exact next

end Sample

open scoped Sample

/-- The tree with the open file is replaced: it is not the tree that the TREE_CONNECT names. -/
theorem treeConnect_replaces_tree :
    ¬∀ events : List Event, System.Throughout Sample.server () events
      fun (s : System Unit Unit) step => ∀ cid e, step = .element cid e → s.Isolates cid e := by
  intro all
  obtain ⟨n, full⟩ : ∃ n, n + 1 = 2 ^ 32 := ⟨2 ^ 32 - 1, by decide⟩
  let s : System Unit Unit := (System.start Sample.server ()).run
    (Sample.openedFile ++ List.replicate n (.frame 1 Sample.connectAgain))
  obtain ⟨conn, sess, waiting⟩ : ∃ conn sess, Sample.Waiting 1 s conn sess := by
    have circled := Sample.waiting_run _ Sample.waiting_openedFile n (by omega)
    have one : UInt32.ofNat (n + 2) = 1 := by
      rw [show n + 2 = 2 ^ 32 + 1 by omega]
      rfl
    rwa [one, ← System.run_append] at circled
  have live : (s.conns.lookup 1).isSome := by rw [waiting.live]; rfl
  have last := (all (Sample.openedFile ++ List.replicate n (.frame 1 Sample.connectAgain) ++
    [.frame 1 Sample.connectAgain])).last live (by decide +kernel)
  obtain ⟨conn', new, here, -, outcome⟩ := (last 1 _ rfl).own conn waiting.live
  obtain ⟨share, granted, connected⟩ := waiting.connects
  obtain rfl := Option.some.inj (connected.symm.trans here)
  obtain ⟨tree, fid, file, there, inside⟩ := waiting.holds
  have before : conn.findTree 1 1 = some tree := by
    rw [Connection.findTree, waiting.session, Option.bind_some, there]
  have after : (TreeConnect.insertTree 1 (TreeConnect.new 1 share granted)
      (TreeConnect.allocTreeId 1 conn)).findTree 1 1 = some (TreeConnect.new 1 share granted) := by
    rw [Connection.findTree, Sample.lookup_connected conn sess waiting.session, Option.bind_some]
    exact Table.lookup_insert_self _ _ _
  -- the new tree has no opens
  have differ : (some (TreeConnect.new 1 share granted) : Option (TreeConnect Unit)) ≠ some tree := by
    intro same
    rw [← Option.some.inj same] at inside
    cases inside
  rcases outcome with ⟨same, -⟩ | ⟨hdr, body, accepted, reach⟩
  · rw [same, before] at after
    exact differ after.symm
  obtain ⟨hdr', body', parsed, command, sid, tid, -, -⟩ := Sample.connectAgain_request
  obtain ⟨rfl, rfl⟩ := Prod.mk.inj (Option.some.inj (parsed.symm.trans accepted.1))
  rw [if_neg (by simp [command])] at reach
  have kept := reach.confined.trees 1 (by rw [tid]; decide)
  rw [sid, after, before] at kept
  rcases kept with same | ⟨-, gone, -⟩
  · exact differ same
  · cases gone

end SmbServer
