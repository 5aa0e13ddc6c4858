import SmbServer.Effects.Handles

/-!
# SmbServer.Properties.HandleProtocol

The promises that the `Handle` trait makes to backend authors.

Main result:

  Over every run, a handle is closed at most once and not called behind that, `list_dir` goes to
  directories only, and `truncate` to no directory, if and only if no SET_INFO for the end of file
  is executed through an open of a directory.

  The first two hold of every run. SET_INFO never looks at `is_directory`.

Proof strategy: the handles of all live opens and the handles that the record has closed are
different numbers below the next one (`Accounts`). Therefore a call through an open finds its handle
not closed, and a handle names its open.
-/

namespace SmbServer

open Lib

section

variable {σ η : Type} [Host σ η] [Crypto]

namespace System

/-- The handles of all live opens. -/
def held (s : System σ η) : Multiset Nat := s.conns.collect Connection.held

/-- A live open, by the number of its handle. -/
def Recorded (s : System σ η) (n : Nat) (file : Open η) : Prop :=
  ∃ cid conn sid tid fid h, s.conns.lookup cid = some conn ∧
    conn.findOpen sid tid fid = some file ∧ file.handle = some h ∧ h.serial = n

/-- The calls that a step makes. -/
def newCalls (s : System σ η) (step : Step) : List Issued :=
  (s.execute step).env.calls.drop s.env.calls.length

/-- The step lists directories only. -/
def ListsDirectories (s : System σ η) (step : Step) : Prop :=
  ∀ c ∈ s.newCalls step, ∀ n pattern, c.call = .listDir n pattern →
    ∃ file, s.Recorded n file ∧ file.isDirectory = true

/-- The step truncates no directory. -/
def TruncatesFiles (s : System σ η) (step : Step) : Prop :=
  ∀ c ∈ s.newCalls step, ∀ n len, c.call = .truncate n len →
    ∀ file, s.Recorded n file → file.isDirectory = false

/-- The step executes a SET_INFO for the end of file through an open of a directory. -/
def ResizesDirectory (s : System σ η) (step : Step) : Prop :=
  ∃ conn hdr body target h len, s.Executes step conn hdr body ∧
    SetInfo.Reaches conn hdr body target (.truncate h len) ∧ target.file.isDirectory = true

end System

/-- What a run promises a backend. -/
structure HandleProtocol (server : ServerState) (host : σ) (events : List Event) : Prop where
  closedOnce : handleLedger.ClosedOnce
    ((System.start server host : System σ η).run events).env.calls
  listing : System.Throughout (η := η) server host events System.ListsDirectories
  truncating : System.Throughout (η := η) server host events System.TruncatesFiles

/-! ### The account of a system -/

/-- Every handle is held by one live open, or closed, or lost with its connection. -/
def System.Accounted (s : System σ η) : Prop := Balanced s.held s.env

omit [Host σ η] [Crypto] in
theorem accounted_start (server : ServerState) (host : σ) :
    (System.start server host : System σ η).Accounted :=
  Ledger.balanced_nil 0

omit [Host σ η] [Crypto] in
theorem accounted_onConn {α : Type} (s : System σ η) (cid : UInt64) (m : Action (World σ η) α)
    (moves : Action.Moves Accounts m) (inv : s.Accounted) : (s.onConn cid m).2.Accounted := by
  cases live : s.conns.lookup cid with
  | none => rwa [System.onConn_of_none s cid m live]
  | some conn =>
    rw [System.onConn_of_some s cid m conn live]
    have before : s.held = (s.conns.erase cid).collect Connection.held + conn.held :=
      Table.collect_erase _ cid conn _ live
    rw [System.Accounted, before] at inv
    have after := moves ⟨conn, s.env⟩ _ inv
    rwa [System.Accounted, System.held, Table.collect_modify _ cid conn _ _ live]

omit [Host σ η] [Crypto] in
theorem accounted_onEach (s : System σ η) (m : Action (World σ η) Unit)
    (moves : Action.Moves Accounts m) (inv : s.Accounted) : (s.onEach m).Accounted := by
  rw [System.onEach]
  generalize s.conns.keys = cids
  induction cids generalizing s with
  | nil => exact inv
  | cons cid rest ih => exact ih _ (accounted_onConn s cid m moves inv)

theorem accounted_execute (s : System σ η) (step : Step) (inv : s.Accounted) :
    (s.execute step).Accounted := by
  cases step with
  -- a new connection holds no handle
  | accept =>
    refine Ledger.Balanced.mono inv ?_ (Nat.le_refl _)
    have less := Table.collect_insert_le s.conns s.nextConnId (Connection.new s.nextConnId
      s.server.config.serverGuid s.server.config.maxReadSize s.server.config.maxWriteSize)
      Connection.held
    rwa [show (Connection.new s.nextConnId s.server.config.serverGuid s.server.config.maxReadSize
      s.server.config.maxWriteSize : Connection η).held = 0 from rfl, add_zero] at less
  | element cid e => exact accounted_onConn s cid _ (accounts_dispatchOne _ _ _) inv
  -- an SMB1 greeting takes and gives no handle
  | smb1 cid chosen =>
    refine accounted_onConn s cid _ (fun w => ?_) inv
    obtain ⟨conn, calls, handles⟩ := smb1_frame s.server chosen w
    exact accounts_of_uses (by rw [conn]) ⟨[], by simp [calls]⟩ (Nat.le_of_eq handles.symm)
  | config op =>
    simp only [System.execute, System.configure]
    split
    · exact inv
    next server sweep _ =>
      exact accounted_onEach _ _ (accounts_sweep sweep) inv
  -- a connection that is gone leaves its handles unclosed: fewer are held than were given
  | hangup cid =>
    exact Ledger.Balanced.mono inv (Table.collect_erase_le _ _ _) (Nat.le_refl _)

omit [Host σ η] [Crypto] in
/-- A handle names its open. -/
theorem System.Recorded.unique {s : System σ η} (inv : s.Accounted) {n : Nat}
    {file file' : Open η} (h : s.Recorded n file) (h' : s.Recorded n file') : file = file' := by
  obtain ⟨cid, conn, sid, tid, fid, b, live, found, handle, rfl⟩ := h
  obtain ⟨cid', conn', sid', tid', fid', b', live', found', handle', same⟩ := h'
  obtain ⟨tree, under, here⟩ := Option.bind_eq_some_iff.mp found
  obtain ⟨sess, session, inside⟩ := Option.bind_eq_some_iff.mp under
  obtain ⟨tree', under', here'⟩ := Option.bind_eq_some_iff.mp found'
  obtain ⟨sess', session', inside'⟩ := Option.bind_eq_some_iff.mp under'
  have own : b.serial ∈ file.held := by simp [Open.held, handle]
  have own' : b.serial ∈ file'.held := by simp [Open.held, handle', same]
  have inTree : b.serial ∈ tree.held := Multiset.mem_of_le (Table.le_collect _ _ _ _ here) own
  have inTree' : b.serial ∈ tree'.held := Multiset.mem_of_le (Table.le_collect _ _ _ _ here') own'
  have inSess : b.serial ∈ sess.held := Multiset.mem_of_le (Table.le_collect _ _ _ _ inside) inTree
  have inSess' : b.serial ∈ sess'.held :=
    Multiset.mem_of_le (Table.le_collect _ _ _ _ inside') inTree'
  have inConn : b.serial ∈ conn.held := Multiset.mem_of_le (Table.le_collect _ _ _ _ session) inSess
  have inConn' : b.serial ∈ conn'.held :=
    Multiset.mem_of_le (Table.le_collect _ _ _ _ session') inSess'
  -- no number is held twice, so the two paths agree key by key
  have nodup : s.held.Nodup := Ledger.Balanced.nodup inv
  obtain rfl := Table.key_unique_of_nodup nodup live live' inConn inConn'
  obtain rfl := Option.some.inj (live.symm.trans live')
  replace nodup := Multiset.nodup_of_le (Table.le_collect _ _ _ Connection.held live) nodup
  obtain rfl := Table.key_unique_of_nodup nodup session session' inSess inSess'
  obtain rfl := Option.some.inj (session.symm.trans session')
  replace nodup := Multiset.nodup_of_le (Table.le_collect _ _ _ Session.held session) nodup
  obtain rfl := Table.key_unique_of_nodup nodup inside inside' inTree inTree'
  obtain rfl := Option.some.inj (inside.symm.trans inside')
  replace nodup := Multiset.nodup_of_le (Table.le_collect _ _ _ TreeConnect.held inside) nodup
  obtain rfl := Table.key_unique_of_nodup nodup here here' own own'
  exact Option.some.inj (here.symm.trans here')

/-! ### One step -/

/-- The calls of a step, and what warrants them. -/
theorem newCalls_warranted (s : System σ η) (step : Step) (c : Issued)
    (member : c ∈ s.newCalls step) :
    Closing c ∨ ∃ conn hdr body, s.Executes step conn hdr body ∧
      Warrant conn s.env.nextHandle hdr body c := by
  obtain ⟨new, grown, warranted⟩ := s.execute_calls step
  rw [System.newCalls, grown, List.drop_left] at member
  exact warranted c member

omit [Host σ η] in
/-- The open that an executed request names. -/
theorem Names.recorded {s : System σ η} {step : Step} {conn : Connection η} {hdr : Smb2Header}
    {body : Bytes} {target : Target η} {n : Nat} (executes : s.Executes step conn hdr body)
    (h : Names conn hdr target n) : s.Recorded n target.file := by
  obtain ⟨cid, e, -, live, -⟩ := executes
  obtain ⟨fid, b, found, handle, rfl⟩ := h
  exact ⟨cid, conn, hdr.sessionId, target.tid, fid, b, live,
    findOpen_of_lookupTarget conn hdr fid target found, handle, rfl⟩

theorem listsDirectories (s : System σ η) (step : Step) : s.ListsDirectories step := by
  intro c member n pattern call
  rcases newCalls_warranted s step c member with ⟨serial, closing⟩ | ⟨conn, hdr, body, executes, h⟩
  · rw [call] at closing
    cases closing
  · simp only [Warrant, call] at h
    obtain ⟨target, names, directory⟩ := h
    exact ⟨target.file, names.recorded executes, directory⟩

theorem truncatesFiles_iff (s : System σ η) (step : Step) (inv : s.Accounted) :
    s.TruncatesFiles step ↔ ¬s.ResizesDirectory step := by
  constructor
  -- the request makes the call, on the handle of its open
  · rintro files ⟨conn, hdr, body, target, h, len, executes, reaches, directory⟩
    have names := reaches.names h (.inr ⟨len, rfl⟩)
    have recorded := names.recorded executes
    obtain ⟨cid, e, rfl, live, accepted⟩ := executes
    have calls := dispatchOne_setInfo s.server e.bytes e.ordinal ⟨conn, s.env⟩ hdr body accepted
      target _ reaches
    have made : (⟨target.origin hdr.sessionId, .truncate h.serial len⟩ : Issued) ∈
        s.newCalls (.element cid e) := by
      simp only [System.newCalls, System.execute, System.onConn_of_some s cid _ conn live, calls,
        List.drop_left, SetInfo.Operation.call, Option.toList_some, List.map_cons, List.map_nil,
        List.mem_singleton]
    have file := files _ made h.serial len rfl target.file recorded
    rw [directory] at file
    cases file
  -- the call has a request behind it, on an open with that handle, and there is one such open
  · intro never c member n len call file recorded
    rcases newCalls_warranted s step c member with
      ⟨serial, closing⟩ | ⟨conn, hdr, body, executes, h⟩
    · rw [call] at closing
      cases closing
    · simp only [Warrant, call] at h
      obtain ⟨target, b, reaches, -, rfl⟩ := h
      have names := reaches.names b (.inr ⟨len, rfl⟩)
      obtain rfl := recorded.unique inv (names.recorded executes)
      by_contra directory
      exact never ⟨conn, hdr, body, target, b, len, executes, reaches, by simpa using directory⟩

/-! ### Runs -/

/-- The promises to a backend are kept in exactly the runs that never set the end of file of a
directory. -/
theorem handleProtocol_iff (server : ServerState) (host : σ) (events : List Event) :
    HandleProtocol (η := η) server host events ↔
      System.Throughout server host events fun (s : System σ η) step => ¬s.ResizesDirectory step := by
  have accounted := accounted_start (σ := σ) (η := η) server host
  have truncating : System.Throughout (η := η) server host events System.TruncatesFiles ↔
      System.Throughout server host events fun (s : System σ η) step => ¬s.ResizesDirectory step :=
    Always.congr System.Accounted _ _ accounted
      (fun s step _ inv => truncatesFiles_iff s step inv)
      (fun s step _ inv _ => accounted_execute s step inv)
  refine ⟨fun h => truncating.mp h.truncating, fun never => ⟨?_, ?_, truncating.mpr never⟩⟩
  · rw [System.run_eq]
    exact (runAll_invariant System.Accounted _ _ accounted accounted_execute).once
  · exact System.Throughout.of_invariant (fun _ => True) server host events trivial
      (fun _ _ _ => trivial) fun s step _ => listsDirectories s step

end

/-! ### The end of file of a directory -/

open scoped Sample

/-- An application whose handles know whether they are directories. -/
structure Sample.Folders where

namespace Sample

scoped instance folders : Host Folders Bool where
  capabilities _ := ⟨false, true, true⟩
  «open» _ _ opts s := (.ok opts.directory, s)
  unlink _ _ s := (.ok (), s)
  rename _ _ _ _ s := (.ok (), s)
  read _ _ _ s := (.ok [], s)
  writeOwned _ _ data s := (.ok (UInt32.ofNat data.length), s)
  flush _ s := (.ok (), s)
  stat directory s := (.ok { fileInfo with isDirectory := directory }, s)
  setTimes _ _ s := (.ok (), s)
  truncate _ _ s := (.ok (), s)
  listDir _ _ s := (.ok [], s)
  close _ s := (.ok (), s)
  fillRandom n s := (ByteVec.zero n, s)
  nowFiletime s := (0, s)

/-- A directory is created, and its end of file is set. -/
def createDirectory : List Event :=
  session (anonymousOn ['w'] ++ [Client.plain .create 1 1
    (Client.createBody 0x00010000 2 Create.fileDirectoryFile ['d'])])

def resizeDirectory : Bytes :=
  Client.plain .setInfo 1 1 (Client.setInfoBody InfoClass.fileEndOfFileInformation ⟨1, 1⟩ (u64le 0))

end Sample

/-- The handle of the directory is truncated. -/
theorem directory_truncated :
    ¬∀ events : List Event, HandleProtocol (η := Bool) Sample.server Sample.Folders.mk events := by
  intro all
  have reached : let s : System Sample.Folders Bool :=
        (System.start Sample.server Sample.Folders.mk).run Sample.createDirectory
      ((s.conns.lookup 1).any fun conn => (conn.findOpen 1 1 ⟨1, 1⟩).any fun file =>
        file.isDirectory && file.handle.any (·.serial == 0)) = true ∧
      (s.newCalls (.element 1 (.single Sample.resizeDirectory))).any
        (·.call == .truncate 0 0) = true := by
    decide +kernel
  have last := ((all (Sample.createDirectory ++ [.frame 1 Sample.resizeDirectory])).truncating).last
    (by decide +kernel) (by decide +kernel)
  obtain ⟨directory, truncated⟩ := reached
  obtain ⟨conn, live, found⟩ := (Option.any_eq_true _ _).mp directory
  obtain ⟨file, here, shape⟩ := (Option.any_eq_true _ _).mp found
  rw [Bool.and_eq_true] at shape
  obtain ⟨h, handle, zero⟩ := (Option.any_eq_true _ _).mp shape.2
  obtain ⟨c, made, call⟩ := List.any_eq_true.mp truncated
  have recorded : System.Recorded _ 0 file :=
    ⟨1, conn, 1, 1, ⟨1, 1⟩, h, live, here, handle, beq_iff_eq.mp zero⟩
  have isFile := last c made 0 0 (beq_iff_eq.mp call) file recorded
  rw [shape.1] at isFile
  cases isFile

end SmbServer
