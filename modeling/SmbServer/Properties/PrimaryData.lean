import SmbServer.Effects.Handles
import SmbServer.Effects.Trees
import SmbServer.Client

/-!
# SmbServer.Properties.PrimaryData

Paths with a stream selector on a backend that does not store named streams, so that it takes them
for the path of the file itself.

Main result:

  Over every run, no call opens, renames or deletes such a path on such a backend, and none goes
  through a handle so opened, if and only if whenever an executed CREATE, or a SET_INFO of the
  name, asks for one there, the backend refuses it.

Proof strategy: no handler looks at the capability, so an admitted request that names a stream
reaches the backend. While every one of them is refused, no open remembers a path with a stream on
such a backend; hence a rename has none as its source, and a CLOSE deletes none.
-/

namespace SmbServer

open Lib

section

variable {σ η : Type} [Host σ η]

/-- The backend does not keep the streams of a file apart from it. -/
def BackendRef.Streamless (σ : Type) {η : Type} [Host σ η] (backend : BackendRef) : Prop :=
  (backend.capabilities σ).supportsNamedStreams = false

/-- The call opens a handle under a path with a stream selector, on a backend without streams. -/
inductive Issued.OpensStream (σ : Type) {η : Type} [Host σ η] (serial : Nat) : Issued → Prop where
  | intro (origin : Origin) (backend : BackendRef) (path : SmbPath) (opts : OpenOptions)
      (streamless : backend.Streamless σ) (named : path.stream ≠ none) :
      OpensStream σ serial ⟨origin, .open backend path opts (some serial)⟩

/-- The call acts on a file that was asked for as one of its streams. `calls` is the record that
the call is part of, `host` the application as the request found it. -/
inductive Issued.TouchesPrimary (calls : List Issued) (host : σ) : Issued → Prop where
  | opened (c : Issued) (serial : Nat) (opens : c.OpensStream σ serial) :
      TouchesPrimary calls host c
  | renamed (origin : Origin) (backend : BackendRef) (src dst : SmbPath) (replace : Bool)
      (streamless : backend.Streamless σ) (named : src.stream ≠ none ∨ dst.stream ≠ none)
      (done : (backend.rename src dst replace host).1 = .ok ()) :
      TouchesPrimary calls host ⟨origin, .rename backend src dst replace⟩
  | unlinked (origin : Origin) (backend : BackendRef) (path : SmbPath)
      (streamless : backend.Streamless σ) (named : path.stream ≠ none) :
      TouchesPrimary calls host ⟨origin, .unlink backend path⟩
  | through (c o : Issued) (serial : Nat) (handle : c.call.handle = some serial)
      (recorded : o ∈ calls) (opens : o.OpensStream σ serial) : TouchesPrimary calls host c

/-- No call of the step acts on a file that was asked for as one of its streams. -/
def System.SparesPrimary [Crypto] (s : System σ η) (step : Step) : Prop :=
  ∀ new, (s.execute step).env.calls = s.env.calls ++ new →
    ∀ c ∈ new, ¬c.TouchesPrimary (s.execute step).env.calls s.env.host

/-- The request names a stream on a backend without streams, which carries it out. -/
inductive ReachesPrimary (conn : Connection η) (hdr : Smb2Header) (body : Bytes) (host : σ) :
    Prop where
  | create (plan : Create.Plan η) (inner : η) (cmd : hdr.command = .create)
      (admitted : Create.validate conn hdr body = .ok plan)
      (streamless : plan.tree.share.backend.Streamless σ) (named : plan.path.stream ≠ none)
      (opened : (plan.tree.share.backend.open plan.path plan.opts host).1 = .ok inner)
  | rename (target : Target η) (dst : SmbPath) (replace : Bool)
      (reaches : SetInfo.Reaches conn hdr body target (.rename dst replace))
      (streamless : target.tree.share.backend.Streamless σ) (named : dst.stream ≠ none)
      (done : (target.tree.share.backend.rename target.file.lastPath dst replace host).1 = .ok ())

/-! ### The paths that opens remember -/

/-- An open on a backend without streams remembers a path without a stream. -/
def RemembersFile (σ : Type) {η : Type} [Host σ η] (share : ShareBindings) (file : Open η) : Prop :=
  share.backend.Streamless σ → file.lastPath.stream = none

/-- So far nothing was opened as a stream that is none, and no open is about to be taken for one. -/
structure System.Plain (s : System σ η) : Prop where
  calls : ∀ c ∈ s.env.calls, ∀ serial, ¬c.OpensStream σ serial
  opens : s.Conns fun _ conn => conn.EachTree (TreeConnect.EachOpen (RemembersFile σ))

/-- The open that a request names. -/
theorem System.Plain.target {s : System σ η} (plain : s.Plain) {cid : UInt64}
    {conn : Connection η} (live : s.conns.lookup cid = some conn) {hdr : Smb2Header}
    {fid : FileId} {target : Target η} (found : lookupTarget conn hdr fid = .ok target) :
    RemembersFile σ target.tree.share target.file := by
  obtain ⟨tree, file⟩ := (lookupTarget_eq_ok conn hdr fid target).mp found
  obtain ⟨-, -, there⟩ := (lookupSessionTree_eq_ok conn hdr target.tid target.tree).mp tree
  exact plain.opens cid conn live _ _ _ there fid target.file file

theorem System.Plain.start (server : ServerState) (host : σ) :
    (System.start server host : System σ η).Plain := by
  constructor
  · intro c member
    cases member
  · intro cid conn found
    cases found

variable [Crypto]

omit [Crypto] in
/-- A CREATE registers the path that it has opened. -/
theorem plain_created (w w' : World σ η) (hdr : Smb2Header) (body : Bytes)
    (cmd : hdr.command = .create) (plan : Create.Plan η)
    (admitted : Create.validate w.conn hdr body = .ok plan)
    (outcome : Create.Outcome hdr.sessionId plan w w')
    (refused : ¬ReachesPrimary w.conn hdr body w.env.host)
    (plain : w.conn.EachTree (TreeConnect.EachOpen (RemembersFile σ))) :
    w'.conn.EachTree (TreeConnect.EachOpen (RemembersFile σ)) := by
  cases outcome with
  | refused _ conn => exact conn.symm ▸ plain
  | abandoned _ _ _ conn => exact conn.symm ▸ plain
  -- the open that is new: its path has no stream, or the request has reached the file
  | registered inner info opened _ conn =>
    obtain ⟨found, -⟩ := Create.validate_eq_ok w.conn hdr body plan admitted
    obtain ⟨-, -, there⟩ := (lookupSessionTree_eq_ok w.conn hdr plan.tid plan.tree).mp found
    rw [conn]
    have counted := plain.modifyTree hdr.sessionId plan.tid
      (fun tree => { tree with nextVolatile := tree.nextVolatile + 1 }) fun tree _ good => good
    refine counted.modifyTree _ _ _ fun tree here good => good.insert _ _ ?_
    intro streamless
    rw [Connection.findTree_modifyTree, if_pos ⟨rfl, rfl⟩, there] at here
    obtain rfl := Option.some.inj here
    by_contra named
    exact refused (.create plan inner cmd admitted streamless named opened)

omit [Crypto] in
theorem plain_setInfo (w : World σ η) (hdr : Smb2Header) (body : Bytes)
    (cmd : hdr.command = .setInfo) (conn' : Connection η)
    (leaves : SetInfo.Leaves hdr body w conn')
    (refused : ¬ReachesPrimary w.conn hdr body w.env.host)
    (plain : w.conn.EachTree (TreeConnect.EachOpen (RemembersFile σ))) :
    conn'.EachTree (TreeConnect.EachOpen (RemembersFile σ)) := by
  cases leaves with
  | same => exact plain
  | disposition sid tid fid flag =>
    exact plain.modifyTree _ _ _ fun tree _ good => good.modify fid _ fun file _ keeps => keeps
  | renamed req target dst replace admitted decoded done =>
    obtain ⟨-, -, found⟩ := (SetInfo.validate_eq_ok w.conn hdr body req target).mp admitted
    obtain ⟨tree, -⟩ := (lookupTarget_eq_ok w.conn hdr req.fileId target).mp found
    obtain ⟨-, -, there⟩ := (lookupSessionTree_eq_ok w.conn hdr target.tid target.tree).mp tree
    refine plain.modifyTree _ _ _ fun tree here good => good.modify _ _ fun file _ _ => ?_
    intro streamless
    obtain rfl := Option.some.inj (there.symm.trans here)
    by_contra named
    exact refused (.rename target dst replace ⟨cmd, req, admitted, decoded⟩ streamless named done)

/-! ### A step -/

namespace System

/-- The calls of a step. -/
private theorem new_of_calls {s : System σ η} {step : Step} {new new' : List Issued}
    (grown : (s.execute step).env.calls = s.env.calls ++ new)
    (grown' : (s.execute step).env.calls = s.env.calls ++ new') : new = new' :=
  List.append_cancel_left (grown.symm.trans grown')

/-- While no request reaches a file through a stream, nothing is opened as a stream. -/
theorem no_stream_opened (s : System σ η) (step : Step) (new : List Issued)
    (grown : (s.execute step).env.calls = s.env.calls ++ new)
    (refused : ∀ (conn : Connection η) hdr body, s.Executes step conn hdr body →
      ¬ReachesPrimary conn hdr body s.env.host) :
    ∀ c ∈ new, ∀ serial, ¬c.OpensStream σ serial := by
  intro c member serial opens
  obtain ⟨new', grown', warranted⟩ := s.execute_calls step
  obtain rfl := new_of_calls grown grown'
  obtain ⟨origin, backend, path, opts, streamless, named⟩ := opens
  rcases warranted _ member with ⟨_, closing⟩ | ⟨conn, hdr, body, executes, warrant⟩
  · cases closing
  obtain ⟨plan, cmd, admitted, rfl, rfl, rfl, rfl, -⟩ := warrant
  have none := refused conn hdr body executes
  obtain ⟨cid, e, rfl, live, accepted⟩ := executes
  simp only [execute, onConn_of_some s cid _ conn live] at grown
  have outcome := dispatchOne_created s.server e.bytes e.ordinal ⟨conn, s.env⟩ hdr body accepted
    cmd plan admitted
  cases outcome with
  | refused _ _ calls =>
    obtain rfl := List.append_cancel_left (grown.symm.trans calls)
    cases List.mem_singleton.mp member
  | abandoned inner opened | registered inner info opened =>
    exact none (.create plan inner cmd admitted streamless named opened)

/-- While no request reaches a file through a stream, the state stays plain. -/
theorem Plain.execute {s : System σ η} {step : Step} (plain : s.Plain)
    (refused : ∀ (conn : Connection η) hdr body, s.Executes step conn hdr body →
      ¬ReachesPrimary conn hdr body s.env.host) : (s.execute step).Plain := by
  constructor
  -- the calls that the step adds open no stream
  · obtain ⟨new, grown, -⟩ := s.execute_calls step
    have fresh := s.no_stream_opened step new grown refused
    rw [grown]
    exact List.forall_mem_append.mpr ⟨plain.calls, fresh⟩
  intro cid conn' found
  rcases s.execute_lookup step cid conn' found with
    ⟨-, -, rfl⟩ | ⟨conn, live, ⟨e, rfl, rfl⟩ | removed⟩
  · exact .new _ _ _ _
  · have before := plain.opens cid conn live
    rcases dispatchOne_effect s.server e.bytes e.ordinal ⟨conn, s.env⟩ with
      same | ⟨hdr, body, accepted, run⟩
    · exact same.conn.symm ▸ before
    have none := refused conn hdr body ⟨cid, e, rfl, live, accepted⟩
    -- two commands change the path of an open
    by_cases create : hdr.command = .create
    · rcases dispatchOne_create s.server e.bytes e.ordinal ⟨conn, s.env⟩ hdr body accepted
        create with same | ⟨plan, admitted, outcome⟩
      · exact same.conn.symm ▸ before
      · exact plain_created ⟨conn, s.env⟩ _ hdr body create plan admitted outcome none before
    by_cases setInfo : hdr.command = .setInfo
    · have leaves := dispatchOne_leaves s.server e.bytes e.ordinal ⟨conn, s.env⟩ hdr body accepted
        setInfo
      exact plain_setInfo ⟨conn, s.env⟩ hdr body setInfo _ leaves none before
    · exact Edits.eachOpen run.conn create setInfo (fun _ _ _ keeps => keeps) before
  · have before := plain.opens cid conn live
    clear found
    induction removed with
    | refl => exact before
    | tail _ r ih => exact ih.removal r

/-- In a plain state, a step spares the files when no request of it reaches one. -/
theorem Plain.spares {s : System σ η} {step : Step} (plain : s.Plain)
    (refused : ∀ (conn : Connection η) hdr body, s.Executes step conn hdr body →
      ¬ReachesPrimary conn hdr body s.env.host) : s.SparesPrimary step := by
  intro new grown c member touches
  have later := (plain.execute refused).calls
  have here : c ∈ (s.execute step).env.calls := grown ▸ List.mem_append_right _ member
  obtain ⟨new', grown', warranted⟩ := s.execute_calls step
  obtain rfl := new_of_calls grown grown'
  cases touches with
  -- a handle of a file belongs to no call of a plain state
  | opened _ serial opens => exact later c here serial opens
  | through _ o serial handle recorded opens => exact later o recorded serial opens
  -- a rename names the file as its source, where the open is, or as its target, which is refused
  | renamed origin backend src dst replace streamless named done =>
    rcases warranted _ member with ⟨_, closing⟩ | ⟨conn, hdr, body, executes, warrant⟩
    · cases closing
    obtain ⟨target, reaches, -, rfl, rfl⟩ := warrant
    have none := refused conn hdr body executes
    obtain ⟨cid, e, rfl, live, -⟩ := executes
    obtain ⟨cmd, req, admitted, decoded⟩ := reaches
    obtain ⟨-, -, found⟩ := (SetInfo.validate_eq_ok conn hdr body req target).mp admitted
    have source := plain.target live found streamless
    rcases named with src | dst
    · exact src source
    · exact none (.rename target _ replace ⟨cmd, req, admitted, decoded⟩ streamless dst done)
  | unlinked origin backend path streamless named =>
    rcases warranted _ member with ⟨_, closing⟩ | ⟨conn, hdr, body, executes, warrant⟩
    · cases closing
    obtain ⟨req, target, -, admitted, -, -, rfl, rfl⟩ := warrant
    obtain ⟨cid, e, rfl, live, -⟩ := executes
    obtain ⟨-, found⟩ := (Close.validate_eq_ok conn hdr body req target).mp admitted
    exact named (plain.target live found streamless)

end System

/-- A request that reaches a file through a stream makes a call that touches it. -/
theorem ReachesPrimary.touches {s : System σ η} {step : Step} {conn : Connection η}
    {hdr : Smb2Header} {body : Bytes} (executes : s.Executes step conn hdr body)
    (reaches : ReachesPrimary conn hdr body s.env.host) : ¬s.SparesPrimary step := by
  intro spares
  obtain ⟨cid, e, rfl, live, accepted⟩ := executes
  have executed := System.onConn_of_some s cid (dispatchOne s.server e.bytes e.ordinal) conn live
  simp only [System.SparesPrimary, System.execute, executed] at spares
  cases reaches with
  | create plan inner cmd admitted streamless named opened =>
    have opens : (plan.opening hdr.sessionId (some s.env.nextHandle)).OpensStream σ
        s.env.nextHandle := .intro _ _ _ _ streamless named
    have outcome := dispatchOne_created s.server e.bytes e.ordinal ⟨conn, s.env⟩ hdr body accepted
      cmd plan admitted
    cases outcome with
    | refused _ _ _ _ answer => exact answer inner opened
    | abandoned _ _ _ _ calls => exact spares _ calls _ (List.mem_cons_self ..) (.opened _ _ opens)
    | registered _ _ _ _ _ calls =>
      exact spares _ calls _ (List.mem_cons_self ..) (.opened _ _ opens)
  | rename target dst replace reaches streamless named done =>
    have calls := dispatchOne_setInfo s.server e.bytes e.ordinal ⟨conn, s.env⟩ hdr body accepted
      target _ reaches
    exact spares _ calls _ (List.mem_singleton_self _)
      (.renamed _ _ _ dst replace streamless (.inr named) done)

/-! ### A run -/

/-- Over every run, no file is acted on as one of its streams exactly when the backends without
streams refuse every request that names one. -/
theorem sparesPrimary_iff (server : ServerState) (host : σ) (events : List Event) :
    System.Throughout server host events System.SparesPrimary ↔
      System.Throughout server host events fun s step => ∀ (conn : Connection η) hdr body,
        s.Executes step conn hdr body → ¬ReachesPrimary conn hdr body s.env.host := by
  refine (Always.congr System.Plain _ _ (.start server host) ?_ ?_).symm
  · intro s step _ plain
    constructor
    · exact plain.spares
    · intro spares conn hdr body executes reaches
      exact reaches.touches executes spares
  · exact fun s step _ plain refused => plain.execute refused

end

/-! ### An application that knows no streams -/

open scoped Sample

namespace Sample

/-- Files under their components, with their contents. -/
abbrev Files := Table (List Text) Bytes

/-- Open by the components, whatever the selector. -/
def openFlat (path : SmbPath) (opts : OpenOptions) (files : Files) :
    SmbResult (List Text) × Files :=
  match files.lookup path.components with
  | none =>
    if opts.intent = .open ∨ opts.intent = .truncate then (.error .notFound, files)
    else (.ok path.components, files.insert path.components [])
  | some _ =>
    if opts.intent = .create then (.error .exists, files)
    else if opts.intent = .truncate ∨ opts.intent = .overwriteOrCreate then
      (.ok path.components, files.insert path.components [])
    else (.ok path.components, files)

scoped instance flat : Host Files (List Text) where
  capabilities _ := ⟨false, true, false⟩
  «open» _ := openFlat
  unlink _ path files := (.ok (), files.erase path.components)
  rename _ src dst _ files :=
    match files.lookup src.components with
    | none => (.error .notFound, files)
    | some data => (.ok (), (files.erase src.components).insert dst.components data)
  read h offset len files :=
    (.ok (slice ((files.lookup h).getD []) offset.toNat len.toNat), files)
  writeOwned h offset data files :=
    (.ok (UInt32.ofNat data.length), files.modify h fun old =>
      old.take offset.toNat ++ data ++ old.drop (offset.toNat + data.length))
  flush _ files := (.ok (), files)
  stat h files :=
    (.ok { fileInfo with endOfFile := UInt64.ofNat ((files.lookup h).getD []).length }, files)
  setTimes _ _ files := (.ok (), files)
  truncate h len files := (.ok (), files.modify h fun old => old.take len.toNat)
  listDir _ _ files := (.ok [], files)
  close _ files := (.ok (), files)
  fillRandom n files := (ByteVec.zero n, files)
  nowFiletime files := (0, files)

/-- One file with one byte. -/
def oneFile : Files := Table.empty.insert [['x']] [7]

/-- An anonymous client on the writable share. -/
def onWritable : List Event := Sample.session (Sample.anonymousOn ['w'])

/-- It opens the stream `s` of the file, to be overwritten. -/
def overwriteStream : Bytes :=
  Client.plain .create 1 1 (Client.createBody Create.fileWriteData 5 0 ['x', ':', 's'])

end Sample

/-- The application takes a stream for the file, and the file is emptied. -/
theorem stream_empties_file :
    (∀ path opts (files : Sample.Files), (Host.open 0 path opts files : SmbResult (List Text) × _) =
        Host.open 0 { path with stream := none } opts files) ∧
      (((System.start Sample.server Sample.oneFile).run
        (Sample.onWritable ++ [.frame 1 Sample.overwriteStream])).env.host.lookup [['x']] =
          some []) ∧
      ¬∀ events : List Event,
        System.Throughout Sample.server Sample.oneFile events System.SparesPrimary := by
  refine ⟨fun _ _ _ => rfl, by decide +kernel, fun all => ?_⟩
  have spares := (all (Sample.onWritable ++ [.frame 1 Sample.overwriteStream])).last
    (by decide +kernel) (by decide +kernel)
  have calls : ((((System.start Sample.server Sample.oneFile).run Sample.onWritable).execute
      (.element 1 (.single Sample.overwriteStream))).env.calls) =
        ((System.start Sample.server Sample.oneFile).run Sample.onWritable).env.calls ++
          [⟨⟨1, 1, .readWrite, none⟩, .open (.custom 0) ⟨[['x']], some ['s']⟩
            ⟨false, true, .overwriteOrCreate, false, false, false⟩ (some 0)⟩,
          ⟨⟨1, 1, .readWrite, some .readWrite⟩, .stat 0⟩] := by
    decide +kernel
  have named : (⟨[['x']], some ['s']⟩ : SmbPath).stream ≠ none := by decide
  exact spares _ calls _ (List.mem_cons_self ..) (.opened _ 0 (.intro _ _ _ _ rfl named))

end SmbServer
