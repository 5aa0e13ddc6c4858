import SmbServer.Effects.HostState
import SmbServer.Effects.Admission
import SmbServer.Properties.LocalEntries
import SmbServer.Client

/-!
# SmbServer.Properties.LocalRequests

What the requests of a run do to the directories behind the server. A request makes at most one call
that changes one: an open, a write or a new length through a handle, an unlink or a rename.
-/

namespace SmbServer

open Lib

variable {backends : Nat → LocalFsBackend}

/-- What an open is of: its backend, and the file or directory there. -/
def Open.object (file : Open (Nat × LocalHandle)) : Option (Nat × Node Nat) :=
  file.handle.map fun h => (h.inner.1, h.inner.2.node)

/-- The FileId of a request that names an open. -/
def namedFile (hdr : Smb2Header) (body : Bytes) : Option FileId :=
  match hdr.command with
  | .read => (ReadRequest.parse body).map (·.fileId)
  | .write => (WriteRequest.parse body).map (·.fileId)
  | .setInfo => (SetInfoRequest.parse body).map (·.fileId)
  | .close => (CloseRequest.parse body).map (·.fileId)
  | _ => none

/-- A READ, WRITE, SET_INFO or CLOSE goes through the open. -/
def Uses {η : Type} (conn : Connection η) (hdr : Smb2Header) (body : Bytes) (target : Target η) :
    Prop :=
  ∃ fid, namedFile hdr body = some fid ∧ lookupTarget conn hdr fid = .ok target

theorem SetInfo.Reaches.uses {η : Type} {conn : Connection η} {hdr : Smb2Header} {body : Bytes}
    {target : Target η} {op : SetInfo.Operation η}
    (reaches : SetInfo.Reaches conn hdr body target op) : Uses conn hdr body target := by
  obtain ⟨cmd, req, admitted, -⟩ := reaches
  obtain ⟨parsed, -, found⟩ := (SetInfo.validate_eq_ok conn hdr body req target).mp admitted
  exact ⟨req.fileId, by simp [namedFile, cmd, parsed], found⟩

theorem Uses.hasOpen [Crypto] {σ η : Type} {s : System σ η} {step : Step} {conn : Connection η}
    {hdr : Smb2Header} {body : Bytes} {target : Target η} (uses : Uses conn hdr body target)
    (executes : s.Executes step conn hdr body) : s.HasOpen target.tree.share target.file := by
  obtain ⟨cid, e, -, live, -⟩ := executes
  obtain ⟨fid, -, found⟩ := uses
  exact System.hasOpen_of_target live found

/-! ### Handles -/

namespace LocalHandle

variable (fs : Fs Text) (h : LocalHandle)

/-- A write changes at most what the file of its handle holds. -/
theorem writeOwned_cases (offset : UInt64) (data : Bytes) :
    (h.writeOwned fs offset data).2 = fs ∨
      ∃ id bytes, h.node = .file id ∧ (h.writeOwned fs offset data).2 = fs.setContents id bytes := by
  cases h with
  | dir => exact .inl rfl
  | file name fd readOnly =>
    rw [writeOwned]
    split
    · exact .inl rfl
    · rcases fs.writeAt_cases fd offset.toNat data with ⟨e, failed⟩ | ⟨id, file, done⟩
      · rw [failed]
        exact .inl rfl
      · rw [done]
        exact .inr ⟨id, _, file, rfl⟩

theorem truncate_cases (len : UInt64) :
    (h.truncate fs len).2 = fs ∨
      ∃ id bytes, h.node = .file id ∧ (h.truncate fs len).2 = fs.setContents id bytes := by
  cases h with
  | dir => exact .inl rfl
  | file name fd readOnly =>
    rw [truncate]
    split
    · exact .inl rfl
    · rcases fs.setLen_cases fd len.toNat with ⟨e, failed⟩ | ⟨id, file, done⟩
      · rw [failed]
        exact .inl rfl
      · rw [done]
        exact .inr ⟨id, _, file, rfl⟩

end LocalHandle

/-! ### Calls -/

namespace LocalHost

variable (host : LocalHost backends) (n : Nat)

/-- Everything else leaves the directories alone. -/
theorem observed : Observed (files : LocalHost backends → Nat → Fs Text) where
  read h offset len :=
    files_run_of_same fun view fs => congrArg Prod.snd (h.2.runOn_readCalls view fs offset len)
  flush h := files_run_of_same fun view fs => h.2.fs_flushCalls view fs
  stat h := files_run_of_same fun view fs => h.2.fs_statCalls view fs
  listDir h pattern := files_run_of_same fun view fs => h.2.fs_listDirCalls view fs pattern
  close _ := files_run_of_same fun _ _ => rfl
  fillRandom _ _ := rfl
  nowFiletime _ := rfl

theorem files_open (path : SmbPath) (opts : OpenOptions) :
    (Host.open n path opts host).2.files =
      Function.update host.files n (((backends n).open path opts).runOn (host.files n)).2 := by
  refine (files_run n _ host).trans ?_
  rw [runOn_lift]
  rfl

/-- The answer to an open. -/
theorem open_answer (path : SmbPath) (opts : OpenOptions) :
    (Host.open n path opts host).1 =
      (((backends n).open path opts).runOn (host.files n)).1.map fun h => (n, h) :=
  congrArg (fun out => out.1.map fun h => (n, h))
    (runOn_lift (host.view host.ticks) (host.files n) ((backends n).open path opts))

theorem files_unlink (path : SmbPath) :
    (Host.unlink n path host).2.files =
      Function.update host.files n (((backends n).unlink path).runOn (host.files n)).2 := by
  refine (files_run n _ host).trans ?_
  rw [runOn_lift]
  rfl

theorem files_rename (src dst : SmbPath) (replace : Bool) :
    (Host.rename n src dst replace host).2.files =
      Function.update host.files n
        (((backends n).rename src dst replace).runOn (host.files n)).2 := by
  refine (files_run n _ host).trans ?_
  rw [runOn_lift]
  rfl

theorem rename_answer (src dst : SmbPath) (replace : Bool) :
    (Host.rename n src dst replace host).1 =
      (((backends n).rename src dst replace).runOn (host.files n)).1 :=
  congrArg Prod.fst
    (runOn_lift (host.view host.ticks) (host.files n) ((backends n).rename src dst replace))

end LocalHost

/-! ### One element -/

/-- What an accepted request makes of the tree of a backend. -/
inductive Touches (conn : Connection (Nat × LocalHandle)) (hdr : Smb2Header) (body : Bytes)
    (host : LocalHost backends) (n : Nat) : Fs Text → Prop where
  | nothing : Touches conn hdr body host n (host.files n)
  | opened (plan : Create.Plan (Nat × LocalHandle)) (cmd : hdr.command = .create)
      (admitted : Create.validate conn hdr body = .ok plan)
      (backend : plan.tree.share.backend = .custom n) :
      Touches conn hdr body host n
        (((backends n).open plan.path plan.opts).runOn (host.files n)).2
  | written (target : Target (Nat × LocalHandle)) (id : Nat) (bytes : Bytes)
      (uses : Uses conn hdr body target)
      (changes : hdr.command = .write ∨
        ∃ h len, SetInfo.Reaches conn hdr body target (.truncate h len))
      (object : target.file.object = some (n, .file id)) :
      Touches conn hdr body host n ((host.files n).setContents id bytes)
  | renamed (target : Target (Nat × LocalHandle)) (dst : SmbPath) (replace : Bool)
      (reaches : SetInfo.Reaches conn hdr body target (.rename dst replace))
      (backend : target.tree.share.backend = .custom n) :
      Touches conn hdr body host n
        (((backends n).rename target.file.lastPath dst replace).runOn (host.files n)).2
  | unlinked (req : CloseRequest) (target : Target (Nat × LocalHandle))
      (cmd : hdr.command = .close) (admitted : Close.validate conn hdr body = .ok (req, target))
      (marked : target.file.deleteOnClose = true)
      (backend : target.tree.share.backend = .custom n) :
      Touches conn hdr body host n
        (((backends n).unlink target.file.lastPath).runOn (host.files n)).2

namespace Touches

variable {hdr : Smb2Header} {body : Bytes} {w w' : World (LocalHost backends) (Nat × LocalHandle)}
  {n : Nat}

/-- One tree is touched, the others are left alone. -/
theorem of_update {conn : Connection (Nat × LocalHandle)} {host : LocalHost backends} {m : Nat}
    {fs : Fs Text} (here : Touches conn hdr body host m fs) :
    Touches conn hdr body host n (Function.update host.files m fs n) := by
  by_cases same : n = m
  · subst same
    rw [Function.update_self]
    exact here
  · rw [Function.update_of_ne same]
    exact .nothing

/-- A CREATE, whatever becomes of the new handle. -/
theorem of_created {sid : UInt64} {plan : Create.Plan (Nat × LocalHandle)}
    (cmd : hdr.command = .create) (admitted : Create.validate w.conn hdr body = .ok plan)
    (outcome : Create.Outcome sid plan w w') :
    Touches w.conn hdr body w.env.host n (w'.env.host.files n) := by
  have opens : Touches w.conn hdr body w.env.host n
      ((plan.tree.share.backend.open plan.path plan.opts w.env.host).2.files n) := by
    cases backend : plan.tree.share.backend with
    | notSupported => exact .nothing
    | custom m =>
      rw [BackendRef.open, LocalHost.files_open]
      exact of_update (.opened plan cmd admitted backend)
  cases outcome with
  | refused host => exact host ▸ opens
  | abandoned inner _ host =>
    rw [host, LocalHost.observed.close, LocalHost.observed.stat]
    exact opens
  | registered inner _ _ host =>
    rw [host, LocalHost.observed.stat]
    exact opens

/-- What a file holds changes through the handle of an open. -/
private theorem of_contents {α : Type} {target : Target (Nat × LocalHandle)}
    {h : Boxed (Nat × LocalHandle)} {prog : LocalProgram α} (uses : Uses w.conn hdr body target)
    (changes : hdr.command = .write ∨
      ∃ h len, SetInfo.Reaches w.conn hdr body target (.truncate h len))
    (live : target.file.handle = some h)
    (cases : ∀ view fs, (prog.runOn view fs).2 = fs ∨
      ∃ id bytes, h.inner.2.node = .file id ∧ (prog.runOn view fs).2 = fs.setContents id bytes) :
    Touches w.conn hdr body w.env.host n
      ((LocalHost.run h.inner.1 prog w.env.host).2.files n) := by
  rw [LocalHost.files_run]
  refine of_update ?_
  rcases cases (w.env.host.view w.env.host.ticks) (w.env.host.files h.inner.1) with
    same | ⟨id, bytes, file, written⟩
  · rw [same]
    exact .nothing
  · rw [written]
    exact .written target id bytes uses changes (by rw [Open.object, live, ← file]; rfl)

theorem of_wrote (cmd : hdr.command = .write) (ends : Write.Ends hdr body w w') :
    Touches w.conn hdr body w.env.host n (w'.env.host.files n) := by
  cases ends with
  | refused same => exact same ▸ .nothing
  | performed req target h parsed admitted done =>
    obtain ⟨found, -, live⟩ := Write.validate_eq_ok w.conn hdr req target h admitted
    have uses : Uses w.conn hdr body target := ⟨req.fileId, by simp [namedFile, cmd, parsed], found⟩
    rw [done]
    refine of_contents uses (.inl cmd) live fun view fs => ?_
    rw [LocalHandle.runOn_writeOwnedCalls]
    exact h.inner.2.writeOwned_cases fs req.offset req.data

theorem of_set (cmd : hdr.command = .setInfo) (ends : SetInfo.Ends hdr body w w') :
    Touches w.conn hdr body w.env.host n (w'.env.host.files n) := by
  cases ends with
  | refused _ same => exact same ▸ .nothing
  | disposition _ _ _ _ _ same => exact same ▸ .nothing
  | setTimes target h times _ _ done =>
    have same : (Host.setTimes h.inner times w.env.host).2.files = w.env.host.files :=
      LocalHost.files_run_of_same (fun view fs => h.inner.2.fs_setTimesCalls view fs times) _
    rw [done, same]
    exact .nothing
  | truncate target h len reaches _ done =>
    have uses := SetInfo.Reaches.uses reaches
    have changes : ∃ h len, SetInfo.Reaches w.conn hdr body target (.truncate h len) :=
      ⟨h, len, reaches⟩
    obtain ⟨-, req, -, decoded⟩ := reaches
    rw [done]
    cases (SetInfo.decode_eq_ok _ _ _ _).mp decoded with
    | truncate _ _ _ live =>
      refine of_contents uses (.inr changes) live fun view fs => ?_
      rw [LocalHandle.runOn_truncateCalls]
      exact h.inner.2.truncate_cases fs _
  | rename req target dst replace admitted decoded _ done =>
    rw [done]
    cases backend : target.tree.share.backend with
    | notSupported => exact .nothing
    | custom m =>
      rw [BackendRef.rename, LocalHost.files_rename]
      exact of_update (.renamed target dst replace ⟨cmd, req, admitted, decoded⟩ backend)

theorem of_closed (cmd : hdr.command = .close)
    (ends : Close.Ends LocalHost.files hdr body w w') :
    Touches w.conn hdr body w.env.host n (w'.env.host.files n) := by
  cases ends with
  | refused _ same => exact same ▸ .nothing
  | closed req target host admitted _ same done =>
    rw [done]
    split
    next marked =>
      cases backend : target.tree.share.backend with
      | notSupported =>
        rw [BackendRef.unlink, same]
        exact .nothing
      | custom m =>
        rw [BackendRef.unlink, LocalHost.files_unlink, same]
        exact of_update (.unlinked req target cmd admitted marked backend)
    next =>
      rw [same]
      exact .nothing

end Touches

variable [Crypto]

theorem dispatchOne_touches (server : ServerState) (frame : Bytes) (ordinal : UInt32)
    (w : World (LocalHost backends) (Nat × LocalHandle)) {hdr : Smb2Header} {body : Bytes}
    (accepted : Accepted w.conn frame hdr body) (n : Nat) :
    Touches w.conn hdr body w.env.host n
      ((dispatchOne server frame ordinal w).2.env.host.files n) := by
  by_cases create : hdr.command = .create
  · rcases dispatchOne_create server frame ordinal w hdr body accepted create with
      same | ⟨plan, admitted, outcome⟩
    · exact same.host ▸ .nothing
    · exact .of_created create admitted outcome
  by_cases close : hdr.command = .close
  · exact .of_closed close
      (dispatchOne_closed LocalHost.observed server frame ordinal w accepted close)
  by_cases write : hdr.command = .write
  · exact .of_wrote write (dispatchOne_wrote server frame ordinal w accepted write)
  by_cases setInfo : hdr.command = .setInfo
  · exact .of_set setInfo (dispatchOne_set server frame ordinal w accepted setInfo)
  · have still := dispatchOne_still LocalHost.observed server frame ordinal w accepted create close
      write setInfo
    rw [show (dispatchOne server frame ordinal w).2.env.host.files = w.env.host.files from still]
    exact .nothing

/-- What a step makes of the trees, when it executes a request. -/
theorem System.Executes.touches {s : System (LocalHost backends) (Nat × LocalHandle)} {step : Step}
    {conn : Connection (Nat × LocalHandle)} {hdr : Smb2Header} {body : Bytes}
    (executes : s.Executes step conn hdr body) (n : Nat) :
    Touches conn hdr body s.env.host n ((s.execute step).env.host.files n) := by
  obtain ⟨cid, e, rfl, live, accepted⟩ := executes
  rw [System.execute, System.onConn_of_some s cid _ conn live]
  exact dispatchOne_touches s.server e.bytes e.ordinal ⟨conn, s.env⟩ accepted n

/-- Every other step leaves them alone. -/
theorem System.execute_files (s : System (LocalHost backends) (Nat × LocalHandle)) (step : Step) :
    (s.execute step).env.host.files = s.env.host.files ∨
      ∃ conn hdr body, s.Executes step conn hdr body := by
  by_cases element : ∃ cid e, step = .element cid e
  · obtain ⟨cid, e, rfl⟩ := element
    cases live : s.conns.lookup cid with
    | none => exact .inl (by rw [execute, onConn_of_none s cid _ live])
    | some conn =>
      rcases dispatchOne_effect s.server e.bytes e.ordinal ⟨conn, s.env⟩ with
        same | ⟨hdr, body, accepted, -⟩
      · refine .inl ?_
        rw [execute, onConn_of_some s cid _ conn live]
        exact congrArg LocalHost.files same.host
      · exact .inr ⟨conn, hdr, body, cid, e, rfl, live, accepted⟩
  · exact .inl (still_execute LocalHost.observed s step fun cid e same => element ⟨cid, e, same⟩)

/-! ### A directory to run against -/

namespace Sample

def emptyDir : ShareDir where
  fs := ⟨.dir 0 [], fun _ => [], 0, 1⟩
  root := ⟨0, rfl⟩
  sound := by
    have only (path : List Text) (node : Node Nat)
        (there : Fs.node ⟨.dir 0 [], fun _ => [], 0, 1⟩ path = some node) :
        path = [] ∧ node = .dir 0 := by
      cases path with
      | nil => exact ⟨rfl, (Option.some.inj there).symm⟩
      | cons n rest => cases there
    constructor
    · intro path node there
      rw [(only path node there).2]
      exact Nat.zero_lt_one
    · intro path path' node there there'
      rw [(only path node there).1, (only path' node there').1]

/-- Every share is a directory that is empty at first. -/
def localHost : LocalHost fun _ => ⟨false⟩ where
  dirs _ := emptyDir
  ticks := 0
  view _ :=
    { metadata := fun node => ⟨0, node.isDir, none, none, none⟩
      entryMetadata := fun _ _ => ⟨0, false, none, none, none⟩
      names := fun _ => [] }
  random _ n := ByteVec.zero n
  clock _ := 0

end Sample

end SmbServer
