import SmbServer.Effects.Calls
import SmbServer.Client

/-!
# SmbServer.Properties.ReadOnly

What the server does to a backend through a tree that was granted read access.

Main result:

  Over every run, no write-class call is made through a read-only tree if and only if no executed
  request is a SET_INFO of times, length or name through such a tree, or a CLOSE of an open that is
  marked for deletion there.

Proof strategy: every call is warranted by the request that made it. CREATE and WRITE look at the
access of the tree and warrant nothing of the kind; SET_INFO and CLOSE do not look, and make the
call whenever they are admitted.
-/

namespace SmbServer

open Lib

/-! ### Write-class calls -/

/-- Unlinking, renaming, writing, changing times or length, and opening for writing or with an
intent that may create or truncate. -/
def BackendCall.isWriteClass : BackendCall → Bool
  | .open _ _ opts _ => opts.write || opts.intent != .open
  | .unlink _ _ => true
  | .rename _ _ _ _ => true
  | .writeOwned _ _ _ => true
  | .setTimes _ _ => true
  | .truncate _ _ => true
  | _ => false

/-- A call through a read-only tree is not of the write class. -/
def Issued.RespectsReadOnly (c : Issued) : Prop :=
  c.origin.treeAccess = .read → c.call.isWriteClass = false

section

variable {σ η : Type} [Host σ η]

/-- The SET_INFO classes and buffers that reach the file: its times, its length or its name. -/
def SetInfo.Mutates (infoClass : UInt8) (buffer : Bytes) (file : Open η) : Prop :=
  (infoClass = InfoClass.fileBasicInformation ∧ 36 ≤ buffer.length ∧ file.handle.isSome) ∨
  (infoClass = InfoClass.fileEndOfFileInformation ∧ 8 ≤ buffer.length ∧ file.handle.isSome) ∨
  (infoClass = InfoClass.fileRenameInformation ∧ 20 ≤ buffer.length ∧
    20 + (readU32 buffer 16).toNat ≤ buffer.length ∧
    ∃ path, Create.decodePath (slice buffer 20 (readU32 buffer 16).toNat) = .ok path)

/-- The request changes files through a read-only tree. -/
inductive MutatesReadOnly (conn : Connection η) (hdr : Smb2Header) (body : Bytes) : Prop where
  | setInfo (req : SetInfoRequest) (target : Target η) (cmd : hdr.command = .setInfo)
      (parsed : SetInfoRequest.parse body = some req)
      (file : InfoType.fromU8 req.infoType = some .file)
      (found : lookupTarget conn hdr req.fileId = .ok target)
      (readOnly : target.tree.grantedAccess = .read)
      (mutates : SetInfo.Mutates req.fileInformationClass req.buffer target.file)
  | close (req : CloseRequest) (target : Target η) (cmd : hdr.command = .close)
      (parsed : CloseRequest.parse body = some req)
      (found : lookupTarget conn hdr req.fileId = .ok target)
      (readOnly : target.tree.grantedAccess = .read)
      (marked : target.file.deleteOnClose = true)

/-! ### The handlers -/

omit [Host σ η] in
/-- What `decode` yields makes a call exactly for the mutating classes. -/
theorem SetInfo.mutates_iff (infoClass : UInt8) (buffer : Bytes) (target : Target η) :
    SetInfo.Mutates infoClass buffer target.file ↔
      ∃ op call, SetInfo.decode infoClass buffer target.file = .ok op ∧
        op.call target = some call := by
  simp only [SetInfo.decode_eq_ok]
  constructor
  · rintro (⟨cls, long, live⟩ | ⟨cls, long, live⟩ | ⟨cls, long, named, path, decoded⟩)
    · obtain ⟨h, live⟩ := Option.isSome_iff_exists.mp live
      exact ⟨_, _, .setTimes cls long h live, rfl⟩
    · obtain ⟨h, live⟩ := Option.isSome_iff_exists.mp live
      exact ⟨_, _, .truncate cls long h live, rfl⟩
    · exact ⟨_, _, .rename cls long named path decoded, rfl⟩
  · rintro ⟨op, call, decoded, makes⟩
    cases decoded with
    | setTimes cls long h live => exact .inl ⟨cls, long, by simp [live]⟩
    | truncate cls long h live => exact .inr (.inl ⟨cls, long, by simp [live]⟩)
    | rename cls long named path decoded => exact .inr (.inr ⟨cls, long, named, path, decoded⟩)
    | disposition | allocation => cases makes

/-- Every call that a SET_INFO makes is of the write class. -/
theorem SetInfo.isWriteClass_of_call {op : SetInfo.Operation η} {target : Target η}
    {call : BackendCall} (h : op.call target = some call) : call.isWriteClass = true := by
  cases op <;> cases h <;> rfl

/-! ### A step -/

omit [Host σ η] in
/-- A SET_INFO whose operation makes a call through a read-only tree. -/
theorem SetInfo.Reaches.mutatesReadOnly {conn : Connection η} {hdr : Smb2Header} {body : Bytes}
    {target : Target η} {op : SetInfo.Operation η} {call : BackendCall}
    (reaches : SetInfo.Reaches conn hdr body target op) (makes : op.call target = some call)
    (readOnly : target.tree.grantedAccess = .read) : MutatesReadOnly conn hdr body := by
  obtain ⟨cmd, req, admitted, decoded⟩ := reaches
  obtain ⟨parsed, file, found⟩ := (SetInfo.validate_eq_ok conn hdr body req target).mp admitted
  exact .setInfo req target cmd parsed file found readOnly
    ((SetInfo.mutates_iff _ _ target).mpr ⟨op, call, decoded, makes⟩)

omit [Host σ η] in
/-- The request behind a write-class call through a read-only tree. -/
theorem Warrant.mutatesReadOnly {conn : Connection η} {next : Nat} {hdr : Smb2Header}
    {body : Bytes} {c : Issued} (h : Warrant conn next hdr body c)
    (readOnly : c.origin.treeAccess = .read) (write : c.call.isWriteClass = true) :
    MutatesReadOnly conn hdr body := by
  obtain ⟨origin, call⟩ := c
  cases call with
  -- a CREATE through such a tree opens for reading, and only what is there
  | «open» backend path opts result =>
    obtain ⟨plan, -, admitted, rfl, -, -, rfl, -⟩ := h
    obtain ⟨-, decided⟩ := Create.validate_eq_ok conn hdr body plan admitted
    rw [show plan.tree.grantedAccess = .read from readOnly] at decided
    obtain ⟨noWrite, only⟩ := Create.openOptions_read _ _ _ decided
    simp [BackendCall.isWriteClass, noWrite, only] at write
  | unlink backend path =>
    obtain ⟨req, target, cmd, admitted, rfl, marked, -⟩ := h
    obtain ⟨parsed, found⟩ := (Close.validate_eq_ok conn hdr body req target).mp admitted
    exact .close req target cmd parsed found readOnly marked
  | rename backend src dst replace =>
    obtain ⟨target, reaches, rfl, -⟩ := h
    exact reaches.mutatesReadOnly rfl readOnly
  -- a WRITE asks for the level of the open itself
  | writeOwned serial offset data =>
    obtain ⟨req, target, handle, -, -, admitted, rfl, -⟩ := h
    obtain ⟨-, level, -⟩ := Write.validate_eq_ok conn hdr req target handle admitted
    rw [show target.tree.grantedAccess = .read from readOnly] at level
    cases level
  | setTimes serial times =>
    obtain ⟨target, handle, reaches, rfl, -⟩ := h
    exact reaches.mutatesReadOnly rfl readOnly
  | truncate serial len =>
    obtain ⟨target, handle, reaches, rfl, -⟩ := h
    exact reaches.mutatesReadOnly rfl readOnly
  | read | flush | stat | listDir | close => cases write

/-- The call of a request that changes files through a read-only tree. -/
theorem MutatesReadOnly.call [Crypto] {s : System σ η} {step : Step} {conn : Connection η}
    {hdr : Smb2Header} {body : Bytes} (executes : s.Executes step conn hdr body)
    (mutates : MutatesReadOnly conn hdr body) :
    ∃ front c, (s.execute step).env.calls = s.env.calls ++ (front ++ [c]) ∧
      ¬c.RespectsReadOnly := by
  obtain ⟨cid, e, rfl, live, accepted⟩ := executes
  have executed := System.onConn_of_some s cid (dispatchOne s.server e.bytes e.ordinal) conn live
  simp only [System.execute, executed]
  cases mutates with
  -- the class decodes to an operation that makes the call
  | setInfo req target cmd parsed file found readOnly mutates =>
    obtain ⟨op, call, decoded, makes⟩ := (SetInfo.mutates_iff _ _ target).mp mutates
    have admitted := (SetInfo.validate_eq_ok conn hdr body req target).mpr ⟨parsed, file, found⟩
    have calls := dispatchOne_setInfo s.server e.bytes e.ordinal ⟨conn, s.env⟩ hdr body accepted
      target op ⟨cmd, req, admitted, decoded⟩
    refine ⟨[], ⟨target.origin hdr.sessionId, call⟩, by simpa [makes] using calls, ?_⟩
    intro respects
    have := respects readOnly
    rw [SetInfo.isWriteClass_of_call makes] at this
    cases this
  -- the unlink is the last of the calls that the CLOSE makes
  | close req target cmd parsed found readOnly marked =>
    have admitted := (Close.validate_eq_ok conn hdr body req target).mpr ⟨parsed, found⟩
    obtain ⟨front, calls⟩ := dispatchOne_close s.server e.bytes e.ordinal ⟨conn, s.env⟩ hdr body
      accepted cmd req target admitted marked
    refine ⟨front, _, calls, ?_⟩
    intro respects
    cases respects readOnly

/-! ### A run -/

/-- Over every run, no write-class call goes through a read-only tree exactly when no executed
request changes files through one. -/
theorem readOnly_respected_iff [Crypto] (server : ServerState) (host : σ) (events : List Event) :
    (∀ c ∈ ((System.start server host : System σ η).run events).env.calls, c.RespectsReadOnly) ↔
      System.Throughout server host events fun s step => ∀ (conn : Connection η) hdr body,
        s.Executes step conn hdr body → ¬MutatesReadOnly conn hdr body := by
  refine System.calls_iff server host events trivial (fun _ _ (inv : True) => inv) ?_
  intro s step new _ grown warranted
  constructor
  · intro respects conn hdr body executes mutates
    obtain ⟨front, c, calls, violates⟩ := mutates.call executes
    obtain rfl := List.append_cancel_left (grown.symm.trans calls)
    exact violates (respects c (by simp))
  -- a call of an implicit close never changes files
  · intro none c member readOnly
    rcases warranted c member with ⟨serial, closing⟩ | ⟨conn, hdr, body, executes, warrant⟩
    · rw [closing]
      rfl
    · by_contra write
      exact none conn hdr body executes
        (warrant.mutatesReadOnly readOnly (Bool.not_eq_false _ ▸ write))

end

/-! ### A read-only share -/

open scoped Sample

/-- An anonymous client on the read-only share: it opens a file for reading, asks for it to be
deleted on close, and closes it. -/
def Sample.deleteOnReadOnly : List Bytes :=
  Sample.anonymousOn ['r'] ++
    [Client.plain .create 1 1
      (Client.createBody Create.fileReadData 1 Create.fileDeleteOnClose ['x']),
    Client.plain .close 1 1 (Client.closeBody ⟨1, 1⟩)]

/-- The file on the read-only share is unlinked. -/
theorem readOnly_unlinked :
    ¬∀ events : List Event,
      ∀ c ∈ ((System.start Sample.server () : System Unit Unit).run events).env.calls,
        c.RespectsReadOnly := by
  intro all
  have unlinked : ⟨⟨1, 1, .read, some .read⟩, .unlink (.custom 0) ⟨[['x']], none⟩⟩ ∈
      ((System.start Sample.server () : System Unit Unit).run
        (Sample.session Sample.deleteOnReadOnly)).env.calls := by
    decide +kernel
  exact nomatch all _ _ unlinked rfl

end SmbServer
