import SmbServer.Effects.Calls
import SmbServer.Client

/-!
# SmbServer.Properties.OpenAccess

Through which opens the server writes, truncates and sets times.

Main result:

  Over every run, every such call goes through an open for reading and writing if and only if every
  executed request that makes one names a handle whose CREATE asked for writing.

Proof strategy: an open keeps the access of its CREATE, and CREATE grants writing exactly when the
mask asks for it. The record of calls says which mask a handle was opened with, since handle
numbers are never used twice.
-/

namespace SmbServer

open Lib

/-! ### Calls through a handle -/

/-- The handle calls that change a file. -/
def BackendCall.changesHandle : BackendCall → Bool
  | .writeOwned _ _ _ => true
  | .setTimes _ _ => true
  | .truncate _ _ => true
  | _ => false

/-- A call that changes a file goes through an open for reading and writing. -/
def Issued.RespectsOpenAccess (c : Issued) : Prop :=
  c.call.changesHandle = true → c.origin.openAccess = some .readWrite

section

variable {σ η : Type}

/-- The handle was opened for writing. -/
def Env.OpenedForWriting (env : Env σ) (serial : Nat) : Prop :=
  ∃ c ∈ env.calls, ∃ backend path opts,
    c.call = .open backend path opts (some serial) ∧ opts.write = true

/-- The request changes a file through the handle. -/
inductive ChangesThrough (conn : Connection η) (hdr : Smb2Header) (body : Bytes)
    (h : Boxed η) : Prop where
  | write (req : WriteRequest) (target : Target η) (cmd : hdr.command = .write)
      (parsed : WriteRequest.parse body = some req)
      (admitted : Write.validate conn hdr req = .ok (target, h))
  | setInfo (req : SetInfoRequest) (target : Target η) (cmd : hdr.command = .setInfo)
      (parsed : SetInfoRequest.parse body = some req)
      (file : InfoType.fromU8 req.infoType = some .file)
      (found : lookupTarget conn hdr req.fileId = .ok target)
      (cls : req.fileInformationClass = InfoClass.fileBasicInformation ∧ 36 ≤ req.buffer.length ∨
        req.fileInformationClass = InfoClass.fileEndOfFileInformation ∧ 8 ≤ req.buffer.length)
      (live : target.file.handle = some h)

/-! ### Opens and their CREATE -/

/-- The access of an open is what its CREATE asked for. -/
def AccessOfCreate (env : Env σ) (conn : Connection η) : Prop :=
  ∀ sid tid fid v h, conn.openView sid tid fid = some v → v.handle = some h →
    h.serial < env.nextHandle ∧ (env.OpenedForWriting h.serial ↔ v.grantedAccess = .readWrite)

/-- Every handle opened so far carries a number that is taken. -/
def Env.Numbered (env : Env σ) : Prop :=
  ∀ c ∈ env.calls, ∀ serial, c.opened = some serial → serial < env.nextHandle

theorem Env.Numbered.grows {env env' : Env σ} (h : env.Numbered) (grown : env.Grows env') :
    env'.Numbered := by
  obtain ⟨new, calls, free⟩ := grown.calls
  intro c member serial opened
  rw [calls] at member
  rcases List.mem_append.mp member with old | fresh
  · exact Nat.lt_of_lt_of_le (h c old serial opened) grown.handles
  · exact (free c fresh serial opened).2

/-- What a handle was opened for does not change. -/
theorem Env.Grows.openedForWriting_iff {env env' : Env σ} (grown : env.Grows env') (serial : Nat)
    (taken : serial < env.nextHandle) :
    env'.OpenedForWriting serial ↔ env.OpenedForWriting serial := by
  obtain ⟨new, calls, free⟩ := grown.calls
  rw [OpenedForWriting, calls]
  constructor
  · rintro ⟨c, member, backend, path, opts, call, write⟩
    rcases List.mem_append.mp member with old | fresh
    · exact ⟨c, old, backend, path, opts, call, write⟩
    · have opened : c.opened = some serial := by rw [Issued.opened, call]
      exact absurd taken (Nat.not_lt.mpr (free c fresh serial opened).1)
  · rintro ⟨c, member, rest⟩
    exact ⟨c, List.mem_append_left _ member, rest⟩

theorem AccessOfCreate.grows {env env' : Env σ} {conn : Connection η}
    (h : AccessOfCreate env conn) (grown : env.Grows env') : AccessOfCreate env' conn := by
  intro sid tid fid v handle seen live
  obtain ⟨taken, access⟩ := h sid tid fid v handle seen live
  exact ⟨Nat.lt_of_lt_of_le taken grown.handles,
    (grown.openedForWriting_iff handle.serial taken).trans access⟩

/-- Opens that go away take nothing from the others. -/
theorem AccessOfCreate.of_openView {env : Env σ} {conn conn' : Connection η}
    (h : AccessOfCreate env conn) (before : ∀ sid tid fid v,
      conn'.openView sid tid fid = some v → conn.openView sid tid fid = some v) :
    AccessOfCreate env conn' :=
  fun sid tid fid v handle seen live => h sid tid fid v handle (before sid tid fid v seen) live

/-- CREATE asks for writing only on trees that may be written. -/
theorem Create.openOptions_write (granted : Access) (path : SmbPath) (req : CreateRequest)
    (opts : OpenOptions) (h : Create.openOptions granted path req = .ok opts)
    (write : opts.write = true) : granted = .readWrite := by
  cases granted with
  | read => simp [(Create.openOptions_read path req opts h).1] at write
  | readWrite => rfl

variable [Host σ η] [Crypto]

omit [Crypto] in
/-- A CREATE registers an open with the access that its mask asks for. -/
theorem accessOfCreate_register (w w' : World σ η) (hdr : Smb2Header) (body : Bytes)
    (plan : Create.Plan η) (admitted : Create.validate w.conn hdr body = .ok plan)
    (outcome : Create.Outcome hdr.sessionId plan w w') (numbered : w.env.Numbered)
    (h : AccessOfCreate w.env w.conn) : AccessOfCreate w'.env w'.conn := by
  have grown := outcome.grows
  cases outcome with
  | refused _ conn => exact conn ▸ h.grows grown
  | abandoned _ _ _ conn => exact conn ▸ h.grows grown
  | registered inner info _ _ conn calls handles =>
    intro sid tid fid v handle seen live
    rw [conn] at seen
    -- the open that is new, or one of before
    rcases openView_register _ _ _ _ _ _ _ _ _ seen with ⟨new, access⟩ | before
    · obtain rfl := Option.some.inj (live.symm.trans new)
      refine ⟨handles ▸ Nat.lt_succ_self _, ?_⟩
      obtain ⟨-, decided⟩ := Create.validate_eq_ok w.conn hdr body plan admitted
      have level : v.grantedAccess = Create.openAccess plan.tree.grantedAccess plan.opts := access
      rw [level, Create.openAccess, Env.OpenedForWriting, calls]
      constructor
      · rintro ⟨c, member, backend, path, opts, call, write⟩
        have opened : c.opened = some w.env.nextHandle := by rw [Issued.opened, call]
        -- a call of before has opened another handle
        rcases List.mem_append.mp member with old | fresh
        · exact absurd (numbered c old _ opened) (Nat.lt_irrefl _)
        · simp only [List.mem_cons, List.not_mem_nil, or_false] at fresh
          rcases fresh with rfl | rfl
          · obtain ⟨-, -, rfl, -⟩ := BackendCall.open.inj call
            rw [if_pos write]
            exact Create.openOptions_write _ _ _ _ decided write
          · cases call
      · intro granted
        refine ⟨_, List.mem_append_right _ (List.mem_cons_self ..), _, _, plan.opts, rfl, ?_⟩
        by_contra noWrite
        rw [if_neg noWrite] at granted
        cases granted
    · exact h.grows grown sid tid fid v handle before live

theorem accessOfCreate_dispatchOne (server : ServerState) (frame : Bytes) (ordinal : UInt32)
    (w : World σ η) (numbered : w.env.Numbered) (h : AccessOfCreate w.env w.conn) :
    AccessOfCreate (dispatchOne server frame ordinal w).2.env
      (dispatchOne server frame ordinal w).2.conn := by
  rcases dispatchOne_effect server frame ordinal w with same | ⟨hdr, body, accepted, run⟩
  · exact same.conn ▸ h.grows same.grows
  by_cases cmd : hdr.command = .create
  · rcases dispatchOne_create server frame ordinal w hdr body accepted cmd with
      same | ⟨plan, admitted, outcome⟩
    · exact same.conn ▸ h.grows same.grows
    · exact accessOfCreate_register w _ hdr body plan admitted outcome numbered h
  · exact (h.grows (dispatchOne_grows server frame ordinal w)).of_openView
      (Edits.openView run.conn cmd)

/-- In every state of a run, the access of an open is what its CREATE asked for. -/
theorem accessOfCreate_execute (s : System σ η) (step : Step)
    (inv : s.env.Numbered ∧ s.Conns AccessOfCreate) :
    (s.execute step).env.Numbered ∧ (s.execute step).Conns AccessOfCreate := by
  refine System.Conns.execute (fun _ _ grown h => h.grows grown) ?_
    (fun _ _ _ _ grown h => h.grows grown) ?_ accessOfCreate_dispatchOne s step inv
  · intro env cid guid maxRead maxWrite sid tid fid v h seen
    cases seen
  · exact fun env conn conn' r h => h.of_openView r.openView

/-! ### A step -/

omit [Host σ η] [Crypto] in
/-- The open that a changing request goes through. -/
theorem ChangesThrough.open {conn : Connection η} {hdr : Smb2Header} {body : Bytes} {h : Boxed η}
    (changes : ChangesThrough conn hdr body h) : ∃ target : Target η, ∃ fid,
      lookupTarget conn hdr fid = .ok target ∧ target.file.handle = some h := by
  cases changes with
  | write req target cmd parsed admitted =>
    obtain ⟨found, -, live⟩ := Write.validate_eq_ok conn hdr req target h admitted
    exact ⟨target, _, found, live⟩
  | setInfo req target cmd parsed file found cls live => exact ⟨target, _, found, live⟩

omit [Host σ η] [Crypto] in
/-- The access of that open. -/
theorem AccessOfCreate.target {env : Env σ} {conn : Connection η} (h : AccessOfCreate env conn)
    {hdr : Smb2Header} {fid : FileId} {target : Target η} {handle : Boxed η}
    (found : lookupTarget conn hdr fid = .ok target) (live : target.file.handle = some handle) :
    env.OpenedForWriting handle.serial ↔ target.file.grantedAccess = .readWrite := by
  obtain ⟨v, seen, same, access⟩ := openView_of_lookupTarget conn hdr fid target found
  rw [← access]
  exact (h _ _ _ v handle seen (same.trans live)).2

omit [Host σ η] [Crypto] in
/-- The request behind a call that changes a file. -/
theorem Warrant.changesThrough {conn : Connection η} {next : Nat} {hdr : Smb2Header}
    {body : Bytes} {c : Issued} (w : Warrant conn next hdr body c)
    (changes : c.call.changesHandle = true) : ∃ target : Target η, ∃ fid h,
      ChangesThrough conn hdr body h ∧ lookupTarget conn hdr fid = .ok target ∧
        target.file.handle = some h ∧ c.origin = target.origin hdr.sessionId := by
  -- the two classes of SET_INFO that go through a handle
  have setInfo {target : Target η} {op : SetInfo.Operation η} {h : Boxed η}
      (reaches : SetInfo.Reaches conn hdr body target op)
      (origin : c.origin = target.origin hdr.sessionId)
      (through : (∃ times, op = .setTimes h times) ∨ ∃ len, op = .truncate h len) :
      ∃ target : Target η, ∃ fid h, ChangesThrough conn hdr body h ∧
        lookupTarget conn hdr fid = .ok target ∧ target.file.handle = some h ∧
          c.origin = target.origin hdr.sessionId := by
    obtain ⟨cmd, req, admitted, decoded⟩ := reaches
    obtain ⟨parsed, file, found⟩ := (SetInfo.validate_eq_ok conn hdr body req target).mp admitted
    rw [SetInfo.decode_eq_ok] at decoded
    rcases through with ⟨times, rfl⟩ | ⟨len, rfl⟩
    · cases decoded with
      | setTimes cls long h live =>
        exact ⟨target, _, h, .setInfo req target cmd parsed file found (.inl ⟨cls, long⟩) live,
          found, live, origin⟩
    · cases decoded with
      | truncate cls long h live =>
        exact ⟨target, _, h, .setInfo req target cmd parsed file found (.inr ⟨cls, long⟩) live,
          found, live, origin⟩
  obtain ⟨origin, call⟩ := c
  cases call with
  | writeOwned serial offset data =>
    obtain ⟨req, target, h, cmd, parsed, admitted, rfl, -⟩ := w
    obtain ⟨found, -, live⟩ := Write.validate_eq_ok conn hdr req target h admitted
    exact ⟨target, _, h, .write req target cmd parsed admitted, found, live, rfl⟩
  | setTimes serial times =>
    obtain ⟨target, h, reaches, origin, -⟩ := w
    exact setInfo reaches origin (.inl ⟨times, rfl⟩)
  | truncate serial len =>
    obtain ⟨target, h, reaches, origin, -⟩ := w
    exact setInfo reaches origin (.inr ⟨len, rfl⟩)
  | «open» | unlink | rename | read | flush | stat | listDir | close => cases changes

/-- The call of a request that changes a file. -/
theorem ChangesThrough.call {s : System σ η} {step : Step} {conn : Connection η}
    {hdr : Smb2Header} {body : Bytes} {h : Boxed η} (executes : s.Executes step conn hdr body)
    (changes : ChangesThrough conn hdr body h) : ∃ target : Target η, ∃ fid c,
      (s.execute step).env.calls = s.env.calls ++ [c] ∧ c.call.changesHandle = true ∧
        lookupTarget conn hdr fid = .ok target ∧ target.file.handle = some h ∧
          c.origin.openAccess = some target.file.grantedAccess := by
  obtain ⟨cid, e, rfl, here, accepted⟩ := executes
  have executed := System.onConn_of_some s cid (dispatchOne s.server e.bytes e.ordinal) conn here
  simp only [System.execute, executed]
  cases changes with
  | write req target cmd parsed admitted =>
    obtain ⟨found, -, live⟩ := Write.validate_eq_ok conn hdr req target h admitted
    exact ⟨target, _, _, dispatchOne_write s.server e.bytes e.ordinal ⟨conn, s.env⟩ hdr body
      accepted cmd req target h parsed admitted, rfl, found, live, rfl⟩
  | setInfo req target cmd parsed file found cls live =>
    have admitted := (SetInfo.validate_eq_ok conn hdr body req target).mpr ⟨parsed, file, found⟩
    have calls (op : SetInfo.Operation η) (decoded : SetInfo.Decoded req.fileInformationClass
        req.buffer target.file op) :=
      dispatchOne_setInfo s.server e.bytes e.ordinal ⟨conn, s.env⟩ hdr body accepted target op
        ⟨cmd, req, admitted, (SetInfo.decode_eq_ok _ _ _ _).mpr decoded⟩
    rcases cls with ⟨cls, long⟩ | ⟨cls, long⟩
    · exact ⟨target, _, _, calls _ (.setTimes cls long h live), rfl, found, live, rfl⟩
    · exact ⟨target, _, _, calls _ (.truncate cls long h live), rfl, found, live, rfl⟩

/-! ### A run -/

/-- Over every run, the calls that change a file go through opens for reading and writing exactly
when every executed request that makes one names a handle that was opened for writing. -/
theorem openAccess_respected_iff (server : ServerState) (host : σ) (events : List Event) :
    (∀ c ∈ ((System.start server host : System σ η).run events).env.calls,
        c.RespectsOpenAccess) ↔
      System.Throughout server host events fun s step => ∀ (conn : Connection η) hdr body h,
        s.Executes step conn hdr body → ChangesThrough conn hdr body h →
          s.env.OpenedForWriting h.serial := by
  have init : (System.start server host : System σ η).env.Numbered ∧
      (System.start server host : System σ η).Conns AccessOfCreate :=
    ⟨fun _ member => (nomatch member), fun _ _ found => (nomatch found)⟩
  refine System.calls_iff server host events init accessOfCreate_execute ?_
  intro s step new inv grown warranted
  constructor
  -- the request makes a call, and the access recorded with it is that of the open
  · intro respects conn hdr body h executes changes
    obtain ⟨target, fid, c, calls, good, found, live, access⟩ := changes.call executes
    obtain ⟨cid, e, rfl, here, -⟩ := executes
    obtain rfl := List.append_cancel_left (grown.symm.trans calls)
    refine ((inv.2 cid conn here).target found live).mpr (Option.some.inj ?_)
    rw [← access]
    exact respects c (List.mem_singleton_self c) good
  -- the call has a request behind it, which names a handle opened for writing
  · intro opened c member changes
    rcases warranted c member with ⟨serial, closing⟩ | ⟨conn, hdr, body, executes, warrant⟩
    · rw [closing] at changes
      cases changes
    · obtain ⟨target, fid, h, through, found, live, origin⟩ := warrant.changesThrough changes
      have writing := opened conn hdr body h executes through
      obtain ⟨cid, e, rfl, here, -⟩ := executes
      rw [origin]
      exact congrArg some (((inv.2 cid conn here).target found live).mp writing)

end

/-! ### An open for reading -/

open scoped Sample

/-- An anonymous client on the writable share: it opens a file with a mask that asks for reading
only, and writes to it. -/
def Sample.writeThroughRead : List Bytes :=
  Sample.anonymousOn ['w'] ++
    [Client.plain .create 1 1 (Client.createBody Create.fileReadData 1 0 ['x']),
    Client.plain .write 1 1 (Client.writeBody ⟨1, 1⟩ 0 [7])]

/-- The write through the open for reading is made. -/
theorem write_through_read :
    ¬∀ events : List Event,
      ∀ c ∈ ((System.start Sample.server () : System Unit Unit).run events).env.calls,
        c.RespectsOpenAccess := by
  intro all
  have written : ⟨⟨1, 1, .readWrite, some .read⟩, .writeOwned 0 0 [7]⟩ ∈
      ((System.start Sample.server () : System Unit Unit).run
        (Sample.session Sample.writeThroughRead)).env.calls := by
    decide +kernel
  exact nomatch all _ _ written rfl

end SmbServer
