import SmbServer.Conn.Views
import SmbServer.Handlers.Query
import SmbServer.Handlers.SetInfo

/-!
# SmbServer.Effects.Admission

What a request has to be for its handler to go past the checks: how it parses, which open it names,
and what its tree grants.
-/

namespace SmbServer

open Lib

variable {η : Type}

/-- The parse, class check and lookup of a SET_INFO. -/
theorem SetInfo.validate_eq_ok (conn : Connection η) (hdr : Smb2Header) (body : Bytes)
    (req : SetInfoRequest) (target : Target η) :
    SetInfo.validate conn hdr body = .ok (req, target) ↔
      SetInfoRequest.parse body = some req ∧ InfoType.fromU8 req.infoType = some .file ∧
        lookupTarget conn hdr req.fileId = .ok target := by
  rw [SetInfo.validate]
  cases SetInfoRequest.parse body with
  | none => simp
  | some parsed =>
    simp only [Option.some.injEq]
    constructor
    · intro admitted
      split at admitted
      · cases admitted
      next infoType known =>
      split at admitted
      · cases admitted
      next file =>
      rw [not_not] at file
      subst file
      cases found : lookupTarget conn hdr parsed.fileId with
      | error status => simp [found, bind, Except.bind] at admitted
      | ok open_ =>
        simp only [found, bind, Except.bind, pure, Except.pure, Except.ok.injEq,
          Prod.mk.injEq] at admitted
        obtain ⟨rfl, rfl⟩ := admitted
        exact ⟨rfl, known, found⟩
    · rintro ⟨rfl, known, found⟩
      simp [known, found, bind, Except.bind, pure, Except.pure]

theorem Close.validate_eq_ok (conn : Connection η) (hdr : Smb2Header) (body : Bytes)
    (req : CloseRequest) (target : Target η) :
    Close.validate conn hdr body = .ok (req, target) ↔
      CloseRequest.parse body = some req ∧ lookupTarget conn hdr req.fileId = .ok target := by
  rw [Close.validate]
  cases CloseRequest.parse body with
  | none => simp
  | some parsed =>
    simp only [Option.some.injEq]
    constructor
    · intro admitted
      cases found : lookupTarget conn hdr parsed.fileId with
      | error status => simp [found, bind, Except.bind] at admitted
      | ok open_ =>
        simp only [found, bind, Except.bind, pure, Except.pure, Except.ok.injEq,
          Prod.mk.injEq] at admitted
        obtain ⟨rfl, rfl⟩ := admitted
        exact ⟨rfl, found⟩
    · rintro ⟨rfl, found⟩
      simp [found, bind, Except.bind, pure, Except.pure]

/-- The plan of an admitted CREATE. -/
theorem Create.validate_eq_ok (conn : Connection η) (hdr : Smb2Header) (body : Bytes)
    (plan : Create.Plan η) (admitted : Create.validate conn hdr body = .ok plan) :
    lookupSessionTree conn hdr = .ok (plan.tid, plan.tree) ∧
      Create.openOptions plan.tree.grantedAccess plan.path plan.req = .ok plan.opts := by
  rw [Create.validate] at admitted
  split at admitted
  · cases admitted
  next req _ =>
  -- the tree, the path and the options are asked for in this order
  cases found : lookupSessionTree conn hdr with
  | error status => simp [found, bind, Except.bind] at admitted
  | ok pair =>
    obtain ⟨tid, tree⟩ := pair
    cases named : Create.decodePath req.name with
    | error status => simp [found, named, bind, Except.bind] at admitted
    | ok path =>
      cases decided : Create.openOptions tree.grantedAccess path req with
      | error status => simp [found, named, decided, bind, Except.bind] at admitted
      | ok opts =>
        simp only [found, named, decided, bind, Except.bind, pure, Except.pure,
          Except.ok.injEq] at admitted
        subst admitted
        exact ⟨rfl, decided⟩

/-- On a read-only tree CREATE only opens what exists, and not for writing. -/
theorem Create.openOptions_read (path : SmbPath) (req : CreateRequest) (opts : OpenOptions)
    (h : Create.openOptions .read path req = .ok opts) :
    opts.write = false ∧ opts.intent = .open := by
  rw [Create.openOptions] at h
  split at h
  · cases h
  next intent _ =>
  simp only [Access.allowsWrite, Bool.not_false, Bool.and_true, Bool.true_and] at h
  -- a request that means to write has been refused by now
  by_cases write : Create.wantWrite req.desiredAccess = true
  · simp [write] at h
  by_cases intentWrites : Create.intentWrites intent = true
  · simp [write, intentWrites] at h
  simp only [write, intentWrites, Bool.false_eq_true, if_false] at h
  split at h
  · cases h
  split at h
  · cases h
  split at h
  · cases h
  cases h
  refine ⟨rfl, ?_⟩
  cases intent with
  | «open» => rfl
  | _ => exact absurd rfl intentWrites

theorem lookupTarget_eq_ok (conn : Connection η) (hdr : Smb2Header) (fid : FileId)
    (target : Target η) :
    lookupTarget conn hdr fid = .ok target ↔
      lookupSessionTree conn hdr = .ok (target.tid, target.tree) ∧
        lookupOpen target.tree fid = some target.file := by
  rw [lookupTarget]
  cases lookupSessionTree conn hdr with
  | error status => simp [bind, Except.bind]
  | ok pair =>
    obtain ⟨tid, tree⟩ := pair
    simp only [bind, Except.bind, Except.ok.injEq, Prod.mk.injEq]
    -- the open is looked for in the tree that the header names
    constructor
    · intro found
      split at found
      next file here =>
        cases found
        exact ⟨⟨rfl, rfl⟩, here⟩
      next => cases found
    · rintro ⟨⟨rfl, rfl⟩, here⟩
      simp only [here]
      rfl

/-- The view of the open that a header and a FileId name. -/
theorem openView_of_lookupTarget (conn : Connection η) (hdr : Smb2Header) (fid : FileId)
    (target : Target η) (found : lookupTarget conn hdr fid = .ok target) :
    ∃ v, conn.openView hdr.sessionId target.tid fid = some v ∧ v.handle = target.file.handle ∧
      v.grantedAccess = target.file.grantedAccess := by
  obtain ⟨tree, file⟩ := (lookupTarget_eq_ok conn hdr fid target).mp found
  obtain ⟨-, -, here⟩ := (lookupSessionTree_eq_ok conn hdr _ _).mp tree
  obtain ⟨sess, session, there⟩ := Option.bind_eq_some_iff.mp here
  refine ⟨⟨sess.treeView target.tree, target.file.handle, target.file.grantedAccess⟩, ?_, rfl, rfl⟩
  rw [lookupOpen] at file
  simp only [Connection.openView, session, Option.bind_some, there, file, Option.map_some]

/-- The open that a header and a FileId name. -/
theorem findOpen_of_lookupTarget (conn : Connection η) (hdr : Smb2Header) (fid : FileId)
    (target : Target η) (found : lookupTarget conn hdr fid = .ok target) :
    conn.findOpen hdr.sessionId target.tid fid = some target.file := by
  obtain ⟨tree, file⟩ := (lookupTarget_eq_ok conn hdr fid target).mp found
  obtain ⟨-, -, here⟩ := (lookupSessionTree_eq_ok conn hdr _ _).mp tree
  rw [Connection.findOpen, here, Option.bind_some]
  exact file

/-- The checks of a WRITE. -/
theorem Write.validate_eq_ok (conn : Connection η) (hdr : Smb2Header) (req : WriteRequest)
    (target : Target η) (h : Boxed η) (admitted : Write.validate conn hdr req = .ok (target, h)) :
    lookupTarget conn hdr req.fileId = .ok target ∧ target.tree.grantedAccess = .readWrite ∧
      target.file.handle = some h := by
  rw [Write.validate] at admitted
  split at admitted
  · cases admitted
  -- the level is checked between the tree and the open
  cases found : lookupSessionTree conn hdr with
  | error status => simp [found, bind, Except.bind] at admitted
  | ok pair =>
    simp only [found, bind, Except.bind] at admitted
    split at admitted
    · cases admitted
    next level =>
    split at admitted
    · cases admitted
    next file here =>
    split at admitted
    · cases admitted
    next live =>
    cases admitted
    exact ⟨(lookupTarget_eq_ok _ _ _ _).mpr ⟨found, here⟩, not_not.mp level, live⟩

/-- The operation that a class and a buffer ask for. -/
inductive SetInfo.Decoded (infoClass : UInt8) (buffer : Bytes) (file : Open η) :
    SetInfo.Operation η → Prop where
  | setTimes (cls : infoClass = InfoClass.fileBasicInformation) (long : 36 ≤ buffer.length)
      (h : Boxed η) (live : file.handle = some h) :
      Decoded infoClass buffer file (.setTimes h (SetInfo.decodeTimes buffer))
  | truncate (cls : infoClass = InfoClass.fileEndOfFileInformation) (long : 8 ≤ buffer.length)
      (h : Boxed η) (live : file.handle = some h) :
      Decoded infoClass buffer file (.truncate h (readU64 buffer 0))
  | disposition (cls : infoClass = InfoClass.fileDispositionInformation) (first : UInt8)
      (rest : Bytes) (nonempty : buffer = first :: rest) :
      Decoded infoClass buffer file (.disposition (first != 0))
  | rename (cls : infoClass = InfoClass.fileRenameInformation) (long : 20 ≤ buffer.length)
      (named : 20 + (readU32 buffer 16).toNat ≤ buffer.length) (path : SmbPath)
      (decoded : Create.decodePath (slice buffer 20 (readU32 buffer 16).toNat) = .ok path) :
      Decoded infoClass buffer file (.rename path (buffer.head? != some 0))
  | allocation (cls : infoClass = InfoClass.fileAllocationInformation) :
      Decoded infoClass buffer file .allocation

theorem SetInfo.decode_eq_ok (infoClass : UInt8) (buffer : Bytes) (file : Open η)
    (op : SetInfo.Operation η) :
    SetInfo.decode infoClass buffer file = .ok op ↔ SetInfo.Decoded infoClass buffer file op := by
  constructor
  -- the classes are tried one after the other, each with its own length check
  · intro decoded
    unfold SetInfo.decode at decoded
    split at decoded
    next cls =>
      split at decoded
      · cases decoded
      next long =>
      split at decoded
      next h live =>
        cases decoded
        exact .setTimes cls (Nat.not_lt.mp long) h live
      next => cases decoded
    split at decoded
    next cls =>
      split at decoded
      · cases decoded
      next long =>
      split at decoded
      next h live =>
        cases decoded
        exact .truncate cls (Nat.not_lt.mp long) h live
      next => cases decoded
    split at decoded
    next cls =>
      split at decoded
      next => cases decoded
      next first rest =>
        cases decoded
        exact .disposition cls first rest rfl
    split at decoded
    next cls =>
      split at decoded
      · cases decoded
      next long =>
      dsimp only at decoded
      split at decoded
      · cases decoded
      next named =>
      split at decoded
      next => cases decoded
      next path there =>
        cases decoded
        exact .rename cls (Nat.not_lt.mp long) (Nat.not_lt.mp named) path there
    split at decoded
    next cls =>
      cases decoded
      exact .allocation cls
    next => cases decoded
  · intro decoded
    cases decoded with
    | setTimes cls long h live =>
      subst cls
      simp only [SetInfo.decode, if_true, Nat.not_lt.mpr long, if_false, live]
    | truncate cls long h live =>
      subst cls
      simp only [SetInfo.decode, if_neg (show ¬InfoClass.fileEndOfFileInformation =
        InfoClass.fileBasicInformation by decide), if_true, Nat.not_lt.mpr long, if_false, live]
    | disposition cls first rest nonempty =>
      subst cls nonempty
      have others : InfoClass.fileDispositionInformation ≠ InfoClass.fileBasicInformation ∧
          InfoClass.fileDispositionInformation ≠ InfoClass.fileEndOfFileInformation := by decide
      simp only [SetInfo.decode, others.1, others.2, if_true, if_false]
    | rename cls long named path decoded =>
      subst cls
      have others : InfoClass.fileRenameInformation ≠ InfoClass.fileBasicInformation ∧
          InfoClass.fileRenameInformation ≠ InfoClass.fileEndOfFileInformation ∧
          InfoClass.fileRenameInformation ≠ InfoClass.fileDispositionInformation := by decide
      simp only [SetInfo.decode, others.1, others.2.1, others.2.2, if_true, Nat.not_lt.mpr long,
        if_false, Nat.not_lt.mpr named, decoded]
    | allocation cls =>
      subst cls
      have others : InfoClass.fileAllocationInformation ≠ InfoClass.fileBasicInformation ∧
          InfoClass.fileAllocationInformation ≠ InfoClass.fileEndOfFileInformation ∧
          InfoClass.fileAllocationInformation ≠ InfoClass.fileDispositionInformation ∧
          InfoClass.fileAllocationInformation ≠ InfoClass.fileRenameInformation := by decide
      simp only [SetInfo.decode, others.1, others.2.1, others.2.2.1, others.2.2.2, if_true,
        if_false]

/-- The checks of a QUERY_DIRECTORY. -/
theorem QueryDirectory.validate_iff (conn : Connection η) (hdr : Smb2Header) (body : Bytes)
    (req : QueryDirectoryRequest) (target : Target η) :
    QueryDirectory.validate conn hdr body = .ok (req, target) ↔
      QueryDirectoryRequest.parse body = some req ∧
        isFileInfoClass req.fileInformationClass = true ∧
        lookupTarget conn hdr req.fileId = .ok target ∧ target.file.isDirectory = true := by
  rw [QueryDirectory.validate]
  cases parsed : QueryDirectoryRequest.parse body with
  | none => simp
  | some req' =>
    simp only [Option.some.injEq]
    -- each check fails on its own, and then no target can satisfy the right side
    cases known : isFileInfoClass req'.fileInformationClass with
    | false =>
      simp only [Bool.not_false, if_true, reduceCtorEq, false_iff]
      rintro ⟨rfl, class_, -⟩
      rw [known] at class_
      cases class_
    | true =>
      simp only [Bool.not_true, Bool.false_eq_true, if_false]
      cases found : lookupTarget conn hdr req'.fileId with
      | error status =>
        simp only [bind, Except.bind, reduceCtorEq, false_iff]
        rintro ⟨rfl, -, there, -⟩
        rw [found] at there
        cases there
      | ok target' =>
        cases directory : target'.file.isDirectory with
        | false =>
          simp only [bind, Except.bind, directory, Bool.not_false, if_true, reduceCtorEq, false_iff]
          rintro ⟨rfl, -, there, isDirectory⟩
          obtain rfl := Except.ok.inj (found.symm.trans there)
          rw [directory] at isDirectory
          cases isDirectory
        | true =>
          simp only [bind, Except.bind, directory, Bool.not_true, Bool.false_eq_true, if_false,
            pure, Except.pure, Except.ok.injEq, Prod.mk.injEq]
          constructor
          · rintro ⟨rfl, rfl⟩
            exact ⟨rfl, known, found, directory⟩
          · rintro ⟨rfl, -, there, -⟩
            exact ⟨rfl, Except.ok.inj (found.symm.trans there)⟩

theorem QueryDirectory.validate_eq_ok {hdr : Smb2Header} {body : Bytes} (conn : Connection η)
    (req : QueryDirectoryRequest) (target : Target η)
    (admitted : QueryDirectory.validate conn hdr body = .ok (req, target)) :
    QueryDirectoryRequest.parse body = some req ∧
      lookupTarget conn hdr req.fileId = .ok target ∧ target.file.isDirectory = true := by
  obtain ⟨parsed, -, found, directory⟩ :=
    (QueryDirectory.validate_iff conn hdr body req target).mp admitted
  exact ⟨parsed, found, directory⟩

/-- A QUERY_INFO on a live open passes them. -/
theorem QueryInfo.validate_of_open {conn : Connection η} {hdr : Smb2Header} {body : Bytes}
    {req : QueryInfoRequest} {infoType : InfoType} {target : Target η} {h : Boxed η}
    (parsed : QueryInfoRequest.parse body = some req)
    (typed : InfoType.fromU8 req.infoType = some infoType)
    (found : lookupTarget conn hdr req.fileId = .ok target)
    (live : target.file.handle = some h) :
    QueryInfo.validate conn hdr body = .ok (req, infoType, target, h) := by
  simp only [QueryInfo.validate, parsed, typed, found, bind, Except.bind, live]
  rfl

/-- The checks of a QUERY_INFO. -/
theorem QueryInfo.validate_eq_ok (conn : Connection η) (hdr : Smb2Header) (body : Bytes)
    (req : QueryInfoRequest) (infoType : InfoType) (target : Target η) (h : Boxed η)
    (admitted : QueryInfo.validate conn hdr body = .ok (req, infoType, target, h)) :
    lookupTarget conn hdr req.fileId = .ok target ∧ target.file.handle = some h := by
  rw [QueryInfo.validate] at admitted
  split at admitted
  · cases admitted
  split at admitted
  · cases admitted
  next req' _ _ _ _ =>
  cases found : lookupTarget conn hdr req'.fileId with
  | error status => simp [found, bind, Except.bind] at admitted
  | ok target' =>
    simp only [found, bind, Except.bind] at admitted
    split at admitted
    next live =>
      cases admitted
      exact ⟨found, live⟩
    next => cases admitted

end SmbServer
