import SmbServer.Properties.LocalRequests

/-!
# SmbServer.Properties.StreamHost

What requests through an open of a stream do to the file that the stream is of, on a share that is a
directory of the host.

`LocalFsBackend` opens a stream in a directory of its own; its `unlink` and `rename` take the path
without the selector.

Main result:

  Over every run, READ, WRITE, SET_INFO and CLOSE through an open of a stream leave the file at the
  path of the open alone, and a rename to a path of a stream the file at that path, as long as no
  CLOSE deletes through such an open where something can be removed, and no rename from or to a
  path of a stream succeeds with an effect.

Proof strategy: the handle of an open of a stream is one of something below the directory of the
streams, which no other request takes from there. So a write through it changes another file.
-/

namespace SmbServer

open Lib

/-- What sits at the path stays there, and if it is a file, its contents stay. -/
structure Spares (fs fs' : Fs Text) (path : List Text) : Prop where
  entry : fs'.node path = fs.node path
  contents : ∀ id, fs.node path = some (.file id) → fs'.contents id = fs.contents id

theorem Spares.refl (fs : Fs Text) (path : List Text) : Spares fs fs path :=
  ⟨rfl, fun _ _ => rfl⟩

theorem Uses.unique {η : Type} {conn : Connection η} {hdr : Smb2Header} {body : Bytes}
    {target target' : Target η} (uses : Uses conn hdr body target)
    (uses' : Uses conn hdr body target') : target = target' := by
  obtain ⟨fid, named, found⟩ := uses
  obtain ⟨fid', named', found'⟩ := uses'
  obtain rfl := Option.some.inj (named.symm.trans named')
  exact Except.ok.inj (found.symm.trans found')

theorem SetInfo.Reaches.unique {η : Type} {conn : Connection η} {hdr : Smb2Header} {body : Bytes}
    {target target' : Target η} {op op' : SetInfo.Operation η}
    (reaches : SetInfo.Reaches conn hdr body target op)
    (reaches' : SetInfo.Reaches conn hdr body target' op') : op = op' := by
  obtain ⟨-, req, admitted, decoded⟩ := reaches
  obtain ⟨-, req', admitted', decoded'⟩ := reaches'
  obtain ⟨rfl, rfl⟩ := Prod.mk.inj (Except.ok.inj (admitted.symm.trans admitted'))
  exact Except.ok.inj (decoded.symm.trans decoded')

section

variable {backends : Nat → LocalFsBackend} [Crypto]

/-- A request through an open of a stream spares the file of the stream, and a rename to a stream
the file at the path that it names. -/
def System.SparesHost (s : System (LocalHost backends) (Nat × LocalHandle)) (step : Step) : Prop :=
  ∀ conn hdr body target n, s.Executes step conn hdr body → Uses conn hdr body target →
    target.tree.share.backend = .custom n →
      (target.file.lastPath.stream ≠ none →
        Spares (s.env.host.files n) ((s.execute step).env.host.files n)
          target.file.lastPath.components) ∧
      ∀ dst replace, SetInfo.Reaches conn hdr body target (.rename dst replace) →
        dst.stream ≠ none → Spares (s.env.host.files n) ((s.execute step).env.host.files n)
          dst.components

/-- The step takes a stream for its file. -/
inductive System.TakesForFile (s : System (LocalHost backends) (Nat × LocalHandle)) (step : Step) :
    Prop where
  /-- A CLOSE deletes through an open of a stream, where a file or an empty directory sits. -/
  | deleted (conn : Connection (Nat × LocalHandle)) (hdr : Smb2Header) (body : Bytes)
      (req : CloseRequest) (target : Target (Nat × LocalHandle)) (n : Nat)
      (executes : s.Executes step conn hdr body) (cmd : hdr.command = .close)
      (admitted : Close.validate conn hdr body = .ok (req, target))
      (marked : target.file.deleteOnClose = true)
      (backend : target.tree.share.backend = .custom n) (writable : (backends n).readOnly = false)
      (selected : target.file.lastPath.stream ≠ none)
      (there : (s.env.host.node n target.file.lastPath.components).isSome)
      (leaf : ∀ q, target.file.lastPath.components <+: q → q ≠ target.file.lastPath.components →
        s.env.host.node n q = none)
  /-- A rename from or to a stream succeeds. It moves the file, or gives the selector to an open
  that had none. -/
  | renamed (conn : Connection (Nat × LocalHandle)) (hdr : Smb2Header) (body : Bytes)
      (target : Target (Nat × LocalHandle)) (dst : SmbPath) (replace : Bool) (n : Nat)
      (executes : s.Executes step conn hdr body)
      (reaches : SetInfo.Reaches conn hdr body target (.rename dst replace))
      (backend : target.tree.share.backend = .custom n)
      (done : (Host.rename n target.file.lastPath dst replace s.env.host).1 = .ok ())
      (selected : target.file.lastPath.stream ≠ none ∨ dst.stream ≠ none)
      (effect : target.file.lastPath.components ≠ dst.components ∨
        target.file.lastPath.stream = none)

/-! ### The invariant -/

omit [Crypto] in
/-- The handle of an open of a stream is one of something that sits nowhere outside of the directory
of the streams. -/
def Apart (host : LocalHost backends) (share : ShareBindings) (file : Open (Nat × LocalHandle)) :
    Prop :=
  ∀ n, share.backend = .custom n → file.lastPath.stream ≠ none →
    Outside file.lastPath.components ∧ ∀ m x, file.object = some (m, x) →
      m = n ∧ (host.files n).Known x ∧ ∀ q, Outside q → host.node n q ≠ some x

section
variable {s : System (LocalHost backends) (Nat × LocalHandle)} {step : Step}

/-- The opens there are stay apart. -/
theorem Apart.kept {share : ShareBindings} {file : Open (Nat × LocalHandle)}
    (apart : Apart s.env.host share file) : Apart (s.execute step).env.host share file := by
  intro n backend selected
  obtain ⟨outside, object⟩ := apart n backend selected
  refine ⟨outside, fun m x is => ?_⟩
  obtain ⟨same, known, away⟩ := object m x is
  refine ⟨same, ?_⟩
  rcases s.execute_files step with same | ⟨conn, hdr, body, executes⟩
  · simp only [LocalHost.node, same]
    exact ⟨known, away⟩
  have touches := executes.touches n
  simp only [LocalHost.node]
  generalize (s.execute step).env.host.files n = fs at touches
  cases touches with
  | nothing | written => exact ⟨known, away⟩
  | opened plan cmd admitted backend' =>
    have grows := LocalFsBackend.open_grows (backends n) plan.path plan.opts (s.env.host.files n)
    refine ⟨grows.known x known, fun q out there => ?_⟩
    rcases grows.added q x there with old | ⟨-, new⟩
    · exact away q out old
    · exact new known
  | renamed target dst replace reaches backend' =>
    have leaves := LocalFsBackend.rename_leaves (backends n) target.file.lastPath dst replace
      (s.env.host.files n)
    generalize LocalProg.runOn _ _ = out at leaves
    cases leaves with
    | failed | same => exact ⟨known, away⟩
    | moved outside' outside'' movable =>
      refine ⟨known, fun q out there => ?_⟩
      rw [Fs.node_move movable] at there
      split at there
      -- what sits outside below the target has sat outside below the source
      next below =>
        obtain ⟨rest, rfl⟩ := below
        rw [List.drop_left] at there
        refine away _ ?_ there
        intro name member
        rcases List.mem_append.mp member with above | below
        · exact outside' name above
        · exact out name (List.mem_append_right _ below)
      next =>
        split at there
        · cases there
        · exact away q out there
  | unlinked req target cmd admitted marked backend' =>
    have leaves := LocalFsBackend.unlink_leaves (backends n) target.file.lastPath
      (s.env.host.files n)
    generalize LocalProg.runOn _ _ = out at leaves
    cases leaves with
    | failed => exact ⟨known, away⟩
    | removed outside' proper here =>
      refine ⟨known, fun q out there => ?_⟩
      rw [Fs.node_removeEntry proper here] at there
      split at there
      · cases there
      · exact away q out there

/-- A new open of a stream is apart. -/
theorem apart_created {plan : Create.Plan (Nat × LocalHandle)} {inner : Nat × LocalHandle}
    {info : FileInfo}
    (opened : (plan.tree.share.backend.open plan.path plan.opts s.env.host).1 = .ok inner)
    (host : (s.execute step).env.host = (Host.stat inner
      (plan.tree.share.backend.open plan.path plan.opts s.env.host).2).2) :
    Apart (s.execute step).env.host plan.tree.share (plan.file ⟨s.env.nextHandle, inner⟩ info) := by
  intro n backend selected
  change plan.path.stream ≠ none at selected
  rw [backend, BackendRef.open] at opened host
  have files : (s.execute step).env.host.files n =
      (((backends n).open plan.path plan.opts).runOn (s.env.host.files n)).2 := by
    rw [host, LocalHost.observed.stat, LocalHost.files_open, Function.update_self]
  have sound := (s.execute step).env.host.sound_files n
  rw [LocalHost.open_answer] at opened
  cases answer : (((backends n).open plan.path plan.opts).runOn (s.env.host.files n)).1 with
  | error e =>
    rw [answer] at opened
    cases opened
  | ok h =>
    rw [answer] at opened
    obtain rfl := Except.ok.inj opened
    obtain ⟨outside, p, inside, there⟩ := LocalFsBackend.stream_opened (backends n)
      (s.env.host.root_files n) selected answer
    rw [← files] at there
    refine ⟨outside, fun m x is => ?_⟩
    obtain ⟨rfl, rfl⟩ := Prod.mk.inj (Option.some.inj is)
    refine ⟨rfl, sound.known p _ there, fun q out here => ?_⟩
    exact inside (sound.unique q p _ here there ▸ out)

/-- So is an open that is renamed, if it was one of a stream before and its file stays. -/
theorem apart_renamed {conn : Connection (Nat × LocalHandle)} {hdr : Smb2Header} {body : Bytes}
    {target : Target (Nat × LocalHandle)} {dst : SmbPath} {replace : Bool}
    (apart : s.Opens (Apart s.env.host)) (spared : ¬s.TakesForFile step)
    (executes : s.Executes step conn hdr body)
    (reaches : SetInfo.Reaches conn hdr body target (.rename dst replace))
    (done : (target.tree.share.backend.rename target.file.lastPath dst replace
      s.env.host).1 = .ok ()) :
    Apart (s.execute step).env.host target.tree.share { target.file with lastPath := dst } := by
  intro n backend selected
  have live := (SetInfo.Reaches.uses reaches).hasOpen executes
  rw [backend, BackendRef.rename] at done
  have still : target.file.lastPath.components = dst.components ∧
      target.file.lastPath.stream ≠ none := by
    by_contra moved
    rw [not_and_or, not_not] at moved
    exact spared (.renamed conn hdr body target dst replace n executes reaches backend done
      (.inr selected) moved)
  have kept : Apart (s.execute step).env.host target.tree.share target.file := (apart _ _ live).kept
  have after := kept n backend still.2
  rw [still.1] at after
  exact after

theorem apart_execute (apart : s.Opens (Apart s.env.host)) (spared : ¬s.TakesForFile step) :
    (s.execute step).Opens (Apart (s.execute step).env.host) := by
  refine System.Opens.execute step apart ?_ ?_ ?_ ?_ ?_
  · exact fun _ _ _ _ good => good
  · exact fun _ _ _ _ good => good
  · exact fun share file live good => good.kept
  · exact fun conn hdr body plan inner info _ _ _ opened host => apart_created opened host
  · exact fun conn hdr body target dst replace executes reaches done _ =>
      apart_renamed apart spared executes reaches done

/-! ### A step -/

/-- While the opens of streams are apart, a step spares their files. -/
theorem sparesHost_of_apart (apart : s.Opens (Apart s.env.host)) (spared : ¬s.TakesForFile step) :
    s.SparesHost step := by
  intro conn hdr body target n executes uses backend
  have live := uses.hasOpen executes
  have touches := executes.touches n
  generalize (s.execute step).env.host.files n = fs at touches
  cases touches with
  | nothing => exact ⟨fun _ => .refl _ _, fun _ _ _ _ => .refl _ _⟩
  | opened plan cmd =>
    obtain ⟨fid, named, -⟩ := uses
    rw [namedFile, cmd] at named
    cases named
  | written target' id bytes uses' changes object =>
    obtain rfl := uses.unique uses'
    constructor
    -- the handle is one of another file
    · intro selected
      obtain ⟨outside, handle⟩ := apart _ _ live n backend selected
      obtain ⟨-, -, away⟩ := handle n _ object
      refine ⟨rfl, fun id' there => ?_⟩
      have other : id' ≠ id := by
        rintro rfl
        exact away _ outside there
      exact Function.update_of_ne other _ _
    · intro dst replace reaches
      rcases changes with write | ⟨h, len, truncates⟩
      · exact absurd (write.symm.trans reaches.1) (by decide)
      · cases SetInfo.Reaches.unique reaches truncates
  | renamed target' dst replace reaches =>
    obtain rfl := uses.unique (SetInfo.Reaches.uses reaches)
    have leaves := LocalFsBackend.rename_leaves (backends n) target.file.lastPath dst replace
      (s.env.host.files n)
    have answer := s.env.host.rename_answer n target.file.lastPath dst replace
    generalize LocalProg.runOn _ _ = out at leaves answer
    cases leaves with
    | failed | same => exact ⟨fun _ => .refl _ _, fun _ _ _ _ => .refl _ _⟩
    | moved outside outside' movable =>
      have taken (selected : target.file.lastPath.stream ≠ none ∨ dst.stream ≠ none) : False := by
        refine spared (.renamed conn hdr body target dst replace n executes reaches backend answer
          selected (.inl fun same => ?_))
        exact movable.notBelow (same ▸ List.prefix_refl _)
      refine ⟨fun selected => (taken (.inl selected)).elim, fun dst' replace' reaches' selected => ?_⟩
      cases SetInfo.Reaches.unique reaches reaches'
      exact (taken (.inr selected)).elim
  | unlinked req target' cmd admitted marked =>
    obtain ⟨parsed, found⟩ := (Close.validate_eq_ok conn hdr body req target').mp admitted
    obtain rfl := uses.unique ⟨req.fileId, by simp [namedFile, cmd, parsed], found⟩
    refine ⟨fun selected => ?_, fun dst replace reaches =>
      absurd (cmd.symm.trans reaches.1) (by decide)⟩
    have leaves := LocalFsBackend.unlink_leaves (backends n) target.file.lastPath
      (s.env.host.files n)
    have refused (readOnly : (backends n).readOnly = true) :=
      LocalFsBackend.unlink_of_readOnly readOnly target.file.lastPath (s.env.host.files n)
    generalize LocalProg.runOn _ _ = out at leaves refused
    cases leaves with
    | failed => exact .refl _ _
    | removed outside proper here leaf =>
      refine (spared (.deleted conn hdr body req target n executes cmd admitted marked backend ?_
        selected here leaf)).elim
      by_contra readOnly
      cases refused (Bool.not_eq_false _ ▸ readOnly)

/-! ### A run -/

end

/-- Over every run that takes no stream for its file, the requests through opens of streams spare
the files of the streams. -/
theorem sparesHost_of_never (server : ServerState) (host : LocalHost backends) (events : List Event)
    (spared : System.Throughout server host events fun s step => ¬s.TakesForFile step) :
    System.Throughout server host events System.SparesHost := by
  refine Always.imp (fun s => s.Opens (Apart s.env.host)) ?_ ?_ _ _ ?_ spared
  · exact fun s step apart quiet => apart_execute apart quiet
  · exact fun s step apart quiet => sparesHost_of_apart apart quiet
  · rintro share file ⟨cid, conn, sid, tid, tree, fid, live, -⟩
    cases live

/-! ### A run that takes no stream for its file -/

section
variable (s : System (LocalHost backends) (Nat × LocalHandle)) (cid : UInt64)

/-- The frame is no SET_INFO, and no CLOSE that deletes. -/
def System.keepsNames (frame : Bytes) : Bool :=
  (Smb2Header.parse (Element.single frame).bytes).all fun found =>
    match found.1.command with
    | .setInfo => false
    | .close => (s.closing cid frame).all fun target => !target.file.deleteOnClose
    | _ => true

theorem System.not_takesForFile_of_keepsNames (frame : Bytes)
    (keeps : s.keepsNames cid frame = true) : ¬s.TakesForFile (.element cid (.single frame)) := by
  intro takes
  rw [keepsNames] at keeps
  cases takes with
  | deleted conn hdr body req target n executes cmd admitted marked =>
    have closes := closing_eq_some.mpr ⟨conn, hdr, body, req, executes, cmd, admitted⟩
    obtain ⟨cid', e, same, -, accepted⟩ := executes
    obtain ⟨-, rfl⟩ := Step.element.inj same
    rw [accepted.1] at keeps
    simp only [Option.all_some, cmd, closes, marked, Bool.not_true, Bool.false_eq_true] at keeps
  | renamed conn hdr body target dst replace n executes reaches =>
    obtain ⟨cid', e, same, -, accepted⟩ := executes
    obtain ⟨-, rfl⟩ := Step.element.inj same
    rw [accepted.1] at keeps
    simp only [Option.all_some, reaches.1, Bool.false_eq_true] at keeps

end

end

open scoped Sample

namespace Sample

/-- A file and a stream of it are created; the stream is opened with these options. -/
def createStream (options : UInt32) : List Bytes :=
  anonymousOn ['w'] ++
    [Client.plain .create 1 1 (Client.createBody Create.fileWriteData 2 0 ['a']),
    Client.plain .create 1 1 (Client.createBody Create.fileWriteData 2 options ['a', ':', 's'])]

def closeStream : Bytes := Client.plain .close 1 1 (Client.closeBody ⟨2, 2⟩)

/-- The stream is to be deleted on close. -/
def streamToDelete : List Event := session (createStream Create.fileDeleteOnClose)

/-- The stream is written and closed. -/
def writeStream : List Bytes :=
  createStream 0 ++ [Client.plain .write 1 1 (Client.writeBody ⟨2, 2⟩ 0 [7]), closeStream]

end Sample

theorem writeStream_spares :
    System.Throughout Sample.server Sample.localHost (Sample.session Sample.writeStream)
      System.SparesHost := by
  refine sparesHost_of_never Sample.server Sample.localHost _ ?_
  refine Sample.throughout_session (fun s takes => ?_)
    (fun s => s.not_takesForFile_of_keepsNames 1) _ _ _ (by decide +kernel)
  cases takes with
  | deleted _ _ _ _ _ _ executes | renamed _ _ _ _ _ _ _ executes =>
    obtain ⟨cid, e, other, -⟩ := executes
    cases other

/-- A CLOSE of the stream deletes the file. -/
theorem stream_deletes_file :
    ¬∀ events : List Event,
      System.Throughout Sample.server Sample.localHost events System.SparesHost := by
  intro all
  have last := (all (Sample.streamToDelete ++ [.frame 1 Sample.closeStream])).last
    (by decide +kernel) (by decide +kernel)
  have reached : let s := (System.start Sample.server Sample.localHost).run Sample.streamToDelete
      ((s.closing 1 Sample.closeStream).any fun target =>
        target.tree.share.backend == .custom 0 &&
          target.file.lastPath == ⟨[['a']], some ['s']⟩) = true ∧
      s.env.host.node 0 [['a']] = some (.file 0) ∧
      (s.execute (.element 1 (.single Sample.closeStream))).env.host.node 0 [['a']] = none := by
    decide +kernel
  obtain ⟨closes, there, gone⟩ := reached
  simp only [Option.any_eq_true, Bool.and_eq_true, beq_iff_eq] at closes
  obtain ⟨target, closes, backend, path⟩ := closes
  obtain ⟨conn, hdr, body, req, executes, close, admitted⟩ := System.closing_eq_some.mp closes
  obtain ⟨parsed, found⟩ := (Close.validate_eq_ok conn hdr body req target).mp admitted
  have uses : Uses conn hdr body target :=
    ⟨req.fileId, by simp [namedFile, close, parsed], found⟩
  have spared := (last conn hdr body target 0 executes uses backend).1 (by simp [path])
  have stays := spared.entry
  rw [path] at stays
  cases there.symm.trans (stays.symm.trans gone)

end SmbServer
