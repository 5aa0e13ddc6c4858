import SmbServer.Fs.Local
import SmbServer.Lib.PosixLaws

/-!
# SmbServer.Properties.Disposition

`LocalFsBackend::open` against the table of SMB dispositions.

## Main result

`open_disposition`: on every tree, an open without a stream succeeds exactly when the disposition
takes what sits at the path, makes or empties that and nothing else, and changes nothing when it
fails. A CREATE that asks for a directory never truncates, also where there is nothing to empty.

`truncatingDirectory_refused` shows what is left out of the table for that: OVERWRITE_IF of a
missing directory does not make it.

## Proof strategy

The programs of the backend are run call by call (`runOn_bind`, `runOn_ask`). What a call replies
is said for each of the targets: nothing, below a directory or not; a file; a directory.
-/

namespace SmbServer

open Lib

/-! ### Running programs of the backend -/

namespace LocalProg

variable {α β : Type}

/-- The result of a program that nothing interferes with, and the tree behind it. -/
def runOn (fs : Fs Text) (prog : LocalProg α) : SmbResult α × Fs Text :=
  FsProg.run fs (ExceptT.run prog)

theorem runOn_pure (fs : Fs Text) (a : α) : (pure a : LocalProg α).runOn fs = (.ok a, fs) := rfl

theorem runOn_throw (fs : Fs Text) (e : SmbError) :
    (throw e : LocalProg α).runOn fs = (.error e, fs) := rfl

theorem runOn_bind (fs : Fs Text) (prog : LocalProg α) (f : α → LocalProg β) :
    (prog >>= f).runOn fs =
      match prog.runOn fs with
      | (.ok a, fs) => (f a).runOn fs
      | (.error e, fs) => (.error e, fs) := by
  have split := FsProg.run_bind fs prog.run (ExceptT.bindCont f)
  show FsProg.run fs (prog.run.bind (ExceptT.bindCont f)) = _
  rw [split, runOn]
  generalize FsProg.run fs prog.run = reached
  obtain ⟨result, fs⟩ := reached
  cases result <;> rfl

theorem runOn_ask (fs : Fs Text) (c : FsCall Text) :
    (ask c).runOn fs = ((c.exec fs).1.mapError ioToSmb, (c.exec fs).2) := rfl

/-- A call that succeeds, and what follows it. -/
theorem runOn_ask_ok {fs fs' : Fs Text} {c : FsCall Text} {reply : c.Reply}
    (f : c.Reply → LocalProg α) (done : c.exec fs = (.ok reply, fs')) :
    (ask c >>= f).runOn fs = (f reply).runOn fs' := by
  rw [runOn_bind, runOn_ask, done]
  rfl

theorem runOn_ask_error {fs fs' : Fs Text} {c : FsCall Text} {e : IoError}
    (f : c.Reply → LocalProg α) (failed : c.exec fs = (.error e, fs')) :
    (ask c >>= f).runOn fs = (.error (ioToSmb e), fs') := by
  rw [runOn_bind, runOn_ask, failed]
  rfl

/-- `NotFound` is an answer, other errors are not. -/
theorem runOn_askIfFound (fs : Fs Text) (c : FsCall Text) (f : Option c.Reply → LocalProg α) :
    (askIfFound c >>= f).runOn fs =
      match (c.exec fs).1 with
      | .ok reply => (f (some reply)).runOn (c.exec fs).2
      | .error .notFound => (f none).runOn (c.exec fs).2
      | .error e => (.error (ioToSmb e), (c.exec fs).2) := by
  have asked : (askIfFound c).runOn fs =
      (match (c.exec fs).1 with
        | .ok reply => .ok (some reply)
        | .error .notFound => .ok none
        | .error e => .error (ioToSmb e), (c.exec fs).2) := by
    show FsProg.run _ ((FsProg.call c .done).bind _) = _
    rw [FsProg.run_bind]
    simp only [FsProg.run]
    cases (c.exec fs).1 with
    | ok reply => rfl
    | error e => cases e <;> rfl
  rw [runOn_bind, asked]
  cases (c.exec fs).1 with
  | ok reply => rfl
  | error e => cases e <;> rfl

end LocalProg

/-! ### The table -/

/-- The dispositions that empty a file. -/
def OpenIntent.truncates : OpenIntent → Bool
  | .truncate | .overwriteOrCreate => true
  | .open | .create | .openOrCreate => false

/-- The disposition takes what sits at the path. A missing target is made in a directory; an
existing one has the kind that is asked for, and is no directory that would be truncated. -/
def Takes (fs : Fs Text) (path : List Text) (opts : OpenOptions) : Prop :=
  match fs.node path with
  | none => opts.intent.creates = true ∧ ∃ id, fs.node path.dropLast = some (.dir id)
  | some (.file _) => opts.intent ≠ .create ∧ opts.directory = false
  | some (.dir _) =>
    opts.intent ≠ .create ∧ opts.nonDirectory = false ∧ opts.intent.truncates = false

/-- A directory is asked for with a disposition that empties. -/
def OpenOptions.truncatesDirectory (opts : OpenOptions) : Bool :=
  opts.directory && opts.intent.truncates

/-- The tree with the created entry, or with the emptied file. -/
def withTarget (fs : Fs Text) (path : List Text) (opts : OpenOptions) : Fs Text :=
  match fs.node path with
  | none => if opts.directory then fs.addDir path else fs.addFile path
  | some (.file id) => if opts.intent.truncates then fs.setContents id [] else fs
  | some (.dir _) => fs

def LocalHandle.node : LocalHandle → Node Nat
  | .file _ fd _ => fd.node
  | .dir _ dirHandle => .dir dirHandle

/-- An open succeeds if and only if the table says so, with a handle of the target and the tree
that the disposition makes; a failed open leaves the tree. -/
structure FollowsTable (takes : Prop) (fs : Fs Text) (path : List Text) (opts : OpenOptions)
    (outcome : SmbResult LocalHandle × Fs Text) : Prop where
  succeeds : (∃ h, outcome.1 = .ok h) ↔ takes
  tree : ∀ h, outcome.1 = .ok h → outcome.2 = withTarget fs path opts
  target : ∀ h, outcome.1 = .ok h → outcome.2.node path = some h.node
  others : ∀ q, q ≠ path → outcome.2.node q = fs.node q
  unchanged : ∀ e, outcome.1 = .error e → outcome.2 = fs

/-! ### What a call replies at each target -/

section
variable {fs : Fs Text} {path : List Text}

theorem parent_of_node {node : Node Nat} (root : ∃ id, fs.node [] = some (.dir id))
    (there : fs.node path = some node) : fs.parent path = .ok () := by
  rw [Fs.parent_eq_ok]
  by_cases top : path = []
  · rw [top]
    exact root
  · exact Fs.node_dropLast top (by rw [there]; rfl)

/-- Below a directory, a missing entry is not found. -/
theorem find_of_missing (above : ∃ id, fs.node path.dropLast = some (.dir id))
    (missing : fs.node path = none) : fs.find path = .error .notFound := by
  apply Fs.Clear.find _ missing
  rintro q ⟨rest, whole⟩ id there
  -- what sits on the way to a directory is a directory
  obtain ⟨id', above⟩ := above
  rcases List.eq_nil_or_concat rest with rfl | ⟨front, last, rfl⟩
  · rw [List.append_nil] at whole
    rw [whole, missing] at there
    cases there
  · have up : path.dropLast = q ++ front := by
      rw [← whole, List.concat_eq_append, ← List.append_assoc, List.dropLast_concat]
    rw [up] at above
    by_cases same : front = []
    · rw [same, List.append_nil, there] at above
      cases above
    · obtain ⟨id'', dir⟩ := Fs.node_of_append same (by rw [above]; rfl)
      rw [there] at dir
      cases dir

theorem find_of_none (missing : fs.node path = none) : ∃ e, fs.find path = .error e := by
  cases found : fs.find path with
  | error e => exact ⟨e, rfl⟩
  | ok node =>
    rw [Fs.find_eq_ok.mp found] at missing
    cases missing

theorem openDir_of_dir {id : Nat} (there : fs.node path = some (.dir id)) :
    fs.openDir path = .ok id := by
  rw [Fs.openDir, Fs.find_eq_ok.mpr there]

theorem openDir_of_not (noDir : ∀ id, fs.node path ≠ some (.dir id)) :
    ∃ e, fs.openDir path = .error e := by
  rw [Fs.openDir]
  cases found : fs.find path with
  | error e => exact ⟨e, rfl⟩
  | ok node =>
    cases node with
    | file id => exact ⟨_, rfl⟩
    | dir id => exact absurd (Fs.find_eq_ok.mp found) (noDir id)

theorem createDir_of_admits (admits : fs.Admits path) :
    fs.createDir path = (.ok (), fs.addDir path) := by
  rw [Fs.createDir, Fs.parent_eq_ok.mpr admits.parent, admits.missing]

theorem createDir_of_not (refuses : ¬fs.Admits path) :
    ∃ e, fs.createDir path = (.error e, fs) := by
  rcases Fs.createDir_cases fs path with failed | ⟨admits, -⟩
  · exact failed
  · exact absurd admits refuses

theorem openWith_of_file {id : Nat} (root : ∃ id, fs.node [] = some (.dir id))
    (there : fs.node path = some (.file id)) (flags : OpenFlags) (old : flags.createNew = false) :
    fs.openWith path flags = (.ok ⟨.file id, flags.read, flags.write⟩,
      if flags.truncate then fs.setContents id [] else fs) := by
  rw [Fs.openWith, parent_of_node root there, there]
  simp only [old, Bool.false_eq_true, if_false]
  split <;> rfl

theorem openWith_of_admits (admits : fs.Admits path) (flags : OpenFlags)
    (creates : (flags.create || flags.createNew) = true) :
    fs.openWith path flags =
      (.ok ⟨.file fs.nextFile, flags.read, flags.write⟩, fs.addFile path) := by
  rw [Fs.openWith, Fs.parent_eq_ok.mpr admits.parent, admits.missing]
  exact if_pos creates

/-- A file that is there and must be new, or one that is not there and cannot be made. -/
theorem openWith_of_not (flags : OpenFlags)
    (refuses : ∀ fd fs', ¬fs.Opened path flags fd fs') :
    ∃ e, fs.openWith path flags = (.error e, fs) := by
  rcases Fs.openWith_cases fs path flags with failed | ⟨fd, fs', -, opened⟩
  · exact failed
  · exact absurd opened (refuses fd fs')

end

/-! ### The outcome -/

section
variable {fs : Fs Text} {path : List Text} {opts : OpenOptions} {takes : Prop}

theorem FollowsTable.refused (refuses : ¬takes) (e : SmbError) :
    FollowsTable takes fs path opts (.error e, fs) := by
  constructor
  · exact ⟨fun ⟨_, ok⟩ => (by cases ok), fun yes => absurd yes refuses⟩
  · intro h ok
    cases ok
  · intro h ok
    cases ok
  · exact fun _ _ => rfl
  · exact fun _ _ => rfl

/-- Other paths have what they had. -/
theorem node_withTarget (creates : fs.node path = none → fs.Admits path) (q : List Text)
    (other : q ≠ path) : (withTarget fs path opts).node q = fs.node q := by
  rw [withTarget]
  cases target : fs.node path with
  | none =>
    dsimp only
    split
    · rw [Fs.node_addDir (creates target), if_neg other]
    · rw [Fs.node_addFile (creates target), if_neg other]
  | some node =>
    cases node with
    | file id => dsimp only; split <;> rfl
    | dir id => rfl

theorem FollowsTable.opened (yes : takes) (creates : fs.node path = none → fs.Admits path)
    {h : LocalHandle} {fs' : Fs Text} (tree : fs' = withTarget fs path opts)
    (target : fs'.node path = some h.node) : FollowsTable takes fs path opts (.ok h, fs') := by
  constructor
  · exact ⟨fun _ => yes, fun _ => ⟨h, rfl⟩⟩
  · exact fun _ _ => tree
  · intro h' ok
    rw [← Except.ok.inj ok]
    exact target
  · intro q other
    rw [tree]
    exact node_withTarget creates q other
  · intro e failed
    cases failed

end

/-! ### The two branches of `open` -/

namespace LocalFsBackend

variable {fs : Fs Text} {path : SmbPath} {opts : OpenOptions}

/-- Opening the directory at the path, the end of every open of one. -/
def openAsDir (path : SmbPath) : LocalProg LocalHandle := do
  let dirHandle ← ask (.openDir (toRelPath path))
  return .dir (fileNameFor path) dirHandle

theorem runOn_openAsDir_of_dir {id : Nat} (there : fs.node path.components = some (.dir id)) :
    (openAsDir path).runOn fs = (.ok (.dir (fileNameFor path) id), fs) := by
  have done : (FsCall.openDir path.components).exec fs = (.ok id, fs) :=
    congrArg (fun reply => (reply, fs)) (openDir_of_dir there)
  exact LocalProg.runOn_ask_ok _ done

theorem runOn_openAsDir_of_not (noDir : ∀ id, fs.node path.components ≠ some (.dir id)) :
    ∃ e, (openAsDir path).runOn fs = (.error e, fs) := by
  obtain ⟨e, failed⟩ := openDir_of_not noDir
  have failed : (FsCall.openDir path.components).exec fs = (.error e, fs) :=
    congrArg (fun reply => (reply, fs)) failed
  exact ⟨_, LocalProg.runOn_ask_error _ failed⟩

/-- Opening what is there, where the disposition takes a directory. -/
theorem openAsDir_follows {takes : Prop}
    (yes : ∀ id, fs.node path.components = some (.dir id) → takes)
    (no : (∀ id, fs.node path.components ≠ some (.dir id)) → ¬takes) :
    FollowsTable takes fs path.components opts ((openAsDir path).runOn fs) := by
  by_cases dir : ∃ id, fs.node path.components = some (.dir id)
  · obtain ⟨id, there⟩ := dir
    rw [runOn_openAsDir_of_dir there]
    refine .opened (yes id there) (fun missing => ?_) ?_ there
    · rw [there] at missing
      cases missing
    · rw [withTarget, there]
  · have noDir : ∀ id, fs.node path.components ≠ some (.dir id) :=
      fun id there => dir ⟨id, there⟩
    obtain ⟨e, failed⟩ := runOn_openAsDir_of_not noDir
    rw [failed]
    exact .refused (no noDir) _

/-- Making a directory and opening it. -/
theorem createDir_follows {takes : Prop} (directory : opts.directory = true)
    (yes : fs.Admits path.components → takes) (no : ¬fs.Admits path.components → ¬takes) :
    FollowsTable takes fs path.components opts
      ((ask (.createDir path.components) >>= fun _ => openAsDir path).runOn fs) := by
  by_cases admits : fs.Admits path.components
  · have done : (FsCall.createDir path.components).exec fs =
        (.ok (), fs.addDir path.components) := createDir_of_admits admits
    have made : (fs.addDir path.components).node path.components = some (.dir fs.nextDir) := by
      rw [Fs.node_addDir admits, if_pos rfl]
    rw [LocalProg.runOn_ask_ok _ done, runOn_openAsDir_of_dir made]
    refine .opened (yes admits) (fun _ => admits) ?_ made
    rw [withTarget, admits.missing]
    exact (if_pos directory).symm
  · obtain ⟨e, failed⟩ := createDir_of_not admits
    have failed : (FsCall.createDir path.components).exec fs = (.error e, fs) := failed
    rw [LocalProg.runOn_ask_error _ failed]
    exact .refused (no admits) _

/-- A CREATE that asks for a directory. -/
theorem openDirectory_follows (directory : opts.directory = true)
    (either : opts.nonDirectory = false) :
    FollowsTable (Takes fs path.components opts ∧ opts.truncatesDirectory = false) fs
      path.components opts ((openDirectory path opts.intent).runOn fs) := by
  have takes_dir {id : Nat} (there : fs.node path.components = some (.dir id)) :
      Takes fs path.components opts ↔ opts.intent ≠ .create ∧ opts.intent.truncates = false := by
    simp only [Takes, there, either, true_and]
  have takes_file {id : Nat} (there : fs.node path.components = some (.file id)) :
      ¬Takes fs path.components opts := by
    simp [Takes, there, directory]
  have takes_missing (missing : fs.node path.components = none) :
      Takes fs path.components opts ↔
        opts.intent.creates = true ∧ fs.Admits path.components := by
    simp only [Takes, missing]
    exact and_congr_right fun _ => ⟨fun above => ⟨above, missing⟩, (·.parent)⟩
  have empties : opts.truncatesDirectory = opts.intent.truncates := by
    rw [OpenOptions.truncatesDirectory, directory, Bool.true_and]
  -- what sits there when a new entry cannot be made
  have noDir (intent : opts.intent.creates = false)
      (noDir : ∀ id, fs.node path.components ≠ some (.dir id)) :
      ¬(Takes fs path.components opts ∧ opts.truncatesDirectory = false) := by
    rintro ⟨takes, -⟩
    cases target : fs.node path.components with
    | none => exact absurd ((takes_missing target).mp takes).1 (by simp [intent])
    | some node =>
      cases node with
      | file id => exact takes_file target takes
      | dir id => exact noDir id target
  unfold openDirectory
  cases intent : opts.intent with
  | «open» =>
    refine openAsDir_follows (fun id there => ?_) (noDir (by rw [intent]; rfl))
    rw [takes_dir there, empties, intent]
    exact ⟨⟨by simp, rfl⟩, rfl⟩
  | create =>
    refine createDir_follows directory (fun admits => ?_) fun refuses => ?_
    · rw [takes_missing admits.missing, empties, intent]
      exact ⟨⟨rfl, admits⟩, rfl⟩
    · rintro ⟨takes, -⟩
      cases target : fs.node path.components with
      | none => exact refuses ((takes_missing target).mp takes).2
      | some node =>
        cases node with
        | file id => exact takes_file target takes
        | dir id => exact ((takes_dir target).mp takes).1 intent
  | openOrCreate =>
    -- the target is made when it is missing, and opened in both cases
    let continue_ (there : Bool) : LocalProg LocalHandle :=
      if !there then ask (.createDir path.components) >>= fun _ => openAsDir path
      else openAsDir path
    have step : LocalProg.runOn fs (ask (.exists path.components) >>= continue_) =
        (continue_ (fs.node path.components).isSome).runOn fs :=
      @LocalProg.runOn_ask_ok _ fs fs (.exists path.components) _ continue_ rfl
    refine Eq.mpr (congrArg (FollowsTable _ fs _ opts) step) ?_
    cases target : fs.node path.components with
    | none =>
      refine createDir_follows directory (fun admits => ?_) fun refuses yes => ?_
      · rw [takes_missing target, empties, intent]
        exact ⟨⟨rfl, admits⟩, rfl⟩
      · exact refuses ((takes_missing target).mp yes.1).2
    | some node =>
      refine openAsDir_follows (fun id there => ?_) fun noDir yes => ?_
      · rw [takes_dir there, empties, intent]
        exact ⟨⟨by simp, rfl⟩, rfl⟩
      · cases node with
        | file id => exact takes_file target yes.1
        | dir id => exact noDir id target
  | truncate | overwriteOrCreate =>
    refine .refused (fun yes => ?_) _
    rw [empties, intent] at yes
    exact absurd yes.2 (by decide)

/-- A directory that is there, by the disposition. -/
def openFoundDir (path : SmbPath) : OpenIntent → LocalProg LocalHandle
  | .open | .openOrCreate => openAsDir path
  | .create => throw .exists
  | .truncate | .overwriteOrCreate => throw .isDirectory

/-- A directory that is there, where none was asked for. -/
theorem openExistingDir_follows {id : Nat} (there : fs.node path.components = some (.dir id))
    (directory : opts.directory = false) :
    FollowsTable (Takes fs path.components opts ∧ opts.truncatesDirectory = false) fs
      path.components opts ((openExistingDir path opts).runOn fs) := by
  have takes : (Takes fs path.components opts ∧ opts.truncatesDirectory = false) ↔
      opts.intent ≠ .create ∧ opts.nonDirectory = false ∧ opts.intent.truncates = false := by
    simp only [Takes, there, OpenOptions.truncatesDirectory, directory, Bool.false_and, and_true]
  rw [takes]
  -- refused where a file was asked for; else by the intent
  by_cases excluded : opts.nonDirectory = true
  · have refused : (openExistingDir path opts).runOn fs = (.error .isDirectory, fs) := by
      rw [openExistingDir, if_pos excluded]
      rfl
    rw [refused]
    exact .refused (fun yes => by rw [yes.2.1] at excluded; cases excluded) _
  · have body : (openExistingDir path opts).runOn fs =
        (openFoundDir path opts.intent).runOn fs := by
      rw [openExistingDir, if_neg excluded]
      rfl
    rw [body]
    have either : opts.nonDirectory = false := Bool.eq_false_iff.mpr excluded
    cases opts.intent with
    | «open» | openOrCreate =>
      refine openAsDir_follows (fun _ _ => ⟨by simp, either, rfl⟩) fun noDir => ?_
      exact absurd there (noDir id)
    | create => exact .refused (fun yes => yes.1 rfl) _
    | truncate | overwriteOrCreate => exact .refused (fun yes => absurd yes.2.2 (by decide)) _

/-- The intent as flags: what it makes, what it empties and when it wants a new file. -/
theorem capOptions_createNew (opts : OpenOptions) :
    (capOptions opts).createNew = true ↔ opts.intent = .create := by
  rw [capOptions]
  cases opts.intent <;> simp

theorem capOptions_creates (opts : OpenOptions) :
    ((capOptions opts).create || (capOptions opts).createNew) = opts.intent.creates := by
  rw [capOptions]
  cases opts.intent <;> rfl

theorem capOptions_truncate (opts : OpenOptions) :
    (capOptions opts).truncate = opts.intent.truncates := by
  rw [capOptions]
  cases opts.intent <;> rfl

/-- Opening or making the file at the path. -/
def openAsFile (b : LocalFsBackend) (path : SmbPath) (opts : OpenOptions) :
    LocalProg LocalHandle := do
  let file ← ask (.openWith (toRelPath path) (capOptions opts))
  return .file (fileNameFor path) file b.readOnly

theorem openAsFile_follows (b : LocalFsBackend) (root : ∃ id, fs.node [] = some (.dir id))
    (noDir : ∀ id, fs.node path.components ≠ some (.dir id)) (directory : opts.directory = false) :
    FollowsTable (Takes fs path.components opts ∧ opts.truncatesDirectory = false) fs
      path.components opts ((b.openAsFile path opts).runOn fs) := by
  have keeps : opts.truncatesDirectory = false := by
    rw [OpenOptions.truncatesDirectory, directory, Bool.false_and]
  -- the two ways that the one call can end
  have refused (no : ¬Takes fs path.components opts)
      (refuses : ∀ fd fs', ¬fs.Opened path.components (capOptions opts) fd fs') :
      FollowsTable (Takes fs path.components opts ∧ opts.truncatesDirectory = false) fs
        path.components opts ((b.openAsFile path opts).runOn fs) := by
    obtain ⟨e, failed⟩ := openWith_of_not (capOptions opts) refuses
    have failed : (FsCall.openWith path.components (capOptions opts)).exec fs = (.error e, fs) :=
      failed
    have run : (b.openAsFile path opts).runOn fs = _ := LocalProg.runOn_ask_error _ failed
    rw [run]
    exact .refused (fun yes => no yes.1) _
  have opened {fd : FileDesc} {fs' : Fs Text} (yes : Takes fs path.components opts)
      (done : fs.openWith path.components (capOptions opts) = (.ok fd, fs'))
      (creates : fs.node path.components = none → fs.Admits path.components)
      (tree : fs' = withTarget fs path.components opts)
      (target : fs'.node path.components = some fd.node) :
      FollowsTable (Takes fs path.components opts ∧ opts.truncatesDirectory = false) fs
        path.components opts ((b.openAsFile path opts).runOn fs) := by
    have done : (FsCall.openWith path.components (capOptions opts)).exec fs = (.ok fd, fs') := done
    have run : (b.openAsFile path opts).runOn fs =
        (.ok (.file (fileNameFor path) fd b.readOnly), fs') := LocalProg.runOn_ask_ok _ done
    rw [run]
    exact .opened ⟨yes, keeps⟩ creates tree target
  cases target : fs.node path.components with
  -- nothing there: a new file, if the intent creates and the parent is a directory
  | none =>
    have takes : Takes fs path.components opts ↔
        opts.intent.creates = true ∧ fs.Admits path.components := by
      simp only [Takes, target]
      exact and_congr_right fun _ => ⟨fun above => ⟨above, target⟩, (·.parent)⟩
    by_cases made : opts.intent.creates = true ∧ fs.Admits path.components
    · obtain ⟨creates, admits⟩ := made
      refine opened (takes.mpr ⟨creates, admits⟩) (openWith_of_admits admits (capOptions opts)
        (by rw [capOptions_creates, creates])) (fun _ => admits) ?_ ?_
      · simp only [withTarget, target, directory, Bool.false_eq_true, if_false]
      · rw [Fs.node_addFile admits, if_pos rfl]
    · refine refused (fun yes => made (takes.mp yes)) fun fd fs' done => ?_
      cases done with
      | created creates admits =>
        rw [capOptions_creates] at creates
        exact made ⟨creates, admits⟩
      | dir id there => exact absurd there (noDir id)
      | file id there => rw [target] at there; cases there
      | emptied id there => rw [target] at there; cases there
  | some node =>
    cases node with
    | dir id => exact absurd target (noDir id)
    | file id =>
      have takes : Takes fs path.components opts ↔ opts.intent ≠ .create := by
        simp only [Takes, target, directory, and_true]
      -- a file is there: only the intent to create is refused
      by_cases new : opts.intent = .create
      · refine refused (fun yes => takes.mp yes new) fun fd fs' done => ?_
        have createNew := (capOptions_createNew opts).mpr new
        cases done with
        | created creates admits => rw [admits.missing] at target; cases target
        | dir _ _ old => rw [createNew] at old; cases old
        | file _ _ old => rw [createNew] at old; cases old
        | emptied _ _ old => rw [createNew] at old; cases old
      · have old : (capOptions opts).createNew = false :=
          Bool.eq_false_iff.mpr fun createNew => new ((capOptions_createNew opts).mp createNew)
        refine opened (takes.mpr new) (openWith_of_file root target _ old)
          (fun missing => by rw [target] at missing; cases missing) ?_ ?_
        · simp only [withTarget, target, capOptions_truncate]
        · split
          · exact target
          · exact target

/-- What follows the look at the target. -/
def openTarget (b : LocalFsBackend) (path : SmbPath) (opts : OpenOptions) :
    Option Bool → LocalProg LocalHandle
  | some true => openExistingDir path opts
  | _ => b.openAsFile path opts

theorem openFile_eq (b : LocalFsBackend) (path : SmbPath) (opts : OpenOptions) :
    b.openFile path opts = askIfFound (.metadata path.components) >>= b.openTarget path opts := by
  refine congrArg (bind (askIfFound (.metadata path.components))) (funext fun found => ?_)
  cases found with
  | none => rfl
  | some isDir => cases isDir <;> rfl

theorem runOn_openFile_found (b : LocalFsBackend) {node : Node Nat}
    (found : fs.find path.components = .ok node) :
    (b.openFile path opts).runOn fs = (b.openTarget path opts (some node.isDir)).runOn fs := by
  rw [openFile_eq]
  refine (LocalProg.runOn_askIfFound fs (.metadata path.components) _).trans ?_
  simp only [FsCall.exec, found]
  rfl

theorem runOn_openFile_missing (b : LocalFsBackend)
    (missing : fs.find path.components = .error .notFound) :
    (b.openFile path opts).runOn fs = (b.openAsFile path opts).runOn fs := by
  rw [openFile_eq]
  refine (LocalProg.runOn_askIfFound fs (.metadata path.components) _).trans ?_
  simp only [FsCall.exec, missing]
  rfl

theorem runOn_openFile_failed (b : LocalFsBackend) {e : IoError}
    (failed : fs.find path.components = .error e) (other : e ≠ .notFound) :
    (b.openFile path opts).runOn fs = (.error (ioToSmb e), fs) := by
  rw [openFile_eq]
  refine (LocalProg.runOn_askIfFound fs (.metadata path.components) _).trans ?_
  simp only [FsCall.exec, failed]
  cases e with
  | notFound => exact absurd rfl other
  | alreadyExists | directoryNotEmpty | isADirectory | notADirectory | invalidInput | other => rfl

/-- An open that does not ask for a directory. -/
theorem openFile_follows (b : LocalFsBackend) (root : ∃ id, fs.node [] = some (.dir id))
    (directory : opts.directory = false) :
    FollowsTable (Takes fs path.components opts ∧ opts.truncatesDirectory = false) fs
      path.components opts ((b.openFile path opts).runOn fs) := by
  cases target : fs.node path.components with
  | some node =>
    rw [runOn_openFile_found b (Fs.find_eq_ok.mpr target)]
    cases node with
    | dir id => exact openExistingDir_follows target directory
    | file id =>
      exact openAsFile_follows b root (fun id' there => by rw [target] at there; cases there)
        directory
  | none =>
    have noDir (id : Nat) : fs.node path.components ≠ some (.dir id) := by simp [target]
    have follows := openAsFile_follows b root noDir directory
    -- nothing there: the first call says so only where the parent is a directory
    by_cases above : ∃ id, fs.node path.components.dropLast = some (.dir id)
    · rw [runOn_openFile_missing b (find_of_missing above target)]
      exact follows
    · -- nothing can be made there, whatever the first call says
      have no : ¬(Takes fs path.components opts ∧ opts.truncatesDirectory = false) := by
        simp only [Takes, target]
        exact fun yes => above yes.1.2
      obtain ⟨e, failed⟩ := find_of_none target
      by_cases missing : e = .notFound
      · rw [missing] at failed
        rw [runOn_openFile_missing b failed]
        exact follows
      · rw [runOn_openFile_failed b failed missing]
        exact .refused no _

theorem open_follows (b : LocalFsBackend) (root : ∃ id, fs.node [] = some (.dir id))
    (allowed : (b.readOnly && opts.writes) = false) (primary : path.streamName = none)
    (outside : isStreamsControlPath path = false)
    (one : ¬(opts.directory = true ∧ opts.nonDirectory = true)) :
    FollowsTable (Takes fs path.components opts ∧ opts.truncatesDirectory = false) fs
      path.components opts ((b.open path opts).runOn fs) := by
  have body : b.open path opts =
      if opts.directory then openDirectory path opts.intent else b.openFile path opts := by
    rw [LocalFsBackend.open, allowed, outside, primary]
    rfl
  rw [body]
  cases directory : opts.directory with
  | true =>
    have either : opts.nonDirectory = false :=
      Bool.eq_false_iff.mpr fun both => one ⟨directory, both⟩
    exact openDirectory_follows directory either
  | false => exact openFile_follows b root directory

end LocalFsBackend

/-- An open without a stream follows the table, with the one exception that a directory is never
truncated. -/
theorem open_disposition (b : LocalFsBackend) (fs : Fs Text) (path : SmbPath) (opts : OpenOptions)
    (root : ∃ id, fs.node [] = some (.dir id)) (writable : b.readOnly = false)
    (primary : path.streamName = none) (outside : isStreamsControlPath path = false)
    (one : ¬(opts.directory = true ∧ opts.nonDirectory = true)) :
    FollowsTable (Takes fs (toRelPath path) opts ∧ opts.truncatesDirectory = false) fs
      (toRelPath path) opts ((b.open path opts).runOn fs) :=
  LocalFsBackend.open_follows b root (by rw [writable, Bool.false_and]) primary outside one

/-- A share with nothing in it. -/
def Sample.emptyShare : Fs Text := ⟨.dir 0 [], fun _ => [], 0, 1⟩

/-- A CREATE for a directory `d` with some disposition. -/
def Sample.directoryOptions (intent : OpenIntent) : OpenOptions :=
  ⟨true, false, intent, true, false, false⟩

def Sample.entryPath : SmbPath := ⟨[['d']], none⟩

/-- OPEN_IF makes the directory. -/
theorem open_disposition_openIf :
    FollowsTable (Takes Sample.emptyShare (toRelPath Sample.entryPath)
        (Sample.directoryOptions .openOrCreate) ∧
          (Sample.directoryOptions .openOrCreate).truncatesDirectory = false)
      Sample.emptyShare (toRelPath Sample.entryPath) (Sample.directoryOptions .openOrCreate)
      (LocalProg.runOn Sample.emptyShare
        (LocalFsBackend.open ⟨false⟩ Sample.entryPath (Sample.directoryOptions .openOrCreate))) :=
  open_disposition ⟨false⟩ Sample.emptyShare Sample.entryPath
    (Sample.directoryOptions .openOrCreate) ⟨0, rfl⟩ rfl rfl (by decide +kernel) (by decide)

/-- OVERWRITE_IF does not, though the disposition takes a missing target. -/
theorem truncatingDirectory_refused :
    ¬∀ (b : LocalFsBackend) (fs : Fs Text) (path : SmbPath) (opts : OpenOptions),
      (∃ id, fs.node [] = some (.dir id)) → b.readOnly = false → path.streamName = none →
        isStreamsControlPath path = false → ¬(opts.directory = true ∧ opts.nonDirectory = true) →
          FollowsTable (Takes fs (toRelPath path) opts) fs (toRelPath path) opts
            ((b.open path opts).runOn fs) := by
  intro all
  have follows := all ⟨false⟩ Sample.emptyShare Sample.entryPath
    (Sample.directoryOptions .overwriteOrCreate) ⟨0, rfl⟩ rfl rfl (by decide +kernel) (by decide)
  have takes : Takes Sample.emptyShare (toRelPath Sample.entryPath)
      (Sample.directoryOptions .overwriteOrCreate) := ⟨rfl, 0, rfl⟩
  obtain ⟨h, ok⟩ := follows.succeeds.mpr takes
  cases ok

end SmbServer
