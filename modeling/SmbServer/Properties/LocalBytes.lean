import SmbServer.Properties.ByteStore

/-!
# SmbServer.Properties.LocalBytes

The bytes of the files of a directory, and what the methods of a `LocalFsBackend` and of its handles
do to them.

## Main result

`reads_latest`: over directories, a READ that succeeds returns the latest bytes of the file behind
its open. Each of them is the one of the latest counted WRITE across it, unless the file has been
cut off or emptied since. It does not matter through which connections, sessions and opens the
requests came, or whether the file has been renamed or unlinked in between.

## Proof strategy

`LocalHost.store` is a `ByteStore`. Only an open can touch contents on the way to a file, and only
those of the file itself (`open_follows`); handles are taken call by call.
-/

namespace SmbServer

open Lib

/-! ### Contents -/

/-- The calls that do not open leave contents alone. -/
theorem FsCall.exec_contents {ν : Type} [DecidableEq ν] (fs : Fs ν) (c : FsCall ν)
    (noOpen : ∀ path flags, c ≠ .openWith path flags) :
    (c.exec fs).2.contents = fs.contents ∧ (c.exec fs).2.nextFile = fs.nextFile := by
  have made (fs : Fs ν) (path : List ν) : (fs.createDir path).2.contents = fs.contents ∧
      (fs.createDir path).2.nextFile = fs.nextFile := by
    rcases fs.createDir_cases path with ⟨e, failed⟩ | ⟨-, done⟩
    · rw [failed]
      exact ⟨rfl, rfl⟩
    · rw [done]
      exact ⟨rfl, rfl⟩
  have allMade (path : List ν) (fs : Fs ν) :
      (fs.createDirAllRev path).2.contents = fs.contents ∧
        (fs.createDirAllRev path).2.nextFile = fs.nextFile := by
    induction path generalizing fs with
    | nil => exact ⟨rfl, rfl⟩
    -- first the directory itself; where its parent is missing, the parents and then again
    | cons n above ih =>
      have first := made fs (n :: above).reverse
      have up := ih fs
      unfold Fs.createDirAllRev
      dsimp only
      split
      next fs' done =>
        rw [done] at first
        exact first
      next failed =>
        split
        next e fs' failed' =>
          rw [failed'] at up
          exact up
        next fs' done =>
          rw [done] at up
          have again := made fs' (n :: above).reverse
          split
          next fs'' done' =>
            rw [done'] at again
            exact ⟨again.1.trans up.1, again.2.trans up.2⟩
          next e fs'' failed' =>
            rw [failed'] at again
            split <;> exact ⟨again.1.trans up.1, again.2.trans up.2⟩
      next e fs' failed other => split <;> exact ⟨rfl, rfl⟩
  cases c with
  | metadata | symlinkMetadata | «exists» | openDir | openDots => exact ⟨rfl, rfl⟩
  | openWith path flags => exact absurd rfl (noOpen path flags)
  | createDir path => exact made fs path
  | createDirAll path => exact allMade path.reverse fs
  | removeFile path =>
    rcases Fs.removeFile_cases fs path with ⟨e, failed⟩ | ⟨id, -, -, done⟩
    · simp only [FsCall.exec, failed, and_self]
    · simp only [FsCall.exec, done]
      exact ⟨rfl, rfl⟩
  | removeDir path =>
    rcases Fs.removeDir_cases fs path with ⟨e, failed⟩ | ⟨-, -, done⟩
    · simp only [FsCall.exec, failed, and_self]
    · simp only [FsCall.exec, done]
      exact ⟨rfl, rfl⟩
  | rename src dst =>
    rcases Fs.rename_cases fs src dst with ⟨e, failed⟩ | ⟨-, -, done⟩ | ⟨node, -, -, -, done⟩
    · simp only [FsCall.exec, failed, and_self]
    · simp only [FsCall.exec, done, and_self]
    · simp only [FsCall.exec, done]
      exact ⟨rfl, rfl⟩

/-- Only a directory can be opened as `.` or `..`. -/
theorem Fs.openDots_dir {ν : Type} [DecidableEq ν] {fs : Fs ν} {path : List ν} {up : Bool}
    {flags : OpenFlags} {fd : FileDesc} (opened : fs.openDots path up flags = .ok fd) :
    ∃ id, fd.node = .dir id := by
  unfold Fs.openDots at opened
  split at opened
  · cases opened
  next id _ =>
    split at opened
    · split at opened
      · cases opened
      next above _ => exact ⟨above, Fs.node_of_openFound opened⟩
    · exact ⟨id, Fs.node_of_openFound opened⟩

namespace LocalHandle

/-- The files that handles read and write. A file that has not been created yet is empty. -/
def byteView : ByteView (Fs Text) LocalHandle Nat where
  object h := match h.node with
    | .file id => some id
    | .dir _ => none
  bytes fs id := if id < fs.nextFile then fs.contents id else []
  valid fs h := ∀ id, h.node = .file id → id < fs.nextFile

variable {fs fs' : Fs Text}

/-- What leaves contents alone. -/
theorem follows_of_same (contents : fs'.contents = fs.contents)
    (nextFile : fs'.nextFile = fs.nextFile) : byteView.Follows none fs fs' :=
  .of_same (by simp only [byteView, contents, nextFile])

/-- An edit of a file. -/
theorem follows_setContents {id : Nat} (known : id < fs.nextFile) (e : ByteEdit) :
    byteView.Follows (some (id, e)) fs (fs.setContents id (e.apply (fs.contents id))) := by
  constructor
  · funext o
    by_cases same : o = id
    · subst same
      simp [byteView, Fs.setContents, changed, known]
    · simp [byteView, Fs.setContents, changed, same]
  · exact fun h valid => valid

/-- A new file is empty. -/
theorem follows_addFile (path : List Text) :
    byteView.Follows none fs (fs.addFile path) := by
  constructor
  · funext o
    by_cases new : o = fs.nextFile
    · subst new
      simp [byteView, Fs.addFile, changed]
    · have same : (o < fs.nextFile + 1) = (o < fs.nextFile) := propext (by omega)
      simp [byteView, Fs.addFile, changed, new, same]
  · exact fun h valid id node => Nat.lt_succ_of_lt (valid id node)

/-- What is empty can be emptied. -/
theorem follows_emptied {id : Nat} (kept : byteView.Follows none fs fs')
    (empty : byteView.bytes fs id = []) :
    byteView.Follows (some (id, .resize 0)) fs fs' := by
  refine ⟨?_, kept.kept⟩
  rw [kept.bytes, changed, changed, empty]
  exact (Function.update_eq_self_iff.mpr empty.symm).symm

end LocalHandle

/-! ### Opening -/

namespace LocalFsBackend

open LocalProg LocalHandle

/-- The program leaves all bytes alone. -/
def Keeps {α : Type} (prog : LocalProg α) : Prop :=
  prog.Moves fun fs fs' => fs.Sound → fs'.Sound ∧ byteView.Follows none fs fs'

/-- The program opens a file, or fails and leaves all bytes alone. -/
def Opens (opts : OpenOptions) (prog : LocalProg LocalHandle) : Prop :=
  ∀ fs : Fs Text, fs.Sound →
    (∀ h, (prog.runOn fs).1 = .ok h → byteView.valid (prog.runOn fs).2 h ∧
      byteView.Follows (byteView.emptied opts h) fs (prog.runOn fs).2) ∧
    ∀ e, (prog.runOn fs).1 = .error e → byteView.Follows none fs (prog.runOn fs).2

variable {α : Type} {opts : OpenOptions}

theorem keeps_ask {c : FsCall Text} (noOpen : ∀ path flags, c ≠ .openWith path flags) :
    Keeps (ask c) := by
  refine moves_ask fun fs sound => ⟨FsCall.exec_sound sound c, ?_⟩
  obtain ⟨contents, nextFile⟩ := FsCall.exec_contents fs c noOpen
  exact follows_of_same contents nextFile

theorem keeps_throw (e : SmbError) : Keeps (throw e : LocalProg α) :=
  moves_throw (fun _ sound => ⟨sound, .refl _⟩) e

theorem keeps_bind {β : Type} {prog : LocalProg α} {f : α → LocalProg β} (first : Keeps prog)
    (rest : ∀ a, Keeps (f a)) : Keeps (prog >>= f) :=
  moves_bind (fun _ _ _ first second sound =>
    ⟨(second (first sound).1).1, (first sound).2.trans (second (first sound).1).2⟩) first rest

theorem opens_throw (e : SmbError) : Opens opts (throw e) :=
  fun fs _ => ⟨fun _ done => (by cases done), fun _ _ => .refl fs⟩

/-- What comes before the open. -/
theorem opens_behind {fs fs' : Fs Text} {prog : LocalProg LocalHandle}
    {run : SmbResult LocalHandle × Fs Text}
    (kept : byteView.Follows none fs fs') (sound : fs'.Sound) (opens : Opens opts prog)
    (same : run = prog.runOn fs') :
    (∀ h, run.1 = .ok h → byteView.valid run.2 h ∧
      byteView.Follows (byteView.emptied opts h) fs run.2) ∧
    ∀ e, run.1 = .error e → byteView.Follows none fs run.2 := by
  subst same
  obtain ⟨opened, failed⟩ := opens fs' sound
  exact ⟨fun h done => ⟨(opened h done).1, kept.behind (opened h done).2⟩,
    fun e done => kept.behind (failed e done)⟩

theorem opens_bind {prog : LocalProg α} {f : α → LocalProg LocalHandle} (first : Keeps prog)
    (rest : ∀ a, Opens opts (f a)) : Opens opts (prog >>= f) := by
  intro fs sound
  obtain ⟨sound', kept⟩ := first fs sound
  rw [runOn_bind]
  split
  next a fs' run =>
    rw [run] at sound' kept
    exact opens_behind kept sound' (rest a) rfl
  next e fs' run =>
    rw [run] at kept
    exact ⟨fun h done => (by cases done), fun _ _ => kept⟩

theorem opens_askIfFound_bind {c : FsCall Text} {f : Option c.Reply → LocalProg LocalHandle}
    (noOpen : ∀ path flags, c ≠ .openWith path flags) (rest : ∀ found, Opens opts (f found)) :
    Opens opts (askIfFound c >>= f) := by
  intro fs sound
  obtain ⟨sound', kept⟩ := keeps_ask noOpen fs sound
  rw [runOn_ask] at sound' kept
  rw [runOn_askIfFound]
  split
  · exact opens_behind kept sound' (rest _) rfl
  · exact opens_behind kept sound' (rest none) rfl
  · exact ⟨fun h done => (by cases done), fun _ _ => kept⟩

/-- A handle on a directory reads and writes no file. -/
theorem opens_nothing {fs : Fs Text} {h : LocalHandle} (dir : ∃ id, h.node = .dir id) :
    byteView.valid fs h ∧ byteView.Follows (byteView.emptied opts h) fs fs := by
  obtain ⟨id, node⟩ := dir
  constructor
  · intro file there
    rw [node] at there
    cases there
  · have none : byteView.object h = none := by simp only [byteView, node]
    rw [ByteView.emptied, none]
    split <;> exact .refl fs

/-- The open of a file, and the handle that comes of it. -/
theorem opens_file (path : List Text) (name : Text) (readOnly : Bool) :
    Opens opts (do
      let file ← ask (.openWith path (capOptions opts))
      return .file name file readOnly) := by
  intro fs sound
  rcases fs.openWith_cases path (capOptions opts) with ⟨e, failed⟩ | ⟨fd, fs', done, opened⟩
  · rw [runOn_ask_error _ (show FsCall.exec fs (.openWith path (capOptions opts)) = _ from failed)]
    exact ⟨fun h done => (by cases done), fun _ _ => .refl fs⟩
  · rw [runOn_ask_ok _ (show FsCall.exec fs (.openWith path (capOptions opts)) = _ from done)]
    refine ⟨fun h done => ?_, fun e done => (by cases done)⟩
    cases done
    have empties := capOptions_truncate opts
    cases opened with
    | created =>
      refine ⟨?_, ?_⟩
      · rintro id ⟨⟩
        exact Nat.lt_succ_self _
      · -- a new file is empty, whether or not it is emptied
        have kept : byteView.Follows none fs (fs.addFile path) := follows_addFile path
        unfold ByteView.emptied
        split
        · exact follows_emptied kept (by simp [byteView])
        · exact kept
    | dir id there => exact opens_nothing ⟨id, rfl⟩
    | file id there old keeps =>
      refine ⟨?_, ?_⟩
      · rintro id ⟨⟩
        exact sound.known path _ there
      · rw [ByteView.emptied, ← empties, keeps]
        exact .refl fs
    | emptied id there old truncates =>
      have known : id < fs.nextFile := sound.known path _ there
      refine ⟨?_, ?_⟩
      · rintro id ⟨⟩
        exact known
      · rw [ByteView.emptied, ← empties, truncates, if_pos rfl]
        have edited := follows_setContents known (.resize 0)
        simp only [ByteEdit.apply, List.take_zero, Nat.zero_sub, List.replicate_zero,
          List.append_nil] at edited
        exact edited

/-- The open of a directory. -/
theorem opens_dir (path : SmbPath) :
    Opens opts (do
      let dirHandle ← ask (.openDir (toRelPath path))
      return .dir (fileNameFor path) dirHandle) := by
  refine opens_bind (keeps_ask (by rintro path flags ⟨⟩)) fun dirHandle fs _ => ?_
  refine ⟨fun h done => ?_, fun e done => (by cases done)⟩
  cases done
  exact opens_nothing ⟨dirHandle, rfl⟩

theorem opens_stream (baseRel : List Text) (stream : Text) (readOnly : Bool) :
    Opens opts (do
      let file ← openStreamPath baseRel stream (capOptions opts)
      return .file stream file readOnly) := by
  have dots (up : Bool) : Opens opts (do
      let file ← ask (.openDots (streamsDir :: baseRel) up (capOptions opts))
      return .file stream file readOnly) := by
    intro fs _
    cases answer : fs.openDots (streamsDir :: baseRel) up (capOptions opts) with
    | error e =>
      rw [runOn_ask_error (c := .openDots (streamsDir :: baseRel) up (capOptions opts)) _
        (congrArg (fun out => (out, fs)) answer)]
      exact ⟨fun h done => (by cases done), fun _ _ => .refl fs⟩
    | ok fd =>
      rw [runOn_ask_ok (c := .openDots (streamsDir :: baseRel) up (capOptions opts)) _
        (congrArg (fun out => (out, fs)) answer)]
      refine ⟨fun h done => ?_, fun e done => (by cases done)⟩
      cases done
      exact opens_nothing (Fs.openDots_dir answer)
  by_cases dot : stream = ['.']
  · have asks : openStreamPath baseRel stream (capOptions opts) =
        ask (.openDots (streamsDir :: baseRel) false (capOptions opts)) := if_pos dot
    rw [asks]
    exact dots false
  by_cases up : stream = ['.', '.']
  · have asks : openStreamPath baseRel stream (capOptions opts) =
        ask (.openDots (streamsDir :: baseRel) true (capOptions opts)) :=
      (if_neg dot).trans (if_pos up)
    rw [asks]
    exact dots true
  · have asks : openStreamPath baseRel stream (capOptions opts) =
        ask (.openWith (streamRelPath baseRel stream) (capOptions opts)) :=
      (if_neg dot).trans (if_neg up)
    rw [asks]
    exact opens_file _ stream readOnly

theorem openStream_opens (b : LocalFsBackend) (baseRel : List Text) (stream : Text) :
    Opens opts (b.openStream baseRel stream opts) := by
  refine opens_askIfFound_bind (by rintro path flags ⟨⟩) fun found => ?_
  cases found with
  | none => exact opens_throw _
  | some isDir =>
    cases isDir with
    | true => exact opens_throw _
    | false =>
      show Opens opts (if opts.intent.creates then _ else _)
      split
      · exact opens_bind (keeps_ask (by rintro path flags ⟨⟩)) fun _ => opens_stream _ _ _
      · exact opens_stream _ _ _

theorem openDirectory_opens (path : SmbPath) : Opens opts (openDirectory path opts.intent) := by
  have made : Keeps (ask (.createDir path.components)) := keeps_ask (by rintro path flags ⟨⟩)
  unfold openDirectory
  cases opts.intent with
  | «open» => exact opens_dir path
  | create => exact opens_bind made fun _ => opens_dir path
  | openOrCreate =>
    refine opens_bind (keeps_ask (by rintro path flags ⟨⟩)) fun there => ?_
    cases there with
    | true => exact opens_dir path
    | false => exact opens_bind made fun _ => opens_dir path
  | truncate | overwriteOrCreate => exact opens_throw _

theorem openExistingDir_opens (path : SmbPath) : Opens opts (openExistingDir path opts) := by
  unfold openExistingDir
  cases opts.nonDirectory with
  | true => exact opens_throw _
  | false =>
    cases opts.intent with
    | «open» | openOrCreate => exact opens_dir path
    | create | truncate | overwriteOrCreate => exact opens_throw _

theorem openFile_opens (b : LocalFsBackend) (path : SmbPath) :
    Opens opts (b.openFile path opts) := by
  refine opens_askIfFound_bind (by rintro path flags ⟨⟩) fun found => ?_
  cases found with
  | none => exact opens_file _ _ _
  | some isDir =>
    cases isDir with
    | true => exact openExistingDir_opens path
    | false => exact opens_file _ _ _

theorem open_opens (b : LocalFsBackend) (path : SmbPath) : Opens opts (b.open path opts) := by
  unfold LocalFsBackend.open
  split
  · exact opens_throw _
  split
  · exact opens_throw _
  split
  next stream selected =>
    split
    · exact opens_throw _
    · exact b.openStream_opens _ stream
  next selected =>
    split
    · exact openDirectory_opens path
    · exact b.openFile_opens path

theorem unlink_follows (b : LocalFsBackend) (path : SmbPath) : Keeps (b.unlink path) := by
  unfold LocalFsBackend.unlink
  split
  · exact keeps_throw _
  split
  · exact keeps_throw _
  split
  · exact keeps_throw _
  refine keeps_bind (keeps_ask (by rintro path flags ⟨⟩)) fun isDir => ?_
  cases isDir with
  | true => exact keeps_ask (by rintro path flags ⟨⟩)
  | false => exact keeps_ask (by rintro path flags ⟨⟩)

theorem rename_follows (b : LocalFsBackend) (src dst : SmbPath) (replace : Bool) :
    Keeps (b.rename src dst replace) := by
  have renamed : Keeps (ask (.rename (toRelPath src) (toRelPath dst))) :=
    keeps_ask (by rintro path flags ⟨⟩)
  unfold LocalFsBackend.rename
  split
  · exact keeps_throw _
  split
  · exact keeps_throw _
  split
  · exact keeps_throw _
  cases replace with
  | true => exact renamed
  | false =>
    refine keeps_bind (fun fs sound => ?_) fun _ => renamed
    rw [runOn_checkTarget_eq]
    exact ⟨sound, .refl fs⟩

end LocalFsBackend

/-! ### Handles -/

namespace LocalHandle

variable {fs : Fs Text} {h : LocalHandle}

theorem read_returns {offset : UInt64} {len : UInt32} {data : Bytes} (valid : byteView.valid fs h)
    (done : h.read fs offset len = .ok data) :
    ∃ id, byteView.object h = some id ∧
      data = slice (byteView.bytes fs id) offset.toNat len.toNat := by
  cases h with
  | dir => cases done
  | file name fd readOnly =>
    rw [read, Fs.readAt] at done
    split at done
    · cases done
    next id node =>
      have known : id < fs.nextFile := valid id node
      split at done
      · cases done
      split at done
      · cases done
      cases done
      exact ⟨id, by simp only [byteView, LocalHandle.node, node],
        by simp only [byteView, known, if_true]⟩

theorem writeOwned_refused {offset : UInt64} {data : Bytes} {e : SmbError}
    (refused : (h.writeOwned fs offset data).1 = .error e) :
    (h.writeOwned fs offset data).2 = fs := by
  cases h with
  | dir => rfl
  | file name fd readOnly =>
    rw [writeOwned] at refused ⊢
    split
    · rfl
    rcases fs.writeAt_cases fd offset.toNat data with ⟨e', failed⟩ | ⟨id, node, written⟩
    · rw [failed]
    · simp only [*] at refused
      cases refused

theorem writeOwned_follows {offset : UInt64} {data : Bytes} {count : UInt32}
    (valid : byteView.valid fs h) (small : data.length < 2 ^ 32)
    (done : (h.writeOwned fs offset data).1 = .ok count) :
    ∃ id, byteView.object h = some id ∧
      byteView.Follows (some (id, .write offset.toNat (data.take count.toNat))) fs
        (h.writeOwned fs offset data).2 := by
  cases h with
  | dir => cases done
  | file name fd readOnly =>
    rw [writeOwned] at done ⊢
    split at done
    · cases done
    next writable =>
      rw [if_neg writable]
      rcases fs.writeAt_cases fd offset.toNat data with ⟨e, failed⟩ | ⟨id, node, written⟩
      · rw [failed] at done
        cases done
      · rw [written] at done ⊢
        cases done
        -- the count is cut off only behind what a message can hold
        have all : (UInt32.ofNat (min data.length (2 ^ 32 - 1))).toNat = data.length := by
          rw [UInt32.toNat_ofNat_of_lt' (by simp)]
          omega
        refine ⟨id, by simp only [byteView, LocalHandle.node, node], ?_⟩
        rw [all, List.take_length]
        exact follows_setContents (valid id node) (.write offset.toNat data)

theorem truncate_refused {len : UInt64} {e : SmbError}
    (refused : (h.truncate fs len).1 = .error e) : (h.truncate fs len).2 = fs := by
  cases h with
  | dir => rfl
  | file name fd readOnly =>
    rw [truncate] at refused ⊢
    split
    · rfl
    rcases fs.setLen_cases fd len.toNat with ⟨e', failed⟩ | ⟨id, node, cut⟩
    · rw [failed]
    · simp only [*] at refused
      cases refused

theorem truncate_follows {len : UInt64} (valid : byteView.valid fs h)
    (done : (h.truncate fs len).1 = .ok ()) :
    ∃ id, byteView.object h = some id ∧
      byteView.Follows (some (id, .resize len.toNat)) fs (h.truncate fs len).2 := by
  cases h with
  | dir => cases done
  | file name fd readOnly =>
    rw [truncate] at done ⊢
    split at done
    · cases done
    next writable =>
      rw [if_neg writable]
      rcases fs.setLen_cases fd len.toNat with ⟨e, failed⟩ | ⟨id, node, cut⟩
      · rw [failed] at done
        cases done
      · rw [cut]
        exact ⟨id, by simp only [byteView, LocalHandle.node, node],
          follows_setContents (valid id node) (.resize len.toNat)⟩

end LocalHandle

/-! ### The server -/

namespace LocalHost

variable {backends : Nat → LocalFsBackend}

/-- A file is one of a backend. -/
def byteView : ByteView (LocalHost backends) (Nat × LocalHandle) (Nat × Nat) where
  object h := (LocalHandle.byteView.object h.2).map fun id => (h.1, id)
  bytes host o := LocalHandle.byteView.bytes (host.files o.1) o.2
  valid host h := LocalHandle.byteView.valid (host.files h.1) h.2

theorem emptied_map (n : Nat) (opts : OpenOptions) (h : LocalHandle) :
    ((LocalHandle.byteView.emptied opts h).map fun c => ((n, c.1), c.2)) =
      (byteView : ByteView (LocalHost backends) _ _).emptied opts (n, h) := by
  simp only [ByteView.emptied]
  split
  · simp [byteView, Option.map_map, Function.comp_def]
  · rfl

/-- A change in one tree. -/
theorem follows_of_files {host host' : LocalHost backends} {n : Nat} {fs : Fs Text}
    {change : Option (Nat × ByteEdit)} (files : host'.files = Function.update host.files n fs)
    (follows : LocalHandle.byteView.Follows change (host.files n) fs) :
    byteView.Follows (change.map fun c => ((n, c.1), c.2)) host host' := by
  constructor
  · funext o
    obtain ⟨m, id⟩ := o
    by_cases same : m = n
    · subst same
      have here := congrFun follows.bytes id
      simp only [byteView, files, Function.update_self]
      rw [here]
      cases change with
      | none => rfl
      | some c =>
        obtain ⟨file, e⟩ := c
        by_cases this : id = file
        · subst this
          simp [changed]
        · simp [changed, this]
    · simp only [byteView, files, Function.update_of_ne same]
      cases change with
      | none => rfl
      | some c => simp [changed, same]
  · intro h valid
    by_cases same : h.1 = n
    · subst same
      simp only [byteView, files, Function.update_self]
      exact follows.kept h.2 valid
    · simp only [byteView, files, Function.update_of_ne same]
      exact valid

/-- A change through a handle. -/
theorem follows_run {α : Type} {n : Nat} {prog : LocalProgram α} {host : LocalHost backends}
    {change : Option (Nat × ByteEdit)}
    (follows : LocalHandle.byteView.Follows change (host.files n)
      (prog.runOn (host.view host.ticks) (host.files n)).2) :
    byteView.Follows (change.map fun c => ((n, c.1), c.2)) host (run n prog host).2 :=
  follows_of_files (files_run n prog host) follows

/-- What leaves the bytes of one tree alone leaves all of them alone. -/
theorem kept_of_files {host host' : LocalHost backends} {n : Nat} {fs : Fs Text}
    (files : host'.files = Function.update host.files n fs)
    (kept : LocalHandle.byteView.Follows none (host.files n) fs) :
    byteView.Follows none host host' :=
  follows_of_files files kept

theorem run_answer {α : Type} (n : Nat) (prog : LocalProgram α) (host : LocalHost backends) :
    (run n prog host).1 = (prog.runOn (host.view host.ticks) (host.files n)).1 := rfl

/-- The directories as a store. -/
def store : ByteStore (LocalHost backends) (Nat × LocalHandle) (Nat × Nat) where
  toByteView := byteView
  observed := observed.map fun trees : Nat → Fs Text =>
    (fun o : Nat × Nat => LocalHandle.byteView.bytes (trees o.1) o.2,
      fun h : Nat × LocalHandle => LocalHandle.byteView.valid (trees h.1) h.2)
  openRefused n path opts host e refused := by
    rw [open_answer] at refused
    refine kept_of_files (host.files_open n path opts) ?_
    cases answer : (((backends n).open path opts).runOn (host.files n)).1 with
    | error e' => exact (LocalFsBackend.open_opens _ path _ (host.sound_files n)).2 e' answer
    | ok h =>
      rw [answer] at refused
      cases refused
  opened n path opts host h answer := by
    rw [open_answer] at answer
    cases opened : (((backends n).open path opts).runOn (host.files n)).1 with
    | error e =>
      rw [opened] at answer
      cases answer
    | ok inner =>
      rw [opened] at answer
      cases answer
      obtain ⟨valid, follows⟩ :=
        (LocalFsBackend.open_opens _ path _ (host.sound_files n)).1 inner opened
      constructor
      · simp only [byteView, host.files_open n path opts, Function.update_self]
        exact valid
      · have here := follows_of_files (host.files_open n path opts) follows
        rwa [emptied_map] at here
  read h offset len host data valid answer := by
    rw [show (Host.read h offset len host).1 = _ from run_answer h.1 _ host,
      LocalHandle.runOn_readCalls] at answer
    obtain ⟨id, object, data⟩ := LocalHandle.read_returns valid answer
    exact ⟨(h.1, id), by simp only [byteView, object, Option.map_some], data⟩
  writeRefused h offset data host e answer := by
    rw [show (Host.writeOwned h offset data host).1 = _ from run_answer h.1 _ host,
      LocalHandle.runOn_writeOwnedCalls] at answer
    refine kept_of_files (files_run h.1 _ host) ?_
    rw [LocalHandle.runOn_writeOwnedCalls, LocalHandle.writeOwned_refused answer]
    exact .refl _
  written h offset data host count valid small answer := by
    rw [show (Host.writeOwned h offset data host).1 = _ from run_answer h.1 _ host,
      LocalHandle.runOn_writeOwnedCalls] at answer
    obtain ⟨id, object, follows⟩ :=
      LocalHandle.writeOwned_follows valid small answer
    rw [← LocalHandle.runOn_writeOwnedCalls (host.view host.ticks)] at follows
    exact ⟨(h.1, id), by simp only [byteView, object, Option.map_some], follows_run follows⟩
  truncateRefused h len host e answer := by
    rw [show (Host.truncate h len host).1 = _ from run_answer h.1 _ host,
      LocalHandle.runOn_truncateCalls] at answer
    refine kept_of_files (files_run h.1 _ host) ?_
    rw [LocalHandle.runOn_truncateCalls, LocalHandle.truncate_refused answer]
    exact .refl _
  truncated h len host valid answer := by
    rw [show (Host.truncate h len host).1 = _ from run_answer h.1 _ host,
      LocalHandle.runOn_truncateCalls] at answer
    obtain ⟨id, object, follows⟩ := LocalHandle.truncate_follows valid answer
    rw [← LocalHandle.runOn_truncateCalls (host.view host.ticks)] at follows
    exact ⟨(h.1, id), by simp only [byteView, object, Option.map_some], follows_run follows⟩
  setTimes h times host := by
    refine kept_of_files (files_run h.1 _ host) ?_
    rw [h.2.fs_setTimesCalls]
    exact .refl _
  unlink n path host :=
    kept_of_files (host.files_unlink n path)
      (LocalFsBackend.unlink_follows _ path _ (host.sound_files n)).2
  rename n src dst replace host :=
    kept_of_files (host.files_rename n src dst replace)
      (LocalFsBackend.rename_follows _ src dst replace _ (host.sound_files n)).2

end LocalHost

section
variable [Crypto] {backends : Nat → LocalFsBackend}

/-- In every run over directories the replies to READ and WRITE requests are true, whatever requests
come before them in whatever order: what a READ returns are the latest bytes of its file. -/
theorem reads_latest (server : ServerState) (host : LocalHost backends) (before : List Step)
    (step : Step) :
    (runAll System.execute (System.start server host) before).Truthful LocalHost.byteView
      (fun o => ByteEdit.latest (LocalHost.byteView.bytes host o)
        (editsOf o ((System.start server host).changes LocalHost.byteView before))) step :=
  LocalHost.store.truthful_run server host before step

end

/-! ### Two opens of one file -/

open scoped Sample

namespace Sample

/-- Each of two opens writes, the second one into what the first has written. -/
def overwrites : List Bytes :=
  anonymousOn ['w'] ++
    [Client.plain .create 1 1 (Client.createBody 3 2 0 ['a']),
    Client.plain .create 1 1 (Client.createBody 3 1 0 ['a']),
    Client.plain .write 1 1 (Client.writeBody ⟨1, 1⟩ 0 [1, 2, 3]),
    Client.plain .write 1 1 (Client.writeBody ⟨2, 2⟩ 1 [9])]

end Sample

example :
    (((System.start Sample.server Sample.localHost).run (Sample.session Sample.overwrites)).reply
      (.element 1 (.single (Client.plain .read 1 1 (Client.readBody ⟨1, 1⟩ 8))))).map
        (·.drop smb2HeaderLen) = some (Read.response [1, 9, 3]) := by
  decide +kernel

end SmbServer
