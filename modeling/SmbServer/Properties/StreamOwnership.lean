import SmbServer.Lib.Run
import SmbServer.Properties.LocalAgreement
import SmbServer.Properties.LocalRequests
import SmbServer.Properties.StreamStorage
import SmbServer.Properties.StreamStore

/-!
# SmbServer.Properties.StreamOwnership

Whether the streams of a `LocalFsBackend` belong to their files.

The backend keeps a stream by the path of its file. An unlink and a rename do not touch what is kept
there: a file that is made at the path later has the streams of the one before, and a file that
moves leaves its streams behind.

## Main result

`replies_of_keepsStreams`: as long as nothing is kept under what is removed, moved or replaced, and
no stream is named `.` or `..`, the replies are those of a share in which each file carries its
streams, whatever the requests are.

## Proof strategy

`Represents` relates a tree to a store: the same files and directories, and each stream of the store
below the path of its file. Without a stream the methods do the same on both
(`SmbServer.Properties.LocalAgreement`). An edit of the tree then keeps the relation for one of
three reasons: it adds an entry that had no streams (`grow`), it takes entries away that had none
(`vacate`), or it adds to what is kept below one file (`pave`, `addStream`).
-/

namespace SmbServer

open Lib

/-! ### What a request comes to -/

/-- An open of a stream comes to the directory of its host's streams. -/
structure OpensStream (b : LocalFsBackend) (fs : Fs Text) (path : SmbPath) (opts : OpenOptions) :
    Prop where
  writable : (b.readOnly && opts.writes) = false
  outside : isStreamsControlPath path = false
  plain : opts.directory = false
  host : ∃ id, fs.node path.components = some (.file id)

/-- An unlink takes the entry at the path. -/
structure Unlinks (b : LocalFsBackend) (fs : Fs Text) (path : SmbPath) : Prop where
  writable : b.readOnly = false
  outside : isStreamsControlPath path = false
  leaf : (∃ id, fs.node path.components = some (.file id)) ∨ fs.isEmptyDir path.components = true

/-- A rename takes what sits at `src` to `dst`. -/
structure Renames (b : LocalFsBackend) (fs : Fs Text) (src dst : SmbPath) (replace : Bool) :
    Prop where
  writable : b.readOnly = false
  outsideSrc : isStreamsControlPath src = false
  outsideDst : isStreamsControlPath dst = false
  movable : fs.Movable src.components dst.components
  replaceable : ∃ node, fs.node src.components = some node ∧
    fs.replaceable node dst.components = .ok ()
  free : replace = false → fs.node dst.components = none

namespace LocalFsBackend

theorem unlinks_of_removed {b : LocalFsBackend} {path : SmbPath} {fs fs' : Fs Text}
    (done : (b.unlink path).runOn fs = (.ok (), fs'))
    (outside : Outside path.components)
    (there : (fs.node path.components).isSome)
    (leaf : ∀ q, path.components <+: q → q ≠ path.components → fs.node q = none) :
    Unlinks b fs path := by
  constructor
  · by_contra readOnly
    rw [Bool.not_eq_false] at readOnly
    rw [unlink_of_readOnly readOnly] at done
    cases done
  · exact (outside_iff path).mpr outside
  · obtain ⟨node, here⟩ := Option.isSome_iff_exists.mp there
    cases node with
    | file id => exact .inl ⟨id, here⟩
    | dir id =>
      refine .inr (Fs.isEmptyDir_iff.mpr ⟨⟨id, here⟩, fun n => ?_⟩)
      exact leaf _ (List.prefix_append path.components [n]) (by simp)

/-- What a rename leaves: the tree, or the tree with an entry moved. -/
inductive Carried (b : LocalFsBackend) (fs : Fs Text) (src dst : SmbPath) (replace : Bool) :
    Fs Text → Prop where
  | kept : Carried b fs src dst replace fs
  | moved (renames : Renames b fs src dst replace) :
      Carried b fs src dst replace (fs.move src.components dst.components)

theorem rename_carries (b : LocalFsBackend) (src dst : SmbPath) (replace : Bool) (fs : Fs Text) :
    Carried b fs src dst replace ((b.rename src dst replace).runOn fs).2 := by
  unfold rename
  split
  · exact .kept
  next writable =>
  split
  · exact .kept
  next outside =>
  split
  · exact .kept
  rw [Bool.not_eq_true] at writable
  rw [Bool.or_eq_true, not_or, Bool.not_eq_true, Bool.not_eq_true] at outside
  have renames (free : replace = false → fs.node dst.components = none) :
      Carried b fs src dst replace (fs.rename src.components dst.components).2 := by
    rcases Fs.rename_cases fs src.components dst.components with
      ⟨e, failed⟩ | ⟨-, -, done⟩ | ⟨node, there, allowed, movable, done⟩
    · rw [failed]
      exact .kept
    · rw [done]
      exact .kept
    · rw [done]
      exact .moved ⟨writable, outside.1, outside.2, movable, ⟨node, there, allowed⟩, free⟩
  cases replace with
  | true => exact renames fun kept => Bool.noConfusion kept
  | false =>
    show Carried b fs _ _ _ ((checkTarget dst.components >>= fun _ =>
      ask (.rename src.components dst.components)).runOn fs).2
    rw [LocalProg.runOn_bind, runOn_checkTarget_eq]
    cases found : fs.find dst.components with
    | ok node => exact .kept
    | error e =>
      apply renames
      intro _
      cases there : fs.node dst.components with
      | none => rfl
      | some node =>
        rw [Fs.find_eq_ok.mpr there] at found
        cases found

end LocalFsBackend

/-! ### Streams by path and by file -/

/-- The tree keeps the streams of the store, each below the path of its file, and nothing else in
the directory of the streams. -/
structure Represents (fs : Fs Text) (m : StreamStore) : Prop where
  root : ∃ id, fs.node [] = some (.dir id)
  sound : fs.Sound
  alike : fs.AlikeBut streamsDir m.files
  kept : ∀ path host, Beside streamsDir path → fs.node path = some (.file host) →
    ∀ stream obj, m.streams host stream = some obj ↔
      fs.node (streamRelPath path stream) = some (.file obj)
  dirs : ∀ path id, fs.node (streamsDir :: path) = some (.dir id) → (fs.node path).isSome
  files : ∀ path obj, fs.node (streamsDir :: path) = some (.file obj) →
    ∃ host stream id, path = host ++ [stream] ∧ fs.node host = some (.file id)

namespace Represents

variable {fs fs' : Fs Text} {m : StreamStore}

/-- Below nothing there is nothing. -/
theorem hidden {path : List Text} (none : fs.node (streamsDir :: path) = none) (rest : List Text) :
    fs.node (streamsDir :: (path ++ rest)) = .none := by
  rw [← List.cons_append]
  exact Fs.node_eq_none_of_append none

/-- A share that has had no streams yet. -/
theorem start (dir : ShareDir) (fresh : dir.fs.node [streamsDir] = none) :
    Represents dir.fs ⟨dir.fs, fun _ _ => none⟩ := by
  have empty (q : List Text) : dir.fs.node (streamsDir :: q) = none := hidden fresh q
  constructor
  · exact dir.root
  · exact dir.sound
  · exact .refl dir.fs
  · intro path host beside there stream obj
    constructor
    · intro here
      cases here
    · intro here
      rw [streamRelPath, List.cons_append, empty] at here
      cases here
  · intro path id here
    rw [empty] at here
    cases here
  · intro path obj here
    rw [empty] at here
    cases here

/-- What has been there stays. -/
theorem isSome_of_kept (kept : ∀ q node, fs.node q = some node → fs'.node q = some node)
    {q : List Text} (there : (fs.node q).isSome) : (fs'.node q).isSome := by
  obtain ⟨node, here⟩ := Option.isSome_iff_exists.mp there
  rw [kept q node here]
  rfl

/-- Streams are kept below files only. -/
theorem not_kept (rep : Represents fs m) {path : List Text}
    (noFile : ∀ id, fs.node path ≠ some (.file id)) (stream : Text) (obj : Nat) :
    fs.node (streamRelPath path stream) ≠ some (.file obj) := by
  intro here
  obtain ⟨host, stream', id, same, there⟩ := rep.files (path ++ [stream]) obj here
  obtain ⟨rfl, -⟩ := List.append_inj' same rfl
  exact noFile id there

/-- In a directory of streams there are no directories. -/
theorem not_dir (rep : Represents fs m) {path : List Text} {host : Nat}
    (there : fs.node path = some (.file host)) (stream : Text) (id : Nat) :
    fs.node (streamRelPath path stream) ≠ some (.dir id) := by
  intro here
  obtain ⟨id', dir⟩ := Fs.node_of_append (List.cons_ne_nil stream [])
    (rep.dirs (path ++ [stream]) id here)
  rw [there] at dir
  cases dir

/-! ### Contents -/

theorem setContents (rep : Represents fs m) (id : Nat) (bytes : Bytes) :
    Represents (fs.setContents id bytes) { m with files := m.files.setContents id bytes } :=
  ⟨rep.root, rep.sound.setContents id bytes, rep.alike.setContents id bytes, rep.kept, rep.dirs,
    rep.files⟩

/-! ### Entries -/

/-- Apart from some entries the tree stays, and under these no streams are kept. What comes in their
place has no streams. -/
theorem vacate (rep : Represents fs m) (apart : List Text → Prop) {m' : StreamStore}
    (root : ∃ id, fs'.node [] = some (.dir id))
    (sound : fs'.Sound)
    (alike : fs'.AlikeBut streamsDir m'.files)
    (reserved : ∀ q, apart (streamsDir :: q))
    (others : ∀ q, apart q → fs'.node q = fs.node q)
    (free : ∀ q, ¬apart q → fs.node (streamsDir :: q) = none)
    (same : ∀ q host, apart q → fs.node q = some (.file host) →
      m'.streams host = m.streams host)
    (bare : ∀ q host, ¬apart q → fs'.node q = some (.file host) →
      ∀ stream, m'.streams host stream = none) :
    Represents fs' m' := by
  have apart_of_kept {q rest : List Text} (there : (fs.node (streamsDir :: (q ++ rest))).isSome) :
      apart q := by
    by_contra near
    rw [hidden (free q near)] at there
    cases there
  constructor
  · exact root
  · exact sound
  · exact alike
  · intro path host beside there stream obj
    rw [streamRelPath, List.cons_append, others _ (reserved _)]
    by_cases away : apart path
    · rw [others path away] at there
      rw [same path host away there]
      exact rep.kept path host beside there stream obj
    · rw [bare path host away there stream, hidden (free path away)]
      constructor
      · intro held
        cases held
      · intro held
        cases held
  · intro path id there
    rw [others _ (reserved path)] at there
    have kept := Option.isSome_of_eq_some there
    rw [← List.append_nil path] at kept
    rw [others path (apart_of_kept kept)]
    exact rep.dirs path id there
  · intro path obj there
    rw [others _ (reserved path)] at there
    obtain ⟨host, stream, id, rfl, here⟩ := rep.files path obj there
    refine ⟨host, stream, id, rfl, ?_⟩
    rw [others host (apart_of_kept (Option.isSome_of_eq_some there))]
    exact here

/-- A file that has been created has no streams. -/
theorem grow (rep : Represents fs m) {files : Fs Text}
    (root : ∃ id, fs'.node [] = some (.dir id))
    (sound : fs'.Sound)
    (alike : fs'.AlikeBut streamsDir files)
    (grows : Fs.Grows (Beside streamsDir) fs fs') :
    Represents fs' ⟨files, StreamStore.fresh m.streams m.files.nextFile⟩ := by
  have streamsSame (q : List Text) : fs'.node (streamsDir :: q) = fs.node (streamsDir :: q) := by
    apply Option.ext
    intro node
    constructor
    · intro here
      rcases grows.added _ node here with old | ⟨beside, -⟩
      · exact old
      · exact absurd rfl beside
    · exact grows.kept _ node
  constructor
  · exact root
  · exact sound
  · exact alike
  · intro path host beside there stream obj
    rw [streamRelPath, List.cons_append, streamsSame]
    rcases grows.added path _ there with old | ⟨-, new⟩
    · have known : host < m.files.nextFile := by
        rw [← rep.alike.nextFile]
        exact rep.sound.known path _ old
      simp only [StreamStore.fresh, if_pos known]
      exact rep.kept path host beside old stream obj
    -- nothing had been there: neither a file nor a directory of streams
    · have unknown : ¬host < m.files.nextFile := by
        rw [← rep.alike.nextFile]
        exact new
      simp only [StreamStore.fresh, if_neg unknown]
      constructor
      · intro held
        cases held
      · intro here
        refine absurd here (rep.not_kept (fun id old => ?_) stream obj)
        have same := grows.kept path _ old
        rw [there] at same
        cases same
        exact new (rep.sound.known path _ old)
  · intro path id there
    rw [streamsSame] at there
    exact isSome_of_kept grows.kept (rep.dirs path id there)
  · intro path obj there
    rw [streamsSame] at there
    obtain ⟨host, stream, id, rfl, here⟩ := rep.files path obj there
    exact ⟨host, stream, id, rfl, grows.kept host _ here⟩

/-! ### Streams -/

/-- Where a file is, no file is in the way of its directory of streams. -/
theorem clear (rep : Represents fs m) {path : List Text} {host : Nat}
    (there : fs.node path = some (.file host)) : fs.Clear (streamsDir :: path) := by
  intro q way id here
  cases q with
  | nil =>
    obtain ⟨id', root⟩ := rep.root
    rw [here] at root
    cases root
  | cons name q =>
    obtain ⟨rfl, below⟩ := List.cons_prefix_cons.mp way
    obtain ⟨host', stream, id', rfl, file⟩ := rep.files q id here
    -- a file above another one
    obtain ⟨rest, rfl⟩ := below
    rw [List.append_assoc] at there
    obtain ⟨id'', dir⟩ := Fs.node_of_append (by simp) (Option.isSome_of_eq_some there)
    rw [file] at dir
    cases dir

theorem pave (rep : Represents fs m) {path : List Text}
    (there : (fs.node path).isSome)
    (sound : fs'.Sound)
    (paved : Fs.Paved (streamsDir :: path) fs fs') : Represents fs' m := by
  have files (q : List Text) (obj : Nat) :
      fs'.node q = some (.file obj) ↔ fs.node q = some (.file obj) := by
    constructor
    · intro here
      rcases paved.added q _ here with old | ⟨-, -, id, dir⟩
      · exact old
      · cases dir
    · exact paved.kept q _
  have besideSame (q : List Text) (beside : Beside streamsDir q) : fs'.node q = fs.node q := by
    apply Option.ext
    intro node
    constructor
    · intro here
      rcases paved.added q node here with old | ⟨proper, way, -⟩
      · exact old
      · exact absurd way (beside.not_prefix proper)
    · exact paved.kept q node
  constructor
  · exact rep.root.imp fun id here => paved.kept [] _ here
  · exact sound
  · exact rep.alike.below besideSame paved.contents paved.nextFile
  · intro path host beside there stream obj
    rw [files]
    exact rep.kept path host beside ((files path host).mp there) stream obj
  · intro q id here
    apply isSome_of_kept paved.kept
    rcases paved.added _ _ here with old | ⟨-, way, -⟩
    · exact rep.dirs q id old
    -- a new directory is on the way to the one of the host
    · obtain ⟨rest, rfl⟩ := (List.cons_prefix_cons.mp way).2
      cases rest with
      | nil => rwa [List.append_nil] at there
      | cons name rest =>
        obtain ⟨id', dir⟩ := Fs.node_of_append (List.cons_ne_nil name rest) there
        rw [dir]
        rfl
  · intro q obj here
    obtain ⟨host, stream, id, rfl, file⟩ := rep.files q obj ((files _ obj).mp here)
    exact ⟨host, stream, id, rfl, paved.kept host _ file⟩

theorem addStream (rep : Represents fs m) {path : List Text} {host : Nat}
    (beside : Beside streamsDir path)
    (there : fs.node path = some (.file host))
    (stream : Text)
    (admits : fs.Admits (streamRelPath path stream)) :
    Represents (fs.addFile (streamRelPath path stream)) (m.addStream host stream) := by
  have grows := Fs.Grows.addFile admits
  have old {q : List Text} (beside : Beside streamsDir q) {node : Node Nat}
      (here : (fs.addFile (streamRelPath path stream)).node q = some node) :
      fs.node q = some node := by
    rcases grows.added q node here with old | ⟨rfl, -⟩
    · exact old
    · exact absurd rfl beside
  constructor
  · exact rep.root.imp fun id here => grows.kept [] _ here
  · exact rep.sound.addFile admits
  · constructor
    · intro q besideQ
      rw [Fs.node_addFile admits, if_neg]
      · exact rep.alike.node q besideQ
      · rintro rfl
        exact besideQ rfl
    · simp only [Fs.addFile, StreamStore.addStream, rep.alike.contents, rep.alike.nextFile]
    · exact congrArg (· + 1) rep.alike.nextFile
  · intro path' host' beside' there' stream' obj
    have before := old beside' there'
    rw [Fs.node_addFile admits, rep.alike.nextFile]
    show Function.update m.streams host
      (Function.update (m.streams host) stream (some m.files.nextFile)) host' stream' = _ ↔ _
    by_cases sameHost : host' = host
    · subst sameHost
      obtain rfl := rep.sound.unique path path' _ there before
      by_cases sameStream : stream' = stream
      · subst sameStream
        simp
      · have other : streamRelPath path stream' ≠ streamRelPath path stream := by
          intro same
          exact sameStream (by simpa [streamRelPath] using same)
        rw [Function.update_self, Function.update_of_ne sameStream, if_neg other]
        exact rep.kept path host' beside before stream' obj
    · have other : streamRelPath path' stream' ≠ streamRelPath path stream := by
        intro same
        obtain ⟨samePath, -⟩ := List.append_inj' (List.cons_injective same) rfl
        subst samePath
        rw [there] at before
        cases before
        exact sameHost rfl
      rw [Function.update_of_ne sameHost, if_neg other]
      exact rep.kept path' host' beside' before stream' obj
  · intro q id here
    rw [Fs.node_addFile admits] at here
    split at here
    · cases here
    · exact isSome_of_kept grows.kept (rep.dirs q id here)
  · intro q obj here
    rw [Fs.node_addFile admits] at here
    split at here
    next same => exact ⟨path, stream, host, List.cons_injective same, grows.kept path _ there⟩
    next =>
      obtain ⟨host', stream', id, rfl, file⟩ := rep.files q obj here
      exact ⟨host', stream', id, rfl, grows.kept host' _ file⟩

/-- The same result, and the tree behind it represents the store. -/
def Follows {α : Type} (outcome : SmbResult α × Fs Text) (outcome' : SmbResult α × StreamStore) :
    Prop :=
  outcome.1 = outcome'.1 ∧ Represents outcome.2 outcome'.2

/-- The open of what is kept for a stream, in the directory of its host's streams if there is one
or one has been made. -/
theorem openWith_follows (rep : Represents fs m) (b : LocalFsBackend) {path : List Text}
    {host : Nat}
    (beside : Beside streamsDir path)
    (there : fs.node path = some (.file host))
    (stream : Text)
    (opts : OpenOptions)
    (made : opts.intent.creates = true → ∃ id, fs.node (streamsDir :: path) = some (.dir id)) :
    Follows
      ((do
        let file ← ask (.openWith (streamRelPath path stream) (capOptions opts))
        return .file stream file b.readOnly : LocalProg LocalHandle).runOn fs)
      (m.openStream b path stream opts) := by
  have found : m.files.find path = .ok (.file host) :=
    Fs.find_eq_ok.mpr (rep.alike.file beside there)
  have above : (streamRelPath path stream).dropLast = streamsDir :: path := List.dropLast_concat
  simp only [StreamStore.openStream, found]
  cases held : m.streams host stream with
  | none =>
    -- neither a file nor a directory is where the stream would be
    have missing : fs.node (streamRelPath path stream) = none := by
      rw [Option.eq_none_iff_forall_ne_some]
      intro node here
      cases node with
      | file obj =>
        rw [(rep.kept path host beside there stream obj).mpr here] at held
        cases held
      | dir id => exact rep.not_dir there stream id here
    cases creates : opts.intent.creates with
    | true =>
      have admits : fs.Admits (streamRelPath path stream) := ⟨above.symm ▸ made creates, missing⟩
      have done : (FsCall.openWith (streamRelPath path stream) (capOptions opts)).exec fs = _ :=
        openWith_of_admits admits (capOptions opts)
          (by rw [LocalFsBackend.capOptions_creates, creates])
      rw [LocalProg.runOn_ask_ok _ done, rep.alike.nextFile]
      exact ⟨rfl, rep.addStream beside there stream admits⟩
    | false =>
      have old := LocalFsBackend.capOptions_creates opts
      rw [creates] at old
      have failed : (FsCall.openWith (streamRelPath path stream) (capOptions opts)).exec fs =
          (.error .notFound, fs) := by
        simp only [FsCall.exec, Fs.openWith, Fs.parent, above, missing, old]
        cases dir : fs.node (streamsDir :: path) with
        | none =>
          rw [(rep.clear there).find dir]
          rfl
        | some node =>
          cases node with
          | file id => exact absurd dir (rep.clear there _ (List.prefix_refl _) id)
          | dir id =>
            rw [Fs.find_eq_ok.mpr dir]
            rfl
      rw [LocalProg.runOn_ask_error _ failed]
      exact ⟨rfl, rep⟩
  | some obj =>
    have here := (rep.kept path host beside there stream obj).mp held
    by_cases new : opts.intent = .create
    · have parent : fs.parent (streamRelPath path stream) = .ok () := parent_of_node rep.root here
      have failed : (FsCall.openWith (streamRelPath path stream) (capOptions opts)).exec fs =
          (.error .alreadyExists, fs) := by
        simp only [FsCall.exec, Fs.openWith, parent, here,
          (LocalFsBackend.capOptions_createNew opts).mpr new, if_true]
        rfl
      rw [LocalProg.runOn_ask_error _ failed]
      simp only [new, if_true]
      exact ⟨rfl, rep⟩
    · have old : (capOptions opts).createNew = false :=
        Bool.eq_false_iff.mpr fun yes => new ((LocalFsBackend.capOptions_createNew opts).mp yes)
      have done : (FsCall.openWith (streamRelPath path stream) (capOptions opts)).exec fs = _ :=
        openWith_of_file rep.root here (capOptions opts) old
      rw [LocalProg.runOn_ask_ok _ done, LocalFsBackend.capOptions_truncate]
      simp only [if_neg new]
      cases opts.intent.truncates with
      | true => exact ⟨rfl, rep.setContents obj []⟩
      | false => exact ⟨rfl, rep⟩

theorem openStream_follows (rep : Represents fs m) (b : LocalFsBackend) {path : List Text}
    {stream : Text}
    (beside : Beside streamsDir path)
    (entry : (∃ host, fs.node path = some (.file host)) → NamesEntry stream)
    (opts : OpenOptions) :
    Follows ((b.openStream path stream opts).runOn fs) (m.openStream b path stream opts) := by
  unfold LocalFsBackend.openStream
  rw [LocalProg.runOn_askIfFound]
  simp only [FsCall.exec]
  rcases rep.alike.find beside with ⟨e, here, there⟩ | ⟨host, here, there⟩ | ⟨id, id', here, there⟩
  · simp only [here, StreamStore.openStream, there]
    cases e <;> exact ⟨rfl, rep⟩
  · have file := Fs.find_eq_ok.mp here
    have entry := entry ⟨host, file⟩
    have asks : openStreamPath path stream (capOptions opts) =
        ask (.openWith (streamRelPath path stream) (capOptions opts)) :=
      (if_neg entry.1).trans (if_neg entry.2)
    have parent : streamParent path stream = streamsDir :: path := if_neg entry.1
    rw [asks, parent, here]
    dsimp only [Except.map, Node.isDir]
    cases creates : opts.intent.creates with
    | true =>
      -- the directory of the host's streams is made first
      have clear := rep.clear file
      rw [← List.reverse_reverse (streamsDir :: path)] at clear
      obtain ⟨fs₁, done, paved, made⟩ := Fs.createDirAllRev_of_clear rep.root clear
      rw [List.reverse_reverse] at paved made
      have made' : (FsCall.createDirAll (streamsDir :: path)).exec fs = (.ok (), fs₁) := done
      have sound := Fs.Sound.createDirAllRev rep.sound (streamsDir :: path).reverse
      rw [done] at sound
      have rep₁ := rep.pave (Option.isSome_of_eq_some file) sound paved
      show Follows ((ask (.createDirAll (streamsDir :: path)) >>= fun _ => (do
        let file ← ask (.openWith (streamRelPath path stream) (capOptions opts))
        return .file stream file b.readOnly : LocalProg LocalHandle)).runOn fs) _
      rw [LocalProg.runOn_ask_ok _ made']
      exact rep₁.openWith_follows b beside (paved.kept path _ file) stream opts fun _ => made
    | false =>
      exact rep.openWith_follows b beside file stream opts fun yes => absurd yes (by simp [creates])
  · simp only [here, StreamStore.openStream, there]
    exact ⟨rfl, rep⟩

/-- Other trees may stand for the files of the store. -/
theorem withFiles (rep : Represents fs m) {files : Fs Text}
    (alike : fs.AlikeBut streamsDir files) : Represents fs ⟨files, m.streams⟩ :=
  ⟨rep.root, rep.sound, alike, rep.kept, rep.dirs, rep.files⟩

theorem open_follows (rep : Represents fs m) (b : LocalFsBackend) (path : SmbPath)
    (opts : OpenOptions)
    (entry : OpensStream b fs path opts →
      ∀ stream, path.streamName = some stream → NamesEntry stream) :
    ((b.open path opts).runOn fs).1.map LocalHandle.forget =
        (m.open b path opts).1.map LocalHandle.forget ∧
      Represents ((b.open path opts).runOn fs).2 (m.open b path opts).2 := by
  cases selected : path.streamName with
  | none =>
    obtain ⟨same, alike⟩ := LocalFsBackend.open_agrees b selected fs m.files rep.alike
    simp only [StreamStore.open, selected]
    have root := LocalProg.runOn_root rep.root (b.open path opts)
    have sound := LocalProg.runOn_sound rep.sound (b.open path opts)
    refine ⟨same, rep.grow root sound alike ?_⟩
    by_cases inside : isStreamsControlPath path = true
    · have refused : ∃ e, (b.open path opts).runOn fs = (.error e, fs) := by
        rw [LocalFsBackend.open, if_pos inside]
        split <;> exact ⟨_, rfl⟩
      obtain ⟨e, refused⟩ := refused
      rw [refused]
      exact .refl fs
    · rw [Bool.not_eq_true, outside_iff] at inside
      refine (LocalFsBackend.open_grows b path opts fs).mono fun q place => ?_
      rw [SmbPath.streamName] at selected
      rw [LocalFsBackend.Places, if_pos selected] at place
      rw [place]
      exact LocalFsBackend.beside_of_outside inside
  | some stream =>
    simp only [StreamStore.open, selected, LocalFsBackend.open]
    split
    · exact ⟨rfl, rep⟩
    next writable =>
    split
    · exact ⟨rfl, rep⟩
    next outside =>
    split
    · exact ⟨rfl, rep⟩
    next plain =>
    rw [Bool.not_eq_true] at writable outside plain
    have beside := LocalFsBackend.beside_of_outside ((outside_iff path).mp outside)
    obtain ⟨same, after⟩ := rep.openStream_follows b beside
      (fun host => entry ⟨writable, outside, plain, host⟩ stream selected) opts
    exact ⟨congrArg (Except.map LocalHandle.forget) same, after⟩

/-! ### Removing and renaming -/

theorem unlink_follows (rep : Represents fs m) (b : LocalFsBackend) (path : SmbPath)
    (free : Unlinks b fs path → fs.node (streamsDir :: path.components) = none) :
    Follows ((b.unlink path).runOn fs) (m.unlink b path) := by
  obtain ⟨same, alike⟩ := LocalFsBackend.unlink_agrees b path fs m.files rep.alike
  rw [Except.map_id, id_eq, id_eq] at same
  unfold StreamStore.unlink
  dsimp only
  rw [← same]
  have outcome := LocalFsBackend.unlink_leaves b path fs
  have root := LocalProg.runOn_root rep.root (b.unlink path)
  have sound := LocalProg.runOn_sound rep.sound (b.unlink path)
  generalize ran : (b.unlink path).runOn fs = r at outcome alike root sound
  cases outcome with
  | failed e => exact ⟨rfl, rep.withFiles alike⟩
  | removed outside proper there leaf =>
    have beside := LocalFsBackend.beside_of_outside outside
    have none := free (LocalFsBackend.unlinks_of_removed ran outside there leaf)
    -- what sits elsewhere keeps its streams, and nothing comes in the place of the entry
    have gone {streams : Nat → Text → Option Nat}
        (same : ∀ q host, ¬path.components <+: q → fs.node q = some (.file host) →
          streams host = m.streams host) :
        Represents (fs.removeEntry path.components)
          ⟨((b.unlink path).runOn m.files).2, streams⟩ := by
      apply rep.vacate (fun q => ¬path.components <+: q) root sound alike
      · exact fun q => beside.not_prefix proper
      · intro q away
        rw [Fs.node_removeEntry proper there, if_neg away]
      · intro q near
        obtain ⟨rest, rfl⟩ := not_not.mp near
        exact hidden none rest
      · exact same
      · intro q host near here
        rw [Fs.node_removeEntry proper there, if_pos (not_not.mp near)] at here
        cases here
    rcases rep.alike.cases beside with ⟨here, -⟩ | ⟨host, here, there'⟩ | ⟨-, id, -, there'⟩
    · rw [here] at there
      cases there
    · rw [there']
      refine ⟨rfl, gone fun q host' away here' => Function.update_of_ne ?_ _ _⟩
      rintro rfl
      exact away (rep.sound.unique path.components q _ here here' ▸ List.prefix_refl _)
    · rw [there']
      exact ⟨rfl, gone fun _ _ _ _ => rfl⟩

theorem rename_follows (rep : Represents fs m) (b : LocalFsBackend) (src dst : SmbPath)
    (replace : Bool)
    (free : Renames b fs src dst replace → fs.node (streamsDir :: src.components) = none ∧
      fs.node (streamsDir :: dst.components) = none) :
    Follows ((b.rename src dst replace).runOn fs) (m.rename b src dst replace) := by
  obtain ⟨same, alike⟩ := LocalFsBackend.rename_agrees b src dst replace fs m.files rep.alike
  rw [Except.map_id, id_eq, id_eq] at same
  refine ⟨same, ?_⟩
  show Represents _ ⟨((b.rename src dst replace).runOn m.files).2, m.streams⟩
  have outcome := LocalFsBackend.rename_carries b src dst replace fs
  have root := LocalProg.runOn_root rep.root (b.rename src dst replace)
  have sound := LocalProg.runOn_sound rep.sound (b.rename src dst replace)
  generalize ((b.rename src dst replace).runOn fs).2 = after at outcome alike root sound ⊢
  cases outcome with
  | kept => exact rep.withFiles alike
  | moved renames =>
    obtain ⟨noneSrc, noneDst⟩ := free renames
    have beside := LocalFsBackend.beside_of_outside ((outside_iff src).mp renames.outsideSrc)
    have beside' := LocalFsBackend.beside_of_outside ((outside_iff dst).mp renames.outsideDst)
    have movable := renames.movable
    apply rep.vacate (fun q => ¬src.components <+: q ∧ ¬dst.components <+: q) root sound alike
    · exact fun q => ⟨beside.not_prefix movable.properSrc, beside'.not_prefix movable.properDst⟩
    · intro q away
      rw [Fs.node_move movable, if_neg away.2, if_neg away.1]
    · intro q near
      rw [not_and_or, not_not, not_not] at near
      rcases near with ⟨rest, rfl⟩ | ⟨rest, rfl⟩
      · exact hidden noneSrc rest
      · exact hidden noneDst rest
    · exact fun _ _ _ _ => rfl
    -- what has come to the target was below the source, where nothing was kept
    · intro q host near here stream
      rw [Fs.node_move movable] at here
      split at here
      next below =>
        rw [Option.eq_none_iff_forall_ne_some]
        intro obj held
        have kept := (rep.kept _ host (beside.append movable.properSrc) here stream obj).mp held
        rw [streamRelPath, List.cons_append, List.append_assoc, hidden noneSrc] at kept
        cases kept
      next notBelow =>
        split at here
        · cases here
        next notSrc => exact absurd ⟨notSrc, notBelow⟩ near

/-! ### Handles -/

theorem read_follows (rep : Represents fs m) {h h' : LocalHandle} (same : h.forget = h'.forget)
    (offset : UInt64) (len : UInt32) : h.read fs offset len = h'.read m.files offset len := by
  rw [← LocalHandle.read_forget fs h, same, LocalHandle.read_forget]
  cases h' with
  | dir => rfl
  | file name fd readOnly => simp only [LocalHandle.read, Fs.readAt, rep.alike.contents]

theorem writeOwned_follows (rep : Represents fs m) {h h' : LocalHandle}
    (same : h.forget = h'.forget) (offset : UInt64) (data : Bytes) :
    (h.writeOwned fs offset data).1 = (h'.writeOwned m.files offset data).1 ∧
      Represents (h.writeOwned fs offset data).2
        { m with files := (h'.writeOwned m.files offset data).2 } := by
  rw [← LocalHandle.writeOwned_forget fs h, same, LocalHandle.writeOwned_forget]
  cases h' with
  | dir => exact ⟨rfl, rep⟩
  | file name fd readOnly =>
    obtain ⟨node, readable, writable⟩ := fd
    cases readOnly with
    | true => exact ⟨rfl, rep⟩
    | false =>
      cases node with
      | dir => exact ⟨rfl, rep⟩
      | file id =>
        simp only [LocalHandle.writeOwned, Bool.false_eq_true, if_false, Fs.writeAt,
          ← rep.alike.contents]
        by_cases refused : (!writable) = true
        · simp only [if_pos refused]
          exact ⟨trivial, rep⟩
        by_cases far : Fs.maxOffset ≤ offset.toNat
        · simp only [if_neg refused, if_pos far]
          exact ⟨trivial, rep⟩
        · simp only [if_neg refused, if_neg far]
          exact ⟨trivial, rep.setContents id _⟩

theorem truncate_follows (rep : Represents fs m) {h h' : LocalHandle}
    (same : h.forget = h'.forget) (len : UInt64) :
    (h.truncate fs len).1 = (h'.truncate m.files len).1 ∧
      Represents (h.truncate fs len).2 { m with files := (h'.truncate m.files len).2 } := by
  rw [← LocalHandle.truncate_forget fs h, same, LocalHandle.truncate_forget]
  cases h' with
  | dir => exact ⟨rfl, rep⟩
  | file name fd readOnly =>
    obtain ⟨node, readable, writable⟩ := fd
    cases readOnly with
    | true => exact ⟨rfl, rep⟩
    | false =>
      cases node with
      | dir => exact ⟨rfl, rep⟩
      | file id =>
        simp only [LocalHandle.truncate, Bool.false_eq_true, if_false, Fs.setLen,
          ← rep.alike.contents]
        by_cases refused : (!writable || decide (Fs.maxOffset ≤ len.toNat)) = true
        · simp only [if_pos refused]
          exact ⟨trivial, rep⟩
        · simp only [if_neg refused]
          exact ⟨trivial, rep.setContents id _⟩

end Represents

/-! ### Runs -/

/-- A request leaves the streams with their files: it opens none that is named `.` or `..`, and
nothing is kept under an entry that it takes away, moves or replaces. -/
def KeepsStreams (b : LocalFsBackend) (s : SharedState (Fs Text)) : ShareOp → Prop
  | .open path opts => OpensStream b s.share path opts →
      ∀ stream, path.streamName = some stream → NamesEntry stream
  | .unlink path => Unlinks b s.share path → s.share.node (streamsDir :: path.components) = none
  | .rename src dst replace => Renames b s.share src dst replace →
      s.share.node (streamsDir :: src.components) = none ∧
        s.share.node (streamsDir :: dst.components) = none
  | .read .. | .write .. | .truncate .. => True

/-- The shares stand for each other, and the handles for the same. -/
structure Tracks (s : SharedState (Fs Text)) (t : SharedState StreamStore) : Prop where
  share : Represents s.share t.share
  handles : s.handles.map LocalHandle.forget = t.handles.map LocalHandle.forget

namespace Tracks

variable {b : LocalFsBackend} {s : SharedState (Fs Text)} {t : SharedState StreamStore}

/-- Two requests that say the same on handles for the same. -/
theorem onHandle (tracks : Tracks s t) (handle : Nat)
    {request : LocalHandle → Fs Text → ShareReply × Fs Text}
    (same : ∀ h h', h.forget = h'.forget →
      (request h s.share).1 = (request h' t.share.files).1 ∧
        Represents (request h s.share).2 { t.share with files := (request h' t.share.files).2 }) :
    (s.onHandle handle request).1 = (t.onHandle handle request).1 ∧
      Tracks (s.onHandle handle request).2 (t.onHandle handle request).2 := by
  have entry := congrArg (fun handles => handles[handle]?) tracks.handles
  simp only [List.getElem?_map] at entry
  unfold SharedState.onHandle
  cases here : s.handles[handle]? with
  | none =>
    rw [here] at entry
    rw [Option.map_eq_none_iff.mp entry.symm]
    exact ⟨rfl, tracks⟩
  | some h =>
    rw [here] at entry
    obtain ⟨h', there, forgotten⟩ := Option.map_eq_some_iff.mp entry.symm
    rw [there]
    obtain ⟨reply, after⟩ := same h h' forgotten.symm
    exact ⟨reply, after, tracks.handles⟩

theorem exec (tracks : Tracks s t) (op : ShareOp) (keeps : KeepsStreams b s op) :
    (s.exec b op).1 = (t.exec b op).1 ∧ Tracks (s.next b op) (t.next b op) := by
  have rep := tracks.share
  cases op with
  | «open» path opts =>
    obtain ⟨same, after⟩ := rep.open_follows b path opts keeps
    unfold SharedState.next SharedState.exec
    have here : StreamShare.open b path opts s.share = (b.open path opts).runOn s.share := rfl
    have there : StreamShare.open b path opts t.share = t.share.open b path opts := rfl
    simp only [here, there]
    generalize (b.open path opts).runOn s.share = r at same after
    generalize t.share.open b path opts = r' at same after
    obtain ⟨result, share⟩ := r
    obtain ⟨result', share'⟩ := r'
    cases result with
    | error e =>
      cases result' with
      | error e' =>
        cases same
        exact ⟨rfl, after, tracks.handles⟩
      | ok h' => cases same
    | ok h =>
      cases result' with
      | error e' => cases same
      | ok h' =>
        refine ⟨rfl, after, ?_⟩
        have forgotten : h.forget = h'.forget := Except.ok.inj same
        simp only [List.map_append, tracks.handles, List.map_cons, List.map_nil, forgotten]
  | read handle offset len =>
    exact tracks.onHandle handle fun h h' same =>
      ⟨congrArg ShareReply.bytes (rep.read_follows same offset len), rep⟩
  | write handle offset data =>
    apply tracks.onHandle handle
    intro h h' same
    obtain ⟨written, after⟩ := rep.writeOwned_follows same offset data
    exact ⟨congrArg ShareReply.written written, after⟩
  | truncate handle len =>
    apply tracks.onHandle handle
    intro h h' same
    obtain ⟨result, after⟩ := rep.truncate_follows same len
    exact ⟨congrArg ShareReply.done result, after⟩
  | unlink path =>
    obtain ⟨same, after⟩ := rep.unlink_follows b path keeps
    exact ⟨congrArg ShareReply.done same, after, tracks.handles⟩
  | rename src dst replace =>
    obtain ⟨same, after⟩ := rep.rename_follows b src dst replace keeps
    exact ⟨congrArg ShareReply.done same, after, tracks.handles⟩

theorem replies (tracks : Tracks s t) (ops : List ShareOp)
    (keeps : Always (SharedState.next b) (KeepsStreams b) s ops) :
    s.replies b ops = t.replies b ops := by
  induction ops generalizing s t with
  | nil => rfl
  | cons op ops ih =>
    obtain ⟨here, behind⟩ := keeps
    obtain ⟨reply, after⟩ := tracks.exec op here
    rw [SharedState.replies, SharedState.replies, reply, ih after behind]

end Tracks

/-- From a tree that keeps the streams of a store, as from one without streams: where every request
leaves the streams with their files, the replies are those of the store. -/
theorem replies_of_keepsStreams (b : LocalFsBackend) (fs : Fs Text) (m : StreamStore)
    (ops : List ShareOp)
    (rep : Represents fs m)
    (keeps : Always (SharedState.next b) (KeepsStreams b) ⟨fs, []⟩ ops) :
    SharedState.replies b ⟨fs, []⟩ ops = SharedState.replies b ⟨m, []⟩ ops :=
  Tracks.replies ⟨rep, rfl⟩ ops keeps

namespace Sample

def creating : OpenOptions := ⟨true, true, .create, false, false, false⟩

def reading : OpenOptions := ⟨true, false, .open, false, false, false⟩

/-- `f`, with a stream that is written, and another file that moves. -/
def streamOps : List ShareOp :=
  [.open ⟨[['f']], none⟩ creating, .open ⟨[['f']], some ['s']⟩ creating, .write 1 0 [7],
    .open ⟨[['g']], none⟩ creating, .rename ⟨[['g']], none⟩ ⟨[['h']], none⟩ false,
    .open ⟨[['f']], some ['s']⟩ reading, .read 3 0 16]

/-- `f`, with a stream, removed and made again. -/
def reusedOps : List ShareOp :=
  [.open ⟨[['f']], none⟩ creating, .open ⟨[['f']], some ['s']⟩ creating, .unlink ⟨[['f']], none⟩,
    .open ⟨[['f']], none⟩ creating, .open ⟨[['f']], some ['s']⟩ reading]

end Sample

/-- A stream is read back when another file has moved. -/
theorem replies_of_keepsStreams_moved :
    SharedState.replies ⟨false⟩ ⟨Sample.emptyDir.fs, []⟩ Sample.streamOps =
      SharedState.replies ⟨false⟩ ⟨(⟨Sample.emptyDir.fs, fun _ _ => none⟩ : StreamStore), []⟩
        Sample.streamOps := by
  apply replies_of_keepsStreams ⟨false⟩ _ _ Sample.streamOps (.start Sample.emptyDir rfl)
  have named : NamesEntry ['s'] := by simp [NamesEntry]
  refine ⟨fun _ _ selected => ?_, fun _ _ selected => ?_, trivial, fun _ _ selected => ?_,
    fun _ => ⟨rfl, rfl⟩, fun _ _ selected => ?_, trivial, trivial⟩
  · cases selected
  · cases selected
    exact named
  · cases selected
  · cases selected
    exact named

/-- A new file has the stream of the one that has been removed. -/
theorem stream_outlives_file :
    ¬∀ (b : LocalFsBackend) (fs : Fs Text) (m : StreamStore) (ops : List ShareOp),
      Represents fs m → SharedState.replies b ⟨fs, []⟩ ops = SharedState.replies b ⟨m, []⟩ ops := by
  intro all
  have same := congrArg (fun replies => replies[4]?)
    (all ⟨false⟩ _ _ Sample.reusedOps (.start Sample.emptyDir rfl))
  have found : (SharedState.replies ⟨false⟩ ⟨Sample.emptyDir.fs, []⟩ Sample.reusedOps)[4]? =
      some (.done (.ok ())) := rfl
  have missing : (SharedState.replies ⟨false⟩
      ⟨(⟨Sample.emptyDir.fs, fun _ _ => none⟩ : StreamStore), []⟩ Sample.reusedOps)[4]? =
      some (.done (.error .notFound)) := rfl
  rw [found, missing] at same
  cases same

end SmbServer
