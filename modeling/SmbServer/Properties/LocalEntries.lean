import SmbServer.Fs.Host
import SmbServer.Properties.Disposition

/-!
# SmbServer.Properties.LocalEntries

What the methods of a `LocalFsBackend` do to the entries of its tree. An open only adds entries: the
one it is about, or, for a stream, entries in the directory of the streams. An unlink takes one entry
out, and a rename moves what sits at its source. Handles change contents only.
-/

namespace SmbServer

open Lib

/-! ### Programs -/

/-- From every tree, the program ends in a related one. -/
def LocalProg.Moves {α : Type} (R : Fs Text → Fs Text → Prop) (prog : LocalProg α) : Prop :=
  ∀ fs, R fs (prog.runOn fs).2

namespace LocalProg

variable {α β : Type} {R : Fs Text → Fs Text → Prop}

theorem moves_pure (refl : ∀ fs, R fs fs) (a : α) : (pure a : LocalProg α).Moves R :=
  fun fs => refl fs

theorem moves_throw (refl : ∀ fs, R fs fs) (e : SmbError) : (throw e : LocalProg α).Moves R :=
  fun fs => refl fs

theorem moves_ask {c : FsCall Text} (call : ∀ fs, R fs (c.exec fs).2) : (ask c).Moves R :=
  fun fs => call fs

theorem moves_bind (trans : ∀ fs fs' fs'', R fs fs' → R fs' fs'' → R fs fs'') {prog : LocalProg α}
    {f : α → LocalProg β} (first : prog.Moves R) (rest : ∀ a, (f a).Moves R) :
    (prog >>= f).Moves R := by
  intro fs
  have here := first fs
  rw [runOn_bind]
  split
  next a fs' run =>
    rw [run] at here
    exact trans _ _ _ here (rest a fs')
  next e fs' run =>
    rw [run] at here
    exact here

theorem moves_askIfFound_bind (trans : ∀ fs fs' fs'', R fs fs' → R fs' fs'' → R fs fs'')
    {c : FsCall Text} {f : Option c.Reply → LocalProg α} (call : ∀ fs, R fs (c.exec fs).2)
    (rest : ∀ found, (f found).Moves R) : (askIfFound c >>= f).Moves R := by
  intro fs
  rw [runOn_askIfFound]
  split
  · exact trans _ _ _ (call fs) (rest _ _)
  · exact trans _ _ _ (call fs) (rest _ _)
  · exact call fs

end LocalProg

namespace LocalProg

variable {α β : Type} {P : Fs Text → β → Prop}

/-- What the program returns fits the tree that it ends in. -/
def Returns (P : Fs Text → β → Prop) (prog : LocalProg β) : Prop :=
  ∀ fs b, (prog.runOn fs).1 = .ok b → P (prog.runOn fs).2 b

theorem returns_ask {c : FsCall Text} {P : Fs Text → c.Reply → Prop}
    (call : ∀ fs reply, (c.exec fs).1 = .ok reply → P (c.exec fs).2 reply) :
    (ask c).Returns P := by
  intro fs b done
  rw [runOn_ask] at done ⊢
  cases answer : (c.exec fs).1 with
  | error e =>
    rw [answer] at done
    cases done
  | ok reply =>
    rw [answer] at done
    obtain rfl := Except.ok.inj done
    exact call fs reply answer

/-- Only the last part counts. -/
theorem returns_bind {prog : LocalProg α} {f : α → LocalProg β}
    (rest : ∀ a, (f a).Returns P) : (prog >>= f).Returns P := by
  intro fs b done
  rw [runOn_bind] at done ⊢
  split at done
  next a fs' run => exact rest a fs' b done
  next => cases done

/-- The result, turned into another. -/
theorem returns_map {Q : Fs Text → α → Prop} {prog : LocalProg α} {g : α → β}
    (first : prog.Returns Q) (fits : ∀ fs a, Q fs a → P fs (g a)) :
    (prog >>= fun a => pure (g a)).Returns P := by
  intro fs b done
  have here := first fs
  rw [runOn_bind] at done ⊢
  split at done
  next a fs' run =>
    rw [run] at here
    cases done
    exact fits fs' a (here a rfl)
  next => cases done

end LocalProg

/-! ### The directory of the streams -/

/-- The path does not go through the directory of the streams. -/
def Outside (path : List Text) : Prop := ∀ name ∈ path, name.eqIgnoreAsciiCase streamsDir = false

theorem outside_iff (path : SmbPath) :
    isStreamsControlPath path = false ↔ Outside path.components := by
  simp [isStreamsControlPath, Outside]

/-- On the way to a stream everything but the root is inside. -/
theorem not_outside {q rest : List Text} (proper : q ≠ []) (way : q <+: streamsDir :: rest) :
    ¬Outside q := by
  intro outside
  cases q with
  | nil => exact proper rfl
  | cons name below =>
    obtain ⟨rfl, -⟩ := List.cons_prefix_cons.mp way
    have inside := outside streamsDir List.mem_cons_self
    revert inside
    decide +kernel

namespace LocalFsBackend

open LocalProg

variable {path src dst : SmbPath} {opts : OpenOptions}

/-! ### Opening -/

/-- Where an open may add entries. -/
def Places (path : SmbPath) (q : List Text) : Prop :=
  if path.stream = none then q = path.components else ¬Outside q

theorem openStreamPath_grows (baseRel : List Text) (stream : Text) (flags : OpenFlags) :
    (openStreamPath baseRel stream flags).Moves (Fs.Grows fun q => ¬Outside q) := by
  by_cases dot : stream = ['.']
  · have asks : openStreamPath baseRel stream flags =
        ask (.openDots (streamsDir :: baseRel) false flags) := if_pos dot
    rw [asks]
    exact moves_ask fun fs => .refl fs
  by_cases dots : stream = ['.', '.']
  · have asks : openStreamPath baseRel stream flags =
        ask (.openDots (streamsDir :: baseRel) true flags) := (if_neg dot).trans (if_pos dots)
    rw [asks]
    exact moves_ask fun fs => .refl fs
  · have asks : openStreamPath baseRel stream flags =
        ask (.openWith (streamRelPath baseRel stream) flags) := (if_neg dot).trans (if_neg dots)
    rw [asks]
    refine moves_ask fun fs => (Fs.Grows.openWith fs _ flags).mono fun q same => ?_
    subst same
    exact not_outside (by simp [streamRelPath]) (List.prefix_refl _)

theorem createDirAll_grows (baseRel : List Text) (stream : Text) (fs : Fs Text) :
    Fs.Grows (fun q => ¬Outside q) fs (fs.createDirAll (streamParent baseRel stream)).2 := by
  have way : streamParent baseRel stream <+: streamsDir :: baseRel := by
    unfold streamParent
    split
    · exact List.dropLast_prefix _
    · exact List.prefix_refl _
  refine (Fs.Grows.createDirAllRev fs _).mono fun q place => ?_
  rw [List.reverse_reverse] at place
  exact not_outside place.1 (place.2.trans way)

/-- The open of a stream changes no entry outside of the directory of the streams. -/
theorem openStream_grows (b : LocalFsBackend) (baseRel : List Text) (stream : Text)
    (opts : OpenOptions) :
    (b.openStream baseRel stream opts).Moves (Fs.Grows fun q => ¬Outside q) := by
  have trans (fs fs' fs'' : Fs Text) (first : Fs.Grows (fun q => ¬Outside q) fs fs')
      (second : Fs.Grows (fun q => ¬Outside q) fs' fs'') :
      Fs.Grows (fun q => ¬Outside q) fs fs'' := first.trans second
  have opened : (do
      let file ← openStreamPath baseRel stream (capOptions opts)
      return .file stream file b.readOnly : LocalProg LocalHandle).Moves
        (Fs.Grows fun q => ¬Outside q) :=
    moves_bind trans (openStreamPath_grows _ _ _) fun file => moves_pure .refl _
  refine moves_askIfFound_bind trans (fun fs => .refl fs) fun found => ?_
  cases found with
  | none => exact moves_throw .refl _
  | some isDir =>
    cases isDir with
    | true => exact moves_throw .refl _
    | false =>
      show (if opts.intent.creates then _ else _ : LocalProg LocalHandle).Moves _
      split
      · exact moves_bind trans (moves_ask (createDirAll_grows baseRel stream)) fun _ => opened
      · exact opened

/-- Opening what is there. -/
theorem openDir_grows {places : List Text → Prop} (path : SmbPath) :
    (do
      let dirHandle ← ask (.openDir (toRelPath path))
      return .dir (fileNameFor path) dirHandle : LocalProg LocalHandle).Moves (Fs.Grows places) :=
  moves_bind (fun _ _ _ first second => first.trans second) (moves_ask fun fs => .refl fs)
    fun _ => moves_pure .refl _

theorem openDirectory_grows (path : SmbPath) (intent : OpenIntent) :
    (openDirectory path intent).Moves (Fs.Grows (· = path.components)) := by
  have trans (fs fs' fs'' : Fs Text) (first : Fs.Grows (· = path.components) fs fs')
      (second : Fs.Grows (· = path.components) fs' fs'') :
      Fs.Grows (· = path.components) fs fs'' := first.trans second
  have made : (ask (.createDir path.components)).Moves (Fs.Grows (· = path.components)) :=
    moves_ask fun fs => Fs.Grows.createDir fs path.components
  unfold openDirectory
  cases intent with
  | «open» => exact openDir_grows path
  | create => exact moves_bind trans made fun _ => openDir_grows path
  | openOrCreate =>
    refine moves_bind trans (moves_ask fun fs => .refl fs) fun there => ?_
    cases there with
    | true => exact openDir_grows path
    | false => exact moves_bind trans made fun _ => openDir_grows path
  | truncate | overwriteOrCreate => exact moves_throw .refl _

theorem openExistingDir_grows {places : List Text → Prop} (path : SmbPath) (opts : OpenOptions) :
    (openExistingDir path opts).Moves (Fs.Grows places) := by
  unfold openExistingDir
  cases opts.nonDirectory with
  | true => exact moves_throw .refl _
  | false =>
    cases opts.intent with
    | «open» | openOrCreate => exact openDir_grows path
    | create | truncate | overwriteOrCreate => exact moves_throw .refl _

theorem openFile_grows (b : LocalFsBackend) (path : SmbPath) (opts : OpenOptions) :
    (b.openFile path opts).Moves (Fs.Grows (· = path.components)) := by
  have trans (fs fs' fs'' : Fs Text) (first : Fs.Grows (· = path.components) fs fs')
      (second : Fs.Grows (· = path.components) fs' fs'') :
      Fs.Grows (· = path.components) fs fs'' := first.trans second
  have asFile : (do
      let file ← ask (.openWith (toRelPath path) (capOptions opts))
      return .file (fileNameFor path) file b.readOnly : LocalProg LocalHandle).Moves
        (Fs.Grows (· = path.components)) :=
    moves_bind trans (moves_ask fun fs => Fs.Grows.openWith fs path.components _)
      fun file => moves_pure .refl _
  refine moves_askIfFound_bind trans (fun fs => .refl fs) fun found => ?_
  cases found with
  | none => exact asFile
  | some isDir =>
    cases isDir with
    | true => exact openExistingDir_grows path opts
    | false => exact asFile

theorem open_grows (b : LocalFsBackend) (path : SmbPath) (opts : OpenOptions) :
    (b.open path opts).Moves (Fs.Grows (Places path)) := by
  unfold LocalFsBackend.open
  split
  · exact moves_throw .refl _
  split
  · exact moves_throw .refl _
  split
  next stream selected =>
    have places : Places path = fun q => ¬Outside q := by
      funext q
      rw [Places, if_neg]
      rw [SmbPath.streamName] at selected
      simp [selected]
    rw [places]
    split
    · exact moves_throw .refl _
    · exact openStream_grows b _ stream opts
  next selected =>
    have places : Places path = (· = path.components) := by
      funext q
      rw [SmbPath.streamName] at selected
      rw [Places, if_pos selected]
    rw [places]
    split
    · exact openDirectory_grows path opts.intent
    · exact openFile_grows b path opts

/-- The file or the directory sits where streams are kept. -/
def Inside (fs : Fs Text) (node : Node Nat) : Prop := ∃ p, ¬Outside p ∧ fs.node p = some node

theorem openStreamPath_returns {baseRel : List Text} (proper : baseRel ≠ []) (stream : Text)
    (flags : OpenFlags) :
    (openStreamPath baseRel stream flags).Returns fun fs fd => Inside fs fd.node := by
  -- also one level up the path is inside
  have dots (up : Bool) : (ask (.openDots (streamsDir :: baseRel) up flags)).Returns
      fun fs fd => Inside fs fd.node := by
    refine returns_ask fun fs fd done => ?_
    rcases Fs.node_of_openDots done with here | above
    · exact ⟨_, not_outside (by simp) (List.prefix_refl _), here⟩
    · refine ⟨_, not_outside ?_ (List.dropLast_prefix (streamsDir :: baseRel)), above⟩
      cases baseRel with
      | nil => exact absurd rfl proper
      | cons => simp
  by_cases dot : stream = ['.']
  · have asks : openStreamPath baseRel stream flags =
        ask (.openDots (streamsDir :: baseRel) false flags) := if_pos dot
    rw [asks]
    exact dots false
  by_cases up : stream = ['.', '.']
  · have asks : openStreamPath baseRel stream flags =
        ask (.openDots (streamsDir :: baseRel) true flags) := (if_neg dot).trans (if_pos up)
    rw [asks]
    exact dots true
  · have asks : openStreamPath baseRel stream flags =
        ask (.openWith (streamRelPath baseRel stream) flags) := (if_neg dot).trans (if_neg up)
    rw [asks]
    refine returns_ask (c := .openWith (streamRelPath baseRel stream) flags) fun fs fd done => ?_
    rcases Fs.openWith_cases fs (streamRelPath baseRel stream) flags with
      ⟨e, failed⟩ | ⟨fd', fs', opened, how⟩
    · simp only [FsCall.exec, failed] at done
      cases done
    · simp only [FsCall.exec, opened] at done ⊢
      cases done
      exact ⟨_, not_outside (by simp) (List.prefix_refl _), how.node⟩

/-- A stream is opened of a file, and its handle is one of something inside. -/
theorem openStream_inside (b : LocalFsBackend) {baseRel : List Text} {stream : Text}
    {fs : Fs Text} (root : ∃ id, fs.node [] = some (.dir id)) {h : LocalHandle}
    (opened : ((b.openStream baseRel stream opts).runOn fs).1 = .ok h) :
    Inside ((b.openStream baseRel stream opts).runOn fs).2 h.node := by
  have reached (proper : baseRel ≠ []) : (do
      let file ← openStreamPath baseRel stream (capOptions opts)
      return .file stream file b.readOnly : LocalProg LocalHandle).Returns
        fun fs h => Inside fs h.node :=
    returns_map (openStreamPath_returns proper stream _) fun fs fd here => here
  rw [openStream, runOn_askIfFound] at opened ⊢
  simp only [FsCall.exec] at opened ⊢
  cases found : fs.find baseRel with
  | error e =>
    rw [found] at opened
    cases e <;> cases opened
  | ok node =>
    simp only [found, Except.map] at opened ⊢
    cases node with
    | dir id => cases opened
    | file id =>
      have proper : baseRel ≠ [] := by
        rintro rfl
        obtain ⟨id', root⟩ := root
        rw [Fs.find_eq_ok.mp found] at root
        cases root
      cases creates : opts.intent.creates with
      | true =>
        simp only [Node.isDir, creates, if_true] at opened ⊢
        exact returns_bind (fun _ => reached proper) fs h opened
      | false =>
        simp only [Node.isDir, creates, Bool.false_eq_true, if_false] at opened ⊢
        exact reached proper fs h opened

/-- An open without a stream is refused, or follows the table of dispositions. -/
theorem open_primary (b : LocalFsBackend) {fs : Fs Text}
    (root : ∃ id, fs.node [] = some (.dir id)) (primary : path.stream = none)
    (one : ¬(opts.directory = true ∧ opts.nonDirectory = true)) :
    (∃ e, (b.open path opts).runOn fs = (.error e, fs)) ∨ (Outside path.components ∧
      FollowsTable (Takes fs path.components opts ∧ opts.truncatesDirectory = false) fs
        path.components opts ((b.open path opts).runOn fs)) := by
  by_cases denied : (b.readOnly && opts.writes) = true
  · rw [LocalFsBackend.open, if_pos denied]
    exact .inl ⟨_, rfl⟩
  by_cases inside : isStreamsControlPath path = true
  · rw [LocalFsBackend.open, if_neg denied, if_pos inside]
    exact .inl ⟨_, rfl⟩
  rw [Bool.not_eq_true] at denied inside
  exact .inr ⟨(outside_iff path).mp inside, open_follows b root denied primary inside one⟩

/-- Behind an open without a stream, its handle is one of what sits at the path. -/
theorem node_opened (b : LocalFsBackend) {fs : Fs Text} (root : ∃ id, fs.node [] = some (.dir id))
    (primary : path.stream = none) (one : ¬(opts.directory = true ∧ opts.nonDirectory = true))
    {h : LocalHandle} (opened : ((b.open path opts).runOn fs).1 = .ok h) :
    Outside path.components ∧
      ((b.open path opts).runOn fs).2.node path.components = some h.node := by
  rcases open_primary b root primary one with ⟨e, refused⟩ | ⟨outside, follows⟩
  · rw [refused] at opened
    cases opened
  · exact ⟨outside, follows.target h opened⟩

/-- Behind an open of a stream, its handle is one of something inside. -/
theorem stream_opened (b : LocalFsBackend) {fs : Fs Text}
    (root : ∃ id, fs.node [] = some (.dir id)) (selected : path.stream ≠ none) {h : LocalHandle}
    (opened : ((b.open path opts).runOn fs).1 = .ok h) :
    Outside path.components ∧ Inside ((b.open path opts).runOn fs).2 h.node := by
  by_cases denied : (b.readOnly && opts.writes) = true
  · rw [LocalFsBackend.open, if_pos denied] at opened
    cases opened
  by_cases inside : isStreamsControlPath path = true
  · rw [LocalFsBackend.open, if_neg denied, if_pos inside] at opened
    cases opened
  obtain ⟨stream, named⟩ := Option.ne_none_iff_exists'.mp selected
  rw [LocalFsBackend.open, if_neg denied, if_neg inside, SmbPath.streamName, named] at opened ⊢
  rw [Bool.not_eq_true, outside_iff] at inside
  by_cases directory : opts.directory = true
  · simp only [if_pos directory] at opened
    cases opened
  · simp only [if_neg directory] at opened ⊢
    exact ⟨inside, openStream_inside b root opened⟩

/-- One without a stream that fails leaves the tree. -/
theorem open_failed (b : LocalFsBackend) {fs : Fs Text} (root : ∃ id, fs.node [] = some (.dir id))
    (primary : path.stream = none) (one : ¬(opts.directory = true ∧ opts.nonDirectory = true))
    {e : SmbError} (failed : ((b.open path opts).runOn fs).1 = .error e) :
    ((b.open path opts).runOn fs).2 = fs := by
  rcases open_primary b root primary one with ⟨e', refused⟩ | ⟨-, follows⟩
  · rw [refused]
  · exact follows.unchanged e failed

/-! ### Removing and renaming -/

/-- A call that only looks, and what follows it. -/
theorem runOn_look {α : Type} {fs : Fs Text} {c : FsCall Text} {f : c.Reply → LocalProg α}
    {P : SmbResult α × Fs Text → Prop} (looks : (c.exec fs).2 = fs)
    (fails : ∀ e, P (.error e, fs))
    (rest : ∀ reply, (c.exec fs).1 = .ok reply → P ((f reply).runOn fs)) :
    P ((ask c >>= f).runOn fs) := by
  rw [runOn_bind, runOn_ask, looks]
  cases answer : (c.exec fs).1 with
  | error e => exact fails _
  | ok reply => exact rest reply answer

/-- What an unlink leaves. -/
inductive Unlinked (fs : Fs Text) (path : List Text) : SmbResult Unit × Fs Text → Prop where
  | failed (e : SmbError) : Unlinked fs path (.error e, fs)
  | removed (outside : Outside path) (proper : path ≠ []) (there : (fs.node path).isSome)
      (leaf : ∀ q, path <+: q → q ≠ path → fs.node q = none) :
      Unlinked fs path (.ok (), fs.removeEntry path)

/-- Nothing sits below a file. -/
theorem leaf_of_file {fs : Fs Text} {path : List Text} {id : Nat}
    (there : fs.node path = some (.file id)) (q : List Text) (below : path <+: q)
    (other : q ≠ path) : fs.node q = none := by
  obtain ⟨rest, rfl⟩ := below
  by_contra some
  have more : rest ≠ [] := by
    rintro rfl
    exact other (List.append_nil path)
  obtain ⟨id', dir⟩ := Fs.node_of_append more (Option.isSome_iff_ne_none.mpr some)
  rw [there] at dir
  cases dir

/-- Nothing sits below an empty directory. -/
theorem leaf_of_empty {fs : Fs Text} {path : List Text} (empty : fs.isEmptyDir path = true)
    (q : List Text) (below : path <+: q) (other : q ≠ path) : fs.node q = none := by
  obtain ⟨-, names⟩ := Fs.isEmptyDir_iff.mp empty
  obtain ⟨rest, rfl⟩ := below
  cases rest with
  | nil => simp at other
  | cons n rest =>
    rw [List.append_cons]
    exact Fs.node_eq_none_of_append (names n)

theorem unlink_leaves (b : LocalFsBackend) (path : SmbPath) (fs : Fs Text) :
    Unlinked fs path.components ((b.unlink path).runOn fs) := by
  unfold unlink
  split
  · exact .failed _
  split
  · exact .failed _
  next outside =>
  split
  · exact .failed _
  rw [Bool.not_eq_true, outside_iff] at outside
  refine runOn_look (c := .symlinkMetadata path.components) rfl .failed fun isDir _ => ?_
  cases isDir with
  | true =>
    show Unlinked fs _ ((fs.removeDir path.components).1.mapError ioToSmb,
      (fs.removeDir path.components).2)
    rcases Fs.removeDir_cases fs path.components with ⟨e, failed⟩ | ⟨proper, empty, done⟩
    · rw [failed]
      exact .failed _
    · rw [done]
      obtain ⟨⟨id, there⟩, -⟩ := Fs.isEmptyDir_iff.mp empty
      exact .removed outside proper (by rw [there]; rfl) (leaf_of_empty empty)
  | false =>
    show Unlinked fs _ ((fs.removeFile path.components).1.mapError ioToSmb,
      (fs.removeFile path.components).2)
    rcases Fs.removeFile_cases fs path.components with ⟨e, failed⟩ | ⟨id, there, proper, done⟩
    · rw [failed]
      exact .failed _
    · rw [done]
      exact .removed outside proper (by rw [there]; rfl) (leaf_of_file there)

theorem unlink_of_readOnly {b : LocalFsBackend} (readOnly : b.readOnly = true) (path : SmbPath)
    (fs : Fs Text) : (b.unlink path).runOn fs = (.error .accessDenied, fs) := by
  rw [unlink, if_pos readOnly]
  rfl

theorem runOn_checkTarget_eq (fs : Fs Text) (dst : List Text) :
    (checkTarget dst).runOn fs =
      (match fs.find dst with
        | .ok _ => .error (ioToSmb .alreadyExists)
        | .error _ => .ok (), fs) := by
  have looked : (checkTarget dst).runOn fs =
      FsProg.run fs ((FsProg.call (.symlinkMetadata dst) .done).bind _) := rfl
  rw [FsProg.run_bind] at looked
  simp only [FsProg.run, FsCall.exec] at looked
  rw [looked]
  cases fs.find dst with
  | error e => rfl
  | ok node => rfl

/-- The check of the target only looks. -/
theorem runOn_checkTarget {α : Type} {fs : Fs Text} {dst : List Text} {f : Unit → LocalProg α}
    {P : SmbResult α × Fs Text → Prop} (fails : ∀ e, P (.error e, fs))
    (rest : P ((f ()).runOn fs)) : P ((checkTarget dst >>= f).runOn fs) := by
  rw [runOn_bind, runOn_checkTarget_eq]
  cases fs.find dst with
  | error e => exact rest
  | ok node => exact fails _

/-- What a rename leaves. -/
inductive Renamed (fs : Fs Text) (src dst : List Text) : SmbResult Unit × Fs Text → Prop where
  | failed (e : SmbError) : Renamed fs src dst (.error e, fs)
  | same (outside : Outside src) (same : src = dst) (there : (fs.node src).isSome) :
      Renamed fs src dst (.ok (), fs)
  | moved (outside : Outside src) (outside' : Outside dst) (movable : fs.Movable src dst) :
      Renamed fs src dst (.ok (), fs.move src dst)

theorem rename_leaves (b : LocalFsBackend) (src dst : SmbPath) (replace : Bool) (fs : Fs Text) :
    Renamed fs src.components dst.components ((b.rename src dst replace).runOn fs) := by
  unfold rename
  split
  · exact .failed _
  split
  · exact .failed _
  next outside =>
  split
  · exact .failed _
  rw [Bool.or_eq_true, not_or, Bool.not_eq_true, Bool.not_eq_true, outside_iff,
    outside_iff] at outside
  have renames : Renamed fs src.components dst.components
      ((fs.rename src.components dst.components).1.mapError ioToSmb,
        (fs.rename src.components dst.components).2) := by
    rcases Fs.rename_cases fs src.components dst.components with
      ⟨e, failed⟩ | ⟨same, there, done⟩ | ⟨node, -, -, movable, done⟩
    · rw [failed]
      exact .failed _
    · rw [done]
      exact .same outside.1 same there
    · rw [done]
      exact .moved outside.1 outside.2 movable
  cases replace with
  | true => exact renames
  | false => exact runOn_checkTarget .failed renames

end LocalFsBackend

end SmbServer
