import SmbServer.Properties.PathInvariant

/-!
# SmbServer.Properties.StreamStorage

Where `LocalFsBackend` keeps streams.

The name of a stream may be `.` or `..`: then what the path comes down to is the directory of the
host's streams, or the one above it.

## Main result

`streamStorage_iff`: the streams of two paths are kept directly below their hosts' directories,
apart from each other and from what a client can name without a stream, exactly if neither is `.`
or `..`.

## Proof strategy

A stream name is a component like another (`components_push`) but for the two. The calls of the
backend are followed through its programs (`FsProg.Issues`): a path without a stream is not handed
down if it has the reserved directory in it.
-/

namespace SmbServer

open Lib

/-! ### Storage -/

/-- The path of a stream, without `.` and `..`. -/
def storagePath (p : SmbPath) (stream : Text) : List PathBuf.Component :=
  PathBuf.normalize (streamRelPathBuf (toRelPathBuf p) stream)

/-- The directory of a host's streams. -/
def hostDir (p : SmbPath) : List Text := streamsDir :: p.components

/-- The stream sits in the directory of its host. -/
def KeptBelowHost (p : SmbPath) (stream : Text) : Prop :=
  ∃ name, storagePath p stream = (hostDir p ++ [name]).map .normal

theorem continued_toRelPathBuf {p : SmbPath} (h : p.WellFormed) (below : p.components ≠ []) :
    PathBuf.continued (toRelPathBuf p) = p.components.map .normal :=
  PathBuf.continued_of_components (components_toRelPathBuf h below)

/-- The directory of the host's streams, and the stream behind it. -/
theorem components_streamRelPathBuf {p : SmbPath} {stream : Text} (h : p.WellFormed)
    (selected : p.streamName = some stream) :
    PathBuf.components (streamRelPathBuf (toRelPathBuf p) stream) =
      (hostDir p).map .normal ++ (PathBuf.component stream).toList := by
  obtain ⟨below, -, plain⟩ := h.hosted stream selected
  have whole : '/' ∉ stream := fun inside => absurd (plain '/' inside).whole (by decide)
  have relative : PathBuf.isAbsolute (toRelPathBuf p) = false :=
    PathBuf.isAbsolute_eq_false_of_components (components_toRelPathBuf h below)
  have base : toRelPathBuf p ≠ [] := by
    intro none
    have parts := components_toRelPathBuf h below
    rw [none] at parts
    exact below (List.map_eq_nil_iff.mp parts.symm)
  have dir : PathBuf.components streamsDir = [.normal streamsDir] := by decide +kernel
  rw [streamRelPathBuf, PathBuf.components_push (PathBuf.push_ne_nil base)
    (PathBuf.isAbsolute_eq_false whole), PathBuf.components_push (by decide) relative, dir,
    continued_toRelPathBuf h below, PathBuf.continued_of_whole whole]
  rfl

/-- The name of a stream that is a name in a directory. -/
def NamesEntry (stream : Text) : Prop := stream ≠ ['.'] ∧ stream ≠ ['.', '.']

theorem storagePath_of_namesEntry {p : SmbPath} {stream : Text} (h : p.WellFormed)
    (selected : p.streamName = some stream) (entry : NamesEntry stream) :
    storagePath p stream = (hostDir p ++ [stream]).map .normal := by
  obtain ⟨-, there, plain⟩ := h.hosted stream selected
  have whole : '/' ∉ stream := fun inside => absurd (plain '/' inside).whole (by decide)
  apply PathBuf.normalize_of_names
  rw [components_streamRelPathBuf h selected,
    PathBuf.component_of_isName ⟨there, entry.1, entry.2, whole⟩, List.map_append]
  rfl

/-- The two other names stay in the directory or leave it. -/
theorem storagePath_of_not {p : SmbPath} {stream : Text} (h : p.WellFormed)
    (selected : p.streamName = some stream) (dots : ¬NamesEntry stream) :
    (storagePath p stream).length ≤ (hostDir p).length := by
  have parts := components_streamRelPathBuf h selected
  rw [storagePath, PathBuf.normalize_of_components parts, List.length_reverse]
  by_cases cur : stream = ['.']
  · rw [cur]
    exact Nat.le_of_eq (by simp [PathBuf.component])
  · have up : stream = ['.', '.'] := by
      by_contra other
      exact dots ⟨cur, other⟩
    rw [up, ← List.map_reverse]
    cases names : (hostDir p).reverse with
    | nil => simp [hostDir] at names
    | cons last front =>
      have size : (hostDir p).length = front.length + 1 := by
        rw [← List.length_reverse, names, List.length_cons]
      simp only [PathBuf.component, Option.toList_some, List.map_cons, List.foldl_cons,
        List.foldl_nil, PathBuf.descend, List.length_map]
      omega

theorem keptBelowHost_iff {p : SmbPath} {stream : Text} (h : p.WellFormed)
    (selected : p.streamName = some stream) : KeptBelowHost p stream ↔ NamesEntry stream := by
  constructor
  · rintro ⟨name, kept⟩
    by_contra dots
    have short := storagePath_of_not h selected dots
    rw [kept, List.length_map, List.length_append, List.length_singleton] at short
    omega
  · intro entry
    exact ⟨stream, storagePath_of_namesEntry h selected entry⟩

/-! ### What a client can name -/

/-- A call that the backend may make. -/
def LocalProg.Issues {α : Type} (prog : LocalProg α) (c : FsCall Text) : Prop :=
  FsProg.Issues prog.run c

/-- The backend hands the path down for one that a client has named. -/
inductive Addresses (b : LocalFsBackend) (p : SmbPath) (path : List Text) : Prop where
  | «open» (opts : OpenOptions) (c : FsCall Text) (h : LocalProg.Issues (b.open p opts) c)
      (listed : path ∈ c.paths)
  | unlink (c : FsCall Text) (h : LocalProg.Issues (b.unlink p) c) (listed : path ∈ c.paths)
  | source (dst : SmbPath) (replace : Bool) (c : FsCall Text)
      (h : LocalProg.Issues (b.rename p dst replace) c) (listed : path ∈ c.paths)
  | target (src : SmbPath) (replace : Bool) (c : FsCall Text)
      (h : LocalProg.Issues (b.rename src p replace) c) (listed : path ∈ c.paths)

namespace LocalProg.Issues

variable {α β : Type} {c c' : FsCall Text}

theorem not_pure {a : α} (h : Issues (pure a : LocalProg α) c) : False := by
  cases h

theorem not_throw {e : SmbError} (h : Issues (throw e : LocalProg α) c) : False := by
  cases h

theorem not_throw_bind {e : SmbError} {f : α → LocalProg β}
    (h : Issues ((throw e : LocalProg α) >>= f) c) : False := by
  cases h

theorem of_ask (h : Issues (ask c') c) : c = c' := by
  cases h with
  | now => rfl
  | later reply h => cases h

theorem of_bind {prog : LocalProg α} {f : α → LocalProg β} (h : Issues (prog >>= f) c) :
    prog.Issues c ∨ ∃ a, (f a).Issues c := by
  have split : FsProg.Issues prog.run c ∨ _ := FsProg.Issues.of_bind h
  rcases split with here | ⟨result, later⟩
  · exact .inl here
  · cases result with
    | ok a => exact .inr ⟨a, later⟩
    | error e => cases later

theorem of_askIfFound (h : Issues (askIfFound c') c) : c = c' := by
  have split : FsProg.Issues (FsProg.perform c') c ∨ _ := FsProg.Issues.of_bind h
  rcases split with here | ⟨reply, later⟩
  · cases here with
    | now => rfl
    | later reply h => cases h
  · cases reply with
    | ok reply => cases later
    | error e => cases e <;> cases later

theorem of_checkTarget {dst : List Text} (h : Issues (LocalFsBackend.checkTarget dst) c) :
    c = .symlinkMetadata dst := by
  have split : FsProg.Issues (FsProg.perform (.symlinkMetadata dst)) c ∨ _ :=
    FsProg.Issues.of_bind h
  rcases split with here | ⟨reply, later⟩
  · cases here with
    | now => rfl
    | later reply h => cases h
  · cases reply with
    | ok reply => cases later
    | error e => cases later

end LocalProg.Issues

namespace LocalFsBackend

variable {b : LocalFsBackend} {p src dst : SmbPath} {opts : OpenOptions} {c : FsCall Text}

theorem openDirectory_issues {intent : OpenIntent}
    (h : LocalProg.Issues (openDirectory p intent) c) : c.paths = [toRelPath p] := by
  -- the last two lines, which every intent ends in
  have opened (h : LocalProg.Issues (do
      let dirHandle ← ask (.openDir (toRelPath p))
      return LocalHandle.dir (fileNameFor p) dirHandle) c) : c.paths = [toRelPath p] := by
    rcases h.of_bind with h | ⟨dir, h⟩
    · rw [h.of_ask, FsCall.paths]
    · exact h.not_pure.elim
  unfold openDirectory at h
  cases intent with
  | «open» => exact opened h
  | create =>
    rcases h.of_bind with h | ⟨_, h⟩
    · rw [h.of_ask, FsCall.paths]
    · exact opened h
  | openOrCreate =>
    rcases h.of_bind with h | ⟨there, h⟩
    · rw [h.of_ask, FsCall.paths]
    · split at h
      next =>
        rcases h.of_bind with h | ⟨_, h⟩
        · rw [h.of_ask, FsCall.paths]
        · exact opened h
      next => exact opened h
  | truncate | overwriteOrCreate => exact h.not_throw.elim

theorem openExistingDir_issues (h : LocalProg.Issues (openExistingDir p opts) c) :
    c.paths = [toRelPath p] := by
  have opened (h : LocalProg.Issues (do
      let dirHandle ← ask (.openDir (toRelPath p))
      return LocalHandle.dir (fileNameFor p) dirHandle) c) : c.paths = [toRelPath p] := by
    rcases h.of_bind with h | ⟨dir, h⟩
    · rw [h.of_ask, FsCall.paths]
    · exact h.not_pure.elim
  simp only [openExistingDir] at h
  split at h
  next => exact h.not_throw_bind.elim
  next =>
    split at h
    · exact opened h
    · exact opened h
    · exact h.not_throw.elim
    · exact h.not_throw.elim
    · exact h.not_throw.elim

theorem openFile_issues (h : LocalProg.Issues (b.openFile p opts) c) :
    c.paths = [toRelPath p] := by
  unfold openFile at h
  rcases h.of_bind with h | ⟨found, h⟩
  · rw [h.of_askIfFound, FsCall.paths]
  · have opened (h : LocalProg.Issues (do
        let file ← ask (.openWith (toRelPath p) (capOptions opts))
        return LocalHandle.file (fileNameFor p) file b.readOnly) c) :
        c.paths = [toRelPath p] := by
      rcases h.of_bind with h | ⟨file, h⟩
      · rw [h.of_ask, FsCall.paths]
      · exact h.not_pure.elim
    cases found with
    | none => exact opened h
    | some isDir =>
      cases isDir with
      | true => exact openExistingDir_issues h
      | false => exact opened h

/-- Without a stream the path itself is handed down, and no other. -/
theorem open_issues (primary : p.streamName = none) (h : LocalProg.Issues (b.open p opts) c) :
    isStreamsControlPath p = false ∧ c.paths = [toRelPath p] := by
  unfold LocalFsBackend.open at h
  split at h
  next => exact h.not_throw.elim
  next =>
    split at h
    next => exact h.not_throw.elim
    next outside =>
      refine ⟨Bool.eq_false_iff.mpr outside, ?_⟩
      rw [primary] at h
      simp only at h
      split at h
      next => exact openDirectory_issues h
      next => exact openFile_issues h

theorem unlink_issues (h : LocalProg.Issues (b.unlink p) c) :
    isStreamsControlPath p = false ∧ c.paths = [toRelPath p] := by
  unfold unlink at h
  split at h
  next => exact h.not_throw.elim
  next =>
    split at h
    next => exact h.not_throw.elim
    next outside =>
      refine ⟨Bool.eq_false_iff.mpr outside, ?_⟩
      split at h
      next => exact h.not_throw.elim
      next =>
        rcases h.of_bind with h | ⟨isDir, h⟩
        · rw [h.of_ask, FsCall.paths]
        · cases isDir with
          | true => rw [h.of_ask, FsCall.paths]
          | false => rw [h.of_ask, FsCall.paths]

theorem rename_issues {replace : Bool} (h : LocalProg.Issues (b.rename src dst replace) c) :
    (isStreamsControlPath src || isStreamsControlPath dst) = false ∧
      ∀ path ∈ c.paths, path = toRelPath src ∨ path = toRelPath dst := by
  unfold rename at h
  split at h
  next => exact h.not_throw.elim
  next =>
    split at h
    next => exact h.not_throw.elim
    -- neither path is in the reserved directory
    next outside =>
      refine ⟨Bool.eq_false_iff.mpr outside, ?_⟩
      split at h
      next => exact h.not_throw.elim
      next =>
        -- the call that renames names the two paths
        have moved (h : LocalProg.Issues (ask (.rename (toRelPath src) (toRelPath dst))) c) :
            ∀ path ∈ c.paths, path = toRelPath src ∨ path = toRelPath dst := by
          rw [h.of_ask]
          simp [FsCall.paths]
        cases replace with
        | false =>
          rcases h.of_bind with h | ⟨_, h⟩
          · rw [h.of_checkTarget]
            simp [FsCall.paths]
          · exact moved h
        | true => exact moved h

end LocalFsBackend

/-- The reserved directory is in no path that is handed down. -/
theorem Addresses.outside {b : LocalFsBackend} {p : SmbPath} {path : List Text}
    (primary : p.streamName = none) (h : Addresses b p path) : streamsDir ∉ path := by
  -- each call is refused on a path that goes through the reserved directory
  have outside {q : SmbPath} (free : isStreamsControlPath q = false) : streamsDir ∉ toRelPath q := by
    intro inside
    rw [isStreamsControlPath, List.any_eq_false] at free
    exact free streamsDir inside (by decide +kernel)
  have renamed {src dst : SmbPath}
      (free : (isStreamsControlPath src || isStreamsControlPath dst) = false)
      (named : path = toRelPath src ∨ path = toRelPath dst) : streamsDir ∉ path := by
    rw [Bool.or_eq_false_iff] at free
    rcases named with rfl | rfl
    · exact outside free.1
    · exact outside free.2
  cases h with
  | «open» opts c h listed =>
    obtain ⟨free, paths⟩ := LocalFsBackend.open_issues primary h
    rw [paths, List.mem_singleton] at listed
    rw [listed]
    exact outside free
  | unlink c h listed =>
    obtain ⟨free, paths⟩ := LocalFsBackend.unlink_issues h
    rw [paths, List.mem_singleton] at listed
    rw [listed]
    exact outside free
  | source dst replace c h listed =>
    obtain ⟨free, paths⟩ := LocalFsBackend.rename_issues h
    exact renamed free (paths path listed)
  | target src replace c h listed =>
    obtain ⟨free, paths⟩ := LocalFsBackend.rename_issues h
    exact renamed free (paths path listed)

/-! ### Two paths -/

/-- The streams `s` of `p` and `t` of `q` are kept below their hosts, each in a place of its own
that no client can name without a stream. -/
structure KeptApart (p q : SmbPath) (s t : Text) : Prop where
  intro ::
  first : KeptBelowHost p s
  second : KeptBelowHost q t
  injective : storagePath p s = storagePath q t → p.components = q.components ∧ s = t
  unnamed : ∀ (b : LocalFsBackend) (r : SmbPath) (path : List Text), r.Obtained →
    r.streamName = none → Addresses b r path →
      path.map .normal ≠ storagePath p s ∧ path.map .normal ≠ storagePath q t

theorem map_normal_injective {names names' : List Text}
    (h : names.map PathBuf.Component.normal = names'.map .normal) : names = names' :=
  List.map_injective_iff.mpr (fun _ _ same => PathBuf.Component.normal.inj same) h

/-- Streams are kept apart exactly if neither is named `.` or `..`. -/
theorem streamStorage_iff (p q : SmbPath) (s t : Text) (hp : p.Obtained) (hq : q.Obtained)
    (hs : p.streamName = some s) (ht : q.streamName = some t) :
    KeptApart p q s t ↔ NamesEntry s ∧ NamesEntry t := by
  have formed := hp.wellFormed
  have formed' := hq.wellFormed
  constructor
  · intro apart
    exact ⟨(keptBelowHost_iff formed hs).mp apart.first,
      (keptBelowHost_iff formed' ht).mp apart.second⟩
  · rintro ⟨entry, entry'⟩
    have here := storagePath_of_namesEntry formed hs entry
    have there := storagePath_of_namesEntry formed' ht entry'
    constructor
    · exact (keptBelowHost_iff formed hs).mpr entry
    · exact (keptBelowHost_iff formed' ht).mpr entry'
    · intro same
      rw [here, there] at same
      -- the names of two streams in one directory: equal paths have equal ends
      have parts := List.append_inj' (map_normal_injective same) rfl
      exact ⟨List.cons_injective parts.1, List.singleton_injective parts.2⟩
    -- a path of a call that is made without a stream is outside the reserved directory
    · intro b r path known primary addressed
      have outside := addressed.outside primary
      rw [here, there]
      constructor
      · intro same
        rw [map_normal_injective same] at outside
        exact outside List.mem_cons_self
      · intro same
        rw [map_normal_injective same] at outside
        exact outside List.mem_cons_self

/-- `a:s` and `b:s`. -/
theorem streamStorage_iff_plain :
    KeptApart ⟨[['a']], some ['s']⟩ ⟨[['b']], some ['s']⟩ ['s'] ['s'] := by
  have first : SmbPath.fromStr ['a', ':', 's'] = .ok ⟨[['a']], some ['s']⟩ := by decide +kernel
  have second : SmbPath.fromStr ['b', ':', 's'] = .ok ⟨[['b']], some ['s']⟩ := by decide +kernel
  exact (streamStorage_iff _ _ _ _ (.fromStr first) (.fromStr second) rfl rfl).mpr
    ⟨by simp [NamesEntry], by simp [NamesEntry]⟩

/-- `a:..` is kept in the reserved directory itself. -/
theorem streamStorage_leaves :
    ¬∀ (p q : SmbPath) (s t : Text), p.Obtained → q.Obtained → p.streamName = some s →
      q.streamName = some t → KeptApart p q s t := by
  intro apart
  have parsed : SmbPath.fromStr ['a', ':', '.', '.'] = .ok ⟨[['a']], some ['.', '.']⟩ := by
    decide +kernel
  obtain ⟨name, kept⟩ := (apart _ _ _ _ (.fromStr parsed) (.fromStr parsed) rfl rfl).first
  have stored : storagePath ⟨[['a']], some ['.', '.']⟩ ['.', '.'] = [.normal streamsDir] := by
    decide +kernel
  rw [stored] at kept
  simp [hostDir] at kept

end SmbServer
