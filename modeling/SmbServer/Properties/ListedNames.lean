import SmbServer.Fs.Handle
import SmbServer.Properties.Disposition
import SmbServer.Properties.PathInvariant

/-!
# SmbServer.Properties.ListedNames

The names that `list_dir` reports, as paths that a client writes for them.

## Main result

`listed_addressed_iff`: every reported name, behind its directory's path, is opened as that entry
exactly when every reported name is one that the path grammar takes.

`colonName_unaddressed` is a directory with a file `a:b`, which is listed and is opened as a stream.

## Proof strategy

The loop over the entries reports the names it lists (`listed_listEntries`). A path with a plain
name behind is read back as printed, and a FILE_OPEN of it follows the table of dispositions;
conversely every component of a parsed path is plain.
-/

namespace SmbServer

open Lib

/-- What a client writes for an entry of a directory. -/
def SmbPath.childText (dir : SmbPath) (n : Text) : Text :=
  if dir.isRoot then n else dir.displayBackslash ++ '\\' :: n

/-- A FILE_OPEN that the backend lets through, with kind flags that fit the node. -/
structure OpensAs (b : LocalFsBackend) (node : Node Nat) (opts : OpenOptions) : Prop where
  intent : opts.intent = .open
  allowed : b.readOnly = true → opts.write = false
  directory : opts.directory = true → node.isDir = true
  nonDirectory : opts.nonDirectory = true → node.isDir = false

/-- The path of an entry has no stream, and a FILE_OPEN of it reaches that entry. -/
def Addressed (b : LocalFsBackend) (fs : Fs Text) (dir : SmbPath) (n : Text) : Prop :=
  ∃ path node, SmbPath.parseComponents (dir.childText n) = .ok path ∧ path.streamName = none ∧
    path.components = dir.components ++ [n] ∧ fs.node (dir.components ++ [n]) = some node ∧
    ∀ opts, OpensAs b node opts →
      ∃ h, (b.open path opts).runOn fs = (.ok h, fs) ∧ h.node = node

/-! ### The listing -/

namespace LocalHandle

theorem listedName_eq_some {pattern : Option Text} {entry : OsName} {n : Text} :
    listedName pattern entry = some n ↔
      entry = .unicode n ∧ n.eqIgnoreAsciiCase streamsDir = false ∧
        ∀ p, pattern = some p → dosPatternMatches p n = true := by
  cases entry with
  | other bytes => simp [listedName, OsName.toStr]
  | unicode name =>
    simp only [listedName, OsName.toStr, OsName.unicode.injEq]
    constructor
    · intro listed
      split at listed
      next => cases listed
      next shown =>
        split at listed
        next => cases listed
        next fitting =>
          cases listed
          refine ⟨rfl, Bool.eq_false_iff.mpr shown, ?_⟩
          rintro p rfl
          simpa using fitting
    · rintro ⟨rfl, shown, fitting⟩
      rw [shown, if_neg Bool.false_ne_true, if_neg]
      cases pattern with
      | none => simp
      | some p => simp [fitting p rfl]

/-- The loop over entries that can all be read: those that are listed, with their metadata. -/
theorem listed_listEntries (view : HostView) (fs : Fs Text) (dirHandle : Nat)
    (pattern : Option Text) (entries : List OsName) :
    ∃ out, (listEntries dirHandle pattern (entries.map .ok)).runOn view fs = (.ok out, fs) ∧
      out.map (fun e => e.info.name) = entries.filterMap (listedName pattern) := by
  induction entries with
  | nil => exact ⟨[], rfl, rfl⟩
  | cons entry rest ih =>
    obtain ⟨out, run, names⟩ := ih
    rw [List.map_cons, listEntries, List.filterMap_cons]
    cases listed : listedName pattern entry with
    | none => exact ⟨out, run, names⟩
    | some name =>
      refine ⟨⟨fileInfoFromMetadata name (view.entryMetadata dirHandle entry)⟩ :: out, ?_, ?_⟩
      · refine (LocalProgram.runOn_askHandle view fs (.entryMetadata dirHandle entry) _).trans ?_
        simp only [HandleCall.exec]
        rw [LocalProgram.runOn_bind, run]
        rfl
      · rw [List.map_cons, names]
        rfl

/-- A directory that can be read lists the names of its entries. -/
theorem listed_listDirCalls (view : HostView) (fs : Fs Text) (name : Text) (dirHandle : Nat)
    (pattern : Option Text) :
    ∃ out, ((LocalHandle.dir name dirHandle).listDirCalls pattern).runOn view fs = (.ok out, fs) ∧
      out.map (fun e => e.info.name) =
        (view.names dirHandle).filterMap (listedName pattern) := by
  obtain ⟨out, run, names⟩ :=
    listed_listEntries view fs dirHandle pattern (view.names dirHandle)
  refine ⟨out, ?_, names⟩
  refine (LocalProgram.runOn_askHandle view fs (.entries dirHandle) _).trans ?_
  exact run

end LocalHandle

/-! ### Names behind a path -/

theorem intercalate_concat (first : Text) (rest : List Text) (n : Text) :
    List.intercalate ['\\'] (first :: rest ++ [n]) =
      List.intercalate ['\\'] (first :: rest) ++ '\\' :: n := by
  induction rest generalizing first with
  | nil => simp
  | cons next rest ih =>
    rw [List.cons_append, List.cons_append, List.intercalate_cons_cons,
      List.intercalate_cons_cons, ← List.cons_append, ih next, List.append_assoc,
      List.append_assoc, List.append_assoc]

theorem childText_eq (dir : SmbPath) (n : Text) :
    dir.childText n = SmbPath.displayBackslash ⟨dir.components ++ [n], none⟩ := by
  rw [SmbPath.childText, SmbPath.isRoot, SmbPath.displayBackslash, SmbPath.displayBackslash]
  cases dir.components with
  | nil => exact (List.intercalate_singleton).symm
  | cons first rest => exact (intercalate_concat first rest n).symm

theorem wellFormed_child {dir : SmbPath} {n : Text} (wf : dir.WellFormed) (plain : PlainName n) :
    SmbPath.WellFormed ⟨dir.components ++ [n], none⟩ := by
  constructor
  · intro c listed
    rcases List.mem_append.mp listed with above | last
    · exact wf.names c above
    · rw [List.mem_singleton.mp last]
      exact plain
  · rintro t ⟨⟩

/-- Only plain names come out of the path grammar. -/
theorem plainName_of_addressed {b : LocalFsBackend} {fs : Fs Text} {dir : SmbPath} {n : Text}
    (addressed : Addressed b fs dir n) : PlainName n := by
  obtain ⟨path, -, parsed, -, components, -⟩ := addressed
  apply (SmbPath.parseComponents_wellFormed parsed).names n
  rw [components]
  exact List.mem_append_right _ List.mem_cons_self

theorem addressed_of_plainName {b : LocalFsBackend} {fs : Fs Text} {dir : SmbPath} {n : Text}
    {dirHandle : Nat} {node : Node Nat} (wf : dir.WellFormed)
    (outside : isStreamsControlPath dir = false)
    (here : fs.node dir.components = some (.dir dirHandle))
    (there : fs.node (dir.components ++ [n]) = some node)
    (shown : n.eqIgnoreAsciiCase streamsDir = false) (plain : PlainName n) :
    Addressed b fs dir n := by
  -- the path of the entry is parsed back to the components of the directory and the name
  have parsed := parseComponents_displayBackslash (wellFormed_child wf plain)
  rw [← childText_eq] at parsed
  refine ⟨⟨dir.components ++ [n], none⟩, node, parsed, rfl, rfl, there, fun opts fits => ?_⟩
  have outside' : isStreamsControlPath ⟨dir.components ++ [n], none⟩ = false := by
    rw [isStreamsControlPath] at outside ⊢
    rw [List.any_append, outside, List.any_cons, shown]
    rfl
  have root : ∃ id, fs.node [] = some (.dir id) := by
    by_cases top : dir.components = []
    · rw [top] at here
      exact ⟨dirHandle, here⟩
    · have whole : (fs.node ([] ++ dir.components)).isSome = true := by
        rw [List.nil_append, here]
        rfl
      exact Fs.node_of_append top whole
  have allowed : (b.readOnly && opts.writes) = false := by
    rw [OpenOptions.writes, fits.intent]
    cases readOnly : b.readOnly with
    | false => rfl
    | true => rw [fits.allowed readOnly]; rfl
  -- the two flags exclude each other, as the entry is a directory or is none
  have one : ¬(opts.directory = true ∧ opts.nonDirectory = true) := by
    rintro ⟨asked, excluded⟩
    have dir := fits.directory asked
    rw [fits.nonDirectory excluded] at dir
    cases dir
  have primary : SmbPath.streamName ⟨dir.components ++ [n], none⟩ = none := rfl
  -- so the open goes by the table, and the intent to open leaves the files as they are
  have follows := LocalFsBackend.open_follows b root allowed primary outside' one
  have takes : Takes fs (dir.components ++ [n]) opts ∧ opts.truncatesDirectory = false := by
    rw [OpenOptions.truncatesDirectory, fits.intent]
    refine ⟨?_, Bool.and_false _⟩
    simp only [Takes, there, fits.intent]
    cases node with
    | file id =>
      have noDir : opts.directory = false :=
        Bool.eq_false_iff.mpr fun asked => Bool.false_ne_true (fits.directory asked)
      exact ⟨by simp, noDir⟩
    | dir id =>
      have either : opts.nonDirectory = false :=
        Bool.eq_false_iff.mpr fun excluded => Bool.false_ne_true.symm (fits.nonDirectory excluded)
      exact ⟨by simp, either, rfl⟩
  obtain ⟨h, ok⟩ := follows.succeeds.mpr takes
  have tree := follows.tree h ok
  have target := follows.target h ok
  have unchanged : withTarget fs (dir.components ++ [n]) opts = fs := by
    simp only [withTarget, there, fits.intent]
    cases node <;> rfl
  rw [tree, unchanged, there] at target
  refine ⟨h, Prod.ext ok (tree.trans unchanged), (Option.some.inj target).symm⟩

/-- Every name that a directory lists is opened as its entry exactly when all that are listed are
names of the path grammar. -/
theorem listed_addressed_iff (b : LocalFsBackend) (fs : Fs Text) (view : HostView) (dir : SmbPath)
    (name : Text) (dirHandle : Nat) (pattern : Option Text) (obtained : dir.Obtained)
    (outside : isStreamsControlPath dir = false)
    (here : fs.node dir.components = some (.dir dirHandle))
    (faithful : ∀ n, .unicode n ∈ view.names dirHandle ↔
      (fs.node (dir.components ++ [n])).isSome = true) :
    (∃ entries, ((LocalHandle.dir name dirHandle).listDirCalls pattern).runOn view fs =
        (.ok entries, fs) ∧ ∀ e ∈ entries, Addressed b fs dir e.info.name) ↔
      ∀ n, (fs.node (dir.components ++ [n])).isSome = true →
        n.eqIgnoreAsciiCase streamsDir = false →
        (∀ p, pattern = some p → dosPatternMatches p n = true) → PlainName n := by
  obtain ⟨out, run, names⟩ :=
    LocalHandle.listed_listDirCalls view fs name dirHandle pattern
  -- what is listed: the entries of the directory that are shown and match the pattern
  have listed (n : Text) : (∃ e ∈ out, e.info.name = n) ↔
      (fs.node (dir.components ++ [n])).isSome = true ∧ n.eqIgnoreAsciiCase streamsDir = false ∧
        ∀ p, pattern = some p → dosPatternMatches p n = true := by
    rw [← faithful]
    have member := List.mem_map (f := fun e : DirEntry => e.info.name) (l := out) (b := n)
    rw [names, List.mem_filterMap] at member
    rw [← member]
    constructor
    · rintro ⟨entry, inside, shown⟩
      obtain ⟨rfl, rest⟩ := LocalHandle.listedName_eq_some.mp shown
      exact ⟨inside, rest⟩
    · rintro ⟨inside, rest⟩
      exact ⟨.unicode n, inside, LocalHandle.listedName_eq_some.mpr ⟨rfl, rest⟩⟩
  constructor
  · rintro ⟨entries, run', all⟩ n there shown fitting
    rw [run] at run'
    cases run'
    obtain ⟨e, inside, rfl⟩ := (listed n).mpr ⟨there, shown, fitting⟩
    exact plainName_of_addressed (all e inside)
  · intro plain
    refine ⟨out, run, fun e inside => ?_⟩
    obtain ⟨there, shown, fitting⟩ := (listed e.info.name).mp ⟨e, inside, rfl⟩
    obtain ⟨node, found⟩ := Option.isSome_iff_exists.mp there
    exact addressed_of_plainName obtained.wellFormed outside here found shown
      (plain _ there shown fitting)

/-- A share with one file in it. -/
def Sample.sharedFile (n : Text) : Fs Text := ⟨.dir 0 [(n, .file 0)], fun _ => [], 1, 1⟩

def Sample.sharedFileView (n : Text) : HostView where
  metadata node := ⟨0, node.isDir, none, none, none⟩
  entryMetadata _ _ := ⟨0, false, none, none, none⟩
  names _ := [.unicode n]

/-- `a:b` -/
def Sample.colonName : Text := ['a', ':', 'b']

theorem Sample.sharedFile_faithful (shared n : Text) :
    .unicode n ∈ (Sample.sharedFileView shared).names 0 ↔
      ((Sample.sharedFile shared).node ([] ++ [n])).isSome = true := by
  by_cases same : n = shared
  · simp [Sample.sharedFile, Sample.sharedFileView, Fs.node, Tree.node_cons, Tree.child, same]
  · simp only [Sample.sharedFile, Sample.sharedFileView, Fs.node, Tree.node_cons, Tree.child,
      List.nil_append, List.lookup_cons]
    split
    next found => exact absurd (eq_of_beq found) same
    next => simp [same]

/-- With a file `d` in the share, everything listed is opened as its entry. -/
theorem listed_addressed_iff_plain :
    (∃ entries, ((LocalHandle.dir [] 0).listDirCalls none).runOn (Sample.sharedFileView ['d'])
        (Sample.sharedFile ['d']) = (.ok entries, Sample.sharedFile ['d']) ∧
        ∀ e ∈ entries, Addressed ⟨false⟩ (Sample.sharedFile ['d']) SmbPath.root e.info.name) ↔
      ∀ n, ((Sample.sharedFile ['d']).node (SmbPath.root.components ++ [n])).isSome = true →
        n.eqIgnoreAsciiCase streamsDir = false →
        (∀ p, none = some p → dosPatternMatches p n = true) → PlainName n :=
  listed_addressed_iff ⟨false⟩ (Sample.sharedFile ['d']) (Sample.sharedFileView ['d'])
    SmbPath.root [] 0 none .root rfl rfl (Sample.sharedFile_faithful ['d'])

/-- A file `a:b` is listed, and what a client writes for it is a stream of `a`. -/
theorem colonName_unaddressed :
    ¬∀ (b : LocalFsBackend) (fs : Fs Text) (view : HostView) (dir : SmbPath) (name : Text)
        (dirHandle : Nat) (pattern : Option Text) (entries : List DirEntry),
      dir.Obtained → isStreamsControlPath dir = false →
      fs.node dir.components = some (.dir dirHandle) →
      (∀ n, .unicode n ∈ view.names dirHandle ↔
        (fs.node (dir.components ++ [n])).isSome = true) →
      ((LocalHandle.dir name dirHandle).listDirCalls pattern).runOn view fs = (.ok entries, fs) →
      ∀ e ∈ entries, Addressed b fs dir e.info.name := by
  intro all
  have listed := all ⟨false⟩ (Sample.sharedFile Sample.colonName)
    (Sample.sharedFileView Sample.colonName) SmbPath.root [] 0 none
    [⟨fileInfoFromMetadata Sample.colonName ⟨0, false, none, none, none⟩⟩] .root rfl rfl
    (Sample.sharedFile_faithful Sample.colonName) rfl _ List.mem_cons_self
  obtain ⟨path, -, parsed, primary, -⟩ := listed
  have stream : SmbPath.parseComponents Sample.colonName = .ok ⟨[['a']], some ['b']⟩ := by
    decide +kernel
  have same : SmbPath.parseComponents Sample.colonName = .ok path := parsed
  rw [stream] at same
  cases same
  cases primary

end SmbServer
