import SmbServer.Text
import SmbServer.Ntstatus

/-!
# SmbServer.Path

`SmbPath`: the validated component list, with an optional stream selector, that passes between the
dispatcher and a backend (`path.rs`).
-/

namespace SmbServer

open Lib

structure SmbPath where
  components : List Text
  stream : Option Text
  deriving DecidableEq

namespace SmbPath

/-- The share root. -/
def root : SmbPath := ⟨[], none⟩

def isRoot (p : SmbPath) : Bool := p.components.isEmpty

def streamName (p : SmbPath) : Option Text := p.stream

def fileName (p : SmbPath) : Option Text := p.components.getLast?

/-- Backslash-separated components; empty for the root. -/
def displayBackslash (p : SmbPath) : Text := List.intercalate ['\\'] p.components

end SmbPath

def isSeparator (c : Char) : Bool := c == '\\' || c == '/'

/-- Control characters and the characters Windows forbids in a name; `:` is not among them. -/
def isForbiddenChar (c : Char) : Bool :=
  c.toNat < 0x20 || c == '<' || c == '>' || c == '"' || c == '|' || c == '?' || c == '*'

/-- `str::split` at separators. -/
def splitSeparators : Text → List Text
  | [] => [[]]
  | c :: rest =>
    if isSeparator c then [] :: splitSeparators rest
    else
      match splitSeparators rest with
      | part :: parts => (c :: part) :: parts
      | [] => [[c]]

/-- `"$DATA"` -/
def dataStreamType : Text := ['$', 'D', 'A', 'T', 'A']

/-- Split a final component into its name and its stream selector `name[:stream[:type]]`. -/
def splitStreamSelector (last : Text) : SmbResult (Text × Option Text) :=
  match last.splitOnce ':' with
  | none => .ok (last, none)
  | some (name, rest) =>
    let (stream, ty) := match rest.splitOnce ':' with
      | some (stream, ty) => (stream, some ty)
      | none => (rest, none)
    match ty with
    | some ty =>
      if !ty.eqIgnoreAsciiCase dataStreamType then .error .nameInvalid
      else if stream.isEmpty then .ok (name, none)
      else .ok (name, some stream)
    | none => if stream.isEmpty then .ok (name, none) else .ok (name, some stream)

def matchesComOrLpt (s : Text) : Bool :=
  match s with
  | [a, b, c, d] =>
    '1' ≤ d && d ≤ '9' && ([a, b, c] == ['C', 'O', 'M'] || [a, b, c] == ['L', 'P', 'T'])
  | _ => false

def isReservedDosName (s : Text) : Bool :=
  let stem := match s.rsplitOnce '.' with
    | some (stem, _) => stem
    | none => s
  let upper := stem.map Char.toUpper
  upper == ['C', 'O', 'N'] || upper == ['P', 'R', 'N'] || upper == ['A', 'U', 'X'] ||
    upper == ['N', 'U', 'L'] || matchesComOrLpt upper

/-- One component in front of the last: `none` is a `.` that is skipped. -/
def parseComponent (raw : Text) : SmbResult (Option Text) :=
  if raw.isEmpty then .error .nameInvalid
  else if raw = ['.'] then .ok none
  else if raw = ['.', '.'] then .error .nameInvalid
  else if isReservedDosName raw then .error .nameInvalid
  else .ok (some raw)

def parseParents : List Text → SmbResult (List Text)
  | [] => .ok []
  | raw :: rest => do
    let here ← parseComponent raw
    let behind ← parseParents rest
    return here.toList ++ behind

namespace SmbPath

/-- `parse_components`, behind `FromStr`. -/
def parseComponents (s : Text) : SmbResult SmbPath :=
  let trimmed := match s with
    | c :: rest => if isSeparator c then rest else s
    | [] => s
  if trimmed.isEmpty then .ok root
  else if trimmed.any isForbiddenChar then .error .nameInvalid
  else
    let parts := splitSeparators trimmed
    let rawParts := parts.dropLast
    let last := parts.getLastD []
    if rawParts.any (·.contains ':') then .error .nameInvalid
    else do
      let (lastName, stream) ← splitStreamSelector last
      let parents ← parseParents rawParts
      if lastName.isEmpty then .error .nameInvalid
      else if lastName = ['.'] then
        if stream.isSome then .error .nameInvalid else return ⟨parents, none⟩
      else if lastName = ['.', '.'] then .error .nameInvalid
      else if isReservedDosName lastName then .error .nameInvalid
      else return ⟨parents ++ [lastName], stream⟩

/-- Decode strictly (an unpaired surrogate is rejected), then parse. -/
def fromUtf16 (units : List UInt16) : SmbResult SmbPath :=
  match SmbServer.fromUtf16 units with
  | some s => parseComponents s
  | none => .error .nameInvalid

def fromStr (s : Text) : SmbResult SmbPath := parseComponents s

/-- `none` for the root. -/
def parent (p : SmbPath) : Option SmbPath :=
  if p.isRoot then none else some ⟨p.components.dropLast, none⟩

/-- The stream selector of `last`, if any, becomes the path's. -/
def join (p : SmbPath) (last : Text) : SmbResult SmbPath := do
  let extra ← fromStr last
  return ⟨p.components ++ extra.components, extra.stream⟩

end SmbPath

end SmbServer
