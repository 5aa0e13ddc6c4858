import SmbServer.Handlers.SetInfo
import SmbServer.Lib.Checked
import SmbServer.Proto.ContextChain
import SmbServer.Proto.Spnego

/-!
# SmbServer.Handlers.WireArithmetic

The sums of offsets and lengths from the wire, in a `usize` of 32 or 64 bits.

The functions are those of `Proto.Spnego`, `Proto.Messages` and `Handlers.SetInfo`, with every
addition of the source that has a wire value in it made in machine words.
-/

namespace SmbServer

open Lib

/-! ### SPNEGO -/

/-- `read_len`. -/
def readLenChecked (w : Width) (buf : Bytes) (pos : Nat) : Checked (Nat × Nat) := do
  let first ← .ofOption buf[pos]?
  let digits ← .add w pos 1
  if first < 0x80 then return (first.toNat, digits)
  let nb := (first &&& 0x7f).toNat
  if nb = 0 ∨ nb > 4 then .rejected
  let stop ← .add w digits nb
  if stop > buf.length then .rejected
  return ((slice buf digits nb).foldl (fun v b => v * 256 + b.toNat) 0, stop)

/-- `read_any_tlv`. -/
def readAnyTlvChecked (w : Width) (buf : Bytes) (pos : Nat) : Checked (UInt8 × Bytes × Nat) := do
  let tag ← .ofOption buf[pos]?
  let lengthAt ← .add w pos 1
  let (len, afterLen) ← readLenChecked w buf lengthAt
  let stop ← .add w afterLen len
  if stop > buf.length then .rejected
  return (tag, slice buf afterLen len, stop)

/-- `read_tlv`. -/
def readTlvChecked (w : Width) (buf : Bytes) (pos : Nat) (expectedTag : UInt8) :
    Checked (Bytes × Nat) := do
  let tag ← .ofOption buf[pos]?
  if tag ≠ expectedTag then .rejected
  let lengthAt ← .add w pos 1
  let (len, afterLen) ← readLenChecked w buf lengthAt
  let stop ← .add w afterLen len
  if stop > buf.length then .rejected
  return (slice buf afterLen len, stop)

/-! ### Create contexts -/

namespace CreateContext

/-- One round of `parse_chain`, up to its `Next`. -/
def parseEntryChecked (w : Width) (entry : Bytes) : Checked (CreateContext × Nat) :=
  if entry.length < 16 then .rejected
  else do
    let h := EntryHeader.read entry
    let nameEnd ← .add w h.nameOffset h.nameLength
    if entry.length < nameEnd then .rejected
    if h.dataLength = 0 then return (h.context entry, h.next)
    let dataEnd ← .add w h.dataOffset h.dataLength
    if entry.length < dataEnd then .rejected
    return (h.context entry, h.next)

/-- The loop of `parse_chain`. The cursor is moved with `checked_add`. -/
def parseChainFromChecked (w : Width) (fuel : Nat) (chain : Bytes) (cursorOff : Nat) :
    Checked (List CreateContext) :=
  match fuel with
  | 0 => .rejected
  | fuel + 1 =>
    if chain.length < cursorOff then .rejected
    else do
      let (ctx, next) ← parseEntryChecked w (chain.drop cursorOff)
      if next = 0 then return [ctx]
      else if w.size ≤ cursorOff + next then .rejected
      else
        let rest ← parseChainFromChecked w fuel chain (cursorOff + next)
        return ctx :: rest

def parseChainChecked (w : Width) (chain : Bytes) : Checked (List CreateContext) :=
  if chain.isEmpty then .done [] else parseChainFromChecked w (chain.length + 1) chain 0

end CreateContext

/-! ### SET_INFO -/

namespace SetInfo

/-- The bytes of the new name in a rename buffer. -/
def renameName (buffer : Bytes) : Option Bytes :=
  if buffer.length < 20 then none
  else
    let nameLen := (readU32 buffer 16).toNat
    if buffer.length < 20 + nameLen then none else some (slice buffer 20 nameLen)

def renameNameChecked (w : Width) (buffer : Bytes) : Checked Bytes :=
  if buffer.length < 20 then .rejected
  else do
    let nameLen := (readU32 buffer 16).toNat
    let stop ← .add w 20 nameLen
    if buffer.length < stop then .rejected
    return slice buffer 20 nameLen

/-- A rename is decoded from the bytes of its name. -/
theorem decode_rename_of_some {η : Type} {buffer nameBytes : Bytes} (file : Open η)
    (name : renameName buffer = some nameBytes) :
    decode InfoClass.fileRenameInformation buffer file =
      (Create.decodePath nameBytes).map fun newPath =>
        .rename newPath (buffer.head? != some 0) := by
  rw [renameName] at name
  split at name
  · cases name
  next header =>
  simp only at name
  split at name
  · cases name
  next fits =>
  obtain rfl := Option.some.inj name
  rw [decode.eq_def, if_neg (by decide), if_neg (by decide), if_neg (by decide), if_pos rfl,
    if_neg header]
  simp only [if_neg fits]
  cases Create.decodePath (slice buffer 20 (readU32 buffer 16).toNat) <;> rfl

/-- And refused without them. -/
theorem decode_rename_of_none {η : Type} {buffer : Bytes} (file : Open η)
    (name : renameName buffer = none) :
    decode InfoClass.fileRenameInformation buffer file = .error statusInfoLengthMismatch := by
  rw [decode.eq_def, if_neg (by decide), if_neg (by decide), if_neg (by decide), if_pos rfl]
  rw [renameName] at name
  split at name
  next short => rw [if_pos short]
  next header =>
    simp only at name
    split at name
    next tooLong => simp only [if_neg header, if_pos tooLong]
    · cases name

end SetInfo

end SmbServer
