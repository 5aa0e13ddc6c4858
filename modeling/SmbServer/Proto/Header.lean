import SmbServer.Lib.Bytes

/-!
# SmbServer.Proto.Header

The fixed 64-byte SMB2 header of `proto/header.rs`: its flags, the command opcodes, and the
translation to and from bytes. The sync and async forms share everything but the eight bytes at
offset 32, which `Smb2Header.parse` reads by the ASYNC flag and `Smb2Header.write` writes by the
variant of the tail.
-/

namespace SmbServer

open Lib

def smb2Magic : Bytes := [0xFE, 0x53, 0x4D, 0x42]

def smb2HeaderLen : Nat := 64

def smb2FlagsServerToRedir : UInt32 := 0x00000001
def smb2FlagsAsyncCommand : UInt32 := 0x00000002
def smb2FlagsRelatedOperations : UInt32 := 0x00000004
def smb2FlagsSigned : UInt32 := 0x00000008

/-- `flags & mask != 0`. -/
def hasFlag (flags mask : UInt32) : Bool := flags &&& mask != 0

/-- SMB2 command opcodes. -/
inductive Command where
  | negotiate
  | sessionSetup
  | logoff
  | treeConnect
  | treeDisconnect
  | create
  | close
  | flush
  | read
  | write
  | lock
  | ioctl
  | cancel
  | echo
  | queryDirectory
  | changeNotify
  | queryInfo
  | setInfo
  | oplockBreak
  deriving DecidableEq, Repr

def Command.asU16 : Command → UInt16
  | .negotiate => 0x0000
  | .sessionSetup => 0x0001
  | .logoff => 0x0002
  | .treeConnect => 0x0003
  | .treeDisconnect => 0x0004
  | .create => 0x0005
  | .close => 0x0006
  | .flush => 0x0007
  | .read => 0x0008
  | .write => 0x0009
  | .lock => 0x000A
  | .ioctl => 0x000B
  | .cancel => 0x000C
  | .echo => 0x000D
  | .queryDirectory => 0x000E
  | .changeNotify => 0x000F
  | .queryInfo => 0x0010
  | .setInfo => 0x0011
  | .oplockBreak => 0x0012

def Command.fromU16 (v : UInt16) : Option Command :=
  match v.toNat with
  | 0 => some .negotiate
  | 1 => some .sessionSetup
  | 2 => some .logoff
  | 3 => some .treeConnect
  | 4 => some .treeDisconnect
  | 5 => some .create
  | 6 => some .close
  | 7 => some .flush
  | 8 => some .read
  | 9 => some .write
  | 10 => some .lock
  | 11 => some .ioctl
  | 12 => some .cancel
  | 13 => some .echo
  | 14 => some .queryDirectory
  | 15 => some .changeNotify
  | 16 => some .queryInfo
  | 17 => some .setInfo
  | 18 => some .oplockBreak
  | _ => none

@[simp] theorem Command.fromU16_asU16 (c : Command) : Command.fromU16 c.asU16 = some c := by
  cases c <;> rfl

/-- The eight bytes that differ between the two header forms. -/
inductive HeaderTail where
  | sync (reserved treeId : UInt32)
  | async (asyncId : UInt64)
  deriving DecidableEq, Repr

structure Smb2Header where
  creditCharge : UInt16
  channelSequenceStatus : UInt32
  command : Command
  creditRequestResponse : UInt16
  flags : UInt32
  nextCommand : UInt32
  messageId : UInt64
  tail : HeaderTail
  sessionId : UInt64
  signature : ByteVec 16
  deriving DecidableEq

namespace Smb2Header

/-- `Smb2Header::default`. -/
def default : Smb2Header where
  creditCharge := 0
  channelSequenceStatus := 0
  command := .negotiate
  creditRequestResponse := 0
  flags := 0
  nextCommand := 0
  messageId := 0
  tail := .sync 0 0
  sessionId := 0
  signature := ByteVec.zero 16

/-- The tree id of a sync header; an async header has none. -/
def treeId (h : Smb2Header) : Option UInt32 :=
  match h.tail with
  | .sync _ tid => some tid
  | .async _ => none

def parseTail (flags : UInt32) (b : Bytes) : HeaderTail :=
  if hasFlag flags smb2FlagsAsyncCommand then .async (u64OfLe b)
  else .sync (readU32 b 0) (readU32 b 4)

/-- Parse the header; the result pairs it with the bytes behind it. -/
def parse (buf : Bytes) : Option (Smb2Header × Bytes) :=
  if buf.length < smb2HeaderLen then none
  else if slice buf 0 4 ≠ smb2Magic then none
  else if readU16 buf 4 ≠ 64 then none
  else
    match Command.fromU16 (readU16 buf 12) with
    | none => none
    | some command =>
      some ({ creditCharge := readU16 buf 6
              channelSequenceStatus := readU32 buf 8
              command := command
              creditRequestResponse := readU16 buf 14
              flags := readU32 buf 16
              nextCommand := readU32 buf 20
              messageId := readU64 buf 24
              tail := parseTail (readU32 buf 16) (slice buf 32 8)
              sessionId := readU64 buf 40
              signature := ByteVec.ofBytes 16 (slice buf 48 16) }, buf.drop smb2HeaderLen)

/-- A header is read from its own 64 bytes, whatever follows. -/
theorem parse_take (buf : Bytes) (n : Nat) (header : smb2HeaderLen ≤ n) (fits : n ≤ buf.length) :
    parse (buf.take n) = (parse buf).map fun (hdr, body) => (hdr, body.take (n - smb2HeaderLen)) := by
  have len : (buf.take n).length = n := by rw [List.length_take]; omega
  have short : ¬n < smb2HeaderLen := by omega
  have short' : ¬buf.length < smb2HeaderLen := by omega
  -- every field lies within the first 64 bytes
  have front (off len : Nat) (h : off + len ≤ 64) :
      slice (buf.take n) off len = slice buf off len :=
    slice_take buf n off len (Nat.le_trans h header)
  have front16 (off : Nat) (h : off + 2 ≤ 64) : readU16 (buf.take n) off = readU16 buf off := by
    rw [readU16, front off 2 h, readU16]
  have front32 (off : Nat) (h : off + 4 ≤ 64) : readU32 (buf.take n) off = readU32 buf off := by
    rw [readU32, front off 4 h, readU32]
  have front64 (off : Nat) (h : off + 8 ≤ 64) : readU64 (buf.take n) off = readU64 buf off := by
    rw [readU64, front off 8 h, readU64]
  simp only [parse, len, short, short', if_false, front 0 4 (by omega), front16 4 (by omega),
    front16 6 (by omega), front32 8 (by omega), front16 12 (by omega), front16 14 (by omega),
    front32 16 (by omega), front32 20 (by omega), front64 24 (by omega), front 32 8 (by omega),
    front64 40 (by omega), front 48 16 (by omega)]
  by_cases magic : slice buf 0 4 ≠ smb2Magic
  · rw [if_pos magic, if_pos magic, Option.map_none]
  rw [if_neg magic, if_neg magic]
  by_cases size : readU16 buf 4 ≠ 64
  · rw [if_pos size, if_pos size, Option.map_none]
  rw [if_neg size, if_neg size]
  cases Command.fromU16 (readU16 buf 12) with
  | none => rfl
  | some command => simp only [Option.map_some, List.drop_take]

def writeTail : HeaderTail → Bytes
  | .sync reserved tid => u32le reserved ++ u32le tid
  | .async aid => u64le aid

/-- Serialize the 64-byte header. -/
def write (h : Smb2Header) : Bytes :=
  smb2Magic ++ u16le 64 ++ u16le h.creditCharge ++ u32le h.channelSequenceStatus ++
    u16le h.command.asU16 ++ u16le h.creditRequestResponse ++ u32le h.flags ++
    u32le h.nextCommand ++ u64le h.messageId ++ writeTail h.tail ++ u64le h.sessionId ++
    h.signature.val

@[simp] theorem length_writeTail (t : HeaderTail) : (writeTail t).length = 8 := by
  cases t <;> simp [writeTail]

@[simp] theorem length_write (h : Smb2Header) : h.write.length = smb2HeaderLen := by
  simp [write, smb2Magic, smb2HeaderLen]

/-! ### The fields of a written header, read back at their offsets -/

theorem readU32_status_write (h : Smb2Header) (body : Bytes) :
    readU32 (h.write ++ body) 8 = h.channelSequenceStatus := by
  have shape : h.write ++ body =
      (smb2Magic ++ u16le 64 ++ u16le h.creditCharge) ++ u32le h.channelSequenceStatus ++
      (u16le h.command.asU16 ++ u16le h.creditRequestResponse ++ u32le h.flags ++
        u32le h.nextCommand ++ u64le h.messageId ++ writeTail h.tail ++ u64le h.sessionId ++
        h.signature.val ++ body) := by
    simp only [write, List.append_assoc]
  rw [shape]
  exact readU32_at _ _ _ 8 (by simp [smb2Magic])

theorem readU32_flags_write (h : Smb2Header) (body : Bytes) :
    readU32 (h.write ++ body) 16 = h.flags := by
  have shape : h.write ++ body =
      (smb2Magic ++ u16le 64 ++ u16le h.creditCharge ++ u32le h.channelSequenceStatus ++
        u16le h.command.asU16 ++ u16le h.creditRequestResponse) ++ u32le h.flags ++
      (u32le h.nextCommand ++ u64le h.messageId ++ writeTail h.tail ++ u64le h.sessionId ++
        h.signature.val ++ body) := by
    simp only [write, List.append_assoc]
  rw [shape]
  exact readU32_at _ _ _ 16 (by simp [smb2Magic])

theorem readU64_sessionId_write (h : Smb2Header) (body : Bytes) :
    readU64 (h.write ++ body) 40 = h.sessionId := by
  have shape : h.write ++ body =
      (smb2Magic ++ u16le 64 ++ u16le h.creditCharge ++ u32le h.channelSequenceStatus ++
        u16le h.command.asU16 ++ u16le h.creditRequestResponse ++ u32le h.flags ++
        u32le h.nextCommand ++ u64le h.messageId ++ writeTail h.tail) ++ u64le h.sessionId ++
      (h.signature.val ++ body) := by
    simp only [write, List.append_assoc]
  rw [shape]
  exact readU64_at _ _ _ 40 (by simp [smb2Magic])

theorem readU32_treeId_write (h : Smb2Header) (reserved tid : UInt32)
    (sync : h.tail = .sync reserved tid) (body : Bytes) : readU32 (h.write ++ body) 36 = tid := by
  have shape : h.write ++ body =
      (smb2Magic ++ u16le 64 ++ u16le h.creditCharge ++ u32le h.channelSequenceStatus ++
        u16le h.command.asU16 ++ u16le h.creditRequestResponse ++ u32le h.flags ++
        u32le h.nextCommand ++ u64le h.messageId ++ u32le reserved) ++ u32le tid ++
      (u64le h.sessionId ++ h.signature.val ++ body) := by
    simp only [write, sync, writeTail, List.append_assoc]
  rw [shape]
  exact readU32_at _ _ _ 36 (by simp [smb2Magic])

theorem readU16_command_write (h : Smb2Header) (body : Bytes) :
    readU16 (h.write ++ body) 12 = h.command.asU16 := by
  have shape : h.write ++ body = (smb2Magic ++ u16le 64 ++ u16le h.creditCharge ++
      u32le h.channelSequenceStatus) ++ (u16le h.command.asU16 ++ (u16le h.creditRequestResponse ++
      u32le h.flags ++ u32le h.nextCommand ++ u64le h.messageId ++ writeTail h.tail ++
      u64le h.sessionId ++ h.signature.val ++ body)) := by
    simp only [write, List.append_assoc]
  have front : (smb2Magic ++ u16le 64 ++ u16le h.creditCharge ++
      u32le h.channelSequenceStatus).length = 12 := by simp [smb2Magic]
  rw [shape, readU16, slice_append_right _ _ _ _ (Nat.le_of_eq front), front, Nat.sub_self,
    slice_append_exact _ _ 2 (length_u16le _), u16OfLe_u16le]

theorem readU64_messageId_write (h : Smb2Header) (body : Bytes) :
    readU64 (h.write ++ body) 24 = h.messageId := by
  have shape : h.write ++ body =
      (smb2Magic ++ u16le 64 ++ u16le h.creditCharge ++ u32le h.channelSequenceStatus ++
        u16le h.command.asU16 ++ u16le h.creditRequestResponse ++ u32le h.flags ++
        u32le h.nextCommand) ++ u64le h.messageId ++
      (writeTail h.tail ++ u64le h.sessionId ++ h.signature.val ++ body) := by
    simp only [write, List.append_assoc]
  rw [shape]
  exact readU64_at _ _ _ 24 (by simp [smb2Magic])

theorem readU32_nextCommand_write (h : Smb2Header) (body : Bytes) :
    readU32 (h.write ++ body) 20 = h.nextCommand := by
  have shape : h.write ++ body =
      (smb2Magic ++ u16le 64 ++ u16le h.creditCharge ++ u32le h.channelSequenceStatus ++
        u16le h.command.asU16 ++ u16le h.creditRequestResponse ++ u32le h.flags) ++
        u32le h.nextCommand ++
      (u64le h.messageId ++ writeTail h.tail ++ u64le h.sessionId ++ h.signature.val ++ body) := by
    simp only [write, List.append_assoc]
  rw [shape]
  exact readU32_at _ _ _ 20 (by simp [smb2Magic])

/-! ### Buffers that begin with a header -/

/-- The checks of `parse`. -/
structure Begins (buf : Bytes) : Prop where
  long : smb2HeaderLen ≤ buf.length
  magic : slice buf 0 4 = smb2Magic
  size : readU16 buf 4 = 64
  command : (Command.fromU16 (readU16 buf 12)).isSome

/-- What is read as the header; `NextCommand` is the word at 20. -/
theorem Begins.parse {buf : Bytes} (h : Begins buf) :
    ∃ hdr body, Smb2Header.parse buf = some (hdr, body) ∧ hdr.nextCommand = readU32 buf 20 := by
  obtain ⟨command, known⟩ := Option.isSome_iff_exists.mp h.command
  simp only [Smb2Header.parse, Nat.not_lt.mpr h.long, h.magic, h.size, known, ne_eq,
    not_true_eq_false, if_false]
  exact ⟨_, _, rfl, rfl⟩

theorem begins_write (h : Smb2Header) (body : Bytes) : Begins (h.write ++ body) where
  long := by
    rw [List.length_append, length_write]
    exact Nat.le_add_right _ _
  magic := by
    simp only [write, List.append_assoc]
    exact slice_append_exact _ _ 4 (by decide)
  size := by
    have shape : h.write ++ body = smb2Magic ++ (u16le 64 ++ (u16le h.creditCharge ++
        u32le h.channelSequenceStatus ++ u16le h.command.asU16 ++ u16le h.creditRequestResponse ++
        u32le h.flags ++ u32le h.nextCommand ++ u64le h.messageId ++ writeTail h.tail ++
        u64le h.sessionId ++ h.signature.val ++ body)) := by
      simp only [write, List.append_assoc]
    rw [shape, readU16, slice_append_right _ _ _ _ (by decide)]
    exact (congrArg u16OfLe (slice_append_exact _ _ 2 (length_u16le 64))).trans
      (u16OfLe_u16le 64)
  command := by
    rw [readU16_command_write, Command.fromU16_asU16]
    rfl

/-- Only the first twenty bytes are checked. -/
theorem Begins.of_front {a b : Bytes} (h : Begins a) (long : smb2HeaderLen ≤ b.length)
    (front : ∀ off len, off + len ≤ 20 → slice b off len = slice a off len) : Begins b where
  long := long
  magic := by rw [front 0 4 (by omega), h.magic]
  size := by rw [readU16, front 4 2 (by omega), ← readU16, h.size]
  command := by rw [readU16, front 12 2 (by omega), ← readU16]; exact h.command

end Smb2Header

/-! ### Flag arithmetic -/

theorem hasFlag_or_self (flags mask : UInt32) (h : mask ≠ 0) :
    hasFlag (flags ||| mask) mask = true := by
  have absorb : (flags ||| mask) &&& mask = mask := by
    apply UInt32.toBitVec_inj.mp
    ext i hi
    simp only [UInt32.toBitVec_and, UInt32.toBitVec_or, BitVec.getElem_and, BitVec.getElem_or,
      Bool.and_eq_right_iff_imp, Bool.or_eq_true]
    exact Or.inr
  simp [hasFlag, absorb, h]

theorem hasFlag_clear_self (flags mask : UInt32) : hasFlag (flags &&& ~~~mask) mask = false := by
  have cleared : (flags &&& ~~~mask) &&& mask = 0 := by
    apply UInt32.toBitVec_inj.mp
    ext i hi
    simp
  simp [hasFlag, cleared]

theorem hasFlag_or (a b mask : UInt32) :
    hasFlag (a ||| b) mask = (hasFlag a mask || hasFlag b mask) := by
  have distributes : (a ||| b) &&& mask = (a &&& mask) ||| (b &&& mask) := by
    apply UInt32.toBitVec_inj.mp
    ext i hi
    simp only [UInt32.toBitVec_and, UInt32.toBitVec_or, BitVec.getElem_and, BitVec.getElem_or,
      Bool.and_or_distrib_right]
  simp only [hasFlag, distributes]
  apply Bool.eq_iff_iff.mpr
  simp only [bne_iff_ne, Bool.or_eq_true, ne_eq, UInt32.or_eq_zero_iff]
  tauto

/-- Clearing bits outside the mask. -/
theorem hasFlag_clear (flags other mask : UInt32) (apart : mask &&& other = 0) :
    hasFlag (flags &&& ~~~other) mask = hasFlag flags mask := by
  have kept : (flags &&& ~~~other) &&& mask = flags &&& mask := by
    apply UInt32.toBitVec_inj.mp
    ext i hi
    have bit := congrArg (fun x : UInt32 => x.toBitVec[i]) apart
    simp only [UInt32.toBitVec_and, UInt32.toBitVec_not, BitVec.getElem_and, BitVec.getElem_not,
      UInt32.toBitVec_zero, BitVec.getElem_zero] at bit ⊢
    cases set : mask.toBitVec[i] with
    | false => simp
    | true =>
      rw [set, Bool.true_and] at bit
      simp [bit]
  simp only [hasFlag, kept]

end SmbServer
