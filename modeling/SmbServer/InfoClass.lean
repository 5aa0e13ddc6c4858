import SmbServer.Backend

/-!
# SmbServer.InfoClass

The file, filesystem and security information classes and their encodings (`info_class.rs`).
-/

namespace SmbServer

open Lib

namespace InfoClass

def fileDirectoryInformation : UInt8 := 0x01
def fileFullDirectoryInformation : UInt8 := 0x02
def fileBothDirectoryInformation : UInt8 := 0x03
def fileBasicInformation : UInt8 := 0x04
def fileStandardInformation : UInt8 := 0x05
def fileInternalInformation : UInt8 := 0x06
def fileEaInformation : UInt8 := 0x07
def fileAccessInformation : UInt8 := 0x08
def fileNameInformation : UInt8 := 0x09
def fileRenameInformation : UInt8 := 0x0A
def fileNamesInformation : UInt8 := 0x0C
def fileDispositionInformation : UInt8 := 0x0D
def filePositionInformation : UInt8 := 0x0E
def fileFullEaInformation : UInt8 := 0x0F
def fileModeInformation : UInt8 := 0x10
def fileAlignmentInformation : UInt8 := 0x11
def fileAllInformation : UInt8 := 0x12
def fileAllocationInformation : UInt8 := 0x13
def fileEndOfFileInformation : UInt8 := 0x14
def fileStreamInformation : UInt8 := 0x16
def fileNetworkOpenInformation : UInt8 := 0x22
def fileIdBothDirectoryInformation : UInt8 := 0x25
def fileIdFullDirectoryInformation : UInt8 := 0x26

def fsVolumeInformation : UInt8 := 0x01
def fsSizeInformation : UInt8 := 0x03
def fsDeviceInformation : UInt8 := 0x04
def fsAttributeInformation : UInt8 := 0x05
def fsFullSizeInformation : UInt8 := 0x07

/-! ### File information -/

/-- The four times, as every class that carries them writes them. -/
def encodeTimes (info : FileInfo) : Bytes :=
  u64le info.creationTime ++ u64le info.lastAccessTime ++ u64le info.lastWriteTime ++
    u64le info.changeTime

def encodeFileBasicInformation (info : FileInfo) : Bytes :=
  encodeTimes info ++ u32le info.attributes ++ u32le 0

def encodeFileStandardInformation (info : FileInfo) : Bytes :=
  u64le info.allocationSize ++ u64le info.endOfFile ++ u32le 1 ++
    [0, if info.isDirectory then 1 else 0] ++ u16le 0

def encodeFileInternalInformation (fileIndex : UInt64) : Bytes := u64le fileIndex

def encodeFileEaInformation : Bytes := u32le 0

def encodeFileAccessInformation (accessMask : UInt32) : Bytes := u32le accessMask

def encodeFilePositionInformation : Bytes := u64le 0

def encodeFileModeInformation (mode : UInt32) : Bytes := u32le mode

def encodeFileAlignmentInformation : Bytes := u32le 0

def encodeFileNameInformation (name : Text) : Bytes :=
  let n := utf16le name
  u32le (UInt32.ofNat n.length) ++ n

/-- At least 101 bytes, also for the empty name of the root. -/
def encodeFileAllInformation (info : FileInfo) (fileIndex : UInt64) (accessMask : UInt32) :
    Bytes :=
  let out := encodeFileBasicInformation info ++ encodeFileStandardInformation info ++
    encodeFileInternalInformation fileIndex ++ encodeFileEaInformation ++
    encodeFileAccessInformation accessMask ++ encodeFilePositionInformation ++
    encodeFileModeInformation 0 ++ encodeFileAlignmentInformation ++
    encodeFileNameInformation info.name
  if out.length < 101 then out ++ [0] else out

def encodeFileNetworkOpenInformation (info : FileInfo) : Bytes :=
  encodeTimes info ++ u64le info.allocationSize ++ u64le info.endOfFile ++
    u32le info.attributes ++ u32le 0

/-- `"::$DATA"` -/
def defaultStream : Text := [':', ':', '$', 'D', 'A', 'T', 'A']

/-- The default stream of a file; nothing for a directory. -/
def encodeFileStreamInformation (info : FileInfo) : Bytes :=
  if info.isDirectory then []
  else
    let name := utf16le defaultStream
    u32le 0 ++ u32le (UInt32.ofNat name.length) ++ u64le info.endOfFile ++
      u64le info.allocationSize ++ name

/-! ### Filesystem information -/

def encodeFsVolumeInformation (creationTime : UInt64) (serial : UInt32) (label : Text) : Bytes :=
  let labelU16 := utf16le label
  u64le creationTime ++ u32le serial ++ u32le (UInt32.ofNat labelU16.length) ++ [0, 0] ++ labelU16

def encodeFsSizeInformation (total avail : UInt64) (sectorsPerUnit bytesPerSector : UInt32) :
    Bytes :=
  u64le total ++ u64le avail ++ u32le sectorsPerUnit ++ u32le bytesPerSector

def encodeFsDeviceInformation (deviceType characteristics : UInt32) : Bytes :=
  u32le deviceType ++ u32le characteristics

def encodeFsAttributeInformation (attributes maxComponentLen : UInt32) (fsName : Text) : Bytes :=
  let nameU16 := utf16le fsName
  u32le attributes ++ u32le maxComponentLen ++ u32le (UInt32.ofNat nameU16.length) ++ nameU16

def encodeFsFullSizeInformation (total callerAvail actualAvail : UInt64)
    (sectorsPerUnit bytesPerSector : UInt32) : Bytes :=
  u64le total ++ u64le callerAvail ++ u64le actualAvail ++ u32le sectorsPerUnit ++
    u32le bytesPerSector

/-! ### Security -/

/-- The SID of Everyone. -/
def sidEveryone : Bytes := [0x01, 0x01, 0, 0, 0, 0, 0, 0x01, 0, 0, 0, 0]

/-- Owner Everyone, and one entry that allows Everyone all access. -/
def encodeMinimalSecurityDescriptor : Bytes :=
  let ace := [0, 0] ++ u16le (UInt16.ofNat (4 + 4 + sidEveryone.length)) ++ u32le 0x001F01FF ++
    sidEveryone
  let dacl := [0x02, 0] ++ u16le (UInt16.ofNat (8 + ace.length)) ++ u16le 1 ++ u16le 0 ++ ace
  [0x01, 0] ++ u16le (0x0004 ||| 0x8000) ++ u32le 20 ++ u32le 0 ++ u32le 0 ++
    u32le (20 + UInt32.ofNat sidEveryone.length) ++ sidEveryone ++ dacl

/-! ### Directory information -/

def dirEntryPrefix (info : FileInfo) (fileIndex : UInt64) (nameLen : Nat) : Bytes :=
  u32le 0 ++ u32le fileIndex.toUInt32 ++ encodeTimes info ++ u64le info.endOfFile ++
    u64le info.allocationSize ++ u32le info.attributes ++ u32le (UInt32.ofNat nameLen)

/-- One directory entry; empty for a class that is not a directory class. -/
def encodeDirEntry (infoClass : UInt8) (entry : DirEntry) (fileIndex : UInt64) : Bytes :=
  let info := entry.info
  let name := utf16le info.name
  let start := dirEntryPrefix info fileIndex name.length
  if infoClass = fileDirectoryInformation then start ++ name
  else if infoClass = fileFullDirectoryInformation then start ++ u32le 0 ++ name
  else if infoClass = fileBothDirectoryInformation then
    start ++ u32le 0 ++ [0, 0] ++ List.replicate 24 0 ++ name
  else if infoClass = fileIdBothDirectoryInformation then
    start ++ u32le 0 ++ [0, 0] ++ List.replicate 24 0 ++ u16le 0 ++ u64le fileIndex ++ name
  else if infoClass = fileIdFullDirectoryInformation then
    start ++ u32le 0 ++ u32le 0 ++ u64le fileIndex ++ name
  else if infoClass = fileNamesInformation then
    u32le 0 ++ u32le fileIndex.toUInt32 ++ u32le (UInt32.ofNat name.length) ++ name
  else []

/-- Round up to a multiple of 8. -/
def align8 (n : Nat) : Nat := (n + 7) / 8 * 8

end InfoClass

/-- `FileInfoClass::from_u8`: whether a byte is a directory class. -/
def isFileInfoClass (v : UInt8) : Bool :=
  v == 0x01 || v == 0x02 || v == 0x03 || v == 0x0C || v == 0x25 || v == 0x26

end SmbServer
