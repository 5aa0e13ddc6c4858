import SmbServer.Client
import SmbServer.Effects.Listing
import SmbServer.Properties.LiveContext

/-!
# SmbServer.Properties.OutputLimit

The buffer length that a client asks for in a QUERY_DIRECTORY.

## Main result

`respectsLimit_iff`: whatever the directory, the position in it, the class and the length, a request
keeps to the length if and only if the next entry, padded to eight bytes, is no longer than that.

The loop tests the length behind the first entry only. A next entry that is too long is answered
with success, in a buffer longer than the client has, and the cursor moves past it.

## Proof strategy

`handle_of_cursor` reduces a request to its encoding loop, and `fill_eq` says what that appends: at
least the next entry, and behind a second one no more than the client asked for.
-/

namespace SmbServer

open Lib

namespace QueryDirectory

section
variable {σ η : Type} [Host σ η]

/-- The entries that are still to be returned. -/
def unread (req : QueryDirectoryRequest) (target : Target η) (host : σ) : List DirEntry :=
  match cursorFor req target host with
  | some cursor => cursor.entries.drop cursor.next
  | none => []

/-- The bytes of a response behind its fixed part. -/
def carried (resp : HandlerResponse) : Nat := resp.body.length - 8

/-- A request keeps to the length of the client's buffer: a success fits into it, and a next entry
that does not fit makes the request fail where the cursor was. -/
structure RespectsLimit (hdr : Smb2Header) (body : Bytes) (w : World σ η) : Prop where
  bound : ∀ req target, validate w.conn hdr body = .ok (req, target) →
    (handle hdr body w).1.status = statusSuccess →
      carried (handle hdr body w).1 ≤ req.outputBufferLength.toNat
  stuck : ∀ req target entry, validate w.conn hdr body = .ok (req, target) →
    (unread req target w.env.host).head? = some entry →
      req.outputBufferLength.toNat < (padded req.fileInformationClass entry).length →
        (handle hdr body w).1.status ≠ statusSuccess ∧
          ∀ cursor, ((handle hdr body w).2.conn.findOpen hdr.sessionId target.tid
              req.fileId).bind (·.searchState) = some cursor →
            cursor.entries.drop cursor.next = unread req target w.env.host

/-- The next entry is no longer than the client's buffer. -/
def NextFits (hdr : Smb2Header) (body : Bytes) (w : World σ η) : Prop :=
  ∀ req target entry, validate w.conn hdr body = .ok (req, target) →
    (unread req target w.env.host).head? = some entry →
      InfoClass.align8 (InfoClass.encodeDirEntry req.fileInformationClass entry
        entry.info.fileIndex).length ≤ req.outputBufferLength.toNat

omit [Host σ η] in
/-- A response behind a next entry is a success, and short enough when the next entry is. -/
theorem reply_carried {infoClass : UInt8} (known : isFileInfoClass infoClass = true) (cap : Nat)
    (single : Bool) (entry : DirEntry) (rest : List DirEntry) :
    (reply (fill infoClass cap single (entry :: rest) ⟨[], none⟩).1).status = statusSuccess ∧
      (carried (reply (fill infoClass cap single (entry :: rest) ⟨[], none⟩).1) ≤ cap ↔
        (padded infoClass entry).length ≤ cap) := by
  obtain ⟨n, -, filled, first, total⟩ := fill_eq known cap single (entry :: rest) [] (by simp)
  -- the first entry is always carried
  obtain ⟨m, rfl⟩ := Nat.exists_eq_succ_of_ne_zero (first rfl (by simp))
  rw [show (⟨[], none⟩ : Output) = .of [] from rfl, filled]
  rw [List.nil_append] at total ⊢
  have long : (Output.of (((entry :: rest).take (m + 1)).map (padded infoClass))).buf.length =
      ((((entry :: rest).take (m + 1)).map (padded infoClass)).map List.length).sum :=
    Chain.length_join _ (room_padded known _)
  have entire := room_padded known [entry] _ (List.mem_singleton_self _)
  have front : ((((entry :: rest).take (m + 1)).map (padded infoClass)).map List.length).sum =
      (padded infoClass entry).length +
        (((rest.take m).map (padded infoClass)).map List.length).sum := by
    rw [List.take_succ_cons, List.map_cons, List.map_cons, List.sum_cons]
  have nonempty : (Output.of (((entry :: rest).take (m + 1)).map (padded infoClass))).buf ≠ [] := by
    rw [← List.length_pos_iff, long, front]
    omega
  rw [reply_of_nonempty _ nonempty]
  refine ⟨rfl, ?_⟩
  simp only [carried, HandlerResponse.ok, BufferResponse.write, List.length_append, length_u16le,
    length_u32le, long]
  rw [front] at total ⊢
  -- one entry, whatever its length, or as many as fit
  rcases total with zero | ⟨-, one⟩ | within
  · cases zero
  · obtain rfl : m = 0 := Nat.succ.inj one
    simp
  · omega

/-- A request keeps to the length that the client asks for if and only if the next entry does. -/
theorem respectsLimit_iff (hdr : Smb2Header) (body : Bytes) (w : World σ η) :
    RespectsLimit hdr body w ↔ NextFits hdr body w := by
  constructor
  -- an entry that is too long would have to be withheld, but the first is always sent
  · intro limit req target entry admitted next
    obtain ⟨-, known, -⟩ := (validate_iff w.conn hdr body req target).mp admitted
    rw [← length_padded]
    by_contra long
    have stuck := limit.stuck req target entry admitted next (Nat.lt_of_not_le long)
    cases loaded : cursorFor req target w.env.host with
    | none => simp [unread, loaded] at next
    | some cursor =>
      simp only [unread, loaded] at next
      obtain ⟨rest, behind⟩ := List.head?_eq_some_iff.mp next
      have handled := (handle_of_cursor admitted loaded).1
      rw [behind] at handled
      rw [handled] at stuck
      exact stuck.1 (reply_carried known _ _ entry rest).1
  · intro fits
    constructor
    · intro req target admitted success
      obtain ⟨-, known, -⟩ := (validate_iff w.conn hdr body req target).mp admitted
      cases loaded : cursorFor req target w.env.host with
      | none => exact absurd success (handle_of_no_cursor admitted loaded).1
      | some cursor =>
        have handled := (handle_of_cursor admitted loaded).1
        cases behind : cursor.entries.drop cursor.next with
        | nil =>
          rw [behind] at handled
          rw [handled] at success
          exact absurd (show statusNoMoreFiles = statusSuccess from success) (by decide)
        | cons entry rest =>
          rw [behind] at handled
          rw [handled, (reply_carried known _ _ entry rest).2, length_padded]
          exact fits req target entry admitted (by simp [unread, loaded, behind])
    · intro req target entry admitted next long
      rw [length_padded] at long
      exact absurd (fits req target entry admitted next) (Nat.not_le_of_lt long)

end

end QueryDirectory

/-! ### A buffer of no bytes -/

/-- An application with one directory of one file; a handle says which of the two it is. -/
structure Sample.Shelf where

namespace Sample

scoped instance shelf : Host Shelf Bool where
  capabilities _ := ⟨false, true, true⟩
  «open» _ _ opts s := (.ok opts.directory, s)
  unlink _ _ s := (.ok (), s)
  rename _ _ _ _ s := (.ok (), s)
  read _ _ _ s := (.ok [], s)
  writeOwned _ _ data s := (.ok (UInt32.ofNat data.length), s)
  flush _ s := (.ok (), s)
  stat directory s :=
    (.ok { fileInfo with isDirectory := directory, fileIndex := if directory then 3 else 5 }, s)
  setTimes _ _ s := (.ok (), s)
  truncate _ _ s := (.ok (), s)
  listDir _ _ s := (.ok [⟨{ fileInfo with name := ['f'], fileIndex := 5 }⟩], s)
  close _ s := (.ok (), s)
  fillRandom n s := (ByteVec.zero n, s)
  nowFiletime s := (0, s)

/-- What an anonymous client finds behind frames that it sends. -/
def shelfBehind (frames : List Bytes) : World Shelf Bool :=
  let s := (System.start server Shelf.mk : System Shelf Bool).run
    (session (anonymousOn ['w'] ++ frames))
  ⟨(s.conns.lookup 1).getD (Connection.new 0 (ByteVec.zero 16) 0 0), s.env⟩

/-- The directory is opened. -/
def openDirectory : Bytes :=
  Client.plain .create 1 1 (Client.createBody Create.fileReadData 1 Create.fileDirectoryFile ['d'])

end Sample

open scoped Sample

/-- The directory of the sample is open, and its scan has not begun. -/
theorem opened_directory :
    ∃ file h, (Sample.shelfBehind [Sample.openDirectory]).conn.findOpen 1 1 ⟨1, 1⟩ = some file ∧
      file.isDirectory = true ∧ file.searchState = none ∧ file.handle = some h := by
  have reached : ((Sample.shelfBehind [Sample.openDirectory]).conn.findOpen 1 1 ⟨1, 1⟩).any
      (fun file => file.isDirectory && file.searchState.isNone && file.handle.isSome) = true := by
    decide +kernel
  simp only [Option.any_eq_true, Bool.and_eq_true, Option.isNone_iff_eq_none,
    Option.isSome_iff_exists] at reached
  obtain ⟨file, found, ⟨directory, fresh⟩, h, handle⟩ := reached
  exact ⟨file, h, found, directory, fresh, handle⟩

/-- A client without a buffer is sent the first entry. -/
theorem queryDirectory_overflows :
    ¬∀ (hdr : Smb2Header) (body : Bytes) (w : World Sample.Shelf Bool),
      QueryDirectory.RespectsLimit hdr body w := by
  intro all
  have limit := all (Client.header .queryDirectory 0 1 1)
    (Client.queryDirectoryBody InfoClass.fileDirectoryInformation 0 ⟨1, 1⟩ 0 ['*'])
    (Sample.shelfBehind [Sample.openDirectory])
  -- accepted with a length of 0, answered with 72 bytes
  have sent : ((QueryDirectory.validate (Sample.shelfBehind [Sample.openDirectory]).conn
      (Client.header .queryDirectory 0 1 1)
      (Client.queryDirectoryBody InfoClass.fileDirectoryInformation 0 ⟨1, 1⟩ 0 ['*'])).toOption.any
        fun p => p.1.outputBufferLength.toNat == 0) = true ∧
      (QueryDirectory.handle (Client.header .queryDirectory 0 1 1)
        (Client.queryDirectoryBody InfoClass.fileDirectoryInformation 0 ⟨1, 1⟩ 0 ['*'])
        (Sample.shelfBehind [Sample.openDirectory])).1.status = statusSuccess ∧
      QueryDirectory.carried (QueryDirectory.handle (Client.header .queryDirectory 0 1 1)
        (Client.queryDirectoryBody InfoClass.fileDirectoryInformation 0 ⟨1, 1⟩ 0 ['*'])
        (Sample.shelfBehind [Sample.openDirectory])).1 = 72 := by
    decide +kernel
  obtain ⟨asked, success, bytes⟩ := sent
  cases admitted : QueryDirectory.validate (Sample.shelfBehind [Sample.openDirectory]).conn
      (Client.header .queryDirectory 0 1 1)
      (Client.queryDirectoryBody InfoClass.fileDirectoryInformation 0 ⟨1, 1⟩ 0 ['*']) with
  | error status =>
    rw [admitted] at asked
    cases asked
  | ok pair =>
    rw [admitted] at asked
    have bound := limit.bound pair.1 pair.2 admitted success
    rw [bytes, beq_iff_eq.mp asked] at bound
    exact absurd bound (by decide)

end SmbServer
