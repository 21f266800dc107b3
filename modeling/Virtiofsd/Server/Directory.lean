/-
  # READDIR and READDIRPLUS (`server.rs`)

  The two requests fill the writable part of a chain with directory entries.  The space for
  the header of the reply is split off first and filled last, when the number of bytes is
  known.  A READDIRPLUS looks up each entry, which takes a reference for the guest, BEFORE it
  is known whether the entry fits; if it does not, the reference is given back.

  The server is generic over the file system; its calls are the actions `DirectoryCall`, and
  the iterator that `readdir` of the file system returns is any `DirectoryIterator`.
-/
import Virtiofsd.Lib.Wire
import Virtiofsd.Passthrough.Operations
import Virtiofsd.Server.Writer

namespace Virtiofsd

open Lib

/-! ## 1. Messages (`fuse.rs`) -/

namespace Fuse

/-- `InHeader`, as far as the two requests read it. -/
structure InHeader where
  unique : UInt64
  nodeid : UInt64
  uid : UInt32
  gid : UInt32
  pid : UInt32

/-- `OutHeader`. -/
structure OutHeader where
  len : UInt32
  error : Int32
  unique : UInt64

/-- `size_of::<OutHeader>()`. -/
def OutHeader.size : Nat := 16

def OutHeader.asSlice (h : OutHeader) : List UInt8 :=
  fieldBytes [(4, h.len.toNat), (4, h.error.toUInt32.toNat), (8, h.unique.toNat)]

/-- `ReadIn`, as far as the two requests read it. -/
structure ReadIn where
  fh : UInt64
  offset : UInt64
  size : UInt32

/-- `read_obj::<ReadIn>` of a reader over these bytes. -/
def ReadIn.readObj (r : List UInt8) : Except IoError ReadIn :=
  if r.length < 40 then .error (.custom .unexpectedEof "failed to fill whole buffer")
  else .ok {
    fh := .ofNat (fieldAt r 0 8)
    offset := .ofNat (fieldAt r 8 8)
    size := .ofNat (fieldAt r 16 4) }

/-- `Dirent`. -/
structure Dirent where
  ino : UInt64
  off : UInt64
  namelen : UInt32
  type : UInt32

/-- `size_of::<Dirent>()`. -/
def Dirent.size : Nat := 24

def Dirent.asSlice (d : Dirent) : List UInt8 :=
  fieldBytes [(8, d.ino.toNat), (8, d.off.toNat), (4, d.namelen.toNat), (4, d.type.toNat)]

/-- `Attr`. -/
structure Attr where
  ino : UInt64
  size : UInt64
  blocks : UInt64
  atime : UInt64
  mtime : UInt64
  ctime : UInt64
  atimensec : UInt32
  mtimensec : UInt32
  ctimensec : UInt32
  mode : UInt32
  nlink : UInt32
  uid : UInt32
  gid : UInt32
  rdev : UInt32
  blksize : UInt32
  flags : UInt32
  deriving Inhabited

def Attr.fields (a : Attr) : Fields :=
  [(8, a.ino.toNat), (8, a.size.toNat), (8, a.blocks.toNat), (8, a.atime.toNat),
    (8, a.mtime.toNat), (8, a.ctime.toNat), (4, a.atimensec.toNat), (4, a.mtimensec.toNat),
    (4, a.ctimensec.toNat), (4, a.mode.toNat), (4, a.nlink.toNat), (4, a.uid.toNat),
    (4, a.gid.toNat), (4, a.rdev.toNat), (4, a.blksize.toNat), (4, a.flags.toNat)]

/-- `EntryOut`. -/
structure EntryOut where
  nodeid : UInt64
  generation : UInt64
  entryValid : UInt64
  attrValid : UInt64
  entryValidNsec : UInt32
  attrValidNsec : UInt32
  attr : Attr

/-- `size_of::<EntryOut>()`. -/
def EntryOut.size : Nat := 128

def EntryOut.asSlice (e : EntryOut) : List UInt8 :=
  fieldBytes ([(8, e.nodeid.toNat), (8, e.generation.toNat), (8, e.entryValid.toNat),
    (8, e.attrValid.toNat), (4, e.entryValidNsec.toNat), (4, e.attrValidNsec.toNat)] ++
    e.attr.fields)

@[simp] theorem OutHeader.length_asSlice (h : OutHeader) : h.asSlice.length = OutHeader.size := by
  simp [asSlice, length_fieldBytes, size]

@[simp] theorem Dirent.length_asSlice (d : Dirent) : d.asSlice.length = Dirent.size := by
  simp [asSlice, length_fieldBytes, size]

@[simp] theorem EntryOut.length_asSlice (e : EntryOut) : e.asSlice.length = EntryOut.size := by
  simp [asSlice, length_fieldBytes, Attr.fields, size]

end Fuse

/-! ## 2. The file system (`filesystem.rs`) -/

/-- `std::time::Duration`. -/
structure Duration where
  secs : UInt64
  nanos : UInt32

namespace Server

/-- `DirEntry`; the name without its terminating zero. -/
structure DirEntry where
  ino : UInt64
  offset : UInt64
  type : UInt32
  name : Name
  deriving DecidableEq

/-- `Entry`, with the widths that it has on the wire. -/
structure Entry where
  inode : UInt64
  generation : UInt64
  attr : Fuse.Attr
  attrTimeout : Duration
  entryTimeout : Duration

/-- `impl From<Entry> for EntryOut`. -/
def Entry.toEntryOut (e : Entry) : Fuse.EntryOut where
  nodeid := e.inode
  generation := e.generation
  entryValid := e.entryTimeout.secs
  attrValid := e.attrTimeout.secs
  entryValidNsec := e.entryTimeout.nanos
  attrValidNsec := e.attrTimeout.nanos
  attr := e.attr

/-- What an iterator over a buffer of the host expects of it. -/
inductive IteratorPanic where
  | shortHeader
  | recordLength
  | unterminatedName
  deriving DecidableEq

/-- `trait DirectoryIterator`. -/
class DirectoryIterator (I : Type) where
  next : I → Except IteratorPanic (Option (DirEntry × I))

/-- The calls of the file system in the two requests. -/
inductive DirectoryCall where
  | readdir (ctx : Context) (inode handle : UInt64) (size : Nat) (offset : UInt64)
  | lookup (ctx : Context) (parent : UInt64) (name : Name)
  | forget (ctx : Context) (inode count : UInt64)

/-- The answers; the iterators are `I`. -/
def DirectoryCall.Ans (I : Type) : DirectoryCall → Type
  | readdir _ _ _ _ _ => Except IoError I
  | lookup _ _ _ => Except IoError Entry
  | forget _ _ _ => Unit

/-! ## 3. Replies -/

/-- `Error` of the crate. -/
inductive Error where
  | decodeMessage (e : IoError)
  | encodeMessage (e : IoError)
  | missingParameter
  | invalidCString
  | invalidCString2
  | invalidHeaderLength
  | invalidXattrSize (size : UInt32) (len : Nat)
  | missingExtension
  deriving DecidableEq

/-- The panics of the server.  `slice` is a cut outside of a slice; `maxPages` are the
conversions of the page size in `init`; `rounds` stands for a loop that goes on for ever. -/
inductive Panic where
  | splitHeader
  | iterator (p : IteratorPanic)
  | slice
  | maxPages
  | unsupportedOperation
  | rounds
  deriving DecidableEq

/-- `MAX_BUFFER_SIZE`. -/
def MAX_BUFFER_SIZE : Nat := 1 <<< 20

section

variable {F : Type} {R : F → Type}

/-- A program of the server. -/
abbrev M (R : F → Type) := Prog (ServerAct F) (ServerAct.Ans R) IoError Panic

/-- A call of the file system. -/
def call (c : F) : M R (R c) := .act (.fs c) .ret

/-- `reply_readdir`. -/
def replyReaddir (len : Nat) (unique : UInt64) (w : Writer) : M R (Except Error Nat) := do
  let out : Fuse.OutHeader :=
    { len := .ofNat (Fuse.OutHeader.size + len), error := 0, unique := unique }
  match ← (w.writeAll out.asSlice).attempt with
  | .ok _ => return .ok out.len.toNat
  | .error e => return .error (.encodeMessage e)

/-- `reply_error`; `errno_to_linux` is the identity here. -/
def replyError (e : IoError) (unique : UInt64) (w : Writer) : M R (Except Error Nat) := do
  let nativeErrno := e.rawOsError.getD EIO
  let header : Fuse.OutHeader :=
    { len := .ofNat Fuse.OutHeader.size, error := -Int32.ofNat nativeErrno, unique := unique }
  match ← (w.writeAll header.asSlice).attempt with
  | .ok w => return .ok w.bytesConsumed
  | .error e => return .error (.encodeMessage e)

/-! ## 4. One entry -/

/-- `usize::checked_add`, with the error of `add_dirent`. -/
def checkedAdd (a b : Nat) : Except IoError Nat :=
  if a + b < usizeSize then .ok (a + b) else .error (.os EOVERFLOW)

/-- `DIRENT_PADDING`. -/
def DIRENT_PADDING : List UInt8 := List.replicate 8 0

/-- The part of `add_dirent` that writes the `Dirent`, the name and the padding. -/
def writeDirent (cursor : Writer) (d : DirEntry) (padding : Nat) : M R Writer := do
  let dirent : Fuse.Dirent :=
    { ino := d.ino, off := d.offset, namelen := .ofNat d.name.length, type := d.type }
  let cursor ← cursor.writeAll dirent.asSlice
  let cursor ← cursor.writeAll d.name
  if padding > 0 then cursor.writeAll (DIRENT_PADDING.take padding) else return cursor

/-- **`add_dirent`.**  The number of bytes, 0 if the entry does not fit. -/
def addDirent (cursor : Writer) (max : Nat) (d : DirEntry) (entry : Option Entry) :
    M R (Nat × Writer) := do
  let name := d.name
  if name.length > 2 ^ 32 - 1 then .err (.os EOVERFLOW)
  else
    let direntLen ← .ofExcept (checkedAdd Fuse.Dirent.size name.length)
    let paddedDirentLen ← .ofExcept ((checkedAdd direntLen 7).map fun l => l / 8 * 8)
    let totalLen ← .ofExcept
      (if entry.isSome then checkedAdd paddedDirentLen Fuse.EntryOut.size else .ok paddedDirentLen)
    if max < totalLen then return (0, cursor)
    else
      let cursor ←
        match entry with
        | some entry => cursor.writeAll entry.toEntryOut.asSlice
        | none => pure cursor
      let cursor ← writeDirent cursor d (paddedDirentLen - direntLen)
      return (totalLen, cursor)

end

variable {I : Type} [DirectoryIterator I]

/-- `FileSystem::readdir`, `lookup` and `forget`. -/
def fsReaddir (ctx : Context) (inode handle : UInt64) (size : Nat) (offset : UInt64) :
    M (DirectoryCall.Ans I) (Except IoError I) :=
  call (DirectoryCall.readdir ctx inode handle size offset)

def fsLookup (ctx : Context) (parent : UInt64) (name : Name) :
    M (DirectoryCall.Ans I) (Except IoError Entry) := call (DirectoryCall.lookup ctx parent name)

def fsForget (ctx : Context) (inode count : UInt64) : M (DirectoryCall.Ans I) Unit :=
  call (DirectoryCall.forget ctx inode count)

/-- `Context::from`. -/
def contextOf (h : Fuse.InHeader) : Context := ⟨h.uid, h.gid, h.pid⟩

/-! ## 5. READDIR -/

/-- The loop of `readdir` over the entries. -/
def readdirLoop (size : Nat) : Nat → I → Writer → Nat →
    M (DirectoryCall.Ans I) (Except IoError Nat)
  | 0, _, _, _ => .panic .rounds
  | rounds + 1, entries, cursor, totalWritten =>
    match DirectoryIterator.next entries with
    | .error p => .panic (.iterator p)
    | .ok none => return .ok totalWritten
    | .ok (some (dirent, entries)) => do
      let remaining := size - totalWritten
      match ← (addDirent cursor remaining dirent none).attempt with
      | .ok (0, _) => return .ok totalWritten
      | .ok (bytesWritten, cursor) =>
        readdirLoop size rounds entries cursor (totalWritten + bytesWritten)
      | .error e => return .error e

/-- What the two requests have in common: the arguments, the space for the header, the call of
the file system, and the reply.  Every entry takes a byte at least, so `size + 1` rounds are
enough for the loop. -/
def listDirectory
    (loop : (size rounds : Nat) → I → Writer → Nat → M (DirectoryCall.Ans I) (Except IoError Nat))
    (inHeader : Fuse.InHeader) (r : List UInt8) (w : Writer) :
    M (DirectoryCall.Ans I) (Except Error Nat) :=
  match Fuse.ReadIn.readObj r with
  | .error e => return .error (.decodeMessage e)
  | .ok args =>
    let size := min args.size.toNat MAX_BUFFER_SIZE
    if w.availableBytes < size then replyError (.os ENOMEM) inHeader.unique w
    else
      match w.splitAt Fuse.OutHeader.size with
      | none => .panic .splitHeader
      | some (w, cursor) => do
        let entries ← fsReaddir (contextOf inHeader) inHeader.nodeid args.fh size args.offset
        let result ←
          match entries with
          | .ok entries => loop size (size + 1) entries cursor 0
          | .error e => pure (.error e)
        match result with
        | .ok totalWritten => replyReaddir totalWritten inHeader.unique w
        | .error e => replyError e inHeader.unique w

/-- **`Server::readdir`.** -/
def readdir : Fuse.InHeader → List UInt8 → Writer →
    M (DirectoryCall.Ans I) (Except Error Nat) :=
  listDirectory readdirLoop

/-! ## 6. READDIRPLUS -/

/-- `CURRENT_DIR_CSTR` and `PARENT_DIR_CSTR`. -/
def CURRENT_DIR_CSTR : Name := [46]
def PARENT_DIR_CSTR : Name := [46, 46]

/-- `handle_dirent`. -/
def handleDirent (inHeader : Fuse.InHeader) (dirEntry : DirEntry) :
    M (DirectoryCall.Ans I) (DirEntry × Entry) := do
  if dirEntry.name = CURRENT_DIR_CSTR ∨ dirEntry.name = PARENT_DIR_CSTR then
    return (dirEntry, {
      inode := 0, generation := 0
      attr := { (default : Fuse.Attr) with ino := dirEntry.ino, mode := dirEntry.type <<< 12 }
      attrTimeout := ⟨0, 0⟩, entryTimeout := ⟨0, 0⟩ })
  else
    let entry ← fsLookup (contextOf inHeader) inHeader.nodeid dirEntry.name
    .ofExcept (entry.map fun e => (dirEntry, e))

/-- `handle_dirent` and then `add_dirent`, with the value of `entry_inode` afterwards. -/
def lookupAndAdd (inHeader : Fuse.InHeader) (cursor : Writer) (remaining : Nat)
    (dirent : DirEntry) :
    M (DirectoryCall.Ans I) (Option UInt64 × Except IoError (Nat × Writer)) := do
  match ← (handleDirent inHeader dirent).attempt with
  | .error e => return (none, .error e)
  | .ok (d, e) =>
    let written ← (addDirent cursor remaining d (some e)).attempt
    return (some e.inode, written)

/-- Undo the lookup of an entry that is not sent. -/
def forgetEntry (inHeader : Fuse.InHeader) (entryInode : Option UInt64) :
    M (DirectoryCall.Ans I) Unit :=
  match entryInode with
  | some inode => fsForget (contextOf inHeader) inode 1
  | none => return ()

/-- The loop of `readdirplus` over the entries. -/
def readdirplusLoop (inHeader : Fuse.InHeader) (size : Nat) : Nat → I → Writer → Nat →
    M (DirectoryCall.Ans I) (Except IoError Nat)
  | 0, _, _, _ => .panic .rounds
  | rounds + 1, entries, cursor, totalWritten =>
    match DirectoryIterator.next entries with
    | .error p => .panic (.iterator p)
    | .ok none => return .ok totalWritten
    | .ok (some (dirent, entries)) => do
      let remaining := size - totalWritten
      let (entryInode, bytesWritten) ← lookupAndAdd inHeader cursor remaining dirent
      match bytesWritten with
      | .ok (0, _) => do
        forgetEntry inHeader entryInode
        return .ok totalWritten
      | .ok (bytesWritten, cursor) =>
        readdirplusLoop inHeader size rounds entries cursor (totalWritten + bytesWritten)
      | .error e => do
        forgetEntry inHeader entryInode
        -- Some entries may be in the reply already: they are sent without the error.
        if totalWritten = 0 then return .error e else return .ok totalWritten

/-- **`Server::readdirplus`.** -/
def readdirplus (inHeader : Fuse.InHeader) : List UInt8 → Writer →
    M (DirectoryCall.Ans I) (Except Error Nat) :=
  listDirectory (readdirplusLoop inHeader) inHeader

end Server

end Virtiofsd
