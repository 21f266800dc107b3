/-
  # Reading directories of the host (`read_dir.rs`)

  A `ReadDir` is an iterator over records that the host has put into a buffer.  There are two
  of them, for the two systems the daemon is built for:

  * on LINUX the offset of an entry is the cookie of the host.  `new` seeks to a cookie and
    reads one batch of records with `getdents64`.  The host takes no cookie above `i64::MAX`;
    for those the directory is read from its start, batch by batch, until the entry with the
    cookie has been passed.
  * on MACOS the offset of an entry is its number.  `new` reads the whole directory, and
    `next` leaves out as many entries as the offset says.

  Both are programs over the two calls of the host that they make.  Their loops are bounded by
  a number of rounds; one that goes on after that counts as a panic.
-/
import Virtiofsd.Server.Directory

namespace Virtiofsd

open Lib Server

/-! ## 1. Calls of the host -/

/-- `lseek` with `SEEK_SET`, the offset as the bits of its argument, and `getdents64`
(`__getdirentries64`) on the descriptor of the directory. -/
inductive DirHostCall where
  | lseek (offset : UInt64)
  | getdents (size : Nat)

/-- The answers; `getdents` returns the bytes that it has put into the buffer. -/
def DirHostCall.Ans : DirHostCall → Type
  | lseek _ => Except Errno Nat
  | getdents _ => Except Errno (List UInt8)

abbrev DirHostM := Prog DirHostCall DirHostCall.Ans IoError Panic

namespace DirHostM

def lseek (offset : UInt64) : DirHostM (Except Errno Nat) := .perform (DirHostCall.lseek offset)

def getdents (size : Nat) : DirHostM (Except Errno (List UInt8)) :=
  .perform (DirHostCall.getdents size)

end DirHostM

/-- `strip_padding`: the bytes before the first zero. -/
def stripPadding (b : List UInt8) : Except IteratorPanic Name :=
  if b.contains 0 then .ok (b.takeWhile (· != 0)) else .error .unterminatedName

/-! ## 2. Linux -/

namespace Linux

/-- `ReadDir`. -/
structure ReadDir where
  buf : List UInt8
  current : Nat
  endPos : Nat

/-- `size_of::<LinuxDirent64>()`; the struct is packed. -/
def LINUX_DIRENT64_SIZE : Nat := 19

/-- `i64::MAX`. -/
def I64_MAX : Nat := 2 ^ 63 - 1

namespace ReadDir

/-- `Default`. -/
def empty : ReadDir := ⟨[], 0, 0⟩

/-- `remaining`. -/
def remaining (rd : ReadDir) : Nat := rd.endPos - rd.current

/-- `self.buf[self.current..self.end]`. -/
def rem (rd : ReadDir) : List UInt8 := (rd.buf.take rd.endPos).drop rd.current

/-- **`next`.** -/
def next (rd : ReadDir) : Except IteratorPanic (Option (DirEntry × ReadDir)) :=
  if rd.endPos < rd.current ∨ rd.buf.length < rd.endPos then .error .recordLength
  else if rd.rem.isEmpty then .ok none
  else if rd.rem.length < LINUX_DIRENT64_SIZE then .error .shortHeader
  else
    let reclen := fieldAt rd.rem 16 2
    if reclen < LINUX_DIRENT64_SIZE ∨ rd.rem.length < reclen then .error .recordLength
    else do
      let namelen := reclen - LINUX_DIRENT64_SIZE
      let name ← stripPadding ((rd.rem.drop LINUX_DIRENT64_SIZE).take namelen)
      let entry : DirEntry :=
        { ino := .ofNat (fieldAt rd.rem 0 8), offset := .ofNat (fieldAt rd.rem 8 8)
          type := .ofNat (fieldAt rd.rem 18 1), name := name }
      return some (entry, { rd with current := rd.current + reclen })

/-- The loop of `move_past`. -/
def movePastLoop (targetOffset : UInt64) : Nat → ReadDir → Except IteratorPanic (Bool × ReadDir)
  | 0, rd => .ok (false, rd)
  | rounds + 1, rd => do
    match ← rd.next with
    | none => return (false, rd)
    | some (entry, rd) =>
      if entry.offset = targetOffset then return (true, rd)
      else movePastLoop targetOffset rounds rd

/-- `move_past`: every entry takes a byte at least. -/
def movePast (rd : ReadDir) (targetOffset : UInt64) : Except IteratorPanic (Bool × ReadDir) :=
  movePastLoop targetOffset (rd.remaining + 1) rd

/-- `new_no_seek`. -/
def newNoSeek (buf : List UInt8) : DirHostM ReadDir := do
  match ← DirHostM.getdents buf.length with
  | .error e => .err (.os e)
  | .ok bytes => return ⟨bytes ++ buf.drop bytes.length, 0, bytes.length⟩

/-- The loop of `new_walk_to`. -/
def walkLoop (targetOffset : UInt64) : Nat → List UInt8 → DirHostM ReadDir
  | 0, _ => .panic .rounds
  | rounds + 1, buf => do
    let rd ← newNoSeek buf
    if rd.remaining = 0 then return rd
    else
      match rd.movePast targetOffset with
      | .error p => .panic (.iterator p)
      | .ok (true, rd) => if rd.remaining > 0 then return rd else newNoSeek rd.buf
      | .ok (false, rd) => walkLoop targetOffset rounds rd.buf

/-- `new_walk_to`. -/
def newWalkTo (rounds : Nat) (targetOffset : UInt64) (buf : List UInt8) : DirHostM ReadDir := do
  match ← DirHostM.lseek 0 with
  | .error e => .err (.os e)
  | .ok _ => walkLoop targetOffset rounds buf

/-- **`new`.** -/
def new (rounds : Nat) (offset : UInt64) (buf : List UInt8) : DirHostM ReadDir := do
  match ← DirHostM.lseek offset with
  | .ok _ => newNoSeek buf
  | .error e =>
    if e ≠ EINVAL ∨ offset.toNat ≤ I64_MAX then .err (.os e)
    else newWalkTo rounds offset buf

end ReadDir

instance : DirectoryIterator ReadDir := ⟨ReadDir.next⟩

/-- **`PassthroughFs::readdir`**, once the handle has been found and its lock been taken. -/
def readdir (rounds size : Nat) (offset : UInt64) : DirHostM ReadDir :=
  if size = 0 then return .empty else ReadDir.new rounds offset (List.replicate size 0)

end Linux

/-! ## 3. macOS -/

namespace Macos

/-- `ReadDir`. -/
structure ReadDir where
  dirBuf : List UInt8
  current : Nat
  endPos : Nat
  skipRemaining : Nat
  entryIndex : UInt64

def MACOS_DIRENT_NAME_OFFSET : Nat := 21

def CHUNK_SIZE : Nat := 32 * 1024

namespace ReadDir

/-- `Default`. -/
def empty : ReadDir := ⟨[], 0, 0, 0, 0⟩

/-- `self.dir_buf[self.current..self.end]`; `current` does not pass `end`. -/
def rem (rd : ReadDir) : List UInt8 := (rd.dirBuf.take rd.endPos).drop rd.current

/-- The name of the record in front of `rem`. -/
def nameOf (rem : List UInt8) (namlen : Nat) : Except IteratorPanic Name :=
  let name := (rem.drop MACOS_DIRENT_NAME_OFFSET).take namlen
  if rem[MACOS_DIRENT_NAME_OFFSET + namlen]? = some 0 then .ok name else stripPadding name

/-- The loop of `next`. -/
def nextLoop : Nat → ReadDir → Except IteratorPanic (Option (DirEntry × ReadDir))
  | 0, _ => .ok none
  | rounds + 1, rd =>
    if rd.rem.isEmpty ∨ rd.rem.length < MACOS_DIRENT_NAME_OFFSET then .ok none
    else
      let reclen := fieldAt rd.rem 16 2
      let namlen := fieldAt rd.rem 18 2
      if reclen = 0 ∨ reclen > rd.rem.length then .ok none
      else
        let rd' := { rd with current := rd.current + reclen, entryIndex := rd.entryIndex + 1 }
        if rd.skipRemaining > 0 then
          nextLoop rounds { rd' with skipRemaining := rd.skipRemaining - 1 }
        else if MACOS_DIRENT_NAME_OFFSET + namlen > rd.rem.length then .ok none
        else do
          let name ← nameOf rd.rem namlen
          let entry : DirEntry :=
            { ino := .ofNat (fieldAt rd.rem 0 8), offset := rd'.entryIndex
              type := .ofNat (fieldAt rd.rem 20 1), name := name }
          return some (entry, rd')

/-- **`next`**: every record takes a byte at least. -/
def next (rd : ReadDir) : Except IteratorPanic (Option (DirEntry × ReadDir)) :=
  nextLoop (rd.rem.length + 1) rd

/-- The loop of `new_no_seek`. -/
def readLoop : Nat → List UInt8 → DirHostM ReadDir
  | 0, _ => .panic .rounds
  | rounds + 1, dirBuf => do
    match ← DirHostM.getdents CHUNK_SIZE with
    | .error e => .err (.os e)
    | .ok bytes =>
      if bytes.isEmpty then return ⟨dirBuf, 0, dirBuf.length, 0, 0⟩
      else readLoop rounds (dirBuf ++ bytes)

/-- `new_no_seek`. -/
def newNoSeek (rounds : Nat) : DirHostM ReadDir := readLoop rounds []

/-- **`new`.** -/
def new (rounds : Nat) (offset : UInt64) : DirHostM ReadDir := do
  match ← DirHostM.lseek 0 with
  | .error e => .err (.os e)
  | .ok _ => do
    let rd ← newNoSeek rounds
    return { rd with skipRemaining := offset.toNat }

end ReadDir

instance : DirectoryIterator ReadDir := ⟨ReadDir.next⟩

/-- **`PassthroughFs::readdir`**, once the handle has been found and its lock been taken. -/
def readdir (rounds size : Nat) (offset : UInt64) : DirHostM ReadDir :=
  if size = 0 then return .empty else ReadDir.new rounds offset

end Macos

/-! ## 4. The two systems -/

/-- What the daemon is built for. -/
inductive HostOs where
  | linux
  | macos
  deriving DecidableEq

/-- `ReadDir`. -/
def HostOs.ReadDir : HostOs → Type
  | linux => Linux.ReadDir
  | macos => Macos.ReadDir

instance (os : HostOs) : DirectoryIterator os.ReadDir :=
  match os with
  | .linux => inferInstanceAs (DirectoryIterator Linux.ReadDir)
  | .macos => inferInstanceAs (DirectoryIterator Macos.ReadDir)

/-- `PassthroughFs::readdir`. -/
def HostOs.readdir (os : HostOs) (rounds size : Nat) (offset : UInt64) : DirHostM os.ReadDir :=
  match os with
  | .linux => Linux.readdir rounds size offset
  | .macos => Macos.readdir rounds size offset

end Virtiofsd
