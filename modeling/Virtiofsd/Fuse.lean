/-
  # The FUSE protocol (`fuse.rs`)

  The numbers both sides of the wire agree on: option bits of INIT, flag bits of requests,
  opcodes, and the sizes of the fixed parts of messages.
-/
import Mathlib.Data.UInt

namespace Virtiofsd

/-! ## 1. Options of INIT -/

/-- `FsOptions`. -/
abbrev FsOptions := UInt64

namespace FsOptions

def ASYNC_READ : FsOptions := (1 : UInt64) <<< 0
def ATOMIC_O_TRUNC : FsOptions := (1 : UInt64) <<< 3
def BIG_WRITES : FsOptions := (1 : UInt64) <<< 5
def DONT_MASK : FsOptions := (1 : UInt64) <<< 6
def HAS_IOCTL_DIR : FsOptions := (1 : UInt64) <<< 11
def AUTO_INVAL_DATA : FsOptions := (1 : UInt64) <<< 12
def DO_READDIRPLUS : FsOptions := (1 : UInt64) <<< 13
def READDIRPLUS_AUTO : FsOptions := (1 : UInt64) <<< 14
def ASYNC_DIO : FsOptions := (1 : UInt64) <<< 15
def WRITEBACK_CACHE : FsOptions := (1 : UInt64) <<< 16
def PARALLEL_DIROPS : FsOptions := (1 : UInt64) <<< 18
def POSIX_ACL : FsOptions := (1 : UInt64) <<< 20
def MAX_PAGES : FsOptions := (1 : UInt64) <<< 22
def SUBMOUNTS : FsOptions := (1 : UInt64) <<< 27
def HANDLE_KILLPRIV_V2 : FsOptions := (1 : UInt64) <<< 28
def SETXATTR_EXT : FsOptions := (1 : UInt64) <<< 29
def INIT_EXT : FsOptions := (1 : UInt64) <<< 30
def SECURITY_CTX : FsOptions := (1 : UInt64) <<< 32
def CREATE_SUPP_GROUP : FsOptions := (1 : UInt64) <<< 34
def DIRECT_IO_ALLOW_MMAP : FsOptions := (1 : UInt64) <<< 36
def ALLOW_IDMAP : FsOptions := (1 : UInt64) <<< 40

/-- `FsOptions::contains`. -/
def contains (opts other : FsOptions) : Bool := opts &&& other == other

end FsOptions

end Virtiofsd
