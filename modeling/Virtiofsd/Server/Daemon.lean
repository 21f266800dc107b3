/-
  # The server over the passthrough file system

  The calls that the server makes of its file system, implemented by `PassthroughFs`.  With
  them a handler becomes a program over what the daemon does at the bottom: the actions of a
  session, the copies to guest memory, and the accesses to `Server::options`.
-/
import Virtiofsd.Server.Handle
import Virtiofsd.ZeroCopy
import Virtiofsd.Lib.Refinement

namespace Virtiofsd

open Lib Prog

namespace Server

/-! ## 1. What the daemon does -/

/-- **An action of the daemon.** -/
inductive DaemonAct where
  | session (a : SessionAct)
  | copy (addr : Nat) (bytes : List UInt8)
  | loadOptions
  | storeOptions (options : UInt64)

abbrev DaemonAct.Ans : DaemonAct → Type
  | session a => a.Ans
  | copy _ _ => Unit
  | loadOptions => UInt64
  | storeOptions _ => Unit

inductive DaemonPanic where
  | server (p : Panic)
  | fs (p : PanicSite)
  deriving DecidableEq

/-- The programs of the daemon. -/
abbrev DaemonM := Prog DaemonAct DaemonAct.Ans IoError DaemonPanic

/-- A program of the file system in the daemon. -/
def ofSession {α : Type} (p : SessionM α) : DaemonM α := p.mapAct .session (fun _ r => r) .fs

/-- A method of the file system; its errors are values for the server. -/
def method {α β : Type} (p : SessionM α) (f : α → β) : DaemonM (Except IoError β) :=
  (ofSession p).attempt.bind fun r => .ret (r.map f)

/-! ## 2. Values on both sides -/

def seconds (n : Nat) : Duration := ⟨.ofNat n, 0⟩

def attrToFuse (a : Virtiofsd.Attr) : Fuse.Attr where
  ino := .ofNat a.ino
  size := .ofNat a.size
  blocks := .ofNat a.blocks
  atime := .ofNat a.atime
  mtime := .ofNat a.mtime
  ctime := .ofNat a.ctime
  atimensec := .ofNat a.atimensec
  mtimensec := .ofNat a.mtimensec
  ctimensec := .ofNat a.ctimensec
  mode := .ofNat a.mode
  nlink := .ofNat a.nlink
  uid := a.uid
  gid := a.gid
  rdev := .ofNat a.rdev
  blksize := .ofNat a.blksize
  flags := a.flags

def entryOf (e : Virtiofsd.Entry) : Entry where
  inode := .ofNat e.inode
  generation := .ofNat e.generation
  attr := attrToFuse e.attr
  attrTimeout := seconds e.attrTimeout
  entryTimeout := seconds e.entryTimeout

def attrOf (p : Virtiofsd.Attr × Nat) : Fuse.Attr × Duration := (attrToFuse p.1, seconds p.2)

def openedOf (p : Option Handle × OpenOptions) : Option UInt64 × OpenOptions :=
  (p.1.map UInt64.ofNat, p.2)

/-- `From<statvfs64> for Kstatfs`; the host lists the fields in this order. -/
def kstatfsOf (st : List Nat) : Fuse.Kstatfs where
  blocks := .ofNat (st.getD 0 0)
  bfree := .ofNat (st.getD 1 0)
  bavail := .ofNat (st.getD 2 0)
  files := .ofNat (st.getD 3 0)
  ffree := .ofNat (st.getD 4 0)
  bsize := .ofNat (st.getD 5 0)
  namelen := .ofNat (st.getD 6 0)
  frsize := .ofNat (st.getD 7 0)

/-- `Into<stat64> for SetattrIn`. -/
def setattrOf (a : Fuse.SetattrIn) : Virtiofsd.SetattrIn where
  mode := a.mode
  uid := a.uid
  gid := a.gid
  size := a.size.toNat
  atime := a.atime.toNat
  atimensec := a.atimensec.toNat
  mtime := a.mtime.toNat
  mtimensec := a.mtimensec.toNat

/-- The bits of `SetattrValid`. -/
def setattrValidOf (valid : UInt32) : SetattrValid :=
  let has (bit : UInt32) : Bool := valid &&& bit ≠ 0
  { mode := has Fuse.FATTR_MODE, uid := has Fuse.FATTR_UID, gid := has Fuse.FATTR_GID
    size := has Fuse.FATTR_SIZE, atime := has Fuse.FATTR_ATIME, mtime := has Fuse.FATTR_MTIME
    atimeNow := has Fuse.FATTR_ATIME_NOW, mtimeNow := has Fuse.FATTR_MTIME_NOW
    killSuidgid := has Fuse.FATTR_KILL_SUIDGID }

/-- The entries that the host has returned, one after the other. -/
instance : DirectoryIterator (List LinuxDirent) where
  next
    | [] => .ok none
    | d :: rest => .ok (some (⟨.ofNat d.ino, .ofNat d.off, .ofNat d.type, d.name⟩, rest))

/-! ## 3. The implementation of the calls -/

section

variable (cfg : Config)

/-- The calls of the directory requests. -/
def implementDirectory : (c : DirectoryCall) → DaemonM (c.Ans (List LinuxDirent))
  | .readdir _ inode handle size offset =>
    method (liftM (liftM (PassthroughFs.readdir inode.toNat handle.toNat size offset.toNat) :
      FsM (List LinuxDirent))) id
  | .lookup _ parent name => method (liftM (PassthroughFs.lookup cfg parent.toNat name)) entryOf
  | .forget _ inode count => ofSession (liftM (PassthroughFs.forget inode.toNat count.toNat))

/-- A method that touches no inode reference. -/
def fileMethod {α β : Type} (p : NeutralM α) (f : α → β) : DaemonM (Except IoError β) :=
  method (liftM (liftM p : FsM α)) f

/-- A method of requests. -/
def requestMethod {α β : Type} (p : FsM α) (f : α → β) : DaemonM (Except IoError β) :=
  method (liftM p) f

/-- **`impl FileSystem for PassthroughFs`.**  The methods it does not have fail with ENOSYS. -/
def implement : (c : FsCall) → DaemonM (c.Ans (List LinuxDirent))
  | .dir c => implementDirectory cfg c
  | .loadOptions => .perform (R := DaemonAct.Ans) .loadOptions
  | .storeOptions options => .perform (R := DaemonAct.Ans) (.storeOptions options)
  | .init capable => method (PassthroughFs.init cfg capable) id
  | .destroy => ofSession PassthroughFs.destroy
  | .batchForget _ requests =>
    ofSession (liftM (PassthroughFs.batchForget (requests.map fun p => (p.1.toNat, p.2.toNat))))
  | .getattr _ inode _ => fileMethod (PassthroughFs.getattr cfg inode.toNat) attrOf
  | .setattr _ inode attr handle valid =>
    fileMethod (PassthroughFs.setattr cfg inode.toNat (setattrOf attr) (handle.map UInt64.toNat)
      (setattrValidOf valid)) attrOf
  | .readlink _ inode => fileMethod (PassthroughFs.readlink inode.toNat) id
  | .symlink ctx linkname parent name extensions =>
    requestMethod (PassthroughFs.symlink cfg ctx linkname parent.toNat name extensions) entryOf
  | .mknod ctx parent name mode rdev umask extensions =>
    requestMethod (PassthroughFs.mknod cfg ctx parent.toNat name mode rdev umask extensions) entryOf
  | .mkdir ctx parent name mode umask extensions =>
    requestMethod (PassthroughFs.mkdir cfg ctx parent.toNat name mode umask extensions) entryOf
  | .unlink _ parent name => requestMethod (PassthroughFs.unlink cfg parent.toNat name) id
  | .rmdir _ parent name => requestMethod (PassthroughFs.rmdir cfg parent.toNat name) id
  | .rename _ olddir oldname newdir newname flags =>
    requestMethod (PassthroughFs.rename cfg olddir.toNat oldname newdir.toNat newname flags) id
  | .link _ inode newparent newname =>
    requestMethod (PassthroughFs.link cfg inode.toNat newparent.toNat newname) entryOf
  | .open _ inode killPriv flags =>
    fileMethod (PassthroughFs.openFile cfg inode.toNat killPriv flags) openedOf
  | .create ctx parent name mode killPriv flags umask extensions =>
    requestMethod
      (PassthroughFs.create cfg ctx parent.toNat name mode killPriv flags umask extensions)
      fun p => (entryOf p.1, openedOf p.2)
  | .read _ inode handle w size offset _ _ =>
    fileMethod (PassthroughFs.read inode.toNat handle.toNat w.zcWriter size.toNat offset.toNat) id
  | .write _ inode handle r size offset _ delayedWrite killPriv flags =>
    fileMethod (PassthroughFs.write cfg inode.toNat handle.toNat r.zcReader size.toNat offset.toNat
      delayedWrite killPriv flags) id
  | .flush _ inode handle _ => fileMethod (PassthroughFs.flush inode.toNat handle.toNat) id
  | .fsync _ inode datasync handle =>
    fileMethod (PassthroughFs.fsync inode.toNat datasync handle.toNat) id
  | .fsyncdir _ inode datasync handle =>
    fileMethod (PassthroughFs.fsync inode.toNat datasync handle.toNat) id
  | .fallocate _ inode handle mode offset length =>
    fileMethod (PassthroughFs.fallocate inode.toNat handle.toNat mode offset.toNat length.toNat) id
  | .release _ inode _ handle _ _ _ =>
    fileMethod (PassthroughFs.doRelease inode.toNat handle.toNat) id
  | .releasedir _ inode _ handle => fileMethod (PassthroughFs.doRelease inode.toNat handle.toNat) id
  | .statfs _ inode => fileMethod (PassthroughFs.statfs inode.toNat) kstatfsOf
  | .setxattr _ inode name value flags extraFlags =>
    fileMethod (PassthroughFs.setxattr cfg inode.toNat name value flags
      (extraFlags &&& Fuse.SETXATTR_ACL_KILL_SGID ≠ 0)) id
  | .getxattr _ inode name size =>
    fileMethod (PassthroughFs.getxattr cfg inode.toNat name size.toNat) id
  | .listxattr _ inode size => fileMethod (PassthroughFs.listxattr cfg inode.toNat size.toNat) id
  | .removexattr _ inode name => fileMethod (PassthroughFs.removexattr cfg inode.toNat name) id
  | .opendir _ inode flags => fileMethod (PassthroughFs.opendir cfg inode.toNat flags) openedOf
  | .access ctx inode mask => fileMethod (PassthroughFs.access cfg ctx inode.toNat mask) id
  | .lseek _ inode handle offset whence =>
    fileMethod (PassthroughFs.lseek inode.toNat handle.toNat offset.toNat whence) UInt64.ofNat
  | .copyfilerange _ inodeIn handleIn offsetIn inodeOut handleOut offsetOut len flags =>
    fileMethod (PassthroughFs.copyfilerange inodeIn.toNat handleIn.toNat offsetIn.toNat
      inodeOut.toNat handleOut.toNat offsetOut.toNat len.toNat flags.toNat) id
  | .syncfs _ inode => fileMethod (PassthroughFs.syncfs cfg inode.toNat) id
  | .unsupported _ => .ret (.error (.os ENOSYS))

/-- An action of the server. -/
def implementAct : (a : ServerAct FsCall) →
    DaemonM (ServerAct.Ans (FsCall.Ans (List LinuxDirent)) a)
  | .copy addr bytes => .perform (R := DaemonAct.Ans) (.copy addr bytes)
  | .fs c => implement cfg c

/-- **A handler over `PassthroughFs`.** -/
def overPassthrough {α : Type} (p : HandleM (List LinuxDirent) α) : DaemonM α :=
  expand (implementAct cfg) (p.mapAct id (fun _ r => r) DaemonPanic.server)

end

/-! ## 4. One message after the other -/

/-- **The daemon**: the options of the server, and the file system with its host.  Copies to
guest memory are not part of it. -/
structure Daemon where
  options : UInt64
  world : World

namespace Daemon

/-- Perform an action. -/
def perform : (a : DaemonAct) → Daemon → a.Ans × Daemon
  | .session a, d =>
    ((d.world.performSession a).1, { d with world := (d.world.performSession a).2 })
  | .copy _ _, d => ((), d)
  | .loadOptions, d => (d.options, d)
  | .storeOptions options, d => ((), { d with options := options })

/-- Run a handler. -/
def serve {α : Type} (cfg : Config) (p : HandleM (List LinuxDirent) α) (d : Daemon) :
    Outcome IoError DaemonPanic α × Daemon :=
  (overPassthrough cfg p).run perform d

variable {α β : Type} {cfg : Config} {d : Daemon}

theorem ofSession_run (p : SessionM α) : ∀ d : Daemon,
    (ofSession p).run perform d = ((p.run World.performSession d.world).1.mapPanic .fs,
      { d with world := (p.run World.performSession d.world).2 }) := by
  induction p with
  | ret | err | panic => exact fun _ => rfl
  | act a k ih => exact fun d => ih _ _

variable (p : HandleM (List LinuxDirent) α)

theorem serve_bind (k : α → HandleM (List LinuxDirent) β) :
    d.serve cfg (p.bind k) =
      match d.serve cfg p with
      | (.ok a, d') => d'.serve cfg (k a)
      | (.err e, d') => (.err e, d')
      | (.panic q, d') => (.panic q, d') := by
  rw [serve, overPassthrough, mapAct_bind, expand_bind, run_bind]
  rcases hp : d.serve cfg p with ⟨o, d'⟩
  rw [show (expand (implementAct cfg) (p.mapAct id (fun _ r => r) DaemonPanic.server)).run
    perform d = (o, d') from hp]
  cases o <;> rfl

theorem serve_call (c : FsCall) :
    d.serve cfg (call c : HandleM (List LinuxDirent) (c.Ans _)) =
      (implement cfg c).run perform d := by
  change ((implement cfg c).bind .ret).run perform d = _
  rw [bind_ret_right]

theorem serve_call_bind (c : FsCall)
    (k : c.Ans (List LinuxDirent) → HandleM (List LinuxDirent) β) :
    d.serve cfg ((call c).bind k) =
      match (implement cfg c).run perform d with
      | (.ok a, d') => d'.serve cfg (k a)
      | (.err e, d') => (.err e, d')
      | (.panic q, d') => (.panic q, d') := by
  rw [serve_bind, serve_call]
  rcases (implement cfg c).run perform d with ⟨o, d'⟩
  cases o <;> rfl

/-- A program that makes no call leaves the daemon alone. -/
theorem serve_of_no_call
    {Q : Outcome IoError Panic α → Memory × List (Sigma (FsCall.Ans (List LinuxDirent))) → Prop} :
    ∀ (m : Memory) (calls : List (Sigma (FsCall.Ans (List LinuxDirent)))),
      p.wp (serving (fun _ => False) fun _ _ => True) Q (m, calls) → (d.serve cfg p).2 = d := by
  induction p with
  | ret | err | panic => exact fun _ _ _ => rfl
  | act a k ih =>
    rintro m calls ⟨hpre, hwp⟩
    cases a with
    | copy addr bytes => exact ih () _ _ (hwp () _ rfl)
    | fs c => exact hpre.elim

end Daemon

/-! ## 5. Replies leave the daemon alone -/

section

variable {I : Type} {allowed : FsCall → Prop} {ok : (c : FsCall) → FsCall.Ans I c → Prop}
  {unique : UInt64} {w : Writer} (m : Memory) (calls : List (Sigma (FsCall.Ans I)))

/-- A reply makes no call. -/
theorem wp_replyError_any (e : IoError) : (replyError e unique w : HandleM I Handled).wp
    (serving allowed ok) (fun _ _ => True) (m, calls) :=
  wp_bind.mpr (wp_attempt.mpr
    (Writer.wp_writeAll _ _ (fun _ _ _ _ => trivial) fun _ => trivial))

theorem wp_replyOk_any (out data : List UInt8) : (replyOk out data unique w : HandleM I Handled).wp
    (serving allowed ok) (fun _ _ => True) (m, calls) := by
  refine wp_bind.mpr (wp_attempt.mpr (wp_bind.mpr (Writer.wp_writeAll _ _ ?_ fun _ => trivial)))
  intro _ w₁ _ _
  refine wp_bind.mpr (Writer.wp_writeAll _ _ ?_ fun _ => trivial)
  intro _ w₂ _ _
  exact Writer.wp_writeAll _ _ (fun _ _ _ _ => trivial) fun _ => trivial

variable {cfg : Config} {d : Daemon}

theorem replyError_daemon (e : IoError) : (d.serve cfg (replyError e unique w)).2 = d :=
  Daemon.serve_of_no_call _ (fun _ => 0) [] (wp_replyError_any _ _ e)

theorem replyOk_daemon (out data : List UInt8) : (d.serve cfg (replyOk out data unique w)).2 = d :=
  Daemon.serve_of_no_call _ (fun _ => 0) [] (wp_replyOk_any _ _ out data)

end

end Server

end Virtiofsd
