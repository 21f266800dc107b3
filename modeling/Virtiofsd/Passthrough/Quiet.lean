/-
  # Calls that are harmless everywhere

  Most requests of a read-only share make calls that change nothing on any host: they look
  at files, or open them with `O_PATH` or for reading.  `HostCall.Quiet` says which calls
  these are.  Whatever the calls are answered, these requests make no other call.
-/
import Virtiofsd.Migration.Sessions

namespace Virtiofsd

open Lib

/-! ## 1. The calls -/

/-- **A call that is harmless on every host.** -/
def HostCall.Quiet : HostCall → Prop
  | .openat _ _ flags _ => QuietFlags flags
  | .openRoot flags => QuietFlags flags
  | .reopen _ flags => QuietFlags flags
  | .openByHandle _ flags => QuietFlags flags
  | .pwritev .. => False
  | .fchmodPath .. => False
  | .copyFileRange .. => False
  | .libc c => c.Quiet
  | _ => True

theorem HostCall.Looks.quiet {c : HostCall} (h : c.Looks) : c.Quiet := by
  cases c <;> first | exact trivial | exact h

def NeutralAct.Quiet : NeutralAct → Prop
  | .host c => c.Quiet
  | .query _ => True

def Act.Quiet : Act → Prop
  | .neutral a => a.Quiet
  | .ref _ => True

def SessionAct.Quiet : SessionAct → Prop
  | .act a => a.Quiet
  | _ => True

/-- A program that makes only such calls, whatever they are answered. -/
abbrev Quietly {α : Type} (p : NeutralM α) : Prop :=
  Keeps NeutralAct.Quiet (fun _ _ => True) p fun _ => True

abbrev FsQuietly {α : Type} (p : FsM α) : Prop :=
  Keeps Act.Quiet (fun _ _ => True) p fun _ => True

abbrev SessionQuietly {α : Type} (p : SessionM α) : Prop :=
  Keeps SessionAct.Quiet (fun _ _ => True) p fun _ => True

variable {α : Type}

theorem host_quiet (c : HostCall) (h : c.Quiet) : Quietly (host c) := Obeys.perform h

theorem query_quiet (q : Query) : Quietly (query q) := Obeys.perform trivial

theorem refAct_quiet (r : RefAct) : FsQuietly (refAct r) := Obeys.perform trivial

theorem lift_quiet {p : NeutralM α} (h : Quietly p) : FsQuietly (liftM p : FsM α) :=
  h.mapAct (fun _ ha => ha) fun _ _ _ => trivial

theorem session_quiet {p : FsM α} (h : FsQuietly p) : SessionQuietly (liftM p : SessionM α) :=
  h.mapAct (fun _ ha => ha) fun _ _ _ => trivial

variable {ok : (a : NeutralAct) → a.Ans → Prop}

theorem allocateFd_keeps {allowed : NeutralAct → Prop} (hquery : ∀ q, allowed (.query q)) :
    Keeps allowed ok allocateFd fun _ => True := by
  refine (Obeys.perform (hquery .allocateFd)).bind fun r _ => ?_
  cases r with
  | true => exact Obeys.ret trivial
  | false => exact Obeys.err

theorem PassthroughFs.getInode_keeps {allowed : NeutralAct → Prop}
    (hquery : ∀ q, allowed (.query q)) (inode : Inode) :
    Keeps allowed ok (getInode inode) fun _ => True := by
  refine (Obeys.perform (hquery (.get inode))).bind fun found _ => ?_
  cases found with
  | some r => exact Obeys.ret trivial
  | none => exact Obeys.err

/-! ## 2. What is made of quiet calls -/

theorem quiet_parts : OffIndexParts .looking fun {α : Type} (p : FsM α) => FsQuietly p :=
  OffIndexParts.of_actions (Keeps.compositional _ _) (fun _ => Keeps.panic)
    (fun c hc => lift_quiet (host_quiet c (HostCall.Looks.quiet hc)))
    (fun q _ => lift_quiet (query_quiet q)) (lift_quiet (query_quiet _))
    (lift_quiet (query_quiet _)) (fun _ _ => lift_quiet (query_quiet _))
    (fun r _ => refAct_quiet r) fun _ _ => refAct_quiet _

theorem quiet_lookups (cfg : Config) :
    LookupParts cfg .looking fun {α : Type} (p : FsM α) => FsQuietly p where
  toClaimParts := quiet_parts.claims cfg
  dentry _ := lift_quiet (query_quiet _)

theorem quiet_sessions : SessionParts .looking fun {α : Type} (p : SessionM α) =>
    SessionQuietly p where
  toCompositional := Keeps.compositional _ _
  files cfg := by
    have hW : Compositional fun {α : Type} (p : SessionM α) => SessionQuietly p :=
      Keeps.compositional _ _
    have hquery : ∀ q : Query, SessionQuietly (liftM (query q) : SessionM q.Ans) := fun q =>
      session_quiet (lift_quiet (query_quiet q))
    refine fileParts_of_panics ((hW.comap SessionAct.act (fun _ r => r) id).comap Act.neutral
      (fun _ r => r) PanicSite.here) (fun _ => Keeps.panic) (fun c hc => ?_) (fun q _ => hquery q)
      fun inode fd type flags => ?_
    · exact session_quiet (lift_quiet (host_quiet c (HostCall.Looks.quiet hc)))
    · exact session_quiet (quiet_parts.newHandle inode fd type flags)
  store _ _ _ := session_quiet (lift_quiet (query_quiet _))
  clearHandles := session_quiet (lift_quiet (query_quiet _))
  clear := Obeys.perform trivial
  newRoot _ _ _ := Obeys.perform trivial

theorem PassthroughFs.destroy_quiet : SessionQuietly destroy := quiet_sessions.destroy

theorem PassthroughFs.init_quiet (cfg : Config) (capable : FsOptions) :
    SessionQuietly (init cfg capable) :=
  quiet_sessions.init capable

/-! ## 3. Every request but an open -/

/-- What is asked of the caller's `ZeroCopyWriter`: it only reads from the file. -/
def ZeroCopyWriter.Reads (w : ZeroCopyWriter) : Prop :=
  ∀ fd count off, Quietly (w.readFromFileAt fd count off)

def FileRequest.WriterReads : FileRequest → Prop
  | .read _ _ w _ _ => w.Reads
  | _ => True

def Request.WriterReads : Request → Prop
  | .file request => request.WriterReads
  | _ => True

namespace PassthroughFsRo

variable (cfg : Config)

theorem createEntry_quiet (parent : Inode) (name : Name) :
    FsQuietly (createEntry cfg parent name) :=
  (quiet_lookups cfg).createEntryReadOnly parent name

/-- **Every request that opens no file.** -/
theorem serve_quiet {request : Request} (hopens : request.opens = false)
    (hw : request.WriterReads) : FsQuietly (serve cfg request) := by
  refine (quiet_lookups cfg).serveLookingReadOnly
    (fun _ _ => (quiet_lookups cfg).forget (refAct_quiet _))
    (fun _ => (quiet_lookups cfg).batchForget (refAct_quiet _)) hopens fun r hr hlooks => ?_
  subst hr
  cases r with
  | read inode handle w size offset => exact fun fd => lift_quiet (hw fd size offset)
  | write => cases hlooks
  | _ => trivial

end PassthroughFsRo

end Virtiofsd
