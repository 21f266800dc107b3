/-
  # The guest's ledger

  A session seen from the guest: INIT, then one request after the other, each answered with
  a value or an error.  The guest keeps a ledger: every entry in an Ok reply is one lookup
  it has been GRANTED, every FORGET some it has FORGOTTEN.  `Conserved` says that the inode
  store agrees with the ledger, and that an inode with nothing left on it is gone.

  `create` can break this: both file systems look the new file up, which hands a reference
  to the guest, and only then try to open it.  If that fails, the guest gets an error and
  never learns about the reference (`Request.LosesEntry`).
-/
import Virtiofsd.Passthrough.References
import Virtiofsd.Passthrough.Session
import Mathlib.Algebra.Order.Sub.Basic

namespace Virtiofsd

open Lib World Prog

/-! ## 1. Sessions -/

/-- Which of the two file systems serves the guest. -/
inductive Export where
  | readWrite
  | readOnly
  deriving DecidableEq

def Export.serve : Export → Config → Request → FsM Reply
  | .readWrite => PassthroughFs.serve
  | .readOnly => PassthroughFsRo.serve

/-- **The daemon, and what the guest knows of it**: the lookups granted in Ok replies and
those forgotten, since INIT. -/
structure Ledger where
  world : World
  granted : Multiset Inode
  forgotten : Multiset Inode

/-- What the guest holds right after INIT. -/
def initialRefs : Multiset Inode := Multiset.replicate 2 ROOT_ID

/-- Serve one request and write down its result; a panic has none. -/
def Ledger.serve (x : Export) (cfg : Config) (l : Ledger) (r : Request) : Option Ledger :=
  match (x.serve cfg r).run World.perform l.world with
  | (.ok reply, w) => some ⟨w, l.granted + reply.granted, l.forgotten + r.forgets⟩
  | (.err _, w) => some ⟨w, l.granted, l.forgotten + r.forgets⟩
  | (.panic _, _) => none

/-- **The ledgers of a session** whose requests all meet `ok`.  The guest forgets at most
what it was handed. -/
inductive Session (x : Export) (cfg : Config) (ok : World → Request → Prop) : Ledger → Prop where
  | init {w₀ w : World} {capable opts : FsOptions}
      (h : (PassthroughFs.init cfg capable).run World.performSession w₀ = (.ok opts, w)) :
      Session x cfg ok ⟨w, 0, 0⟩
  | request {l l' : Ledger} {r : Request} (hl : Session x cfg ok l) (hok : ok l.world r)
      (hforget : l.forgotten + r.forgets ≤ initialRefs + l.granted)
      (hr : l.serve x cfg r = some l') : Session x cfg ok l'

/-- The part of an inode's refcount that is the guest's. -/
def guestOwned (s : InodeStoreInner) (i : Inode) : Nat := s.refcount i - s.strongRefs.count i

/-- **The store agrees with the ledger.** -/
structure Conserved (l : Ledger) : Prop where
  /-- The initial value plus the entries in Ok results is what was forgotten and what is
  left, the strong references apart. -/
  refcount : ∀ i, l.world.fs.inodes.refcount i + l.forgotten.count i =
    initialRefs.count i + l.granted.count i + l.world.fs.inodes.strongRefs.count i
  /-- What was forgotten completely is gone. -/
  gone : ∀ i, l.forgotten.count i = initialRefs.count i + l.granted.count i →
    l.world.fs.inodes.strongRefs.count i = 0 → l.world.fs.inodes.contains i = false

/-- **A CREATE that looks the file up and then fails to open it.** -/
def Request.LosesEntry (x : Export) (cfg : Config) (w : World) : Request → Prop
  | .create ctx parent name mode killPriv flags umask extensions =>
    match x with
    | .readWrite => ∃ entry fd w' e w'',
      (PassthroughFs.createEntry cfg ctx parent name mode flags umask extensions).run
        World.perform w = (.ok (entry, fd), w') ∧
      (liftM (PassthroughFs.createHandle cfg mode killPriv flags entry fd) : FsM Handle).run
        World.perform w' = (.err e, w'')
    | .readOnly => ∃ entry w' e w'',
      (PassthroughFsRo.createEntry cfg parent name).run World.perform w = (.ok entry, w') ∧
      (liftM (PassthroughFsRo.openFile cfg entry.inode killPriv flags) :
        FsM (Option Handle × OpenOptions)).run World.perform w' = (.err e, w'')
  | _ => False

/-! ## 2. One request -/

variable {x : Export} {cfg : Config} {w w' : World} {rest : Multiset Ref}

/-- What a program that accounts for its references leaves behind. -/
def OwnedAfter {α : Type} (rest : Multiset Ref) (give : α → Multiset Ref) :
    Outcome IoError PanicSite α × World → Prop
  | (.ok a, w) => w.fs.inodes.Owned (rest + give a)
  | (.err _, w) => w.fs.inodes.Owned rest
  | (.panic p, _) => p.Local

/-- Runs of programs that account for their references keep the store's books. -/
theorem Accounts.run {α : Type} {p : FsM α} {use : Multiset Ref} {give : α → Multiset Ref}
    (hp : Accounts p use give) (h : w.fs.inodes.Owned (rest + use)) :
    OwnedAfter rest give (p.run perform w) := by
  have hstep : ∀ (a : Act) (w : World) (τ : Multiset Ref), w.fs.inodes.Owned (rest + τ) →
      refTokens.toSpec.pre a τ → ∃ τ', refTokens.toSpec.post a τ (perform a w).1 τ' ∧
        (perform a w).2.fs.inodes.Owned (rest + τ') := by
    intro a w τ hw hpre
    obtain ⟨hmay, hown⟩ := owned_of_perform hw hpre (perform_spec a w)
    exact ⟨_, ⟨hmay, rfl⟩, hown⟩
  obtain ⟨τ, hown, hend⟩ := wp_run hstep p h (by simpa using hp 0)
  rcases hres : p.run perform w with ⟨o, w'⟩
  rw [hres] at hown hend
  cases o with
  | ok a =>
    obtain rfl : τ = 0 + give a := hend
    simpa [OwnedAfter] using hown
  | err e =>
    obtain rfl : τ = 0 := hend
    simpa [OwnedAfter] using hown
  | panic q => exact hend

/-- A program that touches no references leaves the books as they are. -/
theorem neutral_run {α : Type} (p : NeutralM α) (h : w.fs.inodes.Owned rest) :
    OwnedAfter rest (fun _ => 0) ((liftM p : FsM α).run perform w) :=
  (neutral_accounts p).run (by simpa using h)

/-- Looking up and then opening, if opening does not fail: the reply names the reference
that was taken. -/
theorem lookupThenOpen_run {α β : Type} {p : FsM α} {q : α → NeutralM β} (entry : α → Entry)
    (reply : α → β → Reply) (hp : Accounts p 0 (fun a => {.guest (entry a).inode}))
    (hreply : ∀ a b, (reply a b).granted = {(entry a).inode})
    (hnot : ¬ ∃ a w' e w'', p.run perform w = (.ok a, w') ∧
      (liftM (q a) : FsM β).run perform w' = (.err e, w''))
    (h : w.fs.inodes.Owned rest) :
    OwnedAfter rest (fun r => guestRefs (Reply.granted r))
      ((p.bind fun a => (liftM (q a) : FsM β).bind fun b => .ret (reply a b)).run
        perform w) := by
  have hfirst := hp.run (w := w) (by simpa using h)
  rw [run_bind]
  rcases hpr : p.run perform w with ⟨_ | _ | _, w₁⟩ <;> rw [hpr] at hfirst
  · rename_i a
    have hsecond := neutral_run (q a) hfirst
    show OwnedAfter _ _ (run _ _ _)
    rw [run_bind]
    rcases hqr : (liftM (q a) : FsM β).run perform w₁ with ⟨b | e | _, w₂⟩ <;>
      rw [hqr] at hsecond
    · simpa [OwnedAfter, hreply] using hsecond
    · exact absurd ⟨a, w₁, e, w₂, hpr, hqr⟩ hnot
    · exact hsecond
  · exact hfirst
  · exact hfirst

/-- The second half of `create` fails only in the case that loses the entry. -/
theorem create_run {ctx : Context} {parent : Inode} {name : Name} {mode : UInt32}
    {killPriv : Bool} {flags umask : UInt32} {extensions : Extensions}
    (hnot : ¬ (Request.create ctx parent name mode killPriv flags umask extensions).LosesEntry
      x cfg w)
    (h : w.fs.inodes.Owned rest) :
    OwnedAfter rest (fun r => guestRefs (Reply.granted r))
      ((x.serve cfg (.create ctx parent name mode killPriv flags umask extensions)).run
        perform w) := by
  cases x with
  | readWrite =>
    have hrun := lookupThenOpen_run Prod.fst
      (fun r handle => .created r.1 (some handle) (PassthroughFs.createOptions cfg))
      (PassthroughFs.createEntry_accounts cfg ctx parent name mode flags umask extensions)
      (q := fun r => PassthroughFs.createHandle cfg mode killPriv flags r.1 r.2)
      (fun _ _ => rfl)
      (by
        rintro ⟨⟨entry, fd⟩, w', e, w'', h₁, h₂⟩
        exact hnot ⟨entry, fd, w', e, w'', h₁, h₂⟩) h
    simpa only [Export.serve, PassthroughFs.serve, PassthroughFs.create, bind_eq,
      bind_assoc, pure_eq, bind_ret] using hrun
  | readOnly =>
    have hrun := lookupThenOpen_run id (fun e r => .created e r.1 r.2)
      (PassthroughFsRo.createEntry_accounts cfg parent name)
      (q := fun e => PassthroughFsRo.openFile cfg e.inode killPriv flags)
      (fun _ _ => rfl)
      (by
        rintro ⟨entry, w', e, w'', h₁, h₂⟩
        exact hnot ⟨entry, w', e, w'', h₁, h₂⟩) h
    simpa only [Export.serve, PassthroughFsRo.serve, PassthroughFsRo.create, bind_eq,
      bind_assoc, pure_eq, bind_ret] using hrun

/-- **One request keeps the books**, unless it loses an entry. -/
theorem serve_run {r : Request} (hnot : ¬ r.LosesEntry x cfg w)
    (h : w.fs.inodes.Owned (rest + guestRefs r.forgets)) :
    OwnedAfter rest (fun r => guestRefs (Reply.granted r))
      ((x.serve cfg r).run perform w) := by
  by_cases hc : r.IsCreate
  · cases r with
    | create ctx parent name mode killPriv flags umask extensions =>
      exact create_run hnot (by simpa [Request.forgets] using h)
    | _ => exact hc.elim
  · cases x with
    | readWrite => exact (PassthroughFs.serve_accounts cfg r hc).run h
    | readOnly => exact (PassthroughFsRo.serve_accounts cfg r hc).run h

/-! ## 3. INIT -/

theorem destroy_run (w : World) : ∃ w', PassthroughFs.destroy.run performSession w =
    (.ok (), w') ∧ w'.fs.inodes = .empty :=
  ⟨_, rfl, rfl⟩

/-- **INIT leaves the guest with two references to the root**, whatever was before. -/
theorem init_owned {w₀ w : World} {capable opts : FsOptions}
    (h : (PassthroughFs.init cfg capable).run performSession w₀ = (.ok opts, w)) :
    w.fs.inodes.Owned (guestRefs initialRefs) := by
  obtain ⟨w₁, hdestroy, hempty⟩ := destroy_run w₀
  have hopen := openRootNode_run cfg (w := w₁) (by
    rw [hempty]
    rfl)
  unfold PassthroughFs.init at h
  simp only [bind_eq, run_bind, hdestroy] at h
  generalize (PassthroughFs.openRootNode cfg).run performSession w₁ = res at h hopen
  cases hopen with
  | err => simp at h
  | @ok d info w₂ hd hinfo hs =>
    -- the store is empty, so the root can be inserted
    have hnew : w₁.fs.inodes.contains d.inode = false := by
      rw [hempty]
      rfl
    have h₁ : w₁.fs.inodes.Owned 0 := by
      rw [hempty]
      exact InodeStoreInner.Owned.empty
    have h₂ := h₁.newInode (c := ⟨d, 2, info⟩) hinfo Nat.two_pos (newInode_of_not_contains hnew)
    have hneg := neutral_session_inodes (PassthroughFs.negotiateOptions cfg capable) w₂
    rw [show run _ _ w₂ = (.ok opts, w) from h] at hneg
    rw [hneg, hs]
    simpa [guestRefs, initialRefs, hd] using h₂

/-! ## 4. Whole sessions -/

/-- What the guest still holds. -/
def Ledger.held (l : Ledger) : Multiset Inode := initialRefs + l.granted - l.forgotten

/-- The books of a session: the store accounts for what the guest holds. -/
structure Ledger.Booked (l : Ledger) : Prop where
  owned : l.world.fs.inodes.Owned (guestRefs l.held)
  within : l.forgotten ≤ initialRefs + l.granted

/-- **One request**, with its result written down. -/
theorem Ledger.Booked.serve {l l' : Ledger} {r : Request} (h : l.Booked)
    (hnot : ¬ r.LosesEntry x cfg l.world)
    (hforget : l.forgotten + r.forgets ≤ initialRefs + l.granted)
    (hr : l.serve x cfg r = some l') : l'.Booked := by
  -- what the guest holds apart from what the request forgets
  have hheld : l.held = initialRefs + l.granted - (l.forgotten + r.forgets) + r.forgets := by
    rw [Ledger.held, tsub_add_eq_tsub_tsub]
    exact (tsub_add_cancel_of_le (le_tsub_of_add_le_left hforget)).symm
  have hrun := serve_run hnot (by
    rw [← Multiset.map_add, ← hheld]
    exact h.owned)
  unfold Ledger.serve at hr
  rcases hres : (x.serve cfg r).run perform l.world with ⟨reply | e | q, w'⟩ <;>
    rw [hres] at hr hrun
  · cases hr
    refine ⟨?_, le_trans hforget (add_le_add_right (Multiset.le_add_right _ _) _)⟩
    have hown : w'.fs.inodes.Owned (guestRefs (initialRefs + l.granted -
        (l.forgotten + r.forgets) + reply.granted)) := by
      rw [guestRefs, Multiset.map_add]
      exact hrun
    rw [Ledger.held]
    rwa [tsub_add_eq_add_tsub hforget, add_assoc] at hown
  · cases hr
    exact ⟨hrun, hforget⟩
  · simp at hr

/-- **A whole session** in which no CREATE loses its entry. -/
theorem Session.booked {l : Ledger}
    (h : Session x cfg (fun w r => ¬ r.LosesEntry x cfg w) l) : l.Booked := by
  induction h with
  | init h =>
    refine ⟨?_, Multiset.zero_le _⟩
    simpa [Ledger.held] using init_owned h
  | request _ hok hforget hr ih => exact ih.serve hok hforget hr

/-- The books say what the refcounts are. -/
theorem Ledger.Booked.conserved {l : Ledger} (h : l.Booked) : Conserved l := by
  have hcount : ∀ i, l.held.count i + l.forgotten.count i =
      initialRefs.count i + l.granted.count i := by
    intro i
    have hle := Multiset.count_le_of_le i h.within
    rw [Multiset.count_add] at hle
    rw [Ledger.held, Multiset.count_sub, Multiset.count_add]
    omega
  have hb := h.owned.balanced
  rw [map_inode_guestRefs] at hb
  refine ⟨?_, ?_⟩
  · intro i
    have hi := hcount i
    rw [hb.refcount_eq, Multiset.count_add]
    omega
  · intro i hall hstrong
    have hi := hcount i
    cases hl : l.world.fs.inodes.data.lookup i with
    | none => simp [InodeStoreInner.contains, hl]
    | some a =>
      obtain ⟨c, -, -, hpos, hcnt⟩ := hb.cell i a hl
      rw [Multiset.count_add] at hcnt
      omega

theorem Ledger.Booked.guestOwned_eq {l : Ledger} (h : l.Booked) (i : Inode) :
    guestOwned l.world.fs.inodes i = l.held.count i := by
  have hb := h.owned.balanced
  rw [map_inode_guestRefs] at hb
  rw [guestOwned, hb.refcount_eq, Multiset.count_add, Nat.add_sub_cancel]

/-- **Lookup counts are conserved** in every session in which no CREATE fails to open the
file it has looked up: the refcounts agree with the ledger, what was forgotten is gone, and
an operation that fails leaves the guest's share of every refcount alone. -/
theorem lookup_counts_conserved {l : Ledger}
    (h : Session x cfg (fun w r => ¬ r.LosesEntry x cfg w) l) :
    Conserved l ∧ ∀ r e w', ¬ r.LosesEntry x cfg l.world → r.forgets = 0 →
      (x.serve cfg r).run World.perform l.world = (.err e, w') →
      ∀ i, guestOwned w'.fs.inodes i = guestOwned l.world.fs.inodes i := by
  have hb := h.booked
  refine ⟨hb.conserved, ?_⟩
  intro r e w' hnot hzero hrun i
  have hserve : l.serve x cfg r = some ⟨w', l.granted, l.forgotten + r.forgets⟩ := by
    rw [Ledger.serve, hrun]
  have hb' := hb.serve hnot (by rw [hzero, add_zero]; exact hb.within) hserve
  have heq := hb'.guestOwned_eq i
  rw [hb.guestOwned_eq i]
  simpa [Ledger.held, hzero] using heq

/-! ## 5. A session with one CREATE -/

/-- A stat of a directory. -/
def dirStat : Stat :=
  ⟨1, 1, 0o040755, 2, 0, 0, 0, 0, 4096, 0, 0, 0, 0, 0, 0, 0⟩

/-- A stat of a regular file. -/
def regStat : Stat :=
  ⟨2, 1, 0o100644, 1, 0, 0, 0, 0, 4096, 0, 0, 0, 0, 0, 0, 0⟩

/-- A host on which every call succeeds: descriptor 3 is the root, all others are one
regular file. -/
def obligingHost (_ : Nat) : Host
  | .openat .. => .ok 4
  | .openRoot _ => .ok 3
  | .reopen .. => .ok 5
  | .openByHandle .. => .ok 5
  | .mountFd _ => .ok ()
  | .statx fd _ => .ok (if fd = 3 then ⟨dirStat, 1⟩ else ⟨regStat, 1⟩)
  | .nameToHandle fd _ => .ok ⟨1, 1, [UInt8.ofNat fd]⟩
  | .getPath _ => .ok [0x2f]
  | .fchdir _ => .ok ()
  | .geteuid => 0
  | .getegid => 0
  | .addCapability => .ok ()
  | .setsupgroup _ => .ok ()
  | .seteffgid _ => .ok ()
  | .seteffuid _ => .ok ()
  | .dropsupgroups => .ok ()
  | .umask _ => 0
  | .dropCapability => .ok true
  | .restoreCapability => true
  | .preadv .. => .ok 0
  | .pwritev .. => .ok 0
  | .getdents .. => .ok []
  | .fchmodPath .. => .ok ()
  | .libc _ => true
  | .readlinkat _ => some []
  | .getxattr .. => some (0, [])
  | .listxattr .. => some (0, [])
  | .lseek .. => some 0
  | .copyFileRange .. => some 0
  | .dup _ => some 6
  | .fstatvfs _ => some []
  | .lastOsError => EIO
  | .cancelled => false

/-- The daemon before INIT, with a budget of `fds` descriptors, on an obliging host. -/
def freshWorld (fds : Nat) : World := ⟨.initial fds false, obligingHost, 0⟩

/-- `CREATE` of the file `a` in the root directory, by the guest's root user. -/
def createA : Request := .create ⟨0, 0, 0⟩ ROOT_ID [0x61] 0o644 false (O_RDWR) 0 ⟨none, []⟩

/-- The ledger right after INIT. -/
def initLedger (fds : Nat) : Ledger :=
  ⟨((PassthroughFs.init Config.default 0).run World.performSession (freshWorld fds)).2, 0, 0⟩

theorem initLedger_session (x : Export) (ok : World → Request → Prop) :
    Session x Config.default ok (initLedger 2) := by
  have h : (PassthroughFs.init Config.default 0).run performSession (freshWorld 2) =
      (.ok 0x6000, (initLedger 2).world) := rfl
  exact .init h

/-- The ledger after one more request. -/
def Ledger.next (x : Export) (cfg : Config) (l : Ledger) (r : Request) : Ledger :=
  (l.serve x cfg r).getD l

/-- The conservation law at work: INIT, and one LOOKUP that succeeds. -/
theorem lookup_counts_conserved_lookup :
    Conserved ((initLedger 2).next .readWrite Config.default (.lookup ROOT_ID [0x61])) := by
  have hsession : Session .readWrite Config.default
      (fun w r => ¬ r.LosesEntry .readWrite Config.default w)
      ((initLedger 2).next .readWrite Config.default (.lookup ROOT_ID [0x61])) :=
    .request (r := .lookup ROOT_ID [0x61]) (initLedger_session _ _) (fun h => h)
      (Multiset.zero_le _) rfl
  exact (lookup_counts_conserved hsession).1

/-- A session after which the guest holds nothing but the root, and inode 2 is in the store
with a refcount of one. -/
def LeakedSession (x : Export) : Prop :=
  ∃ l, Session x Config.default (fun _ _ => True) l ∧ l.granted = 0 ∧ l.forgotten = 0 ∧
    l.world.fs.inodes.refcount 2 = 1 ∧ ¬ Conserved l

theorem leakedSession (x : Export) : LeakedSession x := by
  refine ⟨(initLedger 2).next x Config.default createA,
    .request (initLedger_session _ _) trivial (Multiset.zero_le _) (r := createA) ?_, ?_⟩
  · cases x <;> rfl
  · have hcount :
        ((initLedger 2).next x Config.default createA).world.fs.inodes.refcount 2 = 1 := by
      cases x <;> rfl
    have hgranted : ((initLedger 2).next x Config.default createA).granted = 0 := by
      cases x <;> rfl
    have hforgotten : ((initLedger 2).next x Config.default createA).forgotten = 0 := by
      cases x <;> rfl
    have hstrong : ((initLedger 2).next x Config.default createA).world.fs.inodes.strongRefs.count 2
        = 0 := by
      cases x <;> rfl
    refine ⟨hgranted, hforgotten, hcount, fun h => ?_⟩
    have h2 := h.refcount 2
    rw [hcount, hgranted, hforgotten, hstrong] at h2
    exact absurd h2 (by decide)

/-- **A failed CREATE leaks a lookup**, read-write and read-only: with room for two
descriptors, the file is looked up as inode 2 and then cannot be opened.  The guest gets an
error and never learns that it owns a reference. -/
theorem create_leaks_lookup : LeakedSession .readWrite ∧ LeakedSession .readOnly :=
  ⟨leakedSession .readWrite, leakedSession .readOnly⟩

end Virtiofsd
