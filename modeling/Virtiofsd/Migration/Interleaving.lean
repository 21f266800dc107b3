/-
  # Requests and migration threads, interleaved

  The daemon serves requests on several threads, and prepares a migration on another.  A
  `System` is the shared file system, the threads with the references they hold, and the
  lookups the guest holds.  Every step is one atomic action of one thread, a new thread, or
  the end of one; the host answers as it likes, and a thread that panics unwinds and drops
  its references.

  The guest here is whoever calls the `FileSystem` trait.  An untrusted one may FORGET more
  lookups than it was handed.  `forget_one` cannot tell: lookups and strong references share
  one counter.  So a strong reference keeps its inode as long as the guest forgets no more
  than it holds (`WithinHeld`), and not otherwise.
-/
import Virtiofsd.Migration.References
import Virtiofsd.Passthrough.Ledger

namespace Virtiofsd

open Lib List Prog PassthroughFs

/-! ## 1. The system and its steps -/

/-- The threads over the shared file system, each with the references it holds. -/
abbrev Threads := Pool Act Act.Ans IoError PanicSite Reply PassthroughFs Ref

/-- **The daemon and the lookups its guest holds.** -/
structure System where
  pool : Threads
  guest : Multiset Inode

/-- The inode store of a system. -/
abbrev System.inodes (s : System) : InodeStoreInner := s.pool.shared.inodes

/-- What a thread does. -/
inductive Job where
  | request (r : Request)
  | prepare (fuel : Nat)
  | serialize (fuel : Nat)

/-- The program of a job. -/
def Job.prog (x : Export) (cfg : Config) : Job → FsM Reply
  | request r => x.serve cfg r
  | prepare fuel => Reply.ofUnit (prepareSerialization cfg fuel)
  | serialize fuel => Reply.ofUnit (Virtiofsd.serialize cfg fuel)

/-- The lookups a job gives back. -/
def Job.forgets : Job → Multiset Inode
  | request r => r.forgets
  | prepare _ => 0
  | serialize _ => 0

/-- **One step of the system.**  `ok` restricts the jobs that may start. -/
inductive System.Step (x : Export) (cfg : Config) (ok : System → Job → Prop) :
    System → System → Prop where
  | start {s : System} {job : Job} (hok : ok s job) :
      Step x cfg ok s ⟨⟨s.pool.shared, (job.prog x cfg, guestRefs job.forgets) :: s.pool.threads⟩,
        s.guest - job.forgets⟩
  | act {p p' g} (h : Pool.Step refTokens Act.Perform p p') :
      Step x cfg ok ⟨p, g⟩ ⟨p', g⟩
  | reply {fs l₁ l₂ τ g} {a : Reply} :
      Step x cfg ok ⟨⟨fs, l₁ ++ (.ret a, τ) :: l₂⟩, g⟩ ⟨⟨fs, l₁ ++ l₂⟩, g + a.granted⟩
  | fail {fs l₁ l₂ e τ g} :
      Step x cfg ok ⟨⟨fs, l₁ ++ (.err e, τ) :: l₂⟩, g⟩ ⟨⟨fs, l₁ ++ l₂⟩, g⟩
  | unwind {fs l₁ l₂ q τ r g} :
      Step x cfg ok ⟨⟨fs, l₁ ++ (.panic q, τ + {.strong r}) :: l₂⟩, g⟩
        ⟨⟨(reference (.dropRef r) fs).2, l₁ ++ (.panic q, τ) :: l₂⟩, g⟩

/-- **The states of a session**, from INIT on; it ends when the store is cleared. -/
inductive Reachable (x : Export) (cfg : Config) (ok : System → Job → Prop) : System → Prop where
  | init {w₀ w : World} {capable opts : FsOptions}
      (h : (init cfg capable).run World.performSession w₀ = (.ok opts, w)) :
      Reachable x cfg ok ⟨⟨w.fs, []⟩, initialRefs⟩
  | step {s s' : System} (hs : Reachable x cfg ok s) (h : s.Step x cfg ok s') :
      Reachable x cfg ok s'

/-! ## 2. Strong references -/

/-- The inode of a strong reference. -/
def Ref.strongInode : Ref → Option Inode
  | .strong r => some r.data.inode
  | .guest _ => none

/-- The strong references to an inode: those held by threads and those in migration infos. -/
def System.strongCount (s : System) (i : Inode) : Nat :=
  (s.pool.tokens.filterMap Ref.strongInode).count i + s.inodes.strongRefs.count i

/-- A strong reference that exists. -/
def System.HasStrong (s : System) (r : InodeRef) : Prop :=
  .strong r ∈ s.pool.tokens ∨ ∃ c ∈ s.inodes.cells, infoParent c.migrationInfo = some r

/-- **Strong references keep their inodes alive**, and what relies on it does not panic. -/
structure System.KeepsStrong (s : System) : Prop where
  alive : ∀ r, s.HasStrong r → s.inodes.get r.data.inode = some r
  counted : ∀ i, s.strongCount i ≤ s.inodes.refcount i
  noPanic : ∀ t ∈ s.pool.threads,
    t.1 ≠ .panic .strongReferenceClone ∧ t.1 ≠ .panic .entryInodeUnwrap

/-- **The guest forgets no more than it holds.** -/
def WithinHeld (s : System) (job : Job) : Prop := job.forgets ≤ s.guest

/-! ## 3. Every job accounts for its references -/

variable {x : Export} {cfg : Config} {s s' : System}

/-- How a job may end: a reply names what it hands to the guest; an error may leave lookups
behind that nobody knows of (`Request.LosesEntry`). -/
def JobEnds : Outcome IoError PanicSite Reply → Multiset Ref → Prop
  | .ok a, τ => τ = guestRefs a.granted
  | .err _, _ => True
  | .panic q, _ => q.Local

/-- A thread within its rights. -/
abbrev Typed (p : FsM Reply) (τ : Multiset Ref) : Prop := p.wp refTokens.toSpec JobEnds τ

variable {ok : System → Job → Prop} {τ : Multiset Ref}

theorem Accounts.typed {p : FsM Reply} {u : Multiset Ref}
    (hp : Accounts p u (fun a => guestRefs (Reply.granted a))) : Typed p u := by
  have h := hp 0
  rw [zero_add] at h
  refine wp_mono ?_ p h
  rintro (a | e | q) σ hσ
  · obtain rfl : σ = 0 + guestRefs a.granted := hσ
    exact zero_add _
  · trivial
  · exact hσ

/-- Looking up and then opening: if opening fails, the lookup is left behind. -/
theorem lookupThenOpen_typed {α β : Type} {p : FsM α} {q : α → NeutralM β} (entry : α → Entry)
    (reply : α → β → Reply) (hp : Accounts p 0 (fun a => {.guest (entry a).inode}))
    (hreply : ∀ a b, (reply a b).granted = {(entry a).inode}) :
    Typed (p.bind fun a => (liftM (q a) : FsM β).bind fun b => .ret (reply a b)) 0 := by
  refine wp_bind_of (hp 0) (fun a σ hσ => ?_) (fun _ _ _ => trivial) (fun _ _ h => h)
  obtain rfl : σ = 0 + {.guest (entry a).inode} := hσ
  have hopen := neutral_accounts (q a) (0 + {.guest (entry a).inode})
  rw [add_zero] at hopen
  refine wp_bind_of hopen (fun b σ hσ => ?_) (fun _ _ _ => trivial) (fun _ _ h => h)
  obtain rfl : σ = 0 + {.guest (entry a).inode} + 0 := hσ
  show _ = guestRefs (reply a b).granted
  simp [hreply]

theorem create_typed {ctx : Context} {parent : Inode} {name : Name} {mode : UInt32}
    {killPriv : Bool} {flags umask : UInt32} {extensions : Extensions} :
    Typed (x.serve cfg (.create ctx parent name mode killPriv flags umask extensions)) 0 := by
  cases x with
  | readWrite =>
    have h := lookupThenOpen_typed Prod.fst
      (fun r handle => .created r.1 (some handle) (createOptions cfg))
      (createEntry_accounts cfg ctx parent name mode flags umask extensions)
      (q := fun r => createHandle cfg mode killPriv flags r.1 r.2)
      (fun _ _ => rfl)
    simpa only [Export.serve, serve, create, bind_eq,
      bind_assoc, pure_eq, bind_ret] using h
  | readOnly =>
    have h := lookupThenOpen_typed id (fun e r => .created e r.1 r.2)
      (PassthroughFsRo.createEntry_accounts cfg parent name)
      (q := fun e => PassthroughFsRo.openFile cfg e.inode killPriv flags)
      (fun _ _ => rfl)
    simpa only [Export.serve, PassthroughFsRo.serve, PassthroughFsRo.create, bind_eq,
      bind_assoc, pure_eq, bind_ret] using h

theorem request_typed (r : Request) : Typed (x.serve cfg r) (guestRefs r.forgets) := by
  by_cases hc : r.IsCreate
  · cases r with
    | create => exact create_typed
    | _ => exact hc.elim
  · cases x with
    | readWrite => exact (serve_accounts cfg r hc).typed
    | readOnly => exact (PassthroughFsRo.serve_accounts cfg r hc).typed

/-- **Every job starts within its rights.** -/
theorem Job.typed (job : Job) : Typed (job.prog x cfg) (guestRefs job.forgets) := by
  cases job with
  | request r => exact request_typed r
  | prepare fuel => exact (Reply.ofUnit_accounts (prepareSerialization_accounts cfg fuel)).typed
  | serialize fuel => exact (Reply.ofUnit_accounts (serialize_accounts cfg fuel)).typed

/-! ## 4. The invariant -/

/-- **The store accounts for all references**: those of the threads, those of the guest, and
those that were lost with a failed CREATE. -/
def System.AccountedFor (s : System) (lost : Multiset Ref) : Prop :=
  s.pool.Ok refTokens (fun fs τ => fs.inodes.Owned τ) JobEnds (guestRefs s.guest + lost)

def System.Accounted (s : System) : Prop := ∃ lost, s.AccountedFor lost

theorem accounted_init {w₀ w : World} {capable opts : FsOptions}
    (h : (init cfg capable).run World.performSession w₀ = (.ok opts, w)) :
    System.AccountedFor ⟨⟨w.fs, []⟩, initialRefs⟩ 0 := by
  refine ⟨?_, fun t ht => by simp at ht⟩
  simpa [Pool.tokens] using init_owned h

namespace System.AccountedFor

variable {lost : Multiset Ref} {fs : PassthroughFs} {l₁ l₂ : List (FsM Reply × Multiset Ref)}
  {g : Multiset Inode}

/-- A job that starts takes over the lookups it forgets. -/
theorem start (job : Job) (h : s.AccountedFor lost) (hok : job.forgets ≤ s.guest) :
    AccountedFor ⟨⟨s.pool.shared, (job.prog x cfg, guestRefs job.forgets) :: s.pool.threads⟩,
      s.guest - job.forgets⟩ lost := by
  have hguest : guestRefs s.guest = guestRefs (s.guest - job.forgets) + guestRefs job.forgets := by
    rw [← Multiset.map_add, tsub_add_cancel_of_le hok]
  refine ⟨?_, ?_⟩
  · have htok : Pool.tokens ⟨s.pool.shared, (job.prog x cfg, guestRefs job.forgets) ::
        s.pool.threads⟩ = s.pool.tokens + guestRefs job.forgets :=
      Pool.tokens_insert s.pool.shared s.pool.shared [] s.pool.threads _
    have hinv := h.inv
    rw [hguest] at hinv
    show s.inodes.Owned (guestRefs (s.guest - job.forgets) + lost + Pool.tokens _)
    rw [htok]
    convert hinv using 1
    ac_rfl
  · intro t ht
    rcases mem_cons.mp ht with rfl | ht
    · exact job.typed
    · exact h.typed t ht

/-- A reply hands its lookups to the guest. -/
theorem reply {a : Reply} (h : AccountedFor ⟨⟨fs, l₁ ++ (.ret a, τ) :: l₂⟩, g⟩ lost) :
    AccountedFor ⟨⟨fs, l₁ ++ l₂⟩, g + a.granted⟩ lost := by
  obtain rfl : τ = guestRefs a.granted := h.typed (.ret a, τ) (by simp)
  refine ⟨?_, forall_mem_remove h.typed⟩
  have hinv := h.inv
  rw [Pool.tokens_insert fs fs] at hinv
  show fs.inodes.Owned (guestRefs (g + a.granted) + lost + Pool.tokens ⟨fs, l₁ ++ l₂⟩)
  rw [guestRefs, Multiset.map_add]
  convert hinv using 1
  ac_rfl

/-- What a thread has left that ends without a reply. -/
theorem lose {p : FsM Reply} (h : AccountedFor ⟨⟨fs, l₁ ++ (p, τ) :: l₂⟩, g⟩ lost) :
    AccountedFor ⟨⟨fs, l₁ ++ l₂⟩, g⟩ (lost + τ) := by
  refine ⟨?_, forall_mem_remove h.typed⟩
  have hinv : fs.inodes.Owned (guestRefs g + lost + Pool.tokens ⟨fs, l₁ ++ (p, τ) :: l₂⟩) := h.inv
  rw [Pool.tokens_insert fs fs] at hinv
  show fs.inodes.Owned (guestRefs g + (lost + τ) + Pool.tokens ⟨fs, l₁ ++ l₂⟩)
  rwa [add_assoc, add_assoc lost, add_comm τ, ← add_assoc]

/-- A thread that panics drops a reference. -/
theorem unwind {q : PanicSite} {r : InodeRef}
    (h : AccountedFor ⟨⟨fs, l₁ ++ (.panic q, τ + {.strong r}) :: l₂⟩, g⟩ lost) :
    AccountedFor ⟨⟨(reference (.dropRef r) fs).2, l₁ ++ (.panic q, τ) :: l₂⟩, g⟩
      lost := by
  have hq : q.Local := h.typed (.panic q, τ + {.strong r}) (by simp)
  refine ⟨?_, forall_mem_replace h.typed hq⟩
  have hinv := h.inv
  rw [Pool.tokens_insert fs fs, ← add_assoc, ← add_assoc] at hinv
  have hdrop := owned_reference (a := .dropRef r) hinv
  rw [Pool.tokens_insert _ fs, ← add_assoc]
  simpa [refTokens] using hdrop

end System.AccountedFor

/-- **One step keeps the accounting**, if the job that starts forgets no more than the guest
holds. -/
theorem System.Step.accounted (h : s.Step x cfg WithinHeld s') (hs : s.Accounted) :
    s'.Accounted := by
  obtain ⟨lost, hs⟩ := hs
  cases h with
  | start hok => exact ⟨lost, hs.start _ hok⟩
  | act hstep => exact ⟨lost, hstep.ok owned_of_perform hs⟩
  | reply => exact ⟨lost, hs.reply⟩
  | fail => exact ⟨_, hs.lose⟩
  | unwind => exact ⟨lost, hs.unwind⟩

theorem Reachable.accounted (h : Reachable x cfg WithinHeld s) : s.Accounted := by
  induction h with
  | init h => exact ⟨0, accounted_init h⟩
  | step _ hstep ih => exact hstep.accounted ih

/-! ## 5. Strong references keep their inodes -/

theorem count_strongInode_le (τ : Multiset Ref) (i : Inode) :
    (τ.filterMap Ref.strongInode).count i ≤ (τ.map Ref.inode).count i := by
  refine Multiset.count_le_of_le i ?_
  induction τ using Multiset.induction with
  | empty => simp
  | cons r τ ih =>
    rw [Multiset.map_cons]
    cases r with
    | strong r =>
      rw [Multiset.filterMap_cons_some _ _ _ (rfl : Ref.strongInode (.strong r) = _)]
      exact Multiset.cons_le_cons _ ih
    | guest j =>
      rw [Multiset.filterMap_cons_none _ _ (rfl : Ref.strongInode (.guest j) = _)]
      exact le_trans ih (Multiset.le_cons_self _ _)

theorem System.Accounted.keepsStrong (h : s.Accounted) : s.KeepsStrong := by
  obtain ⟨lost, hown, htyped⟩ := h
  refine ⟨?_, ?_, ?_⟩
  · rintro r (hr | ⟨c, hc, hr⟩)
    · exact hown.live r (Multiset.mem_add.mpr (.inr hr))
    · exact hown.parent c hc r hr
  · intro i
    have hle := count_strongInode_le s.pool.tokens i
    rw [hown.balanced.refcount_eq, Multiset.map_add, Multiset.count_add, Multiset.count_add]
    exact Nat.add_le_add_right (le_trans hle (Nat.le_add_left _ _)) _
  · intro t ht
    have hwp := htyped t ht
    refine ⟨?_, ?_⟩ <;> intro hp
    · rw [hp] at hwp
      obtain ⟨q, hq⟩ : PanicSite.strongReferenceClone.Local := hwp
      simp at hq
    · rw [hp] at hwp
      obtain ⟨q, hq⟩ : PanicSite.entryInodeUnwrap.Local := hwp
      simp at hq

/-- **A strong reference keeps its inode alive** in every interleaving in which the guest
forgets no more than it holds: the inode stays in the store under its id, with a refcount of
at least the number of strong references, and neither `StrongInodeReference::clone` nor the
`unwrap` of the inode of an entry fails. -/
theorem strong_reference_keeps_inode (h : Reachable x cfg WithinHeld s) : s.KeepsStrong :=
  h.accounted.keepsStrong

/-! ## 6. A guest that forgets too much -/

/-- Let the first thread make its next step, on a host that answers by `o`. -/
def System.stepFirst (o : Host) (s : System) : System :=
  match s.pool.threads with
  | (.act a next, τ) :: rest =>
    let r := World.perform a ⟨s.pool.shared, fun _ => o, 0⟩
    ⟨⟨r.2.fs, (next r.1, refTokens.after a r.1 τ) :: rest⟩, s.guest⟩
  | (.ret reply, _) :: rest => ⟨⟨s.pool.shared, rest⟩, s.guest + reply.granted⟩
  | _ => s

/-- Let it make `n` steps. -/
def System.advance (o : Host) (n : Nat) : System → System := (stepFirst o)^[n]

/-- Start a thread; it is the first one then. -/
def System.start (x : Export) (cfg : Config) (job : Job) (s : System) : System :=
  ⟨⟨s.pool.shared, (job.prog x cfg, guestRefs job.forgets) :: s.pool.threads⟩,
    s.guest - job.forgets⟩

theorem Reachable.advance (o : Host) (n : Nat) (h : Reachable x cfg ok s) :
    Reachable x cfg ok (s.advance o n) := by
  refine Function.Iterate.rec (Reachable x cfg ok) h (fun s h => ?_) n
  obtain ⟨⟨fs, threads⟩, g⟩ := s
  unfold System.stepFirst
  split
  · rename_i a next τ rest hthreads
    obtain rfl : threads = _ := hthreads
    exact h.step (.act (@Pool.Step.act _ _ _ _ _ _ _ _ refTokens Act.Perform _ _ [] rest a next τ _
      (World.perform_spec a ⟨fs, fun _ => o, 0⟩)))
  · rename_i reply τ rest hthreads
    obtain rfl : threads = _ := hthreads
    exact h.step (@System.Step.reply x cfg ok fs [] rest τ g reply)
  · exact h

/-- Whether a thread has panicked in `StrongInodeReference::clone`. -/
def clonePanicked : FsM Reply → Bool
  | .panic q => q = .strongReferenceClone
  | _ => false

theorem eq_of_clonePanicked {p : FsM Reply} (h : clonePanicked p = true) :
    p = .panic .strongReferenceClone := by
  cases p with
  | panic q => rw [of_decide_eq_true h]
  | _ => exact absurd h (by simp [clonePanicked])

/-- The system right after INIT. -/
def initSystem : System := ⟨⟨(initLedger 2).world.fs, []⟩, initialRefs⟩

theorem initSystem_reachable (x : Export) (ok : System → Job → Prop) :
    Reachable x Config.default ok initSystem := by
  have h : (init Config.default 0).run World.performSession (freshWorld 2) =
      (.ok 0x6000, (initLedger 2).world) := rfl
  exact .init h

/-- A host without `/proc/self/fd`, whose root directory has the file `a`. -/
def treeHost : Host
  | .getPath _ => .error .notAFile
  | .getdents .. => .ok [⟨2, 1, 8, [0x61]⟩]
  | c => obligingHost 0 c

/-- INIT, a LOOKUP of `a`, and the preparation of a migration that has just found `a` in the
root directory and is about to record its path: it holds a strong reference to the root. -/
def preparing : System :=
  (((initSystem.start .readWrite Config.default (.request (.lookup ROOT_ID [0x61]))).advance
    treeHost 20).start .readWrite Config.default (.prepare 3)).advance treeHost 12

/-- The same, after a FORGET of three lookups of the root. -/
def forgetting : System :=
  (preparing.start .readWrite Config.default (.request (.forget ROOT_ID 3))).advance treeHost 4

theorem preparing_reachable (hok : ∀ s job, job.forgets = 0 → ok s job) :
    Reachable .readWrite Config.default ok preparing := by
  have h₁ := ((initSystem_reachable .readWrite ok).step
    (.start (hok _ (.request (.lookup ROOT_ID [0x61])) rfl))).advance treeHost 20
  exact (h₁.step (.start (hok _ (.prepare 3) rfl))).advance treeHost 12

/-- While a migration is prepared and the guest forgets nothing, the root stays. -/
theorem strong_reference_keeps_inode_preparing :
    preparing.inodes.refcount ROOT_ID = 3 ∧ preparing.KeepsStrong :=
  ⟨by decide +kernel, strong_reference_keeps_inode (preparing_reachable fun s job h => by
      rw [WithinHeld, h]
      exact Multiset.zero_le _)⟩

/-- **Forgetting more than one holds takes an inode away from a strong reference**: the
guest holds two lookups of the root and forgets three.  The preparation of the migration
holds the third reference; the root leaves the store all the same, and the `clone` of that
reference panics. -/
theorem forget_breaks_strong_reference :
    Reachable .readWrite Config.default (fun _ _ => True) forgetting ∧
      forgetting.inodes.contains ROOT_ID = false ∧
      1 ≤ forgetting.strongCount ROOT_ID ∧
      (∃ t ∈ forgetting.pool.threads, t.1 = .panic .strongReferenceClone) ∧
      ¬ forgetting.KeepsStrong := by
  have hreach : Reachable .readWrite Config.default (fun _ _ => True) forgetting := by
    have h : Reachable .readWrite Config.default (fun _ _ => True) (preparing.start .readWrite
        Config.default (.request (.forget ROOT_ID 3))) :=
      (preparing_reachable fun _ _ _ => trivial).step (.start trivial)
    exact h.advance treeHost 4
  have hpanic : ∃ t ∈ forgetting.pool.threads, t.1 = .panic .strongReferenceClone := by
    have hany : (forgetting.pool.threads.any fun t => clonePanicked t.1) = true := by
      decide +kernel
    obtain ⟨t, ht, hp⟩ := List.any_eq_true.mp hany
    exact ⟨t, ht, eq_of_clonePanicked hp⟩
  refine ⟨hreach, by decide +kernel, by decide +kernel, hpanic, ?_⟩
  · intro h
    obtain ⟨t, ht, hp⟩ := hpanic
    exact (h.noPanic t ht).1 hp

end Virtiofsd
