/-
  # Requests that share the offset of a directory (`passthrough/mod.rs`)

  The requests that name one directory handle, on several threads.  They share the kernel
  offset of its descriptor and the lock of the handle (`data.file`).

  * `readdir` holds the lock from the seek to the last `getdents`.
  * `flush` duplicates the descriptor with the lock held.
  * `lseek` and `fsync` take the lock in the statement that fetches the descriptor, and the
    guard is dropped where that statement ends.  Their call of the host comes AFTER it.

  So LSEEK moves the offset whenever it likes.
-/
import Virtiofsd.Lib.Lock
import Virtiofsd.ReadDir.Paging

namespace Virtiofsd

open Lib Server Prog

/-! ## 1. The requests -/

/-- The calls that the requests make: those of the reader, on the descriptor or its copy, and
the lookups of READDIRPLUS, which do not use it. -/
inductive HandleAct where
  | dir (c : DirHostCall)
  | lseek (offset : UInt64) (whence : Nat)
  | fsync (datasync : Bool)
  | dup
  | close (newfd : Nat)
  | lookup (name : Name)

/-- The answers; that of `lookup` says if READDIRPLUS goes on. -/
def HandleAct.Ans : HandleAct → Type
  | dir c => c.Ans
  | lseek _ _ => Except Errno Nat
  | fsync _ => Except Errno Unit
  | dup => Except Errno Nat
  | close _ => Except Errno Unit
  | lookup _ => Bool

abbrev HandleM := Prog (LockAct HandleAct) (LockAct.Ans HandleAct.Ans) IoError Panic

namespace HandleM

/-- A call outside of any critical section. -/
def call (a : HandleAct) : HandleM a.Ans := .act (.inner a) .ret

/-- `data.file.get()?.write().unwrap().as_raw_fd()`, whose guard is a temporary. -/
def asRawFd : HandleM Unit :=
  (Prog.ret () : Prog HandleAct HandleAct.Ans IoError Panic Unit).withLock

end HandleM

/-- `translate_linux_seek_whence`: the wire has the values of Linux; macOS has `SEEK_HOLE` and
`SEEK_DATA` the other way round. -/
def HostOs.translateSeekWhence : HostOs → Nat → Except IoError Nat
  | linux, whence => .ok whence
  | macos, whence =>
    if whence ≤ 2 then .ok whence
    else if whence = 3 then .ok 4
    else if whence = 4 then .ok 3
    else .error (.os EINVAL)

/-- A request that names the handle. -/
inductive HandleRequest where
  | readdir (plus : Bool) (size : Nat) (offset : UInt64)
  | lseek (offset : UInt64) (whence : Nat)
  | fsync (datasync : Bool)
  | flush
  deriving DecidableEq

/-- What it returns. -/
inductive HandleReply (os : HostOs) where
  | entries (rd : os.ReadDir)
  | offset (n : Nat)
  | done

section

variable (os : HostOs) (rounds : Nat)

/-- **`PassthroughFs::readdir`**, once the handle has been found. -/
def readdirLocked (size : Nat) (offset : UInt64) : HandleM os.ReadDir :=
  let reader : Prog HandleAct HandleAct.Ans IoError Panic os.ReadDir :=
    (os.readdir rounds size offset).mapAct .dir (fun _ r => r) id
  if size = 0 then reader.mapAct .inner (fun _ r => r) id else reader.withLock

variable {os}

/-- The lookups of READDIRPLUS. -/
def lookupEntries : Nat → os.ReadDir → HandleM Unit
  | 0, _ => return ()
  | n + 1, rd =>
    match DirectoryIterator.next rd with
    | .error p => .panic (.iterator p)
    | .ok none => return ()
    | .ok (some (entry, rd)) => .act (.inner (.lookup entry.name)) fun
      | true => lookupEntries n rd
      | false => return ()

end

/-- **`PassthroughFs::lseek`.** -/
def lseekUnlocked (os : HostOs) (offset : UInt64) (whence : Nat) : HandleM Nat := do
  HandleM.asRawFd
  let nativeWhence ← .ofExcept (os.translateSeekWhence whence)
  match ← HandleM.call (.lseek offset nativeWhence) with
  | .ok res => return res
  | .error e => .err (.os e)

/-- **`PassthroughFs::fsync`.** -/
def fsyncUnlocked (datasync : Bool) : HandleM Unit := do
  HandleM.asRawFd
  match ← HandleM.call (.fsync datasync) with
  | .ok _ => return ()
  | .error e => .err (.os e)

/-- **`PassthroughFs::flush`.** -/
def flushDup : HandleM Unit := do
  let newfd ← (Prog.perform HandleAct.dup : Prog HandleAct HandleAct.Ans IoError Panic _).withLock
  match (newfd : Except Errno Nat) with
  | .error e => .err (.os e)
  | .ok newfd =>
    match ← HandleM.call (.close newfd) with
    | .ok _ => return ()
    | .error e => .err (.os e)

/-- **What a thread does for a request.** -/
def HandleRequest.serve (os : HostOs) (rounds : Nat) : HandleRequest → HandleM (HandleReply os)
  | readdir plus size offset => do
    let rd ← readdirLocked os rounds size offset
    if plus then lookupEntries (size + 1) rd
    return .entries rd
  | lseek offset whence => return .offset (← lseekUnlocked os offset whence)
  | fsync datasync => do
    fsyncUnlocked datasync
    return .done
  | flush => do
    flushDup
    return .done

/-! ## 2. The host, and what is asked of READDIR -/

section

variable {os : HostOs} (dir : HostDir os)

/-- **What the host does with the calls**; the state is the number of entries before the offset
of the descriptor.  `SEEK_SET` is what the reader uses, and any other `whence` goes anywhere. -/
def HostDir.handleSpec : Spec HandleAct HandleAct.Ans Nat where
  pre _ _ := True
  post
    | .dir c, pos, r, pos' => dir.hostSpec.post c pos r pos'
    | .lseek offset whence, pos, r, pos' =>
      whence = 0 → dir.hostSpec.post (.lseek offset) pos r pos'
    | .fsync _, pos, _, pos' => pos' = pos
    | .dup, pos, _, pos' => pos' = pos
    | .close _, pos, _, pos' => pos' = pos
    | .lookup _, pos, _, pos' => pos' = pos

/-- **READDIR returns what follows its own offset.** -/
def HostDir.ReadsOn : HandleRequest → Outcome IoError Panic (HandleReply os) → Prop
  | .readdir _ size offset, o => ∀ p ≤ dir.entries.length, offset = dir.resume p → dir.Fits size →
    ∃ rd ds, o = .ok (.entries rd) ∧ Yields rd ds ∧ dir.Batch p ds
  | _, _ => True

end

/-- The threads that serve requests for the handle. -/
abbrev HandleThreads (os : HostOs) :=
  LockThreads HandleAct HandleAct.Ans IoError Panic (HandleReply os) HandleRequest Nat

/-- The calls that are made without the lock. -/
def HandleAct.Free : HandleAct → Prop
  | dir _ => False
  | _ => True

/-- **The condition**: LSEEK calls the host while nobody has the lock. -/
def lseekApart {os : HostOs} (_ : Nat) (a : HandleAct) (σ : HandleThreads os) : Prop :=
  match a with
  | .lseek _ _ => σ.holder = none
  | _ => True

instance {os : HostOs} (n : Nat) (a : HandleAct) (σ : HandleThreads os) :
    Decidable (lseekApart n a σ) :=
  match a with
  | .lseek _ _ => inferInstanceAs (Decidable (σ.holder = none))
  | .dir _ | .fsync _ | .dup | .close _ | .lookup _ => .isTrue trivial

/-! ## 3. One thread -/

section

variable {os : HostOs} {dir : HostDir os} {rounds : Nat}

/-- The calls of the reader, as calls on the handle. -/
theorem wp_mapAct_dir {α : Type} {Q : Outcome IoError Panic α → Nat → Prop} (p : DirHostM α) :
    ∀ {pos : Nat}, p.wp dir.hostSpec Q pos →
      (p.mapAct HandleAct.dir (fun _ r => r) id).wp dir.handleSpec Q pos := by
  induction p with
  | ret | err | panic => exact fun h => h
  | act c k ih => exact fun h => ⟨trivial, fun r pos' hpost => ih r (h.2 r pos' hpost)⟩

/-- A reader with size 0 asks for nothing. -/
theorem readdir_zero (os : HostOs) (rounds : Nat) (offset : UInt64) :
    ∃ rd, os.readdir rounds 0 offset = .ret rd := by
  cases os with
  | linux | macos => exact ⟨_, rfl⟩

/-- **`readdir` does with the lock what the reader does alone**, and gives the lock back. -/
theorem wp_readdirLocked {size : Nat} {offset : UInt64}
    {Q : Outcome IoError Panic os.ReadDir → Prop}
    (h : ∀ pos, (os.readdir rounds size offset).wp dir.hostSpec (fun o _ => Q o) pos) :
    (readdirLocked os rounds size offset).wp (locked HandleAct.Free dir.handleSpec)
      (fun o g => Q o ∧ ∀ a, o = .ok a → g = none) none := by
  unfold readdirLocked
  split
  · rename_i hzero
    subst hzero
    obtain ⟨rd, hrd⟩ := readdir_zero os rounds offset
    rw [hrd] at h ⊢
    exact ⟨h 0, fun _ _ => rfl⟩
  · refine wp_withLock fun pos => wp_mono ?_ _ (wp_mapAct_dir _ (h pos))
    rintro (rd | e | q) pos' hQ
    · exact ⟨hQ, fun _ _ => rfl⟩
    · exact ⟨hQ, fun _ he => (nomatch he)⟩
    · exact ⟨hQ, fun _ hq => (nomatch hq)⟩

/-- The lookups end, if the iterator does. -/
theorem wp_lookupEntries (n : Nat) (rd : os.ReadDir) :
    (lookupEntries n rd).wp (locked HandleAct.Free dir.handleSpec)
      (fun o _ => ∀ ds, Yields rd ds → o = .ok ()) none := by
  induction n generalizing rd with
  | zero => exact fun _ _ => rfl
  | succ n ih =>
    unfold lookupEntries
    split
    · rename_i q hpanic
      intro ds hyields
      rcases hyields.next with ⟨-, hnext⟩ | ⟨d, rd', rest, -, hnext⟩
      · rw [hnext] at hpanic
        cases hpanic
      · rw [hnext] at hpanic
        cases hpanic
    · exact fun _ _ => rfl
    · rename_i entry rd' hnext
      refine ⟨trivial, ?_⟩
      rintro (_ | _) g' rfl
      · exact fun _ _ => rfl
      · refine wp_mono (fun o _ h ds hyields => ?_) _ (ih rd')
        obtain ⟨rest, -, hrest⟩ := (Yielded.cons hnext (.nil _)).rest hyields
        exact h rest hrest

/-- The reader, at any offset and with any size. -/
theorem wp_reader (hrounds : dir.entries.length < rounds) (size : Nat) (offset : UInt64)
    (pos : Nat) :
    (os.readdir rounds size offset).wp dir.hostSpec (fun o _ => ∀ p ≤ dir.entries.length,
      offset = dir.resume p → dir.Fits size →
        ∃ rd ds, o = .ok rd ∧ Yields rd ds ∧ dir.Batch p ds) pos := by
  by_cases hin : ∃ p ≤ dir.entries.length, offset = dir.resume p ∧ dir.Fits size
  · obtain ⟨p, hp, rfl, hsize⟩ := hin
    refine wp_mono (fun o _ h q hq hresume _ => ?_) _ (HostOs.wp_readdir hp hrounds hsize)
    rwa [← HostDir.resume_inj hp hq hresume]
  · -- An offset that no entry has, or a size that is too small: nothing is asked.
    refine wp_of_forall (fun _ _ => trivial) (fun o _ p hp hresume hsize => ?_) _ pos
    exact absurd ⟨p, hp, hresume, hsize⟩ hin

theorem wp_asRawFd : HandleM.asRawFd.wp (locked HandleAct.Free dir.handleSpec)
    (fun _ g => g = none) none :=
  wp_withLock fun _ => rfl

theorem wp_call {a : HandleAct} (ha : a.Free) :
    (HandleM.call a).wp (locked HandleAct.Free dir.handleSpec) (fun _ g => g = none) none :=
  ⟨ha, fun _ _ hg => hg⟩

theorem wp_lseekUnlocked (offset : UInt64) (whence : Nat) :
    (lseekUnlocked os offset whence).wp (locked HandleAct.Free dir.handleSpec)
      (fun _ _ => True) none := by
  refine wp_bind_of wp_asRawFd ?_ (fun _ _ _ => trivial) (fun _ _ _ => trivial)
  rintro - g rfl
  cases hwhence : os.translateSeekWhence whence with
  | error e => trivial
  | ok nativeWhence =>
    refine wp_bind_of (p := HandleM.call (.lseek offset nativeWhence)) (wp_call trivial) ?_
      (fun _ _ _ => trivial) (fun _ _ _ => trivial)
    rintro (e | res) g -
    · trivial
    · trivial

theorem wp_fsyncUnlocked (datasync : Bool) :
    (fsyncUnlocked datasync).wp (locked HandleAct.Free dir.handleSpec) (fun _ _ => True) none := by
  refine wp_bind_of wp_asRawFd ?_ (fun _ _ _ => trivial) (fun _ _ _ => trivial)
  rintro - g rfl
  refine wp_bind_of (wp_call trivial) ?_ (fun _ _ _ => trivial) (fun _ _ _ => trivial)
  rintro (e | res) g -
  · trivial
  · trivial

theorem wp_flushDup :
    flushDup.wp (locked HandleAct.Free dir.handleSpec) (fun _ _ => True) none := by
  have hdup : ((perform HandleAct.dup :
      Prog HandleAct HandleAct.Ans IoError Panic _).withLock).wp
        (locked HandleAct.Free dir.handleSpec) (fun _ g => g = none) none :=
    wp_withLock fun _ => ⟨trivial, fun _ _ _ => rfl⟩
  refine wp_bind_of hdup ?_ (fun _ _ _ => trivial) (fun _ _ _ => trivial)
  rintro (e | newfd) g rfl
  · trivial
  · refine wp_bind_of (wp_call trivial) ?_ (fun _ _ _ => trivial) (fun _ _ _ => trivial)
    rintro (e | res) g -
    · trivial
    · trivial

/-- **Each request, alone**: READDIR and READDIRPLUS return what follows their offset. -/
theorem wp_serve (hrounds : dir.entries.length < rounds) (request : HandleRequest) :
    (request.serve os rounds).wp (locked HandleAct.Free dir.handleSpec)
      (fun o _ => dir.ReadsOn request o) none := by
  cases request with
  | readdir plus size offset =>
    refine wp_bind_of (wp_readdirLocked (wp_reader hrounds size offset)) ?_ ?_ ?_
    · rintro rd g ⟨hreads, hfreed⟩
      obtain rfl := hfreed rd rfl
      have hentries : dir.ReadsOn (.readdir plus size offset) (.ok (.entries rd)) := by
        intro p hp hresume hsize
        obtain ⟨_, ds, ⟨⟩, hds⟩ := hreads p hp hresume hsize
        exact ⟨rd, ds, rfl, hds⟩
      cases plus with
      | false => exact hentries
      | true =>
        refine wp_bind_of (wp_lookupEntries (size + 1) rd) (fun _ _ _ => hentries) ?_ ?_
        · intro e g' hends p hp hresume hsize
          obtain ⟨_, ds, ⟨⟩, hyields, -⟩ := hreads p hp hresume hsize
          exact nomatch hends ds hyields
        · intro q g' hends p hp hresume hsize
          obtain ⟨_, ds, ⟨⟩, hyields, -⟩ := hreads p hp hresume hsize
          exact nomatch hends ds hyields
    · rintro e g ⟨hreads, -⟩ p hp hresume hsize
      obtain ⟨rd, ds, h, -⟩ := hreads p hp hresume hsize
      cases h
    · rintro q g ⟨hreads, -⟩ p hp hresume hsize
      obtain ⟨rd, ds, h, -⟩ := hreads p hp hresume hsize
      cases h
  | lseek offset whence =>
    exact wp_bind_of (wp_lseekUnlocked offset whence) (fun _ _ _ => trivial)
      (fun _ _ _ => trivial) (fun _ _ _ => trivial)
  | fsync datasync =>
    exact wp_bind_of (wp_fsyncUnlocked datasync) (fun _ _ _ => trivial)
      (fun _ _ _ => trivial) (fun _ _ _ => trivial)
  | flush =>
    exact wp_bind_of wp_flushDup (fun _ _ _ => trivial)
      (fun _ _ _ => trivial) (fun _ _ _ => trivial)

/-! ## 4. All threads -/

/-- What a finished thread has returned. -/
theorem of_wp_ends {α : Type}
    {S : Spec (LockAct HandleAct) (LockAct.Ans HandleAct.Ans) (Option Nat)}
    {Q : Outcome IoError Panic α → Prop} {p : HandleM α} {o : Outcome IoError Panic α}
    {g : Option Nat} (hwp : p.wp S (fun o _ => Q o) g) (hends : p.Ends o []) : Q o :=
  of_wp_follows p hwp hends rfl

/-- **READDIR is atomic, as far as LSEEK lets it.**  In every run in which LSEEK calls the host
only while nobody has the lock, every READDIR and READDIRPLUS that has ended has returned
entries that start right behind its own offset. -/
theorem readdir_atomic (dir : HostDir os) (hrounds : dir.entries.length < rounds)
    {σ : HandleThreads os}
    (hσ : Reached dir.handleSpec (HandleRequest.serve os rounds) lseekApart σ)
    {n : Nat} {request : HandleRequest} {p : HandleM (HandleReply os)}
    (hn : σ.threads[n]? = some (request, p)) {o : Outcome IoError Panic (HandleReply os)}
    (hends : p.Ends o []) : dir.ReadsOn request o := by
  have hkept : Reached.Kept HandleAct.Free dir.handleSpec
      (fun request o _ => dir.ReadsOn request o) σ := by
    refine hσ.kept (wp_serve hrounds) fun {σ n a r pos'} hmay hfree hpost => ?_
    cases a with
    | dir c => exact hfree.elim
    | lseek offset whence => exact .inl hmay
    | fsync | dup | close | lookup => exact .inr hpost
  exact of_wp_ends (hkept.threads n request p hn) hends

end

/-- A host for the calls on the handle. -/
def HostDir.handleAnswer {os : HostOs} (dir : HostDir os) : (a : HandleAct) → Nat → a.Ans × Nat
  | .dir c, pos => dir.answer c pos
  | .lseek offset _, pos => dir.answer (.lseek offset) pos
  | .fsync _, pos => ((.ok () : Except Errno Unit), pos)
  | .dup, pos => ((.ok 9 : Except Errno Nat), pos)
  | .close _, pos => ((.ok () : Except Errno Unit), pos)
  | .lookup _, pos => (true, pos)

theorem HostDir.handleAnswer_meets {os : HostOs} (dir : HostDir os) (a : HandleAct) (pos : Nat) :
    dir.handleSpec.post a pos (dir.handleAnswer a pos).1 (dir.handleAnswer a pos).2 := by
  cases a with
  | dir c => exact dir.answer_meets c pos
  | lseek offset whence => exact fun _ => dir.answer_meets (.lseek offset) pos
  | fsync | dup | close | lookup => rfl

/-- READDIR behind the first entry, and LSEEK to the start. -/
def sampleRequests : List HandleRequest := [.readdir false 100 1, .lseek 0 0]

/-- The two requests under a schedule. -/
def sampleThreads (may : Nat → HandleAct → HandleThreads .linux → Prop)
    [∀ n a σ, Decidable (may n a σ)] (steps : List Nat) : HandleThreads .linux :=
  LockThreads.schedule may (sampleDir .linux).handleAnswer (HandleRequest.serve .linux 3) 0
    sampleRequests steps

/-- The request of a thread and the first entry that it has returned. -/
def firstEntry (σ : HandleThreads .linux) (n : Nat) : Option (HandleRequest × DirEntry) :=
  match σ.threads[n]? with
  | some (request, .ret (.entries rd)) =>
    match DirectoryIterator.next rd with
    | .ok (some (d, _)) => some (request, d)
    | _ => none
  | _ => none

theorem of_firstEntry {σ : HandleThreads .linux} {n : Nat} {request : HandleRequest}
    {d : DirEntry} (h : firstEntry σ n = some (request, d)) :
    ∃ rd rd', σ.threads[n]? = some (request, .ret (.entries rd)) ∧
      DirectoryIterator.next rd = .ok (some (d, rd')) := by
  unfold firstEntry at h
  split at h
  · rename_i request' rd hthread
    split at h
    · rename_i d' rd' hnext
      cases h
      exact ⟨rd, rd', hthread, hnext⟩
    · cases h
  · cases h

/-- READDIR seeks, LSEEK moves the offset, READDIR reads: it returns the first entry again. -/
theorem lseek_moves_readdir : ∃ (σ : HandleThreads .linux) (rd : HostOs.linux.ReadDir),
    Reached (sampleDir .linux).handleSpec (HandleRequest.serve .linux 3) (fun _ _ _ => True) σ ∧
      σ.threads[0]? = some (.readdir false 100 1, .ret (.entries rd)) ∧
      ¬ (sampleDir .linux).ReadsOn (.readdir false 100 1) (.ok (.entries rd)) := by
  have hfirst : firstEntry (sampleThreads (fun _ _ _ => True) [1, 1, 0, 0, 1, 0, 0]) 0 =
      some (.readdir false 100 1, ⟨5, 1, 8, [97]⟩) := by decide +kernel
  obtain ⟨rd, rd', hthread, hnext⟩ := of_firstEntry hfirst
  refine ⟨_, rd, LockThreads.reached_schedule (sampleDir .linux).handleAnswer_meets _ _ _,
    hthread, ?_⟩
  intro hreads
  obtain ⟨_, ds, ⟨⟩, hyields, k, hds, hk⟩ := hreads 1 (by decide) rfl (sampleDir_fits .linux)
  obtain ⟨j, rfl⟩ := Nat.exists_eq_add_of_lt (hk (by decide))
  -- The second entry is the only one that follows.
  have hsecond : ds = [⟨6, 9223372036854775808, 4, [98, 99]⟩] := by
    rw [hds, Nat.zero_add, Nat.add_comm, Nat.add_comm 1]
    exact List.take_of_length_le (by simp [HostDir.length_listed, sampleDir])
  rcases hyields.next with ⟨hnil, -⟩ | ⟨d, rd'', rest, hcons, hnext'⟩
  · rw [hsecond] at hnil
    cases hnil
  · rw [hnext] at hnext'
    cases hnext'
    rw [hsecond] at hcons
    simp at hcons

/-- The same requests, with LSEEK before READDIR: the second entry is returned. -/
theorem readdir_atomic_sample : ∃ (σ : HandleThreads .linux) (rd : HostOs.linux.ReadDir),
    σ.threads[0]? = some (.readdir false 100 1, .ret (.entries rd)) ∧
      (sampleDir .linux).ReadsOn (.readdir false 100 1) (.ok (.entries rd)) := by
  have hfirst : firstEntry (sampleThreads lseekApart [1, 1, 1, 0, 0, 0, 0]) 0 =
      some (.readdir false 100 1, ⟨6, 9223372036854775808, 4, [98, 99]⟩) := by decide +kernel
  obtain ⟨rd, rd', hthread, -⟩ := of_firstEntry hfirst
  exact ⟨_, rd, hthread, readdir_atomic (sampleDir .linux) (Nat.lt_succ_self 2)
    (LockThreads.reached_schedule (sampleDir .linux).handleAnswer_meets _ _ _) hthread ⟨rfl, rfl⟩⟩

end Virtiofsd
