/-
  # The cache of mount FDs (`passthrough/mount_fd.rs`)

  To open a file handle the daemon needs a file descriptor on the file's mount.  `MountFds` keeps
  a map from mount ids to WEAK pointers to such descriptors, so that a descriptor is closed when
  the last one who uses it drops it, and shared as long as it is in use.

  The count of strong pointers changes without the lock of the map: it drops to zero first, and
  the entry of the map is removed later, under the lock.  In between the descriptor is dead but
  still in the map, and another thread may already replace it.  `Cache` has the two apart, and
  threads interleave at every single access.
-/
import Virtiofsd.Lib.Rely
import Virtiofsd.Passthrough.Lookup

namespace Virtiofsd

open Lib Function Prog

namespace MountFds

/-! ## 1. Objects and actions -/

/-- A pointer to a `MountFd`, strong or weak. -/
abbrev MountRef := Nat

/-- `MPRError`. -/
structure MprError where
  io : IoError
  description : String
  silent : Bool
  fsMountId : Option Nat
  fsMountRoot : Option String

/-- `MPRError::set_desc`. -/
def MprError.setDesc (e : MprError) (desc : String) : MprError := { e with description := desc }

/-- `MPRError::prefix`. -/
def MprError.withPrefix (e : MprError) (text : String) : MprError :=
  e.setDesc (text ++ ": " ++ e.description)

/-- The errors of `MountFds::get` and of `MountFd::new`. -/
inductive MountError where
  | mpr (err : MprError)
  | io (err : IoError)

/-- **A `MountFd`**, with its count of strong pointers.  `registered` says that its `map` leads
to the cache; `owner` is the thread that made it, and `freed` says that it has been dropped, its
`Drop` included. -/
structure MountFd where
  mountId : Nat
  registered : Bool
  file : Fd
  owner : Nat
  strong : Nat
  freed : Bool
  deriving DecidableEq

/-- The accesses to the map, to the counts and to the host. -/
inductive MountAct where
  | readLock
  | writeLock
  | unlock
  | mapGet (mountId : Nat)
  | mapInsert (mountId : Nat) (w : MountRef)
  | mapRemove (mountId : Nat)
  | upgrade (w : MountRef)
  | strongCount (w : MountRef)
  | arcNew (mountId : Nat) (registered : Bool) (file : Fd)
  | cloneArc (w : MountRef)
  | decrement (w : MountRef)
  | fields (w : MountRef)
  | dropFields (w : MountRef)
  | getMountRoot (mountId : Nat)
  | errorFor (mountId : Nat) (err : IoError)
  | openPath (path : String)
  | statx (fd : Fd)
  | reopen (fd : Fd) (flags : UInt32)
  | openat (dir : Fd) (path : String) (flags : UInt32)

abbrev MountAct.Ans : MountAct → Type
  | mapGet _ => Option MountRef
  | upgrade _ => Bool
  | strongCount _ => Nat
  | arcNew _ _ _ => MountRef
  | decrement _ => Bool
  | fields _ => Nat × Bool
  | getMountRoot _ => Except MprError String
  | errorFor _ _ => MprError
  | openPath _ => Except IoError Fd
  | statx _ => Except IoError StatExt
  | reopen _ _ => Except IoError Fd
  | openat _ _ _ => Except IoError Fd
  | _ => Unit

abbrev MountM := Prog MountAct MountAct.Ans MountError Empty

def mountAct (a : MountAct) : MountM a.Ans := Prog.perform a

/-! ## 2. The operations -/

/-- `.get(&mount_id).and_then(Weak::upgrade)`. -/
def upgradeEntry (mountId : Nat) : MountM (Option MountRef) := do
  match ← mountAct (.mapGet mountId) with
  | none => return none
  | some w =>
    let upgraded ← mountAct (.upgrade w)
    return if upgraded then some w else none

/-- `Err(self.error_for(mount_id, e)..)`. -/
def fail {α : Type} (mountId : Nat) (err : IoError) (describe : MprError → MprError) :
    MountM α := do
  let e ← mountAct (.errorFor mountId err)
  .err (.mpr (describe e))

/-- `.map_err(|e| self.error_for(mount_id, e).prefix(..))?`. -/
def orFail {α : Type} (mountId : Nat) (text : String) : Except IoError α → MountM α
  | .ok a => return a
  | .error e => fail mountId e (·.withPrefix text)

/-- What `MountFds::get` does without the lock: the mount point is opened, and has to be a
regular file or a directory on this mount. -/
def openMount (mountId : Nat) : MountM Fd := do
  match ← mountAct (.getMountRoot mountId) with
  | .error e => .err (.mpr e)
  | .ok mountPoint =>
    if mountPoint.toList.contains (Char.ofNat 0) then
      fail mountId (.custom .invalidInput "nul byte found in provided data")
        (·.withPrefix ("Failed to convert \"" ++ mountPoint ++ "\" to a CString"))
    else
      let opened ← mountAct (.openPath mountPoint)
      let path ← orFail mountId ("Failed to open mount point \"" ++ mountPoint ++ "\"") opened
      let stx ← mountAct (.statx path)
      let stx ← orFail mountId ("Failed to stat mount point \"" ++ mountPoint ++ "\"") stx
      if stx.mntId ≠ mountId then
        fail mountId (.os EIO) (·.setDesc ("Mount point's (" ++ mountPoint ++ ") mount ID (" ++
          toString stx.mntId ++ ") does not match expected value (" ++ toString mountId ++ ")"))
      else if !isSafeInode stx.st.mode then
        fail mountId (.os EIO)
          (·.setDesc ("Mount point \"" ++ mountPoint ++ "\" is not a regular file or directory"))
      else
        let file ← mountAct (.reopen path (O_RDONLY ||| O_NOFOLLOW ||| O_CLOEXEC))
        orFail mountId ("Failed to reopen mount point \"" ++ mountPoint ++ "\" for reading") file

/-- The end of `MountFds::get` and of `MountFd::new`, with the write lock: a `MountFd` that
someone else has entered is used, else a new one is entered. -/
def enterOrReuse (mountId : Nat) (file : Fd) : MountM MountRef := do
  match ← upgradeEntry mountId with
  | some w =>
    mountAct .unlock
    return w
  | none =>
    let w ← mountAct (.arcNew mountId true file)
    mountAct (.mapInsert mountId w)
    mountAct .unlock
    return w

/-- **`MountFds::get`.** -/
def get (mountId : Nat) : MountM MountRef := do
  mountAct .readLock
  let existing ← upgradeEntry mountId
  mountAct .unlock
  match existing with
  | some w => return w
  | none =>
    let file ← openMount mountId
    mountAct .writeLock
    enterOrReuse mountId file

/-- `err_context`. -/
def orContext {α : Type} (text : String) : Except IoError α → MountM α
  | .ok a => return a
  | .error e => .err (.io (e.context text))

/-- **`MountFd::new`**, with a cache or without. -/
def new (registered : Bool) (dir : Fd) (path : String) : MountM MountRef := do
  let opened ← mountAct (.openat dir path O_RDONLY)
  let file ← orContext ("Failed to open " ++ path) opened
  let st ← mountAct (.statx file)
  let st ← orContext ("Failed to get " ++ path ++ "'s mount ID") st
  if registered then
    mountAct .writeLock
    enterOrReuse st.mntId file
  else mountAct (.arcNew st.mntId false file)

/-- `Drop for MountFd`: the entry is removed only if it is dead. -/
def cleanUp (mountId : Nat) : MountM Unit := do
  mountAct .writeLock
  match ← mountAct (.mapGet mountId) with
  | none => mountAct .unlock
  | some w =>
    let count ← mountAct (.strongCount w)
    if count = 0 then
      mountAct (.mapRemove mountId)
      mountAct .unlock
    else mountAct .unlock

/-- **An `Arc<MountFd>` is dropped.**  After the last one comes the `Drop` of the `MountFd`, and
then its fields. -/
def drop (w : MountRef) : MountM Unit := do
  let last ← mountAct (.decrement w)
  if last then
    let (mountId, registered) ← mountAct (.fields w)
    if registered then
      cleanUp mountId
      mountAct (.dropFields w)
    else mountAct (.dropFields w)
  else return ()

/-- What a thread may do with mount FDs. -/
inductive MountOp where
  | get (mountId : Nat)
  | new (registered : Bool) (dir : Fd) (path : String)
  | clone (w : MountRef)
  | drop (w : MountRef)

/-- The operation, and in the end the pointer that it has returned. -/
def MountOp.prog (op : MountOp) : MountM (MountOp × Option MountRef) :=
  match op with
  | get mountId => do return (op, some (← MountFds.get mountId))
  | new registered dir path => do return (op, some (← MountFds.new registered dir path))
  | clone w => do
    mountAct (.cloneArc w)
    return (op, some w)
  | drop w => do
    MountFds.drop w
    return (op, none)

/-! ## 3. The shared state -/

/-- **The cache**: the map behind its lock, and all `MountFd`s that were ever made. -/
structure Cache where
  map : Nat → Option MountRef
  objects : MountRef → MountFd
  next : MountRef
  readers : List Nat
  writer : Option Nat

namespace Cache

/-- A change to one `MountFd`. -/
def modify (s : Cache) (w : MountRef) (f : MountFd → MountFd) : Cache :=
  { s with objects := Function.update s.objects w (f (s.objects w)) }

/-- `Arc::new`. -/
def push (s : Cache) (o : MountFd) : Cache :=
  { s with objects := Function.update s.objects s.next o, next := s.next + 1 }

/-- **What an action of thread `n` does.**  A thread waits for the lock; what the host answers is
left open. -/
def Act (n : Nat) : (a : MountAct) → Cache → a.Ans → Cache → Prop
  | .readLock, s, _, s' => s.writer = none ∧ s' = { s with readers := n :: s.readers }
  | .writeLock, s, _, s' =>
    s.writer = none ∧ s.readers = [] ∧ s' = { s with writer := some n }
  | .unlock, s, _, s' => s' = { s with
      readers := s.readers.erase n, writer := if s.writer = some n then none else s.writer }
  | .mapGet id, s, r, s' => r = s.map id ∧ s' = s
  | .mapInsert id w, s, _, s' => s' = { s with map := Function.update s.map id (some w) }
  | .mapRemove id, s, _, s' => s' = { s with map := Function.update s.map id none }
  | .upgrade w, s, r, s' =>
    if 0 < (s.objects w).strong then
      r = true ∧ s' = s.modify w fun o => { o with strong := o.strong + 1 }
    else r = false ∧ s' = s
  | .strongCount w, s, r, s' => r = (s.objects w).strong ∧ s' = s
  | .arcNew id registered file, s, r, s' =>
    r = s.next ∧ s' = s.push ⟨id, registered, file, n, 1, false⟩
  | .cloneArc w, s, _, s' => 0 < (s.objects w).strong ∧
      s' = s.modify w fun o => { o with strong := o.strong + 1 }
  | .decrement w, s, r, s' => 0 < (s.objects w).strong ∧
      r = decide ((s.objects w).strong = 1) ∧
      s' = s.modify w fun o => { o with strong := o.strong - 1 }
  | .fields w, s, r, s' => r = ((s.objects w).mountId, (s.objects w).registered) ∧ s' = s
  | .dropFields w, s, _, s' => s' = s.modify w ({ · with freed := true })
  | _, s, _, s' => s' = s

/-- A `MountFd` registered with the cache that is in use. -/
structure Live (s : Cache) (w : MountRef) : Prop where
  lt : w < s.next
  registered : (s.objects w).registered = true
  strong : 0 < (s.objects w).strong

/-- The map leads to it. -/
def Entered (s : Cache) (w : MountRef) : Prop := s.map (s.objects w).mountId = some w

/-- It is not in the hands of its maker alone. -/
def Shared (s : Cache) (w : MountRef) : Prop := w < s.next ∧ (s.Live w → s.Entered w)

/-- **What always holds**: an entry of the map leads to a `MountFd` of that id which has not been
freed, and one in use is there, unless its maker has the lock; there is one for an id at most. -/
structure Inv (s : Cache) : Prop where
  entry : ∀ id w, s.map id = some w → w < s.next ∧ (s.objects w).registered = true ∧
    (s.objects w).mountId = id ∧ (s.objects w).freed = false
  live : ∀ w, s.Live w → s.Entered w ∨ s.writer = some (s.objects w).owner
  unique : ∀ w w', s.Live w → s.Live w' → (s.objects w).mountId = (s.objects w').mountId → w = w'

/-- **What thread `n` relies on.** -/
structure Rely (n : Nat) (s s' : Cache) : Prop where
  writer : s'.writer = some n ↔ s.writer = some n
  map : s.writer = some n → s'.map = s.map
  made : s.writer = some n → ∀ w, s.next ≤ w → w < s'.next → (s'.objects w).registered = false
  next : s.next ≤ s'.next
  mountId : ∀ w < s.next, (s'.objects w).mountId = (s.objects w).mountId
  registered : ∀ w < s.next, (s'.objects w).registered = (s.objects w).registered
  dead : ∀ w < s.next, (s.objects w).strong = 0 → (s'.objects w).strong = 0
  inserted : ∀ id, ∀ w < s.next, (s.objects w).strong = 0 → s'.map id = some w → s.map id = some w
  kept : ∀ id, ∀ w < s.next, s.map id = some w → s'.map id = some w ∨ (s'.objects w).strong = 0
  own : ∀ w, s.writer = some n → s.Live w → ¬ s.Entered w → (s.objects w).owner = n →
    s'.objects w = s.objects w

theorem Rely.refl (n : Nat) (s : Cache) : Rely n s s where
  writer := Iff.rfl
  map _ := rfl
  made _ _ hle hlt := absurd hlt (Nat.not_lt.mpr hle)
  next := le_rfl
  mountId _ _ := rfl
  registered _ _ := rfl
  dead _ _ h := h
  inserted _ _ _ _ h := h
  kept _ _ _ h := .inl h
  own _ _ _ _ _ := rfl

theorem Rely.trans {n : Nat} {s s' s'' : Cache} (h : Rely n s s') (h' : Rely n s' s'') :
    Rely n s s'' where
  writer := h'.writer.trans h.writer
  map hn := (h'.map (h.writer.mpr hn)).trans (h.map hn)
  made hn w hle hlt := by
    by_cases hw : w < s'.next
    · exact (h'.registered w hw).trans (h.made hn w hle hw)
    · exact h'.made (h.writer.mpr hn) w (Nat.le_of_not_lt hw) hlt
  next := h.next.trans h'.next
  mountId w hw := (h'.mountId w (lt_of_lt_of_le hw h.next)).trans (h.mountId w hw)
  registered w hw := (h'.registered w (lt_of_lt_of_le hw h.next)).trans (h.registered w hw)
  dead w hw hd := h'.dead w (lt_of_lt_of_le hw h.next) (h.dead w hw hd)
  inserted id w hw hd hm := h.inserted id w hw hd
    (h'.inserted id w (lt_of_lt_of_le hw h.next) (h.dead w hw hd) hm)
  kept id w hw hm := by
    have hw' := lt_of_lt_of_le hw h.next
    rcases h.kept id w hw hm with hm' | hd
    · exact h'.kept id w hw' hm'
    · exact .inr (h'.dead w hw' hd)
  own w hn hl he ho := by
    have hsame := h.own w hn hl he ho
    refine (h'.own w (h.writer.mpr hn) ?_ ?_ (hsame ▸ ho)).trans hsame
    · exact ⟨lt_of_lt_of_le hl.lt h.next, hsame ▸ hl.registered, hsame ▸ hl.strong⟩
    · rw [Entered, hsame, h.map hn]
      exact he

end Cache

/-- **The rules of the cache.** -/
def rules : Rules MountAct MountAct.Ans Cache where
  sem := Cache.Act
  rely := Cache.Rely
  inv := Cache.Inv
  refl := Cache.Rely.refl
  trans := Cache.Rely.trans

/-! ## 4. No action is a surprise -/

namespace Cache

variable {n : Nat} {s s' : Cache} {w : MountRef} {id : Nat}

/-- A field that is not changed. -/
theorem objects_modify {β : Type} (field : MountFd → β) {f : MountFd → MountFd}
    (h : field (f (s.objects w)) = field (s.objects w)) (w' : MountRef) :
    field ((s.modify w f).objects w') = field (s.objects w') := by
  unfold Cache.modify
  dsimp only
  by_cases hne : w' = w
  · rw [hne, update_self, h]
  · rw [update_of_ne hne]

/-- A change to a shared `MountFd` that leaves it dead, and not freed while it is in the map. -/
theorem Inv.modify (h : s.Inv) {f : MountFd → MountFd} (hw : s.Shared w)
    (hid : (f (s.objects w)).mountId = (s.objects w).mountId)
    (hreg : (f (s.objects w)).registered = (s.objects w).registered)
    (howner : (f (s.objects w)).owner = (s.objects w).owner)
    (hdead : (s.objects w).strong = 0 → (f (s.objects w)).strong = 0)
    (hfreed : (f (s.objects w)).freed = (s.objects w).freed ∨ ∀ id, s.map id ≠ some w) :
    (s.modify w f).Inv ∧ ∀ m, Rely m s (s.modify w f) := by
  -- Every other `MountFd` is as before.
  have hself : (s.modify w f).objects w = f (s.objects w) := update_self ..
  have hother : ∀ w', w' ≠ w → (s.modify w f).objects w' = s.objects w' :=
    fun w' hne => update_of_ne hne ..
  have hids := objects_modify MountFd.mountId hid
  have hregs := objects_modify MountFd.registered hreg
  have hdeads : ∀ w', (s.objects w').strong = 0 → ((s.modify w f).objects w').strong = 0 := by
    intro w' hd
    by_cases hne : w' = w
    · rw [hne, hself]
      exact hdead (hne ▸ hd)
    · rw [hother w' hne, hd]
  have hlives : ∀ w', (s.modify w f).Live w' → s.Live w' := fun w' hl =>
    ⟨hl.lt, (hregs w').symm.trans hl.registered,
      Nat.pos_of_ne_zero fun hd => Nat.ne_of_gt hl.strong (hdeads w' hd)⟩
  refine ⟨⟨fun id' w' hmap => ?_, fun w' hl => ?_, fun w₁ w₂ h₁ h₂ heq => ?_⟩,
    fun m => ⟨Iff.rfl, fun _ => rfl, fun _ _ hle hlt => absurd hlt (Nat.not_lt.mpr hle), le_rfl,
      fun w' _ => hids w', fun w' _ => hregs w', fun w' _ => hdeads w', fun _ _ _ _ hm => hm,
      fun _ _ _ hm => .inl hm, fun w' _ hl he _ => ?_⟩⟩
  · obtain ⟨hlt, hr, hi, hf⟩ := h.entry id' w' hmap
    refine ⟨hlt, (hregs w').trans hr, (hids w').trans hi, ?_⟩
    by_cases hne : w' = w
    · subst hne
      rw [hself]
      rcases hfreed with hfreed | hnot
      · exact hfreed.trans hf
      · exact absurd hmap (hnot id')
    · rw [hother w' hne, hf]
  · rw [Entered, hids, objects_modify MountFd.owner howner]
    exact h.live w' (hlives w' hl)
  · rw [hids, hids] at heq
    exact h.unique w₁ w₂ (hlives w₁ h₁) (hlives w₂ h₂) heq
  · refine hother w' ?_
    rintro rfl
    exact he (hw.2 hl)

theorem Inv.increment (h : s.Inv) (hw : s.Shared w) (hpos : 0 < (s.objects w).strong) :
    (s.modify w fun o => { o with strong := o.strong + 1 }).Inv ∧
      ∀ m, Rely m s (s.modify w fun o => { o with strong := o.strong + 1 }) :=
  h.modify hw rfl rfl rfl (fun hzero => absurd hzero (Nat.ne_of_gt hpos)) (.inl rfl)

/-- Thread `n` has the lock only if every `MountFd` in use is in the map. -/
def Settled (n : Nat) (s : Cache) : Prop := s.writer = some n → ∀ w, s.Live w → s.Entered w

/-- Thread `n` has the map for itself, and the entry of `id` is dead. -/
structure DeadEntry (n id : Nat) (s : Cache) : Prop where
  writer : s.writer = some n
  settled : Settled n s
  dead : ∀ w, s.map id = some w → (s.objects w).strong = 0

theorem DeadEntry.not_live (h : DeadEntry n id s) (hl : s.Live w) :
    (s.objects w).mountId ≠ id := by
  intro hid
  have hentered := h.settled h.writer w hl
  rw [Entered, hid] at hentered
  exact Nat.ne_of_gt hl.strong (h.dead w hentered)

/-- A new `MountFd`: one for the cache is made only where there is none in use. -/
theorem Inv.push (h : s.Inv) (o : MountFd)
    (ho : o.registered = true → o.owner = n ∧ DeadEntry n o.mountId s) :
    (s.push o).Inv ∧ ∀ m, m ≠ n → Rely m s (s.push o) := by
  have hnew : (s.push o).objects s.next = o := update_self ..
  have hold : ∀ w, w < s.next → (s.push o).objects w = s.objects w :=
    fun w hw => update_of_ne (Nat.ne_of_lt hw) ..
  -- What is in use is the new one, or was before.
  have hcases : ∀ w, (s.push o).Live w → (w = s.next ∧ o.registered = true) ∨ s.Live w := by
    intro w hl
    rcases Nat.lt_succ_iff_lt_or_eq.mp hl.lt with hlt | rfl
    · exact .inr ⟨hlt, hold w hlt ▸ hl.registered, hold w hlt ▸ hl.strong⟩
    · exact .inl ⟨rfl, hnew ▸ hl.registered⟩
  have hfresh : ∀ w, o.registered = true → s.Live w → (s.objects w).mountId ≠ o.mountId :=
    fun w hr hl => (ho hr).2.not_live hl
  refine ⟨⟨fun id w hmap => ?_, fun w hl => ?_, fun w w' hl hl' hid => ?_⟩,
    fun m hm => ⟨Iff.rfl, fun _ => rfl, fun hw w hle hlt => ?_, Nat.le_succ _,
      fun w hw => by rw [hold w hw], fun w hw => by rw [hold w hw],
      fun w hw hd => by rw [hold w hw, hd], fun _ _ _ _ h => h, fun _ _ _ h => .inl h,
      fun w _ hl _ _ => hold w hl.lt⟩⟩
  · obtain ⟨hlt, hr, hi, hf⟩ := h.entry id w hmap
    rw [hold w hlt]
    exact ⟨Nat.lt_succ_of_lt hlt, hr, hi, hf⟩
  · rcases hcases w hl with ⟨rfl, hr⟩ | hl
    · rw [hnew, (ho hr).1]
      exact .inr (ho hr).2.writer
    · rw [Entered, hold w hl.lt]
      exact h.live w hl
  · rcases hcases w hl with ⟨rfl, hr⟩ | hl <;> rcases hcases w' hl' with ⟨rfl, hr'⟩ | hl'
    · rfl
    · rw [hnew, hold w' hl'.lt] at hid
      exact absurd hid.symm (hfresh w' hr hl')
    · rw [hnew, hold w hl.lt] at hid
      exact absurd hid (hfresh w hr' hl)
    · rw [hold w hl.lt, hold w' hl'.lt] at hid
      exact h.unique w w' hl hl' hid
  · obtain rfl : w = s.next := Nat.le_antisymm (Nat.le_of_lt_succ hlt) hle
    rw [hnew]
    by_contra hr
    have hwriter := (ho (by simpa using hr)).2.writer
    exact hm (Option.some.inj (hw.symm.trans hwriter))

/-- A new `MountFd` of thread `n`, not in the map yet. -/
structure Fresh (n id : Nat) (w : MountRef) (s : Cache) : Prop where
  writer : s.writer = some n
  settled : ∀ w', w' ≠ w → s.Live w' → s.Entered w'
  dead : ∀ w', s.map id = some w' → (s.objects w').strong = 0
  live : s.Live w
  mountId : (s.objects w).mountId = id
  owner : (s.objects w).owner = n
  freed : (s.objects w).freed = false

theorem DeadEntry.push (h : DeadEntry n id s) (hinv : s.Inv) (file : Fd) :
    Fresh n id s.next (s.push ⟨id, true, file, n, 1, false⟩) := by
  have hnew : (s.push ⟨id, true, file, n, 1, false⟩).objects s.next =
    ⟨id, true, file, n, 1, false⟩ := update_self ..
  have hold : ∀ w, w < s.next →
      (s.push ⟨id, true, file, n, 1, false⟩).objects w = s.objects w :=
    fun w hw => update_of_ne (Nat.ne_of_lt hw) ..
  refine ⟨h.writer, fun w hne hl => ?_, fun w hw => ?_,
    ⟨Nat.lt_succ_self _, by rw [hnew], by rw [hnew]; exact Nat.one_pos⟩, by rw [hnew], by rw [hnew],
    by rw [hnew]⟩
  · have hlt : w < s.next := lt_of_le_of_ne (Nat.le_of_lt_succ hl.lt) hne
    rw [Entered, hold w hlt]
    exact h.settled h.writer w ⟨hlt, hold w hlt ▸ hl.registered, hold w hlt ▸ hl.strong⟩
  · rw [hold w (hinv.entry id w hw).1]
    exact h.dead w hw

/-- The map is changed where its entry is dead, and then leads to all that is in use. -/
theorem Inv.setEntry (h : s.Inv) (hwriter : s.writer = some n)
    (hdead : ∀ w, s.map id = some w → (s.objects w).strong = 0) {o : Option MountRef}
    (ho : ∀ w, o = some w → s.Live w ∧ (s.objects w).mountId = id ∧ (s.objects w).freed = false)
    (hentered : ∀ w, s.Live w → o = some w ∨ (s.Entered w ∧ (s.objects w).mountId ≠ id)) :
    (Inv { s with map := update s.map id o } ∧
      ∀ m, m ≠ n → Rely m s { s with map := update s.map id o }) ∧
      ∀ w, Live { s with map := update s.map id o } w →
        Entered { s with map := update s.map id o } w := by
  have hall : ∀ w, Live { s with map := update s.map id o } w →
      Entered { s with map := update s.map id o } w := by
    intro w hl
    rw [Entered]
    rcases hentered w ⟨hl.1, hl.2, hl.3⟩ with hw | ⟨hw, hne⟩
    · dsimp only
      rw [(ho w hw).2.1, update_self, hw]
    · exact (update_of_ne hne ..).trans hw
  refine ⟨⟨⟨fun id' w hmap => ?_, fun w hl => .inl (hall w hl),
    fun w₁ w₂ h₁ h₂ => h.unique w₁ w₂ ⟨h₁.1, h₁.2, h₁.3⟩ ⟨h₂.1, h₂.2, h₂.3⟩⟩, fun m hm => ?_⟩, hall⟩
  · dsimp only at hmap
    by_cases hid : id' = id
    · rw [hid, update_self] at hmap
      obtain ⟨hl, hi, hf⟩ := ho w hmap
      exact ⟨hl.lt, hl.registered, hi.trans hid.symm, hf⟩
    · rw [update_of_ne hid] at hmap
      exact h.entry id' w hmap
  · have hnot : s.writer ≠ some m := fun h => hm (Option.some.inj (h.symm.trans hwriter))
    refine ⟨Iff.rfl, fun h => absurd h hnot, fun h => absurd h hnot, le_rfl, fun _ _ => rfl,
      fun _ _ => rfl, fun _ _ h => h, fun id' w _ hd hmap => ?_, fun id' w _ hmap => ?_,
      fun _ _ _ _ _ => rfl⟩
    all_goals
      dsimp only at *
      by_cases hid : id' = id
    · rw [hid, update_self] at hmap
      exact absurd hd (Nat.ne_of_gt (ho w hmap).1.strong)
    · rwa [update_of_ne hid] at hmap
    · exact .inr (hdead w (hid ▸ hmap))
    · rw [update_of_ne hid]
      exact .inl hmap

/-- It is entered. -/
theorem Inv.mapInsert (h : s.Inv) (hf : Fresh n id w s)
    (hs' : s' = { s with map := update s.map id (some w) }) :
    (s'.Inv ∧ ∀ m, m ≠ n → Rely m s s') ∧ ∀ w', s'.Live w' → s'.Entered w' := by
  subst hs'
  refine h.setEntry hf.writer hf.dead (fun w' hw' => ?_) fun w' hl => ?_
  · cases hw'
    exact ⟨hf.live, hf.mountId, hf.freed⟩
  · by_cases hne : w' = w
    · exact .inl (by rw [hne])
    · have hold := hf.settled w' hne hl
      refine .inr ⟨hold, fun hid => ?_⟩
      rw [Entered, hid] at hold
      exact Nat.ne_of_gt hl.strong (hf.dead w' hold)

/-- A dead entry is removed. -/
theorem Inv.mapRemove (h : s.Inv) (hdead : DeadEntry n id s)
    (hs' : s' = { s with map := update s.map id none }) :
    (s'.Inv ∧ ∀ m, m ≠ n → Rely m s s') ∧ Settled n s' := by
  subst hs'
  have hset := @Inv.setEntry n s id h hdead.writer hdead.dead none (by simp)
    fun w hl => .inr ⟨hdead.settled hdead.writer w hl, hdead.not_live hl⟩
  exact ⟨hset.1, fun _ => hset.2⟩

theorem Rely.live (h : Rely n s s') (hw : w < s.next) (hl : s'.Live w) : s.Live w :=
  ⟨hw, (h.registered w hw).symm.trans hl.registered,
    Nat.pos_of_ne_zero fun hd => Nat.ne_of_gt hl.strong (h.dead w hw hd)⟩

/-- While thread `n` has the lock, what is in use was in use before. -/
theorem Rely.live_of_writer (h : Rely n s s') (hn : s.writer = some n) (hl : s'.Live w) :
    s.Live w := by
  refine h.live (Nat.lt_of_not_le fun hle => ?_) hl
  have hr := hl.registered
  rw [h.made hn w hle hl.lt] at hr
  cases hr

theorem Rely.entered (h : Rely n s s') (hn : s.writer = some n) (hw : w < s.next)
    (he : s.Entered w) : s'.Entered w := by
  rw [Entered, h.map hn, h.mountId w hw]
  exact he

theorem Settled.stable : rules.Stable n (Settled n) := by
  intro s s' h _ hrely _ hwriter w hl
  have hn := hrely.writer.mp hwriter
  have hl' := hrely.live_of_writer hn hl
  exact hrely.entered hn hl'.lt (h hn w hl')

theorem DeadEntry.stable : rules.Stable n (DeadEntry n id) := by
  intro s s' h hinv hrely hinv'
  refine ⟨hrely.writer.mpr h.writer, Settled.stable s s' h.settled hinv hrely hinv', fun w hw => ?_⟩
  rw [hrely.map h.writer] at hw
  exact hrely.dead w (hinv.entry id w hw).1 (h.dead w hw)

/-- Thread `n` has the map for itself, and `r` is the entry of `id`. -/
structure Reads (n id : Nat) (r : Option MountRef) (s : Cache) : Prop where
  writer : s.writer = some n
  map : s.map id = r

theorem Reads.stable {r : Option MountRef} : rules.Stable n (Reads n id r) := by
  intro s s' h _ hrely _
  exact ⟨hrely.writer.mpr h.writer, by rw [hrely.map h.writer]; exact h.map⟩

theorem Reads.dead {r : Option MountRef} (h : Reads n id r s) (hsettled : Settled n s)
    (hr : ∀ w, r = some w → (s.objects w).strong = 0) : DeadEntry n id s :=
  ⟨h.writer, hsettled, fun w hw => hr w (h.map.symm.trans hw)⟩

theorem Fresh.absent (h : Fresh n id w s) : ¬ s.Entered w := by
  intro he
  rw [Entered, h.mountId] at he
  exact Nat.ne_of_gt h.live.strong (h.dead w he)

theorem Fresh.stable : rules.Stable n (Fresh n id w) := by
  intro s s' h hinv hrely hinv'
  have hsame := hrely.own w h.writer h.live h.absent h.owner
  refine ⟨hrely.writer.mpr h.writer, fun w' hne hl => ?_, fun w' hw' => ?_,
    ⟨lt_of_lt_of_le h.live.lt hrely.next, hsame ▸ h.live.registered, hsame ▸ h.live.strong⟩,
    hsame ▸ h.mountId, hsame ▸ h.owner, hsame ▸ h.freed⟩
  · have hl' := hrely.live_of_writer h.writer hl
    exact hrely.entered h.writer hl'.lt (h.settled w' hne hl')
  · rw [hrely.map h.writer] at hw'
    exact hrely.dead w' (hinv.entry id w' hw').1 (h.dead w' hw')

theorem Shared.stable : rules.Stable n (Shared · w) := by
  intro s s' h _ hrely _
  refine ⟨lt_of_lt_of_le h.1 hrely.next, fun hl => ?_⟩
  rw [Entered, hrely.mountId w h.1]
  exact (hrely.kept _ w h.1 (h.2 (hrely.live h.1 hl))).resolve_right (Nat.ne_of_gt hl.strong)

/-- **A `MountFd` that is handed out for `id`**: if it is in use, it is in the map. -/
structure Handed (id : Nat) (w : MountRef) (s : Cache) : Prop where
  registered : (s.objects w).registered = true
  mountId : (s.objects w).mountId = id
  shared : s.Shared w

theorem Handed.stable : rules.Stable n (Handed id w) := by
  intro s s' h hinv hrely hinv'
  exact ⟨(hrely.registered w h.shared.1).trans h.registered,
    (hrely.mountId w h.shared.1).trans h.mountId, Shared.stable s s' h.shared hinv hrely hinv'⟩

/-- A `MountFd` that is registered, or is not. -/
def Registers (b : Bool) (w : MountRef) (s : Cache) : Prop :=
  w < s.next ∧ (s.objects w).registered = b

theorem Registers.stable {b : Bool} : rules.Stable n (Registers b w) := by
  intro s s' h _ hrely _
  exact ⟨lt_of_lt_of_le h.1 hrely.next, (hrely.registered w h.1).trans h.2⟩

/-- A `MountFd` whose last pointer is gone. -/
structure Dead (w : MountRef) (s : Cache) : Prop where
  lt : w < s.next
  dead : (s.objects w).strong = 0

theorem Dead.stable : rules.Stable n (Dead w) := by
  intro s s' h _ hrely _
  exact ⟨lt_of_lt_of_le h.lt hrely.next, hrely.dead w h.lt h.dead⟩

/-- It is to be removed from the map. -/
structure Dying (id : Nat) (w : MountRef) (s : Cache) : Prop extends Dead w s where
  mountId : (s.objects w).mountId = id

theorem Dying.stable : rules.Stable n (Dying id w) := by
  intro s s' h hinv hrely hinv'
  exact ⟨Dead.stable s s' h.toDead hinv hrely hinv', (hrely.mountId w h.lt).trans h.mountId⟩

/-- It is not, or no longer, in the map. -/
structure Gone (w : MountRef) (s : Cache) : Prop extends Dead w s where
  absent : ∀ id, s.map id ≠ some w

theorem Gone.stable : rules.Stable n (Gone w) := by
  intro s s' h hinv hrely hinv'
  exact ⟨Dead.stable s s' h.toDead hinv hrely hinv',
    fun id hmap => h.absent id (hrely.inserted id w h.lt h.dead hmap)⟩

/-- A dying `MountFd` can only be in the map under its own id. -/
theorem Dying.gone (h : Dying id w s) (hinv : s.Inv) (hne : s.map id ≠ some w) : Gone w s := by
  refine ⟨h.toDead, fun id' hmap => ?_⟩
  have hid := (hinv.entry id' w hmap).2.2.1
  rw [← hid, h.mountId] at hmap
  exact hne hmap

end Cache

/-! ## 5. The operations, one by one -/

section Operations

variable {n : Nat} {w : MountRef} {id : Nat} {α : Type} {K : Cache → Prop}
  {Q : Outcome MountError Empty α → Cache → Prop}

open Cache

variable {k : Unit → MountM α}

variable (herr : ∀ e s, s.Inv → Q (.err e) s)

include herr

omit herr

end Operations

/-! ## 6. Runs of the cache -/

/-- The states of the cache, with the threads that use it. -/
abbrev Users :=
  SharedThreads MountAct MountAct.Ans MountError Empty (MountOp × Option MountRef) Cache

/-- An `Arc` is cloned or dropped only after an operation has returned it. -/
def MountOp.Allowed (σ : Users) : MountOp → Prop
  | get _ => True
  | new _ _ _ => True
  | clone w => ∃ op, ret (op, some w) ∈ σ.threads
  | drop w => ∃ op, ret (op, some w) ∈ σ.threads

/-- The threads that may be started. -/
def MayStart (σ : Users) (p : MountM (MountOp × Option MountRef)) : Prop :=
  ∃ op : MountOp, op.Allowed σ ∧ p = op.prog

/-- **What an operation returns.** -/
def MountOp.Returns (s : Cache) : MountOp → Option MountRef → Prop
  | get id, some w => s.Handed id w
  | new registered _ _, some w => s.Shared w ∧ (s.objects w).registered = registered
  | clone w, some w' => w' = w ∧ s.Shared w'
  | drop _, none => True
  | _, _ => False

theorem MountOp.Returns.shared {s : Cache} {op : MountOp} {w : MountRef}
    (h : op.Returns s (some w)) : s.Shared w := by
  cases op with
  | get id => exact Cache.Handed.shared h
  | new registered dir path => exact h.1
  | clone w' => exact h.2
  | drop w' => exact h.elim

/-- No `MountFd` was made. -/
def Cache.initial : Cache where
  map _ := none
  objects _ := ⟨0, false, 0, 0, 0, false⟩
  next := 0
  readers := []
  writer := none

/-- **The states that any interleaving can reach.** -/
abbrev Users.Reachable (σ : Users) : Prop :=
  SharedThreads.Reachable rules MayStart Cache.initial σ

/-- **The cache is right**: there is one `MountFd` in use for a mount id at most; the map leads
to it, unless the thread with the write lock has just made it; its entry is not removed; once all
those of an id have been dropped no entry is left; and what was returned is of its id, and in the
map while it is in use. -/
structure Users.Consistent (σ : Users) : Prop where
  unique : ∀ w w', σ.state.Live w → σ.state.Live w' →
    (σ.state.objects w).mountId = (σ.state.objects w').mountId → w = w'
  leads : ∀ w, σ.state.Live w → σ.state.map (σ.state.objects w).mountId = some w ∨
    σ.state.writer = some (σ.state.objects w).owner
  stays : ∀ σ', SharedThreads.Step rules MayStart σ σ' → ∀ id w, σ.state.map id = some w →
    0 < (σ.state.objects w).strong → σ'.state.map id = some w
  cleaned : ∀ id, (∀ w < σ.state.next, (σ.state.objects w).registered = true →
      (σ.state.objects w).mountId = id →
      (σ.state.objects w).strong = 0 ∧ (σ.state.objects w).freed = true) →
    σ.state.map id = none
  returns : ∀ op r, ret (op, r) ∈ σ.threads → op.Returns σ.state r

end MountFds

end Virtiofsd
