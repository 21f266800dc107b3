/-
  # Logging what is written to the guest (`descriptor_utils.rs`, `file_traits.rs`)

  While the guest is migrated, its front end has to know which of its memory has changed.  So
  whoever writes to a slice of guest memory marks it in the bitmap of the slice: `Writer::write`
  after each copy, and a vectored read after the system call, when it is known how many bytes
  the host has stored.

  The bytes that are marked are those that were stored, and they are the front of the chain
  (`dirty_exact`).
-/
import Virtiofsd.Descriptor.Streams

namespace Virtiofsd

open Lib List

/-! ## 1. Memory with a log -/

/-- What is done to guest memory. -/
inductive LogAct where
  | copy (addr : Nat) (bytes : List UInt8)
  | markDirty (vs : VolatileSlice) (offset len : Nat)
  | readv (fd : Fd) (iovecs : List VolatileSlice) (offset : Nat)

abbrev LogAct.Ans : LogAct → Type
  | copy _ _ => Unit
  | markDirty _ _ _ => Unit
  | readv _ _ _ => Except Errno Nat

/-- **Guest memory**, the addresses that were stored to and those that were marked, in order, and
what the host has to read, one call after the other. -/
structure LoggedMemory where
  memory : Memory
  stored : List Nat
  dirty : List Nat
  host : Nat → Except Errno (List UInt8)
  calls : Nat

namespace LoggedMemory

/-- Bytes are stored at some addresses. -/
def store (g : LoggedMemory) (addrs : List Nat) (bytes : List UInt8) : LoggedMemory :=
  { g with memory := g.memory.storeAt addrs bytes, stored := g.stored ++ addrs.take bytes.length }

/-- The bitmap of a slice starts where the slice starts.  A vectored read fills one slice after
the other, and a call that fails stores nothing. -/
def perform : (a : LogAct) → LoggedMemory → a.Ans × LoggedMemory
  | .copy addr bytes, g => ((), g.store (List.range' addr bytes.length) bytes)
  | .markDirty vs offset len, g =>
    ((), { g with dirty := g.dirty ++ List.range' (vs.addr + offset) len })
  | .readv _ iovecs _, g =>
    match g.host g.calls with
    | .error e => (.error e, { g with calls := g.calls + 1 })
    | .ok bytes =>
      let bytes := bytes.take (totalLen iovecs)
      (.ok bytes.length, { g.store (addrs iovecs) bytes with calls := g.calls + 1 })

end LoggedMemory

/-! ## 2. Writing -/

/-- Where a writer can panic. -/
inductive WriterPanic where
  | fileOffset
  | subtraction

abbrev LogM := Prog LogAct LogAct.Ans IoError WriterPanic

def logAct (a : LogAct) : LogM a.Ans := Prog.perform a

namespace LoggedWriter

/-- The loop of `Writer::write`. -/
def copyTo : List VolatileSlice → List UInt8 → Nat → LogM Nat
  | [], _, total => return total
  | vs :: rest, rem, total => do
    let copyLen := min rem.length vs.len
    logAct (.copy vs.addr (rem.take copyLen))
    logAct (.markDirty vs 0 copyLen)
    copyTo rest (rem.drop copyLen) (total + copyLen)

/-- `Writer::write`. -/
def write (w : Writer) (buf : List UInt8) : LogM (Nat × Writer) :=
  w.consume buf.length fun bufs => copyTo bufs buf 0

/-- The loop of `read_vectored_at_volatile` that marks what was read. -/
def markRead (bytesRead : Nat) : Nat → List VolatileSlice → LogM Unit
  | _, [] => return ()
  | total, vs :: rest =>
    if bytesRead < total then .panic .subtraction
    else do
      logAct (.markDirty vs 0 (min (bytesRead - total) vs.len))
      if total + vs.len ≥ bytesRead then return ()
      else markRead bytesRead (total + vs.len) rest

/-- `read_vectored_at_volatile`. -/
def readVectoredAtVolatile (fd : Fd) (bufs : List VolatileSlice) (offset : Nat) : LogM Nat :=
  if bufs.isEmpty then return 0
  else if 2 ^ 63 ≤ offset then .panic .fileOffset
  else do
    match ← logAct (.readv fd bufs offset) with
    | .error e => .err (.os e)
    | .ok bytesRead =>
      markRead bytesRead 0 bufs
      return bytesRead

/-- `Writer::read_from_file_at`. -/
def readFromFileAt (w : Writer) (fd : Fd) (count off : Nat) : LogM (Nat × Writer) :=
  w.consume count fun bufs => readVectoredAtVolatile fd bufs off

end LoggedWriter

/-- What is done with a writer. -/
inductive WriterOp where
  | write (buf : List UInt8)
  | readFromFileAt (fd : Fd) (count off : Nat)

def WriterOp.prog : WriterOp → Writer → LogM (Nat × Writer)
  | write buf, w => LoggedWriter.write w buf
  | readFromFileAt fd count off, w => LoggedWriter.readFromFileAt w fd count off

/-- **A sequence of operations.**  After an error the caller may go on. -/
def WriterOp.runAll : List WriterOp → Writer → LogM Writer
  | [], w => return w
  | op :: ops, w => do
    match ← (op.prog w).attempt with
    | .ok (_, w') => runAll ops w'
    | .error _ => runAll ops w

/-! ## 3. What is stored is marked -/

/-- **Stored and marked are the same**, and nothing else has changed. -/
structure LoggedMemory.Tracks (m : Memory) (front : List Nat) (g : LoggedMemory) : Prop where
  stored : g.stored = front
  dirty : g.dirty = front
  same : ∀ a, a ∉ front → g.memory a = m a

variable {m : Memory} {front : List Nat} {g : LoggedMemory}

open LoggedMemory

/-- Bytes that are stored at the addresses of slices, and then marked. -/
theorem LoggedMemory.Tracks.store (h : g.Tracks m front) (bufs : List VolatileSlice)
    (bytes : List UInt8) {g' : LoggedMemory}
    (hmemory : g'.memory = g.memory.storeAt (addrs bufs) bytes)
    (hstored : g'.stored = g.stored ++ (addrs bufs).take bytes.length)
    (hdirty : g'.dirty = g.dirty ++ (addrs bufs).take bytes.length) :
    g'.Tracks m (front ++ (addrs bufs).take bytes.length) := by
  refine ⟨by rw [hstored, h.stored], by rw [hdirty, h.dirty], fun a ha => ?_⟩
  rw [mem_append, not_or] at ha
  rw [hmemory, ← Memory.storeAt_take, Memory.storeAt_of_notMem ha.2]
  exact h.same a ha.1

theorem copyTo_run : ∀ (bufs : List VolatileSlice) (rem : List UInt8) (total : Nat)
    (g : LoggedMemory), (LoggedWriter.copyTo bufs rem total).run perform g =
      (.ok (total + min rem.length (totalLen bufs)), { g with
        memory := g.memory.storeAt (addrs bufs) rem
        stored := g.stored ++ (addrs bufs).take rem.length
        dirty := g.dirty ++ (addrs bufs).take rem.length })
  | [], rem, total, g => by
    simp [LoggedWriter.copyTo]
  | vs :: rest, rem, total, g => by
    have hlen : (rem.take (min rem.length vs.len)).length = min rem.length vs.len := by
      simp
    have htake : (addrs (vs :: rest)).take rem.length =
        range' vs.addr (min rem.length vs.len) ++
          (addrs rest).take (rem.drop (min rem.length vs.len)).length := by
      rw [addrs_cons, take_append, length_range', take_range', length_drop]
      congr 2
      omega
    have htotal : total + min rem.length vs.len +
        min (rem.drop (min rem.length vs.len)).length (totalLen rest) =
        total + min rem.length (totalLen (vs :: rest)) := by
      rw [length_drop, totalLen_cons]
      omega
    refine (copyTo_run rest _ _ _).trans ?_
    rw [htotal, htake, ← storeAt_addrs_cons]
    simp [LoggedMemory.perform, LoggedMemory.store, hlen]

theorem markRead_run (bytesRead : Nat) : ∀ (bufs : List VolatileSlice) (total : Nat)
    (g : LoggedMemory), total ≤ bytesRead →
      (LoggedWriter.markRead bytesRead total bufs).run perform g =
        (.ok (), { g with dirty := g.dirty ++ (addrs bufs).take (bytesRead - total) })
  | [], total, g, _ => by
    simp [LoggedWriter.markRead]
  | vs :: rest, total, g, hle => by
    have htake : (addrs (vs :: rest)).take (bytesRead - total) =
        range' vs.addr (min (bytesRead - total) vs.len) ++
          (addrs rest).take (bytesRead - (total + vs.len)) := by
      rw [addrs_cons, take_append, length_range', take_range', Nat.sub_sub]
    rw [LoggedWriter.markRead, if_neg (Nat.not_lt.mpr hle), htake]
    show Prog.run perform (if total + vs.len ≥ bytesRead then .ret ()
      else LoggedWriter.markRead bytesRead (total + vs.len) rest)
        { g with dirty := g.dirty ++ range' (vs.addr + 0) (min (bytesRead - total) vs.len) } = _
    by_cases hend : total + vs.len ≥ bytesRead
    · -- The last slice that was reached.
      rw [if_pos hend, Nat.sub_eq_zero_of_le hend, take_zero, append_nil]
      rfl
    · rw [if_neg hend, markRead_run bytesRead rest _ _ (Nat.le_of_not_le hend),
        append_assoc]
      rfl

/-! ## 4. One operation -/

/-- The outcome of an operation on the chain `w`, in which `front` was used before. -/
def Tracked (m : Memory) (front : List Nat) (w : Writer) :
    Outcome IoError WriterPanic (Nat × Writer) × LoggedMemory → Prop
  | (.ok (n, w'), g) => g.Tracks m (front ++ (addrs w.buffers).take n) ∧
      w'.stream = w.stream.advance n ∧ n ≤ w.availableBytes
  | (.err _, g) => g.Tracks m front
  | (.panic _, g) => g.Tracks m front

theorem write_tracked (h : g.Tracks m front) (w : Writer) (buf : List UInt8) :
    Tracked m front w ((LoggedWriter.write w buf).run perform g) := by
  have hcopy := copyTo_run (handed buf.length w.buffers) buf 0 g
  rw [Nat.zero_add, min_totalLen_handed, take_addrs_handed, storeAt_handed] at hcopy
  have hnil : handed buf.length w.buffers = [] →
      min buf.length (totalLen w.buffers) = 0 ∧ ({ g with
        memory := g.memory.storeAt (addrs w.buffers) buf
        stored := g.stored ++ (addrs w.buffers).take buf.length
        dirty := g.dirty ++ (addrs w.buffers).take buf.length } : LoggedMemory) = g := by
    intro hempty
    rcases handed_eq_nil_iff.mp hempty with hzero | hnil
    · rw [length_eq_zero_iff.mp hzero]
      simp
    · simp [hnil]
  obtain ⟨w', hrun, hstream⟩ := consume_run (f := fun bufs => LoggedWriter.copyTo bufs buf 0)
    hcopy hnil (Nat.min_le_right _ _)
  have htake : (addrs w.buffers).take (min buf.length (totalLen w.buffers)) =
      (addrs w.buffers).take buf.length := by
    rw [← length_addrs, take_eq_take_min]
    simp
  unfold LoggedWriter.write
  rw [hrun]
  refine ⟨?_, hstream, Nat.min_le_right _ _⟩
  rw [htake]
  exact h.store w.buffers buf rfl rfl rfl

variable {f : List VolatileSlice → LogM Nat}

/-- A function that fails uses up nothing. -/
theorem consume_run_err {c : DescriptorChainConsumer} {count : Nat} {g g' : LoggedMemory}
    {e : IoError} (hne : handed count c.buffers ≠ [])
    (hf : (f (handed count c.buffers)).run perform g = (.err e, g')) :
    (c.consume count f).run perform g = (.err e, g') := by
  unfold DescriptorChainConsumer.consume
  rw [collect_eq_handed, Nat.sub_zero, if_neg (by simpa using hne)]
  exact Prog.run_bind_of_err _ hf

theorem consume_run_panic {c : DescriptorChainConsumer} {count : Nat} {g : LoggedMemory}
    {q : WriterPanic} (hne : handed count c.buffers ≠ [])
    (hf : f (handed count c.buffers) = .panic q) :
    (c.consume count f).run perform g = (.panic q, g) := by
  unfold DescriptorChainConsumer.consume
  rw [collect_eq_handed, Nat.sub_zero, if_neg (by simpa using hne), hf]
  rfl

/-- The slices that are handed out are the front of the chain. -/
theorem addrs_handed_prefix (bufs : List VolatileSlice) : ∀ count,
    addrs (handed count bufs) <+: addrs bufs := by
  induction bufs with
  | nil => exact fun _ => prefix_rfl
  | cons vs rest ih =>
    intro count
    unfold handed
    split
    · exact nil_prefix
    · rw [addrs_cons, addrs_cons]
      exact (prefix_append_right_inj _).mpr (ih _)

/-- What a vectored read does to the slices it is given. -/
theorem readVectoredAtVolatile_run (fd : Fd) {bufs : List VolatileSlice} {offset : Nat}
    (hne : bufs ≠ []) (hoffset : ¬ 2 ^ 63 ≤ offset) (g : LoggedMemory) :
    (LoggedWriter.readVectoredAtVolatile fd bufs offset).run perform g =
      match g.host g.calls with
      | .error e => (.err (.os e), { g with calls := g.calls + 1 })
      | .ok bytes => (.ok (min bytes.length (totalLen bufs)), { g with
          memory := g.memory.storeAt (addrs bufs) (bytes.take (totalLen bufs))
          stored := g.stored ++ (addrs bufs).take (min bytes.length (totalLen bufs))
          dirty := g.dirty ++ (addrs bufs).take (min bytes.length (totalLen bufs))
          calls := g.calls + 1 }) := by
  unfold LoggedWriter.readVectoredAtVolatile
  rw [if_neg (by simpa using hne), if_neg hoffset, Prog.bind_eq]
  cases hhost : g.host g.calls with
  | error e =>
    have hreadv : (logAct (.readv fd bufs offset)).run perform g =
        (.ok (.error e), { g with calls := g.calls + 1 }) := by
      simp [logAct, Prog.perform, LoggedMemory.perform, hhost]
    exact (Prog.run_bind_of_ok _ hreadv).trans rfl
  | ok bytes =>
    have hlen : (bytes.take (totalLen bufs)).length = min bytes.length (totalLen bufs) := by
      rw [length_take, Nat.min_comm]
    have hreadv : (logAct (.readv fd bufs offset)).run perform g =
        (.ok (.ok (min bytes.length (totalLen bufs))),
          { g.store (addrs bufs) (bytes.take (totalLen bufs)) with calls := g.calls + 1 }) := by
      rw [← hlen]
      simp [logAct, Prog.perform, LoggedMemory.perform, hhost]
    refine (Prog.run_bind_of_ok _ hreadv).trans ?_
    refine (Prog.run_bind_of_ok _ (markRead_run _ bufs 0 _ (Nat.zero_le _))).trans ?_
    unfold LoggedMemory.store
    rw [hlen]
    rfl

theorem readFromFileAt_tracked (h : g.Tracks m front) (w : Writer) (fd : Fd) (count off : Nat) :
    Tracked m front w ((LoggedWriter.readFromFileAt w fd count off).run perform g) := by
  unfold LoggedWriter.readFromFileAt
  by_cases hne : handed count w.buffers = []
  · -- Nothing is asked for, or there is no room.
    have hrun : (w.consume count fun bufs =>
        LoggedWriter.readVectoredAtVolatile fd bufs off).run perform g = (.ok (0, w), g) := by
      unfold DescriptorChainConsumer.consume
      rw [collect_eq_handed, Nat.sub_zero, hne]
      rfl
    rw [hrun]
    refine ⟨?_, w.stream.advance_zero.symm, Nat.zero_le _⟩
    rw [take_zero, append_nil]
    exact h
  by_cases hoffset : 2 ^ 63 ≤ off
  · have hpanic : LoggedWriter.readVectoredAtVolatile fd (handed count w.buffers) off =
        .panic .fileOffset := by
      unfold LoggedWriter.readVectoredAtVolatile
      rw [if_neg (by simpa using hne), if_pos hoffset]
    rw [consume_run_panic (f := fun bufs => LoggedWriter.readVectoredAtVolatile fd bufs off) hne
      hpanic]
    exact h
  have hread := readVectoredAtVolatile_run fd hne hoffset g
  cases hhost : g.host g.calls with
  | error e =>
    rw [hhost] at hread
    rw [consume_run_err (f := fun bufs => LoggedWriter.readVectoredAtVolatile fd bufs off) hne
      hread]
    exact ⟨h.stored, h.dirty, h.same⟩
  | ok bytes =>
    rw [hhost] at hread
    have hle : min bytes.length (totalLen (handed count w.buffers)) ≤ w.availableBytes :=
      le_trans (Nat.min_le_right _ _) (totalLen_handed_le w.buffers count)
    obtain ⟨w', hrun, hstream⟩ :=
      consume_run (f := fun bufs => LoggedWriter.readVectoredAtVolatile fd bufs off) hread
        (fun hnil => absurd hnil hne) hle
    rw [hrun]
    refine ⟨?_, hstream, hle⟩
    obtain ⟨rest, hrest⟩ := addrs_handed_prefix w.buffers count
    have hlen : (bytes.take (totalLen (handed count w.buffers))).length =
        min bytes.length (totalLen (handed count w.buffers)) := by
      rw [length_take, Nat.min_comm]
    rw [← hrest, take_append_of_le_length (by rw [length_addrs]; exact Nat.min_le_right _ _),
      ← hlen]
    refine h.store (handed count w.buffers) _ rfl ?_ ?_ <;> rw [hlen]

theorem WriterOp.tracked (h : g.Tracks m front) (op : WriterOp) (w : Writer) :
    Tracked m front w ((op.prog w).run perform g) := by
  cases op with
  | write buf => exact write_tracked h w buf
  | readFromFileAt fd count off => exact readFromFileAt_tracked h w fd count off

/-! ## 5. Sequences of operations -/

/-- The outcome of a sequence of operations. -/
def TrackedAll (m : Memory) (front : List Nat) (w : Writer)
    (r : Outcome IoError WriterPanic Writer × LoggedMemory) : Prop :=
  ∃ n, r.2.Tracks m (front ++ (addrs w.buffers).take n) ∧
    ∀ w', r.1 = .ok w' → w'.bytesConsumed = w.bytesConsumed + n

theorem WriterOp.runAll_tracked : ∀ (ops : List WriterOp) {front : List Nat} {g : LoggedMemory}
    (w : Writer), g.Tracks m front → TrackedAll m front w ((runAll ops w).run perform g)
  | [], front, g, w, h => by
    refine ⟨0, ?_, fun w' hw' => ?_⟩
    · rw [take_zero, append_nil]
      exact h
    · cases hw'
      rfl
  | op :: ops, front, g, w, h => by
    have hop := op.tracked h w
    have hattempt := Prog.run_attempt (h := perform) (op.prog w) g
    rw [runAll, Prog.bind_eq]
    generalize (op.prog w).run perform g = r at hop hattempt
    obtain ⟨o, g'⟩ := r
    cases o with
    | ok a =>
      obtain ⟨n, w'⟩ := a
      obtain ⟨htracks, hstream, hn⟩ := hop
      rw [Prog.run_bind_of_ok _ hattempt]
      obtain ⟨n', htracks', hend⟩ := runAll_tracked ops w' htracks
      have haddrs : addrs w'.buffers = (addrs w.buffers).drop n := congrArg Stream.rest hstream
      have hconsumed : w'.bytesConsumed = w.bytesConsumed + n := by
        have hmin : min n (addrs w.buffers).length = n := by
          rw [length_addrs]
          exact Nat.min_eq_left hn
        have hadvance := congrArg Stream.consumed hstream
        exact hadvance.trans (congrArg (w.bytesConsumed + ·) hmin)
      refine ⟨n + n', ?_, fun w'' hw'' => ?_⟩
      · rw [haddrs, append_assoc, ← take_add] at htracks'
        exact htracks'
      · rw [hend w'' hw'', hconsumed, Nat.add_assoc]
    | err e =>
      rw [Prog.run_bind_of_ok _ hattempt]
      exact runAll_tracked ops w hop
    | panic q =>
      have hpanic : ((op.prog w).attempt.bind fun r => match r with
          | .ok (_, w') => runAll ops w'
          | .error _ => runAll ops w).run perform g = (.panic q, g') := by
        rw [Prog.run_bind, hattempt]
      rw [hpanic]
      refine ⟨0, ?_, nofun⟩
      rw [take_zero, append_nil]
      exact hop

/-- **Dirty logging is exact**: after every sequence of operations the bytes that are marked are
those that were stored, one by one from the front of the chain, and nothing else has changed. -/
theorem dirty_exact (w : Writer) (ops : List WriterOp) (m : Memory)
    (host : Nat → Except Errno (List UInt8)) :
    let r := (WriterOp.runAll ops w).run perform ⟨m, [], [], host, 0⟩
    ∃ n, r.2.stored = (addrs w.buffers).take n ∧ r.2.dirty = (addrs w.buffers).take n ∧
      (∀ a, r.2.memory a ≠ m a → a ∈ r.2.dirty) ∧
      ∀ w', r.1 = .ok w' → w'.bytesConsumed = w.bytesConsumed + n := by
  intro r
  obtain ⟨n, htracks, hend⟩ := WriterOp.runAll_tracked (g := ⟨m, [], [], host, 0⟩) ops w
    (⟨rfl, rfl, fun _ _ => rfl⟩ : Tracks m [] _)
  refine ⟨n, htracks.stored, htracks.dirty, fun a ha => ?_, hend⟩
  rw [htracks.dirty]
  exact not_not.mp fun hnot => ha (htracks.same a hnot)

end Virtiofsd
