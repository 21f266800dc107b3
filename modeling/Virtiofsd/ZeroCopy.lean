/-
  # Zero-copy I/O (`file_traits.rs`, `ZcReader` and `ZcWriter` in `server.rs`)

  The data of a READ or WRITE request moves between the file and the guest's memory without
  a copy in the daemon: the slices of the descriptor chain are the I/O vectors of the system
  call.  The call is repeated until all bytes are moved or none are.

  `Exact` is what the callers count on: no call is handed more than what is left of the
  request, all file ranges lie inside the one that was asked for, and the result is the
  number of bytes that were moved; there is an error only if there were none.  This holds
  exactly if (`zero_copy_exact_iff`)

  * the chain ends within the request, or has a boundary where the request ends;
  * no call fails after another one has moved bytes;
  * no call is made at an offset that is not an `i64`.
-/
import Virtiofsd.Descriptor
import Virtiofsd.Passthrough.Ledger

namespace Virtiofsd

open Lib Prog

/-! ## 1. The loop -/

/-- From the file to the guest, or from the guest to the file. -/
inductive Transfer where
  | read
  | write (append : Bool)
  deriving DecidableEq

namespace Transfer

/-- `readv_at` and `writev_at`. -/
def vectored (t : Transfer) (fd : Fd) (iovecs : List VolatileSlice) (offset : Nat) :
    NeutralM (Except Errno Nat) :=
  match t with
  | .read => host (.preadv fd iovecs offset)
  | .write append => host (.pwritev fd iovecs offset append)

/-- `read_vectored_at_volatile` and `write_vectored_at_volatile`. -/
def vectoredAtVolatile (t : Transfer) (fd : Fd) (bufs : List VolatileSlice) (offset : Nat) :
    NeutralM Nat :=
  if bufs.isEmpty then return 0
  else if 2 ^ 63 ≤ offset then .panic .fileOffset
  else do errno (← t.vectored fd bufs offset)

/-- The texts of the two errors of the loop. -/
def wrapAround : Transfer → String
  | .read => "Read wrap-around"
  | .write _ => "Write wrap-around"

def moreThanRequested : Transfer → String
  | .read => "Read operation wrote more than requested"
  | .write _ => "Write operation wrote more than requested"

/-- The loop of `read_from_file_at` and `write_to_file_at`.  Every round but the last makes
`count` smaller, so it also bounds the rounds. -/
def loop (t : Transfer) (fd : Fd) (start : Nat) :
    Nat → DescriptorChainConsumer → Nat → Nat → NeutralM Nat
  | 0, _, _, off => return off - start
  | fuel + 1, c, count, off =>
    if count = 0 then return off - start
    else do
      let (moved, c') ← c.consume count fun bufs => t.vectoredAtVolatile fd bufs off
      if moved = 0 then return off - start
      else if 2 ^ 64 ≤ off + moved then .err (.other t.wrapAround)
      else if count < moved then .err (.other t.moreThanRequested)
      else t.loop fd start fuel c' (count - moved) (off + moved)

end Transfer

/-- `ZcWriter::read_from_file_at`. -/
def DescriptorChainConsumer.zcWriter (c : DescriptorChainConsumer) : ZeroCopyWriter where
  readFromFileAt fd count off := Transfer.read.loop fd off count c count off

/-- `ZcReader::write_to_file_at`. -/
def DescriptorChainConsumer.zcReader (c : DescriptorChainConsumer) : ZeroCopyReader where
  writeToFileAt fd count off append := (Transfer.write append).loop fd off count c count off

/-- The transfer of a READ or WRITE request. -/
def Transfer.move (t : Transfer) (c : DescriptorChainConsumer) (fd : Fd) (count off : Nat) :
    NeutralM Nat :=
  match t with
  | .read => c.zcWriter.readFromFileAt fd count off
  | .write append => c.zcReader.writeToFileAt fd count off append

theorem Transfer.move_eq (t : Transfer) (c : DescriptorChainConsumer) (fd : Fd)
    (count off : Nat) : t.move c fd count off = t.loop fd off count c count off := by
  cases t <;> rfl

/-! ## 2. What is counted on -/

/-- One vectored call. -/
structure VectoredCall where
  iovecs : List VolatileSlice
  offset : Nat
  outcome : Except Errno Nat

/-- What a host was willing to do: nothing, if the call fails. -/
def amount : Except Errno Nat → Nat
  | .ok n => n
  | .error _ => 0

/-- The vectored calls of a run. -/
def vectoredCalls : List (Sigma NeutralAct.Ans) → List VectoredCall
  | [] => []
  | ⟨.host (.preadv _ iovecs offset), r⟩ :: rest => ⟨iovecs, offset, r⟩ :: vectoredCalls rest
  | ⟨.host (.pwritev _ iovecs offset _), r⟩ :: rest => ⟨iovecs, offset, r⟩ :: vectoredCalls rest
  | _ :: rest => vectoredCalls rest

/-- The bytes that were moved. -/
def movedBy (calls : List VectoredCall) : Nat := (calls.map fun c => amount c.outcome).sum

/-- **A transfer that moves what was asked and reports what was moved.** -/
structure Exact (offset count : Nat) (calls : List VectoredCall)
    (result : Outcome IoError LocalPanic Nat) : Prop where
  /-- No call is handed more than what is left of the request. -/
  handed : ∀ before c after, calls = before ++ c :: after →
    movedBy before + totalLen c.iovecs ≤ count
  /-- The file range lies inside the one that was asked for. -/
  range : ∀ c ∈ calls, 0 < amount c.outcome →
    offset ≤ c.offset ∧ c.offset + amount c.outcome ≤ offset + count
  /-- The result is what was moved. -/
  reported : result = .ok (movedBy calls) ∨ (∃ e, result = .err e) ∧ movedBy calls = 0

/-! ## 3. Hosts -/

/-- What a host does that transfers `outcome` bytes, as far as the slices go, or fails. -/
def transferred (outcome : Except Errno Nat) (iovecs : List VolatileSlice) : Except Errno Nat :=
  outcome.map fun n => min n (totalLen iovecs)

/-- **The host's outcomes, one vectored call after the other.** -/
def World.Transfers (w : World) (t : Transfer) (outcomes : Nat → Except Errno Nat) : Prop :=
  match t with
  | .read => ∀ k fd iovecs offset,
      w.oracle (w.calls + k) (.preadv fd iovecs offset) = transferred (outcomes k) iovecs
  | .write append => ∀ k fd iovecs offset,
      w.oracle (w.calls + k) (.pwritev fd iovecs offset append) = transferred (outcomes k) iovecs

/-- Performing the actions of a program that touches no inode reference. -/
def World.performNeutral (a : NeutralAct) (w : World) : a.Ans × World := w.perform (.neutral a)

/-- The vectored calls of a run, and how it ends. -/
def observe {α : Type} (p : NeutralM α) (w : World) :
    List VectoredCall × Outcome IoError LocalPanic α × World :=
  (vectoredCalls (p.trace World.performNeutral w), p.run World.performNeutral w)

/-- The world after one more call. -/
def World.called (w : World) : World := { w with calls := w.calls + 1 }

/-- What the host was willing to do in the first `k` calls. -/
def requested (outcomes : Nat → Except Errno Nat) (k : Nat) : Nat :=
  ((List.range k).map fun i => amount (outcomes i)).sum

/-- **The `k`th call is made**: the first one if there is anything to do at all; another one
if all calls before have moved bytes, and there is room for more. -/
def CallMade (bufs : List VolatileSlice) (count : Nat) (outcomes : Nat → Except Errno Nat) :
    Nat → Prop
  | 0 => 0 < count ∧ bufs ≠ []
  | k + 1 => (∀ i ≤ k, 0 < amount (outcomes i)) ∧
      requested outcomes (k + 1) < min count (totalLen bufs)

/-- **No call is made at an offset that is not an `i64`, and none fails but the first.** -/
def Smooth (bufs : List VolatileSlice) (count offset : Nat)
    (outcomes : Nat → Except Errno Nat) : Prop :=
  ∀ k, CallMade bufs count outcomes k → offset + requested outcomes k < 2 ^ 63 ∧
    (0 < k → ∃ n, outcomes k = .ok n)

/-! ## 4. One round -/

section

variable {t : Transfer} {fd : Fd} {w : World} {outcomes : Nat → Except Errno Nat}
  {c : DescriptorChainConsumer} {count off start : Nat}

theorem vectoredCalls_append (l l' : List (Sigma NeutralAct.Ans)) :
    vectoredCalls (l ++ l') = vectoredCalls l ++ vectoredCalls l' := by
  induction l using vectoredCalls.induct with
  | case1 => rfl
  | case2 _ _ _ _ _ ih | case3 _ _ _ _ _ _ ih => exact congrArg (_ :: ·) ih
  | case4 a rest h₁ h₂ ih =>
    rw [List.cons_append, vectoredCalls.eq_4 _ _ h₁ h₂, vectoredCalls.eq_4 _ _ h₁ h₂]
    exact ih

theorem World.Transfers.called (hw : w.Transfers t outcomes) :
    w.called.Transfers t fun k => outcomes (k + 1) := by
  cases t with
  | read | write =>
    intro k fd iovecs offset
    rw [← hw (k + 1) fd iovecs offset, World.called, Nat.add_right_comm, Nat.add_assoc]

theorem observe_vectored (hw : w.Transfers t outcomes) (fd : Fd) (bufs : List VolatileSlice)
    (off : Nat) : observe (t.vectored fd bufs off) w =
      ([⟨bufs, off, transferred (outcomes 0) bufs⟩], .ok (transferred (outcomes 0) bufs),
        w.called) := by
  cases t with
  | read | write =>
    exact congrArg (fun r => ([VectoredCall.mk bufs off r], Outcome.ok r, w.called))
      (hw 0 fd bufs off)

variable {calls : List VectoredCall}

theorem observe_bind_of_ok {α β : Type} {p : NeutralM α} {f : α → NeutralM β} {a : α} {w' : World}
    (h : observe p w = (calls, .ok a, w')) :
    observe (p.bind f) w = (calls ++ (observe (f a) w').1, (observe (f a) w').2) := by
  obtain ⟨hcalls, hrun⟩ := Prod.mk.inj h
  unfold observe
  rw [trace_bind, vectoredCalls_append, hcalls, hrun, run_bind_of_ok _ hrun]

theorem observe_bind_of_err {α β : Type} {p : NeutralM α} {f : α → NeutralM β} {e : IoError}
    {w' : World} (h : observe p w = (calls, .err e, w')) :
    observe (p.bind f) w = (calls, .err e, w') := by
  obtain ⟨hcalls, hrun⟩ := Prod.mk.inj h
  unfold observe
  rw [trace_bind, vectoredCalls_append, hcalls, hrun, run_bind_of_err _ hrun]
  simp [vectoredCalls]

theorem observe_bind_of_panic {α β : Type} {p : NeutralM α} {f : α → NeutralM β} {q : LocalPanic}
    {w' : World} (h : observe p w = (calls, .panic q, w')) :
    observe (p.bind f) w = (calls, .panic q, w') := by
  obtain ⟨hcalls, hrun⟩ := Prod.mk.inj h
  unfold observe
  rw [trace_bind, vectoredCalls_append, hcalls, run_bind, hrun]
  simp [vectoredCalls]

/-- **One round of the loop.**  `n` is what the call has moved. -/
inductive Round (t : Transfer) (outcomes : Nat → Except Errno Nat) (c : DescriptorChainConsumer)
    (count off : Nat) (w : World) :
    List VectoredCall × Outcome IoError LocalPanic (Nat × DescriptorChainConsumer) × World →
      Prop where
  | idle (h : count = 0 ∨ c.buffers = []) : Round t outcomes c count off w ([], .ok (0, c), w)
  | panicked (h : ¬ (count = 0 ∨ c.buffers = [])) (hoff : 2 ^ 63 ≤ off) :
      Round t outcomes c count off w ([], .panic .fileOffset, w)
  | failed (h : ¬ (count = 0 ∨ c.buffers = [])) (hoff : off < 2 ^ 63) {e : Errno}
      (he : outcomes 0 = .error e) : Round t outcomes c count off w
        ([⟨handed count c.buffers, off, .error e⟩], .err (.os e), w.called)
  | moved (h : ¬ (count = 0 ∨ c.buffers = [])) (hoff : off < 2 ^ 63) {m n : Nat}
      (hm : outcomes 0 = .ok m) (hn : n = min m (totalLen (handed count c.buffers)))
      (hfits : c.bytesConsumed + n < usizeSize) : Round t outcomes c count off w
        ([⟨handed count c.buffers, off, .ok n⟩], .ok (n, c.moveOn n hfits), w.called)

theorem consume_round (hw : w.Transfers t outcomes) (fd : Fd) (c : DescriptorChainConsumer)
    (count off : Nat) : Round t outcomes c count off w
      (observe (c.consume count fun bufs => t.vectoredAtVolatile fd bufs off) w) := by
  unfold DescriptorChainConsumer.consume
  simp only [collect_eq_handed, Nat.sub_zero, List.isEmpty_iff, handed_eq_nil_iff]
  split
  · rename_i h
    exact .idle h
  · rename_i h
    have hne : handed count c.buffers ≠ [] := by rwa [ne_eq, handed_eq_nil_iff]
    rw [bind_eq]
    unfold Transfer.vectoredAtVolatile
    rw [if_neg (by simpa using hne)]
    by_cases hoff : 2 ^ 63 ≤ off
    · rw [if_pos hoff, observe_bind_of_panic rfl]
      exact .panicked h hoff
    · rw [if_neg hoff]
      have hcall := observe_vectored hw fd (handed count c.buffers) off
      cases hout : outcomes 0 with
      | error e =>
        rw [hout] at hcall
        have hvec : observe (do errno (← t.vectored fd (handed count c.buffers) off)) w =
            ([⟨handed count c.buffers, off, .error e⟩], .err (.os e), w.called) :=
          observe_bind_of_ok hcall
        rw [observe_bind_of_err hvec]
        exact .failed h (Nat.lt_of_not_le hoff) hout
      | ok m =>
        rw [hout] at hcall
        have hvec : observe (do errno (← t.vectored fd (handed count c.buffers) off)) w =
            ([⟨handed count c.buffers, off, .ok (min m (totalLen (handed count c.buffers)))⟩],
              .ok (min m (totalLen (handed count c.buffers))), w.called) :=
          observe_bind_of_ok hcall
        have hfits : c.bytesConsumed + min m (totalLen (handed count c.buffers)) < usizeSize := by
          have := c.fits
          have := totalLen_handed_le c.buffers count
          omega
        rw [observe_bind_of_ok hvec, dif_pos hfits]
        exact .moved h (Nat.lt_of_not_le hoff) hout rfl hfits

/-! ## 5. The rounds of an aligned chain -/

/-- **How the loop goes on**, if the chain has a boundary where the request ends. -/
inductive Turn (t : Transfer) (fd : Fd) (start fuel : Nat) (outcomes : Nat → Except Errno Nat)
    (c : DescriptorChainConsumer) (count off : Nat) (w : World) :
    List VectoredCall × Outcome IoError LocalPanic Nat × World → Prop where
  | idle (h : count = 0 ∨ c.buffers = []) :
      Turn t fd start fuel outcomes c count off w ([], .ok (off - start), w)
  | panicked (h : ¬ (count = 0 ∨ c.buffers = [])) (hoff : 2 ^ 63 ≤ off) :
      Turn t fd start fuel outcomes c count off w ([], .panic .fileOffset, w)
  | failed (h : ¬ (count = 0 ∨ c.buffers = [])) (hoff : off < 2 ^ 63) {e : Errno}
      (he : outcomes 0 = .error e) : Turn t fd start fuel outcomes c count off w
        ([⟨handed count c.buffers, off, .error e⟩], .err (.os e), w.called)
  | ended (h : ¬ (count = 0 ∨ c.buffers = [])) (hoff : off < 2 ^ 63) {m : Nat}
      (hm : outcomes 0 = .ok m) (hzero : min m (min count (totalLen c.buffers)) = 0) :
      Turn t fd start fuel outcomes c count off w
        ([⟨handed count c.buffers, off, .ok 0⟩], .ok (off - start), w.called)
  | again (h : ¬ (count = 0 ∨ c.buffers = [])) (hoff : off < 2 ^ 63) {m n : Nat}
      (hm : outcomes 0 = .ok m) (hn : n = min m (min count (totalLen c.buffers))) (hpos : 0 < n)
      (hfits : c.bytesConsumed + n < usizeSize) {calls : List VectoredCall}
      {res : Outcome IoError LocalPanic Nat × World}
      (hrest : observe (t.loop fd start (fuel - 1) (c.moveOn n hfits) (count - n) (off + n))
        w.called = (calls, res)) :
      Turn t fd start fuel outcomes c count off w
        (⟨handed count c.buffers, off, .ok n⟩ :: calls, res)

theorem loop_turn (hw : w.Transfers t outcomes) (fd : Fd) (start off : Nat) {fuel : Nat}
    (hfuel : count ≤ fuel) (hcount : count < 2 ^ 32) (hal : Aligned c.buffers count) :
    Turn t fd start fuel outcomes c count off w (observe (t.loop fd start fuel c count off) w) := by
  cases fuel with
  | zero => exact .idle (.inl (Nat.le_zero.mp hfuel))
  | succ fuel =>
    unfold Transfer.loop
    split
    · rename_i hzero
      exact .idle (.inl hzero)
    · rename_i hzero
      have hround := consume_round hw fd c count off
      rw [bind_eq]
      rcases hobs : observe (c.consume count fun bufs => t.vectoredAtVolatile fd bufs off) w with
        ⟨calls, res, w'⟩
      rw [hobs] at hround
      cases hround with
      | idle h =>
        rw [observe_bind_of_ok hobs]
        exact .idle h
      | panicked h hoff =>
        rw [observe_bind_of_panic hobs]
        exact .panicked h hoff
      | failed h hoff he =>
        rw [observe_bind_of_err hobs]
        exact .failed h hoff he
      | moved h hoff hm hn hfits =>
        rw [totalLen_handed hal] at hn
        rw [observe_bind_of_ok hobs]
        dsimp only
        split
        · rename_i hn₀
          subst hn₀
          exact .ended h hoff hm hn.symm
        · rename_i hn₀
          -- what was moved is no more than what was asked for, so neither check fails
          rw [if_neg (by omega), if_neg (by omega)]
          exact .again h hoff hm hn (Nat.pos_of_ne_zero hn₀) hfits rfl

/-- The state after a round is one of the same kind. -/
theorem aligned_moveOn {n : Nat} (hal : Aligned c.buffers count)
    (hfits : c.bytesConsumed + n < usizeSize) (hn : n ≤ count) :
    Aligned (c.moveOn n hfits).buffers (count - n) :=
  hal.advance hn

/-! ## 6. An aligned chain stays within the request -/

/-- The calls stay within the request, at `off`. -/
structure Within (off count : Nat) (calls : List VectoredCall) : Prop where
  handed : ∀ before x after, calls = before ++ x :: after →
    movedBy before + totalLen x.iovecs ≤ count
  range : ∀ x ∈ calls, off ≤ x.offset ∧ x.offset + amount x.outcome ≤ off + count

theorem Within.nil : Within off count [] where
  handed before x after h := by simp at h
  range x h := by simp at h

theorem Within.cons {x : VectoredCall} (hoff : x.offset = off) (hlen : totalLen x.iovecs ≤ count)
    (hn : amount x.outcome ≤ count)
    (h : Within (off + amount x.outcome) (count - amount x.outcome) calls) :
    Within off count (x :: calls) where
  handed before y after hsplit := by
    cases before with
    | nil =>
      obtain ⟨rfl, -⟩ := List.cons.inj hsplit
      simpa [movedBy] using hlen
    | cons z before =>
      obtain ⟨rfl, hrest⟩ := List.cons.inj hsplit
      have := h.handed before y after hrest
      have hmoved : movedBy (x :: before) = amount x.outcome + movedBy before := by simp [movedBy]
      omega
  range y hy := by
    rcases List.mem_cons.mp hy with rfl | hy
    · omega
    · have := h.range y hy
      omega

theorem loop_within (fd : Fd) (start : Nat) : ∀ (fuel off : Nat)
    {outcomes : Nat → Except Errno Nat} {w : World} {c : DescriptorChainConsumer} {count : Nat},
    w.Transfers t outcomes →
    count ≤ fuel → count < 2 ^ 32 → Aligned c.buffers count →
      Within off count (observe (t.loop fd start fuel c count off) w).1
  | fuel, off, outcomes, w, c, count, hw, hfuel, hcount, hal => by
    have hturn := loop_turn hw fd start off hfuel hcount hal
    have hlen : totalLen (handed count c.buffers) ≤ count := by
      rw [totalLen_handed hal]
      exact Nat.min_le_left _ _
    generalize observe (t.loop fd start fuel c count off) w = res at hturn
    cases hturn with
    | idle | panicked => exact Within.nil
    | failed | ended => exact Within.nil.cons rfl hlen (Nat.zero_le _)
    | @again h hoff m n hm hn hpos hfits calls res hrest =>
      have hle : n ≤ count := by omega
      have hcalls := loop_within fd start (fuel - 1) (off + n) hw.called (by omega) (by omega)
        (aligned_moveOn hal hfits hle)
      rw [hrest] at hcalls
      exact Within.cons rfl hlen hle hcalls
  termination_by fuel => fuel
  decreasing_by omega

/-! ## 7. What an aligned chain reports -/

theorem requested_succ (outcomes : Nat → Except Errno Nat) (k : Nat) :
    requested outcomes (k + 1) =
      amount (outcomes 0) + requested (fun i => outcomes (i + 1)) k := by
  simp [requested, List.range_succ_eq_map, List.map_map, Function.comp_def]

variable {bufs : List VolatileSlice}

theorem not_callMade (h : count = 0 ∨ bufs = []) (k : Nat) :
    ¬ CallMade bufs count outcomes k := by
  cases k with
  | zero =>
    rintro ⟨hpos, hne⟩
    rcases h with h | h
    · omega
    · exact hne h
  | succ k =>
    rintro ⟨-, hlt⟩
    rcases h with rfl | rfl <;> simp at hlt

/-- The calls after the first one are those of the rest of the request. -/
theorem callMade_succ {m n : Nat} (hm : outcomes 0 = .ok m)
    (hn : n = min m (min count (totalLen bufs))) (hpos : 0 < n) (k : Nat) :
    CallMade bufs count outcomes (k + 1) ↔
      m = n ∧ CallMade (advance n bufs) (count - n) (fun i => outcomes (i + 1)) k := by
  have hamount : amount (outcomes 0) = m := by
    rw [hm]
    rfl
  cases k with
  | zero =>
    have hreq : requested outcomes 1 = m := by
      rw [requested_succ, hamount]
      simp [requested]
    simp only [CallMade, Nat.le_zero, forall_eq, hamount, Nat.zero_add, hreq, ne_eq,
      advance_eq_nil_iff]
    omega
  | succ k =>
    simp only [CallMade, requested_succ outcomes (k + 1), hamount, totalLen_advance]
    constructor
    · rintro ⟨hall, hlt⟩
      refine ⟨by omega, fun i hi => hall (i + 1) (by omega), by omega⟩
    · rintro ⟨hmn, hall, hlt⟩
      refine ⟨fun i hi => ?_, by omega⟩
      cases i with
      | zero =>
        rw [hamount]
        omega
      | succ i => exact hall i (by omega)

/-- `Smooth`, when `before` bytes have been moved already. -/
def SmoothFrom (before : Nat) (bufs : List VolatileSlice) (count offset : Nat)
    (outcomes : Nat → Except Errno Nat) : Prop :=
  ∀ k, CallMade bufs count outcomes k → offset + requested outcomes k < 2 ^ 63 ∧
    (0 < k ∨ 0 < before → ∃ n, outcomes k = .ok n)

/-- The result is what was moved, if `before` bytes have been moved already. -/
def Reported (before : Nat) (calls : List VectoredCall) (result : Outcome IoError LocalPanic Nat) :
    Prop :=
  result = .ok (before + movedBy calls) ∨ (∃ e, result = .err e) ∧ before + movedBy calls = 0

theorem smoothFrom_again {before m n : Nat} (hoff : off < 2 ^ 63) (hm : outcomes 0 = .ok m)
    (hn : n = min m (min count (totalLen bufs))) (hpos : 0 < n) :
    SmoothFrom (before + n) (advance n bufs) (count - n) (off + n) (fun i => outcomes (i + 1)) ↔
      SmoothFrom before bufs count off outcomes := by
  constructor
  · intro hs k hk
    cases k with
    | zero => exact ⟨by simpa [requested] using hoff, fun _ => ⟨m, hm⟩⟩
    | succ k =>
      obtain ⟨hmn, hk'⟩ := (callMade_succ hm hn hpos k).mp hk
      obtain ⟨hlt, hok⟩ := hs k hk'
      refine ⟨?_, fun _ => hok (.inr (by omega))⟩
      rw [requested_succ, hm]
      simp only [amount]
      omega
  · intro hs k hk'
    have hmn : m = n := by
      by_contra hne
      refine not_callMade ?_ k hk'
      rw [advance_eq_nil_iff]
      omega
    obtain ⟨hlt, hok⟩ := hs (k + 1) ((callMade_succ hm hn hpos k).mpr ⟨hmn, hk'⟩)
    rw [requested_succ, hm] at hlt
    simp only [amount] at hlt
    exact ⟨by omega, fun _ => hok (.inl (Nat.succ_pos k))⟩

theorem reported_cons {before n : Nat} {x : VectoredCall}
    {result : Outcome IoError LocalPanic Nat} (hx : amount x.outcome = n) :
    Reported before (x :: calls) result ↔ Reported (before + n) calls result := by
  have hmoved : before + movedBy (x :: calls) = before + n + movedBy calls := by
    simp [movedBy, hx, Nat.add_assoc]
  unfold Reported
  rw [hmoved]

theorem loop_reported (fd : Fd) (start : Nat) : ∀ (fuel off before : Nat)
    {outcomes : Nat → Except Errno Nat} {w : World} {c : DescriptorChainConsumer} {count : Nat},
    w.Transfers t outcomes → count ≤ fuel → count < 2 ^ 32 → Aligned c.buffers count →
      off = start + before →
      (Reported before (observe (t.loop fd start fuel c count off) w).1
        (observe (t.loop fd start fuel c count off) w).2.1 ↔
          SmoothFrom before c.buffers count off outcomes)
  | fuel, off, before, outcomes, w, c, count, hw, hfuel, hcount, hal, hbefore => by
    have hturn := loop_turn hw fd start off hfuel hcount hal
    generalize observe (t.loop fd start fuel c count off) w = res at hturn
    have hresult : off - start = before := by omega
    cases hturn with
    | idle h =>
      refine iff_of_true (.inl ?_) fun k hk => absurd hk (not_callMade h k)
      simp [movedBy, hresult]
    | panicked h hoff =>
      refine iff_of_false (by simp [Reported]) fun hs => ?_
      have := (hs 0 ⟨by omega, fun hnil => h (.inr hnil)⟩).1
      simp only [requested, List.range_zero, List.map_nil, List.sum_nil, Nat.add_zero] at this
      omega
    | failed h hoff he =>
      -- an error after other calls is one after bytes were moved
      have hcall : CallMade c.buffers count outcomes 0 := ⟨by omega, fun hnil => h (.inr hnil)⟩
      rw [reported_cons rfl]
      constructor
      · rintro (hr | ⟨-, hzero⟩)
        · cases hr
        · intro k hk
          cases k with
          | zero =>
            simp only [movedBy, amount, List.map_nil, List.sum_nil] at hzero
            exact ⟨by simpa [requested] using hoff, by omega⟩
          | succ k =>
            have := hk.1 0 (Nat.zero_le k)
            simp [he, amount] at this
      · intro hs
        refine .inr ⟨⟨_, rfl⟩, ?_⟩
        by_contra hne
        have hpos : 0 < before := by
          simp only [movedBy, amount, List.map_nil, List.sum_nil] at hne
          omega
        obtain ⟨n, hn⟩ := (hs 0 hcall).2 (.inr hpos)
        rw [he] at hn
        cases hn
    | ended h hoff hm hzero =>
      rw [reported_cons rfl]
      refine iff_of_true (.inl ?_) fun k hk => ?_
      · simp [movedBy, amount, hresult]
      · cases k with
        | zero => exact ⟨by simpa [requested] using hoff, fun _ => ⟨_, hm⟩⟩
        | succ k =>
          have hpos := hk.1 0 (Nat.zero_le k)
          have hlt := hk.2
          rw [hm] at hpos
          simp only [amount] at hpos
          omega
    | @again h hoff m n hm hn hpos hfits calls res hrest =>
      have hle : n ≤ count := by omega
      have hih := loop_reported fd start (fuel - 1) (off + n) (before + n) hw.called (by omega)
        (by omega) (aligned_moveOn hal hfits hle) (by omega)
      rw [hrest] at hih
      rw [reported_cons rfl]
      exact hih.trans (smoothFrom_again hoff hm hn hpos)
  termination_by fuel => fuel
  decreasing_by omega

/-! ## 8. The whole transfer -/

/-- The first call is already handed too much if the chain has no boundary where the request
ends. -/
theorem aligned_of_exact (hw : w.Transfers t outcomes) (hcount : 0 < count)
    (h : Exact off count (observe (t.move c fd count off) w).1
      (observe (t.move c fd count off) w).2.1) : Aligned c.buffers count := by
  by_cases hnil : c.buffers = []
  · exact .inl (by simp [hnil])
  obtain ⟨fuel, rfl⟩ : ∃ fuel, count = fuel + 1 := ⟨count - 1, by omega⟩
  rw [Transfer.move_eq] at h
  unfold Transfer.loop at h
  rw [if_neg (by omega), bind_eq] at h
  have hround := consume_round hw fd c (fuel + 1) off
  rcases hobs : observe (c.consume (fuel + 1) fun bufs => t.vectoredAtVolatile fd bufs off) w with
    ⟨calls, res, w'⟩
  rw [hobs] at hround
  cases hround with
  | idle hidle => exact absurd hidle (by simp [hnil])
  | panicked _ _ =>
    rw [observe_bind_of_panic hobs] at h
    rcases h.reported with hr | ⟨⟨_, hr⟩, -⟩ <;> cases hr
  | failed _ _ _ =>
    rw [observe_bind_of_err hobs] at h
    have := h.handed [] _ [] rfl
    exact (totalLen_handed_le_iff _ _).mp (by simpa [movedBy] using this)
  | moved _ _ _ _ _ =>
    rw [observe_bind_of_ok hobs] at h
    have := h.handed [] _ _ rfl
    exact (totalLen_handed_le_iff _ _).mp (by simpa [movedBy] using this)

/-- **When a transfer is exact**: the chain ends within the request or has a boundary where
it ends, no call but the first one fails, and no call is made at an offset that is not an
`i64`. -/
theorem zero_copy_exact_iff (t : Transfer) (fd : Fd) (c : DescriptorChainConsumer)
    (size : UInt32) (offset : UInt64) (hw : w.Transfers t outcomes) :
    Exact offset.toNat size.toNat (observe (t.move c fd size.toNat offset.toNat) w).1
        (observe (t.move c fd size.toNat offset.toNat) w).2.1 ↔
      Aligned c.buffers size.toNat ∧ Smooth c.buffers size.toNat offset.toNat outcomes := by
  have hsize : size.toNat < 2 ^ 32 := size.toNat_lt
  have hsmooth : SmoothFrom 0 c.buffers size.toNat offset.toNat outcomes ↔
      Smooth c.buffers size.toNat offset.toNat outcomes := by
    simp [SmoothFrom, Smooth]
  have hreported : ∀ calls result, Reported 0 calls result ↔
      (result = .ok (movedBy calls) ∨ (∃ e, result = .err e) ∧ movedBy calls = 0) := by
    intro calls result
    simp [Reported]
  constructor
  · intro h
    have hal : Aligned c.buffers size.toNat := by
      rcases Nat.eq_zero_or_pos size.toNat with hzero | hpos
      · rw [hzero]
        exact aligned_zero _
      · exact aligned_of_exact hw hpos h
    rw [Transfer.move_eq] at h
    have := (loop_reported fd offset.toNat size.toNat offset.toNat 0 hw (le_refl _) hsize hal
      rfl).mp ((hreported _ _).mpr h.reported)
    exact ⟨hal, hsmooth.mp this⟩
  · rintro ⟨hal, hs⟩
    rw [Transfer.move_eq]
    have hwithin := loop_within fd offset.toNat size.toNat offset.toNat hw (le_refl _) hsize hal
    have := (loop_reported fd offset.toNat size.toNat offset.toNat 0 hw (le_refl _) hsize hal
      rfl).mpr (hsmooth.mpr hs)
    exact ⟨hwithin.handed, fun x hx _ => hwithin.range x hx, (hreported _ _).mp this⟩

end

/-- A host with these outcomes. -/
def transferHost (outcomes : Nat → Except Errno Nat) (k : Nat) : Host
  | .preadv _ iovecs _ => transferred (outcomes k) iovecs
  | .pwritev _ iovecs _ _ => transferred (outcomes k) iovecs
  | c => obligingHost k c

def transferWorld (outcomes : Nat → Except Errno Nat) : World :=
  ⟨.initial 0 false, transferHost outcomes, 0⟩

theorem transferWorld_transfers (outcomes : Nat → Except Errno Nat) (t : Transfer) :
    (transferWorld outcomes).Transfers t outcomes := by
  cases t with
  | read =>
    exact fun k _ iovecs _ => congrArg (fun k => transferred (outcomes k) iovecs) (Nat.zero_add k)
  | write append =>
    exact fun k _ iovecs _ => congrArg (fun k => transferred (outcomes k) iovecs) (Nat.zero_add k)

/-- A chain of one buffer of eight bytes. -/
def eightBytes : DescriptorChainConsumer := ⟨[⟨0, 8⟩], 0, by decide⟩

/-- A READ of eight bytes, in two calls. -/
theorem zero_copy_exact_two_calls :
    Exact 0 8 (observe (Transfer.read.move eightBytes 3 8 0) (transferWorld fun _ => .ok 5)).1
      (observe (Transfer.read.move eightBytes 3 8 0) (transferWorld fun _ => .ok 5)).2.1 := by
  refine (zero_copy_exact_iff .read 3 eightBytes 8 0
    (transferWorld_transfers (fun _ => .ok 5) .read)).mpr ⟨.inl (by decide), fun k hk => ?_⟩
  refine ⟨?_, fun _ => ⟨5, rfl⟩⟩
  cases k with
  | zero => decide
  | succ k =>
    have h := hk.2
    have hle : min (8 : UInt32).toNat (totalLen eightBytes.buffers) = 8 := rfl
    show 0 + _ < _
    omega

/-- How the transfer of `size` bytes at `offset` goes, with that chain. -/
def ExactAt (t : Transfer) (size : UInt32) (offset : UInt64)
    (outcomes : Nat → Except Errno Nat) : Prop :=
  Exact offset.toNat size.toNat
    (observe (t.move eightBytes 3 size.toNat offset.toNat) (transferWorld outcomes)).1
    (observe (t.move eightBytes 3 size.toNat offset.toNat) (transferWorld outcomes)).2.1

/-- Four bytes with a buffer of eight, where the call is handed all eight and moves them. -/
def LongBuffer (t : Transfer) : Prop := ExactAt t 4 0 fun _ => .ok 8

/-- Eight bytes, where the second call fails after the first one has moved four. -/
def LateFailure (t : Transfer) : Prop :=
  ExactAt t 8 0 fun k => if k = 0 then .ok 4 else .error EIO

/-- Eight bytes at an offset that is not an `i64`. -/
def HighOffset (t : Transfer) : Prop := ExactAt t 8 0x8000000000000000 fun _ => .ok 8

theorem not_longBuffer (t : Transfer) : ¬ LongBuffer t := by
  intro h
  rcases t with _ | (_ | _)
  all_goals exact absurd (h.handed [] _ [] rfl) (by decide)

theorem not_lateFailure (t : Transfer) : ¬ LateFailure t := by
  intro h
  rcases t with _ | (_ | _)
  all_goals
    rcases h.reported with hr | ⟨-, hzero⟩
    · cases hr
    · exact absurd hzero (by decide)

theorem not_highOffset (t : Transfer) : ¬ HighOffset t := by
  intro h
  rcases t with _ | (_ | _)
  all_goals
    rcases h.reported with hr | ⟨⟨_, hr⟩, -⟩ <;> cases hr

/-- **Three transfers that are not exact**, in either direction. -/
theorem zero_copy_not_exact :
    (¬ LongBuffer .read ∧ ¬ LateFailure .read ∧ ¬ HighOffset .read) ∧
      ¬ LongBuffer (.write false) ∧ ¬ LateFailure (.write false) ∧ ¬ HighOffset (.write false) :=
  ⟨⟨not_longBuffer _, not_lateFailure _, not_highOffset _⟩,
    not_longBuffer _, not_lateFailure _, not_highOffset _⟩

end Virtiofsd
