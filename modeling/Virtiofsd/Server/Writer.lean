/-
  # Writing a reply (`descriptor_utils.rs`)

  The server writes its replies through a `Writer`, the writable part of the chain of a
  request.  What it does to the outside is a program over two kinds of actions: bytes copied
  to guest memory, and calls of the file system.

  `addrs` forgets the slices of a chain and keeps the addresses in the order in which they
  are filled.  In these terms `write_all` stores its bytes at the front of the addresses, or
  as many of them as there is room for if it fails (`wp_writeAll`), and `split_at` cuts the
  list of addresses in two (`splitAt_addrs`).
-/
import Virtiofsd.Descriptor
import Virtiofsd.Lib.Memory
import Virtiofsd.Lib.Log

namespace Virtiofsd

open Lib DescriptorChainConsumer

/-! ## 1. What the server does -/

/-- **An action of the server**: bytes for the guest, or a call of the file system. -/
inductive ServerAct (F : Type) where
  | copy (addr : Nat) (bytes : List UInt8)
  | fs (call : F)

/-- The answers, those of the file system being `R`. -/
def ServerAct.Ans {F : Type} (R : F → Type) : ServerAct F → Type
  | copy _ _ => Unit
  | fs call => R call

section

variable {F : Type} {R : F → Type} {P : Type}

/-- The memory of the guest after the copies of a log. -/
def memoryAfter : Memory → List (Sigma (ServerAct.Ans R)) → Memory
  | m, [] => m
  | m, ⟨.copy addr bytes, _⟩ :: log =>
    memoryAfter (m.storeAt (List.range' addr bytes.length) bytes) log
  | m, ⟨.fs _, _⟩ :: log => memoryAfter m log

/-- The calls of the file system in a log. -/
def fsCalls : List (Sigma (ServerAct.Ans R)) → List (Sigma R)
  | [] => []
  | ⟨.copy _ _, _⟩ :: log => fsCalls log
  | ⟨.fs call, r⟩ :: log => ⟨call, r⟩ :: fsCalls log

/-- **The specification of the actions**: it keeps the memory of the guest and the calls made
so far.  The calls must be `allowed`; of the answers it assumes `ok`. -/
def serving (allowed : F → Prop) (ok : (call : F) → R call → Prop) :
    Spec (ServerAct F) (ServerAct.Ans R) (Memory × List (Sigma R)) where
  pre
    | .copy _ _, _ => True
    | .fs call, _ => allowed call
  post
    | .copy addr bytes, g, _, g' =>
      g' = (g.1.storeAt (List.range' addr bytes.length) bytes, g.2)
    | .fs call, g, r, g' => ok call r ∧ g' = (g.1, g.2 ++ [⟨call, r⟩])

variable {ok : (call : F) → R call → Prop}

/-- What is proved with the specification is true of every log. -/
theorem of_wp_serving {α : Type} {allowed : F → Prop}
    {Q : Outcome IoError P α → Memory × List (Sigma R) → Prop}
    (p : Prog (ServerAct F) (ServerAct.Ans R) IoError P α) :
    ∀ {m : Memory} {calls : List (Sigma R)} {o : Outcome IoError P α}
      {log : List (Sigma (ServerAct.Ans R))},
      p.wp (serving allowed ok) Q (m, calls) → p.Ends o log → (∀ x ∈ fsCalls log, ok x.1 x.2) →
        Q o (memoryAfter m log, calls ++ fsCalls log) := by
  induction p with
  | ret | err | panic =>
    rintro m calls o log hwp ⟨rfl, rfl⟩ -
    rwa [fsCalls, List.append_nil]
  | act a k ih =>
    rintro m calls o log ⟨-, hwp⟩ ⟨r, rest, rfl, hends⟩ hok
    cases a with
    | copy addr bytes =>
      have hstored := hwp r (m.storeAt (List.range' addr bytes.length) bytes, calls) rfl
      have hrest := ih r hstored hends hok
      exact hrest
    | fs call =>
      have hrest := ih r (hwp r _ ⟨hok ⟨call, r⟩ List.mem_cons_self, rfl⟩) hends
        fun x hx => hok x (List.mem_cons_of_mem _ hx)
      rwa [List.append_assoc] at hrest

/-- The calls of a run are answered by its handler. -/
theorem of_mem_fsCalls_trace {S α : Type} (h : (a : ServerAct F) → S → ServerAct.Ans R a × S)
    (hh : ∀ call s, ok call (h (.fs call) s).1)
    (p : Prog (ServerAct F) (ServerAct.Ans R) IoError P α) :
    ∀ s, ∀ x ∈ fsCalls (p.trace h s), ok x.1 x.2 := by
  induction p with
  | ret | err | panic => exact fun _ _ hx => absurd hx List.not_mem_nil
  | act a k ih =>
    intro s x hx
    cases a with
    | copy addr bytes => exact ih _ _ x hx
    | fs call =>
      rcases List.mem_cons.mp hx with rfl | hx
      · exact hh call s
      · exact ih _ _ x hx

end

/-! ## 2. The writer -/

/-- `Writer`. -/
abbrev Writer := DescriptorChainConsumer

namespace Writer

variable {F : Type} {R : F → Type} {P : Type}

/-- The loop of `write` over the slices: `rem` is still to be copied, `total` bytes are. -/
def copyTo : List VolatileSlice → List UInt8 → Nat →
    Prog (ServerAct F) (ServerAct.Ans R) IoError P Nat
  | [], _, total => return total
  | vs :: rest, rem, total => do
    let copyLen := min rem.length vs.len
    let _ ← .perform (.copy vs.addr (rem.take copyLen))
    copyTo rest (rem.drop copyLen) (total + copyLen)

/-- `write`. -/
def write (w : Writer) (buf : List UInt8) :
    Prog (ServerAct F) (ServerAct.Ans R) IoError P (Nat × Writer) :=
  w.consume buf.length fun bufs => copyTo bufs buf 0

/-- The loop of `io::Write::write_all`.  Every round but the last writes something, so as many
rounds as bytes are enough. -/
def writeAllLoop : Nat → Writer → List UInt8 →
    Prog (ServerAct F) (ServerAct.Ans R) IoError P Writer
  | 0, w, _ => return w
  | rounds + 1, w, buf =>
    if buf.isEmpty then return w
    else do
      let (n, w) ← write w buf
      if n = 0 then .err (.custom .writeZero "failed to write whole buffer")
      else writeAllLoop rounds w (buf.drop n)

/-- `write_all`. -/
def writeAll (w : Writer) (buf : List UInt8) :
    Prog (ServerAct F) (ServerAct.Ans R) IoError P Writer :=
  writeAllLoop buf.length w buf

end Writer

/-! ## 3. The addresses of a chain -/

/-- The addresses of slices, in order. -/
def addrs (bufs : List VolatileSlice) : List Nat :=
  bufs.flatMap fun vs => List.range' vs.addr vs.len

@[simp] theorem addrs_nil : addrs [] = [] := rfl

@[simp] theorem addrs_cons (vs : VolatileSlice) (rest : List VolatileSlice) :
    addrs (vs :: rest) = List.range' vs.addr vs.len ++ addrs rest := by
  simp [addrs]

variable (bufs : List VolatileSlice)

theorem length_addrs : (addrs bufs).length = totalLen bufs := by
  induction bufs with
  | nil => rfl
  | cons vs rest ih => simp [ih]

theorem addrs_advance : ∀ n,
    addrs (advance n bufs) = (addrs bufs).drop n := by
  induction bufs with
  | nil => exact fun n => by simp [advance]
  | cons vs rest ih =>
    intro n
    unfold advance
    split
    · rename_i hlt
      rw [addrs_cons, addrs_cons, List.drop_append_of_le_length (by simpa using hlt.le),
        List.drop_range', Nat.mul_one]
    · rename_i hge
      rw [addrs_cons, List.drop_append, List.drop_of_length_le (by simpa using hge), ih,
        List.length_range', List.nil_append]

open DescriptorChainConsumer in
/-- A split of the slices cuts the addresses in two. -/
theorem addrs_splitBuffers : ∀ (bufs : List VolatileSlice) {offset : Nat}
    {front back : List VolatileSlice}, splitBuffers offset bufs = some (front, back) →
    addrs front = (addrs bufs).take offset ∧ addrs back = (addrs bufs).drop offset
  | [], offset, front, back, h => by
    unfold splitBuffers at h
    split at h
    · cases h
      simp
    · cases h
  | vs :: rest, offset, front, back, h => by
    unfold splitBuffers at h
    split at h
    · rename_i hlt
      have hle : offset ≤ (List.range' vs.addr vs.len).length := by simpa using hlt.le
      rw [addrs_cons, List.take_append_of_le_length hle, List.drop_append_of_le_length hle]
      split at h
      · cases h
        simp [List.take_range'_of_length_ge hlt.le, List.drop_range']
      · rename_i hzero
        obtain rfl : offset = 0 := by omega
        cases h
        simp
    · rename_i hge
      obtain ⟨s, hs, he⟩ := Option.map_eq_some_iff.mp h
      cases he
      obtain ⟨hfront, hback⟩ := addrs_splitBuffers rest hs
      have hle : (List.range' vs.addr vs.len).length ≤ offset := by simpa using hge
      rw [addrs_cons, addrs_cons, List.take_append, List.drop_append, List.take_of_length_le hle,
        List.drop_of_length_le hle, List.length_range', hfront, hback, List.nil_append]
      exact ⟨rfl, rfl⟩

/-- The split of a chain that is long enough. -/
theorem splitAt_addrs {w : Writer} {offset : Nat} (h : offset ≤ w.availableBytes) :
    ∃ front back, w.splitAt offset = some (front, back) ∧
      addrs front.buffers = (addrs w.buffers).take offset ∧
      addrs back.buffers = (addrs w.buffers).drop offset ∧
      front.bytesConsumed = w.bytesConsumed := by
  unfold splitAt
  split
  · rename_i hnone
    have hsome := (splitBuffers_isSome_iff w.buffers offset).mpr h
    simp [hnone] at hsome
  · rename_i front back hsplit
    obtain ⟨hfront, hback⟩ := addrs_splitBuffers w.buffers hsplit
    exact ⟨_, _, rfl, hfront, hback, rfl⟩

/-- A store of as many bytes as were asked for fills the slices that are handed out as it
would fill all. -/
theorem storeAt_handed (m : Memory) (bufs : List VolatileSlice) : ∀ bytes : List UInt8,
    m.storeAt (addrs (handed bytes.length bufs)) bytes = m.storeAt (addrs bufs) bytes := by
  induction bufs generalizing m with
  | nil => exact fun _ => rfl
  | cons vs rest ih =>
    intro bytes
    unfold handed
    by_cases hzero : bytes.length = 0
    · rw [List.length_eq_zero_iff.mp hzero]
      simp
    · have hdrop : bytes.length - vs.len =
          (bytes.drop (List.range' vs.addr vs.len).length).length := by
        simp
      rw [if_neg hzero, addrs_cons, addrs_cons, ← Memory.storeAt_split, ← Memory.storeAt_split,
        hdrop, ih]

/-- A store that fills one slice, and then the others. -/
theorem storeAt_addrs_cons (m : Memory) (vs : VolatileSlice) (rest : List VolatileSlice)
    (rem : List UInt8) :
    (m.storeAt (List.range' vs.addr (min rem.length vs.len))
      (rem.take (min rem.length vs.len))).storeAt (addrs rest) (rem.drop (min rem.length vs.len)) =
        m.storeAt (addrs (vs :: rest)) rem := by
  rw [addrs_cons]
  rcases Nat.le_total vs.len rem.length with hle | hle
  · rw [Nat.min_eq_right hle]
    have hcut := Memory.storeAt_split m (List.range' vs.addr vs.len) (addrs rest) rem
    rwa [List.length_range'] at hcut
  · rw [Nat.min_eq_left hle, List.take_length, List.drop_length, Memory.storeAt_nil_right,
      ← Memory.storeAt_take m (_ ++ _), List.take_append_of_le_length (by simpa using hle),
      List.take_range'_of_length_ge hle]

theorem min_totalLen_handed : ∀ n,
    min n (totalLen (handed n bufs)) = min n (totalLen bufs) := by
  induction bufs with
  | nil => exact fun _ => rfl
  | cons vs rest ih =>
    intro n
    have := ih (n - vs.len)
    unfold handed
    split <;> simp only [totalLen_cons, totalLen_nil] <;> omega

/-! ## 4. What the writer does -/

namespace Writer

variable {F : Type} {R : F → Type} {P : Type} {allowed : F → Prop}
  {ok : (call : F) → R call → Prop} {m : Memory} {calls : List (Sigma R)}

theorem wp_copyTo : ∀ (m : Memory) (rem : List UInt8) (total : Nat)
    {Q : Outcome IoError P Nat → Memory × List (Sigma R) → Prop},
    Q (.ok (total + min rem.length (totalLen bufs))) (m.storeAt (addrs bufs) rem, calls) →
      (copyTo bufs rem total).wp (serving allowed ok) Q (m, calls) := by
  induction bufs with
  | nil =>
    intro m rem total Q hQ
    simpa [copyTo] using hQ
  | cons vs rest ih =>
    intro m rem total Q hQ
    refine ⟨trivial, fun _ g' hg' => ?_⟩
    cases hg'
    refine ih _ _ _ ?_
    have hlen : (rem.take (min rem.length vs.len)).length = min rem.length vs.len := by simp
    have htotal : total + min rem.length vs.len +
        min (rem.drop (min rem.length vs.len)).length (totalLen rest) =
        total + min rem.length (totalLen (vs :: rest)) := by
      rw [List.length_drop, totalLen_cons]
      omega
    rwa [hlen, htotal, storeAt_addrs_cons]

theorem wp_write (w : Writer) (buf : List UInt8)
    {Q : Outcome IoError P (Nat × Writer) → Memory × List (Sigma R) → Prop}
    (hQ : ∀ w' : Writer, addrs w'.buffers = (addrs w.buffers).drop buf.length →
      w'.bytesConsumed = w.bytesConsumed + min buf.length w.availableBytes →
        Q (.ok (min buf.length w.availableBytes, w')) (m.storeAt (addrs w.buffers) buf, calls)) :
    (write w buf).wp (serving allowed ok) Q (m, calls) := by
  unfold write consume
  dsimp only
  rw [collect_eq_handed, Nat.sub_zero]
  split
  · rename_i hempty
    rw [List.isEmpty_iff, handed_eq_nil_iff] at hempty
    have hzero : min buf.length w.availableBytes = 0 := by
      rcases hempty with h | h
      · omega
      · simp [DescriptorChainConsumer.availableBytes, h]
    have hdrop : addrs w.buffers = (addrs w.buffers).drop buf.length := by
      rcases hempty with h | h <;> simp [h]
    have hstore : m.storeAt (addrs w.buffers) buf = m := by
      rcases hempty with h | h
      · rw [List.length_eq_zero_iff.mp h, Memory.storeAt_nil_right]
      · rw [h, addrs_nil, Memory.storeAt_nil_left]
    have hnone := hQ w hdrop (by omega)
    rwa [hzero, hstore] at hnone
  · refine Prog.wp_bind.mpr (wp_copyTo _ _ _ _ ?_)
    have hfits := w.fits
    have hn : 0 + min buf.length (totalLen (handed buf.length w.buffers)) =
        min buf.length w.availableBytes := by
      rw [Nat.zero_add, min_totalLen_handed]
      rfl
    have hsum : w.bytesConsumed + min buf.length w.availableBytes < usizeSize := by
      unfold DescriptorChainConsumer.availableBytes
      omega
    rw [hn, storeAt_handed]
    dsimp only [Outcome.andThen]
    rw [dif_pos hsum]
    refine hQ (w.moveOn _ hsum) ?_ rfl
    dsimp only [moveOn]
    rw [addrs_advance]
    rcases Nat.le_total buf.length w.availableBytes with hle | hle
    · rw [Nat.min_eq_left hle]
    · have hlen : (addrs w.buffers).length ≤ w.availableBytes := (length_addrs w.buffers).le
      rw [Nat.min_eq_right hle, List.drop_of_length_le hlen,
        List.drop_of_length_le (hlen.trans hle)]

theorem wp_writeAllLoop : ∀ (rounds : Nat) (m : Memory) (w : Writer) (buf : List UInt8),
    buf.length ≤ rounds → ∀ {Q : Outcome IoError P Writer → Memory × List (Sigma R) → Prop},
    (buf.length ≤ w.availableBytes → ∀ w' : Writer,
      addrs w'.buffers = (addrs w.buffers).drop buf.length →
      w'.bytesConsumed = w.bytesConsumed + buf.length →
        Q (.ok w') (m.storeAt (addrs w.buffers) buf, calls)) →
    (w.availableBytes < buf.length →
      Q (.err (.custom .writeZero "failed to write whole buffer"))
        (m.storeAt (addrs w.buffers) buf, calls)) →
    (writeAllLoop rounds w buf).wp (serving allowed ok) Q (m, calls)
  | 0, m, w, buf, hlen, Q, hok, _ => by
    obtain rfl : buf = [] := List.length_eq_zero_iff.mp (by omega)
    have hdone := hok (Nat.zero_le _) w rfl rfl
    rwa [Memory.storeAt_nil_right] at hdone
  | rounds + 1, m, w, buf, hlen, Q, hok, herr => by
    unfold writeAllLoop
    by_cases hempty : buf.isEmpty
    · obtain rfl := List.isEmpty_iff.mp hempty
      have hdone := hok (Nat.zero_le _) w rfl rfl
      rwa [Memory.storeAt_nil_right] at hdone
    · have hpos : 0 < buf.length := List.length_pos_iff.mpr (mt List.isEmpty_iff.mpr hempty)
      rw [if_neg hempty]
      refine Prog.wp_bind.mpr (wp_write w buf fun w' haddrs hconsumed => ?_)
      dsimp only [Outcome.andThen]
      have havail : w'.availableBytes = w.availableBytes - buf.length := by
        rw [DescriptorChainConsumer.availableBytes, ← length_addrs, haddrs, List.length_drop,
          length_addrs, DescriptorChainConsumer.availableBytes]
      -- One round writes all there is room for: afterwards nothing is left to write or no room.
      rcases le_or_gt buf.length w.availableBytes with hle | hlt
      · rw [Nat.min_eq_left hle, if_neg hpos.ne', List.drop_length]
        refine wp_writeAllLoop rounds _ w' [] (Nat.zero_le _) (fun _ w'' haddrs' hconsumed' => ?_)
          fun h => absurd h (Nat.not_lt_zero _)
        rw [Memory.storeAt_nil_right]
        rw [Nat.min_eq_left hle] at hconsumed
        exact hok hle w'' (haddrs'.trans haddrs) (hconsumed'.trans hconsumed)
      · rw [Nat.min_eq_right hlt.le]
        split
        · exact herr hlt
        · have hnone : addrs w'.buffers = [] := by
            rw [haddrs]
            exact List.drop_of_length_le ((length_addrs _).trans_le hlt.le)
          refine wp_writeAllLoop rounds _ w' _ ?_ (fun hroom => ?_) fun _ => ?_
          · rw [List.length_drop]
            omega
          · rw [List.length_drop] at hroom
            omega
          · rw [hnone, Memory.storeAt_nil_left]
            exact herr hlt

variable {Q : Outcome IoError P Writer → Memory × List (Sigma R) → Prop}

/-- **`write_all`** stores its bytes, or fails when the chain is full. -/
theorem wp_writeAll (w : Writer) (buf : List UInt8)
    (hok : buf.length ≤ w.availableBytes →
      ∀ w' : Writer, addrs w'.buffers = (addrs w.buffers).drop buf.length →
      w'.bytesConsumed = w.bytesConsumed + buf.length →
      Q (.ok w') (m.storeAt (addrs w.buffers) buf, calls))
    (herr : w.availableBytes < buf.length →
      Q (.err (.custom .writeZero "failed to write whole buffer")) (m.storeAt
      (addrs w.buffers) buf, calls)) :
    (writeAll w buf).wp (serving allowed ok) Q (m, calls) :=
  wp_writeAllLoop buf.length m w buf le_rfl hok herr

/-! ## 5. Several writes -/

/-- **`X` has been written** to the writer `w`, which has become `w'`. -/
structure Wrote (w : Writer) (m : Memory) (X : List UInt8) (w' : Writer) (m' : Memory) : Prop where
  room : X.length ≤ w.availableBytes
  addrs : addrs w'.buffers = (addrs w.buffers).drop X.length
  consumed : w'.bytesConsumed = w.bytesConsumed + X.length
  memory : m' = m.storeAt (Virtiofsd.addrs w.buffers) X

theorem Wrote.nil (w : Writer) (m : Memory) : Wrote w m [] w m :=
  ⟨Nat.zero_le _, rfl, rfl, (Memory.storeAt_nil_right _ _).symm⟩

theorem length_addrs_buffers (w : Writer) : (addrs w.buffers).length = w.availableBytes :=
  length_addrs w.buffers

section

variable {w w₁ : Writer} {m₁ : Memory} {X : List UInt8}

section

variable (h : Wrote w m X w₁ m₁)

include h

/-- The room that is left. -/
theorem Wrote.availableBytes :
    w₁.availableBytes = w.availableBytes - X.length := by
  rw [← length_addrs_buffers, h.addrs, List.length_drop, length_addrs_buffers]

/-- A store at the rest of the writer is one behind what has been written. -/
theorem Wrote.storeAt (bytes : List UInt8) :
    m₁.storeAt (Virtiofsd.addrs w₁.buffers) bytes =
      m.storeAt (Virtiofsd.addrs w.buffers) (X ++ bytes) := by
  rw [h.memory, h.addrs, Memory.storeAt_drop (h.room.trans (length_addrs_buffers w).ge)]

theorem Wrote.append {w₂ : Writer} {m₂ : Memory} {Y : List UInt8} (h' : Wrote w₁ m₁ Y w₂ m₂) :
    Wrote w m (X ++ Y) w₂ m₂ := by
  have hroom := h'.room
  rw [h.availableBytes] at hroom
  refine ⟨?_, ?_, ?_, ?_⟩
  · have := h.room
    rw [List.length_append]
    omega
  · rw [h'.addrs, h.addrs, List.drop_drop, List.length_append]
  · rw [h'.consumed, h.consumed, List.length_append, Nat.add_assoc]
  · rw [h'.memory, h.storeAt]

/-- `write_all` after other writes. -/
theorem Wrote.wp_writeAll (buf : List UInt8)
    (hok : ∀ w₂ m₂, Wrote w m (X ++ buf) w₂ m₂ → Q (.ok w₂) (m₂, calls))
    (herr : w.availableBytes < (X ++ buf).length →
      Q (.err (.custom .writeZero "failed to write whole buffer"))
        (m.storeAt (Virtiofsd.addrs w.buffers) (X ++ buf), calls)) :
    (writeAll w₁ buf).wp (serving allowed ok) Q (m₁, calls) := by
  refine Writer.wp_writeAll w₁ buf (fun hroom w₂ haddrs hconsumed => ?_) fun hfull => ?_
  · exact hok w₂ _ (h.append ⟨hroom, haddrs, hconsumed, rfl⟩)
  · rw [h.storeAt]
    refine herr ?_
    rw [h.availableBytes] at hfull
    rw [List.length_append]
    omega

end

end

end Writer

end Virtiofsd
