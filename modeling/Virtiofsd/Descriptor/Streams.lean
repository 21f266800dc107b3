/-
  # Readers and writers are streams (`descriptor_utils.rs`)

  A `Reader` and a `Writer` are both a chain of slices of guest memory.  What the callers rely
  on is that the boundaries between the slices do not show: a chain is the STREAM of the
  addresses of all its slices, one after the other.

  `chainStep` is one operation of the source on a chain, `streamStep` the same operation on a
  stream of addresses.  They agree (`streamStep_stream`), also where an operation fails half
  way: a `read_exact` or `write_all` that does not fit has used up what there was.
-/
import Virtiofsd.Lib.Stream
import Virtiofsd.Lib.Wire
import Virtiofsd.Server.Writer

namespace Virtiofsd

open Lib DescriptorChainConsumer

/-! ## 1. Reading -/

/-- `Reader`. -/
abbrev Reader := DescriptorChainConsumer

/-- What a reader does: bytes of the guest are copied behind those that are in the buffer of
the caller. -/
inductive ReadAct where
  | copyOut (addr len : Nat)

abbrev ReadAct.Ans : ReadAct → Type := fun _ => Unit

/-- Guest memory, and the buffer of the caller as far as it is filled. -/
structure ReadState where
  memory : Memory
  delivered : List UInt8

/-- A copy. -/
def ReadState.handle : (a : ReadAct) → ReadState → a.Ans × ReadState
  | .copyOut addr len, s =>
    ((), { s with delivered := s.delivered ++ (List.range' addr len).map s.memory })

/-- Programs of a reader; they do not panic. -/
abbrev ReadM := Prog ReadAct ReadAct.Ans IoError Empty

namespace Reader

/-- The loop of `read` over the slices: `rem` bytes fit into the buffer, `total` are there. -/
def copyFrom : List VolatileSlice → Nat → Nat → ReadM Nat
  | [], _, total => return total
  | vs :: rest, rem, total => do
    let copyLen := min rem vs.len
    let _ ← .perform (.copyOut vs.addr copyLen)
    copyFrom rest (rem - copyLen) (total + copyLen)

/-- `read`, with a buffer of `len` bytes. -/
def read (r : Reader) (len : Nat) : ReadM (Nat × Reader) :=
  r.consume len fun bufs => copyFrom bufs len 0

/-- The loop of `io::Read::read_exact`; the reader moves on also if it fails.  Every round but
the last reads something, so as many rounds as bytes are enough. -/
def readExactLoop : Nat → Reader → Nat → ReadM (Except IoError Unit × Reader)
  | 0, r, _ => return (.ok (), r)
  | rounds + 1, r, len =>
    if len = 0 then return (.ok (), r)
    else do
      let (n, r) ← read r len
      if n = 0 then
        return (.error (.custom .unexpectedEof "failed to fill whole buffer"), r)
      else readExactLoop rounds r (len - n)

/-- `read_exact`. -/
def readExact (r : Reader) (len : Nat) : ReadM (Except IoError Unit × Reader) :=
  readExactLoop len r len

end Reader

/-! ## 2. Writing -/

/-- No file system takes part. -/
abbrev NoCalls : Empty → Type := fun _ => Unit

/-- Programs of a writer; they do not panic. -/
abbrev WriteM := Prog (ServerAct Empty) (ServerAct.Ans NoCalls) IoError Empty

/-- A copy. -/
def storeBytes : (a : ServerAct Empty) → Memory → ServerAct.Ans NoCalls a × Memory
  | .copy addr bytes, m => ((), m.storeAt (List.range' addr bytes.length) bytes)
  | .fs call, _ => nomatch call

namespace Writer

/-- The loop of `io::Write::write_all` as in `writeAllLoop`; the writer moves on also if it
fails. -/
def writeAllMutLoop : Nat → Writer → List UInt8 → WriteM (Except IoError Unit × Writer)
  | 0, w, _ => return (.ok (), w)
  | rounds + 1, w, buf =>
    if buf.isEmpty then return (.ok (), w)
    else do
      let (n, w) ← write w buf
      if n = 0 then return (.error (.custom .writeZero "failed to write whole buffer"), w)
      else writeAllMutLoop rounds w (buf.drop n)

/-- `write_all`, with the writer after a failure. -/
def writeAllMut (w : Writer) (buf : List UInt8) : WriteM (Except IoError Unit × Writer) :=
  writeAllMutLoop buf.length w buf

end Writer

/-! ## 3. Operations -/

/-- **The operations on a reader or a writer.**  `read_obj` is `readExact` of the size of the
object, and `write_obj` is `writeAll` of its bytes. -/
inductive ChainOp where
  | read (len : Nat)
  | readExact (len : Nat)
  | write (buf : List UInt8)
  | writeAll (buf : List UInt8)
  | splitAt (offset : Nat)

/-- `Error` of `descriptor_utils.rs`, as far as the operations return it. -/
inductive ChainError where
  | io (e : IoError)
  | splitOutOfBounds (offset : Nat)

/-- What an operation gives: the bytes in the buffer of the caller, and the number of bytes
that it returns or its error. -/
structure ChainResult where
  delivered : List UInt8
  outcome : Except ChainError Nat

/-- The error of `read_exact` and that of `write_all`. -/
def ChainError.eof : ChainError := .io (.custom .unexpectedEof "failed to fill whole buffer")
def ChainError.full : ChainError := .io (.custom .writeZero "failed to write whole buffer")

/-- **An operation on a chain**, as the source performs it. -/
def chainStep : HandleStep Memory DescriptorChainConsumer ChainOp ChainResult
  | m, c, .read len =>
    match (Reader.read c len).run ReadState.handle ⟨m, []⟩ with
    | (.ok (n, c'), s) => (⟨s.delivered, .ok n⟩, m, c', none)
    | (.err e, s) => (⟨s.delivered, .error (.io e)⟩, m, c, none)
    | (.panic p, _) => nomatch p
  | m, c, .readExact len =>
    match (Reader.readExact c len).run ReadState.handle ⟨m, []⟩ with
    | (.ok (.ok (), c'), s) => (⟨s.delivered, .ok len⟩, m, c', none)
    | (.ok (.error e, c'), s) => (⟨s.delivered, .error (.io e)⟩, m, c', none)
    | (.err e, s) => (⟨s.delivered, .error (.io e)⟩, m, c, none)
    | (.panic p, _) => nomatch p
  | m, c, .write buf =>
    match (Writer.write c buf : WriteM _).run storeBytes m with
    | (.ok (n, c'), m') => (⟨[], .ok n⟩, m', c', none)
    | (.err e, m') => (⟨[], .error (.io e)⟩, m', c, none)
    | (.panic p, _) => nomatch p
  | m, c, .writeAll buf =>
    match (Writer.writeAllMut c buf).run storeBytes m with
    | (.ok (.ok (), c'), m') => (⟨[], .ok buf.length⟩, m', c', none)
    | (.ok (.error e, c'), m') => (⟨[], .error (.io e)⟩, m', c', none)
    | (.err e, m') => (⟨[], .error (.io e)⟩, m', c, none)
    | (.panic p, _) => nomatch p
  | m, c, .splitAt offset =>
    match c.splitAt offset with
    | some (c', other) => (⟨[], .ok offset⟩, m, c', some other)
    | none => (⟨[], .error (.splitOutOfBounds offset)⟩, m, c, none)

/-- **The same operation on a stream of addresses.** -/
def streamStep : HandleStep Memory (Stream Nat) ChainOp ChainResult
  | m, s, .read len =>
    (⟨(s.rest.take len).map m, .ok (min len s.rest.length)⟩, m, s.advance len, none)
  | m, s, .readExact len =>
    (⟨(s.rest.take len).map m, if len ≤ s.rest.length then .ok len else .error .eof⟩, m,
      s.advance len, none)
  | m, s, .write buf =>
    (⟨[], .ok (min buf.length s.rest.length)⟩, m.storeAt s.rest buf, s.advance buf.length, none)
  | m, s, .writeAll buf =>
    (⟨[], if buf.length ≤ s.rest.length then .ok buf.length else .error .full⟩,
      m.storeAt s.rest buf, s.advance buf.length, none)
  | m, s, .splitAt offset =>
    match s.splitAt offset with
    | some (front, back) => (⟨[], .ok offset⟩, m, front, some back)
    | none => (⟨[], .error (.splitOutOfBounds offset)⟩, m, s, none)

/-- The stream of a chain: the addresses of its slices, one slice after the other. -/
def DescriptorChainConsumer.stream (c : DescriptorChainConsumer) : Stream Nat :=
  ⟨c.bytesConsumed, addrs c.buffers⟩

/-! ## 4. What `consume` does to the stream -/

variable (c : DescriptorChainConsumer)

theorem length_stream :
    c.stream.rest.length = c.availableBytes := length_addrs c.buffers

theorem stream_moveOn {n : Nat} (hn : n ≤ c.availableBytes) (h : c.bytesConsumed + n < usizeSize) :
    (c.moveOn n h).stream = c.stream.advance n := by
  have hmin : min n (totalLen c.buffers) = n := Nat.min_eq_left hn
  unfold moveOn stream Stream.advance
  dsimp only
  rw [addrs_advance, length_addrs, hmin]

/-- **`consume` moves on by what its function has used.** -/
theorem consume_run {A : Type} {R : A → Type} {P S : Type} {h : (a : A) → S → R a × S}
    {c : DescriptorChainConsumer} {count n : Nat} {f : List VolatileSlice → Prog A R IoError P Nat}
    {s s' : S} (hf : (f (handed count c.buffers)).run h s = (.ok n, s'))
    (hnil : handed count c.buffers = [] → n = 0 ∧ s' = s) (hn : n ≤ c.availableBytes) :
    ∃ c' : DescriptorChainConsumer, (c.consume count f).run h s = (.ok (n, c'), s') ∧
      c'.stream = c.stream.advance n := by
  unfold consume
  rw [collect_eq_handed, Nat.sub_zero]
  by_cases hempty : handed count c.buffers = []
  · obtain ⟨rfl, rfl⟩ := hnil hempty
    rw [hempty]
    exact ⟨c, rfl, c.stream.advance_zero.symm⟩
  · have hfits : c.bytesConsumed + n < usizeSize := by
      have := c.fits
      unfold availableBytes at hn
      omega
    refine ⟨c.moveOn n hfits, ?_, stream_moveOn c hn hfits⟩
    rw [if_neg (by simpa using hempty)]
    refine (Prog.run_bind_of_ok _ hf).trans ?_
    rw [dif_pos hfits]
    rfl

/-- The addresses of the slices that are handed out begin like those of all. -/
theorem take_addrs_handed (bufs : List VolatileSlice) : ∀ count,
    (addrs (handed count bufs)).take count = (addrs bufs).take count := by
  induction bufs with
  | nil => exact fun _ => rfl
  | cons vs rest ih =>
    intro count
    unfold handed
    split
    · rename_i hzero
      simp [hzero]
    · rw [addrs_cons, addrs_cons, List.take_append, List.take_append, List.length_range', ih]

/-! ## 5. Reading from the stream -/

theorem take_range' (addr len n : Nat) :
    (List.range' addr len).take n = List.range' addr (min n len) := by
  rcases Nat.le_total n len with hle | hle
  · rw [Nat.min_eq_left hle, List.take_range'_of_length_ge hle]
  · rw [Nat.min_eq_right hle, List.take_of_length_le (by simpa using hle)]

variable (m : Memory)

theorem copyFrom_run (bufs : List VolatileSlice) : ∀ (rem total : Nat)
    (out : List UInt8), (Reader.copyFrom bufs rem total).run ReadState.handle ⟨m, out⟩ =
      (.ok (total + min rem (totalLen bufs)), ⟨m, out ++ ((addrs bufs).take rem).map m⟩) := by
  induction bufs with
  | nil =>
    intro rem total out
    simp [Reader.copyFrom]
  | cons vs rest ih =>
    intro rem total out
    have htotal : total + min rem vs.len + min (rem - min rem vs.len) (totalLen rest) =
        total + min rem (totalLen (vs :: rest)) := by
      rw [totalLen_cons]
      omega
    have hbytes : out ++ (List.range' vs.addr (min rem vs.len)).map m ++
        ((addrs rest).take (rem - min rem vs.len)).map m =
        out ++ ((addrs (vs :: rest)).take rem).map m := by
      have hrest : rem - min rem vs.len = rem - vs.len := by omega
      rw [addrs_cons, List.take_append, List.length_range', List.map_append, hrest,
        List.append_assoc, take_range']
    refine (ih _ _ _).trans ?_
    rw [htotal, hbytes]

theorem read_run (c : Reader) (len : Nat) (out : List UInt8) :
    ∃ c' : Reader, (Reader.read c len).run ReadState.handle ⟨m, out⟩ =
        (.ok (min len c.stream.rest.length, c'),
          ⟨m, out ++ (c.stream.rest.take len).map m⟩) ∧
      c'.stream = c.stream.advance len := by
  have hcopy := copyFrom_run m (handed len c.buffers) len 0 out
  rw [Nat.zero_add, min_totalLen_handed, take_addrs_handed] at hcopy
  have hnil : handed len c.buffers = [] → min len (totalLen c.buffers) = 0 ∧
      (⟨m, out ++ ((addrs c.buffers).take len).map m⟩ : ReadState) = ⟨m, out⟩ := by
    intro hempty
    rcases handed_eq_nil_iff.mp hempty with rfl | hnil
    · simp
    · simp [hnil]
  obtain ⟨c', hrun, hstream⟩ : ∃ c' : Reader, (Reader.read c len).run ReadState.handle ⟨m, out⟩ =
      (.ok (min len (totalLen c.buffers), c'), ⟨m, out ++ ((addrs c.buffers).take len).map m⟩) ∧
      c'.stream = c.stream.advance (min len (totalLen c.buffers)) :=
    consume_run hcopy hnil (Nat.min_le_right _ _)
  have hlen : c.stream.rest.length = totalLen c.buffers := length_stream c
  refine ⟨c', ?_, ?_⟩
  · rw [hlen]
    exact hrun
  · rw [hstream, ← hlen, Stream.advance_min]

theorem readExactLoop_run : ∀ (rounds : Nat) (c : Reader) (len : Nat)
    (out : List UInt8), len ≤ rounds → ∃ c' : Reader,
      (Reader.readExactLoop rounds c len).run ReadState.handle ⟨m, out⟩ =
        (.ok (if len ≤ c.stream.rest.length then .ok ()
          else .error (.custom .unexpectedEof "failed to fill whole buffer"), c'),
          ⟨m, out ++ (c.stream.rest.take len).map m⟩) ∧
      c'.stream = c.stream.advance len := by
  intro rounds
  induction rounds with
  | zero =>
    intro c len out hle
    obtain rfl : len = 0 := Nat.le_zero.mp hle
    exact ⟨c, by simp [Reader.readExactLoop], c.stream.advance_zero.symm⟩
  | succ rounds ih =>
    intro c len out hle
    unfold Reader.readExactLoop
    by_cases hzero : len = 0
    · subst hzero
      exact ⟨c, by simp, c.stream.advance_zero.symm⟩
    rw [if_neg hzero]
    obtain ⟨c₁, hread, hstream⟩ := read_run m c len out
    by_cases hnone : c.stream.rest.length = 0
    · refine ⟨c₁, ?_, hstream⟩
      refine (Prog.run_bind_of_ok _ hread).trans ?_
      dsimp only
      rw [if_pos (by omega), if_neg (by omega)]
      rfl
    -- One round takes all there is: what is left to read or the stream is then empty.
    obtain ⟨c', hrest, hstream'⟩ := ih c₁ (len - min len c.stream.rest.length) _ (by omega)
    rw [hstream] at hrest hstream'
    have hnil : (c.stream.advance len).rest.take (len - min len c.stream.rest.length) = [] := by
      rw [← List.length_eq_zero_iff, List.length_take]
      simp only [Stream.advance, List.length_drop]
      omega
    refine ⟨c', ?_, hstream'.trans (c.stream.advance_missing len)⟩
    refine (Prog.run_bind_of_ok _ hread).trans ?_
    dsimp only
    rw [if_neg (by omega)]
    refine hrest.trans ?_
    simp only [hnil, c.stream.missing_le_iff, List.map_nil, List.append_nil]

/-! ## 6. Writing to the stream -/

/-- What is proved of the actions of the server is true of a run on guest memory. -/
theorem of_wp_storeBytes {α : Type}
    {Q : Outcome IoError Empty α → Memory × List (Sigma NoCalls) → Prop} {m : Memory} (p : WriteM α)
    (h : p.wp (serving (fun _ => True) fun _ _ => True) Q (m, [])) :
    Q (p.run storeBytes m).1 ((p.run storeBytes m).2, []) := by
  have hmeets : ∀ (a : ServerAct Empty) (m : Memory) (g : Memory × List (Sigma NoCalls)),
      g = (m, []) → (serving (fun _ => True) fun _ _ => True).pre a g →
      ∃ g', (serving (fun _ => True) fun _ _ => True).post a g (storeBytes a m).1 g' ∧
        g' = ((storeBytes a m).2, []) := by
    rintro (⟨addr, bytes⟩ | call) m g rfl -
    · exact ⟨_, rfl, rfl⟩
    · cases call
  obtain ⟨g, rfl, hQ⟩ := Prog.wp_run hmeets p rfl h
  exact hQ

theorem write_run (c : Writer) (buf : List UInt8) :
    ∃ c' : Writer, (Writer.write c buf : WriteM _).run storeBytes m =
        (.ok (min buf.length c.stream.rest.length, c'), m.storeAt c.stream.rest buf) ∧
      c'.stream = c.stream.advance buf.length := by
  have hlen : c.stream.rest.length = c.availableBytes := length_stream c
  have hwp : (Writer.write c buf : WriteM _).wp (serving (fun _ => True) fun _ _ => True)
      (fun o g => ∃ c' : Writer, (o, g.1) =
          (.ok (min buf.length c.stream.rest.length, c'), m.storeAt c.stream.rest buf) ∧
        c'.stream = c.stream.advance buf.length) (m, []) := by
    refine Writer.wp_write c buf fun c' haddrs hconsumed => ⟨c', ?_, ?_⟩
    · rw [hlen]
      rfl
    · unfold stream Stream.advance
      dsimp only
      rw [haddrs, hconsumed, ← hlen]
      rfl
  obtain ⟨c', heq, hstream⟩ := of_wp_storeBytes _ hwp
  exact ⟨c', heq, hstream⟩

theorem writeAllMutLoop_run : ∀ (rounds : Nat) (m : Memory) (c : Writer) (buf : List UInt8),
    buf.length ≤ rounds → ∃ c' : Writer,
      (Writer.writeAllMutLoop rounds c buf).run storeBytes m =
        (.ok (if buf.length ≤ c.stream.rest.length then .ok ()
          else .error (.custom .writeZero "failed to write whole buffer"), c'),
          m.storeAt c.stream.rest buf) ∧
      c'.stream = c.stream.advance buf.length := by
  intro rounds
  induction rounds with
  | zero =>
    intro m c buf hle
    obtain rfl : buf = [] := List.length_eq_zero_iff.mp (Nat.le_zero.mp hle)
    exact ⟨c, by simp [Writer.writeAllMutLoop], c.stream.advance_zero.symm⟩
  | succ rounds ih =>
    intro m c buf hle
    unfold Writer.writeAllMutLoop
    by_cases hzero : buf = []
    · subst hzero
      exact ⟨c, by simp, c.stream.advance_zero.symm⟩
    have hpos : 0 < buf.length := List.length_pos_iff.mpr hzero
    rw [if_neg (by simpa using hzero)]
    obtain ⟨c₁, hwrite, hstream⟩ := write_run m c buf
    by_cases hnone : c.stream.rest.length = 0
    · refine ⟨c₁, ?_, hstream⟩
      refine (Prog.run_bind_of_ok _ hwrite).trans ?_
      dsimp only
      rw [if_pos (by omega), if_neg (by omega)]
      rfl
    -- One round takes all there is: what is left to write or the stream is then empty.
    obtain ⟨c', hrest, hstream'⟩ := ih (m.storeAt c.stream.rest buf) c₁
      (buf.drop (min buf.length c.stream.rest.length)) (by rw [List.length_drop]; omega)
    rw [hstream, List.length_drop] at hrest hstream'
    have hsame : ∀ m' : Memory, m'.storeAt (c.stream.advance buf.length).rest
        (buf.drop (min buf.length c.stream.rest.length)) = m' := by
      intro m'
      rcases Nat.le_total buf.length c.stream.rest.length with hle | hle
      · rw [Nat.min_eq_left hle, List.drop_length, Memory.storeAt_nil_right]
      · rw [Stream.advance_of_le _ hle, Memory.storeAt_nil_left]
    refine ⟨c', ?_, hstream'.trans (c.stream.advance_missing buf.length)⟩
    refine (Prog.run_bind_of_ok _ hwrite).trans ?_
    dsimp only
    rw [if_neg (by omega)]
    refine hrest.trans ?_
    simp only [hsame, c.stream.missing_le_iff]

/-! ## 7. The law -/

theorem splitAt_stream (offset : Nat) :
    c.stream.splitAt offset =
      (c.splitAt offset).map fun p => (p.1.stream, p.2.stream) := by
  have hlen : c.stream.rest.length = totalLen c.buffers := length_stream c
  unfold Stream.splitAt splitAt
  split
  · rename_i hle
    rw [hlen] at hle
    split
    · rename_i hnone
      have hsome := (splitBuffers_isSome_iff c.buffers offset).mpr hle
      simp [hnone] at hsome
    · rename_i front back hsplit
      obtain ⟨hfront, hback⟩ := addrs_splitBuffers c.buffers hsplit
      dsimp only [Option.map_some, stream]
      rw [hfront, hback]
  · rename_i hgt
    rw [hlen] at hgt
    split
    · rfl
    · rename_i front back hsplit
      have hsome : (splitBuffers offset c.buffers).isSome := by
        rw [hsplit]
        rfl
      exact absurd ((splitBuffers_isSome_iff c.buffers offset).mp hsome) hgt

/-- **An operation on a chain is the operation on its stream.** -/
theorem streamStep_stream (c : DescriptorChainConsumer) (op : ChainOp) :
    streamStep m c.stream op =
      ((chainStep m c op).1, (chainStep m c op).2.1, (chainStep m c op).2.2.1.stream,
        (chainStep m c op).2.2.2.map stream) := by
  cases op with
  | read len =>
    obtain ⟨c', hrun, hstream⟩ := read_run m c len []
    simp only [chainStep, streamStep, hrun, hstream, List.nil_append, Option.map_none]
  | readExact len =>
    obtain ⟨c', hrun, hstream⟩ := readExactLoop_run m len c len [] le_rfl
    have hexact : (Reader.readExact c len).run ReadState.handle ⟨m, []⟩ = _ := hrun
    simp only [chainStep, streamStep, hexact, List.nil_append]
    by_cases hle : len ≤ c.stream.rest.length
    · simp only [if_pos hle, hstream, Option.map_none]
    · simp only [if_neg hle, hstream, Option.map_none, ChainError.eof]
  | write buf =>
    obtain ⟨c', hrun, hstream⟩ := write_run m c buf
    simp only [chainStep, streamStep, hrun, hstream, Option.map_none]
  | writeAll buf =>
    obtain ⟨c', hrun, hstream⟩ := writeAllMutLoop_run buf.length m c buf le_rfl
    have hall : (Writer.writeAllMut c buf).run storeBytes m = _ := hrun
    simp only [chainStep, streamStep, hall]
    by_cases hle : buf.length ≤ c.stream.rest.length
    · simp only [if_pos hle, hstream, Option.map_none]
    · simp only [if_neg hle, hstream, Option.map_none, ChainError.full]
  | splitAt offset =>
    simp only [chainStep, streamStep, splitAt_stream]
    cases c.splitAt offset with
    | none | some => rfl

/-- An operation that is not a split. -/
def ChainOp.Moves : ChainOp → Prop
  | .splitAt _ => False
  | _ => True

/-- **The law of one chain**: what is available and what is consumed add up to the same before
and after an operation; `split_at` succeeds exactly within what is available, cuts the stream
in two there, and leaves the chain as it is where it fails. -/
structure ChainLaw (c : DescriptorChainConsumer) : Prop where
  conserved : ∀ m (op : ChainOp), op.Moves →
    (chainStep m c op).2.2.1.availableBytes + (chainStep m c op).2.2.1.bytesConsumed =
      c.availableBytes + c.bytesConsumed
  splits : ∀ offset, (c.splitAt offset).isSome ↔ offset ≤ c.availableBytes
  partitions : ∀ offset front back, c.splitAt offset = some (front, back) →
    addrs front.buffers = (addrs c.buffers).take offset ∧
      addrs back.buffers = (addrs c.buffers).drop offset
  refused : ∀ m offset, c.availableBytes < offset →
    chainStep m c (.splitAt offset) = (⟨[], .error (.splitOutOfBounds offset)⟩, m, c, none)

/-- An operation on the stream that is not a split only advances it. -/
theorem streamStep_advance (s : Stream Nat) {op : ChainOp} (h : op.Moves) :
    ∃ n, (streamStep m s op).2.2.1 = s.advance n := by
  cases op with
  | read len | readExact len => exact ⟨len, rfl⟩
  | write buf | writeAll buf => exact ⟨buf.length, rfl⟩
  | splitAt offset => exact h.elim

theorem DescriptorChainConsumer.law : ChainLaw c where
  conserved m op h := by
    obtain ⟨n, hadvance⟩ := streamStep_advance m c.stream h
    have hstep : (chainStep m c op).2.2.1.stream = c.stream.advance n := by
      rw [← hadvance, streamStep_stream]
    have hcount := c.stream.length_advance n
    rw [← hstep, length_stream, length_stream] at hcount
    rw [Nat.add_comm, Nat.add_comm c.availableBytes]
    exact hcount
  splits offset := by
    rw [← length_stream]
    have hsome := congrArg Option.isSome (splitAt_stream c offset)
    rw [Option.isSome_map] at hsome
    rw [← hsome, Stream.splitAt]
    split
    · rename_i hle
      exact iff_of_true rfl hle
    · rename_i hgt
      exact iff_of_false (by simp) hgt
  partitions offset front back h := by
    have hsplit := splitAt_stream c offset
    rw [h, Stream.splitAt] at hsplit
    split at hsplit
    · obtain ⟨hfront, hback⟩ := Prod.mk.inj (Option.some.inj hsplit)
      exact ⟨(congrArg Stream.rest hfront).symm, (congrArg Stream.rest hback).symm⟩
    · cases hsplit
  refused m offset h := by
    have hnone : c.splitAt offset = none := by
      have hsplit := splitAt_stream c offset
      rw [Stream.splitAt, if_neg (by rw [length_stream]; omega)] at hsplit
      exact Option.map_eq_none_iff.mp hsplit.symm
    simp only [chainStep, hnone]

/-- **The stream law.**  In every sequence of operations on a chain, and on what is split off
from it, the results, the bytes that are delivered or stored and what is left are those of the
same operations on the addresses of all slices in a row; and every chain obeys the law of one
chain. -/
theorem chain_is_a_stream (m : Memory) (c : DescriptorChainConsumer) (ops : List (Nat × ChainOp)) :
    runHandles streamStep m [c.stream] ops =
        ((runHandles chainStep m [c] ops).1, (runHandles chainStep m [c] ops).2.1,
          (runHandles chainStep m [c] ops).2.2.map DescriptorChainConsumer.stream) ∧
      ∀ d ∈ (runHandles chainStep m [c] ops).2.2, ChainLaw d :=
  ⟨runHandles_map DescriptorChainConsumer.stream streamStep_stream ops m [c], fun d _ => d.law⟩

end Virtiofsd
