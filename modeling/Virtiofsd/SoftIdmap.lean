/-
  # Translating user and group IDs (`soft_idmap/mod.rs`, `soft_idmap/id_types.rs`)

  The command line gives a list of entries, each for a range of IDs of the guest, of the host, or
  of both.  `tryFrom` makes two range maps from it, and `mapGuest` and `mapHost` look up an ID
  there.

  An entry is documented by arithmetic on unbounded numbers; the daemon computes in 32 bits, and
  what an overflow does depends on how it was built (`Build`).  Not all ranges are checked:
  `Representable` says which entries need the check that is missing.
-/
import Virtiofsd.Lib.Program
import Virtiofsd.Lib.RangeMap
import Virtiofsd.Passthrough.Config
import Mathlib.Data.List.Pairwise
import Mathlib.Data.UInt

namespace Virtiofsd

open Lib Outcome List

namespace SoftIdmap

/-! ## 1. IDs -/

/-- IDs are ordered as numbers. -/
@[reducible] def idOrder : LinearOrder UInt32 where
  le_refl := UInt32.le_refl
  le_trans _ _ _ := UInt32.le_trans
  lt_iff_le_not_ge a b := by
    rw [UInt32.not_le]
    exact ⟨fun h => ⟨UInt32.le_of_lt h, h⟩, fun h => h.2⟩
  le_antisymm _ _ := UInt32.le_antisymm
  le_total := UInt32.le_total
  toDecidableLE := inferInstance
  toDecidableEq := inferInstance
  toDecidableLT := inferInstance

attribute [local instance] idOrder

/-- Whose ID it is.  User and group IDs are treated alike. -/
inductive Side where
  | guest
  | host

/-- `GuestUid`, `GuestGid`, `HostUid`, `HostGid`. -/
structure Id (s : Side) where
  inner : UInt32
  deriving DecidableEq

/-- What stops the daemon. -/
inductive IdPanic where
  | overflow
  | assertion
  deriving DecidableEq

/-- How the daemon was built: with overflow checks, or as a release. -/
inductive Build where
  | checked
  | wrapping

variable {E : Type} {s t : Side}

/-- `+` on `u32`. -/
def Build.add (b : Build) (x y : UInt32) : Outcome E IdPanic UInt32 :=
  match b with
  | checked => if x.toNat + y.toNat < 2 ^ 32 then .ok (x + y) else .panic .overflow
  | wrapping => .ok (x + y)

/-- `-` on `u32`. -/
def Build.sub (b : Build) (x y : UInt32) : Outcome E IdPanic UInt32 :=
  match b with
  | checked => if y ≤ x then .ok (x - y) else .panic .overflow
  | wrapping => .ok (x - y)

/-- `id_mapped`. -/
def Id.idMapped (id : Id s) : Id t := ⟨id.inner⟩

/-! ## 2. Entries -/

/-- `MapEntry`. -/
inductive MapEntry (s t : Side) where
  | squash (source : HalfOpen UInt32) (target : Id t)
  | range (source : HalfOpen UInt32) (toBase : Id t)
  | fail (source : HalfOpen UInt32)
  deriving DecidableEq

/-- `MapError`. -/
inductive MapError (s : Side) where
  | explicitFailMapping (id : Id s)
  deriving DecidableEq

namespace MapEntry

/-- `source_range`. -/
def sourceRange : MapEntry s t → HalfOpen UInt32
  | squash source _ => source
  | range source _ => source
  | fail source => source

/-- `MapEntry::map`. -/
def map (b : Build) (e : MapEntry s t) (id : Id s) : Outcome (MapError s) IdPanic (Id t) :=
  match e with
  | squash source target =>
    if source.contains id.inner then .ok target else .panic .assertion
  | range source toBase =>
    if source.contains id.inner then do
      let offset ← b.sub id.inner source.start
      let x ← b.add toBase.inner offset
      return ⟨x⟩
    else .panic .assertion
  | fail source =>
    if source.contains id.inner then .err (.explicitFailMapping id) else .panic .assertion

/-- `Display for MapEntry`: the end of the target range is computed for it. -/
def display (b : Build) : MapEntry s t → Outcome IoError IdPanic String
  | squash source target =>
    .ok ("squash [" ++ toString source.start ++ ", " ++ toString source.stop ++ ") to " ++
      toString target.inner)
  | range source toBase => do
    let length ← b.sub source.stop source.start
    let stop ← b.add toBase.inner length
    return "map [" ++ toString source.start ++ ", " ++ toString source.stop ++ ") to [" ++
      toString toBase.inner ++ ", " ++ toString stop ++ ")"
  | fail source =>
    .ok ("fail [" ++ toString source.start ++ ", " ++ toString source.stop ++ ")")

end MapEntry

/-! ## 3. The maps -/

/-- `cmdline::IdMap`. -/
inductive Cmdline where
  | guest (fromGuest toHost count : UInt32)
  | host (fromHost toGuest count : UInt32)
  | squashGuest (fromGuest toHost count : UInt32)
  | squashHost (fromHost toGuest count : UInt32)
  | bidirectional (guest host count : UInt32)
  | forbidGuest (fromGuest count : UInt32)
  deriving DecidableEq

/-- `Display for cmdline::IdMap`. -/
def Cmdline.display : Cmdline → String
  | guest f t c => "guest:" ++ toString f ++ ":" ++ toString t ++ ":" ++ toString c
  | host f t c => "host:" ++ toString f ++ ":" ++ toString t ++ ":" ++ toString c
  | squashGuest f t c => "squash-guest:" ++ toString f ++ ":" ++ toString t ++ ":" ++ toString c
  | squashHost f t c => "squash-host:" ++ toString f ++ ":" ++ toString t ++ ":" ++ toString c
  | bidirectional g h c => "map:" ++ toString g ++ ":" ++ toString h ++ ":" ++ toString c
  | forbidGuest f c => "forbid-guest:" ++ toString f ++ ":" ++ toString c

/-- `id_range_from_u32`. -/
def idRangeFromU32 (base count : UInt32) (param : Cmdline) :
    Outcome IoError IdPanic (HalfOpen UInt32) :=
  if base.toNat + count.toNat < 2 ^ 32 then .ok ⟨base, base + count⟩
  else .err (.custom .invalidInput ("Parameter " ++ param.display ++ ": Range overflow"))

/-- `err_context` for one entry. -/
def errContext {α : Type} (entry : Cmdline) : Outcome IoError IdPanic α → Outcome IoError IdPanic α
  | .err (.custom kind msg) => .err (.custom kind (entry.display ++ ": " ++ msg))
  | .err (.os e) => .err (IoError.context (.os e) entry.display)
  | o => o

/-- `IdMap`. -/
structure IdMap (R : RangeMaps UInt32) where
  guestToHost : R.Map (MapEntry .guest .host)
  hostToGuest : R.Map (MapEntry .host .guest)

namespace IdMap

variable {R : RangeMaps UInt32}

/-- `IdMap::empty`. -/
def empty : IdMap R := ⟨R.empty, R.empty⟩

/-- What `map_guest` and `map_host` do. -/
def lookup (b : Build) (m : R.Map (MapEntry s t)) (id : Id s) :
    Outcome (MapError s) IdPanic (Id t) :=
  match R.get m id.inner with
  | some e => e.map b id
  | none => .ok id.idMapped

/-- `map_guest`. -/
def mapGuest (b : Build) (m : IdMap R) (id : Id .guest) :
    Outcome (MapError .guest) IdPanic (Id .host) := lookup b m.guestToHost id

/-- `map_host`. -/
def mapHost (b : Build) (m : IdMap R) (id : Id .host) :
    Outcome (MapError .host) IdPanic (Id .guest) := lookup b m.hostToGuest id

/-- `do_push`. -/
def doPush (b : Build) (m : R.Map (MapEntry s t)) (mapName : String) (entry : MapEntry s t) :
    Outcome IoError IdPanic (R.Map (MapEntry s t)) :=
  if R.intersects m entry.sourceRange then do
    let text ← entry.display b
    .err (IoError.other (mapName ++ " mapping '" ++ text ++ "' intersects previously added entry"))
  else .ok (R.insert m entry.sourceRange entry)

/-- `push_guest_to_host`. -/
def pushGuestToHost (b : Build) (m : IdMap R) (entry : MapEntry .guest .host) :
    Outcome IoError IdPanic (IdMap R) := do
  let g ← doPush b m.guestToHost "Guest-to-host" entry
  return { m with guestToHost := g }

/-- `push_host_to_guest`. -/
def pushHostToGuest (b : Build) (m : IdMap R) (entry : MapEntry .host .guest) :
    Outcome IoError IdPanic (IdMap R) := do
  let h ← doPush b m.hostToGuest "Host-to-guest" entry
  return { m with hostToGuest := h }

/-- One entry of the command line. -/
def pushEntry (b : Build) (m : IdMap R) (entry : Cmdline) : Outcome IoError IdPanic (IdMap R) :=
  match entry with
  | .guest fromGuest toHost count => do
    let source ← idRangeFromU32 fromGuest count entry
    errContext entry (m.pushGuestToHost b (.range source ⟨toHost⟩))
  | .host fromHost toGuest count => do
    let source ← idRangeFromU32 fromHost count entry
    errContext entry (m.pushHostToGuest b (.range source ⟨toGuest⟩))
  | .squashGuest fromGuest toHost count => do
    let source ← idRangeFromU32 fromGuest count entry
    errContext entry (m.pushGuestToHost b (.squash source ⟨toHost⟩))
  | .squashHost fromHost toGuest count => do
    let source ← idRangeFromU32 fromHost count entry
    errContext entry (m.pushHostToGuest b (.squash source ⟨toGuest⟩))
  | .bidirectional guest host count => do
    let guests ← idRangeFromU32 guest count entry
    let m ← errContext entry (m.pushGuestToHost b (.range guests ⟨host⟩))
    let hosts ← idRangeFromU32 host count entry
    errContext entry (m.pushHostToGuest b (.range hosts ⟨guest⟩))
  | .forbidGuest fromGuest count => do
    -- The end is not computed by `id_range_from_u32`.
    let stop ← b.add fromGuest count
    errContext entry (m.pushGuestToHost b (.fail ⟨fromGuest, stop⟩))

/-- `TryFrom<Vec<cmdline::IdMap>>`, from the maps made so far. -/
def pushAll (b : Build) : IdMap R → List Cmdline → Outcome IoError IdPanic (IdMap R)
  | m, [] => .ok m
  | m, entry :: entries => do
    let m ← m.pushEntry b entry
    pushAll b m entries

/-- **`TryFrom<Vec<cmdline::IdMap>>`.** -/
def tryFrom (b : Build) (cmdline : List Cmdline) : Outcome IoError IdPanic (IdMap R) :=
  pushAll b empty cmdline

end IdMap

/-! ## 4. What the entries mean -/

namespace Cmdline

/-- The IDs that an entry is for, as a base and a length. -/
def source : Side → Cmdline → Option (UInt32 × UInt32)
  | .guest, guest f _ c => some (f, c)
  | .guest, squashGuest f _ c => some (f, c)
  | .guest, bidirectional g _ c => some (g, c)
  | .guest, forbidGuest f c => some (f, c)
  | .host, host f _ c => some (f, c)
  | .host, squashHost f _ c => some (f, c)
  | .host, bidirectional _ h c => some (h, c)
  | _, _ => none

/-- The entry is for this ID. -/
def Covers (s : Side) (e : Cmdline) (id : UInt32) : Prop :=
  ∃ base count, e.source s = some (base, count) ∧
    base.toNat ≤ id.toNat ∧ id.toNat < base.toNat + count.toNat

/-- **The documented value**, in unbounded integers; `none` stands for an error. -/
def documented : Side → Cmdline → UInt32 → Option Nat
  | _, guest f t _, id => some (t.toNat + (id.toNat - f.toNat))
  | _, host f t _, id => some (t.toNat + (id.toNat - f.toNat))
  | _, squashGuest _ t _, _ => some t.toNat
  | _, squashHost _ t _, _ => some t.toNat
  | .guest, bidirectional g h _, id => some (h.toNat + (id.toNat - g.toNat))
  | .host, bidirectional g h _, id => some (g.toNat + (id.toNat - h.toNat))
  | _, forbidGuest _ _, _ => none

/-- The ranges of the entry lie within the 32-bit IDs. -/
def Fits : Cmdline → Prop
  | guest f t c => f.toNat + c.toNat ≤ 2 ^ 32 ∧ t.toNat + c.toNat ≤ 2 ^ 32
  | host f t c => f.toNat + c.toNat ≤ 2 ^ 32 ∧ t.toNat + c.toNat ≤ 2 ^ 32
  | squashGuest f _ c => f.toNat + c.toNat ≤ 2 ^ 32
  | squashHost f _ c => f.toNat + c.toNat ≤ 2 ^ 32
  | bidirectional g h c => g.toNat + c.toNat ≤ 2 ^ 32 ∧ h.toNat + c.toNat ≤ 2 ^ 32
  | forbidGuest f c => f.toNat + c.toNat ≤ 2 ^ 32

/-- **What is not checked**: that the target range of a `guest` or `host` entry fits, and that
the end of a `forbid-guest` range is a 32-bit number. -/
def Representable : Cmdline → Prop
  | guest _ t c => t.toNat + c.toNat ≤ 2 ^ 32
  | host _ t c => t.toNat + c.toNat ≤ 2 ^ 32
  | forbidGuest f c => f.toNat + c.toNat < 2 ^ 32
  | _ => True

end Cmdline

/-- A documented value, as an answer. -/
def Means (id : UInt32) : Option Nat → Outcome (MapError s) IdPanic (Id t) → Prop
  | some n, o => ∃ x, o = .ok x ∧ x.inner.toNat = n
  | none, o => o = .err (.explicitFailMapping ⟨id⟩)

/-- **The answers follow the entries**: no ID has two entries, one with an entry gets its
documented value, and one without stays as it is. -/
structure Follows (s : Side) (cmdline : List Cmdline)
    (f : Id s → Outcome (MapError s) IdPanic (Id t)) : Prop where
  disjoint : cmdline.Pairwise fun e e' => ∀ id, ¬ (e.Covers s id ∧ e'.Covers s id)
  covered : ∀ e ∈ cmdline, ∀ id, e.Covers s id → Means id (e.documented s id) (f ⟨id⟩)
  identity : ∀ id, (∀ e ∈ cmdline, ¬ e.Covers s id) → f ⟨id⟩ = .ok ⟨id⟩

/-! ## 5. What is accepted -/

/-- The other side. -/
def Side.other : Side → Side
  | guest => host
  | host => guest

/-- The entry that goes into the map of one side. -/
def Cmdline.entry : (s : Side) → Cmdline → Option (MapEntry s s.other)
  | .guest, guest f t c => some (.range ⟨f, f + c⟩ ⟨t⟩)
  | .guest, squashGuest f t c => some (.squash ⟨f, f + c⟩ ⟨t⟩)
  | .guest, bidirectional g h c => some (.range ⟨g, g + c⟩ ⟨h⟩)
  | .guest, forbidGuest f c => some (.fail ⟨f, f + c⟩)
  | .host, host f t c => some (.range ⟨f, f + c⟩ ⟨t⟩)
  | .host, squashHost f t c => some (.squash ⟨f, f + c⟩ ⟨t⟩)
  | .host, bidirectional g h c => some (.range ⟨h, h + c⟩ ⟨g⟩)
  | _, _ => none

/-- What is checked of an entry. -/
def Cmdline.Checked (b : Build) : Cmdline → Prop
  | guest f _ c => f.toNat + c.toNat < 2 ^ 32
  | host f _ c => f.toNat + c.toNat < 2 ^ 32
  | squashGuest f _ c => f.toNat + c.toNat < 2 ^ 32
  | squashHost f _ c => f.toNat + c.toNat < 2 ^ 32
  | bidirectional g h c => g.toNat + c.toNat < 2 ^ 32 ∧ h.toNat + c.toNat < 2 ^ 32
  | forbidGuest f c => b = .checked → f.toNat + c.toNat < 2 ^ 32

namespace IdMap

variable {R : RangeMaps UInt32} {b : Build} {m m' : IdMap R} {e : Cmdline}

/-- An entry that may go into a map, and the map with it. -/
def Pushed (m : R.Map (MapEntry s t)) (v : Option (MapEntry s t)) (m' : R.Map (MapEntry s t)) :
    Prop :=
  match v with
  | none => m' = m
  | some v => R.intersects m v.sourceRange = false ∧ m' = R.insert m v.sourceRange v

theorem of_idRangeFromU32 {base count : UInt32} {r : HalfOpen UInt32}
    (h : idRangeFromU32 base count e = .ok r) :
    base.toNat + count.toNat < 2 ^ 32 ∧ r = ⟨base, base + count⟩ := by
  unfold idRangeFromU32 at h
  split at h
  · rename_i hlt
    cases h
    exact ⟨hlt, rfl⟩
  · cases h

theorem of_errContext {α : Type} {o : Outcome IoError IdPanic α} {a : α}
    (h : errContext e o = .ok a) : o = .ok a := by
  cases o with
  | ok a' => exact h
  | err err =>
    cases err with
    | os | custom => cases h
  | panic p => cases h

theorem of_doPush {m m' : R.Map (MapEntry s t)} {mapName : String} {v : MapEntry s t}
    (h : doPush b m mapName v = .ok m') : Pushed m (some v) m' := by
  unfold doPush at h
  cases hint : R.intersects m v.sourceRange with
  | true =>
    rw [hint, if_pos rfl] at h
    obtain ⟨text, -, herr⟩ := bind_eq_ok.mp h
    cases herr
  | false =>
    rw [hint, if_neg nofun] at h
    cases h
    exact ⟨hint, rfl⟩

theorem of_pushGuestToHost {v : MapEntry .guest .host} (h : m.pushGuestToHost b v = .ok m') :
    Pushed m.guestToHost (some v) m'.guestToHost ∧ m'.hostToGuest = m.hostToGuest := by
  obtain ⟨g, hg, hm'⟩ := bind_eq_ok.mp h
  cases hm'
  exact ⟨of_doPush hg, rfl⟩

theorem of_pushHostToGuest {v : MapEntry .host .guest} (h : m.pushHostToGuest b v = .ok m') :
    Pushed m.hostToGuest (some v) m'.hostToGuest ∧ m'.guestToHost = m.guestToHost := by
  obtain ⟨g, hg, hm'⟩ := bind_eq_ok.mp h
  cases hm'
  exact ⟨of_doPush hg, rfl⟩

theorem of_add {x y z : UInt32} (h : (b.add x y : Outcome E IdPanic UInt32) = .ok z) :
    (b = .checked → x.toNat + y.toNat < 2 ^ 32) ∧ z = x + y := by
  cases b with
  | checked =>
    unfold Build.add at h
    dsimp only at h
    split at h
    · rename_i hlt
      cases h
      exact ⟨fun _ => hlt, rfl⟩
    · cases h
  | wrapping =>
    cases h
    exact ⟨nofun, rfl⟩

/-- **What an accepted entry does.** -/
theorem of_pushEntry (h : m.pushEntry b e = .ok m') :
    e.Checked b ∧ Pushed m.guestToHost (e.entry .guest) m'.guestToHost ∧
      Pushed m.hostToGuest (e.entry .host) m'.hostToGuest := by
  cases e with
  | guest | squashGuest =>
    obtain ⟨r, hr, h⟩ := bind_eq_ok.mp h
    obtain ⟨hlt, rfl⟩ := of_idRangeFromU32 hr
    obtain ⟨hg, hh⟩ := of_pushGuestToHost (of_errContext h)
    exact ⟨hlt, hg, hh⟩
  | host | squashHost =>
    obtain ⟨r, hr, h⟩ := bind_eq_ok.mp h
    obtain ⟨hlt, rfl⟩ := of_idRangeFromU32 hr
    obtain ⟨hh, hg⟩ := of_pushHostToGuest (of_errContext h)
    exact ⟨hlt, hg, hh⟩
  | bidirectional g h' c =>
    obtain ⟨r, hr, h⟩ := bind_eq_ok.mp h
    obtain ⟨hlt, rfl⟩ := of_idRangeFromU32 hr
    obtain ⟨m₁, hm₁, h⟩ := bind_eq_ok.mp h
    obtain ⟨hg₁, hh₁⟩ := of_pushGuestToHost (of_errContext hm₁)
    obtain ⟨r', hr', h⟩ := bind_eq_ok.mp h
    obtain ⟨hlt', rfl⟩ := of_idRangeFromU32 hr'
    obtain ⟨hh, hg⟩ := of_pushHostToGuest (of_errContext h)
    rw [hh₁] at hh
    exact ⟨⟨hlt, hlt'⟩, hg ▸ hg₁, hh⟩
  | forbidGuest f c =>
    obtain ⟨stop, hstop, h⟩ := bind_eq_ok.mp h
    obtain ⟨hlt, rfl⟩ := of_add hstop
    obtain ⟨hg, hh⟩ := of_pushGuestToHost (of_errContext h)
    exact ⟨hlt, hg, hh⟩

/-- **The map of one side holds the entries of that side.** -/
structure Holds (s : Side) (m : R.Map (MapEntry s s.other)) (done : List Cmdline) : Prop where
  sound : ∀ id v, R.get m id = some v →
    ∃ e ∈ done, e.entry s = some v ∧ v.sourceRange.contains id = true
  complete : ∀ e ∈ done, ∀ v, e.entry s = some v → ∀ id, v.sourceRange.contains id = true →
    R.get m id = some v
  disjoint : done.Pairwise fun e e' => ∀ v v', e.entry s = some v → e'.entry s = some v' →
    ∀ id, ¬ (v.sourceRange.contains id = true ∧ v'.sourceRange.contains id = true)

theorem Holds.empty : Holds (R := R) s R.empty [] where
  sound id v h := by
    rw [R.get_empty] at h
    cases h
  complete e he := absurd he not_mem_nil
  disjoint := List.Pairwise.nil

theorem Holds.push {m m' : R.Map (MapEntry s s.other)} {done : List Cmdline} (h : Holds s m done)
    (hpush : Pushed m (e.entry s) m') : Holds s m' (done ++ [e]) := by
  cases hentry : e.entry s with
  | none =>
    rw [hentry] at hpush
    cases (show m' = m from hpush)
    refine ⟨fun id v hv => ?_, fun e' he' v hv => ?_, ?_⟩
    · obtain ⟨e', he', hv⟩ := h.sound id v hv
      exact ⟨e', mem_append_left _ he', hv⟩
    · rcases mem_append.mp he' with he' | he'
      · exact h.complete e' he' v hv
      · rw [mem_singleton.mp he', hentry] at hv
        cases hv
    · refine pairwise_append.mpr ⟨h.disjoint, pairwise_singleton _ _, ?_⟩
      intro e₁ _ e₂ he₂ v v' _ hv'
      rw [mem_singleton.mp he₂, hentry] at hv'
      cases hv'
  | some w =>
    rw [hentry] at hpush
    obtain ⟨hfree, rfl⟩ := hpush
    have hfree' : ∀ id, w.sourceRange.contains id = true → R.get m id = none := by
      intro id hid
      cases hget : R.get m id with
      | none => rfl
      | some v =>
        have hint := (R.intersects_iff m w.sourceRange).mpr ⟨id, hid, by rw [hget]; rfl⟩
        rw [hfree] at hint
        cases hint
    refine ⟨fun id v hv => ?_, fun e' he' v hv id hid => ?_, ?_⟩
    · rw [R.get_insert] at hv
      split at hv
      · rename_i hid
        cases hv
        exact ⟨e, mem_append_right _ (mem_singleton_self e), hentry, hid⟩
      · obtain ⟨e', he', hv⟩ := h.sound id v hv
        exact ⟨e', mem_append_left _ he', hv⟩
    · rw [R.get_insert]
      rcases mem_append.mp he' with he' | he'
      · have hget := h.complete e' he' v hv id hid
        rw [if_neg fun hw => by rw [hfree' id hw] at hget; cases hget]
        exact hget
      · rw [mem_singleton.mp he', hentry] at hv
        cases hv
        exact if_pos hid
    · refine pairwise_append.mpr ⟨h.disjoint, pairwise_singleton _ _, ?_⟩
      intro e₁ he₁ e₂ he₂ v v' hv hv' id hid
      rw [mem_singleton.mp he₂, hentry] at hv'
      cases hv'
      have hget := h.complete e₁ he₁ v hv id hid.1
      rw [hfree' id hid.2] at hget
      cases hget

/-- All that was accepted is checked, and in the maps. -/
theorem of_pushAll : ∀ {entries done : List Cmdline} {m : IdMap R},
    Holds .guest m.guestToHost done → Holds .host m.hostToGuest done →
      (∀ e ∈ done, e.Checked b) → pushAll b m entries = .ok m' →
        Holds .guest m'.guestToHost (done ++ entries) ∧
          Holds .host m'.hostToGuest (done ++ entries) ∧ ∀ e ∈ done ++ entries, e.Checked b
  | [], done, m, hg, hh, hchecked, h => by
    cases h
    rw [append_nil]
    exact ⟨hg, hh, hchecked⟩
  | e :: entries, done, m, hg, hh, hchecked, h => by
    obtain ⟨m₁, hm₁, h⟩ := bind_eq_ok.mp h
    obtain ⟨hc, hpushG, hpushH⟩ := of_pushEntry hm₁
    have hchecked' : ∀ e' ∈ done ++ [e], e'.Checked b := by
      intro e' he'
      rcases mem_append.mp he' with he' | he'
      · exact hchecked e' he'
      · exact mem_singleton.mp he' ▸ hc
    have hrest := of_pushAll (hg.push hpushG) (hh.push hpushH) hchecked' h
    rw [append_assoc, singleton_append] at hrest
    exact hrest

variable {cmdline : List Cmdline}

theorem of_tryFrom {m : IdMap R} (h : tryFrom b cmdline = .ok m) :
    Holds .guest m.guestToHost cmdline ∧ Holds .host m.hostToGuest cmdline ∧
      ∀ e ∈ cmdline, e.Checked b :=
  of_pushAll Holds.empty Holds.empty (fun _ he => absurd he not_mem_nil) h

/-! ## 6. Ranges in 32 bits -/

variable {base count id : UInt32} {v : MapEntry s s.other}

/-- A range that wraps around is empty. -/
theorem bounds_of_contains (h : HalfOpen.contains ⟨base, base + count⟩ id = true) :
    base.toNat ≤ id.toNat ∧ id.toNat < base.toNat + count.toNat := by
  obtain ⟨hle, hlt⟩ := HalfOpen.contains_iff.mp h
  have hlt' : id.toNat < (base.toNat + count.toNat) % 2 ^ 32 := by
    rw [← UInt32.toNat_add]
    exact UInt32.lt_iff_toNat_lt.mp hlt
  exact ⟨UInt32.le_iff_toNat_le.mp hle, lt_of_lt_of_le hlt' (Nat.mod_le _ _)⟩

theorem contains_of_bounds (hfits : base.toNat + count.toNat < 2 ^ 32)
    (hle : base.toNat ≤ id.toNat) (hlt : id.toNat < base.toNat + count.toNat) :
    HalfOpen.contains ⟨base, base + count⟩ id = true := by
  refine HalfOpen.contains_iff.mpr ⟨UInt32.le_iff_toNat_le.mpr hle, UInt32.lt_iff_toNat_lt.mpr ?_⟩
  rw [UInt32.toNat_add, Nat.mod_eq_of_lt hfits]
  exact hlt

theorem source_of_entry (h : e.entry s = some v) :
    ∃ base count, e.source s = some (base, count) ∧ v.sourceRange = ⟨base, base + count⟩ := by
  cases s <;> cases e <;> cases h <;> exact ⟨_, _, rfl, rfl⟩

theorem entry_of_source (h : e.source s = some (base, count)) :
    ∃ v, e.entry s = some v ∧ v.sourceRange = ⟨base, base + count⟩ := by
  cases s <;> cases e <;> cases h <;> exact ⟨_, rfl, rfl⟩

theorem covers_of_contains (h : e.entry s = some v) (hid : v.sourceRange.contains id = true) :
    e.Covers s id := by
  obtain ⟨base, count, hsource, hrange⟩ := source_of_entry h
  rw [hrange] at hid
  exact ⟨base, count, hsource, bounds_of_contains hid⟩

/-- With both kinds of checks no source range wraps around. -/
theorem source_lt (hc : e.Checked b) (hr : e.Representable)
    (h : e.source s = some (base, count)) : base.toNat + count.toNat < 2 ^ 32 := by
  cases s <;> cases e <;> cases h <;> first | exact hc | exact hr | exact hc.1 | exact hc.2

theorem contains_of_covers (hc : e.Checked b) (hr : e.Representable) (h : e.Covers s id) :
    ∃ v, e.entry s = some v ∧ v.sourceRange.contains id = true := by
  obtain ⟨base, count, hsource, hle, hlt⟩ := h
  obtain ⟨v, hv, hrange⟩ := entry_of_source hsource
  refine ⟨v, hv, ?_⟩
  rw [hrange]
  exact contains_of_bounds (source_lt hc hr hsource) hle hlt

/-- A range entry maps by its offset, if the target range fits. -/
theorem map_range {target : UInt32} (hid : HalfOpen.contains ⟨base, base + count⟩ id = true)
    (hfits : target.toNat + count.toNat ≤ 2 ^ 32) :
    ∃ x, (MapEntry.range ⟨base, base + count⟩ ⟨target⟩ : MapEntry s t).map b ⟨id⟩ = .ok x ∧
      x.inner.toNat = target.toNat + (id.toNat - base.toNat) := by
  obtain ⟨hle, hlt⟩ := bounds_of_contains hid
  have hbase : base ≤ id := UInt32.le_iff_toNat_le.mpr hle
  have hoffset : (id - base).toNat = id.toNat - base.toNat := UInt32.toNat_sub_of_le _ _ hbase
  have hsum : target.toNat + (id - base).toNat < 2 ^ 32 := by
    rw [hoffset]
    omega
  refine ⟨⟨target + (id - base)⟩, ?_, ?_⟩
  · unfold MapEntry.map
    dsimp only
    rw [if_pos hid]
    cases b with
    | wrapping => rfl
    | checked =>
      unfold Build.sub Build.add
      dsimp only
      rw [if_pos hbase, ok_bind, if_pos hsum]
      rfl
  · show (target + (id - base)).toNat = _
    rw [UInt32.toNat_add, Nat.mod_eq_of_lt hsum, hoffset]

/-- **An entry means what is documented**, if its ranges fit. -/
theorem map_means (hc : e.Checked b) (hr : e.Representable) (h : e.entry s = some v)
    (hid : v.sourceRange.contains id = true) :
    Means id (e.documented s id) (v.map b ⟨id⟩) := by
  cases s <;> cases e <;> cases h
  case guest.guest => exact map_range hid hr
  case host.host => exact map_range hid hr
  case guest.bidirectional => exact map_range hid hc.2.le
  case host.bidirectional => exact map_range hid hc.1.le
  case guest.squashGuest => exact ⟨_, if_pos hid, rfl⟩
  case host.squashHost => exact ⟨_, if_pos hid, rfl⟩
  case guest.forbidGuest => exact if_pos hid

theorem fits_of_checked (hc : e.Checked b) (hr : e.Representable) : e.Fits := by
  cases e with
  | guest | host => exact ⟨hc.le, hr⟩
  | squashGuest | squashHost => exact hc.le
  | bidirectional g h c => exact ⟨hc.1.le, hc.2.le⟩
  | forbidGuest f c => exact hr.le

/-! ## 7. The translation -/

theorem Holds.follows {m : R.Map (MapEntry s s.other)} (h : Holds s m cmdline)
    (hc : ∀ e ∈ cmdline, e.Checked b) (hr : ∀ e ∈ cmdline, e.Representable) :
    Follows s cmdline (lookup b m) where
  disjoint := by
    refine h.disjoint.imp_of_mem fun {e e'} he he' hdisjoint id hcovers => ?_
    obtain ⟨v, hv, hid⟩ := contains_of_covers (hc e he) (hr e he) hcovers.1
    obtain ⟨v', hv', hid'⟩ := contains_of_covers (hc e' he') (hr e' he') hcovers.2
    exact hdisjoint v v' hv hv' id ⟨hid, hid'⟩
  covered e he id hcovers := by
    obtain ⟨v, hv, hid⟩ := contains_of_covers (hc e he) (hr e he) hcovers
    unfold lookup
    dsimp only
    rw [h.complete e he v hv id hid]
    exact map_means (hc e he) (hr e he) hv hid
  identity id hnone := by
    unfold lookup
    dsimp only
    cases hget : R.get m id with
    | none => rfl
    | some v =>
      obtain ⟨e, he, hv, hid⟩ := h.sound id v hget
      exact absurd (covers_of_contains hv hid) (hnone e he)

theorem follows_of_tryFrom {m : IdMap R} (h : tryFrom b cmdline = .ok m)
    (hr : ∀ e ∈ cmdline, e.Representable) :
    Follows .guest cmdline (m.mapGuest b) ∧ Follows .host cmdline (m.mapHost b) := by
  obtain ⟨hguest, hhost, hchecked⟩ := of_tryFrom h
  exact ⟨hguest.follows hchecked hr, hhost.follows hchecked hr⟩

/-- A forbidden range that ends at `2 ^ 32` forbids nothing. -/
theorem not_follows_of_wraps {m : R.Map (MapEntry .guest .host)} (h : Holds .guest m cmdline)
    {f c : UInt32} (hmem : Cmdline.forbidGuest f c ∈ cmdline)
    (hwraps : f.toNat + c.toNat = 2 ^ 32) : ¬ Follows .guest cmdline (lookup b m) := by
  intro hfollows
  have hf := f.toNat_lt
  have hcovers : (Cmdline.forbidGuest f c).Covers .guest f :=
    ⟨f, c, rfl, le_rfl, by omega⟩
  have hrefused : lookup b m ⟨f⟩ = .err (.explicitFailMapping ⟨f⟩) :=
    hfollows.covered _ hmem f hcovers
  unfold lookup at hrefused
  dsimp only at hrefused
  cases hget : R.get m f with
  | none =>
    rw [hget] at hrefused
    cases hrefused
  | some v =>
    -- The entry that the look-up finds is another one, and it covers the ID too.
    obtain ⟨e, he, hv, hid⟩ := h.sound f v hget
    have hne : Cmdline.forbidGuest f c ≠ e := by
      rintro rfl
      cases hv
      obtain ⟨-, hlt⟩ := HalfOpen.contains_iff.mp hid
      have hlt' : f.toNat < (f + c).toNat := UInt32.lt_iff_toNat_lt.mp hlt
      rw [UInt32.toNat_add, hwraps, Nat.mod_self] at hlt'
      exact absurd hlt' (Nat.not_lt_zero _)
    have : Std.Symm fun e e' : Cmdline =>
        ∀ id, ¬ (e.Covers .guest id ∧ e'.Covers .guest id) :=
      ⟨fun e e' h id hid => h id hid.symm⟩
    exact hfollows.disjoint.forall hmem he hne f ⟨hcovers, covers_of_contains hv hid⟩

/-- **The ID maps mean what the options say, exactly if every entry that is accepted is
representable**: a `guest` or `host` entry has a target range of 32-bit IDs, and the end of a
forbidden range is a 32-bit number. -/
theorem maps_as_documented_iff (R : RangeMaps UInt32) (b : Build) (cmdline : List Cmdline)
    (m : IdMap R) (h : tryFrom b cmdline = .ok m) :
    (∀ e ∈ cmdline, e.Fits) ∧ Follows .guest cmdline (m.mapGuest b) ∧
        Follows .host cmdline (m.mapHost b) ↔
      ∀ e ∈ cmdline, e.Representable := by
  obtain ⟨hguest, -, hchecked⟩ := of_tryFrom h
  constructor
  · rintro ⟨hfits, hfollows, -⟩ e he
    have hfit := hfits e he
    cases e with
    | guest | host => exact hfit.2
    | squashGuest | squashHost | bidirectional => trivial
    | forbidGuest f c =>
      refine lt_of_le_of_ne hfit fun hwraps => ?_
      exact not_follows_of_wraps hguest he hwraps hfollows
  · intro hr
    exact ⟨fun e he => fits_of_checked (hchecked e he) (hr e he), follows_of_tryFrom h hr⟩

/-- What a release makes of `forbid-guest:4294967295:1` and of `guest:5:4294967295:2`: the
forbidden ID is let through, and the ID 6 becomes root.  With overflow checks the daemon stops
when the ID 6 is used. -/
theorem maps_undocumented :
    (∃ m : IdMap (.list UInt32), tryFrom .wrapping [.forbidGuest 4294967295 1] = .ok m ∧
      m.mapGuest .wrapping ⟨4294967295⟩ = .ok ⟨4294967295⟩ ∧
      (Cmdline.forbidGuest 4294967295 1).documented .guest 4294967295 = none) ∧
    (∃ m : IdMap (.list UInt32), tryFrom .wrapping [.guest 5 4294967295 2] = .ok m ∧
      m.mapGuest .wrapping ⟨6⟩ = .ok ⟨0⟩) ∧
    ∃ m : IdMap (.list UInt32), tryFrom .checked [.guest 5 4294967295 2] = .ok m ∧
      m.mapGuest .checked ⟨6⟩ = .panic .overflow :=
  ⟨⟨_, rfl, rfl, rfl⟩, ⟨_, rfl, rfl⟩, _, rfl, rfl⟩

theorem maps_as_documented_iff_map :
    ∃ m : IdMap (.list UInt32), tryFrom .wrapping [.bidirectional 1000 0 10] = .ok m ∧
      ((∀ e ∈ [Cmdline.bidirectional 1000 0 10], e.Fits) ∧
          Follows .guest [.bidirectional 1000 0 10] (m.mapGuest .wrapping) ∧
          Follows .host [.bidirectional 1000 0 10] (m.mapHost .wrapping) ↔
        ∀ e ∈ [Cmdline.bidirectional 1000 0 10], e.Representable) :=
  ⟨_, rfl, maps_as_documented_iff (.list UInt32) .wrapping [.bidirectional 1000 0 10] _ rfl⟩

end IdMap

/-! ## 8. The maps that requests use -/

/-- What `map_guest_uid` and its like make of an answer that is no panic.  The error has no
number. -/
def idAnswer : Outcome (MapError s) IdPanic (Id t) → Option (Except IoError UInt32)
  | .ok id => some (.ok id.inner)
  | .err (.explicitFailMapping id) => some (.error (.custom .permissionDenied
      ("Use of ID " ++ toString id.inner ++ " has been configured to fail")))
  | .panic _ => none

/-- **The functions that requests use a map through.** -/
structure IdMap.Provides {R : RangeMaps UInt32} (b : Build) (m : IdMap R)
    (requests : Virtiofsd.IdMap) : Prop where
  guest : ∀ id, idAnswer (m.mapGuest b ⟨id⟩) = some (requests.mapGuest id)
  host : ∀ id, idAnswer (m.mapHost b ⟨id⟩) = some (requests.mapHost id)

/-- Answers that follow the entries are no panics. -/
theorem Follows.idAnswer {cmdline : List Cmdline} {f : Id s → Outcome (MapError s) IdPanic (Id t)}
    (h : Follows s cmdline f) (id : UInt32) : ∃ r, idAnswer (f ⟨id⟩) = some r := by
  by_cases hcovered : ∃ e ∈ cmdline, e.Covers s id
  · obtain ⟨e, he, hcovers⟩ := hcovered
    have hmeans := h.covered e he id hcovers
    cases hvalue : e.documented s id with
    | none =>
      rw [hvalue] at hmeans
      exact ⟨_, by rw [show f ⟨id⟩ = _ from hmeans]; rfl⟩
    | some n =>
      rw [hvalue] at hmeans
      obtain ⟨x, hx, -⟩ := hmeans
      exact ⟨_, by rw [hx]; rfl⟩
  · rw [h.identity id fun e he hcovers => hcovered ⟨e, he, hcovers⟩]
    exact ⟨_, rfl⟩

/-- **Every map of the command line whose entries are representable is one for requests.** -/
theorem IdMap.exists_provides {R : RangeMaps UInt32} {b : Build} {cmdline : List Cmdline}
    {m : IdMap R} (h : tryFrom b cmdline = .ok m) (hr : ∀ e ∈ cmdline, e.Representable) :
    ∃ requests, m.Provides b requests := by
  obtain ⟨hguest, hhost⟩ := follows_of_tryFrom h hr
  choose guest hg using hguest.idAnswer
  choose host hh using hhost.idAnswer
  exact ⟨⟨guest, host⟩, hg, hh⟩

/-- The map of `forbid-guest:7:1`. -/
def sevenForbiddenMap : Virtiofsd.IdMap where
  mapGuest id := if id = 7 then .error (.custom .permissionDenied
    "Use of ID 7 has been configured to fail") else .ok id
  mapHost := .ok

theorem sevenForbiddenMap_provides : ∃ m : IdMap (.list UInt32),
    IdMap.tryFrom .wrapping [.forbidGuest 7 1] = .ok m ∧
      m.Provides .wrapping sevenForbiddenMap := by
  refine ⟨_, rfl, fun id => ?_, fun id => rfl⟩
  by_cases hid : id = 7
  · subst hid
    rfl
  · have hcontains : ¬ HalfOpen.contains ⟨(7 : UInt32), 7 + 1⟩ id = true := by
      intro h
      obtain ⟨hle, hlt⟩ := IdMap.bounds_of_contains h
      exact hid (UInt32.toNat.inj (by simp at hle hlt ⊢; omega))
    show idAnswer (IdMap.lookup .wrapping _ _) = _
    unfold IdMap.lookup
    dsimp only [IdMap.empty, MapEntry.sourceRange]
    rw [RangeMaps.get_insert, if_neg hcontains, RangeMaps.get_empty]
    simp [sevenForbiddenMap, hid, idAnswer, Id.idMapped]

end SoftIdmap

end Virtiofsd
