/-
  # Two-way ID maps (`soft_idmap/mod.rs`)

  A `map` entry goes into both range maps.  Within its ranges the two translations undo each
  other, whatever else is in the maps, and the order of the entries on the command line does not
  matter (`inverse_and_order_free`).

  Whether an entry is accepted is decided when it is pushed, from the entries before it.  But all
  that is asked is that no two entries of a side share an ID (`Apart`), and the maps hold the same
  entries in whatever order they came (`Holds`).  Empty ranges share an ID with nothing.
-/
import Virtiofsd.SoftIdmap

namespace Virtiofsd

open Lib

namespace SoftIdmap

attribute [local instance] idOrder

namespace IdMap

variable {R : RangeMaps UInt32} {b : Build} {s t : Side}

/-! ## 1. There and back -/

/-- **A range that is mapped to another, and back.** -/
theorem lookup_lookup {m : R.Map (MapEntry s t)} {m' : R.Map (MapEntry t s)}
    {base target count id : UInt32}
    (hget : ∀ id, HalfOpen.contains ⟨base, base + count⟩ id = true →
      R.get m id = some (.range ⟨base, base + count⟩ ⟨target⟩))
    (hget' : ∀ id, HalfOpen.contains ⟨target, target + count⟩ id = true →
      R.get m' id = some (.range ⟨target, target + count⟩ ⟨base⟩))
    (hbase : base.toNat + count.toNat < 2 ^ 32) (htarget : target.toNat + count.toNat < 2 ^ 32)
    (hle : base.toNat ≤ id.toNat) (hlt : id.toNat < base.toNat + count.toNat) :
    ∃ x, lookup b m ⟨id⟩ = .ok x ∧ lookup b m' x = .ok ⟨id⟩ := by
  have hid := contains_of_bounds hbase hle hlt
  obtain ⟨x, hx, hxval⟩ := map_range (b := b) (s := s) (t := t) hid htarget.le
  have hx' : HalfOpen.contains ⟨target, target + count⟩ x.inner = true :=
    contains_of_bounds htarget (by omega) (by omega)
  obtain ⟨y, hy, hyval⟩ := map_range (b := b) (s := t) (t := s) hx' hbase.le
  have hback : y = ⟨id⟩ := by
    obtain ⟨y⟩ := y
    congr 1
    refine UInt32.toNat_inj.mp ?_
    dsimp only at hyval
    omega
  refine ⟨x, ?_, ?_⟩
  · unfold lookup
    dsimp only
    rw [hget id hid]
    exact hx
  · unfold lookup
    rw [hget' x.inner hx']
    exact hy.trans (congrArg _ hback)

/-! ## 2. What is accepted, in any order -/

/-- **Two entries that may go into one map**: no ID is in the ranges of both. -/
def Apart (s : Side) (e e' : Cmdline) : Prop :=
  ∀ v v', e.entry s = some v → e'.entry s = some v' →
    ∀ id, ¬ (v.sourceRange.contains id = true ∧ v'.sourceRange.contains id = true)

theorem Apart.symm {e e' : Cmdline} (h : Apart s e e') : Apart s e' e :=
  fun v v' hv hv' id hid => h v' v hv' hv id hid.symm

/-- Nothing in the map is in the way of an entry. -/
def Free (m : R.Map (MapEntry s t)) (v : Option (MapEntry s t)) : Prop :=
  ∀ w, v = some w → R.intersects m w.sourceRange = false

theorem Holds.free {m : R.Map (MapEntry s s.other)} {done : List Cmdline} {e : Cmdline}
    (h : Holds s m done) (hapart : ∀ e' ∈ done, Apart s e' e) : Free m (e.entry s) := by
  intro w hw
  rw [Bool.eq_false_iff]
  intro hint
  obtain ⟨id, hid, hsome⟩ := (R.intersects_iff m w.sourceRange).mp hint
  obtain ⟨v, hv⟩ := Option.isSome_iff_exists.mp hsome
  obtain ⟨e', he', hentry, hid'⟩ := h.sound id v hv
  exact hapart e' he' v w hentry hw id ⟨hid', hid⟩

theorem idRangeFromU32_ok {base count : UInt32} (e : Cmdline)
    (h : base.toNat + count.toNat < 2 ^ 32) :
    idRangeFromU32 base count e = .ok ⟨base, base + count⟩ := if_pos h

theorem pushGuestToHost_ok {m : IdMap R} {v : MapEntry .guest .host} (e : Cmdline)
    (h : R.intersects m.guestToHost v.sourceRange = false) :
    errContext e (m.pushGuestToHost b v) =
      .ok ⟨R.insert m.guestToHost v.sourceRange v, m.hostToGuest⟩ := by
  simp [pushGuestToHost, doPush, h, errContext]

theorem pushHostToGuest_ok {m : IdMap R} {v : MapEntry .host .guest} (e : Cmdline)
    (h : R.intersects m.hostToGuest v.sourceRange = false) :
    errContext e (m.pushHostToGuest b v) =
      .ok ⟨m.guestToHost, R.insert m.hostToGuest v.sourceRange v⟩ := by
  simp [pushHostToGuest, doPush, h, errContext]

/-- **An entry that is checked and in nobody's way is accepted.** -/
theorem pushEntry_ok {m : IdMap R} {e : Cmdline} (hc : e.Checked b)
    (hguest : Free m.guestToHost (e.entry .guest)) (hhost : Free m.hostToGuest (e.entry .host)) :
    ∃ m', m.pushEntry b e = .ok m' := by
  cases e with
  | guest | squashGuest =>
    simp only [pushEntry, idRangeFromU32_ok _ hc, Outcome.ok_bind]
    exact ⟨_, pushGuestToHost_ok _ (hguest _ rfl)⟩
  | host | squashHost =>
    simp only [pushEntry, idRangeFromU32_ok _ hc, Outcome.ok_bind]
    exact ⟨_, pushHostToGuest_ok _ (hhost _ rfl)⟩
  | bidirectional g h c =>
    have hpush := pushGuestToHost_ok (b := b) (.bidirectional g h c) (hguest _ rfl)
    simp only [pushEntry, idRangeFromU32_ok _ hc.1, idRangeFromU32_ok _ hc.2, Outcome.ok_bind]
    -- the second push meets the host map as it was
    exact ⟨_, Outcome.bind_eq_ok.mpr ⟨_, hpush, pushHostToGuest_ok _ (hhost _ rfl)⟩⟩
  | forbidGuest f c =>
    have hadd : (b.add f c : Outcome IoError IdPanic UInt32) = .ok (f + c) := by
      cases b with
      | checked => exact if_pos (hc rfl)
      | wrapping => rfl
    simp only [pushEntry, hadd, Outcome.ok_bind]
    exact ⟨_, pushGuestToHost_ok _ (hguest _ rfl)⟩

theorem pushAll_ok : ∀ {entries done : List Cmdline} {m : IdMap R},
    Holds .guest m.guestToHost done → Holds .host m.hostToGuest done →
      (∀ e ∈ entries, e.Checked b) → (done ++ entries).Pairwise (Apart .guest) →
        (done ++ entries).Pairwise (Apart .host) → ∃ m', pushAll b m entries = .ok m'
  | [], done, m, _, _, _, _, _ => ⟨m, rfl⟩
  | e :: entries, done, m, hg, hh, hc, hpg, hph => by
    have hfree : ∀ {s : Side} {m : R.Map (MapEntry s s.other)}, Holds s m done →
        (done ++ e :: entries).Pairwise (Apart s) → Free m (e.entry s) :=
      fun hholds hpairs => hholds.free fun e' he' =>
        (List.pairwise_append.mp hpairs).2.2 e' he' e List.mem_cons_self
    obtain ⟨m₁, hm₁⟩ := pushEntry_ok (hc e List.mem_cons_self) (hfree hg hpg) (hfree hh hph)
    obtain ⟨-, hpushG, hpushH⟩ := of_pushEntry hm₁
    rw [← List.singleton_append, ← List.append_assoc] at hpg hph
    obtain ⟨m', hm'⟩ := pushAll_ok (hg.push hpushG) (hh.push hpushH)
      (fun e' he' => hc e' (List.mem_cons_of_mem e he')) hpg hph
    exact ⟨m', by rw [pushAll, hm₁, Outcome.ok_bind, hm']⟩

/-- The entry of an ID does not depend on the order. -/
theorem Holds.get_eq {m m' : R.Map (MapEntry s s.other)} {done done' : List Cmdline}
    (h : Holds s m done) (h' : Holds s m' done') (hmem : ∀ e, e ∈ done' ↔ e ∈ done) (id : UInt32) :
    R.get m' id = R.get m id := by
  refine Option.ext fun v => ?_
  constructor
  · intro hv
    obtain ⟨e, he, hentry, hid⟩ := h'.sound id v hv
    exact h.complete e ((hmem e).mp he) v hentry id hid
  · intro hv
    obtain ⟨e, he, hentry, hid⟩ := h.sound id v hv
    exact h'.complete e ((hmem e).mpr he) v hentry id hid

theorem lookup_congr {m m' : R.Map (MapEntry s t)} (h : ∀ id, R.get m' id = R.get m id) :
    lookup b m' = lookup b m := by
  funext id
  rw [lookup, lookup, h]

/-! ## 3. The two functions -/

/-- **`map` entries are inverse, and the order of the entries does not matter.** -/
theorem inverse_and_order_free (R : RangeMaps UInt32) (b : Build) (cmdline : List Cmdline)
    (m : IdMap R) (h : tryFrom b cmdline = .ok m) :
    (∀ guest host count, .bidirectional guest host count ∈ cmdline →
      (∀ id : UInt32, guest.toNat ≤ id.toNat → id.toNat < guest.toNat + count.toNat →
        ∃ x, m.mapGuest b ⟨id⟩ = .ok x ∧ m.mapHost b x = .ok ⟨id⟩) ∧
      ∀ id : UInt32, host.toNat ≤ id.toNat → id.toNat < host.toNat + count.toNat →
        ∃ x, m.mapHost b ⟨id⟩ = .ok x ∧ m.mapGuest b x = .ok ⟨id⟩) ∧
    ∀ cmdline' : List Cmdline, cmdline'.Perm cmdline →
      ∃ m' : IdMap R, tryFrom b cmdline' = .ok m' ∧ m'.mapGuest b = m.mapGuest b ∧
        m'.mapHost b = m.mapHost b := by
  obtain ⟨hguest, hhost, hchecked⟩ := of_tryFrom h
  constructor
  · intro g h' c hmem
    obtain ⟨hg, hh⟩ : g.toNat + c.toNat < 2 ^ 32 ∧ h'.toNat + c.toNat < 2 ^ 32 :=
      hchecked _ hmem
    have hgetG := hguest.complete _ hmem _ rfl
    have hgetH := hhost.complete _ hmem _ rfl
    exact ⟨fun id hle hlt => lookup_lookup hgetG hgetH hg hh hle hlt,
      fun id hle hlt => lookup_lookup hgetH hgetG hh hg hle hlt⟩
  · intro cmdline' hperm
    have hpairs : ∀ {s : Side}, cmdline.Pairwise (Apart s) → cmdline'.Pairwise (Apart s) :=
      fun hpairs => hperm.symm.pairwise hpairs fun hapart => hapart.symm
    obtain ⟨m', hm'⟩ : ∃ m' : IdMap R, tryFrom b cmdline' = .ok m' :=
      pushAll_ok Holds.empty Holds.empty (fun e he => hchecked e (hperm.mem_iff.mp he))
        (hpairs hguest.disjoint) (hpairs hhost.disjoint)
    obtain ⟨hguest', hhost', -⟩ := of_tryFrom hm'
    have hmem : ∀ e, e ∈ cmdline' ↔ e ∈ cmdline := fun e => hperm.mem_iff
    exact ⟨m', hm', lookup_congr (hguest.get_eq hguest' hmem),
      lookup_congr (hhost.get_eq hhost' hmem)⟩

/-- Root of the guest as the user 1000 of the host, and an empty range. -/
theorem inverse_and_order_free_root :
    ∃ m : IdMap (.list UInt32),
      tryFrom .wrapping [.bidirectional 0 1000 1, .forbidGuest 0 0] = .ok m ∧
      (∃ x, m.mapGuest .wrapping ⟨0⟩ = .ok x ∧ m.mapHost .wrapping x = .ok ⟨0⟩) ∧
      ∃ m' : IdMap (.list UInt32),
        tryFrom .wrapping [.forbidGuest 0 0, .bidirectional 0 1000 1] = .ok m' ∧
          m'.mapGuest .wrapping = m.mapGuest .wrapping ∧
          m'.mapHost .wrapping = m.mapHost .wrapping := by
  have hall := inverse_and_order_free (.list UInt32) .wrapping
    [.bidirectional 0 1000 1, .forbidGuest 0 0] _ rfl
  exact ⟨_, rfl, (hall.1 0 1000 1 List.mem_cons_self).1 0 (by decide) (by decide),
    hall.2 _ (List.Perm.swap _ _ _)⟩

end IdMap

end SoftIdmap

end Virtiofsd
