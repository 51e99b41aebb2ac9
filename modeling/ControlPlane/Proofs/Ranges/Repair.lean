import ControlPlane.Proofs.Alone
import ControlPlane.Proofs.Ranges.Reachable

/-! Rebuilding as repair. Whatever ranges an address store holds, also such that overlap, are stale
or are missing, rebuilding some subnets leaves the pools of these with their free runs. It changes
nothing else, and has nothing left to do when it is asked again. -/

namespace ControlPlane

open Ip (Address freeRuns)

/-- Pools and ranges are stored under their own identifiers, and those of the ranges were drawn. -/
structure Ipam.Keyed (ipam : Ipam) (supply : Supply) : Prop where
  pool : ∀ ⦃id pool⦄, ipam.pools.find? id = some pool → pool.id = id
  ranges : RangesKeyed ipam.ranges supply

namespace Ipam

/-- The ranges of a pool have the bounds of its free runs. -/
def Fits (ipam : Ipam) (pool : Pool) : Prop :=
  (ipam.poolRanges pool.id).map FreeRange.span =
    freeRuns pool.span ((ipam.allocationsOf pool.subnet).map Allocation.address)

/-- A pool has the same rows before and after. -/
def SameRanges (before after : Ipam) (pool : PoolId) : Prop :=
  ∀ id range, range.pool = pool →
    (after.ranges.find? id = some range ↔ before.ranges.find? id = some range)

/-- An address store before and after the ranges of the listed pools were rebuilt. -/
structure Repairs (before : Ipam) (listed : Pool → Prop) (after : Ipam) : Prop where
  unranged : after.unranged = before.unranged
  fits : ∀ id pool, before.pools.find? id = some pool → listed pool → after.Fits pool
  kept : ∀ id, (∀ pool, before.pools.find? id = some pool → listed pool → before.Fits pool) →
    before.SameRanges after id

variable {before mid after ipam : Ipam} {supply later : Supply} {pool : Pool}
  {listed listed' : Pool → Prop}

theorem SameRanges.trans {id : PoolId} (h : before.SameRanges mid id)
    (h' : mid.SameRanges after id) : before.SameRanges after id :=
  fun rid range hr => (h' rid range hr).trans (h rid range hr)

theorem SameRanges.poolRanges_eq {id : PoolId} (h : before.SameRanges after id) :
    after.poolRanges id = before.poolRanges id := by
  have hvalues (ipam : Ipam) : (ipam.ranges.filter fun _ range => range.pool = id).values =
      ipam.ranges.values.filter fun range => range.pool = id := by
    simp only [Table.values, Table.filter, List.filter_map, Function.comp_def]
  have htable : (after.ranges.filter fun _ range => range.pool = id) =
      before.ranges.filter fun _ range => range.pool = id := by
    refine Table.eq_of_find? fun rid => ?_
    ext range
    simp only [Table.find?_filter, Option.filter_eq_some_iff, decide_eq_true_eq]
    exact and_congr_left fun hr => h rid range hr
  unfold poolRanges
  rw [← hvalues, ← hvalues, htable]

theorem SameRanges.fits_iff (h : before.SameRanges after pool.id)
    (hu : after.unranged = before.unranged) : after.Fits pool ↔ before.Fits pool := by
  obtain ⟨_, _, _, hallocations⟩ := unranged_inj.1 hu
  unfold Fits allocationsOf
  rw [h.poolRanges_eq, hallocations]

theorem Keyed.of_extends (h : ipam.Keyed supply) (he : later.Extends supply) : ipam.Keyed later :=
  ⟨h.pool, h.ranges.of_extends he⟩

theorem Keyed.of_unranged (h : before.Keyed supply) (hk : RangesKeyed after.ranges later)
    (hu : after.unranged = before.unranged) : after.Keyed later := by
  obtain ⟨_, _, hpools, _⟩ := unranged_inj.1 hu
  exact ⟨hpools ▸ h.pool, hk⟩

theorem Repairs.none (h : ∀ pool, ¬ listed pool) : before.Repairs listed before :=
  ⟨rfl, fun _ pool _ hl => absurd hl (h pool), fun _ _ _ _ _ => Iff.rfl⟩

theorem Repairs.congr (h : before.Repairs listed after)
    (hl : ∀ id pool, before.pools.find? id = some pool → (listed pool ↔ listed' pool)) :
    before.Repairs listed' after := by
  refine ⟨h.unranged, fun id pool hp hp' => h.fits id pool hp ((hl id pool hp).2 hp'), ?_⟩
  exact fun id hf => h.kept id fun pool hp hp' => hf pool hp ((hl id pool hp).1 hp')

/-- What is repaired after other pools leaves these as they were repaired. -/
theorem Repairs.trans (hk : before.Keyed supply) (h : before.Repairs listed mid)
    (h' : mid.Repairs listed' after) :
    before.Repairs (fun pool => listed pool ∨ listed' pool) after := by
  have hu := h'.unranged
  obtain ⟨_, _, hpools, _⟩ := unranged_inj.1 h.unranged
  have hkept (id : PoolId) (hf : ∀ pool, before.pools.find? id = some pool → listed' pool →
      mid.Fits pool) : mid.SameRanges after id := h'.kept id (hpools ▸ hf)
  refine ⟨hu.trans h.unranged, fun id pool hp hl => ?_, fun id hf => ?_⟩
  · by_cases hl' : listed' pool
    · exact h'.fits id pool (hpools ▸ hp) hl'
    -- Only the pool itself has its identifier, and it is not rebuilt again.
    have hsame : mid.SameRanges after pool.id := by
      refine hkept pool.id fun other ho ho' => ?_
      rw [hk.pool hp, hp] at ho
      exact absurd (Option.some.inj ho ▸ ho') hl'
    exact (hsame.fits_iff hu).2 (h.fits id pool hp (hl.resolve_right hl'))
  · have hmid := h.kept id fun pool hp hl => hf pool hp (.inl hl)
    refine hmid.trans (hkept id fun pool hp hl' => ?_)
    have hid := hk.pool hp
    subst hid
    exact (hmid.fits_iff h.unranged).2 (hf pool hp (.inr hl'))

end Ipam

variable {ipam before after : Ipam} {supply : Supply} {pool : Pool}

theorem Pool.Repaired.repairs (hp : before.pools.find? pool.id = some pool)
    (h : pool.Repaired ((before.allocationsOf pool.subnet).map Allocation.address) before after) :
    before.Repairs (· = pool) after := by
  obtain ⟨⟨ranges, rfl⟩, hruns, hother, hsame⟩ := h
  refine ⟨rfl, ?_, fun id hf rid range hr => ?_⟩
  · rintro _ _ _ rfl
    exact hruns
  · by_cases hid : id = pool.id
    · rw [hsame (hf pool (hid ▸ hp) rfl)]
    · exact hother rid range (hr ▸ hid)

theorem Pool.rebuild_snoc_repairs (ipam : Ipam) (done : List Pool) {p : PoolId}
    (hp : ipam.pools.find? p = some pool) :
    (pool.rebuild ((ipam.allocationsOf pool.subnet).map Allocation.address)).Ensures
      (fun tables supply => ipam.Keyed supply ∧ tables.Keyed supply ∧
        ipam.Repairs (· ∈ done) tables)
      (fun _ tables supply => ipam.Keyed supply ∧ tables.Keyed supply ∧
        ipam.Repairs (· ∈ done ++ [pool]) tables)
      fun _ => False := by
  refine Tx.Ensures.of_tables fun mid => ?_
  have hone := (pool.rebuild_repaired mid
    ((ipam.allocationsOf pool.subnet).map Allocation.address)).frame
    (fun supply => ipam.Keyed supply ∧ mid.Keyed supply ∧ ipam.Repairs (· ∈ done) mid)
    fun _ _ he ⟨hk, hk', hr⟩ => ⟨hk.of_extends he, hk'.of_extends he, hr⟩
  refine hone.weaken ?_ ?_ fun _ hf => hf
  · rintro _ supply _ ⟨rfl, hk, hk', hr⟩
    obtain ⟨_, _, hpools, _⟩ := Ipam.unranged_inj.1 hr.unranged
    exact ⟨⟨hk, hk', hr⟩, rfl, hk'.ranges, by rw [hpools, hk.pool hp, hp]⟩
  · rintro _ tables supply _ ⟨⟨hk, hk', hr⟩, hranges, hrepaired⟩
    obtain ⟨_, _, hpools, hallocations⟩ := Ipam.unranged_inj.1 hr.unranged
    have hown : mid.Repairs (· = pool) tables := by
      refine Repaired.repairs (by rw [hpools, hk.pool hp, hp]) ?_
      unfold Ipam.allocationsOf at hrepaired ⊢
      rwa [hallocations]
    refine ⟨hk, hk'.of_unranged hranges hown.unranged, (hr.trans hk hown).congr fun _ _ _ => ?_⟩
    simp

theorem Ipam.rebuild_repaired (subnet : SubnetId) (ipam : Ipam) :
    (Ipam.rebuild subnet).Ensures (fun tables supply => tables = ipam ∧ ipam.Keyed supply)
      (fun _ tables supply => tables.Keyed supply ∧
        ipam.Repairs (fun pool => pool.subnet = subnet) tables)
      fun _ => False := by
  refine Tx.ensures_get_bind fun seen => ?_
  have hloop : ((seen.poolsOf subnet).forM
      (Pool.rebuild ((seen.allocationsOf subnet).map Allocation.address))).Ensures
      (fun tables supply => seen.Keyed supply ∧ tables.Keyed supply ∧
        seen.Repairs (· ∈ []) tables)
      (fun _ tables supply => seen.Keyed supply ∧ tables.Keyed supply ∧
        seen.Repairs (· ∈ seen.poolsOf subnet) tables)
      fun _ => False := by
    refine Tx.ensures_forM (fun done tables supply => seen.Keyed supply ∧ tables.Keyed supply ∧
      seen.Repairs (· ∈ done) tables) fun done pool rest hitems => ?_
    have hmem : pool ∈ seen.poolsOf subnet := by simp [hitems]
    obtain ⟨⟨p, hp⟩, rfl⟩ := mem_poolsOf.1 hmem
    exact Pool.rebuild_snoc_repairs seen done hp
  refine (hloop.frame (fun _ => seen = ipam) fun _ _ _ h => h).weaken ?_ ?_ fun _ hf => hf
  · rintro _ supply _ ⟨rfl, rfl, hk⟩
    exact ⟨rfl, hk, hk, .none fun _ => List.not_mem_nil⟩
  · rintro _ tables supply _ ⟨rfl, _, hk, hr⟩
    refine ⟨hk, hr.congr fun p pool hp => ?_⟩
    rw [mem_poolsOf]
    exact and_iff_right ⟨p, hp⟩

namespace Allocation

/-- Whether a pool is in a stored subnet of a list. -/
def Listed (ipam : Ipam) (ids : List SubnetId) (pool : Pool) : Prop :=
  pool.subnet ∈ ids ∧ ipam.subnets.contains pool.subnet = true

/-- Rebuilding a subnet never fails. It changes nothing where it is rolled back. -/
theorem rebuildTx_repairs (id : SubnetId) (ipam : Ipam) :
    (rebuildTx id).Ensures (fun tables supply => tables = ipam ∧ ipam.Keyed supply)
      (fun ending tables supply => tables.Keyed supply ∧ ipam.Repairs (Listed ipam [id]) tables ∧
        (ending = .rollback () → tables = ipam))
      fun _ => False := by
  refine Tx.ensures_get_bind fun seen => ?_
  split
  · rename_i hmissing
    refine Tx.ensures_pure ?_
    rintro _ supply ⟨rfl, rfl, hk⟩
    refine ⟨hk, .none ?_, fun _ => rfl⟩
    rintro pool ⟨hid, hl⟩
    rw [List.mem_singleton.1 hid] at hl
    simp [hl] at hmissing
  · rename_i hstored
    rw [Bool.not_eq_true', Bool.not_eq_false] at hstored
    refine (((Ipam.rebuild_repaired id ipam).frame (fun _ => seen = ipam)
      fun _ _ _ h => h).of_pre ?_).bind fun _ => Tx.ensures_pure ?_
    · exact fun _ _ _ h => ⟨h.1 ▸ h.2.1, h.2⟩
    · rintro tables supply ⟨rfl, hk, hr⟩
      refine ⟨hk, hr.congr fun _ pool _ => ?_, nofun⟩
      unfold Listed
      rw [List.mem_singleton]
      exact (and_iff_left_of_imp fun hid => hid ▸ hstored).symm

variable {ids : List SubnetId} {first last : State} {result : Except Error Unit}

/-- A state in which some subnets were rebuilt. -/
structure Mended (first : State) (ids : List SubnetId) (state : State) : Prop where
  known : first.ipam.Keyed state.supply
  keyed : state.ipam.Keyed state.supply
  ports : state.ports = first.ports
  repairs : first.ipam.Repairs (Listed first.ipam ids) state.ipam

theorem Mended.snoc {before after : State} {id : SubnetId} (h : Mended first ids before)
    (he : after.supply.Extends before.supply) (hports : after.ports = before.ports)
    (hk : after.ipam.Keyed after.supply)
    (hr : before.ipam.Repairs (Listed before.ipam [id]) after.ipam) :
    Mended first (ids ++ [id]) after := by
  obtain ⟨_, hsubnets, _⟩ := Ipam.unranged_inj.1 h.repairs.unranged
  refine ⟨h.known.of_extends he, hk, hports.trans h.ports, ?_⟩
  refine (h.repairs.trans h.known hr).congr fun _ pool _ => ?_
  simp only [Listed, hsubnets, List.mem_append, or_and_right]

theorem rebuild_mends (ids : List SubnetId) (first : State) :
    (rebuild ids).Ensures (fun state => state = first ∧ first.ipam.Keyed first.supply)
      (fun _ => Mended first ids) fun _ _ => False := by
  refine Operation.Ensures.of_pre (Operation.ensures_forM (Mended first)
    fun done id rest _ => ?_) ?_
  · have hread : (Operation.readIpam fun ipam => ipam.subnets.contains id).Ensures
        (Mended first done) (fun stored state => stored = state.ipam.subnets.contains id ∧
          Mended first done state) fun _ _ => False :=
      Operation.ensures_readIpam fun state h => ⟨rfl, h⟩
    refine hread.bind fun stored => ?_
    split
    · refine Operation.ensures_ipam (rebuildTx_repairs id {}).advances ?_
      rintro before answer after ⟨_, h⟩ hr hext hd
      have hports := (State.runIpam_cases hr).1
      rcases State.runIpam_ensures (rebuildTx_repairs id before.ipam) hr hd ⟨rfl, h.keyed⟩ with
        ⟨_, _, _, hf⟩ | ⟨_, tables, rfl, hipam, hk, hrepairs, hback⟩ | ⟨_, rfl, hk, hrepairs, _⟩
      · exact hf.elim
      · have htables : after.ipam = tables := hipam.trans (hback rfl).symm
        subst htables
        exact h.snoc hext hports hk hrepairs
      · exact h.snoc hext hports hk hrepairs
    · rename_i hmissing
      refine Operation.ensures_pure ?_
      rintro state ⟨rfl, h⟩
      refine h.snoc (.refl _) rfl h.keyed (.none ?_)
      rintro pool ⟨hid, hl⟩
      rw [List.mem_singleton.1 hid] at hl
      exact hmissing hl
  · rintro _ ⟨rfl, hk⟩
    exact ⟨hk, hk, rfl, .none fun _ hl => List.not_mem_nil hl.1⟩

/-- Whatever ranges there are, rebuilding some subnets succeeds and leaves the ranges of their pools
as free runs, under the identifiers that they had where these were right, and all other rows as they
were. To rebuild them again changes nothing. -/
theorem rebuild_repairs (keyed : first.ipam.Keyed first.supply)
    (run : (rebuild ids).run.Alone first result last) (distinct : last.supply.Distinct) :
    result = .ok () ∧ last.ports = first.ports ∧
      first.ipam.Repairs (Listed first.ipam ids) last.ipam ∧
      ∀ again after, (rebuild ids).run.Alone last again after ↔ again = .ok () ∧ after = last := by
  have hmended := (rebuild_mends ids first first result last run).2 distinct ⟨rfl, keyed⟩
  cases result with
  | error error => exact hmended.elim
  | ok _ =>
    have hmended : Mended first ids last := hmended
    have hrepairs := hmended.repairs
    obtain ⟨_, hsubnets, hpools, _⟩ := Ipam.unranged_inj.1 hrepairs.unranged
    refine ⟨rfl, hmended.ports, hrepairs, fun again after => rebuild_stays ?_⟩
    intro id hid hstored pool hmem
    obtain ⟨⟨p, hp⟩, rfl⟩ := Ipam.mem_poolsOf.1 hmem
    exact hrepairs.fits p pool (by rwa [← hpools]) ⟨hid, by rwa [← hsubnets]⟩

/-- Two pools of a subnet. The first has ranges that overlap and hold what is allocated, those of the
second are right, and one range is of no pool. -/
def damaged : State where
  ipam := {
    networks := Table.empty.insert ⟨7⟩ .sample
    subnets := Table.empty.insert ⟨0⟩ .sample
    pools := (Table.empty.insert ⟨1⟩ ⟨⟨1⟩, ⟨0⟩, span 2 4⟩).insert ⟨2⟩ ⟨⟨2⟩, ⟨0⟩, span 5 6⟩
    ranges := (((Table.empty.insert ⟨3⟩ ⟨⟨3⟩, ⟨1⟩, span 2 4⟩).insert ⟨4⟩ ⟨⟨4⟩, ⟨1⟩, span 3 4⟩).insert
      ⟨5⟩ ⟨⟨5⟩, ⟨2⟩, span 5 6⟩).insert ⟨6⟩ ⟨⟨6⟩, ⟨9⟩, span 2 2⟩
    allocations := Table.empty.insert (⟨0⟩, .sample 3) ⟨⟨7⟩, ⟨0⟩, .sample 3, ⟨9⟩⟩ }
  supply := { Supply.counting with idents := 10 }
where
  span (first last : Nat) : Ip.Span := ⟨.sample first, .sample last⟩

theorem damaged_keyed : damaged.ipam.Keyed damaged.supply := by
  have hpools : ∀ row ∈ damaged.ipam.pools.rows, row.2.id = row.1 := by decide
  have hranges : ∀ row ∈ damaged.ipam.ranges.rows,
      row.2.id = row.1 ∧ ∃ i < damaged.supply.idents, damaged.supply.identAt i = row.1.value := by
    decide +kernel
  exact ⟨fun id pool hp => hpools (id, pool) (Table.find?_eq_some_iff.1 hp),
    fun id range hr => hranges (id, range) (Table.find?_eq_some_iff.1 hr)⟩

theorem damaged_repairs : ∃ last, (rebuild [⟨0⟩, ⟨5⟩, ⟨0⟩]).run.Alone damaged (.ok ()) last ∧
    last.ipam.ranges.values.map FreeRange.id = [⟨5⟩, ⟨6⟩, ⟨10⟩, ⟨11⟩] ∧
    damaged.ipam.Repairs (Listed damaged.ipam [⟨0⟩, ⟨5⟩, ⟨0⟩]) last.ipam ∧
    ∀ again after, (rebuild [⟨0⟩, ⟨5⟩, ⟨0⟩]).run.Alone last again after ↔
      again = .ok () ∧ after = last := by
  have hperforms : ∃ answer last, (rebuild [⟨0⟩, ⟨5⟩, ⟨0⟩]).run.Alone damaged (.ok answer) last ∧
      last.supply.Distinct ∧ last.ipam.ranges.values.map FreeRange.id = [⟨5⟩, ⟨6⟩, ⟨10⟩, ⟨11⟩] :=
    Operation.performs_ok _ [] _ (by decide +kernel)
  obtain ⟨_, last, halone, hdistinct, hids⟩ := hperforms
  obtain ⟨_, _, hrepairs, hagain⟩ := rebuild_repairs damaged_keyed halone hdistinct
  exact ⟨last, halone, hids, hrepairs, hagain⟩

end Allocation

end ControlPlane
