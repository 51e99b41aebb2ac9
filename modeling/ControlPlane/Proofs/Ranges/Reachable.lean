import ControlPlane.Proofs.Schedules

/-! Free addresses in every scene of every run. The ranges of a pool are apart from each other and
from all that is allocated, and if every release reclaims they are just the free runs of the pool,
so that there is nothing to rebuild. -/

namespace ControlPlane

open Ip (Address Span freeRuns)

/-- The ranges of a subnet and of its pools as they are listed. -/
structure Ipam.Listed (ipam : Ipam) (subnet : SubnetId) : Prop where
  proper : ∀ pool ∈ ipam.poolsOf subnet, ∀ range ∈ ipam.poolRanges pool.id,
    range.span.Proper ∧ range.span.Within pool.span
  clears : ∀ pool ∈ ipam.poolsOf subnet,
    (ipam.poolRanges pool.id).Pairwise fun a b => a.span.Clears b.span
  mem : ∀ range, range ∈ ipam.rangesOf subnet ↔
    ∃ pool ∈ ipam.poolsOf subnet, range ∈ ipam.poolRanges pool.id
  family : ∀ a ∈ ipam.rangesOf subnet, ∀ b ∈ ipam.rangesOf subnet,
    a.span.first.family = b.span.first.family
  precedes : (ipam.rangesOf subnet).Pairwise fun a b => a.span.Precedes b.span
  free : ∀ range ∈ ipam.rangesOf subnet, ∀ allocation ∈ ipam.allocationsOf subnet,
    range.span.contains allocation.address = false

/-- The ranges of a pool and the addresses that are allocated in it part it between them. -/
structure Ipam.Exact (ipam : Ipam) (pool : Pool) (allocated : List Address) : Prop where
  runs : (ipam.poolRanges pool.id).map FreeRange.span = freeRuns pool.span allocated
  partition : ∀ a, pool.span.contains a = true →
    ((∃ range ∈ ipam.poolRanges pool.id, range.span.contains a = true) ↔ a ∉ allocated)
  previous : ∀ range ∈ ipam.poolRanges pool.id, ∀ a, range.span.first.previous? = some a →
    pool.span.contains a = true → a ∈ allocated
  next : ∀ range ∈ ipam.poolRanges pool.id, ∀ a, range.span.last.next? = some a →
    pool.span.contains a = true → a ∈ allocated

namespace Ipam

variable {eager : Prop} {ipam : Ipam} {supply : Supply} {subnet : SubnetId} {pool : Pool}
  {range range' : FreeRange}

theorem Sound.range_family (h : ipam.Sound eager supply) (hr : range ∈ ipam.rangesOf subnet)
    (hr' : range' ∈ ipam.rangesOf subnet) :
    range.span.first.family = range'.span.first.family := by
  obtain ⟨pool, hp, hs, _, hw⟩ := h.exists_pool hr
  obtain ⟨pool', hp', hs', _, hw'⟩ := h.exists_pool hr'
  rw [hw.family, hw'.family]
  by_cases heq : range.pool = range'.pool
  · rw [heq, hp'] at hp
    cases hp
    rfl
  · exact (h.laid.apart hp hp' (hs.trans hs'.symm) heq).1

theorem Sound.precedes (h : ipam.Sound eager supply) {id id' : RangeId}
    (hid : ipam.ranges.find? id = some range) (hid' : ipam.ranges.find? id' = some range')
    (hne : id ≠ id') (hr : range ∈ ipam.rangesOf subnet) (hr' : range' ∈ ipam.rangesOf subnet)
    (hle : range.span.first.value ≤ range'.span.first.value) :
    range.span.Precedes range'.span := by
  obtain ⟨pool, hp, hs, _, hw⟩ := h.exists_pool hr
  obtain ⟨pool', hp', hs', hspan', hw'⟩ := h.exists_pool hr'
  -- Two rows are in one pool, where they are apart, or in two of a subnet, which are.
  by_cases heq : range.pool = range'.pool
  · exact ((h.tidy.apart hid hid' heq hne).clears hspan' hle).precedes
  · have hlast := hw.last
    have hfirst := hw'.first
    have hfirst' := hw.first
    have hproper := hspan'.le
    have hlast' := hw'.last
    rcases (h.laid.apart hp hp' (hs.trans hs'.symm) heq).2 with hlt | hlt
    · unfold Span.Precedes at hlt ⊢
      omega
    · unfold Span.Precedes at hlt
      omega

theorem Sound.listed (h : ipam.Sound eager supply) (subnet : SubnetId) : ipam.Listed subnet := by
  refine ⟨fun pool hp range hr => ?_, fun pool hp => ?_, fun range => ?_, fun a ha b hb => ?_, ?_,
    fun range hr allocation ha => ?_⟩
  · obtain ⟨hp, _⟩ := h.find?_pool hp
    obtain ⟨⟨id, hid⟩, hpool⟩ := mem_poolRanges.1 hr
    obtain ⟨pool', hp', hs⟩ := h.tidy.within hid
    rw [hpool, hp] at hp'
    cases hp'
    exact hs
  · exact List.pairwise_map.1 (h.tidy.poolRanges_runs (h.find?_pool hp).1).clears
  · constructor
    · intro hr
      obtain ⟨pool, hp, hs, _⟩ := h.exists_pool hr
      refine ⟨pool, mem_poolsOf.2 ⟨⟨_, hp⟩, hs⟩, mem_poolRanges.2 ⟨?_, ?_⟩⟩
      · exact ((mem_rangesOf h.laid).1 hr).1
      · exact (h.laid.pool hp).1.symm
    · rintro ⟨pool, hp, hr⟩
      obtain ⟨hp, hs⟩ := h.find?_pool hp
      obtain ⟨hid, hpool⟩ := mem_poolRanges.1 hr
      exact (mem_rangesOf h.laid).2 ⟨hid, pool, hpool ▸ hp, hs⟩
  · exact h.range_family ha hb
  · have hapart : (ipam.rangesOf subnet).Pairwise fun a b => a ∈ ipam.rangesOf subnet →
        b ∈ ipam.rangesOf subnet → a.span.Precedes b.span ∨ b.span.Precedes a.span := by
      refine (sortOn_perm _ _).symm.pairwise (List.Pairwise.filter _ ?_) fun hab hb ha =>
        (hab ha hb).symm
      refine Table.values_pairwise fun id id' a b hid hid' hne ha hb => ?_
      rcases Nat.le_total a.span.first.value b.span.first.value with hle | hle
      · exact .inl (h.precedes hid hid' hne ha hb hle)
      · exact .inr (h.precedes hid' hid (Ne.symm hne) hb ha hle)
    refine (hapart.and (sortOn_pairwise _ _)).imp_of_mem fun {a b} ha hb hab => ?_
    rcases hab.1 ha hb with hlt | hlt
    · exact hlt
    · obtain ⟨_, _, _, hproper, _⟩ := h.exists_pool hb
      have hle := hab.2
      have hproper := hproper.le
      unfold Span.Precedes at hlt
      omega
  · rw [Bool.eq_false_iff]
    intro hc
    obtain ⟨⟨id, hid⟩, pool, hp, hs⟩ := (mem_rangesOf h.laid).1 hr
    have hnone := h.exclusive hp ⟨id, range, hid, rfl, hc⟩
    rw [hs] at hnone
    exact h.mem_allocated.1 (List.mem_map_of_mem ha) hnone

/-- The ranges of a pool are its free runs, with the gaps where addresses are allocated. -/
theorem Sound.poolRanges_eq (h : ipam.Sound True supply) (hp : pool ∈ ipam.poolsOf subnet) :
    (ipam.poolRanges pool.id).map FreeRange.span =
      freeRuns pool.span ((ipam.allocationsOf subnet).map Allocation.address) := by
  obtain ⟨hfind, hs⟩ := h.find?_pool hp
  have hproper := (h.laid.pool hfind).2.2.1
  refine (h.tidy.poolRanges_runs hfind).eq_of_contains (Ip.freeRuns_runs _ _) fun a => ?_
  rw [exists_mem_poolRanges, Ip.exists_mem_freeRuns hproper, h.mem_allocated, Decidable.not_not,
    ← hs]
  constructor
  · exact fun ha => ⟨h.tidy.pool_contains hfind ha, h.exclusive hfind ha⟩
  · exact fun ha => h.covered trivial hfind ha.1 ha.2

theorem Sound.not_contains_next (h : ipam.Sound eager supply) {a : Address}
    (hr : range ∈ ipam.poolRanges pool.id) (hr' : range' ∈ ipam.poolRanges pool.id)
    (ha : a.value + 1 = range.span.first.value ∨ a.value = range.span.last.value + 1) :
    range'.span.contains a = false := by
  obtain ⟨⟨id, hid⟩, hpool⟩ := mem_poolRanges.1 hr
  obtain ⟨⟨id', hid'⟩, hpool'⟩ := mem_poolRanges.1 hr'
  obtain ⟨_, _, hproper, _⟩ := h.tidy.within hid
  have hle := hproper.le
  rw [Bool.eq_false_iff]
  intro hc
  have hbounds := (Span.contains_iff.1 hc).2
  by_cases heq : id = id'
  · rw [heq, hid'] at hid
    cases hid
    omega
  · have hapart := h.tidy.apart hid hid' (hpool.trans hpool'.symm) heq
    unfold Span.Apart Span.Clears at hapart
    omega

theorem Sound.exact (h : ipam.Sound True supply) (hp : pool ∈ ipam.poolsOf subnet) :
    ipam.Exact pool ((ipam.allocationsOf subnet).map Allocation.address) := by
  have hruns := h.poolRanges_eq hp
  have hproper := (h.laid.pool (h.find?_pool hp).1).2.2.1
  have hpart (a : Address) (ha : pool.span.contains a = true) :
      (∃ range ∈ ipam.poolRanges pool.id, range.span.contains a = true) ↔
        a ∉ (ipam.allocationsOf subnet).map Allocation.address := by
    have hmap : (∃ range ∈ ipam.poolRanges pool.id, range.span.contains a = true) ↔
        ∃ span ∈ (ipam.poolRanges pool.id).map FreeRange.span, span.contains a = true := by
      constructor
      · rintro ⟨range, hr, hc⟩
        exact ⟨range.span, List.mem_map_of_mem hr, hc⟩
      · rintro ⟨_, hs, hc⟩
        obtain ⟨range, hr, rfl⟩ := List.mem_map.1 hs
        exact ⟨range, hr, hc⟩
    rw [hmap, hruns, Ip.exists_mem_freeRuns hproper]
    exact and_iff_right ha
  have hnext (range : FreeRange) (hr : range ∈ ipam.poolRanges pool.id) (a : Address)
      (hadjacent : a.value + 1 = range.span.first.value ∨ a.value = range.span.last.value + 1)
      (ha : pool.span.contains a = true) :
      a ∈ (ipam.allocationsOf subnet).map Allocation.address := by
    apply Decidable.byContradiction
    intro hn
    obtain ⟨other, ho, hc⟩ := (hpart a ha).2 hn
    rw [h.not_contains_next hr ho hadjacent] at hc
    cases hc
  refine ⟨hruns, hpart, fun range hr a hprev ha => ?_, fun range hr a hnexta ha => ?_⟩
  · exact hnext range hr a (.inl (Address.previous?_eq_some.1 hprev).2) ha
  · exact hnext range hr a (.inr (Address.next?_eq_some.1 hnexta).2) ha

end Ipam

namespace Allocation

variable {state last : State} {subnets : List SubnetId} {result : Except Error Unit}

theorem rebuildTx_stays {id : SubnetId} (h : ∀ pool ∈ state.ipam.poolsOf id,
    (state.ipam.poolRanges pool.id).map FreeRange.span =
      freeRuns pool.span ((state.ipam.allocationsOf id).map Allocation.address)) :
    state.runIpam (rebuildTx id) = (.ok (), state) := by
  have hattempt : (rebuildTx id).attempt state.ipam state.supply =
      (.ok (if state.ipam.subnets.contains id then .commit () else .rollback (), state.ipam),
        state.supply) := by
    unfold rebuildTx
    refine (Tx.attempt_bind _ _ _ _).trans ?_
    change (if !state.ipam.subnets.contains id then _ else _ : Tx Ipam (Ending Unit)).attempt _ _ = _
    cases state.ipam.subnets.contains id with
    | false => rfl
    | true =>
      refine (Tx.attempt_bind _ _ _ _).trans ?_
      rw [Ipam.rebuild_attempt state.supply h]
      rfl
  unfold State.runIpam
  rw [hattempt]
  cases state.ipam.subnets.contains id <;> rfl

/-- Where the ranges of the subnets are free runs, rebuilding these answers that it is done and has
changed nothing. -/
theorem rebuild_stays (h : ∀ id ∈ subnets, state.ipam.subnets.contains id = true →
    ∀ pool ∈ state.ipam.poolsOf id, (state.ipam.poolRanges pool.id).map FreeRange.span =
      freeRuns pool.span ((state.ipam.allocationsOf id).map Allocation.address)) :
    (rebuild subnets).run.Alone state result last ↔ result = .ok () ∧ last = state := by
  have hone (id : SubnetId) (hid : id ∈ subnets) (answer : Except Error Unit) (after : State) :
      (do
        if (← Operation.readIpam fun ipam => ipam.subnets.contains id) then
          Operation.ipam (rebuildTx id) : Operation Unit).run.Alone state answer after ↔
        answer = .ok () ∧ after = state := by
    refine (Operation.alone_bind_of fun _ _ => Operation.alone_readIpam).trans ?_
    split
    · rw [Operation.alone_ipam, rebuildTx_stays (h id hid ‹_›), Prod.mk.injEq]
    · exact Program.alone_done
  induction subnets with
  | nil => exact Program.alone_done
  | cons id rest ih =>
    refine (Operation.alone_bind_of (hone id List.mem_cons_self)).trans ?_
    exact ih (fun other ho => h other (List.mem_cons_of_mem _ ho))
      fun other ho => hone other (List.mem_cons_of_mem _ ho)

theorem rebuild_alone (h : ∀ id, ∀ pool ∈ state.ipam.poolsOf id,
    (state.ipam.poolRanges pool.id).map FreeRange.span =
      freeRuns pool.span ((state.ipam.allocationsOf id).map Allocation.address)) :
    (rebuild subnets).run.Alone state result last ↔ result = .ok () ∧ last = state :=
  rebuild_stays fun id _ _ => h id

end Allocation

namespace Scene

variable {allowed : Setup → Command → Prop} {moves : List Move} {first scene : Scene}

/-- Whatever is asked of control planes on an address store that holds some networks. -/
theorem Run.ranges_listed (run : Run allowed first moves scene) (hfirst : first.Initial)
    (hfresh : ∀ move ∈ moves, move.Fresh) (subnet : SubnetId) :
    scene.state.ipam.Listed subnet := by
  have hfaithful : Faithful False moves scene.state := run.faithful hfirst hfresh nofun
  exact hfaithful.sound.listed subnet

/-- An address is allocated from a subnet and released again. -/
def lease (reclaim : Bool) : List Move × Scene := sample.play (
  .start setup (.createSubnet .sample) :: Turn.moves 0 2 ++
  .start setup (.allocateForPort ⟨9⟩ ⟨7⟩ [{ address := some AllocatedIp.sample.address }]) ::
    Turn.moves 1 4 ++
  .start setup (.release .sample) :: Turn.moves 2 2)
where
  setup : Setup := { config := { ipam := { reclaimOnRelease := reclaim } } }

theorem lease_run (reclaim : Bool) :
    Run (fun setup _ => setup.config.ipam.reclaimOnRelease = reclaim) sample (lease reclaim).1
      (lease reclaim).2 := by
  refine play_run ?_
  cases reclaim <;> decide +kernel

theorem lease_listed : ((lease false).2.state.ipam.rangesOf ⟨0⟩).length = 2 ∧
    (lease false).2.state.ipam.Listed ⟨0⟩ := by
  have hfresh : ∀ move ∈ (lease false).1, move.Fresh := by decide +kernel
  exact ⟨by decide +kernel, (lease_run false).ranges_listed sample_initial hfresh ⟨0⟩⟩

/-- When all of them reclaim what is released, their ranges are exact and need no rebuilding. -/
theorem Run.ranges_exact (run : Run allowed first moves scene) (hfirst : first.Initial)
    (hfresh : ∀ move ∈ moves, move.Fresh) (heager : ∀ setup command, allowed setup command →
      setup.config.ipam.reclaimOnRelease = true) :
    (∀ subnet, ∀ pool ∈ scene.state.ipam.poolsOf subnet, scene.state.ipam.Exact pool
      ((scene.state.ipam.allocationsOf subnet).map Allocation.address)) ∧
    ∀ subnets result last, (Allocation.rebuild subnets).run.Alone scene.state result last ↔
      result = .ok () ∧ last = scene.state := by
  have hfaithful : Faithful True moves scene.state := run.faithful hfirst hfresh fun _ => heager
  refine ⟨fun subnet pool hp => hfaithful.sound.exact hp, fun subnets result last => ?_⟩
  exact Allocation.rebuild_alone fun id pool hp => hfaithful.sound.poolRanges_eq hp

theorem lease_exact : ((lease true).2.state.ipam.rangesOf ⟨0⟩).length = 1 ∧
    (∀ subnet, ∀ pool ∈ (lease true).2.state.ipam.poolsOf subnet,
      (lease true).2.state.ipam.Exact pool
        (((lease true).2.state.ipam.allocationsOf subnet).map Allocation.address)) ∧
    ∀ subnets result last,
      (Allocation.rebuild subnets).run.Alone (lease true).2.state result last ↔
        result = .ok () ∧ last = (lease true).2.state := by
  have hfresh : ∀ move ∈ (lease true).1, move.Fresh := by decide +kernel
  exact ⟨by decide +kernel, (lease_run true).ranges_exact sample_initial hfresh fun _ _ h => h⟩

end Scene

end ControlPlane
