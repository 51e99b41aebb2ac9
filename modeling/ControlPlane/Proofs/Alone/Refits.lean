import ControlPlane.Proofs.Alone.Requests
import ControlPlane.Proofs.Ports.Stages
import ControlPlane.Proofs.Ranges.Referential
import ControlPlane.Proofs.Replacements

/-! Replacing the addresses of a port, with nothing in between. Addresses that are asked for by name are
kept all the time, what is missing is added, and the rest goes when the update is saved. -/

namespace ControlPlane

open Operation

/-- Two addresses are allocated in one network. -/
def Ipam.Beside (ipam : Ipam) (ip other : AllocatedIp) : Prop :=
  ∃ row row', ipam.allocation? ip = some row ∧ ipam.allocation? other = some row' ∧
    row.network = row'.network

/-- What becomes of the addresses of a port that is to have some, and of those of others. Something may
be `known` of the subnets that addresses were allocated from. -/
structure Port.Refits (known : Prop) (first : State) (id : PortId) (requests : List FixedIpRequest)
    (own : List Move) (last : State) : Prop where
  fits : last.Fits id requests
  /-- An address that a request names is kept, in the subnet that it names if it names one. Should the
  port have the address in several networks, it is kept in one of them. -/
  kept : ∀ request ∈ requests, ∀ ip, first.has id ip = true → matchesRequest request ip = true →
    ∃ same, same.address = ip.address ∧ matchesRequest request same = true ∧
      (known → first.ipam.Beside same ip → same = ip) ∧
      first.has id same = true ∧
      (∀ move ∈ own, ∀ state, move.after? = some state → state.has id same = true) ∧
      last.has id same = true
  dropped : ∀ ip, first.has id ip = true →
    (∀ request ∈ requests, matchesRequest request ip = false) → last.ipam.holder? ip = none
  others : ∀ ip row, row.port ≠ id →
    (last.ipam.allocation? ip = some row ↔ first.ipam.allocation? ip = some row)

/-- A licence to work for the addresses of a port and to release some. -/
def Licence.refit (removed : List AllocatedIp) : Licence :=
  { Licence.quiet with
    insert := fun _ _ => False
    take := fun _ _ => True
    release := fun ip => ip ∈ removed }

/-- A call that asks the address store nothing. -/
def Call.Apart : {α : Type} → Call α → Prop
  | _, .ipam _ => False
  | _, _ => True

section Calls

variable {setup : Setup} {removed : List AllocatedIp} {tag : Nat} {first last : State}
  {moves : List Move} {id : PortId} {ip : AllocatedIp}

theorem Chained.ipam_eq (h : Chained tag (fun c _ => c.Apart) first moves last) :
    last.ipam = first.ipam := by
  induction h with
  | nil => rfl
  | @cons _ c _ _ _ _ _ hc result _ ih =>
    refine ih.trans ?_
    cases c with
    | ipam => exact hc.elim
    | ports tx =>
      obtain ⟨_, hr⟩ := result
      exact (State.runReviewed_cases hr).1
    | _ =>
      cases result
      rfl

theorem PortContext.binds_apart (drivers : List String) (mayTell : Bool) :
    Binds Call.Apart drivers mayTell where
  bind _ _ _ := trivial
  commit _ _ _ := trivial
  postcommit _ _ := trivial
  notify _ _ := trivial

/-- A sound state in which a port has all of some addresses. -/
structure State.Holds (id : PortId) (ips : List AllocatedIp) (state : State) : Prop where
  sound : state.ipam.Sound False state.supply
  keyed : state.ports.Keyed
  has : ∀ ip ∈ ips, state.has id ip = true

/-- What may not be released is held all the time. -/
theorem Chained.holds (h : Chained tag (fun c _ => c.Made setup (.refit removed)) first moves last)
    (hfresh : ∀ move ∈ moves, move.Fresh) {ips : List AllocatedIp} (hips : ∀ ip ∈ ips, ip ∉ removed)
    (hfirst : first.Holds id ips) :
    last.Holds id ips ∧ ∀ move ∈ moves, ∀ state, move.after? = some state → state.Holds id ips := by
  refine h.keeps (fun c before answer after hm hr hd hp => ?_) hfresh hfirst
  have habides : c.Abides False (.refit removed) := hm.abides False.elim
  refine ⟨(habides.sound hr hd hp.keyed hp.sound).1, ?_, fun ip hip => ?_⟩
  · cases habides.ports hr hd hp.keyed with
    | evolves hevolves _ => exact hevolves.keyed
    | inserted _ _ _ hl => exact hl.elim
  · have hchange := habides.holders hr hd hp.sound.labelled ip
    rw [Books.has_iff.1 (hp.has ip hip)] at hchange
    refine Books.has_iff.2 ?_
    generalize after.ipam.holder? ip = holder at hchange
    cases hchange with
    | same => rfl
    | released hl => exact absurd hl (hips ip hip)

end Calls

namespace Port

variable {setup : Setup} {config : Config} {id : PortId} {update : PortUpdate} {port : Port}
  {requests : List FixedIpRequest} {changes : IpChanges} {details : PortDetails} {tag : Nat}
  {first staged last : State} {own : List Move}

/-- An update that is staged: what the port has is to be kept or removed, and it has what was missing
beside. -/
structure Sorted (first : State) (port : Port) (requests : List FixedIpRequest)
    (changes : IpChanges) (kept : List AllocatedIp) (wanted : List FixedIpRequest)
    (staged : State) : Prop where
  sorted : keepAndWant ((first.ipam.portAllocations port.id).map Allocation.allocated) [] requests =
    .ok (kept, wanted)
  removed : ∀ ip, ip ∈ changes.removed ↔ first.has port.id ip = true ∧ ip ∉ kept
  assigns : first.ipam.Assigns port.network port.id changes.added staged.ipam
  meets : List.Forall₂ AllocatedIp.Meets changes.added wanted
  sound : staged.ipam.Sound False staged.supply

theorem Stages.sorted (h : Stages tag config port requests first own changes staged)
    (hd : staged.supply.Distinct) (hsound : first.ipam.Sound False first.supply)
    (hassorted : first.ipam.Assorted) :
    ∃ kept wanted, Sorted first port requests changes kept wanted staged := by
  cases h with
  | @intro current kept added wanted _ _ _ _ hcurrent hsorted hadd =>
    subst hcurrent
    have hremoved (ip : AllocatedIp) : ip ∈ ((first.ipam.portAllocations port.id).map
        Allocation.allocated).filter (fun ip => !kept.contains ip) ↔
          first.has port.id ip = true ∧ ip ∉ kept := by
      rw [List.mem_filter, hsound.labelled.mem_portAllocations, Books.has_iff]
      simp
    by_cases hempty : wanted.isEmpty
    · rw [if_pos hempty] at hadd
      obtain ⟨_, rfl, rfl⟩ := plays_pure_ok.1 hadd
      obtain rfl := List.isEmpty_iff.1 hempty
      exact ⟨kept, [], hsorted, hremoved, .nil _, .nil, hsound⟩
    · rw [if_neg hempty] at hadd
      have hanswers := Allocation.forPort_answers config port.id port.network wanted hassorted
      obtain ⟨hstaged, hanswers⟩ := hadd.ensures hanswers hd ⟨rfl, hsound⟩
      have hwanted : wanted ≠ [] := mt List.isEmpty_iff.2 hempty
      exact ⟨kept, wanted, hsorted, hremoved, hanswers.assigns, hanswers.meets hwanted, hstaged⟩

namespace Sorted

variable {kept : List AllocatedIp} {wanted : List FixedIpRequest} {ip : AllocatedIp}

theorem kept_iff (h : Sorted first port requests changes kept wanted staged)
    (hsound : first.ipam.Sound False first.supply) :
    kept.Nodup ∧ ∀ ip ∈ kept, first.has port.id ip = true := by
  obtain ⟨⟨hnodup, hsub⟩, _⟩ := keepAndWant_meets h.sorted .nil (List.forall_mem_nil _)
  exact ⟨hnodup, fun ip hip =>
    Books.has_iff.2 (hsound.labelled.mem_portAllocations.1 (hsub ip hip))⟩

theorem rows (h : Sorted first port requests changes kept wanted staged)
    (hfrees : staged.ipam.Frees changes.removed last.ipam) (ip : AllocatedIp) :
    last.ipam.allocation? ip = if first.has port.id ip = true ∧ ip ∉ kept then none
      else if ip ∈ changes.added then some ⟨port.network, ip.subnet, ip.address, port.id⟩
      else first.ipam.allocation? ip := by
  rw [hfrees ip, h.assigns.rows ip]
  simp only [h.removed ip]

theorem not_has_added (h : Sorted first port requests changes kept wanted staged)
    (hip : ip ∈ changes.added) : first.has port.id ip = false := by
  have hnone : first.ipam.holder? ip = none := Ipam.holder?_eq_none.2 (h.assigns.free ip hip)
  simp [State.has, hnone]

/-- In the end the port has what was kept and what was added. -/
theorem has_iff (h : Sorted first port requests changes kept wanted staged)
    (hsound : first.ipam.Sound False first.supply)
    (hfrees : staged.ipam.Frees changes.removed last.ipam) :
    last.has port.id ip = true ↔ ip ∈ kept ∨ ip ∈ changes.added := by
  have hrow := h.rows hfrees ip
  have hholder : last.ipam.holder? ip = (last.ipam.allocation? ip).map Allocation.port := rfl
  rw [Books.has_iff, hholder, hrow]
  split
  · rename_i hdropped
    have hnew : ip ∉ changes.added := fun hip => by
      rw [h.not_has_added hip] at hdropped
      cases hdropped.1
    simp [hdropped.2, hnew]
  · rename_i hkept
    split
    · rename_i hadded
      simp [hadded]
    · rename_i hnew
      have hfirst : (first.ipam.allocation? ip).map Allocation.port = some port.id ↔
          first.has port.id ip = true := Books.has_iff.symm
      rw [hfirst, or_iff_left hnew]
      exact ⟨fun hhas => not_not.1 fun hout => hkept ⟨hhas, hout⟩, (h.kept_iff hsound).2 ip⟩

theorem fits (h : Sorted first port requests changes kept wanted staged)
    (hsound : first.ipam.Sound False first.supply)
    (hfrees : staged.ipam.Frees changes.removed last.ipam)
    (hlast : last.ipam.Sound False last.supply) : last.Fits port.id requests := by
  obtain ⟨_, hmeets⟩ := keepAndWant_meets h.sorted .nil (List.forall_mem_nil _)
  obtain ⟨ips, hips, hperm⟩ := hmeets changes.added h.meets
  refine ⟨ips, hips, hperm.trans ?_⟩
  obtain ⟨hnodup, hheld⟩ := h.kept_iff hsound
  have hdisjoint : kept.Disjoint changes.added := fun ip hkept hadded => by
    have hhas := hheld ip hkept
    rw [h.not_has_added hadded] at hhas
    cases hhas
  refine (List.perm_ext_iff_of_nodup (hnodup.append h.assigns.nodup hdisjoint)
    (hlast.labelled.nodup_portAllocations port.id)).2 fun ip => ?_
  rw [hlast.labelled.mem_portAllocations, ← Books.has_iff, h.has_iff hsound hfrees,
    List.mem_append]

theorem refits {known : Prop} (hknown : known → first.ipam.Settled)
    (h : Sorted first port requests changes kept wanted staged)
    (hsound : first.ipam.Sound False first.supply)
    (hfrees : staged.ipam.Frees changes.removed last.ipam)
    (hlast : last.ipam.Sound False last.supply)
    (hheld : ∀ move ∈ own, ∀ state, move.after? = some state → ∀ ip ∈ kept,
      state.has port.id ip = true) : Refits known first port.id requests own last := by
  obtain ⟨_, hnamed, hfinal⟩ := keepAndWant_named h.sorted
  have hcurrent {ip : AllocatedIp} : ip ∈ (first.ipam.portAllocations port.id).map
      Allocation.allocated ↔ first.has port.id ip = true := by
    rw [hsound.labelled.mem_portAllocations, Books.has_iff]
  refine ⟨h.fits hsound hfrees hlast, fun request hrequest ip hhas hmatch => ?_,
    fun ip hhas hunnamed => ?_, fun ip row hport => ?_⟩
  · obtain ⟨same, hkept, hsame⟩ := hnamed request hrequest ip (hcurrent.2 hhas) hmatch
    have haddress : same.address = ip.address := by
      simp only [matchesRequest, Bool.and_eq_true, decide_eq_true_eq] at hmatch hsame
      exact Option.some.inj (hsame.1.symm.trans hmatch.1)
    have hitself (hk : known) : first.ipam.Beside same ip → same = ip := by
      rintro ⟨row, row', hrow, hrow', hnetwork⟩
      exact (hknown hk).allocated_once hsound.labelled hrow hrow' hnetwork haddress
    exact ⟨same, haddress, hsame, hitself, (h.kept_iff hsound).2 same hkept,
      fun move hmove state hstate => hheld move hmove state hstate same hkept,
      (h.has_iff hsound hfrees).2 (.inl hkept)⟩
  · have hdropped : ip ∉ kept := fun hkept => by
      rcases hfinal ip hkept with hnil | ⟨request, hrequest, hmatch⟩
      · cases hnil
      · rw [hunnamed request hrequest] at hmatch
        cases hmatch
    have hrow := h.rows hfrees ip
    rw [if_pos ⟨hhas, hdropped⟩] at hrow
    exact Ipam.holder?_eq_none.2 hrow
  · rw [h.rows hfrees ip]
    split
    · rename_i hdropped
      have hholder : (first.ipam.allocation? ip).map Allocation.port = some port.id :=
        Books.has_iff.1 hdropped.1
      refine iff_of_false (by simp) fun hrow => hport ?_
      rw [hrow] at hholder
      exact Option.some.inj hholder
    · split
      · rename_i hadded
        refine iff_of_false (fun hrow => hport ?_) fun hrow => ?_
        · rw [← Option.some.inj hrow]
        · rw [h.assigns.free ip hadded] at hrow
          cases hrow
      · rfl

end Sorted

theorem Updates.refits {known : Prop} (hknown : known → first.ipam.Settled)
    (h : Updates tag setup id update first own details last)
    (hrequests : update.fixedIps = some requests) (hfresh : ∀ move ∈ own, move.Fresh)
    (hsound : first.ipam.Sound False first.supply) (hkeyed : first.ports.Keyed)
    (hassorted : first.ipam.Assorted) : Refits known first id requests own last := by
  cases h with
  | @intro port network changes saved news context ips staged stored released _ finding fetching
      staging saving releasing binding closing hfind hfound _ hfetch hstage hsave hrelease hbind
      hclose =>
  obtain rfl : port.id = id := hkeyed.port hfound
  rw [hrequests] at hstage
  have hstage := stage_plays hstage
  -- Every call spares what is not to be removed.
  have hallots : Allocation.Allots (Call.Made setup (.refit changes.removed)) port.id :=
    Allocation.allots_made fun _ => trivial
  have hreleases : (changes.removed.forM (Allocation.release
      setup.config.ipam.reclaimOnRelease)).Makes (Call.Made setup (.refit changes.removed)) :=
    makes_forM fun ip hip => Allocation.release_made ip (fun h => h) hip
  have hbinds : PortContext.Binds (Call.Made setup (.refit changes.removed)) setup.drivers true :=
    PortContext.binds_made fun _ _ _ => trivial
  let Spares (first : State) (moves : List Move) (last : State) : Prop :=
    Chained tag (fun c _ => c.Made setup (.refit changes.removed)) first moves last
  have hstaged : Spares first (finding ++ (fetching ++ staging)) staged :=
    (hfind.chained (find_made port.id)).append
      ((hfetch.chained (Network.fetch_made port.network)).append (hstage.chained hallots))
  have hstored : Spares first ((finding ++ (fetching ++ staging)) ++ saving) stored :=
    hstaged.append (hsave.chained (save_made trivial))
  have hreleased : Spares stored releasing released := hrelease.chained hreleases
  have hended : Spares stored (releasing ++ (binding ++ closing)) last :=
    hreleased.append ((hbind.chained (hbinds.bindWithin_makes _ _ _)).append
      (hclose.chained (Allocation.ofPort_made port.id)))
  have hd : first.supply.Distinct := by
    obtain ⟨rfl, _⟩ := plays_ports.1 hfind
    exact hfresh _ (List.mem_append_left _ (List.mem_singleton_self _))
  have hown : finding ++ (fetching ++ (staging ++ (saving ++ (releasing ++ (binding ++ closing))))) =
      ((finding ++ (fetching ++ staging)) ++ saving) ++ (releasing ++ (binding ++ closing)) := by
    simp only [List.append_assoc]
  rw [hown] at hfresh ⊢
  obtain ⟨hearly, hlate⟩ := List.forall_mem_append.1 hfresh
  have hstagedd := hstaged.distinct (List.forall_mem_append.1 hearly).1 hd
  have hreleasedd := hreleased.distinct (List.forall_mem_append.1 hlate).1 (hstored.distinct hearly hd)
  obtain ⟨kept, wanted, hsorted⟩ := hstage.sorted hstagedd hsound hassorted
  have hspared : ∀ ip ∈ kept, ip ∉ changes.removed :=
    fun ip hip hremoved => ((hsorted.removed ip).1 hremoved).2 hip
  obtain ⟨hheld, hearlier⟩ :=
    hstored.holds hearly hspared ⟨hsound, hkeyed, (hsorted.kept_iff hsound).2⟩
  obtain ⟨hlast, hlater⟩ := hended.holds hlate hspared hheld
  -- Neither saving nor binding asks for addresses.
  have hsaved : stored.ipam = staged.ipam :=
    (hsave.chained (save_makes trivial fun _ _ => trivial)).ipam_eq
  have hbound : last.ipam = released.ipam :=
    (hbind.chained ((PortContext.binds_apart _ true).bindWithin_makes _ _ _)).ipam_eq
  have hfreed := hrelease.ensures (Allocation.releases_ensures _ changes.removed stored) hreleasedd
    ⟨rfl, hheld.sound⟩
  have hfrees : staged.ipam.Frees changes.removed last.ipam := by
    rw [hbound, ← hsaved]
    exact hfreed.frees
  refine hsorted.refits hknown hsound hfrees hlast.sound fun move hmove state hstate ip hip => ?_
  rcases List.mem_append.1 hmove with hmove | hmove
  · exact (hearlier move hmove state hstate).has ip hip
  · exact (hlater move hmove state hstate).has ip hip

end Port

namespace Scene

variable {allowed : Setup → Command → Prop} {moves : List Move} {first scene : Scene}

/-- Whatever was asked before, an update that replaces the addresses of a port leaves it with one for
each request, and keeps all the time what a request names, which is the very row that the port had if
callers have offered only subnets that they knew. -/
theorem Run.update_refits (run : Run allowed first moves scene) (hfirst : first.Initial)
    (hfresh : ∀ move ∈ moves, move.Fresh) (setup : Setup) (id : PortId) {update : PortUpdate}
    {requests : List FixedIpRequest} (hrequests : update.fixedIps = some requests) {tag : Nat}
    {own : List Move} {details : PortDetails} {last : State}
    (hplays : (Port.update setup id update).run.Plays tag scene.state own (.ok details) last)
    (hown : ∀ move ∈ own, move.Fresh) :
    Port.Refits (Informed moves) scene.state id requests own last := by
  have hfaithful : Faithful False moves scene.state := run.faithful hfirst hfresh nofun
  exact (Port.update_plays hplays).refits (run.settled hfirst hfresh) hrequests hown hfaithful.sound
    hfaithful.keyed (run.assorted hfirst hfresh)

/-- A port has two addresses. It is to keep one of them, and to have another in place of the second. -/
def refurbish : List Move × Scene := sample.play (
  .start {} (.createSubnet .sample) :: Turn.moves 0 2 ++
  .start {} (.createPort request) :: Turn.moves 1 8)
where
  request : PortRequest :=
    { network := ⟨7⟩, fixedIps := some [{ address := some AllocatedIp.sample.address },
      { address := some other.address }] }
  other : AllocatedIp := ⟨.sample 5, ⟨0⟩⟩
  requests : List FixedIpRequest :=
    [{ subnet := some ⟨0⟩ }, { address := some AllocatedIp.sample.address }]

theorem refurbish_run : Run (fun _ _ => True) sample refurbish.1 refurbish.2 :=
  play_run fun turn _ => by cases turn <;> trivial

theorem refurbish_fresh : ∀ move ∈ refurbish.1, move.Fresh := by decide +kernel

theorem refurbish_refits : ∃ own details last,
    (Port.update {} ⟨3⟩ { fixedIps := some refurbish.requests }).run.Plays 2 refurbish.2.state own
      (.ok details) last ∧
    Informed refurbish.1 ∧
    Port.Refits (Informed refurbish.1) refurbish.2.state ⟨3⟩ refurbish.requests own last ∧
    refurbish.2.state.has ⟨3⟩ .sample = true ∧ last.has ⟨3⟩ .sample = true ∧
    refurbish.2.state.has ⟨3⟩ refurbish.other = true ∧ last.has ⟨3⟩ refurbish.other = false := by
  obtain ⟨details, own, last, hplays, hown, hstates⟩ :=
    (Port.update {} ⟨3⟩ { fixedIps := some refurbish.requests }).plays_ok 2 [] refurbish.2.state
      (P := fun _ own last => (∀ move ∈ own, move.Fresh) ∧
        refurbish.2.state.has ⟨3⟩ .sample = true ∧ last.has ⟨3⟩ .sample = true ∧
        refurbish.2.state.has ⟨3⟩ refurbish.other = true ∧ last.has ⟨3⟩ refurbish.other = false)
      (by decide +kernel)
  have hinformed : Informed refurbish.1 := by
    have hoffers : ∀ move ∈ refurbish.1, move.offered = [] := by decide +kernel
    intro past tag command rest heq subnet hmem
    have hmove : Move.start tag command ∈ refurbish.1 := heq ▸ by simp
    have hnone : command.candidates = [] := hoffers _ hmove
    exact absurd (hnone ▸ hmem) List.not_mem_nil
  exact ⟨own, details, last, hplays, hinformed, refurbish_run.update_refits sample_initial
    refurbish_fresh {} ⟨3⟩ rfl hplays hown, hstates⟩

end Scene

end ControlPlane
