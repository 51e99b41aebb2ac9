import ControlPlane.Proofs.Faithful
import ControlPlane.Proofs.Ranges.Placed

/-! Subnets that commands saw. Whatever happened since, a subnet of that identifier is still the one
that was seen, and its pools lie where its block and its gateway let them. -/

namespace ControlPlane

/-- A subnet was answered to whoever asked for it to be created. -/
def Created (moves : List Move) (subnet : Subnet) : Prop :=
  ∃ tag request details, .start tag (.createSubnet request) ∈ moves ∧
    .finish tag (.ok (.subnetDetails details)) ∈ moves ∧ details.subnet = subnet

variable {moves : List Move} {move : Move} {before after : State} {setup : Setup} {tag : Nat}
  {α : Type} {c : Call α} {answer : α} {subnet : Subnet} {known known' : Subnet → Prop}
  {ipam : Ipam} {supply : Supply}

theorem met_snoc : Met (moves ++ [move]) subnet ↔ Met moves subnet ∨
    ∃ state, move.after? = some state ∧ state.ipam.subnets.find? subnet.id = some subnet := by
  simp only [Met, passed_snoc_iff]
  constructor
  · rintro ⟨tag, state, hs | ⟨_, hs⟩, hf⟩
    · exact .inl ⟨tag, state, hs, hf⟩
    · exact .inr ⟨state, hs, hf⟩
  · rintro (⟨tag, state, hs, hf⟩ | ⟨state, hs, hf⟩)
    · exact ⟨tag, state, .inl hs, hf⟩
    · exact ⟨move.tag, state, .inr ⟨rfl, hs⟩, hf⟩

theorem Ipam.part_networks {γ : Type} {part : Ipam → γ}
    (h : ∀ ipam network, part (saveNetwork ipam network) = part ipam) (networks : List Network)
    (ipam : Ipam) : part (networks.foldl saveNetwork ipam) = part ipam := by
  induction networks generalizing ipam with
  | nil => rfl
  | cons network rest ih => exact (ih _).trans (h ipam network)

/-- What is stored may be known. -/
theorem Ipam.Charted.learn (h : ipam.Charted known supply)
    (hlaid : Laid ipam.subnets ipam.pools supply)
    (hk : ∀ subnet, known' subnet → known subnet ∨ ipam.subnets.find? subnet.id = some subnet) :
    ipam.Charted known' supply := by
  refine ⟨h.placed, fun subnet hs => ?_, fun subnet stored hs hf => ?_⟩
  · rcases hk subnet hs with hs | hs
    · exact h.drawn hs
    · exact (hlaid.subnet hs).2
  · rcases hk subnet hs with hs | hs
    · exact h.same hs hf
    · rw [hs] at hf
      exact (Option.some.inj hf).symm

def Call.Charts : {α : Type} → Call α → Prop
  | _, .ipam tx => tx.Charts
  | _, _ => True

theorem Call.Made.charts {licence : Licence} (hm : c.Made setup licence) : c.Charts := by
  cases hm with
  | readIpam f =>
    exact (Tx.spares_get.bind fun seen => Tx.spares_pure _ : Tx.Spares Ipam.layout _).charts
  | createNetwork network => exact (Network.createTx_spares network fun _ => rfl).charts
  | deleteNetwork id => exact (Network.deleteTx_spares id fun _ => rfl).charts
  | createSubnet _ _ hb => exact Subnet.createTx_charts hb
  | deleteSubnet id => exact Subnet.deleteTx_charts id
  | generate port network candidates =>
    exact (Allocation.generateTx_spares port network candidates).layout.charts
  | rebuild id => exact (Allocation.rebuildTx_spares id).grounds.layout.charts
  | allocate port subnet address =>
    exact (Allocation.allocateTx_spares port subnet address).layout.charts
  | release ip => exact (Allocation.releaseTx_spares _ ip).layout.charts
  | _ => trivial

theorem Call.Charts.result (h : c.Charts) (hr : c.Result before answer after)
    (hd : after.supply.Distinct) (hext : after.supply.Extends before.supply)
    (hlaid : Laid before.ipam.subnets before.ipam.pools before.supply)
    (hc : before.ipam.Charted known before.supply) : after.ipam.Charted known after.supply := by
  cases c with
  | ipam tx =>
    exact State.runIpam_keeps (h known) hr hd ⟨hlaid, hc⟩ (hc.of_layout rfl hext)
  | ports tx =>
    obtain ⟨_, hr⟩ := hr
    exact hc.of_layout (congrArg Ipam.layout (State.runReviewed_cases hr).1) hext
  | _ =>
    cases hr
    exact hc.of_layout rfl hext

namespace Ipam.Charted

theorem of_idle {state : State} (h : state.ipam.Charted (Met moves) state.supply)
    (hafter : move.after? = none) :
    state.ipam.Charted (Met (moves ++ [move])) state.supply := by
  have hmet : Met (moves ++ [move]) = Met moves := by
    funext subnet
    simp [met_snoc, hafter]
  rw [hmet]
  exact h

/-- A command gets to know the subnets that its calls lead to. -/
theorem call (h : before.ipam.Charted (Met moves) before.supply)
    (hf : Faithful False moves before) (hm : c.Made setup (licence moves tag))
    (hr : c.Result before answer after) (hd : after.supply.Distinct) :
    after.ipam.Charted (Met (moves ++ [.call tag c before answer after])) after.supply := by
  have hlaid := (hf.call hm nofun hr hd).sound.laid
  have hext := ((hm.abides False.elim).sound hr hd hf.keyed hf.sound).2
  refine (hm.charts.result hr hd hext hf.sound.laid h).learn hlaid fun subnet hs => ?_
  rcases met_snoc.1 hs with hs | ⟨state, hstate, hs⟩
  · exact .inl hs
  · cases hstate
    exact .inr hs

end Ipam.Charted

namespace Scene

variable {allowed : Setup → Command → Prop} {first scene : Scene}

theorem Initial.charted (hfirst : first.Initial) :
    first.state.ipam.Charted (Met []) first.state.supply := by
  have hmet {subnet : Subnet} : ¬ Met [] subnet := fun ⟨_, _, ⟨_, h, _⟩, _⟩ => List.not_mem_nil h
  have hempty : Ipam.Charted (Met []) {} first.state.supply := by
    refine ⟨fun _ _ _ hp => ?_, fun _ hk => absurd hk hmet, fun _ _ hk => absurd hk hmet⟩
    cases hp
  obtain ⟨networks, hipam⟩ := hfirst.ipam
  exact hempty.of_layout (hipam ▸ Ipam.part_networks (fun _ _ => rfl) networks {}) (.refl _)

theorem Run.charted (run : Run allowed first moves scene) (hfirst : first.Initial)
    (hfresh : ∀ move ∈ moves, move.Fresh) :
    Faithful False moves scene.state ∧
      scene.state.ipam.Charted (Met moves) scene.state.supply :=
  run.induct (fun moves state => state.ipam.Charted (Met moves) state.supply) hfirst hfresh nofun
    hfirst.charted (fun _ _ _ _ _ _ h => h.of_idle rfl)
    (fun _ _ _ _ _ _ _ _ _ _ hf hm hr hd h => h.call hf hm hr hd) fun _ _ _ _ _ h => h.of_idle rfl

theorem Run.created_met (run : Run allowed first moves scene) (hfirst : first.Initial)
    (hfresh : ∀ move ∈ moves, move.Fresh) (h : Created moves subnet) : Met moves subnet := by
  obtain ⟨tag, request, details, hs, hf, rfl⟩ := h
  obtain ⟨state, hsaw, hstored⟩ := run.backed hfirst hfresh hs hf
  exact ⟨tag, state, hsaw.passed, hstored⟩

end Scene

end ControlPlane
