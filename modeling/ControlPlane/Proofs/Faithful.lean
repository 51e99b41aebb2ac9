import ControlPlane.Proofs.Effects

/-! Histories that agree with the state they lead to. A port identifier is drawn once, by one
command, and the port that this command stores under it keeps its network as long as it lives. -/

namespace ControlPlane

section Snoc

variable {moves : List Move} {move : Move} {tag : Nat} {id : PortId} {network : NetworkId}
  {state : State}

theorem exists_mem_snoc {P : Move → Prop} :
    (∃ other ∈ moves ++ [move], P other) ↔ (∃ other ∈ moves, P other) ∨ P move := by
  simp only [List.mem_append, List.mem_singleton, or_and_right, exists_or, exists_eq_left]

theorem drew_snoc : Drew (moves ++ [move]) tag id ↔
    Drew moves tag id ∨ move.tag = tag ∧ move.drawn? = some id :=
  exists_mem_snoc

theorem passed_snoc_iff : Passed (moves ++ [move]) tag state ↔
    Passed moves tag state ∨ move.tag = tag ∧ move.after? = some state :=
  exists_mem_snoc

theorem saw_snoc_iff {store : StoreKind} : Saw (moves ++ [move]) tag store state ↔
    Saw moves tag store state ∨
      move.tag = tag ∧ move.sees? = some store ∧ move.after? = some state :=
  exists_mem_snoc

theorem known_snoc : Known (moves ++ [move]) id network ↔ Known moves id network ∨
    ∃ state port, move.after? = some state ∧ state.ports.ports.find? id = some port ∧
      port.network = network := by
  simp only [Known, passed_snoc_iff]
  constructor
  · rintro ⟨tag, state, port, hs | ⟨_, hs⟩, h⟩
    · exact .inl ⟨tag, state, port, hs, h⟩
    · exact .inr ⟨state, port, hs, h⟩
  · rintro (⟨tag, state, port, hs, h⟩ | ⟨state, port, hs, h⟩)
    · exact ⟨tag, state, port, .inl hs, h⟩
    · exact ⟨move.tag, state, port, .inr ⟨rfl, hs⟩, h⟩

theorem idle_snoc : Idle (moves ++ [move]) tag ↔
    Idle moves tag ∧ (move.tag = tag → move.KeepsPorts) := by
  simp only [Idle, List.forall_mem_append, List.forall_mem_singleton]

end Snoc

/-- What the moves tell of identifiers and ports. `known` says that a command which drew the
identifier of a stored port has used it up, and `tracks` that nothing is lost but by a move. -/
structure Faithful (eager : Prop) (moves : List Move) (state : State) : Prop where
  sound : state.ipam.Sound eager state.supply
  keyed : state.ports.Keyed
  starts : ∀ ⦃tag command command'⦄, .start tag command ∈ moves → .start tag command' ∈ moves →
    command = command'
  drawn : ∀ ⦃tag id⦄, Drew moves tag id → state.supply.Drawn id.value
  drew : ∀ ⦃tag id id'⦄, Drew moves tag id → Drew moves tag id' → id = id'
  owner : ∀ ⦃tag tag' id⦄, Drew moves tag id → Drew moves tag' id → tag = tag'
  known : ∀ ⦃id network⦄, Known moves id network → ∃ tag, Drew moves tag id ∧ ¬ Idle moves tag
  home : ∀ ⦃id network network'⦄, Known moves id network → Known moves id network' →
    network = network'
  stored : ∀ ⦃id port⦄, state.ports.ports.find? id = some port → Known moves id port.network
  tracks : ∀ there, Tracks there (fun _ _ => True) moves state

namespace Faithful

variable {eager : Prop} {moves : List Move} {state before after : State} {setup : Setup} {tag : Nat}
  {command : Command} {α : Type} {c : Call α} {answer : α}

theorem orderly (h : Faithful eager moves state) : Orderly moves state :=
  ⟨h.keyed, h.sound.network, fun _ _ hs => (h.sound.laid.subnet hs).1,
    fun _ _ hk => (h.sound.allocation hk).1, h.starts, h.drew⟩

theorem snoc {move : Move} (h : Faithful eager moves state) (hdrawn : move.drawn? = none)
    (hafter : move.after? = none)
    (hstarts : ∀ tag command, move = .start tag command → ∀ other ∈ moves, other.tag < tag) :
    Faithful eager (moves ++ [move]) state := by
  have hdrew {tag : Nat} {id : PortId} : Drew (moves ++ [move]) tag id ↔ Drew moves tag id := by
    simp [drew_snoc, hdrawn]
  have hknown {id : PortId} {network : NetworkId} :
      Known (moves ++ [move]) id network ↔ Known moves id network := by
    simp [known_snoc, hafter]
  refine ⟨h.sound, h.keyed, ?_, ?_, ?_, ?_, ?_, ?_, ?_, fun there => (h.tracks there).idle hafter⟩
  · intro tag command command' hs hs'
    rcases List.mem_append.1 hs with hs | hs <;> rcases List.mem_append.1 hs' with hs' | hs'
    · exact h.starts hs hs'
    · exact absurd rfl (Nat.ne_of_lt (hstarts _ _ (List.mem_singleton.1 hs').symm _ hs))
    · exact absurd rfl (Nat.ne_of_lt (hstarts _ _ (List.mem_singleton.1 hs).symm _ hs'))
    · have heq := (List.mem_singleton.1 hs).trans (List.mem_singleton.1 hs').symm
      cases heq
      rfl
  · exact fun tag id hd => h.drawn (hdrew.1 hd)
  · exact fun tag id id' hd hd' => h.drew (hdrew.1 hd) (hdrew.1 hd')
  · exact fun tag tag' id hd hd' => h.owner (hdrew.1 hd) (hdrew.1 hd')
  · intro id network hk
    obtain ⟨tag, hd, hidle⟩ := h.known (hknown.1 hk)
    exact ⟨tag, hdrew.2 hd, fun hi => hidle (idle_snoc.1 hi).1⟩
  · exact fun id network network' hk hk' => h.home (hknown.1 hk) (hknown.1 hk')
  · exact fun id port hp => hknown.2 (h.stored hp)

theorem unknown {id : PortId} {network : NetworkId} (h : Faithful eager moves state)
    (hd : Drew moves tag id) (hi : Idle moves tag) : ¬ Known moves id network := by
  intro hk
  obtain ⟨owner, howner, hused⟩ := h.known hk
  rw [h.owner howner hd] at hused
  exact hused hi

theorem find?_eq_none {id : PortId} (h : Faithful eager moves state) (hd : Drew moves tag id)
    (hi : Idle moves tag) : state.ports.ports.find? id = none := by
  rw [Option.eq_none_iff_forall_ne_some]
  exact fun port hp => h.unknown hd hi (h.stored hp)

/-- How rows change in a licensed call. A port that is stored had none. -/
theorem rows (h : Faithful eager moves before) (hm : c.Made setup (licence moves tag))
    (hr : c.Result before answer after) (hd : after.supply.Distinct) (key : BindingKey) :
    RowChange ((licence moves tag).Commits key) (before.ports.row? key) (after.ports.row? key) := by
  cases (hm.abides False.elim).ports hr hd h.keyed with
  | evolves he _ => exact he.rows key
  | inserted port new binding hl hnew hsave =>
    obtain ⟨hdrew, hidle, request, hdescribes, _⟩ := hl
    have ⟨hport, hb⟩ := Port.initialBinding_unbound hdescribes.binding
    have hid : new.id = port.id := by rw [hnew.choose_spec.1]
    rw [← hid] at hdrew hport
    exact (h.keyed.insert (h.find?_eq_none hdrew hidle) hport hb hsave).rows key

theorem call_ports (h : Faithful eager moves before) (hm : c.Made setup (licence moves tag))
    (hr : c.Result before answer after) (hd : after.supply.Distinct) :
    after.ports.Keyed ∧ ∀ id port, after.ports.ports.find? id = some port →
      Known moves id port.network ∨
        Drew moves tag id ∧ Idle moves tag ∧ after.ports ≠ before.ports := by
  cases (hm.abides False.elim).ports hr hd h.keyed with
  | evolves he _ =>
    refine ⟨he.keyed, fun id port hp => .inl ?_⟩
    obtain ⟨former, hf, hn⟩ := he.ports hp
    rw [hn.network]
    exact h.stored hf
  | inserted port new binding hl hnew hsave =>
    obtain ⟨hdrew, hidle, request, hdescribes, _⟩ := hl
    have ⟨hport, hb⟩ := Port.initialBinding_unbound hdescribes.binding
    have hid : new.id = port.id := by rw [hnew.choose_spec.1]
    rw [← hid] at hdrew hport
    have hnone := h.find?_eq_none hdrew hidle
    have he : (before.ports.savePort new).Evolves (fun _ _ _ => False) after.ports :=
      h.keyed.insert hnone hport hb hsave
    refine ⟨he.keyed, fun id other ho => ?_⟩
    obtain ⟨former, hf, hn⟩ := he.ports ho
    simp only [Ports.savePort, Table.find?_insert] at hf
    split at hf
    · rename_i heq
      subst heq
      refine .inr ⟨hdrew, hidle, fun hsame => ?_⟩
      rw [hsame, hnone] at ho
      cases ho
    · rw [hn.network]
      exact .inl (h.stored hf)

theorem call (h : Faithful eager moves before) (hm : c.Made setup (licence moves tag))
    (heager : eager → setup.config.ipam.reclaimOnRelease = true) (hr : c.Result before answer after)
    (hd : after.supply.Distinct) :
    Faithful eager (moves ++ [.call tag c before answer after]) after := by
  have ⟨hsound, hext⟩ := (hm.abides heager).sound hr hd h.keyed h.sound
  have ⟨hkeyed, hports⟩ := h.call_ports hm hr hd
  -- Whatever is told after the call was told before it, or is told by the call.
  have hdrew {owner : Nat} {id : PortId}
      (hdrew : Drew (moves ++ [.call tag c before answer after]) owner id) :
      Drew moves owner id ∨ tag = owner ∧ c.drawn? answer = some id := by
    simpa only [drew_snoc, Move.tag, Move.drawn?] using hdrew
  have hknown {id : PortId} {network : NetworkId}
      (hk : Known (moves ++ [.call tag c before answer after]) id network) :
      Known moves id network ∨ (∃ port, after.ports.ports.find? id = some port ∧
        port.network = network) ∧ Drew moves tag id ∧ Idle moves tag ∧
          after.ports ≠ before.ports := by
    rcases known_snoc.1 hk with hk | ⟨state, port, hs, hp, hn⟩
    · exact .inl hk
    · cases hs
      rcases hports id port hp with hk | hnew
      · exact .inl (hn ▸ hk)
      · exact .inr ⟨⟨port, hp, hn⟩, hnew⟩
  refine ⟨hsound, hkeyed, ?_, ?_, ?_, ?_, ?_, ?_, ?_,
    fun there => (h.tracks there).call fun _ => .inr trivial⟩
  · intro owner command command' hs hs'
    have hstart {command : Command}
        (hs : .start owner command ∈ moves ++ [.call tag c before answer after]) :
        Move.start owner command ∈ moves := by
      rcases List.mem_append.1 hs with hs | hs
      · exact hs
      · cases List.mem_singleton.1 hs
    exact h.starts (hstart hs) (hstart hs')
  · intro owner id hid
    rcases hdrew hid with hid | ⟨_, hid⟩
    · exact (h.drawn hid).of_extends hext
    · exact (hm.drawn hr hd hid).2.2
  · intro owner id id' hid hid'
    rcases hdrew hid with hold | ⟨rfl, hnew⟩ <;> rcases hdrew hid' with hold' | ⟨htag, hnew'⟩
    · exact h.drew hold hold'
    · exact absurd (htag ▸ hold) ((hm.drawn hr hd hnew').1 id)
    · exact absurd hold' ((hm.drawn hr hd hnew).1 id')
    · exact Option.some.inj (hnew.symm.trans hnew')
  · intro owner owner' id hid hid'
    rcases hdrew hid with hold | ⟨rfl, hnew⟩ <;> rcases hdrew hid' with hold' | ⟨htag, hnew'⟩
    · exact h.owner hold hold'
    · exact absurd (h.drawn hold) (hm.drawn hr hd hnew').2.1
    · exact absurd (h.drawn hold') (hm.drawn hr hd hnew).2.1
    · exact htag
  · intro id network hk
    rcases hknown hk with hk | ⟨_, hdrew, _, hne⟩
    · obtain ⟨owner, howner, hused⟩ := h.known hk
      exact ⟨owner, drew_snoc.2 (.inl howner), fun hi => hused (idle_snoc.1 hi).1⟩
    · exact ⟨tag, drew_snoc.2 (.inl hdrew), fun hi => hne ((idle_snoc.1 hi).2 rfl)⟩
  · intro id network network' hk hk'
    rcases hknown hk with hk | ⟨⟨port, hp, rfl⟩, hdrew, hidle, _⟩ <;>
      rcases hknown hk' with hk' | ⟨⟨port', hp', rfl⟩, hdrew', hidle', _⟩
    · exact h.home hk hk'
    · exact absurd hk (h.unknown hdrew' hidle')
    · exact absurd hk' (h.unknown hdrew hidle)
    · rw [hp] at hp'
      cases hp'
      rfl
  · exact fun id port hp => known_snoc.2 (.inr ⟨after, port, rfl, hp, rfl⟩)

end Faithful

/-- A control plane with some networks and nothing else, which was not asked for anything yet. -/
structure Scene.Initial (scene : Scene) : Prop where
  running : scene.running = []
  ports : scene.state.ports = {}
  ipam : ∃ networks : List Network, scene.state.ipam = networks.foldl Ipam.saveNetwork {}

theorem Ipam.sound_networks (eager : Prop) (networks : List Network) (supply : Supply) :
    (networks.foldl saveNetwork {}).Sound eager supply := by
  have hempty : Ipam.Sound eager {} supply := by
    refine ⟨fun _ _ h => ?_, ⟨fun _ _ h => ?_, fun _ _ h => ?_, fun _ _ _ _ h => ?_⟩,
      ⟨fun _ _ h => ?_, fun _ _ h => ?_, fun _ _ _ _ h => ?_⟩, fun _ _ h => ?_,
      fun _ _ _ h => ?_, fun _ _ _ _ h => ?_⟩
    all_goals cases h
  have hfold (networks : List Network) (ipam : Ipam) (h : ipam.Sound eager supply) :
      (networks.foldl saveNetwork ipam).Sound eager supply := by
    induction networks generalizing ipam with
    | nil => exact h
    | cons network rest ih => exact ih _ (h.saveNetwork network)
  exact hfold networks {} hempty

namespace Scene

variable {eager : Prop} {allowed : Setup → Command → Prop} {moves : List Move} {first scene : Scene}

theorem Initial.faithful (h : first.Initial) : Faithful eager [] first.state := by
  obtain ⟨networks, hipam⟩ := h.ipam
  have hkeyed : Ports.Keyed {} := by
    refine ⟨fun _ _ h => ?_, fun key _ h => ?_, fun _ _ _ h => ?_⟩
    · cases h
    · cases key <;> cases h
    · cases h
  have hdrew {tag : Nat} {id : PortId} : ¬ Drew [] tag id := fun ⟨_, h, _⟩ => List.not_mem_nil h
  have hknown {id : PortId} {network : NetworkId} : ¬ Known [] id network :=
    fun ⟨_, _, _, ⟨_, h, _⟩, _⟩ => List.not_mem_nil h
  refine ⟨hipam ▸ Ipam.sound_networks eager networks _, h.ports ▸ hkeyed, ?_, ?_, ?_, ?_, ?_, ?_, ?_,
    fun _ => .nil⟩
  · exact fun _ _ _ hs => absurd hs List.not_mem_nil
  · exact fun _ _ hd => absurd hd hdrew
  · exact fun _ _ _ hd => absurd hd hdrew
  · exact fun _ _ _ hd => absurd hd hdrew
  · exact fun _ _ hk => absurd hk hknown
  · exact fun _ _ _ hk => absurd hk hknown
  · intro id port hp
    rw [h.ports] at hp
    cases hp

/-- What holds of a run beside what its moves tell. It is enough that each call with a licence
keeps it. -/
theorem Run.induct (P : List Move → State → Prop) (run : Run allowed first moves scene)
    (hfirst : first.Initial) (hfresh : ∀ move ∈ moves, move.Fresh)
    (heager : eager → ∀ setup command, allowed setup command →
      setup.config.ipam.reclaimOnRelease = true) (hinit : P [] first.state)
    (hstart : ∀ ⦃moves state setup command tag⦄, allowed setup command → P moves state →
      P (moves ++ [.start tag command]) state)
    (hcall : ∀ ⦃moves before after setup command tag⦄ ⦃α : Type⦄ ⦃c : Call α⦄ ⦃answer⦄,
      allowed setup command → Faithful eager moves before → c.Made setup (licence moves tag) →
      c.Result before answer after → after.supply.Distinct → P moves before →
      P (moves ++ [.call tag c before answer after]) after)
    (hfinish : ∀ ⦃moves state tag answer⦄, Ends moves tag answer → P moves state →
      P (moves ++ [.finish tag answer]) state) :
    Faithful eager moves scene.state ∧ P moves scene.state := by
  refine Run.keeps (fun moves state => Faithful eager moves state ∧ P moves state) run
    hfirst.running hfresh ⟨hfirst.faithful, hinit⟩ ?_ ?_ ?_
  · intro moves state setup command tag may htags ⟨h, hP⟩
    refine ⟨h.snoc rfl rfl fun _ _ hs => ?_, hstart may hP⟩
    cases hs
    exact htags
  · intro setup command may tag
    refine ⟨fun _ _ h => h.1.orderly, fun α c moves before answer after hm ⟨h, hP⟩ hr hd => ?_⟩
    exact ⟨h.call hm (fun he => heager he setup command may) hr hd, hcall may h hm hr hd hP⟩
  · intro moves state tag answer hends ⟨h, hP⟩
    refine ⟨h.snoc rfl rfl fun _ _ hs => ?_, hfinish hends hP⟩
    cases hs

theorem Run.faithful (run : Run allowed first moves scene) (hfirst : first.Initial)
    (hfresh : ∀ move ∈ moves, move.Fresh)
    (heager : eager → ∀ setup command, allowed setup command →
      setup.config.ipam.reclaimOnRelease = true) : Faithful eager moves scene.state :=
  (Run.induct (fun _ _ => True) run hfirst hfresh heager trivial (fun _ _ _ _ _ _ _ => trivial)
    (fun _ _ _ _ _ _ _ _ _ _ _ _ _ _ _ => trivial) fun _ _ _ _ _ _ => trivial).1

/-- A command that has ended gave no reply but one that tells what it saw. -/
theorem Run.backed {tag : Nat} {command : Command} {reply : Reply}
    (run : Run allowed first moves scene) (hfirst : first.Initial)
    (hfresh : ∀ move ∈ moves, move.Fresh) (hs : .start tag command ∈ moves)
    (hf : .finish tag (.ok reply) ∈ moves) : command.Backed moves tag reply := by
  have hrun : Faithful False moves scene.state ∧ Told moves := by
    refine run.induct (fun moves _ => Told moves) hfirst hfresh nofun
      (fun _ _ h => absurd h List.not_mem_nil) ?_ ?_ ?_
    · intro moves state setup command tag may h
      exact h.snoc fun _ _ heq => by cases heq
    · intro moves before after setup command tag α c answer may hf hm hr hd h
      exact h.snoc fun _ _ heq => by cases heq
    · intro moves state tag answer hends h
      refine h.snoc fun _ _ heq => ?_
      cases heq
      exact hends
  obtain ⟨ended, hended, hbacked⟩ := hrun.2 tag _ hf
  rw [hrun.1.starts hs hended]
  exact hbacked reply rfl

end Scene

end ControlPlane
