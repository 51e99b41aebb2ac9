import ControlPlane.Proofs.Faithful
import ControlPlane.Proofs.Schedules

/-! Releases in every run. A command that works for a port releases what it saw the port have, and
does not look again. So it takes an address from another port just when the address was freed
meanwhile and given to that port. -/

namespace ControlPlane

namespace Move

/-- An address that a port has becomes free. -/
def Frees (ip : AllocatedIp) (port : PortId) : Move → Prop
  | call _ _ before _ after => before.ipam.holder? ip = some port ∧ after.ipam.holder? ip = none
  | _ => False

/-- A free address is given to a port. -/
def Gives (ip : AllocatedIp) (port : PortId) : Move → Prop
  | call _ _ before _ after => before.ipam.holder? ip = none ∧ after.ipam.holder? ip = some port
  | _ => False

def KeepsHolder (ip : AllocatedIp) : Move → Prop
  | call _ _ before _ after => after.ipam.holder? ip = before.ipam.holder? ip
  | _ => True

instance decidableFrees (ip : AllocatedIp) (port : PortId) : (move : Move) →
    Decidable (move.Frees ip port)
  | call _ _ before _ after => inferInstanceAs (Decidable (before.ipam.holder? ip = some port ∧
      after.ipam.holder? ip = none))
  | start .. => .isFalse id
  | finish .. => .isFalse id

end Move

/-- A port has lost an address that a command saw it have. -/
def Lost (moves : List Move) (tag : Nat) (port : PortId) (ip : AllocatedIp) : Prop :=
  ∃ early first late, moves = early ++ first :: late ∧ Learned early tag port ip ∧
    first.Frees ip port

/-- An address that a port has lost was given to another one, which has it since. -/
def Retaken (moves : List Move) (tag : Nat) (port : PortId) (ip : AllocatedIp) : Prop :=
  ∃ early second late other, moves = early ++ second :: late ∧ Lost early tag port ip ∧
    other ≠ port ∧ second.Gives ip other ∧ ∀ move ∈ late, move.KeepsHolder ip

variable {moves past rest : List Move} {move last : Move} {tag : Nat} {port : PortId}
  {ip : AllocatedIp}

theorem Lost.snoc (h : Lost moves tag port ip) : Lost (moves ++ [last]) tag port ip := by
  obtain ⟨early, first, late, rfl, hlearned, hfrees⟩ := h
  exact ⟨early, first, late ++ [last], by simp, hlearned, hfrees⟩

theorem Retaken.lost (h : Retaken moves tag port ip) : Lost moves tag port ip := by
  obtain ⟨_, second, late, _, rfl, hlost, _⟩ := h
  obtain ⟨early, first, middle, rfl, hlearned, hfrees⟩ := hlost
  exact ⟨early, first, middle ++ second :: late, by simp, hlearned, hfrees⟩

theorem Retaken.snoc (h : Retaken moves tag port ip) (hkeeps : last.KeepsHolder ip) :
    Retaken (moves ++ [last]) tag port ip := by
  obtain ⟨early, second, late, other, rfl, hlost, hne, hgives, hlate⟩ := h
  refine ⟨early, second, late ++ [last], other, by simp, hlost, hne, hgives, ?_⟩
  exact List.forall_mem_append.2 ⟨hlate, List.forall_mem_singleton.2 hkeeps⟩

/-- A move shows what it does to the holder of an address. -/
inductive Move.Shows (ip : AllocatedIp) (move : Move) : Option PortId → Option PortId → Prop
  | keeps (h : move.KeepsHolder ip) (holder : Option PortId) : move.Shows ip holder holder
  | gives {port : PortId} (h : move.Gives ip port) : move.Shows ip none (some port)
  | frees {port : PortId} (h : move.Frees ip port) : move.Shows ip (some port) none

theorem HolderChange.shows {given : PortId → Prop} {p : Prop} {α : Type} {c : Call α}
    {before after : State} {answer : α}
    (h : HolderChange given p (before.ipam.holder? ip) (after.ipam.holder? ip)) :
    (Move.call tag c before answer after).Shows ip (before.ipam.holder? ip)
      (after.ipam.holder? ip) := by
  generalize hb : before.ipam.holder? ip = holder at h ⊢
  generalize ha : after.ipam.holder? ip = next at h ⊢
  cases h with
  | same =>
    have hk : (Move.call tag c before answer after).KeepsHolder ip := ha.trans hb.symm
    exact .keeps hk holder
  | allocated =>
    have hg : (Move.call tag c before answer after).Gives ip _ := ⟨hb, ha⟩
    exact .gives hg
  | released _ port =>
    have hf : (Move.call tag c before answer after).Frees ip port := ⟨hb, ha⟩
    exact .frees hf

/-- What the moves of a run tell of those who had an address. -/
structure Traced (moves : List Move) (state : State) : Prop where
  /-- A port that was seen to have an address has it still, or has lost it. -/
  learned : ∀ ⦃tag port ip⦄, Learned moves tag port ip → state.ipam.holder? ip = some port ∨
    (state.ipam.holder? ip = none ∧ Lost moves tag port ip) ∨ Retaken moves tag port ip
  given : ∀ ⦃past move rest port ip⦄, moves = past ++ move :: rest → move.Gives ip port →
    (∀ other ∈ rest, other.KeepsHolder ip) → state.ipam.holder? ip = some port
  released : ∀ ⦃past move rest port owner ip⦄, moves = past ++ move :: rest →
    Serves past move.tag port → move.Frees ip owner →
    Learned past move.tag port ip ∧ (owner = port ↔ ¬ Retaken past move.tag port ip)

theorem exists_split (n : Nat) (P : List Move → Move → Prop)
    (h : ∃ move ∈ moves[n]?, P (moves.take n) move) :
    ∃ past move rest, moves = past ++ move :: rest ∧ P past move := by
  obtain ⟨move, hmove, hP⟩ := h
  obtain ⟨hn, rfl⟩ := List.getElem?_eq_some_iff.1 hmove
  refine ⟨moves.take n, moves[n], moves.drop (n + 1), ?_, hP⟩
  rw [← List.drop_eq_getElem_cons, List.take_append_drop]

namespace Traced

variable {before after : State} {owner : PortId}

theorem holder_of_retaken (h : Traced moves before) (hr : Retaken moves tag port ip) :
    ∃ other, other ≠ port ∧ before.ipam.holder? ip = some other := by
  obtain ⟨_, _, _, other, hmoves, _, hne, hgives, hlate⟩ := hr
  exact ⟨other, hne, h.given hmoves hgives hlate⟩

/-- An address that a port was seen to have is with another one just if that has retaken it. -/
theorem owner_iff (h : Traced moves before) (hl : Learned moves tag port ip)
    (ho : before.ipam.holder? ip = some owner) : owner = port ↔ ¬ Retaken moves tag port ip := by
  constructor
  · rintro rfl hr
    obtain ⟨other, hne, hother⟩ := h.holder_of_retaken hr
    rw [ho] at hother
    exact hne (Option.some.inj hother).symm
  · intro hr
    rcases h.learned hl with hp | ⟨hnone, _⟩ | hretaken
    · rw [ho] at hp
      exact Option.some.inj hp
    · rw [ho] at hnone
      cases hnone
    · exact absurd hretaken hr

theorem snoc (h : Traced moves before)
    (hshows : ∀ ip, last.Shows ip (before.ipam.holder? ip) (after.ipam.holder? ip))
    (hgives : ∀ ip port, last.Gives ip port → after.ipam.holder? ip = some port)
    (hfrees : ∀ ip port, last.Frees ip port → before.ipam.holder? ip = some port)
    (hkeeps : ∀ ip, last.KeepsHolder ip → after.ipam.holder? ip = before.ipam.holder? ip)
    (hlearned : ∀ tag port ip, Learned (moves ++ [last]) tag port ip →
      Learned moves tag port ip ∨ after.ipam.holder? ip = some port)
    (hreleased : ∀ port owner ip, Serves moves last.tag port → last.Frees ip owner →
      Learned moves last.tag port ip) : Traced (moves ++ [last]) after := by
  refine ⟨fun tag port ip hl => ?_, fun past move rest port ip hmoves hg hrest => ?_,
    fun past move rest port owner ip hmoves hserves hf => ?_⟩
  · rcases hlearned tag port ip hl with hold | hnew
    · have hcases := h.learned hold
      have hshow := hshows ip
      generalize hb : before.ipam.holder? ip = holder at hcases hshow
      generalize ha : after.ipam.holder? ip = next at hshow ⊢
      -- Who has lost the address has lost it for good, but whether another has it changes with moves.
      cases hshow with
      | keeps hk =>
        rcases hcases with hp | ⟨hnone, hlost⟩ | hretaken
        · exact .inl hp
        · exact .inr (.inl ⟨hnone, hlost.snoc⟩)
        · exact .inr (.inr (hretaken.snoc hk))
      | gives hg =>
        rename_i taker
        rcases hcases with hp | ⟨_, hlost⟩ | hretaken
        · cases hp
        · by_cases heq : taker = port
          · exact .inl (by rw [heq])
          · exact .inr (.inr ⟨moves, last, [], taker, rfl, hlost, heq, hg, List.forall_mem_nil _⟩)
        · obtain ⟨_, _, hother⟩ := h.holder_of_retaken hretaken
          rw [hb] at hother
          cases hother
      | frees hf =>
        rcases hcases with hp | ⟨hnone, _⟩ | hretaken
        · cases hp
          exact .inr (.inl ⟨rfl, moves, last, [], rfl, hold, hf⟩)
        · cases hnone
        · exact .inr (.inl ⟨rfl, hretaken.lost.snoc⟩)
    · exact .inl hnew
  · rcases snoc_eq_append_cons hmoves with ⟨rfl, rfl, rfl⟩ | ⟨front, rfl, rfl⟩
    · exact hgives ip port hg
    · obtain ⟨hfront, hlast⟩ := List.forall_mem_append.1 hrest
      rw [hkeeps ip (hlast last (List.mem_singleton_self last))]
      exact h.given rfl hg hfront
  · rcases snoc_eq_append_cons hmoves with ⟨rfl, rfl, rfl⟩ | ⟨front, rfl, rfl⟩
    · have hl := hreleased port owner ip hserves hf
      exact ⟨hl, h.owner_iff hl (hfrees ip owner hf)⟩
    · exact h.released rfl hserves hf

theorem idle (h : Traced moves before) (hafter : last.after? = none) :
    Traced (moves ++ [last]) before := by
  have hkeeps (ip : AllocatedIp) : last.KeepsHolder ip := by
    cases last with
    | call => cases hafter
    | _ => trivial
  have hgives (ip : AllocatedIp) (port : PortId) : ¬ last.Gives ip port := by
    cases last with
    | call => cases hafter
    | _ => exact id
  have hfrees (ip : AllocatedIp) (port : PortId) : ¬ last.Frees ip port := by
    cases last with
    | call => cases hafter
    | _ => exact id
  refine h.snoc (fun ip => .keeps (hkeeps ip) _) (fun _ _ hg => absurd hg (hgives _ _))
    (fun _ _ hf => absurd hf (hfrees _ _)) (fun _ _ => rfl) (fun tag port ip hl => .inl ?_)
    fun _ _ _ _ hf => absurd hf (hfrees _ _)
  obtain ⟨state, hsaw, hp⟩ := hl
  rcases saw_snoc_iff.1 hsaw with hsaw | ⟨_, _, hlast⟩
  · exact ⟨state, hsaw, hp⟩
  · rw [hafter] at hlast
    cases hlast

theorem call {eager : Prop} {setup : Setup} {α : Type} {c : Call α} {answer : α}
    (h : Traced moves before) (hf : Faithful eager moves before)
    (hm : c.Made setup (licence moves tag)) (hr : c.Result before answer after)
    (hd : after.supply.Distinct) : Traced (moves ++ [.call tag c before answer after]) after := by
  have hholders := (hm.abides False.elim).holders hr hd hf.orderly.labelled
  refine h.snoc (fun ip => (hholders ip).shows) (fun _ _ hg => hg.2) (fun _ _ hf => hf.1)
    (fun _ hk => hk) (fun owner port ip hl => ?_) fun port owner ip hserves hfrees => ?_
  · obtain ⟨state, hsaw, hp⟩ := hl
    rcases saw_snoc_iff.1 hsaw with hsaw | ⟨_, _, hlast⟩
    · exact .inl ⟨state, hsaw, hp⟩
    · cases hlast
      exact .inr hp
  · have hchange := hholders ip
    rw [hfrees.1, hfrees.2] at hchange
    cases hchange with
    | released hl => exact hl port hserves

end Traced

namespace Scene

variable {allowed : Setup → Command → Prop} {first scene : Scene} {owner : PortId}

theorem Run.traced (run : Run allowed first moves scene) (hfirst : first.Initial)
    (hfresh : ∀ move ∈ moves, move.Fresh) : Traced moves scene.state := by
  have hinit : Traced [] first.state := by
    refine ⟨?_, ?_, ?_⟩
    · rintro _ _ _ ⟨_, ⟨_, h, _⟩, _⟩
      cases h
    · intro past move rest _ _ hmoves
      cases past <;> cases hmoves
    · intro past move rest _ _ _ hmoves
      cases past <;> cases hmoves
  have hrun : Faithful False moves scene.state ∧ Traced moves scene.state := by
    refine run.induct (fun moves state => Traced moves state) hfirst hfresh nofun hinit ?_ ?_ ?_
    · exact fun _ _ _ _ _ _ h => h.idle rfl
    · exact fun _ _ _ _ _ _ _ _ _ _ hf hm hr hd h => h.call hf hm hr hd
    · exact fun _ _ _ _ _ h => h.idle rfl
  exact hrun.2

/-- A command that works for a port releases no address but one that it saw the port have, and
takes it from another port just if that has retaken it. -/
theorem Run.releases_own_iff (run : Run allowed first moves scene) (hfirst : first.Initial)
    (hfresh : ∀ move ∈ moves, move.Fresh) (hmoves : moves = past ++ move :: rest)
    (hserves : Serves past move.tag port) (hfrees : move.Frees ip owner) :
    Learned past move.tag port ip ∧ (owner = port ↔ ¬ Retaken past move.tag port ip) :=
  (run.traced hfirst hfresh).released hmoves hserves hfrees

/-- Two updates free an address of a port, and another port gets it between them. -/
def race : List Move × Scene := sample.play (
  .start {} (.createSubnet .sample) :: Turn.moves 0 2 ++
  .start {} (.createPort request) :: Turn.moves 1 7 ++
  .start {} (.updatePort ⟨3⟩ { fixedIps := some [] }) :: Turn.moves 2 4 ++
  .start {} (.updatePort ⟨3⟩ { fixedIps := some [] }) :: Turn.moves 3 8 ++
  .start {} (.createPort request) :: Turn.moves 4 7 ++ Turn.moves 2 4)
where
  request : PortRequest :=
    { network := ⟨7⟩, fixedIps := some [{ address := some AllocatedIp.sample.address }] }

theorem race_run : Run (fun _ _ => True) sample race.1 race.2 :=
  play_run fun turn _ => by cases turn <;> trivial

theorem race_fresh : ∀ move ∈ race.1, move.Fresh := by decide +kernel

/-- The update that started first releases the address when the other port has it. -/
theorem race_frees : ∃ past move rest, race.1 = past ++ move :: rest ∧
    Serves past move.tag ⟨3⟩ ∧ move.Frees .sample ⟨5⟩ :=
  exists_split 33 (fun past move => Serves past move.tag ⟨3⟩ ∧ move.Frees .sample ⟨5⟩)
    (by decide +kernel)

theorem race_releases : ∃ past move rest, race.1 = past ++ move :: rest ∧
    Learned past move.tag ⟨3⟩ .sample ∧
    ((⟨5⟩ : PortId) = ⟨3⟩ ↔ ¬ Retaken past move.tag ⟨3⟩ .sample) := by
  obtain ⟨past, move, rest, hmoves, hserves, hfrees⟩ := race_frees
  exact ⟨past, move, rest, hmoves,
    race_run.releases_own_iff sample_initial race_fresh hmoves hserves hfrees⟩

/-- It is not so that commands release the addresses of their own ports only. -/
theorem not_releases_own : ¬ ∀ (allowed : Setup → Command → Prop) (first scene : Scene)
    (moves past rest : List Move) (move : Move) (port owner : PortId) (ip : AllocatedIp),
    Run allowed first moves scene → first.Initial → (∀ move ∈ moves, move.Fresh) →
    moves = past ++ move :: rest → Serves past move.tag port → move.Frees ip owner →
    owner = port := by
  intro h
  obtain ⟨past, move, rest, hmoves, hserves, hfrees⟩ := race_frees
  have heq := h _ _ _ _ past rest move _ _ _ race_run sample_initial race_fresh hmoves hserves hfrees
  cases heq

end Scene

end ControlPlane
