import ControlPlane.Proofs.Duties.Commands
import ControlPlane.Proofs.Ports.Uniqueness

/-! Addresses that outlive their ports. Who updates a port or deletes it looks after the addresses of
the port, but who creates one does not: it neither finds out that the port was deleted before it
allocates, nor takes back what an update allocated before it gives up. -/

namespace ControlPlane

/-- A command allocates addresses to ports that it is told, and does no more with them. -/
def Command.Allocates : Command → Prop
  | .generate .. | .allocate .. | .allocateAddress .. | .allocateForPort .. => True
  | _ => False

/-- An address was given to a port that was removed beside the command which gave it: that created
the port, which was deleted before, or it updated the port, which was withdrawn by the command that
created it. -/
inductive Orphaned (moves : List Move) (port : PortId) (ip : AllocatedIp) : Prop
  | deleted (early mid late : List Move) (removal gift : Move)
    (split : moves = early ++ removal :: (mid ++ gift :: late)) (loses : removal.Loses port)
    (asked : .start removal.tag (.deletePort port) ∈ moves) (gives : gift.Gives ip port)
    (drew : Drew moves gift.tag port)
  | withdrawn (early mid late : List Move) (gift removal : Move) (update : PortUpdate)
    (split : moves = early ++ gift :: (mid ++ removal :: late)) (gives : gift.Gives ip port)
    (asked : .start gift.tag (.updatePort port update) ∈ moves) (loses : removal.Loses port)
    (drew : Drew moves removal.tag port)

/-- A port was given an address by a move, and has it since. -/
structure Keeping (moves : List Move) (port : PortId) (ip : AllocatedIp) (early : List Move)
    (gift : Move) (late : List Move) : Prop where
  split : moves = early ++ gift :: late
  gives : gift.Gives ip port
  since : ∀ move ∈ gift :: late, ∀ later, move.after? = some later →
    later.ipam.holder? ip = some port

/-- What the moves tell of who gave the addresses that ports have, and of who removed ports. -/
structure Settled (moves : List Move) (state : State) : Prop where
  held : ∀ ⦃ip port⦄, state.ipam.holder? ip = some port → ∃ early gift late,
    Keeping moves port ip early gift late ∧ (licence early gift.tag).Gives port
  /-- A port that was there after a move, and is not there now, was removed after that move. -/
  lost : ∀ ⦃early move late seen id⦄, moves = early ++ move :: late → move.after? = some seen →
    seen.ports.ports.contains id = true → state.ports.ports.contains id = false →
    ∃ mid removal rest, late = mid ++ removal :: rest ∧ removal.Loses id ∧
      (licence (early ++ move :: mid) removal.tag).remove id
  /-- A port that was removed does not come back. -/
  gone : ∀ ⦃move id⦄, move ∈ moves → move.Loses id →
    state.ports.ports.contains id = false ∧ ∃ port, Seen moves id port

variable {moves : List Move} {before after : State} {setup : Setup} {tag : Nat} {α : Type}
  {c : Call α} {answer : α} {id port : PortId} {ip : AllocatedIp}

namespace Keeping

variable {early late front rest : List Move} {gift move : Move}

theorem snoc (h : Keeping moves port ip early gift late)
    (hmove : ∀ later, move.after? = some later → later.ipam.holder? ip = some port) :
    Keeping (moves ++ [move]) port ip early gift (late ++ [move]) := by
  refine ⟨by simp [h.split], h.gives, ?_⟩
  rw [← List.cons_append]
  exact List.forall_mem_append.2 ⟨h.since, List.forall_mem_singleton.2 hmove⟩

/-- Who was charged with an address after it was given owes it, if nothing has excused that. -/
theorem owes (h : Keeping moves port ip early gift late) {duty : Duty} (hport : duty.port = port)
    (hmoves : moves = front ++ move :: rest) (hcharges : duty.charges ip move)
    (hlate : ∀ other ∈ move :: rest, other ∈ gift :: late)
    (hexcuses : ∀ state, Passed (move :: rest) move.tag state → ¬ duty.excuses state) :
    duty.Owes moves move.tag ip := by
  refine ⟨front, move, rest, hmoves, rfl, hcharges, fun state hsaw => ⟨?_, hexcuses state hsaw⟩⟩
  obtain ⟨other, hother, _, hafter⟩ := hsaw
  rw [hport]
  exact h.since other (hlate other hother) state hafter

end Keeping

namespace Settled

theorem tracks (h : Settled moves before) (id : PortId) :
    Tracks (fun state => state.ports.ports.contains id)
      (fun past tag => (licence past tag).remove id) moves before :=
  fun _ _ _ _ hmoves hmove hc hnot => h.lost hmoves hmove hc hnot

theorem idle {move : Move} (h : Settled moves before) (hafter : move.after? = none) :
    Settled (moves ++ [move]) before := by
  refine ⟨fun ip port hp => ?_, fun early other late seen id hmoves hother hc hnot => ?_,
    fun other id hother hl => ?_⟩
  · obtain ⟨early, gift, late, hkeeping, hlicence⟩ := h.held hp
    refine ⟨early, gift, late ++ [move], hkeeping.snoc fun later ha => ?_, hlicence⟩
    rw [hafter] at ha
    cases ha
  · exact (h.tracks id).idle hafter hmoves hother hc hnot
  · rcases List.mem_append.1 hother with hother | hother
    · obtain ⟨hnot, port, hseen⟩ := h.gone hother hl
      exact ⟨hnot, port, hseen.mono (List.prefix_append _ _)⟩
    · cases List.mem_singleton.1 hother
      cases move with
      | call => cases hafter
      | _ => exact hl.elim

theorem call {eager : Prop} (h : Settled moves before) (hf : Faithful eager moves before)
    (hm : c.Made setup (licence moves tag)) (hr : c.Result before answer after)
    (hd : after.supply.Distinct) : Settled (moves ++ [.call tag c before answer after]) after := by
  have habides := hm.abides False.elim
  refine ⟨fun ip port hp => ?_, fun early move late seen id hmoves hmove hc hnot => ?_,
    fun move id hmove hl => ?_⟩
  · have hchange := habides.holders hr hd hf.orderly.labelled ip
    rw [hp] at hchange
    generalize hb : before.ipam.holder? ip = holder at hchange
    cases hchange with
    | same =>
      obtain ⟨early, gift, late, hkeeping, hlicence⟩ := h.held hb
      refine ⟨early, gift, late ++ [.call tag c before answer after], hkeeping.snoc ?_, hlicence⟩
      rintro _ ⟨⟩
      exact hp
    | allocated hlicence =>
      refine ⟨moves, .call tag c before answer after, [], ⟨rfl, ⟨hb, hp⟩, ?_⟩, hlicence⟩
      refine List.forall_mem_singleton.2 ?_
      rintro _ ⟨⟩
      exact hp
  · have hkept (hc : before.ports.ports.contains id = true) :=
      (habides.ports hr hd hf.keyed).contains hc
    exact (h.tracks id).call hkept hmoves hmove hc hnot
  · have hstays {port : Port} (hbefore : before.ports.ports.contains id = false)
        (hseen : Seen moves id port) : after.ports.ports.contains id = false := by
      rw [← Bool.not_eq_true, Table.contains_iff]
      rintro ⟨other, hother⟩
      rcases hf.port_cases hm hr hd hother with ⟨former, hformer, _⟩ | ⟨_, _, hunseen⟩
      · rw [Table.contains_iff.2 ⟨former, hformer⟩] at hbefore
        cases hbefore
      · exact hunseen port hseen
    rcases List.mem_append.1 hmove with hmove | hmove
    · obtain ⟨hnot, port, hseen⟩ := h.gone hmove hl
      exact ⟨hstays hnot hseen, port, hseen.mono (List.prefix_append _ _)⟩
    · cases List.mem_singleton.1 hmove
      obtain ⟨hbefore, hafter⟩ := hl
      obtain ⟨port, hport⟩ := Table.contains_iff.1 hbefore
      obtain ⟨seen, hseen, _⟩ := (hf.stored hport).seen
      exact ⟨hafter, seen, hseen.mono (List.prefix_append _ _)⟩

end Settled

namespace Scene

variable {allowed : Setup → Command → Prop} {first scene : Scene}

theorem Run.holders_settled (run : Run allowed first moves scene) (hfirst : first.Initial)
    (hfresh : ∀ move ∈ moves, move.Fresh) :
    Faithful False moves scene.state ∧ Settled moves scene.state := by
  obtain ⟨networks, hipam⟩ := hfirst.ipam
  have hfree (ip : AllocatedIp) : first.state.ipam.holder? ip = none := by
    rw [hipam]
    exact @Ipam.part_networks _ (fun ipam => ipam.holder? ip) (fun _ _ => rfl) networks {}
  have hinit : Settled [] first.state := by
    refine ⟨fun ip port hp => ?_, fun early _ _ _ _ hmoves => ?_, fun _ _ hmove => ?_⟩
    · rw [hfree ip] at hp
      cases hp
    · cases early <;> cases hmoves
    · cases hmove
  refine run.induct (fun moves state => Settled moves state) hfirst hfresh nofun hinit ?_ ?_ ?_
  · exact fun _ _ _ _ _ _ h => h.idle rfl
  · exact fun _ _ _ _ _ _ _ _ _ _ hf hm hr hd h => h.call hf hm hr hd
  · exact fun _ _ _ _ _ h => h.idle rfl

theorem Run.rests (run : Run allowed first moves scene) (hfirst : first.Initial)
    (hfresh : ∀ move ∈ moves, move.Fresh) (hrunning : scene.running = []) {command : Command}
    (hs : .start tag command ∈ moves) :
    ∃ setup answer, allowed setup command ∧ Duty.leaving setup command tag answer moves := by
  obtain ⟨answer, hf⟩ := run.rested hfirst hfresh hrunning hs
  obtain ⟨setup, may, hleft⟩ := run.left hfirst hfresh Duty.leaving_holds
    (fun _ _ _ _ _ _ => Duty.leaving_append) hs hf
  exact ⟨setup, answer, may, hleft⟩

section Rest

variable (run : Run allowed first moves scene) (hfirst : first.Initial)
  (hfresh : ∀ move ∈ moves, move.Fresh) (hrunning : scene.running = []) {early late : List Move}
  {gift : Move} (hkeeping : Keeping moves port ip early gift late)
  (hgone : scene.state.ports.ports.contains port = false)

include run hfirst hfresh hrunning hkeeping

/-- Who deletes a port releases what it has by then, so that what it keeps was given later. -/
theorem Run.not_deleted {front rest : List Move} {removal : Move}
    (hmoves : moves = front ++ removal :: rest) (hloses : removal.Loses port)
    (hs : .start removal.tag (.deletePort port) ∈ moves)
    (hlate : ∀ move ∈ removal :: rest, move ∈ gift :: late) : False := by
  obtain ⟨_, _, _, hleft⟩ := run.rests hfirst hfresh hrunning hs
  have hleft : (Duty.deletion port).Accounts removal.tag [] moves := hleft
  have howes : (Duty.deletion port).Owes moves removal.tag ip :=
    hkeeping.owes rfl hmoves hloses hlate fun _ _ => id
  exact List.not_mem_nil (hleft.owes ip howes)

include hgone

/-- Who creates a port and gives it an address, which it keeps though it is gone, has not seen that
the port was deleted before. -/
theorem Run.orphaned_of_creation {request : PortRequest}
    (hs : .start gift.tag (.createPort request) ∈ moves) (hdrew : Drew moves gift.tag port) :
    Orphaned moves port ip := by
  obtain ⟨hfaithful, hsettled⟩ := run.holders_settled hfirst hfresh
  obtain ⟨setup, answer, _, hleft⟩ := run.rests hfirst hfresh hrunning hs
  cases answer with
  | error error =>
    have hleft : Duty.Withdrawn setup.config request gift.tag error moves := hleft
    have hclean : (Duty.creation port True).Accounts gift.tag [] moves := by
      rcases hleft.clean with hall | ⟨id, hid, h⟩
      · exact hall port
      · exact hfaithful.drew hid hdrew ▸ h
    have howes : (Duty.creation port True).Owes moves gift.tag ip :=
      hkeeping.owes rfl hkeeping.split hkeeping.gives (fun _ h => h) fun _ _ => id
    exact absurd (hclean.owes ip howes) List.not_mem_nil
  | ok reply =>
    obtain ⟨id, ips, hid, ⟨state, ⟨move, hmove, _, hafter⟩, hcontains⟩, haccounts⟩ := hleft
    obtain rfl : id = port := hfaithful.drew hid hdrew
    obtain ⟨front, back, hmoves⟩ := List.append_of_mem hmove
    obtain ⟨mid, removal, rest, rfl, hloses, hremove⟩ :=
      hsettled.lost hmoves hafter hcontains hgone
    have hfront : front ++ move :: mid <+: moves := ⟨removal :: rest, by simp [hmoves]⟩
    have hsplit : moves = (front ++ move :: mid) ++ removal :: rest := by simp [hmoves]
    -- The command has not removed the port itself, so it was deleted; and that before the address
    -- was given, or else the deletion would have released it.
    rcases hremove with hown | hdelete
    · have htag := hfaithful.owner (hown.mono hfront) hdrew
      exact (haccounts.loses removal (by simp [hmoves]) htag hloses).elim
    · have hdelete := hfront.subset hdelete
      rcases split_cases (hkeeping.split.symm.trans hsplit) with ⟨between, hearly, hrest⟩ | hlate
      · refine .deleted (front ++ move :: mid) between late removal gift ?_ hloses hdelete
          hkeeping.gives hdrew
        rw [← hrest]
        exact hsplit
      · exact (run.not_deleted hfirst hfresh hrunning hkeeping hsplit hloses hdelete hlate).elim

/-- Who updates a port and gives it an address, which it keeps though it is gone, has seen the port
after that, so that it was removed by the command that created it. -/
theorem Run.orphaned_of_update {update : PortUpdate}
    (hs : .start gift.tag (.updatePort port update) ∈ moves) : Orphaned moves port ip := by
  obtain ⟨hfaithful, hsettled⟩ := run.holders_settled hfirst hfresh
  obtain ⟨_, _, _, hleft⟩ := run.rests hfirst hfresh hrunning hs
  have hleft : (Duty.update port).Accounts gift.tag [] moves := hleft
  -- An update that does not find the port any more releases its addresses.
  have hfound : ∃ state, Passed (gift :: late) gift.tag state ∧
      state.ports.ports.contains port = true := by
    refine Classical.byContradiction fun hnot => ?_
    have howes : (Duty.update port).Owes moves gift.tag ip :=
      hkeeping.owes rfl hkeeping.split hkeeping.gives (fun _ h => h)
        fun state hsaw hc => hnot ⟨state, hsaw, hc⟩
    exact List.not_mem_nil (hleft.owes ip howes)
  obtain ⟨state, ⟨move, hmove, _, hafter⟩, hcontains⟩ := hfound
  obtain ⟨front, back, hlate⟩ := List.append_of_mem hmove
  have hmoves : moves = (early ++ front) ++ move :: back := by
    rw [hkeeping.split, hlate, List.append_assoc]
  obtain ⟨mid, removal, rest, rfl, hloses, hremove⟩ := hsettled.lost hmoves hafter hcontains hgone
  have hfront : early ++ front ++ move :: mid <+: moves := ⟨removal :: rest, by simp [hmoves]⟩
  have hsplit : moves = (early ++ front ++ move :: mid) ++ removal :: rest := by simp [hmoves]
  rcases hremove with hown | hdelete
  · obtain ⟨between, hbetween⟩ : ∃ between, late = between ++ removal :: rest := by
      cases front with
      | nil =>
        cases hlate
        exact ⟨mid, rfl⟩
      | cons _ front =>
        cases hlate
        exact ⟨front ++ move :: mid, by simp⟩
    exact .withdrawn early between rest gift removal update (hbetween ▸ hkeeping.split)
      hkeeping.gives hs hloses (hown.mono hfront)
  · have hdelete := hfront.subset hdelete
    refine (run.not_deleted hfirst hfresh hrunning hkeeping hsplit hloses hdelete ?_).elim
    intro other hother
    rw [hlate]
    exact List.mem_append_right _ (List.mem_cons_of_mem _ (List.mem_append_right _ hother))

end Rest

/-- Once nothing runs, an address is with a port that is gone just if it is orphaned. -/
theorem Run.orphaned_iff (run : Run allowed first moves scene) (hfirst : first.Initial)
    (hfresh : ∀ move ∈ moves, move.Fresh)
    (hallocates : ∀ setup command, allowed setup command → ¬ command.Allocates)
    (hrunning : scene.running = []) (hheld : scene.state.ipam.holder? ip = some port) :
    scene.state.ports.ports.find? port = none ↔ Orphaned moves port ip := by
  obtain ⟨hfaithful, hsettled⟩ := run.holders_settled hfirst hfresh
  have hstored : scene.state.ports.ports.contains port = false ↔
      scene.state.ports.ports.find? port = none := by simp [Table.contains]
  rw [← hstored]
  constructor
  · intro hgone
    obtain ⟨early, gift, late, hkeeping, subnet, htakes⟩ := hsettled.held hheld
    have hfront : early <+: moves := ⟨gift :: late, hkeeping.split.symm⟩
    rcases htakes with ⟨command, hs, hcandidate⟩ | ⟨⟨command, hs, hsupplies⟩, _⟩
    · obtain ⟨setup, _, may, _⟩ := run.rests hfirst hfresh hrunning (hfront.subset hs)
      have hnot := hallocates setup command may
      cases command with
      | generate | allocate | allocateAddress => exact (hnot trivial).elim
      | _ => cases hcandidate
    · obtain ⟨setup, _, may, _⟩ := run.rests hfirst hfresh hrunning (hfront.subset hs)
      have hnot := hallocates setup command may
      cases command with
      | createPort request =>
        exact run.orphaned_of_creation hfirst hfresh hrunning hkeeping hgone (hfront.subset hs)
          (Drew.mono hsupplies hfront)
      | updatePort id update =>
        cases hsupplies
        exact run.orphaned_of_update hfirst hfresh hrunning hkeeping hgone (hfront.subset hs)
      | allocateForPort => exact (hnot trivial).elim
      | _ => exact hsupplies.elim
  · intro h
    cases h with
    | deleted early mid late removal gift split loses =>
      exact (hsettled.gone (by simp [split]) loses).1
    | withdrawn early mid late gift removal update split gives asked loses =>
      exact (hsettled.gone (by simp [split]) loses).1

/-- While a port is created that is stored and has no addresses yet, another command runs to its
end. -/
def intrusion (request : PortRequest) (command : Command) : List Move × Scene := sample.play (
  .start {} (.createSubnet .sample) :: Turn.moves 0 2 ++
  .start {} (.createPort request) :: Turn.moves 1 4 ++
  .start {} command :: Turn.moves 2 16 ++ Turn.moves 1 16)

theorem intrusion_run (request : PortRequest) (command : Command) :
    Run (fun _ asked => asked = .createSubnet .sample ∨ asked = .createPort request ∨
      asked = command) sample (intrusion request command).1 (intrusion request command).2 := by
  refine play_run fun turn hturn => ?_
  simp only [Turn.moves, List.mem_append, List.mem_cons, List.mem_replicate] at hturn
  rcases hturn with (((rfl | ⟨_, rfl⟩) | rfl | ⟨_, rfl⟩) | rfl | ⟨_, rfl⟩) | ⟨_, rfl⟩
  · exact .inl rfl
  · trivial
  · exact .inr (.inl rfl)
  · trivial
  · exact .inr (.inr rfl)
  · trivial
  · trivial

/-- The port is deleted before it gets its address. -/
def deletion : List Move × Scene := intrusion request (.deletePort ⟨3⟩)
where
  request : PortRequest :=
    { network := ⟨7⟩, fixedIps := some [{ address := some AllocatedIp.sample.address }] }

/-- The port gets an address by an update, and is withdrawn as its own cannot be had. -/
def withdrawal : List Move × Scene := intrusion request (.updatePort ⟨3⟩ update)
where
  request : PortRequest :=
    { network := ⟨7⟩, fixedIps := some [{ address := some default }] }
  update : PortUpdate := { fixedIps := some [{ address := some AllocatedIp.sample.address }] }

theorem deletion_rests : (∀ move ∈ deletion.1, move.Fresh) ∧ deletion.2.running = [] ∧
    deletion.2.state.ipam.holder? .sample = some ⟨3⟩ ∧
    deletion.2.state.ports.ports.find? ⟨3⟩ = none :=
  ⟨by decide +kernel, List.isEmpty_iff.1 (by decide +kernel), by decide +kernel,
    Option.isNone_iff_eq_none.1 (by decide +kernel)⟩

theorem withdrawal_rests : (∀ move ∈ withdrawal.1, move.Fresh) ∧ withdrawal.2.running = [] ∧
    withdrawal.2.state.ipam.holder? .sample = some ⟨3⟩ ∧
    withdrawal.2.state.ports.ports.find? ⟨3⟩ = none :=
  ⟨by decide +kernel, List.isEmpty_iff.1 (by decide +kernel), by decide +kernel,
    Option.isNone_iff_eq_none.1 (by decide +kernel)⟩

theorem intrusions_orphan : Orphaned deletion.1 ⟨3⟩ .sample ∧ Orphaned withdrawal.1 ⟨3⟩ .sample := by
  constructor
  · obtain ⟨hfresh, hrunning, hheld, hnone⟩ := deletion_rests
    have hrun : Run _ sample deletion.1 deletion.2 := intrusion_run _ _
    refine (hrun.orphaned_iff sample_initial hfresh ?_ hrunning hheld).1 hnone
    rintro _ _ (rfl | rfl | rfl) <;> exact id
  · obtain ⟨hfresh, hrunning, hheld, hnone⟩ := withdrawal_rests
    have hrun : Run _ sample withdrawal.1 withdrawal.2 := intrusion_run _ _
    refine (hrun.orphaned_iff sample_initial hfresh ?_ hrunning hheld).1 hnone
    rintro _ _ (rfl | rfl | rfl) <;> exact id

/-- It is not so that addresses are with ports that are stored, once nothing runs. -/
theorem not_held_by_stored : ¬ ∀ (allowed : Setup → Command → Prop) (first scene : Scene)
    (moves : List Move) (ip : AllocatedIp) (port : PortId), Run allowed first moves scene →
    first.Initial → (∀ move ∈ moves, move.Fresh) →
    (∀ setup command, allowed setup command → (∃ request, command = .createSubnet request) ∨
      (∃ request, command = .createPort request) ∨ ∃ id, command = .deletePort id) →
    scene.running = [] → scene.state.ipam.holder? ip = some port →
    ∃ stored, scene.state.ports.ports.find? port = some stored := by
  intro h
  obtain ⟨hfresh, hrunning, hheld, hnone⟩ := deletion_rests
  have hrun : Run _ sample deletion.1 deletion.2 := intrusion_run _ _
  obtain ⟨stored, hstored⟩ := h _ _ _ _ .sample ⟨3⟩ hrun sample_initial hfresh
    (fun _ command hasked => by
      rcases hasked with rfl | rfl | rfl
      · exact .inl ⟨_, rfl⟩
      · exact .inr (.inl ⟨_, rfl⟩)
      · exact .inr (.inr ⟨_, rfl⟩)) hrunning hheld
  rw [hnone] at hstored
  cases hstored

end Scene

end ControlPlane
