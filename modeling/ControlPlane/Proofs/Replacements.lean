import ControlPlane.Proofs.Duties.Commands
import ControlPlane.Proofs.Schedules
import Mathlib.Data.List.Nodup

/-! Replacing the addresses of a port. An update reads which addresses the port has, and then
allocates and releases one after the other without reading them again. So it leaves the port with one
address for each request but for what others gave to the port or took from it meanwhile, other
updates of the port among them. -/

namespace ControlPlane

open Operation

/-- Whether a port has an address. -/
def State.has (port : PortId) (ip : AllocatedIp) (state : State) : Bool :=
  state.ipam.holder? ip = some port

/-- A command other than one gave an address to a port, or took it from the port. -/
def Disturbed (moves : List Move) (tag : Nat) (port : PortId) (ip : AllocatedIp) : Prop :=
  ∃ move ∈ moves, move.tag ≠ tag ∧
    (move.Begins (State.has port ip) ∨ move.Ends (State.has port ip))

/-- Since a move of a command, an address was disturbed, or it is at most once on a list and a port
has it just if it is there, whatever others do next but to disturb it. -/
def Books (port : PortId) (tag : Nat) (past : List Move) (look : Move) (ips : List AllocatedIp)
    (moves : List Move) : Prop :=
  ∃ rest, moves = past ++ look :: rest ∧ ∀ ip, Disturbed rest tag port ip ∨
    ips.count ip ≤ 1 ∧ ∀ others state, (∀ move ∈ others, move.tag = tag → move.after? = none) →
      Faithful False (moves ++ others) state →
      Disturbed others tag port ip ∨ (ip ∈ ips ↔ state.has port ip = true)

/-- The addresses of a port are one for each of some requests. -/
def State.Fits (state : State) (port : PortId) (requests : List FixedIpRequest) : Prop :=
  ∃ ips, List.Forall₂ AllocatedIp.Meets ips requests ∧
    ips.Perm ((state.ipam.portAllocations port).map Allocation.allocated)

/-- A licence for all but to allocate or release addresses and to remove ports. -/
def Licence.still : Licence := { Licence.quiet with release := fun _ => False }

variable {setup : Setup} {moves past late others later : List Move} {move look : Move} {tag : Nat}
  {port id : PortId} {ip : AllocatedIp} {ips more : List AllocatedIp} {before after state seen : State}
  {α : Type} {c : Call α} {answer : α}

theorem Call.Made.holder?_eq (hm : c.Made setup .still) (hl : before.ipam.Labelled)
    (hr : c.Result before answer after) (hd : after.supply.Distinct) (ip : AllocatedIp) :
    after.ipam.holder? ip = before.ipam.holder? ip := by
  have hchange := (hm.abides False.elim).holders hr hd hl ip
  generalize before.ipam.holder? ip = holder, after.ipam.holder? ip = holder' at hchange
  cases hchange with
  | same => rfl
  | allocated h => exact h.elim fun _ ht => ht.elim
  | released h => exact h.elim

theorem Disturbed.mono {past later : List Move} (h : Disturbed past tag port ip)
    (hsub : ∀ move ∈ past, move ∈ later) : Disturbed later tag port ip := by
  obtain ⟨move, hmove, hm⟩ := h
  exact ⟨move, hsub move hmove, hm⟩

/-- What was so after a move is so still, or some move since has changed it. -/
theorem Faithful.tracked {eager : Prop} {early : List Move} (there : State → Bool)
    (h : Faithful eager (early ++ move :: late) state) (hmove : move.after? = some seen) :
    there state = there seen ∨ ∃ other ∈ late, other.Begins there ∨ other.Ends there := by
  cases hseen : there seen <;> cases hstate : there state
  · exact .inl rfl
  · obtain ⟨mid, removal, rest, rfl, hends, _⟩ :=
      h.tracks (fun state => !there state) rfl hmove (by simp [hseen]) (by simp [hstate])
    refine .inr ⟨removal, by simp, .inl ?_⟩
    cases removal with
    | call => simpa [Move.Begins, Move.Ends] using hends
    | _ => exact hends
  · obtain ⟨mid, removal, rest, rfl, hends, _⟩ := h.tracks there rfl hmove hseen hstate
    exact .inr ⟨removal, by simp, .inr hends⟩
  · exact .inl rfl

/-- Unless others disturb an address, a port has it just if it has had it after the last call. -/
theorem Faithful.has_eq (h : Faithful False (moves ++ [move] ++ others) state)
    (hmove : move.after? = some seen)
    (hothers : ∀ move ∈ others, move.tag = tag → move.after? = none) :
    Disturbed others tag port ip ∨ state.has port ip = seen.has port ip := by
  rw [List.append_assoc, List.singleton_append] at h
  rcases h.tracked (State.has port ip) hmove with heq | ⟨other, hother, hshift⟩
  · exact .inr heq
  · refine .inl ⟨other, hother, fun htag => ?_, hshift⟩
    have hnone := hothers other hother htag
    cases other with
    | call => cases hnone
    | _ => exact hshift.elim id id

namespace Books

theorem of_look (hnodup : ips.Nodup) (hlook : look.after? = some seen)
    (hips : ∀ ip, ip ∈ ips ↔ seen.has port ip = true) :
    Books port tag past look ips (past ++ [look]) := by
  refine ⟨[], rfl, fun ip => .inr ⟨List.nodup_iff_count_le_one.1 hnodup ip, ?_⟩⟩
  intro others state hothers hf
  refine (hf.has_eq hlook hothers).imp_right fun heq => ?_
  rw [heq]
  exact hips ip

theorem append (h : Books port tag past look ips moves)
    (hothers : ∀ move ∈ others, move.tag = tag → move.after? = none) :
    Books port tag past look ips (moves ++ others) := by
  obtain ⟨rest, rfl, h⟩ := h
  refine ⟨rest ++ others, by simp, fun ip => ?_⟩
  rcases h ip with hrest | ⟨hcount, h⟩
  · exact .inl (hrest.mono fun _ hm => List.mem_append_left _ hm)
  by_cases hdisturbed : Disturbed others tag port ip
  · exact .inl (hdisturbed.mono fun _ hm => List.mem_append_right _ hm)
  refine .inr ⟨hcount, fun more state hmore hf => ?_⟩
  rw [List.append_assoc] at hf
  rcases h (others ++ more) state (List.forall_mem_append.2 ⟨hothers, hmore⟩) hf with
    ⟨move, hmove, hm⟩ | hips
  · rcases List.mem_append.1 hmove with hmove | hmove
    · exact absurd ⟨move, hmove, hm⟩ hdisturbed
    · exact .inl ⟨move, hmove, hm⟩
  · exact .inr hips

/-- A call of the command that makes of the port what it makes of the list. -/
theorem call (h : Books port tag past look ips moves) (hc : Called tag moves before after later)
    (hstep : ∀ ip, ips.count ip ≤ 1 → (ip ∈ ips ↔ before.has port ip = true) →
      more.count ip ≤ 1 ∧ (ip ∈ more ↔ after.has port ip = true)) :
    Books port tag past look more later := by
  cases hc with
  | @intro α c answer others hothers hf =>
    have hsilent : ∀ move ∈ others, move.tag = tag → move.after? = none :=
      fun move hmove htag => absurd htag (hothers move hmove)
    obtain ⟨rest, hrest, hbooks⟩ := h.append hsilent
    refine ⟨rest ++ [.call tag c before answer after], by simp [hrest], fun ip => ?_⟩
    rcases hbooks ip with hdisturbed | ⟨hcount, hnow⟩
    · exact .inl (hdisturbed.mono fun _ hm => List.mem_append_left _ hm)
    rcases hnow [] before (List.forall_mem_nil _) (by rwa [List.append_nil]) with ⟨_, hm, _⟩ | hips
    · cases hm
    obtain ⟨hmore, hafter⟩ := hstep ip hcount hips
    refine .inr ⟨hmore, fun next state hnext hf => ?_⟩
    refine (hf.has_eq rfl hnext).imp_right fun heq => ?_
    rw [heq]
    exact hafter

theorem has_iff : state.has port ip = true ↔ state.ipam.holder? ip = some port := decide_eq_true_iff

theorem has_congr (h : after.ipam.holder? ip = before.ipam.holder? ip) :
    after.has port ip = before.has port ip := by
  rw [State.has, State.has, h]

theorem perm (h : Books port tag past look ips moves) (hperm : ips.Perm more) :
    Books port tag past look more moves := by
  obtain ⟨rest, hrest, h⟩ := h
  refine ⟨rest, hrest, fun ip => ?_⟩
  rw [← hperm.count_eq ip, ← hperm.mem_iff]
  exact h ip

theorem keep (h : Books port tag past look ips moves) (hc : Called tag moves before after later)
    (hkept : after.ipam.allocations = before.ipam.allocations) :
    Books port tag past look ips later := by
  refine h.call hc fun ip hcount hips => ⟨hcount, ?_⟩
  have hsame : after.ipam.allocation? ip = before.ipam.allocation? ip := by
    simp only [Ipam.allocation?, hkept]
  rw [has_congr (Ipam.holder?_congr hsame)]
  exact hips

theorem gain (h : Books port tag past look ips moves) (hc : Called tag moves before after later)
    (hgains : before.ipam.Gains port [ip] after.ipam) :
    Books port tag past look (ip :: ips) later := by
  refine h.call hc fun other hcount hips => ?_
  by_cases heq : other = ip
  · subst heq
    obtain ⟨hnone, hsome⟩ := hgains.gained other (List.mem_singleton_self _)
    have hnot : other ∉ ips := by simp [hips, has_iff, hnone]
    simp [List.count_eq_zero.2 hnot, has_iff, hsome]
  · have hsame := Ipam.holder?_congr (hgains.others other (mt List.mem_singleton.1 heq))
    rw [has_congr hsame, List.count_cons_of_ne (Ne.symm heq), List.mem_cons, or_iff_right heq]
    exact ⟨hcount, hips⟩

theorem free (h : Books port tag past look (ip :: ips) moves)
    (hc : Called tag moves before after later) (hfrees : before.ipam.Frees [ip] after.ipam) :
    Books port tag past look ips later := by
  refine h.call hc fun other hcount hips => ?_
  have hafter := hfrees other
  by_cases heq : other = ip
  · subst heq
    rw [if_pos (List.mem_singleton_self _)] at hafter
    have hzero : ips.count other = 0 := by
      rw [List.count_cons_self] at hcount
      omega
    simp [hzero, List.count_eq_zero.1 hzero, has_iff, Ipam.holder?_eq_none.2 hafter]
  · rw [if_neg (mt List.mem_singleton.1 heq)] at hafter
    rw [List.count_cons_of_ne (Ne.symm heq)] at hcount
    rw [List.mem_cons, or_iff_right heq] at hips
    rw [has_congr (Ipam.holder?_congr hafter)]
    exact ⟨hcount, hips⟩

/-- The books of a command are a ledger. -/
def ledger (port : PortId) (tag : Nat) (past : List Move) (look : Move) : Ledger tag port where
  holds := Books port tag past look
  perm _ _ _ h hperm := h.perm hperm
  keep _ _ _ _ _ h hc _ hkept := h.keep hc hkept
  gain _ _ _ _ _ _ h hc _ hgains := h.gain hc hgains
  free _ _ _ _ _ _ h hc _ hfrees := h.free hc hfrees

/-- What neither allocates nor releases keeps the books. -/
theorem leaves_makes {operation : Operation α} (ho : operation.Makes (Call.Made setup .still))
    (h : Books port tag past look ips moves) :
    operation.Leaves tag (fun _ => Books port tag past look ips) (fun _ _ => True) moves := by
  have hkept : operation.Leaves tag (fun _ => Books port tag past look ips)
      (fun _ => Books port tag past look ips) moves := by
    apply ho.leaves h
    intro β c hm later others before answer after hlater hothers hf hr hd
    refine hlater.call (.intro hothers hf) fun ip hcount hips => ⟨hcount, ?_⟩
    rw [has_congr (hm.holder?_eq hf.orderly.labelled hr hd ip)]
    exact hips
  exact hkept.mono (fun _ _ _ h => h) fun _ _ _ _ => trivial

end Books

/-- A command has seen to it that a port has one address for each of some requests. -/
def Replaced (tag : Nat) (port : PortId) (requests : List FixedIpRequest) (moves : List Move) :
    Prop :=
  ∃ past look ips, look.tag = tag ∧ List.Forall₂ AllocatedIp.Meets ips requests ∧
    Books port tag past look ips moves

namespace Port

theorem perm_removed_kept {current kept : List AllocatedIp} (hcurrent : current.Nodup)
    (hkept : kept.Nodup) (hsub : ∀ ip ∈ kept, ip ∈ current) :
    current.Perm ((current.filter fun ip => !kept.contains ip) ++ kept) := by
  have hsame : (current.filter fun ip => kept.contains ip).Perm kept := by
    rw [List.perm_ext_iff_of_nodup (hcurrent.filter _) hkept]
    intro ip
    simp only [List.mem_filter, List.contains_iff_mem, and_iff_right_iff_imp]
    exact hsub ip
  exact ((List.filter_append_perm (fun ip => kept.contains ip) current).symm.trans
    List.perm_append_comm).trans (hsame.append_left _)

/-- What is to be removed is all that the port has beside what it is to have. -/
theorem stage_books (config : Config) (port : Port) (requests : List FixedIpRequest) :
    (Port.stage config port (some requests)).Leaves tag (fun changes later =>
      ∃ past look ips, look.tag = tag ∧ List.Forall₂ AllocatedIp.Meets ips requests ∧
        Books port.id tag past look (changes.removed ++ ips) later) (fun _ _ => True) moves := by
  show (Port.stageIps config port requests).Leaves tag _ _ moves
  refine leaves_guard (fun _ => trivial) fun _ => ?_
  have hread : (Allocation.ofPort port.id).Leaves tag (fun current later => ∃ past look,
      look.tag = tag ∧ current.Nodup ∧ Books port.id tag past look current later)
      (fun _ _ => True) moves := by
    refine leaves_readIpam fun others before hothers hf _ => ?_
    have hl := hf.orderly.labelled
    have hnodup := hl.nodup_portAllocations port.id
    exact ⟨_, _, rfl, hnodup, .of_look hnodup rfl fun ip =>
      hl.mem_portAllocations.trans Books.has_iff.symm⟩
  refine hread.bind fun current later _ ⟨past, look, hown, hnodup, hbooks⟩ => ?_
  refine leaves_bind_except (fun _ _ => trivial) fun ⟨kept, wanted⟩ hsorted => ?_
  obtain ⟨⟨hkept, hsub⟩, hmeets⟩ := keepAndWant_meets hsorted .nil (List.forall_mem_nil _)
  have hsplit := perm_removed_kept hnodup hkept hsub
  have hdone {added : List AllocatedIp} {last : List Move}
      (hadded : List.Forall₂ AllocatedIp.Meets added wanted)
      (hlast : Books port.id tag past look (added ++ current) last) :
      ∃ past look ips, look.tag = tag ∧ List.Forall₂ AllocatedIp.Meets ips requests ∧
        Books port.id tag past look ((current.filter fun ip => !kept.contains ip) ++ ips) last := by
    obtain ⟨ips, hips, hperm⟩ := hmeets added hadded
    refine ⟨past, look, ips, hown, hips, hlast.perm ?_⟩
    refine ((hsplit.append_left added).trans List.perm_append_comm).trans ?_
    rw [List.append_assoc]
    exact hperm.symm.append_left _
  dsimp only
  split
  · rename_i hempty
    rw [List.isEmpty_iff] at hempty
    subst hempty
    exact leaves_pure (hdone .nil hbooks)
  · rename_i hwanted
    have hnew := (Books.ledger port.id tag past look).forPort_leaves config port.network wanted hbooks
    refine (hnew.mono (fun _ _ _ h => h) fun _ _ _ _ => trivial).bind
      fun added last _ ⟨hlast, hmeets⟩ => leaves_pure (hdone (hmeets ?_) hlast)
    exact fun hnil => hwanted (List.isEmpty_iff.2 hnil)

/-- Who updates the addresses of a port allocates and releases what the requests ask for, given what
the port had when it looked. -/
theorem update_books {update : PortUpdate} {requests : List FixedIpRequest}
    (hrequests : update.fixedIps = some requests) :
    (Port.update setup id update).Leaves tag (fun _ => Replaced tag id requests)
      (fun _ _ => True) moves := by
  refine leaves_bind_except (fun _ _ => trivial) fun _ _ => ?_
  have hfind : (Port.find id).Leaves tag (fun found _ => ∀ port ∈ found, port.id = id)
      (fun _ _ => True) moves := leaves_readPorts fun _ _ _ hf _ _ hp => hf.keyed.port hp
  refine hfind.bind fun found seen _ hfound => ?_
  cases found with
  | none => exact leaves_throw trivial
  | some port =>
    obtain rfl := hfound port rfl
    refine leaves_bind_except (fun _ _ => trivial) fun _ _ => ?_
    refine (leaves_any (Network.fetch port.network)).bind fun network fetched _ _ => ?_
    rw [hrequests]
    refine (stage_books setup.config port requests).bind
      fun changes staged _ ⟨past, look, ips, hown, hips, hbooks⟩ => ?_
    have hsave : ((save setup.drivers port.id network update).orElse (undo changes)).Leaves tag
        (fun _ => Books port.id tag past look (changes.removed ++ ips)) (fun _ _ => True)
        staged := by
      refine (hbooks.leaves_makes (save_made trivial)).orElse fun error undone _ _ => ?_
      exact (leaves_any _).bind fun _ _ _ _ => leaves_throw trivial
    refine hsave.bind fun saved kept _ hkept => ?_
    cases saved with
    | none => exact (leaves_any _).bind fun _ _ _ _ => leaves_throw trivial
    | some saved =>
      have hrelease := (Books.ledger port.id tag past look).releases_leaves
        setup.config.ipam.reclaimOnRelease hkept
      refine (hrelease.mono (fun _ _ _ h => h) fun _ _ _ => False.elim).bind
        fun _ released _ hreleased => ?_
      have hbinds : PortContext.Binds (Call.Made setup .still) setup.drivers true :=
        PortContext.binds_made fun _ _ _ => trivial
      refine (hreleased.leaves_makes (hbinds.bindWithin_makes _ saved.context _)).bind
        fun context bound _ hbound => ?_
      have hread : (Allocation.ofPort port.id).Makes (Call.Made setup .still) :=
        Allocation.ofPort_made port.id
      refine (hbound.leaves_makes hread).bind fun _ last _ hlast => ?_
      exact leaves_pure ⟨past, look, ips, hown, hips, hlast⟩

end Port

namespace Scene

variable {allowed : Setup → Command → Prop} {first scene : Scene}

/-- What updates leave that replace the addresses of a port. -/
def replacing : Leaving
  | _, .updatePort id update, tag, .ok _, moves =>
    ∀ requests, update.fixedIps = some requests → Replaced tag id requests moves
  | _, _, _, _, _ => True

theorem replacing_append {command : Command} {result : Except Error Reply}
    (h : replacing setup command tag result past)
    (hothers : ∀ move ∈ others, move.tag = tag → move.after? = none) :
    replacing setup command tag result (past ++ others) := by
  cases command with
  | updatePort id update =>
    cases result with
    | ok reply =>
      intro requests hrequests
      obtain ⟨front, look, ips, hown, hips, hbooks⟩ := h requests hrequests
      exact ⟨front, look, ips, hown, hips, hbooks.append hothers⟩
    | error error => trivial
  | _ => trivial

theorem replacing_holds : replacing.Holds allowed := by
  intro setup command tag past _ _ _
  cases command with
  | updatePort id update =>
    have hupdate {moves : List Move} : (Port.update setup id update).Leaves tag
        (fun _ later => ∀ requests, update.fixedIps = some requests →
          Replaced tag id requests later) (fun _ _ => True) moves := by
      cases hrequests : update.fixedIps with
      | none => exact (leaves_any _).mono (fun _ _ _ _ => nofun) fun _ _ _ h => h
      | some requests =>
        refine (Port.update_books hrequests).mono (fun _ _ _ hreplaced => ?_) fun _ _ _ h => h
        rintro _ ⟨⟩
        exact hreplaced
    exact Duty.leaves_reply hupdate (fun _ _ h => h) fun _ _ _ => trivial
  | _ => exact Program.leaves_true _

/-- Whoever updates the addresses of a port with success has found one for each request. Later the
port has those and no others, but for what others gave it or took from it since the command looked
at what the port had. -/
theorem Run.update_replaces (run : Run allowed first moves scene) (hfirst : first.Initial)
    (hfresh : ∀ move ∈ moves, move.Fresh) {update : PortUpdate} {requests : List FixedIpRequest}
    {reply : Reply} (hs : .start tag (.updatePort id update) ∈ moves)
    (hrequests : update.fixedIps = some requests) (hf : .finish tag (.ok reply) ∈ moves) :
    ∃ past look rest ips, moves = past ++ look :: rest ∧ look.tag = tag ∧
      List.Forall₂ AllocatedIp.Meets ips requests ∧
      (∀ ip, Disturbed rest tag id ip ∨
        ips.count ip ≤ 1 ∧ (ip ∈ ips ↔ scene.state.has id ip = true)) ∧
      ((∀ ip, ¬ Disturbed rest tag id ip) → scene.state.Fits id requests) := by
  have hfaithful : Faithful False moves scene.state := run.faithful hfirst hfresh nofun
  have hl := hfaithful.orderly.labelled
  obtain ⟨setup, _, hleft⟩ := run.left hfirst hfresh replacing_holds
    (fun _ _ _ _ _ _ => replacing_append) hs hf
  obtain ⟨past, look, ips, hown, hips, rest, hmoves, hbooks⟩ := hleft requests hrequests
  have hnow (ip : AllocatedIp) : Disturbed rest tag id ip ∨
      ips.count ip ≤ 1 ∧ (ip ∈ ips ↔ scene.state.has id ip = true) := by
    rcases hbooks ip with hdisturbed | ⟨hcount, hnow⟩
    · exact .inl hdisturbed
    · have h := hnow [] scene.state (List.forall_mem_nil _) (by rwa [List.append_nil])
      rcases h with ⟨_, hm, _⟩ | hiff
      · cases hm
      · exact .inr ⟨hcount, hiff⟩
  refine ⟨past, look, rest, ips, hmoves, hown, hips, hnow, fun hcalm => ⟨ips, hips, ?_⟩⟩
  have hcalm (ip : AllocatedIp) := (hnow ip).resolve_left (hcalm ip)
  have hnodup : ips.Nodup := List.nodup_iff_count_le_one.2 fun ip => (hcalm ip).1
  rw [List.perm_ext_iff_of_nodup hnodup (hl.nodup_portAllocations id)]
  exact fun ip => (hcalm ip).2.trans (Books.has_iff.trans hl.mem_portAllocations.symm)

/-- A port that was created with an address. -/
def furnished : List Move × Scene := sample.play (
  .start {} (.createSubnet .sample) :: Turn.moves 0 8 ++
  .start {} (.createPort request) :: Turn.moves 1 16)
where
  request : PortRequest :=
    { network := ⟨7⟩, fixedIps := some [{ address := some AllocatedIp.sample.address }] }

/-- One update has looked at what the port has, and another runs to its end before the first goes
on. -/
def rivalry : List Move × Scene := furnished.2.play (
  front ++ .start {} (.updatePort ⟨3⟩ fast) :: (Turn.moves 3 20 ++ Turn.moves 2 20))
where
  slow : PortUpdate := { fixedIps := some [{ address := some ⟨.v4, 0x0a000005, by decide⟩ }] }
  fast : PortUpdate := { fixedIps := some [{ address := some ⟨.v4, 0x0a000006, by decide⟩ }] }
  front : List Turn := .start {} (.updatePort ⟨3⟩ slow) :: Turn.moves 2 3

theorem furnished_run : Run (fun _ _ => True) sample furnished.1 furnished.2 :=
  play_run fun turn _ => by cases turn <;> trivial

theorem rivalry_run : Run (fun setup command => setup = {} ∧
      (command = .updatePort ⟨3⟩ rivalry.slow ∨ command = .updatePort ⟨3⟩ rivalry.fast))
    furnished.2 rivalry.1 rivalry.2 := by
  apply play_run
  intro turn hturn
  simp only [rivalry.front, Turn.moves, List.mem_append, List.mem_cons, List.mem_replicate] at hturn
  rcases hturn with (rfl | ⟨_, rfl⟩) | rfl | ⟨_, rfl⟩ | ⟨_, rfl⟩
  · exact ⟨rfl, .inl rfl⟩
  · trivial
  · exact ⟨rfl, .inr rfl⟩
  · trivial
  · trivial

theorem rivalry_moves :
    (∃ reply, .start 2 (.updatePort ⟨3⟩ rivalry.slow) ∈ rivalry.1 ∧
      .finish 2 (.ok reply) ∈ rivalry.1) ∧
    ∃ reply, .start 3 (.updatePort ⟨3⟩ rivalry.fast) ∈ rivalry.1 ∧
      .finish 3 (.ok reply) ∈ rivalry.1 := by
  have hends (tag : Nat) (h : ∃ move ∈ rivalry.1, (move.reply? tag).isSome) :
      ∃ reply, .finish tag (.ok reply) ∈ rivalry.1 := by
    obtain ⟨move, hmove, hreply⟩ := h
    obtain ⟨reply, hreply⟩ := Option.isSome_iff_exists.1 hreply
    exact ⟨reply, finish_mem hmove hreply⟩
  have hfront : rivalry.front = [] ++ .start {} (.updatePort ⟨3⟩ rivalry.slow) :: Turn.moves 2 3 :=
    rfl
  have hs : .start 2 (.updatePort ⟨3⟩ rivalry.slow) ∈ (furnished.2.play rivalry.front).1 := by
    have hstarted : (furnished.2.play []).2.started = 2 := by decide +kernel
    rw [hfront]
    exact start_mem_played hstarted
  have hstarted : (furnished.2.play rivalry.front).2.started = 3 := by decide +kernel
  obtain ⟨reply, hf⟩ := hends 2 (by decide +kernel)
  obtain ⟨reply', hf'⟩ := hends 3 (by decide +kernel)
  exact ⟨⟨reply, (prefix_play rivalry.front _).subset hs, hf⟩, reply', start_mem_played hstarted, hf'⟩

/-- Both updates are over, and the port has the addresses of both. -/
theorem rivalry_rests : (∀ move ∈ furnished.1 ++ rivalry.1, move.Fresh) ∧
    (∀ move ∈ rivalry.1, move.tag = 2 ∨ move.tag = 3) ∧
    furnished.2.running = [] ∧ rivalry.2.running = [] ∧
    rivalry.2.state.has ⟨3⟩ ⟨⟨.v4, 0x0a000006, by decide⟩, ⟨0⟩⟩ = true ∧
    (rivalry.2.state.ipam.portAllocations ⟨3⟩).length = 2 :=
  ⟨by decide +kernel, by decide +kernel, List.isEmpty_iff.1 (by decide +kernel),
    List.isEmpty_iff.1 (by decide +kernel), by decide +kernel, by decide +kernel⟩

/-- The update that looked first has been disturbed, as it knows nothing of the address of the
other. -/
theorem rivalry_disturbed : ∃ past look rest, furnished.1 ++ rivalry.1 = past ++ look :: rest ∧
    look.tag = 2 ∧ Disturbed rest 2 ⟨3⟩ ⟨⟨.v4, 0x0a000006, by decide⟩, ⟨0⟩⟩ := by
  have hrun : Run (fun _ _ => True) furnished.2 rivalry.1 rivalry.2 :=
    play_run fun turn _ => by cases turn <;> trivial
  obtain ⟨reply, hs, hf⟩ := rivalry_moves.1
  obtain ⟨hfresh, _, _, _, hhas, _⟩ := rivalry_rests
  obtain ⟨past, look, rest, ips, hmoves, hown, hips, hnow, _⟩ :=
    (furnished_run.append hrun).update_replaces sample_initial hfresh
      (List.mem_append_right _ hs) rfl (List.mem_append_right _ hf)
  refine ⟨past, look, rest, hmoves, hown, (hnow _).resolve_right fun ⟨_, hiff⟩ => ?_⟩
  have hmem := hiff.2 hhas
  cases hips with
  | cons hfirst hrest =>
    cases hrest
    rw [List.mem_singleton] at hmem
    subst hmem
    exact absurd (hfirst.address _ rfl) (by decide)

/-- Two updates of a port that ran side by side need not leave it as one of them asked for. -/
theorem not_updates_serial : ¬ ∀ (allowed : Setup → Command → Prop) (first mid last : Scene)
    (moves later : List Move) (setup : Setup) (id : PortId) (update update' : PortUpdate)
    (requests requests' : List FixedIpRequest) (tag tag' : Nat) (reply reply' : Reply),
    Run allowed first moves mid → first.Initial → mid.running = [] →
    Run (fun own command => own = setup ∧
      (command = .updatePort id update ∨ command = .updatePort id update')) mid later last →
    last.running = [] → (∀ move ∈ moves ++ later, move.Fresh) →
    (∀ move ∈ later, move.tag = tag ∨ move.tag = tag') →
    .start tag (.updatePort id update) ∈ later → .start tag' (.updatePort id update') ∈ later →
    update.fixedIps = some requests → update'.fixedIps = some requests' →
    .finish tag (.ok reply) ∈ later → .finish tag' (.ok reply') ∈ later →
    last.state.Fits id requests ∨ last.state.Fits id requests' := by
  intro h
  obtain ⟨⟨reply, hs, hf⟩, reply', hs', hf'⟩ := rivalry_moves
  obtain ⟨hfresh, htags, hquiet, hrunning, _, hcount⟩ := rivalry_rests
  have hlength (request : FixedIpRequest) : ¬ rivalry.2.state.Fits ⟨3⟩ [request] := by
    rintro ⟨ips, hmeets, hperm⟩
    have hsame := hmeets.length_eq.symm.trans hperm.length_eq
    rw [List.length_map, hcount] at hsame
    cases hsame
  rcases h _ _ _ _ _ _ {} ⟨3⟩ rivalry.slow rivalry.fast _ _ 2 3 reply reply' furnished_run
      sample_initial hquiet rivalry_run hrunning hfresh htags hs hs' rfl rfl hf hf' with hfits | hfits
  · exact hlength _ hfits
  · exact hlength _ hfits

end Scene

end ControlPlane
