import ControlPlane.Proofs.Duties.Ports

/-! What commands leave behind. Whoever creates a port and fails has given back the addresses that it
allocated, but whoever succeeds does not look whether the port is still there. -/

namespace ControlPlane

open Operation

namespace Duty

/-- Who creates a port has to see to the addresses that it gives to the port. -/
def creation (id : PortId) (removes : Prop) : Duty where
  port := id
  charges ip move := move.Gives ip id
  excuses _ := False
  removes := removes
  narrow _ _ h := .inl h

/-- Who updates a port has to see to the addresses that it gives to the port, unless the port is
found to be there after that. -/
def update (id : PortId) : Duty where
  port := id
  charges ip move := move.Gives ip id
  excuses state := state.ports.ports.contains id = true
  removes := False
  narrow _ _ h := .inl h

/-- Who deletes a port has to see to all of its addresses. -/
def deletion (id : PortId) : Duty where
  port := id
  charges _ move := move.Loses id
  excuses _ := False
  removes := True
  narrow _ _ h := .inr ⟨trivial, h⟩

variable {setup : Setup} {duty : Duty} {past later others : List Move} {tag : Nat}
  {ips : List AllocatedIp} {id : PortId} {α : Type} {error : Error}

theorem accounts_of_start {command : Command}
    (hown : ∀ move ∈ past, move.tag = tag → move = .start tag command) :
    duty.Accounts tag [] past := by
  refine ⟨fun ip ⟨front, move, rest, hpast, htag, hcharges, _⟩ => ?_, fun move hmove htag hl => ?_⟩
  · obtain ⟨state, hs⟩ := charges_call hcharges
    rw [hown move (by simp [hpast]) htag] at hs
    cases hs
  · rw [hown move hmove htag] at hl
    exact hl.elim

theorem Accounts.removing {removes : Prop} (h : (creation id removes).Accounts tag ips past) :
    (creation id True).Accounts tag ips past :=
  ⟨h.owes, fun _ _ _ _ => trivial⟩

theorem abandon_leaves {post : α → List Move → Prop} (hplain : error.Plain)
    (h : (creation id True).Accounts tag ips past) :
    (Port.abandon id ips error).Leaves tag post
      (fun error later => (creation id True).Accounts tag [] later ∧ error.Plain) past := by
  have hremove := remove_leaves h trivial
  refine (hremove.mono (fun _ _ _ hr => hr.2 fun _ _ hc => hc) fun _ _ _ => False.elim).bind ?_
  intro _ later _ hlater
  refine ((giveBack_leaves hlater).mono (fun _ _ _ hg => hg) fun _ _ _ => False.elim).bind ?_
  exact fun _ _ _ hlast => leaves_throw ⟨hlast, hplain⟩

theorem initialIps_leaves {removes : Prop} (config : Config) (port : Port) (hid : port.id = id)
    (requests : Option (List FixedIpRequest)) (h : (creation id removes).Accounts tag [] past) :
    (Port.initialIps config port requests).Leaves tag ((creation id removes).Accounts tag)
      (fun error later => (creation id removes).Accounts tag [] later ∧ error.Plain) past := by
  subst hid
  unfold Port.initialIps
  split
  · exact leaves_pure h
  · exact forPort_leaves config port.network _ h

theorem fetchNetwork_leaves (id : NetworkId) (h : duty.Accounts tag ips past) :
    (Network.fetch id).Leaves tag (fun network later => network.id = id ∧ duty.Accounts tag ips later)
      (fun error later => duty.Accounts tag ips later ∧ error.Plain) past := by
  have hread : (Operation.readIpam fun ipam => ipam.networks.find? id).Leaves tag
      (fun found later => (∀ network ∈ found, network.id = id) ∧ duty.Accounts tag ips later)
      (fun error later => duty.Accounts tag ips later ∧ error.Plain) past :=
    leaves_readIpam_of _ _ (fun _ _ hf _ hn => hf.orderly.network hn) h
  refine hread.bind fun found later _ hlater => ?_
  cases found with
  | none => exact leaves_throw ⟨hlater.2, fun _ => nofun⟩
  | some network => exact leaves_pure ⟨hlater.1 network rfl, hlater.2⟩

theorem stage_leaves (config : Config) (port : Port) (hid : port.id = duty.port)
    (requests : Option (List FixedIpRequest)) (h : duty.Accounts tag [] past) :
    (Port.stage config port requests).Leaves tag (fun changes => duty.Accounts tag changes.added)
      (fun _ => duty.Accounts tag []) past := by
  cases requests with
  | none => exact leaves_pure h
  | some requests =>
    show (Port.stageIps config port requests).Leaves tag _ _ past
    refine leaves_guard (fun _ => h) fun _ => ?_
    refine (leaves_readIpam _ h).bind fun current later _ hlater => ?_
    refine leaves_bind_except (fun _ _ => hlater) fun ⟨kept, wanted⟩ _ => ?_
    dsimp only
    split
    · exact leaves_pure hlater
    · rw [hid]
      refine ((forPort_leaves config port.network wanted hlater).mono (fun _ _ _ ha => ha)
        fun _ _ _ hf => hf.1).bind fun added last _ hlast => ?_
      exact leaves_pure hlast

/-- An update that is saved is excused, since the port was found. -/
theorem save_leaves (network : Network) (update : PortUpdate)
    (h : (Duty.update id).Accounts tag ips past) :
    (Port.save setup.drivers id network update).Leaves tag
      (fun saved => (Duty.update id).Accounts tag (if saved.isSome then [] else ips))
      (fun _ => (Duty.update id).Accounts tag ips) past := by
  have hsave : (Operation.ports (Port.saveTx setup.drivers id network update)).Leaves tag
      (fun saved => (Duty.update id).Accounts tag (if saved.isSome then [] else ips))
      (fun _ => (Duty.update id).Accounts tag ips) past := by
    refine Operation.leaves_ports fun others before answer after refuser hothers hf hr hd => ?_
    have hm : (Call.ports (Port.saveTx setup.drivers id network update)).Made setup .quiet :=
      .savePort id network update trivial
    have hlater := h.quiet hothers hm hf ⟨refuser, hr⟩ hd
    cases answer with
    | error error => exact hlater
    | ok saved =>
      cases saved with
      | none => exact hlater
      | some saved =>
        have hstored : after.ports.ports.contains id = true := by
          have htx := (Port.saveTx_ensures setup.drivers id network update Port.alignHosts_ensures
            before.ports).and ((Port.saveTx_retains setup.drivers id network update).keeps before.ports)
          rcases State.runReviewed_ensures htx hr hd ⟨⟨rfl, hf.keyed⟩, rfl⟩ with
            ⟨_, he, _⟩ | ⟨_, _, he, _, ⟨_, hsaving⟩, _⟩ | ⟨_, _, _, ⟨⟨_, hsaving⟩, hkept⟩, hends⟩
          · cases he
          · cases he
            cases hsaving
          · refine hkept id ?_
            generalize after.ports = tables at hsaving
            cases hsaving with
            | gone => rcases hends with hc | ⟨_, _, hc⟩ <;> cases hc
            | saved hformer => exact Table.contains_iff.2 ⟨_, hformer⟩
        have hipam := (State.runReviewed_cases hr).1
        exact (h.append_others hothers).call
          (fun hl => absurd hl (hm.not_loses hf ⟨refuser, hr⟩ hd id))
          fun _ _ _ hexcuses => absurd hstored hexcuses
  refine hsave.bind fun saved later _ hlater => ?_
  cases saved with
  | none => exact leaves_pure hlater
  | some saved =>
    have hannounce : (saved.context.announce setup.drivers).All (Call.Made setup .quiet) :=
      saved.context.announce_made setup.drivers
    exact (leaves_lift (leaves_program hannounce hlater)).bind fun _ _ _ hlast => leaves_pure hlast

theorem update_leaves (update : PortUpdate) (h : (Duty.update id).Accounts tag [] past) :
    (Port.update setup id update).Leaves tag (fun _ => (Duty.update id).Accounts tag [])
      (fun _ => (Duty.update id).Accounts tag []) past := by
  refine leaves_bind_except (fun _ _ => h) fun _ _ => ?_
  have hfind : (Port.find id).Leaves tag
      (fun found later => (∀ port ∈ found, port.id = id) ∧ (Duty.update id).Accounts tag [] later)
      (fun _ => (Duty.update id).Accounts tag []) past :=
    leaves_readPorts _ _ (fun _ _ hf _ hp => hf.keyed.port hp) h
  refine hfind.bind fun found later _ hlater => ?_
  cases found with
  | none => exact leaves_throw hlater.2
  | some port =>
    refine leaves_bind_except (fun _ _ => hlater.2) fun _ _ => ?_
    refine ((fetchNetwork_leaves port.network hlater.2).mono (fun _ _ _ hn => hn.2)
      fun _ _ _ hf => hf.1).bind fun network fetched _ hfetched => ?_
    refine (stage_leaves setup.config port (hlater.1 port rfl) _ hfetched).bind
      fun changes staged _ hstaged => ?_
    refine ((save_leaves network update hstaged).orElse fun error undone _ hundone => ?_).bind
      fun saved kept _ hkept => ?_
    · refine ((giveBack_leaves hundone).mono (fun _ _ _ hg => hg) fun _ _ _ => False.elim).bind ?_
      exact fun _ _ _ hlast => leaves_throw hlast
    · cases saved with
      | none =>
        have hrelease := releasePort_leaves (Duty.update id) setup.config.ipam hkept.loses
        exact (hrelease.mono (fun _ _ _ hr => hr) fun _ _ _ => False.elim).bind fun _ _ _ hlast =>
          leaves_throw hlast
      | some saved =>
        have hrelease : (changes.removed.forM
            (Allocation.release setup.config.ipam.reclaimOnRelease)).Makes
              (Call.Made setup .quiet) :=
          makes_forM fun ip _ => Allocation.release_made ip (fun hr => hr) trivial
        refine (leaves_makes hrelease hkept).bind fun _ released _ hreleased => ?_
        refine ((bindWithin_leaves setup true _ _ _ hreleased).mono (fun _ _ _ hb => hb)
          fun _ _ _ hf => hf.1).bind fun context bound _ hbound => ?_
        exact (leaves_readIpam _ hbound).bind fun _ _ _ hlast => leaves_pure hlast

theorem delete_leaves (h : (deletion id).Accounts tag [] past) :
    (Port.delete setup id).Leaves tag (fun _ => (deletion id).Accounts tag [])
      (fun _ => (deletion id).Accounts tag []) past := by
  have hremove := remove_leaves h trivial
  refine (hremove.mono (fun _ _ _ hr => hr.1) fun _ _ _ => False.elim).bind
    fun removed later _ hremoved => ?_
  refine leaves_guard (fun hfalse => hremoved ?_) fun _ => ?_
  · simpa using hfalse
  · refine ((releasePort_leaves (deletion id) setup.config.ipam fun _ _ _ _ => trivial).mono
      (fun _ _ _ hr => hr) fun _ _ _ => False.elim).bind fun _ last _ hlast => ?_
    have hnotify : (Operation.ask (.notify (.deleted id))).Makes (Call.Made setup .quiet) :=
      makes_ask (.notify (.deleted id))
    exact leaves_makes hnotify hlast

/-- If hardware addresses ran out for a new port, all that were drawn for it were used on its
network. -/
def Spent (config : Config) (request : PortRequest) (tag : Nat) (error : Error)
    (moves : List Move) : Prop :=
  ∀ network, error = .macsExhausted network → request.mac = none ∧ network = request.network ∧
    ∃ base port binding before after, config.base = .ok base ∧
      .call tag (.ports (Port.insertTx config port binding none)) before
        (.error (.macsExhausted network)) after ∈ moves ∧
      Port.Exhausted before.ports before.supply base network config.macRetries

/-- A port was created, and its command has not removed it. -/
def Delivered (tag : Nat) (moves : List Move) : Prop :=
  ∃ id ips, Drew moves tag id ∧
    (∃ state, Passed moves tag state ∧ state.ports.ports.contains id = true) ∧
    (creation id False).Accounts tag ips moves

/-- Who could not create a port owes none of its addresses. -/
structure Withdrawn (config : Config) (request : PortRequest) (tag : Nat) (error : Error)
    (moves : List Move) : Prop where
  clean : (∀ id, (creation id True).Accounts tag [] moves) ∨
    ∃ id, Drew moves tag id ∧ (creation id True).Accounts tag [] moves
  spent : Spent config request tag error moves

theorem insert_leaves {request : PortRequest} {port : Port} {binding : Binding}
    (hnetwork : port.network = request.network) (hport : binding.port = port.id)
    (h : ∀ id, (creation id False).Accounts tag [] past) :
    (Port.insert setup.config port binding request.mac).Leaves tag
      (fun new later => new.id = port.id ∧ (∀ id, (creation id False).Accounts tag [] later) ∧
        ∃ state, Passed later tag state ∧ state.ports.ports.contains port.id = true)
      (Withdrawn setup.config request tag) past := by
  refine Operation.leaves_ports fun others before answer after refuser hothers hf hr hd => ?_
  have hm : (Call.ports (Port.insertTx setup.config port binding request.mac)).Made setup .quiet :=
    .insertPort port binding request.mac trivial
  have hlater (id : PortId) := (h id).quiet hothers hm hf ⟨refuser, hr⟩ hd
  have htx := Port.insertTx_ensures setup.config port binding request.mac before.ports before.supply
  rcases State.runReviewed_ensures htx hr hd ⟨rfl, rfl⟩ with
    ⟨error, rfl, _, hfails | ⟨_, _, _, _, ⟨_, hc, _⟩, _⟩⟩ | ⟨_, _, _, _, _, hc, _⟩ |
    ⟨new, _, rfl, ⟨stored, rfl, ⟨mac, hnew, _⟩, hsave⟩, hends⟩
  · refine ⟨.inl fun id => (hlater id).removing, fun network herror => ?_⟩
    subst herror
    obtain ⟨hmac, hsame, base, hbase, hexhausted⟩ :=
      (hfails.resolve_right fun hne => hne hport).of_exhausted
    rw [hnetwork] at hsame hexhausted
    subst hsame
    rw [hmac]
    refine ⟨rfl, rfl, base, port, binding, before, after, hbase, ?_, hexhausted⟩
    exact List.mem_append_right _ (List.mem_singleton_self _)
  · cases hc
  · cases hc
  · obtain rfl : stored = new := by
      rcases hends with hc | ⟨_, _, hc⟩ <;> cases hc
      rfl
    refine ⟨by rw [hnew], hlater, after, passed_snoc, ?_⟩
    rw [← hport]
    refine Ports.contains_saveBinding hsave (Table.contains_iff.2 ⟨stored, ?_⟩)
    simp only [Ports.savePort, Table.find?_insert, hport, hnew, if_true]

namespace Withdrawn

variable {config : Config} {request : PortRequest}

theorem of_start (h : ∀ id, (creation id False).Accounts tag [] past) (hplain : error.Plain) :
    Withdrawn config request tag error past :=
  ⟨.inl fun id => (h id).removing, fun network herror => absurd herror (hplain network)⟩

theorem of_drew (hdrew : Drew past tag id) (h : (creation id True).Accounts tag [] past)
    (hplain : error.Plain) : Withdrawn config request tag error past :=
  ⟨.inr ⟨id, hdrew, h⟩, fun network herror => absurd herror (hplain network)⟩

end Withdrawn

theorem time_leaves (h : duty.Accounts tag ips past) :
    (Operation.ask .time).Leaves tag (fun _ => duty.Accounts tag ips) (fun _ _ => False) past := by
  have hmade : (Program.call Call.time .done).All (Call.Made {} .quiet) := ⟨.time, fun _ => trivial⟩
  exact leaves_lift (leaves_program hmade h)

theorem drawPort_leaves (h : duty.Accounts tag ips past) :
    (Operation.ask (.ident .port)).Leaves tag
      (fun id later => Drew later tag id ∧ duty.Accounts tag ips later) (fun _ _ => False) past := by
  refine leaves_lift fun others before id after hothers hf hr hd => ⟨?_, ?_⟩
  · exact ⟨_, List.mem_append_right _ (List.mem_singleton_self _), rfl, rfl⟩
  · have hm : (Call.ident .port).Made {} .quiet := .ident .port fun _ => trivial
    exact h.quiet hothers hm hf hr hd

theorem create_leaves (request : PortRequest) (h : ∀ id, (creation id False).Accounts tag [] past) :
    (Port.create setup request).Leaves tag (fun _ => Delivered tag)
      (Withdrawn setup.config request tag) past := by
  refine leaves_bind_except (fun _ hf => .of_start h (Error.ofFaults_plain hf)) fun _ _ => ?_
  refine ((Leaves.forall fun id => fetchNetwork_leaves request.network (h id)).mono
    (fun _ _ _ hn => hn) fun _ _ _ hf => .of_start (fun id => (hf id).1) (hf ⟨0⟩).2).bind
    fun network fetched _ hfetched => ?_
  refine ((Leaves.forall fun id => time_leaves (hfetched id).2).mono (fun _ _ _ ht => ht)
    fun _ _ _ hf => (hf ⟨0⟩).elim).bind fun now timed _ htimed => ?_
  refine ((Leaves.forall fun id => drawPort_leaves (htimed id)).mono (fun _ _ _ hi => hi)
    fun _ _ _ hf => (hf ⟨0⟩).elim).bind fun id drawn _ hdrawn => ?_
  refine leaves_bind_except
    (fun _ hb => .of_start (fun id => (hdrawn id).2) (Port.initialBinding_isInput hb).plain)
    fun binding hb => ?_
  refine (insert_leaves (hfetched id).1 (Port.initialBinding_unbound hb).1 fun id =>
    (hdrawn id).2).bind fun port stored hstored ⟨hid, hnone, state, hsaw, hcontains⟩ => ?_
  have hdrew := (hdrawn id).1.mono hstored
  have habandon {α : Type} {later : List Move} {ips : List AllocatedIp} {error : Error}
      {post : α → List Move → Prop} (hlater : stored <+: later)
      (hf : (creation id False).Accounts tag ips later ∧ error.Plain) :
      (Port.abandon port.id ips error).Leaves tag post (Withdrawn setup.config request tag) later := by
    rw [hid]
    refine (abandon_leaves hf.2 hf.1.removing).mono (fun _ _ _ hp => hp) fun _ last hlast hgone => ?_
    exact .of_drew (hdrew.mono (hlater.trans hlast)) hgone.1 hgone.2
  have hips := (initialIps_leaves setup.config port hid request.fixedIps (hnone id)).orElse
    fun error later hlater hf => habandon hlater ⟨hf.1, hf.2⟩
  refine hips.bind fun ips allocated hallocated hips => ?_
  have hbind := (bindWithin_leaves setup false setup.config.binding.maxBindTries
    { port, network, binding } false hips).orElse
      fun error later hlater hf => habandon (hallocated.trans hlater) hf
  refine hbind.bind fun context bound hbound hips => leaves_pure ?_
  have hbound := hallocated.trans hbound
  exact ⟨id, ips, hdrew.mono hbound, ⟨state, hsaw.mono hbound, hcontains⟩, hips⟩

theorem Spent.append {config : Config} {request : PortRequest}
    (h : Spent config request tag error past) : Spent config request tag error (past ++ others) := by
  intro network herror
  obtain ⟨hmac, hnetwork, base, port, binding, before, after, hbase, hmove, hexhausted⟩ :=
    h network herror
  exact ⟨hmac, hnetwork, base, port, binding, before, after, hbase, List.mem_append_left _ hmove,
    hexhausted⟩

/-- What commands leave that work for a port. -/
def leaving : Scene.Leaving
  | _, .createPort _, tag, .ok _, moves => Delivered tag moves
  | setup, .createPort request, tag, .error error, moves =>
    Withdrawn setup.config request tag error moves
  | _, .updatePort id _, tag, _, moves => (Duty.update id).Accounts tag [] moves
  | _, .deletePort id, tag, _, moves => (deletion id).Accounts tag [] moves
  | _, _, _, _, _ => True

theorem leaving_append {command : Command} {answer : Except Error Reply}
    (h : leaving setup command tag answer past)
    (hothers : ∀ move ∈ others, move.tag = tag → move.after? = none) :
    leaving setup command tag answer (past ++ others) := by
  have hfront := List.prefix_append past others
  cases command with
  | createPort request =>
    cases answer with
    | ok reply =>
      obtain ⟨id, ips, hdrew, ⟨state, hsaw, hcontains⟩, h⟩ := h
      exact ⟨id, ips, hdrew.mono hfront, ⟨state, hsaw.mono hfront, hcontains⟩, h.append hothers⟩
    | error error =>
      refine ⟨?_, h.spent.append⟩
      rcases h.clean with h | ⟨id, hdrew, h⟩
      · exact .inl fun id => (h id).append hothers
      · exact .inr ⟨id, hdrew.mono hfront, h.append hothers⟩
  | updatePort id update => exact Accounts.append h hothers
  | deletePort id => exact Accounts.append h hothers
  | _ => trivial

theorem leaves_reply {operation : Operation α} {f : α → Reply} {post : List Move → Prop}
    {fails : Error → List Move → Prop} {leaves : Except Error Reply → List Move → Prop}
    (h : operation.Leaves tag (fun _ => post) fails past)
    (hok : ∀ reply later, post later → leaves (.ok reply) later)
    (herror : ∀ error later, fails error later → leaves (.error error) later) :
    (operation >>= fun a => pure (f a) : Operation Reply).run.Leaves tag leaves past := by
  refine Program.Leaves.bind h fun result later _ hr => ?_
  cases result with
  | ok a => exact hok (f a) later hr
  | error error => exact herror error later hr

theorem leaving_holds {allowed : Setup → Command → Prop} : Scene.Leaving.Holds leaving allowed := by
  intro setup command tag past _ _ hown
  cases command with
  | createPort request =>
    exact leaves_reply (create_leaves request fun _ => accounts_of_start hown) (fun _ _ h => h)
      fun _ _ h => h
  | updatePort id update =>
    exact leaves_reply (update_leaves update (accounts_of_start hown)) (fun _ _ h => h)
      fun _ _ h => h
  | deletePort id =>
    exact leaves_reply (delete_leaves (accounts_of_start hown)) (fun _ _ h => h) fun _ _ h => h
  | _ => exact Program.leaves_true _

end Duty

end ControlPlane
