import ControlPlane.Proofs.Duties.Addresses

/-! What operations on ports leave a command charged with. Whoever creates or updates a port gives
its addresses back when it gives up, and whoever deletes one releases what the port has by then. -/

namespace ControlPlane

open Operation

variable {setup : Setup} {duty : Duty} {past later others : List Move} {tag : Nat}
  {ips : List AllocatedIp} {id : PortId} {α : Type}

namespace Duty

theorem leaves_makes {operation : Operation α} (ho : operation.Makes (Call.Made setup .quiet))
    (h : duty.Accounts tag ips past) : operation.Leaves tag (fun _ => duty.Accounts tag ips)
      (fun _ => duty.Accounts tag ips) past :=
  ho.leaves h fun hm _ _ _ _ _ hpast hothers hf hr hd => hpast.quiet hothers hm hf hr hd

/-- A commit fails only if a driver refuses it. -/
theorem commit_leaves {asked : Binding} (candidate : PortContext) (hhost : asked.hasHost = true)
    (h : duty.Accounts tag ips past) :
    (Binding.commit setup.drivers id asked candidate).Leaves tag (fun _ => duty.Accounts tag ips)
      (fun error later => duty.Accounts tag ips later ∧ error.Plain) past := by
  have hcommit : (Operation.ports (Binding.commitTx setup.drivers id asked candidate)).Leaves tag
      (fun _ => duty.Accounts tag ips)
      (fun error later => duty.Accounts tag ips later ∧ error.Plain) past := by
    refine leaves_ports (.commit id asked candidate trivial) ?_ h
    intro before error after refuser hkeyed hr hd
    have htx := Binding.commitTx_ensures setup.drivers id asked candidate before.ports
    rcases State.runReviewed_ensures htx hr hd rfl with
      ⟨_, he, _, hunsaved | ⟨_, _, _, _, _, _, _, _, rfl⟩⟩ | ⟨_, _, he, _⟩ | ⟨_, _, he, _⟩
    · exact absurd hunsaved (hkeyed.not_unsaved hhost)
    · cases he
      exact fun _ => nofun
    · cases he
    · cases he
  refine hcommit.bind fun outcome later _ hlater => ?_
  cases outcome with
  | committed context =>
    have hannounce : (context.announce setup.drivers).All (Call.Made setup .quiet) :=
      context.announce_made setup.drivers
    exact (leaves_lift (leaves_program hannounce hlater)).bind fun _ _ _ hlast => leaves_pure hlast
  | _ => exact leaves_pure hlater

theorem bindWithin_leaves (setup : Setup) (mayTell : Bool) (tries : Nat)
    (context : PortContext) (news : Bool) (h : duty.Accounts tag ips past) :
    (context.bindWithin setup.drivers mayTell tries news).Leaves tag
      (fun _ => duty.Accounts tag ips)
      (fun error later => duty.Accounts tag ips later ∧ error.Plain) past := by
  have hfinish {past : List Move} (context : PortContext) (tell : Bool)
      (h : duty.Accounts tag ips past) : (context.finish tell).Leaves tag
        (fun _ => duty.Accounts tag ips)
        (fun error later => duty.Accounts tag ips later ∧ error.Plain) past := by
    have hnotify : (Program.call (.notify (.updated context)) .done).All (Call.Made setup .quiet) :=
      ⟨.notify (.updated context), fun _ => trivial⟩
    unfold PortContext.finish
    split
    · exact (leaves_lift (leaves_program hnotify h)).bind fun _ _ _ hlater => leaves_pure hlater
    · exact leaves_pure h
  induction tries generalizing context news past with
  | zero =>
    unfold PortContext.bindWithin
    split
    · exact leaves_pure h
    · exact hfinish context _ h
  | succ tries ih =>
    unfold PortContext.bindWithin
    split
    · rename_i hpending
      have hhost := (Bool.and_eq_true_iff.1 hpending).2
      have hnegotiate : (context.negotiate setup.drivers).All (Call.Made setup .quiet) :=
        PortContext.tryDrivers_makes (fun _ hd context => .bind context hd) context.candidate
      refine (leaves_lift (leaves_program hnegotiate h)).bind fun candidate later _ hlater => ?_
      refine (commit_leaves candidate hhost hlater).bind fun outcome last _ hlast => ?_
      cases outcome with
      | committed committed => exact ih committed _ hlast
      | retry live => exact ih live _ hlast
      | gone => exact leaves_pure hlast
    · exact hfinish context _ h

theorem not_gives_of_ipam {c : Call α} {before after : State} {answer : α}
    (h : after.ipam = before.ipam) (ip : AllocatedIp) (port : PortId) :
    ¬ (Move.call tag c before answer after).Gives ip port := by
  rintro ⟨hnone, hsome⟩
  rw [h, hnone] at hsome
  cases hsome

/-- Removing a port never fails, and changes nothing if the port is not there. -/
theorem remove_leaves (h : duty.Accounts tag ips past) (hremoves : duty.removes) :
    (Port.remove duty.port).Leaves tag
      (fun removed later => (removed = false → duty.Accounts tag ips later) ∧
        ((∀ ip move, duty.charges ip move → move.Gives ip duty.port) → duty.Accounts tag ips later))
      (fun _ _ => False) past := by
  refine Operation.leaves_ports fun others before answer after refuser hothers hf hr hd => ?_
  have hipam := (State.runReviewed_cases hr).1
  have hgiven (hg : ∀ ip move, duty.charges ip move → move.Gives ip duty.port) :
      duty.Accounts tag ips (past ++ others ++
        [.call tag (.ports (Port.removeTx duty.port)) before answer after]) := by
    refine (h.append_others hothers).call (fun _ => hremoves) fun ip hcases _ _ => ?_
    rcases hcases with hcharges | hip
    · exact absurd (hg ip _ hcharges) (not_gives_of_ipam hipam ip _)
    · exact hip
  have htx := Port.removeTx_erases duty.port before.ports
  rcases State.runReviewed_ensures htx hr hd rfl with
    ⟨_, rfl, _, hfalse | ⟨_, _, _, _, hclosing, _⟩⟩ | ⟨removed, _, rfl, hports, _⟩ |
    ⟨removed, closing, rfl, hclosing, hends⟩
  · exact hfalse.elim
  · rcases hclosing with ⟨hc, _⟩ | ⟨hc, _⟩ <;> cases hc
  · refine ⟨fun _ => ?_, hgiven⟩
    exact h.gain hothers hports (.of_eq (congrArg Ipam.allocations hipam))
  · refine ⟨fun hfalse => ?_, hgiven⟩
    subst hfalse
    rcases hclosing with ⟨rfl, _⟩ | ⟨rfl, _⟩ <;> rcases hends with hc | ⟨_, _, hc⟩ <;> cases hc

end Duty

end ControlPlane
