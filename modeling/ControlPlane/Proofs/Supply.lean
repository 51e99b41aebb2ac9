import ControlPlane.Proofs.Runs
import ControlPlane.Proofs.Transaction

/-! The supply over a run. Every call only moves it on, so that identifiers which are all different
at the end of a run are so at each of its moves. -/

namespace ControlPlane

/-- A transaction that never turns the supply back. -/
def Tx.Advances {T α : Type} (tx : Tx T α) : Prop :=
  tx.Ensures (fun _ _ => True) (fun _ _ _ => True) fun _ => True

theorem Tx.Ensures.advances {T α : Type} {tx : Tx T α} {pre : T → Supply → Prop}
    {post : α → T → Supply → Prop} {fails : Error → Prop} (h : tx.Ensures pre post fails) :
    tx.Advances := by
  intro tables supply
  refine ⟨(h tables supply).1, fun _ _ => ?_⟩
  split <;> trivial

/-- A contract may use what its precondition says of neither tables nor supply. -/
theorem Tx.Ensures.of_fact {T α : Type} {tx : Tx T α} {pre : T → Supply → Prop}
    {post : α → T → Supply → Prop} {fails : Error → Prop} {P : Prop} (hadvances : tx.Advances)
    (hpre : ∀ tables supply, pre tables supply → P) (h : P → tx.Ensures pre post fails) :
    tx.Ensures pre post fails :=
  fun tables supply =>
    ⟨(hadvances tables supply).1, fun hd hp => (h (hpre _ _ hp) tables supply).2 hd hp⟩

/-- A contract may name the supply that a transaction starts from. -/
theorem Tx.Ensures.of_supply {T α : Type} {tx : Tx T α} {pre : T → Supply → Prop}
    {post : α → T → Supply → Prop} {fails : Error → Prop}
    (h : ∀ first, tx.Ensures (fun tables supply => pre tables supply ∧ supply = first) post fails) :
    tx.Ensures pre post fails :=
  fun tables supply =>
    ⟨(h supply tables supply).1, fun hd hp => (h supply tables supply).2 hd ⟨hp, rfl⟩⟩

theorem verdict_eq_error {refuser : Option (String × Error)} {drivers : List String} {error : Error}
    (h : verdict refuser drivers = .error error) :
    ∃ driver ∈ drivers, ∃ cause, error = Environment.refusal driver cause := by
  unfold verdict at h
  split at h
  · cases h
  · rename_i driver cause
    split at h
    · rename_i hmem
      cases h
      exact ⟨driver, by simpa using hmem, cause, rfl⟩
    · cases h

namespace State

variable {α : Type} {state after : State} {answer : Except Error α}

theorem runIpam_cases {tx : Tx Ipam (Ending α)} (h : (answer, after) = state.runIpam tx) :
    after.ports = state.ports ∧
    after.supply = (tx.attempt state.ipam state.supply).2 ∧
    ((∃ error, answer = .error error ∧ after.ipam = state.ipam ∧
      (tx.attempt state.ipam state.supply).1 = .error error) ∨
    (∃ a tables, answer = .ok a ∧ after.ipam = state.ipam ∧
      (tx.attempt state.ipam state.supply).1 = .ok (.rollback a, tables)) ∨
    ∃ a, answer = .ok a ∧
      (tx.attempt state.ipam state.supply).1 = .ok (.commit a, after.ipam)) := by
  unfold runIpam at h
  rcases hattempt : tx.attempt state.ipam state.supply with ⟨error | ⟨ending, tables⟩, supply⟩
  · rw [hattempt] at h
    cases h
    exact ⟨rfl, rfl, .inl ⟨_, rfl, rfl, rfl⟩⟩
  · rw [hattempt] at h
    cases ending with
    | rollback a =>
      cases h
      exact ⟨rfl, rfl, .inr (.inl ⟨_, _, rfl, rfl, rfl⟩)⟩
    | commit a =>
      cases h
      exact ⟨rfl, rfl, .inr (.inr ⟨_, rfl, rfl⟩)⟩

theorem runReviewed_cases {tx : Tx Ports (Closing α)} {refuser : Option (String × Error)}
    (h : (answer, after) = state.runReviewed refuser tx) :
    after.ipam = state.ipam ∧
    after.supply = (tx.attempt state.ports state.supply).2 ∧
    ((∃ error, answer = .error error ∧ after.ports = state.ports ∧
      ((tx.attempt state.ports state.supply).1 = .error error ∨
      ∃ drivers context a tables, verdict refuser drivers = .error error ∧
        (tx.attempt state.ports state.supply).1 = .ok (.review drivers context a, tables))) ∨
    (∃ a tables, answer = .ok a ∧ after.ports = state.ports ∧
      (tx.attempt state.ports state.supply).1 = .ok (.rollback a, tables)) ∨
    ∃ a ending, answer = .ok a ∧
      (tx.attempt state.ports state.supply).1 = .ok (ending, after.ports) ∧
      (ending = .commit a ∨ ∃ drivers context, ending = .review drivers context a)) := by
  unfold runReviewed runPorts at h
  rcases hattempt : tx.attempt state.ports state.supply with ⟨error | ⟨ending, tables⟩, supply⟩
  · rw [hattempt] at h
    cases h
    exact ⟨rfl, rfl, .inl ⟨_, rfl, rfl, .inl rfl⟩⟩
  · rw [hattempt] at h
    cases ending with
    | rollback a =>
      cases h
      exact ⟨rfl, rfl, .inr (.inl ⟨_, _, rfl, rfl, rfl⟩)⟩
    | commit a =>
      cases h
      exact ⟨rfl, rfl, .inr (.inr ⟨_, _, rfl, rfl, .inl rfl⟩)⟩
    | review drivers context a =>
      cases hv : verdict refuser drivers with
      | error error =>
        simp only [hv] at h
        cases h
        exact ⟨rfl, rfl, .inl ⟨_, rfl, rfl, .inr ⟨_, _, _, _, hv, rfl⟩⟩⟩
      | ok u =>
        simp only [hv] at h
        cases h
        exact ⟨rfl, rfl, .inr (.inr ⟨_, _, rfl, rfl, .inr ⟨_, _, rfl⟩⟩)⟩

theorem runIpam_extends {tx : Tx Ipam (Ending α)} (h : tx.Advances)
    (hr : (answer, after) = state.runIpam tx) : after.supply.Extends state.supply := by
  rw [(runIpam_cases hr).2.1]
  exact (h state.ipam state.supply).1

theorem runReviewed_extends {tx : Tx Ports (Closing α)} {refuser : Option (String × Error)}
    (h : tx.Advances) (hr : (answer, after) = state.runReviewed refuser tx) :
    after.supply.Extends state.supply := by
  rw [(runReviewed_cases hr).2.1]
  exact (h state.ports state.supply).1

variable {pre : Ipam → Supply → Prop} {fails : Error → Prop}

/-- What a contract says of a transaction of the address store that is run. -/
theorem runIpam_ensures {tx : Tx Ipam (Ending α)} {post : Ending α → Ipam → Supply → Prop}
    (h : tx.Ensures pre post fails) (hr : (answer, after) = state.runIpam tx)
    (hd : after.supply.Distinct) (hp : pre state.ipam state.supply) :
    (∃ error, answer = .error error ∧ after.ipam = state.ipam ∧ fails error) ∨
    (∃ a tables, answer = .ok a ∧ after.ipam = state.ipam ∧
      post (.rollback a) tables after.supply) ∨
    ∃ a, answer = .ok a ∧ post (.commit a) after.ipam after.supply := by
  obtain ⟨_, hs, hcases⟩ := runIpam_cases hr
  have hpost := (h state.ipam state.supply).2 (hs ▸ hd) hp
  rw [← hs] at hpost
  rcases hcases with ⟨error, ha, hipam, he⟩ | ⟨a, tables, ha, hipam, he⟩ | ⟨a, ha, he⟩
  · rw [he] at hpost
    exact .inl ⟨error, ha, hipam, hpost⟩
  · rw [he] at hpost
    exact .inr (.inl ⟨a, tables, ha, hipam, hpost⟩)
  · rw [he] at hpost
    exact .inr (.inr ⟨a, ha, hpost⟩)

/-- What holds before a transaction, and of all that it may leave, holds after it. -/
theorem runIpam_keeps {tx : Tx Ipam (Ending α)} {inv : Ipam → Supply → Prop}
    (h : tx.Ensures pre (fun _ => inv) fails) (hr : (answer, after) = state.runIpam tx)
    (hd : after.supply.Distinct) (hp : pre state.ipam state.supply)
    (hkept : inv state.ipam after.supply) : inv after.ipam after.supply := by
  rcases runIpam_ensures h hr hd hp with ⟨_, _, hipam, _⟩ | ⟨_, _, _, hipam, _⟩ | ⟨_, _, hpost⟩
  · rw [hipam]
    exact hkept
  · rw [hipam]
    exact hkept
  · exact hpost

/-- What a contract says of a transaction of the port store that is run. It fails by itself, or a
driver refuses what it would have left. -/
theorem runReviewed_ensures {tx : Tx Ports (Closing α)} {refuser : Option (String × Error)}
    {pre : Ports → Supply → Prop} {post : Closing α → Ports → Supply → Prop}
    (h : tx.Ensures pre post fails) (hr : (answer, after) = state.runReviewed refuser tx)
    (hd : after.supply.Distinct) (hp : pre state.ports state.supply) :
    (∃ error, answer = .error error ∧ after.ports = state.ports ∧ (fails error ∨
      ∃ drivers context a tables, post (.review drivers context a) tables after.supply ∧
        ∃ driver ∈ drivers, ∃ cause, error = Environment.refusal driver cause)) ∨
    (∃ a tables, answer = .ok a ∧ after.ports = state.ports ∧
      post (.rollback a) tables after.supply) ∨
    ∃ a closing, answer = .ok a ∧ post closing after.ports after.supply ∧
      (closing = .commit a ∨ ∃ drivers context, closing = .review drivers context a) := by
  obtain ⟨_, hs, hcases⟩ := runReviewed_cases hr
  have hpost := (h state.ports state.supply).2 (hs ▸ hd) hp
  rw [← hs] at hpost
  rcases hcases with ⟨error, ha, hports, he | ⟨drivers, context, a, tables, hv, he⟩⟩ |
    ⟨a, tables, ha, hports, he⟩ | ⟨a, closing, ha, he, hc⟩
  · rw [he] at hpost
    exact .inl ⟨error, ha, hports, .inl hpost⟩
  · rw [he] at hpost
    exact .inl ⟨error, ha, hports, .inr ⟨drivers, context, a, tables, hpost, verdict_eq_error hv⟩⟩
  · rw [he] at hpost
    exact .inr (.inl ⟨a, tables, ha, hports, hpost⟩)
  · rw [he] at hpost
    exact .inr (.inr ⟨a, closing, ha, hpost, hc⟩)

end State

end ControlPlane
