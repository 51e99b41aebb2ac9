import ControlPlane.Proofs.Failures

/-! Failures of the port store's transactions. A port that is stored has its rows, and rows can be
saved whose port is stored, so that hardly anything is refused while the store is in order. -/

namespace ControlPlane

variable {store : Ports} {id : PortId} {primary row : Binding} {host : String} {error : Error}

namespace Ports

theorem Shaped.host_named (hs : store.Shaped) (hrow : store.row? (.host id host) = some row) :
    host ≠ "" := by
  have hshaped := hs id
  have hhost : (store.entry id).hosts host = some row := hrow
  generalize store.entry id = entry at hshaped hhost
  cases hshaped with
  | absent => cases hhost
  | present _ rows => exact (rows.onHost hhost).named

theorem Keyed.not_misaligned (hk : store.Keyed) (hs : store.Shaped) :
    ¬ Port.Misaligned store primary error := by
  rintro ⟨row, tables, hmem, hc, hsave⟩
  obtain ⟨host, hrow⟩ := mem_hostBindingsOf.1 hmem
  obtain ⟨hport, hhost⟩ := hk.host_row hrow
  have hnamed : (row.follow primary).hasHost = true := by
    show row.host.any (fun host => host ≠ "") = true
    rw [hhost]
    simpa using hs.host_named hrow
  have hcontains : tables.ports.contains (row.follow primary).port = true := by
    show tables.ports.contains row.port = true
    rwa [hport]
  obtain ⟨last, hlast⟩ := exists_saveHostBinding hcontains hnamed
  rw [hlast] at hsave
  cases hsave

theorem Keyed.not_unsavable {update : PortUpdate} (hk : store.Keyed) (hs : store.Shaped) :
    ¬ Port.Unsaved store.Aligns (Port.Misaligned store) store id update error := by
  intro h
  cases h with
  | bare hformer hnone =>
    obtain ⟨primary, hprimary⟩ := hs.exists_primary hformer
    rw [hnone] at hprimary
    cases hprimary
  | misaligned _ h => exact hk.not_misaligned hs h
  | @refused former port primary aligned tables hformer hprimary haligned hport hsave =>
    have hrow : store.row? (.primary id) = some primary := hprimary
    have hown : (update.applyToBinding primary).port = id :=
      (update.applyToBinding_port primary).trans (hk.row hrow).1
    have hports : aligned.ports = store.ports := by
      cases haligned with
      | kept => rfl
      | aligned _ ha =>
        obtain ⟨hosts, hwith, _⟩ := ha
        exact hwith.ports_eq rfl
    have hc : aligned.ports.contains id = true := by
      rw [hports, Table.contains_iff]
      exact ⟨former, hformer⟩
    have hcontains : tables.ports.contains id = true := by
      cases hport with
      | same => exact hc
      | stored => exact contains_savePort hc
    obtain ⟨last, hlast⟩ := exists_saveBinding (hown ▸ hcontains)
    rw [hlast] at hsave
    cases hsave

end Ports

namespace Port

theorem saveTx_succeeds (drivers : List String) (id : PortId) (network : Network)
    (update : PortUpdate) (hk : store.Keyed) (hs : store.Shaped) :
    (saveTx drivers id network update).Ensures (fun tables _ => tables = store)
      (fun _ _ _ => True) fun _ => False := by
  apply (saveTx_ensures drivers id network update alignHosts_aligns store).weaken
  · exact fun _ _ _ h => ⟨h, hk⟩
  · exact fun _ _ _ _ _ => trivial
  · exact fun _ h => hk.not_unsavable hs h

theorem hostBinding_succeeds (id : PortId) (hnamed : host ≠ "") (hk : store.Keyed) :
    (hostBinding id host).Ensures (fun tables _ => tables = store) (fun _ _ _ => True)
      fun _ => False := by
  refine Tx.ensures_get_bind fun seen => ?_
  split
  · rename_i port primary hport hprimary
    have hsave (row : Binding) (hrow : seen.Keyed → row.port = id ∧ row.host = some host) :
        (Tx.change fun store : Ports => store.saveHostBinding row).Ensures
          (fun tables _ => tables = seen ∧ tables = store) (fun _ _ _ => True) fun _ => False := by
      refine Tx.ensures_change ?_
      rintro tables _ ⟨rfl, rfl⟩
      obtain ⟨hid, hhost⟩ := hrow hk
      have hc : tables.ports.contains row.port = true := by
        rw [hid, Table.contains_iff]
        exact ⟨port, hport⟩
      have hnamed : row.hasHost = true := by simpa [Binding.hasHost, hhost] using hnamed
      obtain ⟨last, hlast⟩ := Ports.exists_saveHostBinding hc hnamed
      rw [hlast]
      trivial
    split
    · extract_lets binding
      exact (hsave binding fun _ => ⟨rfl, rfl⟩).bind fun _ => Tx.ensures_pure fun _ _ _ => trivial
    · rename_i binding hrow
      split
      · exact Tx.ensures_pure fun _ _ _ => trivial
      · have hown : seen.Keyed → binding.port = id ∧ binding.host = some host :=
          fun hk => hk.host_row hrow
        exact (hsave (binding.follow primary) hown).bind fun _ =>
          Tx.ensures_pure fun _ _ _ => trivial
  · exact Tx.ensures_pure fun _ _ _ => trivial

theorem insertTx_due {named : List Ip.Address} (config : Config) {port : Port} {binding : Binding}
    (mac : Option String) (hport : binding.port = port.id) :
    (insertTx config port binding mac).Ensures (fun tables _ => tables = store)
      (fun _ _ _ => True) (Error.Due named) := by
  apply Tx.Ensures.of_supply
  intro first
  apply (insertTx_ensures config port binding mac store first).weaken
  · exact fun _ _ _ h => h
  · exact fun _ _ _ _ _ => trivial
  · rintro _ (h | hne)
    · exact h.due
    · exact absurd hport hne

end Port

end ControlPlane
