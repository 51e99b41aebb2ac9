import ControlPlane.Proofs.Ports.Shape

/-! Every transaction keeps the shape of the port store if the port is distributed, or not, as its
caller found before. -/

namespace ControlPlane

variable {new : PortId → Prop} {store tables : Ports} {id : PortId} {entry : Entry}
  {port former : Port} {primary row live asked : Binding} {update : PortUpdate} {host : String}
  {hosts hosts' : String → Option Binding} {candidate : PortContext}

namespace Binding

variable {changed : Binding} {last : Ports}

theorem Storing.with (h : Storing primary changed tables row last) {port : Option Port}
    (hwith : store.With id ⟨port, some primary, hosts⟩ tables) (hport : changed.port = id) :
    store.With id ⟨port, some row, hosts⟩ last := by
  cases h with
  | same => exact hwith
  | stored hi hsave => exact hwith.saveBinding hport hsave

theorem Storing.formed (h : Storing primary (update.applyToBinding primary) tables row last)
    (hcheck : update.checkOwner port = .ok ()) (hrows : port.Rows primary hosts) :
    row.port = port.id ∧ row.Formed port.isDistributed := by
  cases h with
  | same => exact ⟨hrows.own, hrows.formed⟩
  | stored hi =>
    exact ⟨(update.applyToBinding_port primary).trans hrows.own,
      PortUpdate.applyToBinding_formed hcheck hrows.formed hi⟩

end Binding

namespace Port

/-- A row on a host that cannot be brought in line. -/
def Misaligned (store : Ports) (primary : Binding) (error : Error) : Prop :=
  ∃ (row : Binding) (tables : Ports), row ∈ store.hostBindingsOf primary.port ∧
    tables.ports.contains primary.port = true ∧
    tables.saveHostBinding (row.follow primary) = .error error

theorem alignHosts_aligns (store : Ports) (primary : Binding) :
    (alignHosts primary).Ensures (fun tables _ => tables = store ∧ store.Keyed)
      (fun _ tables _ => store.Aligns primary tables) (Misaligned store primary) := by
  let id := primary.port
  refine Tx.ensures_from Ports.Keyed (fun seen _ tables _ => seen.Aligns primary tables)
    (fun seen => Misaligned seen primary) (fun seen => ?_) store
  -- The loop goes over the rows as they were seen first, and changes no row twice.
  let aligned (front : List Binding) (tables : Ports) (_ : Supply) : Prop :=
    seen.Keyed ∧ ∃ hosts, seen.With id { seen.entry id with hosts } tables ∧
      ∀ host, Aligned primary (· ∈ front) ((seen.entry id).hosts host) (hosts host)
  refine ((Tx.ensures_forM aligned ?_).of_pre ?_).to_post ?_
  · intro front binding rest hitems
    have hmem : binding ∈ seen.hostBindingsOf primary.port := by simp [hitems]
    obtain ⟨host, hb⟩ := Ports.mem_hostBindingsOf.1 hmem
    split
    · refine Tx.ensures_change ?_
      rintro tables _ ⟨hkeyed, hosts, hwith, h⟩
      split
      · rename_i hsave
        have hown : (binding.follow primary).port = id := (hkeyed.host_row hb).1
        have hhost : (binding.follow primary).host = some host := (hkeyed.host_row hb).2
        refine ⟨hkeyed, _, hwith.saveHostBinding hown hhost hsave, fun other => ?_⟩
        dsimp only
        split
        · rename_i ho
          have hold : (seen.entry id).hosts other = some binding := ho ▸ hb
          rw [hold]
          exact .followed binding
        · rename_i hne
          refine (h other).mono fun row hr hm => .inl ?_
          rcases List.mem_append.1 hm with hm | hm
          · exact hm
          · -- A row tells its host, so it is the row of one host only.
            rw [List.mem_singleton.1 hm] at hr
            exact absurd (Option.some.inj ((hkeyed.host_row hr).2.symm.trans hhost)) hne
      · rename_i error hsave
        have hports : tables.ports = seen.ports := hwith.ports_eq rfl
        exact ⟨binding, tables, hmem, hports ▸ (hkeyed.row hb).2, hsave⟩
    · rename_i hf
      rw [Bool.not_eq_true, Bool.not_eq_false'] at hf
      refine Tx.ensures_pure ?_
      rintro _ _ ⟨hkeyed, hosts, hwith, h⟩
      refine ⟨hkeyed, hosts, hwith, fun other => (h other).mono fun row _ hm => ?_⟩
      rcases List.mem_append.1 hm with hm | hm
      · exact .inl hm
      · exact .inr (List.mem_singleton.1 hm ▸ hf)
  · rintro _ _ _ ⟨rfl, h⟩
    exact ⟨h, _, .refl _ id, fun host => .of_none _⟩
  · rintro _ _ _ _ ⟨_, hosts, hwith, h⟩
    refine ⟨hosts, hwith, fun host => (h host).mono fun row hr _ => .inl ?_⟩
    exact Ports.mem_hostBindingsOf.2 ⟨host, hr⟩

/-- What becomes of the rows on hosts when a port is saved fits its binding as it will be saved. -/
theorem Aligning.onHost {changed : Binding} {apart : Bool} {aligned last : Ports}
    (h : Aligning (store.Aligns changed) (!changed.sameInputs primary && apart) store aligned)
    (hsaved : Binding.Storing primary changed tables row last) (hrows : port.Rows primary hosts)
    (hentry : store.entry id = ⟨some port, some primary, hosts⟩) (hchanged : changed.port = id)
    (hkind : apart = port.isDistributed) :
    ∃ hosts', store.With id ⟨some port, some primary, hosts'⟩ aligned ∧
      ∀ ⦃host found⦄, hosts' host = some found → found.OnHost port row host := by
  cases h with
  | kept hn =>
    refine ⟨hosts, hentry ▸ .refl _ id, ?_⟩
    cases hsaved with
    | same => exact hrows.onHost
    | stored hi =>
      rw [hi, Bool.not_false, Bool.true_and, hkind] at hn
      rw [hrows.hosts_none hn]
      exact nofun
  | aligned hn ha =>
    obtain ⟨hosts', hwith, haligned⟩ := ha
    rw [hchanged, hentry] at hwith haligned
    refine ⟨hosts', hwith, ?_⟩
    cases hsaved with
    | same hi =>
      rw [hi] at hn
      cases hn
    | stored => exact hrows.align haligned

theorem Storing.with {updated : Port} {last : Ports} {primary : Option Binding}
    (h : Storing former updated tables port last)
    (hwith : store.With id ⟨some former, primary, hosts⟩ tables) (hid : updated.id = id) :
    store.With id ⟨some port, primary, hosts⟩ last ∧ port.id = id ∧
      port.isDistributed = updated.isDistributed := by
  cases h with
  | same heq => exact ⟨hwith, heq ▸ hid, heq ▸ rfl⟩
  | stored time => exact ⟨hwith.savePort hid, hid, rfl⟩

theorem saveTx_shapes (drivers : List String) (id : PortId) (network : Network)
    (update : PortUpdate) :
    (saveTx drivers id network update).Shapes new fun store =>
      ∀ former, store.ports.find? id = some former → update.checkOwner former = .ok () := by
  intro store
  let holds (store : Ports) : Prop := store.Keyed ∧ store.Shaped ∧
    ∀ former, store.ports.find? id = some former → update.checkOwner former = .ok ()
  have halign (store : Ports) (binding : Binding) : (alignHosts binding).Ensures
      (fun tables _ => tables = store ∧ holds store)
      (fun _ tables _ => store.Aligns binding tables) (Misaligned store binding) :=
    (alignHosts_aligns store binding).of_pre fun _ _ _ h => ⟨h.1, h.2.1⟩
  refine (saveTx_ensures drivers id network update halign store).any_fails.to_post ?_
  rintro closing tables supply _ ⟨⟨hk, hs, hcheck⟩, h⟩
  cases h with
  | gone => exact hs.shapes
  | saved hformer hbinding haligned hport hsaved =>
    obtain ⟨hosts, hentry, hid, hrows⟩ := hs.rows hformer hbinding
    have hcheck := hcheck _ hformer
    have hkind := (PortUpdate.checkOwner_iff.1 hcheck).1
    have hchanged := (update.applyToBinding_port _).trans (hrows.own.trans hid)
    obtain ⟨hown, hformed⟩ := hsaved.formed hcheck hrows
    obtain ⟨hosts, hwith, honhost⟩ := haligned.onHost hsaved hrows hentry hchanged hkind
    obtain ⟨hwith, hpid, hpkind⟩ := hport.with hwith hid
    have hlast : Port.Rows _ _ hosts := ⟨hown, hformed, honhost⟩
    exact hs.rewrite hformer (hsaved.with hwith hchanged) hpid (hpkind.trans hkind)
      (hlast.of_port (hpid.trans hid.symm) (hpkind.trans hkind))

theorem statusTx_shapes (drivers : List String) (id : PortId) (network : Network)
    (status : PortStatus) :
    (statusTx drivers id network status).Shapes new fun _ => True := by
  intro store
  have hstatus := (statusTx_ensures drivers id network status store).frame
    (fun _ => store.Shaped) fun _ _ _ h => h
  refine hstatus.weaken (fun _ _ _ h => ⟨h.2.2.1, h.1⟩) ?_ fun _ _ => trivial
  rintro closing tables _ _ ⟨hs, h⟩
  cases h with
  | kept => exact hs.shapes
  | saved hformer => exact hs.savePort hformer rfl rfl

theorem removeTx_shapes (id : PortId) : (removeTx id).Shapes new fun _ => True := by
  intro store
  have herases := removeTx_erases id store
  refine .of_fact herases.advances (fun _ _ h => h.2.2.1) fun hs => ?_
  refine herases.weaken (fun _ _ _ h => h.1) ?_ fun _ _ => trivial
  rintro _ tables _ _ (⟨_, _, rfl⟩ | ⟨_, rfl⟩)
  · exact hs.shapes
  · exact hs.with (Ports.With.refl store id).erasePort .absent nofun

theorem hostBinding_shapes (id : PortId) (host : String) :
    (hostBinding id host).Shapes new fun store =>
      ∀ port, store.ports.find? id = some port → port.isDistributed = true := by
  refine Tx.ensures_from _ (fun seen : Ports => fun _ tables _ => seen.Shapes new tables)
    (fun _ _ => True) fun seen => ?_
  split
  · rename_i port primary hport hprimary
    have hsaved (row : Binding) {last : Ports} (hs : seen.Shaped)
        (hd : ∀ port, seen.ports.find? id = some port → port.isDistributed = true)
        (hrow : row.port = id) (hhost : row.host = some host) (hformed : row.Formed false)
        (hf : row.follows primary = true) (hsave : seen.saveHostBinding row = .ok last) :
        seen.Shapes new last := by
      obtain ⟨hosts, hentry, hid, hrows⟩ := hs.rows hport hprimary
      have hwith := (Ports.With.refl seen id).saveHostBinding hrow hhost hsave
      rw [hentry] at hwith
      have hnamed := (Ports.saveHostBinding_eq hhost hsave).1
      have honhost : row.OnHost port primary host :=
        ⟨hd port hport, hrow.trans hid.symm, hhost, hnamed, hformed, hf⟩
      exact hs.rewrite hport hwith hid rfl (hrows.putHost honhost)
    have hfound (row : Binding) :
        (pure (.commit (some (port, row))) : Tx Ports (Closing (Option (Port × Binding)))).Ensures
          (fun tables _ => seen.Shapes new tables) (fun _ tables _ => seen.Shapes new tables)
          fun _ => True := Tx.ensures_pure fun _ _ h => h
    -- A new row, a row that follows the primary one already, and a row that is reset to follow it.
    split
    · extract_lets binding
      refine (Tx.ensures_change ?_).bind fun _ => hfound binding
      rintro _ _ ⟨rfl, _, hs, hd⟩
      split
      · refine hsaved binding hs hd rfl rfl (Binding.formed_of_reset rfl) ?_ ‹_›
        simp [binding, Binding.follows, Json.agrees_refl]
      · trivial
    · rename_i binding hsome
      split
      · refine (hfound binding).of_pre ?_
        rintro _ _ _ ⟨rfl, _, hs, _⟩
        exact hs.shapes
      · refine (Tx.ensures_change ?_).bind fun _ => hfound (binding.follow primary)
        rintro _ _ ⟨rfl, hk, hs, hd⟩
        split
        · have hrow := hk.host_row hsome
          exact hsaved (binding.follow primary) hs hd hrow.1 hrow.2 (Binding.formed_of_reset rfl)
            (binding.follows_follow primary) ‹_›
        · trivial
  · refine Tx.ensures_pure ?_
    rintro _ _ ⟨rfl, _, hs, _⟩
    exact hs.shapes

theorem Restated.with {changed : Port} {wanted : Option PortStatus}
    (h : port.Restated wanted store changed tables)
    (hentry : store.entry id = entry) (hport : entry.port = some port) (hid : port.id = id) :
    store.With id { entry with port := some changed } tables ∧ changed.id = port.id ∧
      changed.isDistributed = port.isDistributed := by
  have hwith := Ports.With.refl store id
  rw [hentry] at hwith
  cases h with
  | same =>
    rw [← hport]
    exact ⟨hwith, rfl, rfl⟩
  | saved _ time => exact ⟨hwith.savePort hid, rfl, rfl⟩

end Port

namespace Binding

/-- What drivers made of a candidate: one bound it, or all failed to. -/
def Decided (binding : Binding) : Prop :=
  binding.Bound ∨ binding.vif = .bindingFailed ∧
    binding.driver = none ∧ binding.segment = none ∧ binding.details = []

theorem Decided.formed {result : Binding} (h : result.Decided) (hhost : live.hasHost = true) :
    (live.copyResult result).Formed false := by
  rcases h with ⟨kind, hkind⟩ | ⟨hvif, hblank⟩
  · refine ⟨?_, nofun, fun hb => absurd ⟨kind, hkind⟩ hb, fun _ => hhost⟩
    simp [copyResult, hkind]
  · refine ⟨?_, nofun, fun _ => hblank, fun _ => hhost⟩
    simp [copyResult, hvif]

theorem commitTx_shapes (drivers : List String) (id : PortId) (hasked : asked.hasHost = true)
    (hdecided : candidate.binding.Decided) :
    (commitTx drivers id asked candidate).Shapes new fun _ => True := by
  intro store
  have hcommit := (commitTx_ensures drivers id asked candidate store).frame
    (fun _ => store.Shaped) fun _ _ _ h => h
  refine hcommit.weaken (fun _ _ _ h => ⟨h.2.2.1, h.1⟩) ?_ fun _ _ => trivial
  rintro closing tables supply _ ⟨hs, h⟩
  cases h with
  | gone => exact hs.shapes
  | retry => exact hs.shapes
  | @committed port changed live tables _ context hl hrestated hsave =>
    have hhost : live.hasHost = true := by rwa [hasHost, hl.host_eq]
    have hformed := hdecided.formed hhost
    obtain ⟨primary, hb⟩ := hs.exists_primary hl.found
    obtain ⟨hosts, hentry, hid, hrows⟩ := hs.rows hl.found hb
    obtain ⟨hwith, hcid, hkind⟩ := hrestated.with hentry rfl hid
    have hrow := hl.row
    unfold Ports.bindingAt at hrow
    unfold Ports.saveBindingOf at hsave
    have hrows := hrows.of_port hcid hkind
    by_cases hd : port.isDistributed = true
    · rw [if_pos hd] at hrow hsave
      obtain ⟨name, hname, hlive⟩ := Option.bind_eq_some_iff.1 hrow
      have hfind : (store.entry id).hosts name = some live := hid ▸ hlive
      rw [hentry] at hfind
      have honhost := hrows.onHost hfind
      have hrow : (live.copyResult candidate.binding).OnHost changed primary name :=
        { honhost with formed := hformed }
      have hsaved := hwith.saveHostBinding (hrow.port.trans (hcid.trans hid)) hrow.host hsave
      exact hs.rewrite hl.found hsaved (hcid.trans hid) hkind (hrows.putHost hrow)
    · rw [if_neg hd] at hrow hsave
      rw [Bool.not_eq_true] at hd
      obtain rfl : primary = live := Option.some.inj (hb.symm.trans (hid ▸ hrow))
      have hown : (primary.copyResult candidate.binding).port = changed.id := hrows.own
      have hsaved := hwith.saveBinding (hown.trans (hcid.trans hid)) hsave
      refine hs.rewrite hl.found hsaved (hcid.trans hid) hkind ⟨hown, ?_, fun host row hr => ?_⟩
      · rw [hkind, hd]
        exact hformed
      · rw [hrows.hosts_none (hkind.trans hd)] at hr
        cases hr

end Binding

theorem Port.initialBinding_formed {request : PortRequest} {binding : Binding}
    (h : initialBinding port request = .ok binding) :
    binding.port = port.id ∧ binding.Formed port.isDistributed := by
  unfold initialBinding at h
  extract_lets at h
  split at h
  · rename_i hd
    split at h
    · cases h
    · cases h
      refine ⟨rfl, ?_⟩
      rw [hd]
      refine ⟨by simp, fun _ => rfl, fun _ => ⟨rfl, rfl, rfl⟩, ?_⟩
      rintro (⟨_, hk⟩ | hk) <;> cases hk
  · rename_i hd
    cases h
    refine ⟨rfl, ?_⟩
    rw [Bool.not_eq_true] at hd
    rw [hd]
    exact Binding.formed_of_reset rfl

theorem Port.insertTx_shapes {request : PortRequest} {binding : Binding} (config : Config)
    (mac : Option String) (hb : initialBinding port request = .ok binding) :
    (insertTx config port binding mac).Shapes (· = port.id) fun store =>
      store.ports.find? port.id = none := by
  intro store
  obtain ⟨hown, hformed⟩ := initialBinding_formed hb
  have hinsert := (insertTx_stores config port binding mac store).frame
    (fun _ => store.Shaped ∧ store.ports.find? port.id = none) fun _ _ _ h => h
  refine hinsert.weaken (fun _ _ _ h => ⟨h.2.2, h.1⟩) ?_ fun _ h => h
  rintro _ last _ _ ⟨⟨hs, hnone⟩, stored, _, hstored, hsave⟩
  have hkept : stored.id = port.id ∧ stored.isDistributed = port.isDistributed := by
    obtain ⟨mac, rfl, _⟩ := hstored
    exact ⟨rfl, rfl⟩
  have hentry : store.entry port.id = .absent := by
    have habsent := hs port.id
    have hport : (store.entry port.id).port = none := hnone
    generalize store.entry port.id = entry at habsent hport
    cases habsent with
    | absent => rfl
    | present => cases hport
  have hwith := Ports.With.refl store port.id
  rw [hentry] at hwith
  have hsaved := (hwith.savePort hkept.1).saveBinding hown hsave
  have hrows : stored.Rows binding fun _ => none :=
    ⟨hown.trans hkept.1.symm, hkept.2 ▸ hformed, nofun⟩
  exact hs.with hsaved (.present hkept.1 hrows) fun _ _ => .inl rfl

theorem Port.fetchTx_shapes (id : PortId) : (fetchTx id).Shapes new fun _ => True := by
  refine Tx.ensures_from _ (fun seen : Ports => fun _ tables _ => seen.Shapes new tables)
    (fun _ _ => True) fun seen => ?_
  split
  · exact Tx.ensures_throw fun _ _ _ => trivial
  · refine Tx.ensures_pure ?_
    rintro _ _ ⟨rfl, _, hs, _⟩
    exact hs.shapes

end ControlPlane
