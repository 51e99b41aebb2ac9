import ControlPlane.Store.Transaction

/-! Contracts of transactions. Identifiers are drawn from one endless row, so a contract may assume
that the ones drawn by its end are all different. -/

namespace ControlPlane

namespace Supply

/-- No identifier was drawn twice. -/
def Distinct (supply : Supply) : Prop :=
  ∀ i j, i < supply.idents → j < supply.idents → supply.identAt i = supply.identAt j → i = j

def Drawn (supply : Supply) (value : BitVec 128) : Prop :=
  ∃ i < supply.idents, supply.identAt i = value

/-- One supply is another from which more may have been drawn. -/
structure Extends (later earlier : Supply) : Prop where
  identAt : later.identAt = earlier.identAt
  idents : earlier.idents ≤ later.idents

variable {a b c supply later : Supply} {value : BitVec 128}

theorem Extends.refl (supply : Supply) : supply.Extends supply := ⟨rfl, Nat.le_refl _⟩

theorem Extends.trans (hcb : c.Extends b) (hba : b.Extends a) : c.Extends a :=
  ⟨hcb.identAt.trans hba.identAt, Nat.le_trans hba.idents hcb.idents⟩

theorem Distinct.of_extends (h : later.Distinct) (he : later.Extends supply) : supply.Distinct := by
  intro i j hi hj hij
  apply h i j (Nat.lt_of_lt_of_le hi he.idents) (Nat.lt_of_lt_of_le hj he.idents)
  simpa only [he.identAt] using hij

theorem Drawn.of_extends (h : supply.Drawn value) (he : later.Extends supply) :
    later.Drawn value := by
  obtain ⟨i, hi, hv⟩ := h
  exact ⟨i, Nat.lt_of_lt_of_le hi he.idents, by rw [he.identAt, hv]⟩

theorem Distinct.not_drawn (h : later.Distinct) (hi : later.identAt = supply.identAt)
    (hn : supply.idents < later.idents) : ¬ supply.Drawn (supply.identAt supply.idents) := by
  rintro ⟨i, hlt, hv⟩
  have := h i supply.idents (Nat.lt_trans hlt hn) hn (by simpa only [hi] using hv)
  omega

theorem ident_extends (supply : Supply) (kind : Kind) :
    (supply.ident kind).2.Extends supply := ⟨rfl, Nat.le_succ _⟩

theorem ident_drawn (supply : Supply) (kind : Kind) :
    (supply.ident kind).2.Drawn (supply.ident kind).1.value :=
  ⟨supply.idents, Nat.lt_succ_self _, rfl⟩

theorem ident_not_drawn {kind : Kind} (h : (supply.ident kind).2.Distinct) :
    ¬ supply.Drawn (supply.ident kind).1.value :=
  h.not_drawn rfl (Nat.lt_succ_self _)

end Supply

/-- What a transaction makes of tables and a supply that satisfy `pre`, provided that no identifier
is drawn twice. In any case the supply only moves on. -/
def Tx.Ensures {T α : Type} (tx : Tx T α) (pre : T → Supply → Prop)
    (post : α → T → Supply → Prop) (fails : Error → Prop) : Prop :=
  ∀ tables supply, (tx.attempt tables supply).2.Extends supply ∧
    ((tx.attempt tables supply).2.Distinct → pre tables supply →
      match (tx.attempt tables supply).1 with
      | .ok (answer, kept) => post answer kept (tx.attempt tables supply).2
      | .error error => fails error)

namespace Tx

variable {T α β : Type} {pre pre' : T → Supply → Prop} {post post' : α → T → Supply → Prop}
  {after : β → T → Supply → Prop} {fails fails' : Error → Prop}

theorem attempt_bind (tx : Tx T α) (f : α → Tx T β) (tables : T) (supply : Supply) :
    (tx >>= f).attempt tables supply = match tx.attempt tables supply with
      | (.ok (answer, kept), rest) => (f answer).attempt kept rest
      | (.error error, rest) => (.error error, rest) := by
  simp only [attempt, bind, StateT.bind, ExceptT.bind, ExceptT.mk, StateT.bind]
  rcases tx tables supply with ⟨_ | ⟨_, _⟩, _⟩ <;> rfl

theorem attempt_get_bind (f : T → Tx T β) (tables : T) (supply : Supply) :
    (get >>= f).attempt tables supply = (f tables).attempt tables supply := rfl

theorem attempt_ident_bind {kind : Kind} (f : Ident kind → Tx T β) (tables : T) (supply : Supply) :
    (Tx.ident kind >>= f).attempt tables supply =
      (f (supply.ident kind).1).attempt tables (supply.ident kind).2 := rfl

theorem attempt_change (f : T → Except Error T) (tables : T) (supply : Supply) :
    (Tx.change f).attempt tables supply = match f tables with
      | .ok kept => (.ok ((), kept), supply)
      | .error error => (.error error, supply) := by
  unfold Tx.change
  rw [attempt_get_bind, attempt_bind]
  cases f tables <;> rfl

theorem ensures_pure {a : α} (h : ∀ tables supply, pre tables supply → post a tables supply) :
    Ensures (pure a : Tx T α) pre post fails :=
  fun tables supply => ⟨.refl _, fun _ => h tables supply⟩

theorem Ensures.bind {tx : Tx T α} {f : α → Tx T β} (h : tx.Ensures pre post fails)
    (hf : ∀ a, (f a).Ensures (post a) after fails) : (tx >>= f).Ensures pre after fails := by
  intro tables supply
  have ⟨he, hpost⟩ := h tables supply
  rw [attempt_bind]
  generalize tx.attempt tables supply = result at he hpost
  obtain ⟨_ | ⟨a, kept⟩, rest⟩ := result
  · exact ⟨he, hpost⟩
  · have ⟨he', hafter⟩ := hf a kept rest
    exact ⟨he'.trans he, fun hd hp => hafter hd (hpost (hd.of_extends he') hp)⟩

theorem Ensures.weaken {tx : Tx T α} (h : tx.Ensures pre post fails)
    (hpre : ∀ tables supply, supply.Distinct → pre' tables supply → pre tables supply)
    (hpost : ∀ a tables supply, supply.Distinct → post a tables supply → post' a tables supply)
    (hfails : ∀ error, fails error → fails' error) : tx.Ensures pre' post' fails' := by
  intro tables supply
  have ⟨he, hr⟩ := h tables supply
  refine ⟨he, fun hd hp => ?_⟩
  have hr := hr hd (hpre _ _ (hd.of_extends he) hp)
  split at hr
  · exact hpost _ _ _ hd hr
  · exact hfails _ hr

theorem Ensures.of_pre {tx : Tx T α} (h : tx.Ensures pre post fails)
    (hpre : ∀ tables supply, supply.Distinct → pre' tables supply → pre tables supply) :
    tx.Ensures pre' post fails :=
  h.weaken hpre (fun _ _ _ _ => id) fun _ => id

theorem Ensures.to_post {tx : Tx T α} (h : tx.Ensures pre post fails)
    (hpost : ∀ a tables supply, supply.Distinct → post a tables supply → post' a tables supply) :
    tx.Ensures pre post' fails :=
  h.weaken (fun _ _ _ => id) hpost fun _ => id

theorem Ensures.and {tx : Tx T α} (h : tx.Ensures pre post fails)
    (h' : tx.Ensures pre' post' fails') :
    tx.Ensures (fun tables supply => pre tables supply ∧ pre' tables supply)
      (fun a tables supply => post a tables supply ∧ post' a tables supply)
      fun error => fails error ∧ fails' error := by
  intro tables supply
  refine ⟨(h tables supply).1, fun hd hp => ?_⟩
  have hr := (h tables supply).2 hd hp.1
  have hr' := (h' tables supply).2 hd hp.2
  generalize (tx.attempt tables supply).1 = result at hr hr'
  cases result with
  | ok kept => exact ⟨hr, hr'⟩
  | error error => exact ⟨hr, hr'⟩

theorem Ensures.exists {ι : Type} {tx : Tx T α} {pre : ι → T → Supply → Prop}
    {post : ι → α → T → Supply → Prop} (h : ∀ i, tx.Ensures (pre i) (post i) fails)
    (hi : Nonempty ι) :
    tx.Ensures (fun tables supply => ∃ i, pre i tables supply)
      (fun a tables supply => ∃ i, post i a tables supply) fails := by
  intro tables supply
  have ⟨i⟩ := hi
  refine ⟨(h i tables supply).1, fun hd ⟨i, hp⟩ => ?_⟩
  have hr := (h i tables supply).2 hd hp
  split at hr
  · exact ⟨i, hr⟩
  · exact hr

theorem Ensures.any_fails {tx : Tx T α} (h : tx.Ensures pre post fails) :
    tx.Ensures pre post fun _ => True :=
  h.weaken (fun _ _ _ hp => hp) (fun _ _ _ _ hp => hp) fun _ _ => trivial

theorem Ensures.of_no_fails {tx : Tx T α} (h : tx.Ensures pre post fun _ => False) :
    tx.Ensures pre post fails :=
  h.weaken (fun _ _ _ hp => hp) (fun _ _ _ _ hp => hp) fun _ hf => hf.elim

/-- What stays true of a supply that moves on may be kept beside any contract. -/
theorem Ensures.frame {tx : Tx T α} (h : tx.Ensures pre post fails) (kept : Supply → Prop)
    (hk : ∀ supply later, later.Extends supply → kept supply → kept later) :
    tx.Ensures (fun tables supply => kept supply ∧ pre tables supply)
      (fun a tables supply => kept supply ∧ post a tables supply) fails := by
  intro tables supply
  have ⟨he, hr⟩ := h tables supply
  refine ⟨he, fun hd ⟨hs, hp⟩ => ?_⟩
  have hr := hr hd hp
  split at hr
  · exact ⟨hk _ _ he hs, hr⟩
  · exact hr

/-- A contract may name the tables that a transaction starts from. -/
theorem Ensures.of_tables {tx : Tx T α}
    (h : ∀ first, tx.Ensures (fun tables supply => tables = first ∧ pre tables supply) post fails) :
    tx.Ensures pre post fails :=
  fun tables supply =>
    ⟨(h tables tables supply).1, fun hd hp => (h tables tables supply).2 hd ⟨rfl, hp⟩⟩

theorem ensures_get :
    Ensures (get : Tx T T) pre (fun seen tables supply => tables = seen ∧ pre tables supply) fails :=
  fun _ _ => ⟨.refl _, fun _ hp => ⟨rfl, hp⟩⟩

theorem ensures_modify {f : T → T} {post : PUnit → T → Supply → Prop}
    (h : ∀ tables supply, pre tables supply → post () (f tables) supply) :
    Ensures (modify f : Tx T PUnit) pre post fails :=
  fun tables supply => ⟨.refl _, fun _ => h tables supply⟩

theorem ensures_throw {error : Error} (h : ∀ tables supply, pre tables supply → fails error) :
    Ensures (throw error : Tx T α) pre post fails :=
  fun tables supply => ⟨.refl _, fun _ => h tables supply⟩

theorem ensures_throw_bind {error : Error} {f : α → Tx T β}
    (h : ∀ tables supply, pre tables supply → fails error) :
    Ensures (throw error >>= f : Tx T β) pre after fails :=
  fun tables supply => ⟨.refl _, fun _ => h tables supply⟩

theorem ensures_lift {r : Except Error α}
    (h : ∀ tables supply, pre tables supply →
      match r with
      | .ok a => post a tables supply
      | .error error => fails error) :
    Ensures (liftM r : Tx T α) pre post fails := by
  intro tables supply
  cases r with
  | ok a => exact ⟨.refl _, fun _ => h tables supply⟩
  | error error => exact ⟨.refl _, fun _ => h tables supply⟩

theorem ensures_change {f : T → Except Error T} {post : Unit → T → Supply → Prop}
    (h : ∀ tables supply, pre tables supply →
      match f tables with
      | .ok kept => post () kept supply
      | .error error => fails error) :
    (Tx.change f).Ensures pre post fails := by
  intro tables supply
  have h := h tables supply
  rw [attempt_change]
  cases hf : f tables with
  | ok kept => exact ⟨.refl _, fun _ hp => by simpa [hf] using h hp⟩
  | error error => exact ⟨.refl _, fun _ hp => by simpa [hf] using h hp⟩

theorem ensures_change_bind {f : T → Except Error T} {g : Unit → Tx T β}
    (hf : ∀ tables supply error, pre tables supply → f tables = .error error → fails error)
    (h : (g ()).Ensures (fun kept supply => ∃ tables, pre tables supply ∧ f tables = .ok kept)
      after fails) : Ensures (Tx.change f >>= g : Tx T β) pre after fails := by
  refine Ensures.bind (ensures_change fun tables supply hp => ?_) fun _ => h
  split
  · exact ⟨tables, hp, ‹_›⟩
  · exact hf tables supply _ hp ‹_›

theorem ensures_modify_bind {f : T → T} {g : PUnit → Tx T β}
    (h : (g ()).Ensures (fun kept supply => ∃ tables, pre tables supply ∧ kept = f tables)
      after fails) : Ensures (modify f >>= g : Tx T β) pre after fails :=
  Ensures.bind (ensures_modify fun tables _ hp => ⟨tables, hp, rfl⟩) fun _ => h

theorem ensures_ident {kind : Kind} {post : Ident kind → T → Supply → Prop}
    (h : ∀ tables supply, (supply.ident kind).2.Distinct → pre tables supply →
      post (supply.ident kind).1 tables (supply.ident kind).2) :
    (Tx.ident kind : Tx T (Ident kind)).Ensures pre post fails :=
  fun tables supply => ⟨supply.ident_extends kind, h tables supply⟩

theorem ensures_ident_bind {kind : Kind} {f : Ident kind → Tx T β}
    (h : ∀ fresh, (f fresh).Ensures (fun tables later => ∃ supply, pre tables supply ∧
      later.Extends supply ∧ later.Drawn fresh.value ∧ ¬ supply.Drawn fresh.value) after fails) :
    Ensures (Tx.ident kind >>= f : Tx T β) pre after fails := by
  refine Ensures.bind (ensures_ident fun tables supply hd hp => ?_) h
  exact ⟨supply, hp, supply.ident_extends kind, supply.ident_drawn kind,
    Supply.ident_not_drawn hd⟩

theorem ensures_get_bind {f : T → Tx T β}
    (h : ∀ seen, (f seen).Ensures (fun tables supply => tables = seen ∧ pre tables supply)
      after fails) : Ensures (get >>= f : Tx T β) pre after fails :=
  ensures_get.bind h

/-- A transaction that first reads the tables it starts from. -/
theorem ensures_from (holds : T → Prop) (post : T → α → T → Supply → Prop)
    (fails : T → Error → Prop) {f : T → Tx T α}
    (h : ∀ seen, (f seen).Ensures (fun tables _ => tables = seen ∧ holds seen) (post seen)
      (fails seen))
    (store : T) :
    Ensures (get >>= f : Tx T α) (fun tables _ => tables = store ∧ holds store) (post store)
      (fails store) := by
  intro tables supply
  rw [attempt_bind]
  refine ⟨(h tables tables supply).1, ?_⟩
  rintro hd ⟨rfl, hp⟩
  exact (h tables tables supply).2 hd ⟨rfl, hp⟩

theorem ensures_time {post : Timestamp → T → Supply → Prop}
    (h : ∀ tables supply, pre tables supply → post supply.time.1 tables supply.time.2) :
    (Tx.time : Tx T Timestamp).Ensures pre post fails :=
  fun tables supply => ⟨⟨rfl, Nat.le_refl _⟩, fun _ => h tables supply⟩

theorem ensures_mac {base : Mac} {post : Mac → T → Supply → Prop}
    (h : ∀ tables supply, pre tables supply →
      post (base.complete supply.octetAt supply.octets) tables (supply.skipOctets base.holes).2) :
    (Tx.mac base : Tx T Mac).Ensures pre post fails :=
  fun tables supply => ⟨⟨rfl, Nat.le_refl _⟩, fun _ => h tables supply⟩

theorem ensures_guard {c : Prop} [Decidable c] {error : Error} {f : α → Tx T β} {x : Tx T β}
    (hf : c → ∀ tables supply, pre tables supply → fails error)
    (hx : ¬ c → x.Ensures pre after fails) :
    Ensures (if c then throw error >>= f else x) pre after fails := by
  split
  · exact fun tables supply => ⟨.refl _, fun _ => hf ‹_› tables supply⟩
  · exact hx ‹_›

/-- A loop keeps what holds of the items that it has done. -/
theorem ensures_forM {ι : Type} {items : List ι} {body : ι → Tx T Unit}
    (inv : List ι → T → Supply → Prop)
    (h : ∀ front item rest, items = front ++ item :: rest →
      (body item).Ensures (inv front) (fun _ => inv (front ++ [item])) fails) :
    (items.forM body).Ensures (inv []) (fun _ => inv items) fails := by
  suffices hs : ∀ rest front, items = front ++ rest →
      (rest.forM body).Ensures (inv front) (fun _ => inv items) fails from hs items [] rfl
  intro rest
  induction rest with
  | nil =>
    intro front hf
    refine ensures_pure fun tables supply hp => ?_
    simpa [hf] using hp
  | cons item rest ih =>
    intro front hf
    exact (h front item rest hf).bind fun _ => ih (front ++ [item]) (by simp [hf])

theorem ensures_mapM {ι : Type} {items : List ι} {body : ι → Tx T α}
    (inv : List ι → List α → T → Supply → Prop)
    (h : ∀ front item rest done, items = front ++ item :: rest →
      (body item).Ensures (inv front done) (fun a => inv (front ++ [item]) (done ++ [a])) fails) :
    (items.mapM body).Ensures (inv [] []) (inv items) fails := by
  suffices hs : ∀ rest front done, items = front ++ rest →
      (List.mapM' body rest).Ensures (inv front done)
        (fun as => inv items (done ++ as)) fails by
    rw [← List.mapM'_eq_mapM]
    simpa using hs items [] [] rfl
  intro rest
  induction rest with
  | nil =>
    intro front done hf
    refine ensures_pure fun tables supply hp => ?_
    simpa [hf] using hp
  | cons item rest ih =>
    intro front done hf
    refine (h front item rest done hf).bind fun a => ?_
    refine (ih (front ++ [item]) (done ++ [a]) (by simp [hf])).bind fun as => ?_
    refine ensures_pure fun tables supply hp => ?_
    simpa using hp

end Tx

end ControlPlane
