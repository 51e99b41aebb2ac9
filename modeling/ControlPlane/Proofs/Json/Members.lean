import ControlPlane.Json.Decode

/-! The members of objects in the order of their names, and what a reader finds under a name. -/

namespace ControlPlane

namespace Json

variable {n name : String} {v x : Json} {ms acc : List (String × Json)}
  {present : List (String × Option Json)}

/-- Each name stands before the next. -/
def Ascending (ms : List (String × Json)) : Prop := ms.Pairwise fun m n => compare m.1 n.1 = .lt

theorem insertMember_of_lt (h : ∀ m ∈ ms, compare m.1 n = .lt) :
    insertMember n v ms = ms ++ [(n, v)] := by
  induction ms with
  | nil => rfl
  | cons m ms ih =>
    have hgt : compare n m.1 = .gt := Std.OrientedCmp.gt_iff_lt.2 (h m List.mem_cons_self)
    simp only [insertMember, hgt, ih fun m hm => h m (List.mem_cons_of_mem _ hm), List.cons_append]

theorem foldl_insertMember (h : Ascending (acc ++ ms)) :
    ms.foldl (fun acc m => insertMember m.1 m.2 acc) acc = acc ++ ms := by
  induction ms generalizing acc with
  | nil => simp
  | cons m ms ih =>
    have hsplit : acc ++ m :: ms = (acc ++ [m]) ++ ms := by simp
    rw [hsplit] at h ⊢
    have hlast : ∀ a ∈ acc, compare a.1 m.1 = .lt := fun a ha =>
      (List.pairwise_append.1 (List.pairwise_append.1 h).1).2.2 a ha m List.mem_cons_self
    rw [List.foldl_cons, insertMember_of_lt hlast]
    exact ih h

theorem ofMembers_eq (h : Ascending ms) : ofMembers ms = object ms := by
  have hfold : ms.foldl (fun acc m => insertMember m.1 m.2 acc) [] = [] ++ ms := foldl_insertMember h
  exact congrArg object hfold

theorem mem_insertMember {m : String × Json} (h : m ∈ insertMember n v ms) : m = (n, v) ∨ m ∈ ms := by
  induction ms with
  | nil => exact Or.inl (List.mem_singleton.1 h)
  | cons a ms ih =>
    unfold insertMember at h
    cases hcompare : compare n a.1 <;> simp only [hcompare, List.mem_cons] at h ⊢
    · exact h
    · exact h.imp_right Or.inr
    · rcases h with h | h
      · exact Or.inr (Or.inl h)
      · exact (ih h).imp_right Or.inr

theorem mem_foldl_insertMember {m : String × Json}
    (h : m ∈ ms.foldl (fun acc m => insertMember m.1 m.2 acc) acc) : m ∈ ms ∨ m ∈ acc := by
  induction ms generalizing acc with
  | nil => exact Or.inr h
  | cons a ms ih =>
    rcases ih h with h | h
    · exact Or.inl (List.mem_cons_of_mem a h)
    · rcases mem_insertMember h with rfl | h
      · exact Or.inl List.mem_cons_self
      · exact Or.inr h

theorem ascending_insertMember (h : Ascending ms) : Ascending (insertMember n v ms) := by
  induction ms with
  | nil => simp [insertMember, Ascending]
  | cons a ms ih =>
    obtain ⟨hfirst, hrest⟩ := List.pairwise_cons.1 h
    unfold insertMember
    cases hcompare : compare n a.1 <;> simp only
    · refine List.pairwise_cons.2 ⟨fun m hm => ?_, h⟩
      rcases List.mem_cons.1 hm with rfl | hm
      · exact hcompare
      · exact Std.TransCmp.lt_trans hcompare (hfirst m hm)
    · obtain rfl := Std.LawfulEqCmp.eq_of_compare hcompare
      exact List.pairwise_cons.2 ⟨hfirst, hrest⟩
    · refine List.pairwise_cons.2 ⟨fun m hm => ?_, ih hrest⟩
      rcases mem_insertMember hm with rfl | hm
      · exact Std.OrientedCmp.gt_iff_lt.1 hcompare
      · exact hfirst m hm

theorem ascending_foldl_insertMember (h : Ascending acc) :
    Ascending (ms.foldl (fun acc m => insertMember m.1 m.2 acc) acc) := by
  induction ms generalizing acc with
  | nil => exact h
  | cons m ms ih => exact ih (ascending_insertMember h)

/-- The members of every object stand in ascending order, as they do in every value that is read. -/
inductive Ordered : Json → Prop
  | null : Ordered null
  | bool (b : Bool) : Ordered (bool b)
  | number (n : Number) : Ordered (number n)
  | string (s : String) : Ordered (string s)
  | array {items : List Json} (h : ∀ x ∈ items, Ordered x) : Ordered (array items)
  | object {members : List (String × Json)} (h : Ascending members)
    (hs : ∀ m ∈ members, Ordered m.2) : Ordered (object members)

theorem ordered_ofMembers (h : ∀ m ∈ ms, Ordered m.2) : Ordered (ofMembers ms) := by
  refine .object (ascending_foldl_insertMember List.Pairwise.nil) fun m hm => ?_
  rcases mem_foldl_insertMember hm with hm | hm
  · exact h m hm
  · exact absurd hm List.not_mem_nil

/-! What stands under a name. -/

theorem lookup_member (m : String × Json) :
    (m :: ms).lookup name = if name = m.1 then some m.2 else ms.lookup name := by
  rw [List.lookup_cons]
  by_cases h : name = m.1
  · simp [h]
  · rw [beq_eq_false_iff_ne.2 h, if_neg h]

theorem lookup_insertMember :
    (insertMember n v ms).lookup name = if name = n then some v else ms.lookup name := by
  induction ms with
  | nil => simp [insertMember, lookup_member]
  | cons a ms ih =>
    unfold insertMember
    cases hcompare : compare n a.1 <;> simp only [lookup_member]
    · rw [← Std.LawfulEqCmp.eq_of_compare hcompare]
      by_cases h : name = n <;> simp [h]
    · have hne : a.1 ≠ n := by
        rintro rfl
        simp at hcompare
      by_cases h : name = a.1 <;> simp [h, hne, ih]

/-- Of members of one name the last counts. -/
theorem lookup_foldl_insertMember :
    (ms.foldl (fun acc m => insertMember m.1 m.2 acc) acc).lookup name =
      (ms.reverse.lookup name).or (acc.lookup name) := by
  induction ms generalizing acc with
  | nil => simp
  | cons m ms ih =>
    rw [List.foldl_cons, ih, lookup_insertMember, List.reverse_cons, List.lookup_append,
      Option.or_assoc, lookup_member]
    by_cases h : name = m.1 <;> simp [h]

theorem lookup_eq_none (h : name ∉ ms.map Prod.fst) : ms.lookup name = none := by
  rw [List.lookup_eq_none_iff]
  intro m hm
  simpa using fun heq : name = m.1 => h (heq ▸ List.mem_map_of_mem hm)

theorem lookup_present (hnodup : (present.map Prod.fst).Nodup) {value : Option Json}
    (h : (name, value) ∈ present) :
    (present.filterMap fun m => m.2.map (m.1, ·)).reverse.lookup name = value := by
  induction present with
  | nil => cases h
  | cons a present ih =>
    rw [List.map_cons, List.nodup_cons] at hnodup
    have hsplit : (a :: present).filterMap (fun m => m.2.map (m.1, ·)) =
        (a.2.map (a.1, ·)).toList ++ present.filterMap fun m => m.2.map (m.1, ·) := by
      cases ha : a.2 <;> simp [ha]
    have hfirst : (a.2.map (a.1, ·)).toList.reverse.lookup name = if name = a.1 then a.2 else none := by
      cases a.2 <;> simp [lookup_member]
    rw [hsplit, List.reverse_append, List.lookup_append, hfirst]
    rcases List.mem_cons.1 h with rfl | hmem
    · have hnone : (present.filterMap fun m => m.2.map (m.1, ·)).reverse.lookup name = none := by
        refine lookup_eq_none fun hname => hnodup.1 ?_
        simp only [List.map_reverse, List.mem_reverse, List.mem_map, List.mem_filterMap] at hname
        obtain ⟨_, ⟨b, hb, hvalue⟩, rfl⟩ := hname
        obtain ⟨_, _, rfl⟩ := Option.map_eq_some_iff.1 hvalue
        exact List.mem_map.2 ⟨b, hb, rfl⟩
      simp [hnone]
    · have hne : name ≠ a.1 := fun heq => hnodup.1 (heq ▸ List.mem_map_of_mem (f := Prod.fst) hmem)
      simp [ih hnodup.2 hmem, hne]

end Json

namespace Document

variable {α : Type} {f : Document → Option α} {g : α → Json} {name : String} {j : Json}
  {ms : List (String × Json)} {xs : List Json} {names : List String}

theorem ofJsons_eq_map : ofJsons xs = xs.map ofJson := by
  induction xs with
  | nil => rfl
  | cons x xs ih => simp [ofJsons, ih]

theorem values?_ofJsons (h : ∀ x ∈ xs, value? (ofJson x) = some x) :
    values? (ofJsons xs) = some xs := by
  induction xs with
  | nil => rfl
  | cons x xs ih =>
    simp [ofJsons, values?, h x List.mem_cons_self, ih fun y hy => h y (List.mem_cons_of_mem _ hy)]

theorem memberValues?_ofMembers (h : ∀ m ∈ ms, value? (ofJson m.2) = some m.2) :
    memberValues? (ofMembers ms) = some ms := by
  induction ms with
  | nil => rfl
  | cons m ms ih =>
    simp [ofMembers, memberValues?, h m List.mem_cons_self,
      ih fun a ha => h a (List.mem_cons_of_mem _ ha)]

theorem value?_ofJson (h : j.Ordered) : value? (ofJson j) = some j := by
  induction h with
  | array _ ih => simp [ofJson, value?, values?_ofJsons ih]
  | object h _ ih => simp [ofJson, value?, memberValues?_ofMembers ih, Json.ofMembers_eq h]
  | _ => rfl

mutual

theorem ordered_of_value? : ∀ {d : Document} {j : Json}, value? d = some j → j.Ordered
  | null, _, h => by cases h; exact .null
  | bool b, _, h => by cases h; exact .bool b
  | number n, _, h => by cases h; exact .number n
  | string s, _, h => by cases h; exact .string s
  | array items, _, h => by
    obtain ⟨xs, hxs, rfl⟩ := Option.map_eq_some_iff.1 h
    exact .array (ordered_of_values? hxs)
  | object members, _, h => by
    obtain ⟨ms, hms, rfl⟩ := Option.map_eq_some_iff.1 h
    exact Json.ordered_ofMembers (ordered_of_memberValues? hms)

theorem ordered_of_values? : ∀ {ds : List Document} {xs : List Json}, values? ds = some xs →
    ∀ x ∈ xs, x.Ordered
  | [], _, h => by cases h; exact fun x hx => absurd hx List.not_mem_nil
  | d :: ds, _, h => by
    simp only [values?, Option.bind_eq_bind, Option.bind_eq_some_iff, Option.pure_def,
      Option.some.injEq] at h
    obtain ⟨x, hx, xs, hxs, rfl⟩ := h
    exact List.forall_mem_cons.2 ⟨ordered_of_value? hx, ordered_of_values? hxs⟩

theorem ordered_of_memberValues? : ∀ {ds : List (String × Document)} {ms : List (String × Json)},
    memberValues? ds = some ms → ∀ m ∈ ms, m.2.Ordered
  | [], _, h => by cases h; exact fun m hm => absurd hm List.not_mem_nil
  | (n, d) :: ds, _, h => by
    simp only [memberValues?, Option.bind_eq_bind, Option.bind_eq_some_iff, Option.pure_def,
      Option.some.injEq] at h
    obtain ⟨x, hx, ms, hms, rfl⟩ := h
    exact List.forall_mem_cons.2 ⟨ordered_of_value? hx, ordered_of_memberValues? hms⟩

end

theorem ordered_of_details? {d : Document} (h : details? d = some ms) : (Json.object ms).Ordered := by
  unfold details? at h
  split at h
  · rename_i hvalue
    cases h
    exact ordered_of_value? hvalue
  · cases h

theorem memberOnce?_ofMembers (h : Json.Ascending ms) :
    memberOnce? (ofMembers ms) name = some ((ms.lookup name).map ofJson) := by
  have hfilter : (ofMembers ms).filter (·.1 == name) =
      ((ms.lookup name).map fun x => (name, ofJson x)).toList := by
    induction ms with
    | nil => rfl
    | cons m ms ih =>
      obtain ⟨hfirst, hrest⟩ := List.pairwise_cons.1 h
      by_cases hname : name = m.1
      · have hnone : ms.lookup name = none := by
          refine Json.lookup_eq_none fun hmem => ?_
          obtain ⟨a, ha, heq⟩ := List.mem_map.1 hmem
          have hlt := hfirst a ha
          simp [heq, hname] at hlt
        have htail := ih hrest
        rw [hnone] at htail
        simp [ofMembers, Json.lookup_member, ← hname, htail]
      · simp [ofMembers, Json.lookup_member, hname, Ne.symm hname, ih hrest]
  rw [memberOnce?, hfilter]
  cases ms.lookup name <;> rfl

theorem mapM_eq_some {β γ δ : Type} {f : γ → Option δ} {g : β → γ} {h : β → δ} {bs : List β}
    (hread : ∀ b ∈ bs, f (g b) = some (h b)) : (bs.map g).mapM f = some (bs.map h) := by
  induction bs with
  | nil => rfl
  | cons b bs ih =>
    have hb := hread b List.mem_cons_self
    have hbs := ih fun c hc => hread c (List.mem_cons_of_mem _ hc)
    simp [List.mapM_cons, hb, hbs]

/-- The fields of a record are read back one by one, those that are absent as absent. -/
theorem fields?_record {present : List (String × Option Json)} (hnames : present.map Prod.fst = names)
    (hnodup : names.Nodup) :
    fields? names (ofJson (Json.record present)) = some (present.map fun m => m.2.map ofJson) := by
  subst hnames
  refine mapM_eq_some fun m hm => ?_
  rw [memberOnce?_ofMembers (Json.ascending_foldl_insertMember List.Pairwise.nil),
    Json.lookup_foldl_insertMember, Json.lookup_present hnodup hm]
  simp

/-! Typed parts of a record. -/

theorem optional_map {o : Option α} (hread : ∀ a, f (ofJson (g a)) = some a)
    (hpresent : ∀ a, ofJson (g a) ≠ null) : optional f ((o.map g).map ofJson) = some o := by
  cases o with
  | none => rfl
  | some a =>
    have hnullable : nullable? f (ofJson (g a)) = some (some a) := by
      rw [nullable?, hread a]
      · rfl
      · exact hpresent a
    exact hnullable

theorem of_defaulted {P : α → Prop} {default a : α} {o : Option Document} (hdefault : P default)
    (hf : ∀ d a, f d = some a → P a) (h : defaulted f default o = some a) : P a := by
  cases o with
  | none =>
    cases h
    exact hdefault
  | some d => exact hf d a h

theorem ordered_of_defaulted_details? {o : Option Document}
    (h : defaulted details? [] o = some ms) : (Json.object ms).Ordered :=
  of_defaulted (P := fun ms => (Json.object ms).Ordered) (.object .nil nofun)
    (fun _ _ => ordered_of_details?) h

theorem of_optional {P : α → Prop} {r : Option α} {o : Option Document}
    (hf : ∀ d a, d ≠ null → f d = some a → P a) (h : optional f o = some r) : ∀ a ∈ r, P a := by
  have hf' (d : Document) (r : Option α) (hr : nullable? f d = some r) : ∀ a ∈ r, P a := by
    unfold nullable? at hr
    split at hr
    · cases hr
      exact nofun
    · rename_i hnull
      obtain ⟨a, ha, rfl⟩ := Option.map_eq_some_iff.1 hr
      rintro _ ⟨⟩
      exact hf d a hnull ha
  exact of_defaulted nofun hf' h

theorem list?_ofList {as : List α} (hread : ∀ a ∈ as, f (ofJson (g a)) = some a) :
    list? f (ofJson (Json.ofList g as)) = some as := by
  have hall := mapM_eq_some (g := ofJson ∘ g) (h := id) hread
  rw [List.map_id, ← List.map_map, ← ofJsons_eq_map] at hall
  exact hall

end Document

end ControlPlane
