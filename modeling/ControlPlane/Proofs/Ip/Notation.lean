import ControlPlane.Ip.Notation
import ControlPlane.Proofs.Text.Numerals

/-! Addresses that were written are read back, in either notation. -/

namespace ControlPlane.Ip

open Text

variable {base width n slots : Nat} {cs rest : List Char} {gs : List Nat}

theorem numeral?_digits {leadingZeros : Bool} (hb : 1 < base) (hb' : base ≤ 16) (hwidth : 0 < width)
    (hn : n < base ^ width) (hrest : Stops base rest) :
    numeral? base width leadingZeros (digits base n ++ rest) = some (n, rest) := by
  have hlength : (digits base n).length ≤ width := (Nat.length_toDigits_le_iff hb hwidth).2 hn
  have hfits : ¬ ((digits base n).length > width ∨
      (!leadingZeros ∧ (digits base n).length > 1 ∧ (digits base n).head? = some '0')) := by
    rintro (h | ⟨-, h, hhead⟩)
    · omega
    · have := length_digits_of_head? hb hb' hhead
      omega
  simp only [numeral?, spanDigits_append (isDigit_of_mem_digits hb hb') hrest, if_neg hfits,
    ofDigits?_digits hb hb', Option.map_some]

theorem octet?_digits (hn : n < 256) (hrest : Stops 10 rest) :
    octet? (digits 10 n ++ rest) = some (n, rest) := by
  rw [octet?, numeral?_digits (by decide) (by decide) (by decide) (by omega) hrest]
  exact if_pos hn

theorem dotted?_dottedChars (hrest : Stops 10 rest) :
    dotted? (Address.dottedChars n ++ rest) = some (n % 4294967296, rest) := by
  have hpoint : ∀ more, Stops 10 ('.' :: more) := fun more => stops_cons (by decide)
  have hvalue : ((n / 16777216 % 256 * 256 + n / 65536 % 256) * 256 + n / 256 % 256) * 256 + n % 256 =
      n % 4294967296 := by omega
  have hbyte : ∀ m, m % 256 < 256 := fun m => Nat.mod_lt m (by decide)
  simp only [Address.dottedChars, dotted?, List.append_assoc, List.cons_append, Option.bind_eq_bind,
    Option.bind_some, octet?_digits (hbyte _) (hpoint _), octet?_digits (hbyte _) hrest, character?,
    if_true]
  simpa using hvalue

/-! Dots and colons tell the notations apart. -/

theorem numeral?_suffix {leadingZeros : Bool}
    (h : numeral? base width leadingZeros cs = some (n, rest)) : rest <:+ cs := by
  simp only [numeral?] at h
  by_cases hrefused : (spanDigits base cs).1.length > width ∨
      (!leadingZeros ∧ (spanDigits base cs).1.length > 1 ∧ (spanDigits base cs).1.head? = some '0')
  · rw [if_pos hrefused] at h
    cases h
  · rw [if_neg hrefused] at h
    obtain ⟨m, -, hpair⟩ := Option.map_eq_some_iff.1 h
    cases hpair
    exact List.dropWhile_suffix (isDigit base)

theorem octet?_suffix (h : octet? cs = some (n, rest)) : rest <:+ cs := by
  unfold octet? at h
  cases hnumeral : numeral? 10 3 false cs with
  | none => simp [hnumeral] at h
  | some found =>
    simp only [hnumeral, Option.ite_none_right_eq_some, Option.some.injEq] at h
    exact numeral?_suffix (hnumeral.trans (congrArg some h.2))

theorem dotted?_eq_none (h : '.' ∉ cs) : dotted? cs = none := by
  rw [dotted?]
  cases hoctet : octet? cs with
  | none => rfl
  | some found =>
    obtain ⟨n, rest⟩ := found
    have hpoint : character? '.' rest = none := by
      cases rest with
      | nil => rfl
      | cons d rest =>
        have hd : d ∈ cs := (octet?_suffix hoctet).subset List.mem_cons_self
        exact if_neg fun heq => h (by rwa [heq])
    simp [hpoint]

theorem numeral?_eq_none {leadingZeros : Bool} (h : Stops base cs) :
    numeral? base width leadingZeros cs = none := by
  have hspan : spanDigits base ([] ++ cs) = ([], cs) := spanDigits_append nofun h
  rw [List.nil_append] at hspan
  simp [numeral?, hspan, ofDigits?]

/-- What ends a list of groups: the end of the text, or the two colons of a gap. -/
def Ends (rest : List Char) : Prop := rest = [] ∨ ∃ more, rest = ':' :: ':' :: more

/-- Groups after the first, each with its colon. -/
def furtherGroups (gs : List Nat) : List Char := gs.flatMap fun g => ':' :: digits 16 g

theorem joinGroups_cons (g : Nat) (gs : List Nat) :
    Address.joinGroups (g :: gs) = digits 16 g ++ furtherGroups gs := by
  induction gs generalizing g with
  | nil => simp [Address.joinGroups, furtherGroups]
  | cons h gs ih =>
    have hjoin : Address.joinGroups (g :: h :: gs) =
        digits 16 g ++ ':' :: Address.joinGroups (h :: gs) := by
      simp [Address.joinGroups, List.intercalate_cons_cons]
    rw [hjoin, ih h]
    simp [furtherGroups]

theorem point_not_mem_digits : '.' ∉ digits 16 n := fun h => by
  have := isDigit_of_mem_digits (by decide) (by decide) _ h
  exact absurd this (by decide)

theorem point_not_mem_furtherGroups : '.' ∉ furtherGroups gs := by
  intro h
  obtain ⟨g, -, hg⟩ := List.mem_flatMap.1 h
  rcases List.mem_cons.1 hg with hcolon | hdigit
  · exact absurd hcolon (by decide)
  · exact point_not_mem_digits hdigit

theorem point_not_mem_joinGroups : '.' ∉ Address.joinGroups gs := by
  cases gs with
  | nil => simp [Address.joinGroups]
  | cons g gs =>
    rw [joinGroups_cons, List.mem_append, not_or]
    exact ⟨point_not_mem_digits, point_not_mem_furtherGroups⟩

theorem Ends.stops (h : Ends rest) : Stops 16 rest := by
  rcases h with rfl | ⟨more, rfl⟩
  · exact stops_nil
  · exact stops_cons (by decide)

theorem stops_furtherGroups (h : Stops 16 rest) : Stops 16 (furtherGroups gs ++ rest) := by
  cases gs with
  | nil => exact h
  | cons g gs => exact stops_cons (by decide)

/-- No group is read where a gap or the end is. -/
theorem groups_ends {first : Bool} (h : Ends rest) : groups slots first rest = ([], false, rest) := by
  cases slots with
  | zero => rfl
  | succ slots =>
    cases first with
    | true =>
      have hnumeral : numeral? 16 4 true rest = none := numeral?_eq_none h.stops
      have hdotted : dotted? rest = none := by
        rcases h with rfl | ⟨more, rfl⟩ <;> rfl
      simp [groups, hdotted, hnumeral]
    | false =>
      rcases h with rfl | ⟨more, rfl⟩
      · rfl
      · have hnumeral : numeral? 16 4 true (':' :: more) = none :=
          numeral?_eq_none (stops_cons (by decide))
        have hdotted : dotted? (':' :: more) = none := rfl
        simp [groups, character?, hdotted, hnumeral]

theorem groups_digits (slots : Nat) (first : Bool) {g : Nat} {body : List Char} (hg : g < 65536)
    (hbody : body = digits 16 g ++ rest) (hdotted : dotted? body = none) (hrest : Stops 16 rest) :
    groups (slots + 1) first (if first then body else ':' :: body) =
      (g :: (groups slots false rest).1, (groups slots false rest).2) := by
  have hnumeral : numeral? 16 4 true body = some (g, rest) := by
    rw [hbody]
    exact numeral?_digits (by decide) (by decide) (by decide) hg hrest
  cases first <;> simp [groups, character?, hdotted, hnumeral]

theorem groups_octets (h : dotted? cs = some (n, rest)) :
    groups (slots + 2) false (':' :: cs) = ([n / 65536, n % 65536], true, rest) := by
  simp [groups, character?, h]

theorem groups_furtherGroups (hlength : gs.length ≤ slots) (hgs : ∀ g ∈ gs, g < 65536)
    (hpoint : '.' ∉ rest) (hrest : Ends rest) :
    groups slots false (furtherGroups gs ++ rest) = (gs, false, rest) := by
  induction gs generalizing slots with
  | nil => exact groups_ends hrest
  | cons g gs ih =>
    obtain ⟨slots, rfl⟩ : ∃ k, slots = k + 1 := ⟨slots - 1, by simp at hlength; omega⟩
    have hmore : '.' ∉ digits 16 g ++ (furtherGroups gs ++ rest) := by
      simp [point_not_mem_digits, point_not_mem_furtherGroups, hpoint]
    have hread := groups_digits slots false (hgs g List.mem_cons_self) rfl
      (dotted?_eq_none hmore) (stops_furtherGroups hrest.stops)
    have htail : groups slots false (furtherGroups gs ++ rest) = (gs, false, rest) :=
      ih (by simpa using hlength) fun h hh => hgs h (List.mem_cons_of_mem _ hh)
    rw [htail] at hread
    simpa [furtherGroups] using hread

theorem groups_joinGroups (hlength : gs.length ≤ slots) (hgs : ∀ g ∈ gs, g < 65536)
    (hpoint : '.' ∉ rest) (hrest : Ends rest) :
    groups slots true (Address.joinGroups gs ++ rest) = (gs, false, rest) := by
  cases gs with
  | nil => exact groups_ends hrest
  | cons g gs =>
    obtain ⟨slots, rfl⟩ : ∃ k, slots = k + 1 := ⟨slots - 1, by simp at hlength; omega⟩
    have hmore : '.' ∉ digits 16 g ++ (furtherGroups gs ++ rest) := by
      simp [point_not_mem_digits, point_not_mem_furtherGroups, hpoint]
    have hread := groups_digits slots true (hgs g List.mem_cons_self) rfl
      (dotted?_eq_none hmore) (stops_furtherGroups hrest.stops)
    have htail : groups slots false (furtherGroups gs ++ rest) = (gs, false, rest) :=
      groups_furtherGroups (by simpa using hlength) (fun h hh => hgs h (List.mem_cons_of_mem _ hh))
        hpoint hrest
    rw [joinGroups_cons, List.append_assoc]
    rwa [htail] at hread

/-! The gap stands for zeros. -/

/-- A place and a length at which a list has zeros only. -/
def Zeros (gs : List Nat) (run : Nat × Nat) : Prop :=
  ∃ before after, gs = before ++ List.replicate run.2 0 ++ after ∧ before.length = run.1

theorem zeros_none : Zeros gs (0, 0) := ⟨[], gs, by simp⟩

theorem zeros_longestZeros {position : Nat} {run best : Nat × Nat} {done : List Nat}
    (hposition : done.length = position) (hbest : Zeros (done ++ gs) best)
    (hrun : run.2 = 0 ∨ ∃ before, done = before ++ List.replicate run.2 0 ∧ before.length = run.1) :
    Zeros (done ++ gs) (Address.longestZeros position run best gs) := by
  induction gs generalizing position run best done with
  | nil => exact hbest
  | cons g gs ih =>
    have hsplit : done ++ g :: gs = (done ++ [g]) ++ gs := by simp
    rw [hsplit] at hbest ⊢
    by_cases hg : g = 0
    · subst hg
      -- the run goes on, or starts here
      obtain ⟨before, hbefore, hstart⟩ : ∃ before,
          done ++ [0] = before ++ List.replicate (run.2 + 1) 0 ∧
          before.length = if run.2 = 0 then position else run.1 := by
        by_cases hzero : run.2 = 0
        · exact ⟨done, by simp [hzero], by simp [hzero, hposition]⟩
        · obtain ⟨before, hdone, hlength⟩ := hrun.resolve_left hzero
          exact ⟨before, by simp [hdone, List.replicate_succ'], by simp [hzero, hlength]⟩
      have hnow : Zeros ((done ++ [0]) ++ gs) (if run.2 = 0 then position else run.1, run.2 + 1) :=
        ⟨before, gs, by simp [hbefore], hstart⟩
      simp only [Address.longestZeros, if_true]
      refine ih (by simp [hposition]) ?_ (Or.inr ⟨before, hbefore, hstart⟩)
      split
      · exact hnow
      · exact hbest
    · simp only [Address.longestZeros, if_neg hg]
      exact ih (by simp [hposition]) hbest (Or.inl rfl)

/-- The number that groups make. -/
def groupsValue (gs : List Nat) : Nat := gs.foldl (· * 65536 + ·) 0

theorem groupsOf_lt : ∀ g ∈ Address.groupsOf n, g < 65536 := by
  intro g hg
  obtain ⟨k, -, rfl⟩ := List.mem_map.1 hg
  exact Nat.mod_lt _ (by decide)

theorem groupsValue_groupsOf (hn : n < 2 ^ 128) : groupsValue (Address.groupsOf n) = n := by
  simp only [groupsValue, Address.groupsOf, List.range, List.range.loop, List.map_cons, List.map_nil,
    List.foldl_cons, List.foldl_nil, Nat.reduceSub, Nat.pow_eq, Nat.reducePow] at hn ⊢
  omega

theorem grouped?_joinGroups (hlength : gs.length = 8) (hgs : ∀ g ∈ gs, g < 65536) :
    grouped? (Address.joinGroups gs) = some (groupsValue gs, []) := by
  have hread : groups 8 true (Address.joinGroups gs ++ []) = (gs, false, []) :=
    groups_joinGroups (by omega) hgs (by simp) (Or.inl rfl)
  rw [List.append_nil] at hread
  simp [grouped?, hread, hlength, groupsValue]

theorem grouped?_gap {before after : List Nat} {zeros : Nat} (hzeros : 0 < zeros)
    (hlength : before.length + zeros + after.length = 8)
    (hgs : ∀ g ∈ before ++ List.replicate zeros 0 ++ after, g < 65536) :
    grouped? (Address.joinGroups before ++ ':' :: ':' :: Address.joinGroups after) =
      some (groupsValue (before ++ List.replicate zeros 0 ++ after), []) := by
  have hpoint : '.' ∉ ':' :: ':' :: Address.joinGroups after := by
    simp [point_not_mem_joinGroups]
  have hhead : groups 8 true (Address.joinGroups before ++ ':' :: ':' :: Address.joinGroups after) =
      (before, false, ':' :: ':' :: Address.joinGroups after) :=
    groups_joinGroups (by omega) (fun g hg => hgs g (by simp [hg])) hpoint (Or.inr ⟨_, rfl⟩)
  have htail : groups (7 - before.length) true (Address.joinGroups after ++ []) = (after, false, []) :=
    groups_joinGroups (by omega) (fun g hg => hgs g (by simp [hg])) (by simp) (Or.inl rfl)
  rw [List.append_nil] at htail
  have hshort : before.length ≠ 8 := by omega
  have hgap : 8 - before.length - after.length = zeros := by omega
  simp [grouped?, hhead, htail, hshort, hgap, groupsValue]

theorem grouped?_groupedChars (hn : n < 2 ^ 128) :
    grouped? (Address.groupedChars n) = some (n, []) := by
  have hlength : (Address.groupsOf n).length = 8 := by simp [Address.groupsOf]
  have hvalue := groupsValue_groupsOf hn
  have hlt := groupsOf_lt (n := n)
  have hrun : Zeros ([] ++ Address.groupsOf n)
      (Address.longestZeros 0 (0, 0) (0, 0) (Address.groupsOf n)) :=
    zeros_longestZeros rfl zeros_none (Or.inl rfl)
  rw [List.nil_append] at hrun
  unfold Address.groupedChars
  generalize Address.groupsOf n = gs at *
  cases hbest : Address.longestZeros 0 (0, 0) (0, 0) gs with
  | mk start zeros =>
  obtain ⟨before, after, hsplit, hstart⟩ := hrun
  simp only [hbest] at hsplit hstart ⊢
  by_cases hgap : zeros > 1
  · rw [if_pos hgap]
    have htake : gs.take start = before := by
      rw [hsplit, List.append_assoc, ← hstart, List.take_left]
    have hdrop : gs.drop (start + zeros) = after := by
      rw [hsplit, ← hstart, List.drop_left' (by simp)]
    rw [htake, hdrop, grouped?_gap (show 0 < zeros by omega), ← hsplit, hvalue]
    · rw [hsplit] at hlength
      simpa [Nat.add_assoc] using hlength
    · rwa [hsplit] at hlt
  · rw [if_neg hgap, grouped?_joinGroups hlength hlt, hvalue]

/-- The block for IPv4 in IPv6. -/
theorem grouped?_mapped (hn : n / 4294967296 = 65535) :
    grouped? ("::ffff:".toList ++ Address.dottedChars (n % 4294967296)) = some (n, []) := by
  have hoctets : dotted? (Address.dottedChars (n % 4294967296) ++ []) =
      some (n % 4294967296 % 4294967296, []) := dotted?_dottedChars stops_nil
  rw [List.append_nil, Nat.mod_mod] at hoctets
  generalize Address.dottedChars (n % 4294967296) = octets at *
  have hhead : groups 8 true ("::ffff:".toList ++ octets) = ([], false, "::ffff:".toList ++ octets) :=
    groups_ends (Or.inr ⟨_, rfl⟩)
  have htail : groups 7 true ("ffff:".toList ++ octets) =
      ([65535, n % 4294967296 / 65536, n % 4294967296 % 65536], true, []) := by
    have hread : groups 7 true ("ffff:".toList ++ octets) =
        (65535 :: (groups 6 false (':' :: octets)).1, (groups 6 false (':' :: octets)).2) :=
      groups_digits 6 true (by decide) rfl rfl (stops_cons (by decide))
    rwa [groups_octets hoctets] at hread
  have hvalue : (65535 * 65536 + n % 4294967296 / 65536) * 65536 + n % 4294967296 % 65536 = n := by
    omega
  rw [grouped?, hhead]
  change some (groupsValue (List.replicate (8 - (groups 7 true ("ffff:".toList ++ octets)).1.length) 0 ++
    (groups 7 true ("ffff:".toList ++ octets)).1), (groups 7 true ("ffff:".toList ++ octets)).2.2) = _
  rw [htail]
  simpa [groupsValue] using hvalue

namespace Address

theorem point_not_mem_groupedChars : '.' ∉ groupedChars n := by
  simp only [groupedChars]
  split <;> simp [point_not_mem_joinGroups]

theorem ofString?_toString (a : Address) : ofString? a.toString = some a := by
  have hvalue := a.value_lt
  rw [Address.toString, ofString?, String.toList_ofList, toChars]
  cases hfamily : a.family with
  | v4 =>
    rw [hfamily] at hvalue
    have hread : dotted? (dottedChars a.value ++ []) = some (a.value % 4294967296, []) :=
      dotted?_dottedChars stops_nil
    rw [List.append_nil, Nat.mod_eq_of_lt (show a.value < 4294967296 from hvalue)] at hread
    simp only [ofChars?, hread]
    rw [← hfamily, ofValue?_value]
  | v6 =>
    rw [hfamily] at hvalue
    by_cases hmapped : a.value / Nat.pow 2 32 = 65535
    · have hdotted : dotted? ("::ffff:".toList ++ dottedChars (a.value % Nat.pow 2 32)) = none := rfl
      simp only [ofChars?, if_pos hmapped, hdotted]
      rw [show Nat.pow 2 32 = 4294967296 from rfl] at hmapped ⊢
      simp only [grouped?_mapped hmapped]
      rw [← hfamily, ofValue?_value]
    · simp only [ofChars?, if_neg hmapped, dotted?_eq_none point_not_mem_groupedChars,
        grouped?_groupedChars hvalue]
      rw [← hfamily, ofValue?_value]

end Address

end ControlPlane.Ip
