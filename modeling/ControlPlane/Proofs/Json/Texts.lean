import ControlPlane.Proofs.Json.Members
import ControlPlane.Proofs.Json.Tokens

/-! Values that were written are read back, unless their parts stand too deep inside each other. -/

namespace ControlPlane.Json

open Reading

variable {room : Nat} {j : Json} {rest txt : List Char} {token : Token} {r : Reading}
  {frames : List Frame}

/-- Goes on reading with the tokens of a text. -/
def read (r : Reading) (cs : List Char) : Option Reading := do (← tokens? cs).foldlM step? r

theorem read_nil : read r [] = some r := by simp [read, tokens?]

theorem isBlank_of_token? {cs : List Char} (h : token? cs = some (token, rest)) :
    ∀ c ∈ cs.head?, isBlank c = false := by
  intro c hc
  obtain ⟨cs, rfl⟩ := List.head?_eq_some_iff.1 hc
  by_contra hblank
  simp only [isBlank, Bool.not_eq_false, Bool.or_eq_true, decide_eq_true_eq] at hblank
  obtain ((rfl | rfl) | rfl) | rfl := hblank <;>
    simp [token?, numeralToken?, Text.spanDigits, Text.isDigit, Text.digit?] at h

theorem tokens?_append (h : token? (txt ++ rest) = some (token, rest)) (hne : txt ≠ []) :
    tokens? (txt ++ rest) = (tokens? rest).map (token :: ·) := by
  obtain ⟨c, txt, rfl⟩ := List.exists_cons_of_ne_nil hne
  have hblank := isBlank_of_token? h c rfl
  have hshort : rest.length < (c :: (txt ++ rest)).length := by
    rw [List.length_cons, List.length_append]
    omega
  have hdrop : (c :: (txt ++ rest)).dropWhile isBlank = c :: (txt ++ rest) := by simp [hblank]
  rw [List.cons_append] at h ⊢
  rw [tokens?]
  split
  · rename_i heq
    rw [hdrop] at heq
    cases heq
  · rename_i heq
    rw [hdrop] at heq
    cases heq
    simp only [h, if_pos hshort]

theorem read_token (h : token? (txt ++ rest) = some (token, rest)) (hne : txt ≠ []) :
    read r (txt ++ rest) = (step? r token).bind fun r => read r rest := by
  rw [read, tokens?_append h hne]
  cases hstep : step? r token <;> cases htokens : tokens? rest <;> simp [read, hstep, htokens]

/-- A token that is a single character. -/
theorem read_mark {c : Char} (h : token? (c :: rest) = some (token, rest)) {r' : Reading}
    (hstep : step? r token = some r') : read r (c :: rest) = read r' rest := by
  have hread : read r ([c] ++ rest) = (step? r token).bind fun r => read r rest :=
    read_token h (List.cons_ne_nil _ _)
  rwa [hstep] at hread

/-- Whether the text of a value is read as this value wherever there is room for it. -/
def Reads (room : Nat) (j : Json) : Prop :=
  ∀ (frames : List Frame) (next : Expectation) (rest : List Char),
    frames.length + room ≤ Document.maxDepth → next = .value ∨ next = .itemOrClose →
    EndsNumeral rest → read ⟨frames, next, .null⟩ (write rest j) = read (deliver (.ofJson j) frames) rest

/-- Numbers are read from their texts as they were, and arrays and objects stand at most `room` deep
inside each other. -/
inductive Legible : Nat → Json → Prop
  | null {room : Nat} : Legible room null
  | bool {room : Nat} (b : Bool) : Legible room (bool b)
  | number {room : Nat} {n : Number} (h : n.Legible) : Legible room (number n)
  | string {room : Nat} (s : String) : Legible room (string s)
  | array {room : Nat} {items : List Json} (h : ∀ x ∈ items, Legible room x) :
    Legible (room + 1) (array items)
  | object {room : Nat} {members : List (String × Json)} (h : ∀ m ∈ members, Legible room m.2) :
    Legible (room + 1) (object members)

theorem read_leaf (txt : List Char) {d : Document} {next : Expectation}
    (h : token? (txt ++ rest) = some (.leaf d, rest)) (hne : txt ≠ [])
    (hnext : next = .value ∨ next = .itemOrClose) :
    read ⟨frames, next, .null⟩ (txt ++ rest) = read (deliver d frames) rest := by
  rw [read_token h hne]
  rcases hnext with rfl | rfl <;> rfl

theorem endsNumeral_writeItems (xs : List Json) : EndsNumeral (writeItems rest xs) := by
  cases xs <;> exact endsNumeral_cons (by decide)

theorem endsNumeral_writeMembers (ms : List (String × Json)) :
    EndsNumeral (writeMembers rest ms) := by
  cases ms <;> exact endsNumeral_cons (by decide)

theorem close_array {items : List Document} {enclosing : Nat} (h : enclosing < Document.maxDepth) :
    close (.array items) enclosing = .array items.reverse := if_neg (by omega)

/-- The members of an object that is being read, with their names. -/
def named (members : List (String × Document)) : List (Option String × Document) :=
  members.map fun m => (some m.1, m.2)

theorem close_object {members : List (String × Document)} {enclosing : Nat}
    (h : enclosing < Document.maxDepth) :
    close (.object (named members) none) enclosing = .object members.reverse := by
  have hnames : (named members).reverse.mapM (fun m => m.1.map (·, m.2)) = some members.reverse := by
    have hall : (members.reverse.map fun m => (some m.1, m.2)).mapM
        (fun m : Option String × Document => m.1.map (·, m.2)) = some (members.reverse.map id) :=
      Document.mapM_eq_some fun m _ => rfl
    rwa [List.map_id, List.map_reverse] at hall
  rw [close, if_neg (by omega), hnames]

theorem read_writeItems {xs : List Json} (hread : ∀ x ∈ xs, Reads room x) {items : List Document}
    (hroom : frames.length + (room + 1) ≤ Document.maxDepth) :
    read ⟨.array items :: frames, .commaOrClose, .null⟩ (writeItems rest xs) =
      read (deliver (.array (items.reverse ++ Document.ofJsons xs)) frames) rest := by
  induction xs generalizing items with
  | nil =>
    have hstep : step? ⟨.array items :: frames, .commaOrClose, .null⟩ .closeArray =
        some (deliver (.array (items.reverse ++ Document.ofJsons [])) frames) := by
      simp [step?, close_array (show frames.length < Document.maxDepth by omega), Document.ofJsons]
    exact read_mark rfl hstep
  | cons x xs ih =>
    have hx := hread x List.mem_cons_self (.array items :: frames) .value (writeItems rest xs)
      (by simp; omega) (Or.inl rfl) (endsNumeral_writeItems xs)
    rw [writeItems, read_mark rfl rfl, hx, deliver,
      ih fun y hy => hread y (List.mem_cons_of_mem _ hy)]
    simp [Document.ofJsons]

theorem read_name {members : List (Option String × Document)} {name : Option String} {n : String}
    {next : Expectation} (hnext : next = .name ∨ next = .nameOrClose) :
    read ⟨.object members name :: frames, next, .null⟩ (quoted n ++ ':' :: rest) =
      read ⟨.object members (some n) :: frames, .value, .null⟩ rest := by
  have hcolon : read ⟨.object members (some n) :: frames, .colon, .null⟩ (':' :: rest) =
      read ⟨.object members (some n) :: frames, .value, .null⟩ rest := read_mark rfl rfl
  rw [read_token (token?_quoted n) (List.cons_ne_nil _ _)]
  rcases hnext with rfl | rfl <;> exact hcolon

theorem read_writeMembers {ms : List (String × Json)} (hread : ∀ m ∈ ms, Reads room m.2)
    {members : List (String × Document)} (hroom : frames.length + (room + 1) ≤ Document.maxDepth) :
    read ⟨.object (named members) none :: frames, .commaOrClose, .null⟩ (writeMembers rest ms) =
      read (deliver (.object (members.reverse ++ Document.ofMembers ms)) frames) rest := by
  induction ms generalizing members with
  | nil =>
    have hstep : step? ⟨.object (named members) none :: frames, .commaOrClose, .null⟩ .closeObject =
        some (deliver (.object (members.reverse ++ Document.ofMembers [])) frames) := by
      simp [step?, close_object (show frames.length < Document.maxDepth by omega), Document.ofMembers]
    exact read_mark rfl hstep
  | cons m ms ih =>
    obtain ⟨n, x⟩ := m
    have hx := hread (n, x) List.mem_cons_self (.object (named members) (some n) :: frames) .value
      (writeMembers rest ms) (by simp; omega) (Or.inl rfl) (endsNumeral_writeMembers ms)
    have hms : read ⟨.object (named ((n, .ofJson x) :: members)) none :: frames, .commaOrClose, .null⟩
        (writeMembers rest ms) = _ := ih fun m hm => hread m (List.mem_cons_of_mem _ hm)
    rw [writeMembers, List.cons_append, read_mark rfl rfl, read_name (Or.inl rfl), hx]
    rw [List.reverse_cons, List.append_assoc] at hms
    exact hms

theorem reads (h : Legible room j) : Reads room j := by
  induction h with
  | null => exact fun frames next rest _ hnext _ => read_leaf "null".toList rfl (by simp) hnext
  | bool b =>
    intro frames next rest _ hnext _
    cases b with
    | true => exact read_leaf "true".toList rfl (by simp) hnext
    | false => exact read_leaf "false".toList rfl (by simp) hnext
  | @number room n h =>
    intro frames next rest _ hnext hrest
    have hne : numberChars n ≠ [] := by
      intro hnil
      rw [Number.Legible, hnil] at h
      cases h
    exact read_leaf (numberChars n) (token?_number h hrest) hne hnext
  | string s =>
    intro frames next rest _ hnext _
    rw [write, read_token (token?_quoted s) (List.cons_ne_nil _ _)]
    rcases hnext with rfl | rfl <;> rfl
  | @array room items h ih =>
    intro frames next rest hroom hnext _
    have hopen : step? ⟨frames, next, .null⟩ .openArray =
        some ⟨.array [] :: frames, .itemOrClose, .null⟩ := by
      rcases hnext with rfl | rfl <;> rfl
    cases items with
    | nil =>
      have hclose : step? ⟨.array [] :: frames, .itemOrClose, .null⟩ .closeArray =
          some (deliver (.array []) frames) := by
        simp [step?, close_array (show frames.length < Document.maxDepth by omega)]
      rw [write, read_mark rfl hopen, read_mark rfl hclose]
      rfl
    | cons x xs =>
      have hx := ih x List.mem_cons_self (.array [] :: frames) .itemOrClose (writeItems rest xs)
        (by simp; omega) (Or.inr rfl) (endsNumeral_writeItems xs)
      have hxs : read ⟨.array [.ofJson x] :: frames, .commaOrClose, .null⟩ (writeItems rest xs) = _ :=
        read_writeItems (fun y hy => ih y (List.mem_cons_of_mem _ hy)) hroom
      rw [write, read_mark rfl hopen, hx]
      exact hxs
  | @object room members h ih =>
    intro frames next rest hroom hnext _
    have hopen : step? ⟨frames, next, .null⟩ .openObject =
        some ⟨.object [] none :: frames, .nameOrClose, .null⟩ := by
      rcases hnext with rfl | rfl <;> rfl
    cases members with
    | nil =>
      have hclose : step? ⟨.object [] none :: frames, .nameOrClose, .null⟩ .closeObject =
          some (deliver (.object []) frames) := by
        have hempty : close (.object (named []) none) frames.length = .object [] :=
          close_object (show frames.length < Document.maxDepth by omega)
        exact congrArg (fun d => some (deliver d frames)) hempty
      rw [write, read_mark rfl hopen, read_mark rfl hclose]
      rfl
    | cons m ms =>
      obtain ⟨n, x⟩ := m
      have hx := ih (n, x) List.mem_cons_self (.object [] (some n) :: frames) .value
        (writeMembers rest ms) (by simp; omega) (Or.inl rfl) (endsNumeral_writeMembers ms)
      have hms : read ⟨.object (named [(n, .ofJson x)]) none :: frames, .commaOrClose, .null⟩
          (writeMembers rest ms) = _ :=
        read_writeMembers (fun m hm => ih m (List.mem_cons_of_mem _ hm)) hroom
      rw [write, List.cons_append, read_mark rfl hopen, read_name (Or.inr rfl), hx]
      exact hms

theorem ofString?_toString (h : Legible Document.maxDepth j) :
    Document.ofString? j.toString = some (.ofJson j) := by
  have hread := reads h [] .value [] (by simp) (Or.inl rfl) endsNumeral_nil
  rw [read_nil] at hread
  obtain ⟨tokens, htokens, hfold⟩ := Option.bind_eq_some_iff.1 hread
  rw [Document.ofString?, Json.toString, String.toList_ofList]
  simp only [htokens, Option.bind_eq_bind, Option.bind_some, start, hfold]
  rfl

theorem Legible.record {present : List (String × Option Json)}
    (h : ∀ m ∈ present, ∀ v ∈ m.2, Legible room v) : Legible (room + 1) (Json.record present) := by
  refine .object fun m hm => ?_
  rcases mem_foldl_insertMember hm with hm | hm
  · obtain ⟨a, ha, hvalue⟩ := List.mem_filterMap.1 hm
    obtain ⟨v, hv, rfl⟩ := Option.map_eq_some_iff.1 hvalue
    exact h a ha v hv
  · exact absurd hm List.not_mem_nil

end ControlPlane.Json
