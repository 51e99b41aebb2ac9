/-! JSON values. Members of an object stand in ascending order of their names, each name once, so
that a value has one form. -/

namespace ControlPlane

/-- A whole number, or the bits of a binary floating-point number of 64 bits. The two are never
the same number, even where they denote the same quantity. -/
inductive Number
  | whole (n : Int)
  | double (bits : UInt64)
  deriving DecidableEq

namespace Number

/-- The bits without the sign are zero for both zeros. -/
def isZero (bits : UInt64) : Bool := bits <<< 1 == 0

/-- The two zeros of floating-point numbers agree, and otherwise only equal numbers do. -/
def agrees : Number → Number → Bool
  | whole m, whole n => m == n
  | double a, double b => a == b || (isZero a && isZero b)
  | _, _ => false

theorem agrees_refl (n : Number) : n.agrees n = true := by cases n <;> simp [agrees]

theorem agrees_comm (m n : Number) : m.agrees n = n.agrees m := by
  cases m <;> cases n <;> simp only [agrees]
  · exact Bool.beq_comm
  · rw [Bool.and_comm]
    congr 1
    exact Bool.beq_comm

end Number

inductive Json
  | null
  | bool (b : Bool)
  | number (n : Number)
  | string (s : String)
  | array (items : List Json)
  | object (members : List (String × Json))

namespace Json

instance : Inhabited Json := ⟨null⟩

def empty : Json := object []

def nat (n : Nat) : Json := number (.whole n)

/-- Adds a member in its place, or gives a new value to the one of that name. -/
def insertMember (name : String) (value : Json) : List (String × Json) → List (String × Json)
  | [] => [(name, value)]
  | (n, v) :: rest =>
    match compare name n with
    | .lt => (name, value) :: (n, v) :: rest
    | .eq => (name, value) :: rest
    | .gt => (n, v) :: insertMember name value rest

/-- The object with the given members; of members of one name the last counts. -/
def ofMembers (members : List (String × Json)) : Json :=
  object (members.foldl (fun acc (n, v) => insertMember n v acc) [])

/-- The object of the members that are present. -/
def record (members : List (String × Option Json)) : Json :=
  ofMembers (members.filterMap fun (n, v) => v.map (n, ·))

def orNull : Option Json → Json
  | some v => v
  | none => null

def ofList {α : Type} (f : α → Json) (xs : List α) : Json := array (xs.map f)

def member? (name : String) : Json → Option Json
  | object members => members.lookup name
  | _ => none

mutual

/-- Whether two values agree: all parts are the same and numbers agree. -/
def agrees : Json → Json → Bool
  | null, null => true
  | bool a, bool b => a == b
  | number a, number b => a.agrees b
  | string a, string b => a == b
  | array xs, array ys => agreesAll xs ys
  | object xs, object ys => agreesMembers xs ys
  | _, _ => false

def agreesAll : List Json → List Json → Bool
  | [], [] => true
  | x :: xs, y :: ys => agrees x y && agreesAll xs ys
  | _, _ => false

def agreesMembers : List (String × Json) → List (String × Json) → Bool
  | [], [] => true
  | (m, x) :: xs, (n, y) :: ys => m == n && agrees x y && agreesMembers xs ys
  | _, _ => false

end

mutual

theorem agrees_refl : ∀ v : Json, agrees v v = true
  | null => by simp [agrees]
  | bool _ => by simp [agrees]
  | number n => by simp [agrees, n.agrees_refl]
  | string _ => by simp [agrees]
  | array xs => by simp [agrees, agreesAll_refl xs]
  | object ms => by simp [agrees, agreesMembers_refl ms]

theorem agreesAll_refl : ∀ xs : List Json, agreesAll xs xs = true
  | [] => by simp [agreesAll]
  | x :: xs => by simp [agreesAll, agrees_refl x, agreesAll_refl xs]

theorem agreesMembers_refl : ∀ ms : List (String × Json), agreesMembers ms ms = true
  | [] => by simp [agreesMembers]
  | (m, x) :: ms => by simp [agreesMembers, agrees_refl x, agreesMembers_refl ms]

end

mutual

theorem agrees_comm : ∀ v w : Json, agrees v w = agrees w v
  | v, w => by
    cases v <;> cases w <;> simp only [agrees]
    · exact Bool.beq_comm
    · exact Number.agrees_comm _ _
    · exact Bool.beq_comm
    · exact agreesAll_comm _ _
    · exact agreesMembers_comm _ _

theorem agreesAll_comm : ∀ xs ys : List Json, agreesAll xs ys = agreesAll ys xs
  | [], [] => rfl
  | [], _ :: _ => by simp [agreesAll]
  | _ :: _, [] => by simp [agreesAll]
  | x :: xs, y :: ys => by simp only [agreesAll, agrees_comm x y, agreesAll_comm xs ys]

theorem agreesMembers_comm : ∀ ms ns : List (String × Json), agreesMembers ms ns = agreesMembers ns ms
  | [], [] => rfl
  | [], _ :: _ => by simp [agreesMembers]
  | _ :: _, [] => by simp [agreesMembers]
  | (m, x) :: ms, (n, y) :: ns => by
    simp only [agreesMembers, agrees_comm x y, agreesMembers_comm ms ns]
    rw [Bool.beq_comm]

end

mutual

/-- Changes the texts of a value by `f` and the names of its members by `g`. -/
def mapTexts (f g : String → String) : Json → Json
  | string s => string (f s)
  | array xs => array (mapTextsAll f g xs)
  | object ms => ofMembers (mapTextsMembers f g ms)
  | v => v

def mapTextsAll (f g : String → String) : List Json → List Json
  | [] => []
  | x :: xs => mapTexts f g x :: mapTextsAll f g xs

def mapTextsMembers (f g : String → String) : List (String × Json) → List (String × Json)
  | [] => []
  | (m, x) :: ms => (g m, mapTexts f g x) :: mapTextsMembers f g ms

end

end Json

end ControlPlane
