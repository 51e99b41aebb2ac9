import ControlPlane.Interleaving
import ControlPlane.Proofs.Transaction
import ControlPlane.Store.Session

/-! Transactions as sessions. However a transaction is cut into parts, each of them finds the session
open, and the session is closed once. -/

namespace ControlPlane

namespace Session

variable {T α ε : Type} {tables own : T} {session used later : Session T} {supply rest : Supply}

/-- Runs a part of a transaction on the open tables. What it draws stays drawn. -/
def exec (session : Session T) (part : Tx T α) (supply : Supply) :
    Option (Except Error α × Session T × Supply) :=
  (session.apply fun tables => (part.attempt tables supply).1).map fun (answer, later) =>
    (answer, later, match session.handle with
      | some (.opened tables) => (part.attempt tables supply).2
      | _ => supply)

/-- A transaction uses a session at once or part by part, up to the first part that fails. -/
inductive Uses : {α : Type} → Session T → Supply → Tx T α → Except Error α → Session T → Supply → Prop
  | once {α : Type} {session later : Session T} {supply rest : Supply} {tx : Tx T α}
    {answer : Except Error α} (h : session.exec tx supply = some (answer, later, rest)) :
    Uses session supply tx answer later rest
  | next {α β : Type} {session mid later : Session T} {supply between rest : Supply} {part : Tx T α}
    {a : α} {f : α → Tx T β} {answer : Except Error β}
    (first : Uses session supply part (.ok a) mid between)
    (second : Uses mid between (f a) answer later rest) :
    Uses session supply (part >>= f) answer later rest
  | stop {α β : Type} {session later : Session T} {supply rest : Supply} {part : Tx T α}
    {error : Error} {f : α → Tx T β} (first : Uses session supply part (.error error) later rest) :
    Uses session supply (part >>= f) (.error error) later rest

/-- A transaction from its beginning to its end. It is given up if it fails, and else it is committed
or rolled back, as its answer says. -/
inductive Transacts (close : ε → Bool × Except Error α) (session : Session T) (supply : Supply)
    (tx : Tx T ε) : Except Error α → Session T → Supply → Prop
  | gaveUp {opened used : Session T} {rest : Supply} {error : Error}
    (begun : session.begin? = some opened) (uses : Uses opened supply tx (.error error) used rest) :
    Transacts close session supply tx (.error error) used.drop.2 rest
  | committed {opened used closed : Session T} {rest : Supply} {ending : ε} {answer : Except Error α}
    {result : Except Error Unit} (begun : session.begin? = some opened)
    (uses : Uses opened supply tx (.ok ending) used rest) (keeps : close ending = (true, answer))
    (commits : used.commit = some (result, closed)) :
    Transacts close session supply tx (result.bind fun () => answer) closed.drop.2 rest
  | rolledBack {opened used closed : Session T} {rest : Supply} {ending : ε} {answer : Except Error α}
    {result : Except Error Unit} (begun : session.begin? = some opened)
    (uses : Uses opened supply tx (.ok ending) used rest) (undoes : close ending = (false, answer))
    (rollsBack : used.rollback = some (result, closed)) :
    Transacts close session supply tx (result.bind fun () => answer) closed.drop.2 rest

theorem exec_opened (part : Tx T α) : exec ⟨tables, some (.opened own)⟩ part supply =
    match part.attempt own supply with
    | (.ok (answer, kept), rest) => some (.ok answer, ⟨tables, some (.opened kept)⟩, rest)
    | (.error error, rest) => some (.error error, ⟨tables, some (.opened own)⟩, rest) := by
  simp only [exec, apply, StateT.run, Option.map_some]
  rcases part.attempt own supply with ⟨_ | ⟨_, _⟩, _⟩ <;> rfl

/-- What a transaction leaves of an open session. -/
def Leaves (tables : T) (result : Except Error (α × T) × Supply) (answer : Except Error α)
    (later : Session T) (rest : Supply) : Prop :=
  match answer with
  | .ok a => ∃ kept, result = (.ok (a, kept), rest) ∧ later = ⟨tables, some (.opened kept)⟩
  | .error error => result = (.error error, rest) ∧ ∃ own, later = ⟨tables, some (.opened own)⟩

/-- Every part finds the session open and leaves it open, so that all parts come to the whole. -/
theorem Uses.leaves {tx : Tx T α} {answer : Except Error α}
    (h : Uses session supply tx answer later rest) (hopen : session = ⟨tables, some (.opened own)⟩) :
    Leaves tables (tx.attempt own supply) answer later rest := by
  induction h generalizing own with
  | @once _ _ _ supply _ tx _ h =>
    rw [hopen, exec_opened] at h
    rcases hrun : tx.attempt own supply with ⟨_ | ⟨_, kept⟩, _⟩ <;> rw [hrun] at h <;> cases h
    · exact ⟨rfl, own, rfl⟩
    · exact ⟨kept, rfl, rfl⟩
  | next first second ihfirst ihsecond =>
    obtain ⟨kept, hfirst, rfl⟩ := ihfirst hopen
    rw [Tx.attempt_bind, hfirst]
    exact ihsecond rfl
  | stop first ih =>
    obtain ⟨hfirst, hlater⟩ := ih hopen
    rw [Tx.attempt_bind, hfirst]
    exact ⟨rfl, hlater⟩

/-- What a transaction answers, and the tables that it leaves. -/
def outcome (close : ε → Bool × Except Error α) (tables : T) :
    Except Error (ε × T) → Except Error α × T
  | .error error => (.error error, tables)
  | .ok (ending, kept) => match close ending with
    | (true, answer) => (answer, kept)
    | (false, answer) => (answer, tables)

/-- A session that is used for a transaction answers as this does, and never that it is closed. -/
theorem transacts_iff {close : ε → Bool × Except Error α} {tx : Tx T ε} {answer : Except Error α} :
    Transacts close ⟨tables, none⟩ supply tx answer later rest ↔
      answer = (outcome close tables (tx.attempt tables supply).1).1 ∧
      later = ⟨(outcome close tables (tx.attempt tables supply).1).2, none⟩ ∧
      rest = (tx.attempt tables supply).2 := by
  constructor
  · intro h
    cases h with
    | gaveUp hbegun huses =>
      cases hbegun
      obtain ⟨hrun, own, rfl⟩ := huses.leaves rfl
      rw [hrun]
      exact ⟨rfl, rfl, rfl⟩
    | committed hbegun huses hkeeps hcommits =>
      cases hbegun
      obtain ⟨kept, hrun, rfl⟩ := huses.leaves rfl
      cases hcommits
      rw [hrun, outcome, hkeeps]
      exact ⟨rfl, rfl, rfl⟩
    | rolledBack hbegun huses hundoes hrollsBack =>
      cases hbegun
      obtain ⟨kept, hrun, rfl⟩ := huses.leaves rfl
      cases hrollsBack
      rw [hrun, outcome, hundoes]
      exact ⟨rfl, rfl, rfl⟩
  · rintro ⟨rfl, rfl, rfl⟩
    rcases hrun : tx.attempt tables supply with ⟨error | ⟨ending, kept⟩, drawn⟩
    · have huses : Uses ⟨tables, some (.opened tables)⟩ supply tx (.error error)
          ⟨tables, some (.opened tables)⟩ drawn := .once ((exec_opened tx).trans (by rw [hrun]))
      exact .gaveUp rfl huses
    · have huses : Uses ⟨tables, some (.opened tables)⟩ supply tx (.ok ending)
          ⟨tables, some (.opened kept)⟩ drawn := .once ((exec_opened tx).trans (by rw [hrun]))
      dsimp only [outcome]
      rcases hclose : close ending with ⟨_ | _, answer⟩
      · exact .rolledBack rfl huses hclose rfl
      · exact .committed rfl huses hclose rfl

/-- An error of a transaction is one of its own, or of how it means to end. -/
theorem Transacts.error {close : ε → Bool × Except Error α} {tx : Tx T ε} {error : Error}
    (h : Transacts close ⟨tables, none⟩ supply tx (.error error) later rest) :
    (tx.attempt tables supply).1 = .error error ∨
      ∃ ending kept, (tx.attempt tables supply).1 = .ok (ending, kept) ∧
        (close ending).2 = .error error := by
  obtain ⟨herror, _⟩ := transacts_iff.1 h
  rcases hrun : (tx.attempt tables supply).1 with own | ⟨ending, kept⟩
  · rw [hrun] at herror
    exact .inl (congrArg Except.error (Except.error.inj herror).symm)
  · rw [hrun, outcome] at herror
    refine .inr ⟨ending, kept, rfl, ?_⟩
    rcases hclose : close ending with ⟨_ | _, answer⟩ <;> rw [hclose] at herror <;>
      exact herror.symm

end Session

/-- Whether an ending keeps the tables, and what it answers. -/
def Ending.close {α : Type} : Ending α → Bool × Except Error α
  | .commit answer => (true, .ok answer)
  | .rollback answer => (false, .ok answer)

def Closing.close {α : Type} (refuser : Option (String × Error)) :
    Closing α → Bool × Except Error α
  | .commit answer => (true, .ok answer)
  | .rollback answer => (false, .ok answer)
  | .review drivers _ answer =>
    match verdict refuser drivers with
    | .ok () => (true, .ok answer)
    | .error error => (false, .error error)

open Session (outcome Transacts)

theorem State.runIpam_eq {α : Type} (state : State) (tx : Tx Ipam (Ending α)) :
    state.runIpam tx =
      let (result, supply) := tx.attempt state.ipam state.supply
      ((outcome Ending.close state.ipam result).1,
        { state with supply, ipam := (outcome Ending.close state.ipam result).2 }) := by
  unfold runIpam
  rcases tx.attempt state.ipam state.supply with ⟨_ | ⟨_ | _, _⟩, _⟩ <;> rfl

theorem State.runReviewed_eq {α : Type} (state : State) (refuser : Option (String × Error))
    (tx : Tx Ports (Closing α)) : state.runReviewed refuser tx =
      let (result, supply) := tx.attempt state.ports state.supply
      ((outcome (Closing.close refuser) state.ports result).1,
        { state with supply, ports := (outcome (Closing.close refuser) state.ports result).2 }) := by
  unfold runReviewed runPorts
  rcases tx.attempt state.ports state.supply with ⟨_ | ⟨_ | _ | ⟨drivers, _, _⟩, _⟩, _⟩
  · rfl
  · rfl
  · rfl
  · dsimp only [outcome, Closing.close]
    rcases verdict refuser drivers with _ | _ <;> rfl

namespace Call

variable {α : Type} {before after : State} {answer : Except Error α}

/-- Every transaction of the address store is a session that is closed once. -/
theorem result_ipam_iff {tx : Tx Ipam (Ending α)} :
    (Call.ipam tx).Result before answer after ↔ after.ports = before.ports ∧
      Transacts Ending.close ⟨before.ipam, none⟩ before.supply tx answer ⟨after.ipam, none⟩
        after.supply := by
  obtain ⟨ipam, ports, supply⟩ := after
  rw [Session.transacts_iff, Result, State.runIpam_eq]
  simp only [Prod.mk.injEq, State.mk.injEq, Session.mk.injEq, and_true]
  exact ⟨fun ⟨ha, hi, hp, hs⟩ => ⟨hp, ha, hi, hs⟩, fun ⟨hp, ha, hi, hs⟩ => ⟨ha, hi, hp, hs⟩⟩

/-- Every transaction of the port store is a session that is closed once. -/
theorem result_ports_iff {tx : Tx Ports (Closing α)} :
    (Call.ports tx).Result before answer after ↔ after.ipam = before.ipam ∧ ∃ refuser,
      Transacts (Closing.close refuser) ⟨before.ports, none⟩ before.supply tx answer
        ⟨after.ports, none⟩ after.supply := by
  obtain ⟨ipam, ports, supply⟩ := after
  simp only [Session.transacts_iff, Result, State.runReviewed_eq, Prod.mk.injEq, State.mk.injEq,
    Session.mk.injEq, and_true]
  exact ⟨fun ⟨refuser, ha, hi, hp, hs⟩ => ⟨hi, refuser, ha, hp, hs⟩,
    fun ⟨hi, refuser, ha, hp, hs⟩ => ⟨refuser, ha, hi, hp, hs⟩⟩

end Call

end ControlPlane
