import ControlPlane.Proofs.History

/-! Sound operations. A command keeps what holds of a run if it keeps it at each call that it makes
with its licence, and so do all operations that make no other calls. -/

namespace ControlPlane

/-- An operation that is sound as a program, with `post` when it does not fail. -/
def Operation.Sound (inv : List Move → State → Prop) (tag : Nat) {α : Type}
    (post : α → List Move → Prop) (past : List Move) (operation : Operation α) : Prop :=
  operation.run.Sound inv tag (fun result later => ∀ a, result = .ok a → post a later) past

section Rules

variable {inv : List Move → State → Prop} {tag : Nat} {α β : Type} {past : List Move}
  {post post' : α → List Move → Prop} {after : β → List Move → Prop}

namespace Operation

theorem sound_pure {a : α} (h : post a past) : Sound inv tag post past (pure a) := by
  intro b hb
  cases hb
  exact h

theorem Sound.mono {operation : Operation α} (h : operation.Sound inv tag post past)
    (hpost : ∀ a later, past <+: later → post a later → post' a later) :
    operation.Sound inv tag post' past :=
  Program.Sound.mono h fun _ later hlater ha a heq => hpost a later hlater (ha a heq)

theorem sound_throw {error : Error} : Sound inv tag post past (throw error : Operation α) := by
  intro b hb
  cases hb

theorem sound_throw_bind {error : Error} {f : β → Operation α} :
    Sound inv tag post past (throw error >>= f) := by
  intro b hb
  cases hb

theorem Sound.bind {operation : Operation α} {f : α → Operation β}
    (h : operation.Sound inv tag post past)
    (hf : ∀ a later, past <+: later → post a later → (f a).Sound inv tag after later) :
    (operation >>= f).Sound inv tag after past := by
  refine Program.Sound.bind h fun result later hlater hr => ?_
  cases result with
  | ok a => exact hf a later hlater (hr a rfl)
  | error error => exact sound_throw

theorem sound_bind_except {r : Except Error α} {f : α → Operation β}
    (h : ∀ a, r = .ok a → (f a).Sound inv tag after past) :
    Sound inv tag after past (liftM r >>= f) := by
  cases r with
  | ok a => exact h a rfl
  | error error => exact sound_throw

theorem Sound.orElse {operation : Operation α} {recover : Error → Operation α}
    (h : operation.Sound inv tag post past)
    (hr : ∀ error later, past <+: later → (recover error).Sound inv tag post later) :
    (operation.orElse recover).Sound inv tag post past := by
  refine Program.Sound.bind h fun result later hlater ha => ?_
  cases result with
  | ok a => exact ha
  | error error => exact hr error later hlater

theorem sound_lift {p : Program α} (h : p.Sound inv tag post past) :
    Sound inv tag post past (ExceptT.lift p) := by
  refine Program.Sound.bind h fun a later _ ha b hb => ?_
  cases hb
  exact ha

/-- What each step of a loop leads to holds of all steps at the end, if later moves keep it. -/
theorem sound_forM_each {ι : Type} {items : List ι} {body : ι → Operation Unit}
    {done : ι → List Move → Prop}
    (hdone : ∀ item later last, later <+: last → done item later → done item last)
    (h : ∀ item ∈ items, ∀ later, past <+: later →
      (body item).Sound inv tag (fun _ => done item) later) :
    (items.forM body).Sound inv tag (fun _ last => ∀ item ∈ items, done item last) past := by
  induction items generalizing past with
  | nil => exact sound_pure (List.forall_mem_nil _)
  | cons item items ih =>
    refine (h item List.mem_cons_self past (List.prefix_refl past)).bind fun _ later hlater hi => ?_
    have hrest := ih fun other hother last hlast =>
      h other (List.mem_cons_of_mem _ hother) last (hlater.trans hlast)
    exact hrest.mono fun _ last hlast ho => List.forall_mem_cons.2 ⟨hdone _ _ _ hlast hi, ho⟩

theorem sound_forM {ι : Type} {items : List ι} {body : ι → Operation Unit}
    (h : ∀ item ∈ items, ∀ later, past <+: later →
      (body item).Sound inv tag (fun _ _ => True) later) :
    (items.forM body).Sound inv tag (fun _ _ => True) past :=
  (sound_forM_each (fun _ _ _ _ h => h) h).mono fun _ _ _ _ => trivial

end Operation

end Rules

/-- An invariant that any call of a command keeps which it may make with its licence. -/
structure Keeps (setup : Setup) (inv : List Move → State → Prop) (tag : Nat) : Prop where
  orderly : ∀ ⦃moves state⦄, inv moves state → Orderly moves state
  call : ∀ ⦃α⦄ ⦃c : Call α⦄ ⦃moves before answer after⦄, c.Made setup (licence moves tag) →
    inv moves before → c.Result before answer after → after.supply.Distinct →
    inv (moves ++ [.call tag c before answer after]) after

namespace Keeps

variable {setup : Setup} {inv : List Move → State → Prop} {tag : Nat} {α : Type} {past : List Move}
  {post : α → List Move → Prop}

theorem program (hk : Keeps setup inv tag) {p : Program α}
    (h : ∀ moves state, past <+: moves → inv moves state →
      p.All (Call.Made setup (licence moves tag))) :
    p.Sound inv tag (fun _ _ => True) past := by
  induction p generalizing past with
  | done a => trivial
  | call c next ih =>
    intro others before answer after _ hinv hr hfresh
    have hlater := List.prefix_append past others
    refine ⟨hk.call (h _ before hlater hinv).1 hinv hr hfresh, ih answer fun moves state hm hi => ?_⟩
    exact (h moves state ((hlater.trans (List.prefix_append _ _)).trans hm) hi).2 answer

theorem makes (hk : Keeps setup inv tag) {operation : Operation α}
    (h : ∀ moves state, past <+: moves → inv moves state →
      operation.Makes (Call.Made setup (licence moves tag))) :
    operation.Sound inv tag (fun _ _ => True) past :=
  (hk.program h).mono fun _ _ _ _ _ _ => trivial

theorem ipam (hk : Keeps setup inv tag) {tx : Tx Ipam (Ending α)}
    (hm : ∀ moves state, past <+: moves → inv moves state →
      (Call.ipam tx).Made setup (licence moves tag))
    (hpost : ∀ others before a after, (∀ move ∈ others, move.tag ≠ tag) →
      inv (past ++ others) before → (.ok a, after) = before.runIpam tx →
      after.supply.Distinct →
      post a (past ++ others ++ [.call tag (.ipam tx) before (.ok a) after])) :
    (Operation.ipam tx).Sound inv tag post past := by
  intro others before answer after hothers hinv hr hfresh
  have hmade := hm _ before (List.prefix_append past others) hinv
  refine ⟨hk.call hmade hinv hr hfresh, fun a ha => ?_⟩
  subst ha
  exact hpost others before a after hothers hinv hr hfresh

theorem ports (hk : Keeps setup inv tag) {tx : Tx Ports (Closing α)}
    (hm : ∀ others state, (∀ move ∈ others, move.tag ≠ tag) → inv (past ++ others) state →
      (Call.ports tx).Made setup (licence (past ++ others) tag))
    (hpost : ∀ others before a after refuser, inv (past ++ others) before →
      (.ok a, after) = before.runReviewed refuser tx →
      after.supply.Distinct →
      post a (past ++ others ++ [.call tag (.ports tx) before (.ok a) after])) :
    (Operation.ports tx).Sound inv tag post past := by
  intro others before answer after hothers hinv hr hfresh
  have hmade := hm others before hothers hinv
  refine ⟨hk.call hmade hinv hr hfresh, fun a ha => ?_⟩
  subst ha
  obtain ⟨refuser, hr⟩ := hr
  exact hpost others before a after refuser hinv hr hfresh

theorem readIpam (hk : Keeps setup inv tag) (f : Ipam → α)
    (hpost : ∀ others before, (∀ move ∈ others, move.tag ≠ tag) → inv (past ++ others) before →
      post (f before.ipam) (past ++ others ++ [.call tag
        (.ipam do return .commit (f (← get))) before (.ok (f before.ipam)) before])) :
    (Operation.readIpam f).Sound inv tag post past := by
  refine hk.ipam (fun _ _ _ _ => .readIpam f) ?_
  intro others before a after hothers hinv hr _
  cases hr
  exact hpost others before hothers hinv

theorem readPorts (hk : Keeps setup inv tag) (f : Ports → α)
    (hpost : ∀ moves before, inv moves before → post (f before.ports) (moves ++ [.call tag
      (.ports do return .commit (f (← get))) before (.ok (f before.ports)) before])) :
    (Operation.readPorts f).Sound inv tag post past := by
  refine hk.ports (fun _ _ _ _ => .readPorts f) ?_
  intro others before a after refuser hinv hr _
  cases hr
  exact hpost _ before hinv

end Keeps

end ControlPlane
