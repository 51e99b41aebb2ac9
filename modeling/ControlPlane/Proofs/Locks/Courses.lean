import ControlPlane.Proofs.Locks
import Mathlib.Data.List.Induction

/-! Named locks under any sequence of steps: who is served, and in which order. -/

namespace ControlPlane

variable {μ : Type}

inductive LockStep
  | acquire (name : String)
  | poll (ticket : Ticket)
  | drop (ticket : Ticket)

namespace LockStep

variable {former steps : List LockStep} {step : LockStep} {ticket other : Ticket}
  {name same : String}

/-- The names asked for. The place of a name is the ticket of the request. -/
def asked (steps : List LockStep) : List String :=
  steps.filterMap fun
    | .acquire name => some name
    | _ => none

/-- Something is so of one of the steps and those before it. -/
def Once (so : List LockStep → LockStep → Prop) (steps : List LockStep) : Prop :=
  ∃ former step later, steps = former ++ step :: later ∧ so former step

/-- A request was given up. Before its ticket is issued it cannot be. -/
def GivenUp (ticket : Ticket) : List LockStep → Prop :=
  Once fun former step => step = .drop ticket ∧ ticket < (asked former).length

def Stands (steps : List LockStep) (ticket : Ticket) (name : String) : Prop :=
  (asked steps)[ticket]? = some name ∧ ¬ GivenUp ticket steps

/-- Whoever asked for the name before has given up. -/
def First (steps : List LockStep) (ticket : Ticket) (name : String) : Prop :=
  Stands steps ticket name ∧ ∀ other < ticket, ¬ Stands steps other name

/-- Whether a step polls a request. Asking for a lock includes polling once. -/
def Polls (former : List LockStep) (ticket : Ticket) : LockStep → Prop
  | .acquire _ => ticket = (asked former).length
  | .poll own => ticket = own
  | .drop _ => False

/-- A request was polled when it was the first one for its name. -/
def Served (ticket : Ticket) (name : String) : List LockStep → Prop :=
  Once fun former step => Polls former ticket step ∧ First (former ++ [step]) ticket name

theorem asked_acquire : asked (steps ++ [.acquire name]) = asked steps ++ [name] :=
  List.filterMap_append

theorem asked_poll : asked (steps ++ [.poll ticket]) = asked steps :=
  List.filterMap_append.trans (List.append_nil _)

theorem asked_drop : asked (steps ++ [.drop ticket]) = asked steps :=
  List.filterMap_append.trans (List.append_nil _)

theorem once_snoc {so : List LockStep → LockStep → Prop} :
    Once so (steps ++ [step]) ↔ Once so steps ∨ so steps step := by
  constructor
  · rintro ⟨former, own, later, heq, h⟩
    rcases List.eq_nil_or_concat later with rfl | ⟨rest, last, rfl⟩
    · obtain ⟨rfl, hlast⟩ := List.append_inj' heq rfl
      obtain rfl := List.singleton_inj.1 hlast
      exact .inr h
    · rw [List.concat_eq_append, ← List.cons_append, ← List.append_assoc] at heq
      exact .inl ⟨former, own, rest, (List.append_inj' heq rfl).1, h⟩
  · rintro (⟨former, own, later, rfl, h⟩ | h)
    · exact ⟨former, own, later ++ [step], by rw [List.append_assoc, List.cons_append], h⟩
    · exact ⟨steps, step, [], rfl, h⟩

theorem served_snoc : Served ticket name (steps ++ [step]) ↔
    Served ticket name steps ∨ Polls steps ticket step ∧ First (steps ++ [step]) ticket name :=
  once_snoc

theorem GivenUp.lt (h : GivenUp ticket steps) : ticket < (asked steps).length := by
  obtain ⟨former, step, later, rfl, _, hlt⟩ := h
  rw [asked, List.filterMap_append, List.length_append]
  exact Nat.lt_add_right _ hlt

theorem Stands.lt (h : Stands steps ticket name) : ticket < (asked steps).length :=
  (List.getElem?_eq_some_iff.1 h.1).1

theorem Stands.name_eq (h : Stands steps ticket name) (hs : Stands steps ticket same) :
    name = same :=
  Option.some.inj (h.1.symm.trans hs.1)

theorem stands_acquire : Stands (steps ++ [.acquire name]) ticket same ↔
    Stands steps ticket same ∨ ticket = (asked steps).length ∧ same = name := by
  have hgiven : GivenUp ticket (steps ++ [.acquire name]) ↔ GivenUp ticket steps :=
    once_snoc.trans (or_iff_left fun h => LockStep.noConfusion h.1)
  rw [Stands, asked_acquire, hgiven]
  rcases Nat.lt_trichotomy ticket (asked steps).length with hlt | rfl | hlt
  · rw [List.getElem?_append_left hlt]
    exact (or_iff_left fun h => Nat.ne_of_lt hlt h.1).symm
  · have hnew : ¬ GivenUp (asked steps).length steps := fun h => Nat.lt_irrefl _ h.lt
    have hold : ¬ Stands steps (asked steps).length same := fun h => Nat.lt_irrefl _ h.lt
    simp [hnew, hold, eq_comm]
  · have hold : ¬ Stands steps ticket same := fun h => Nat.lt_asymm hlt h.lt
    have hout : (asked steps ++ [name]).length ≤ ticket :=
      Nat.le_trans (Nat.le_of_eq List.length_append) hlt
    rw [List.getElem?_eq_none hout]
    simp [hold, Nat.ne_of_gt hlt]

/-- A request that is just made is the first one if no other one for the name is left. -/
theorem first_acquire : First (steps ++ [.acquire name]) (asked steps).length name ↔
    ∀ ticket, ¬ Stands steps ticket name := by
  constructor
  · intro h ticket hstands
    exact h.2 ticket hstands.lt (stands_acquire.2 (.inl hstands))
  · refine fun h => ⟨stands_acquire.2 (.inr ⟨rfl, rfl⟩), fun other hlt hstands => ?_⟩
    rcases stands_acquire.1 hstands with hstands | ⟨heq, _⟩
    · exact h other hstands
    · exact Nat.ne_of_lt hlt heq

theorem stands_poll : Stands (steps ++ [.poll other]) ticket name ↔ Stands steps ticket name := by
  have hgiven : GivenUp ticket (steps ++ [.poll other]) ↔ GivenUp ticket steps :=
    once_snoc.trans (or_iff_left fun h => LockStep.noConfusion h.1)
  rw [Stands, asked_poll, hgiven, Stands]

theorem stands_drop : Stands (steps ++ [.drop other]) ticket name ↔
    Stands steps ticket name ∧ ticket ≠ other := by
  have hgiven : GivenUp ticket (steps ++ [.drop other]) ↔
      GivenUp ticket steps ∨ other = ticket ∧ ticket < (asked steps).length := by
    rw [← LockStep.drop.injEq]
    exact once_snoc
  rw [Stands, asked_drop, hgiven]
  constructor
  · rintro ⟨hname, hnot⟩
    have hlt := (List.getElem?_eq_some_iff.1 hname).1
    exact ⟨⟨hname, fun h => hnot (.inl h)⟩, fun heq => hnot (.inr ⟨heq.symm, hlt⟩)⟩
  · rintro ⟨⟨hname, hnot⟩, hne⟩
    exact ⟨hname, fun h => h.elim hnot fun h => hne h.1.symm⟩

end LockStep

/-- Who asks, and for which lock. -/
def LockRequest.wish (request : LockRequest) : Ticket × String := (request.ticket, request.name)

theorem mem_wishes {requests : List LockRequest} {ticket : Ticket} {name : String} :
    (ticket, name) ∈ requests.map LockRequest.wish ↔
      ∃ request ∈ requests, request.ticket = ticket ∧ request.name = name := by
  simp [LockRequest.wish]

/-- The locks, and all requests that were served, in that order. -/
structure LockCourse (μ : Type) where
  locks : Locks μ := {}
  served : List LockRequest := []

namespace LockCourse

/-- A request that has its lock finds out, unless it knows. -/
def poll (mutex : Mutex μ) (request : LockRequest) (course : LockCourse μ) : LockCourse μ :=
  if course.locks.holds mutex request && !course.served.contains request then
    { course with served := course.served ++ [request] }
  else course

/-- Asking for a lock includes polling once. Whoever has not asked cannot poll or drop. -/
def step (mutex : Mutex μ) (course : LockCourse μ) : LockStep → LockCourse μ
  | .acquire name =>
    let (request, locks) := course.locks.acquire mutex name
    { course with locks }.poll mutex request
  | .poll ticket =>
    match course.locks.requests.find? (·.ticket = ticket) with
    | some request => course.poll mutex request
    | none => course
  | .drop ticket =>
    match course.locks.requests.find? (·.ticket = ticket) with
    | some request => { course with locks := course.locks.drop mutex request }
    | none => course

def after (mutex : Mutex μ) (steps : List LockStep) : LockCourse μ :=
  steps.foldl (step mutex) {}

theorem poll_locks {mutex : Mutex μ} {request : LockRequest} {course : LockCourse μ} :
    (course.poll mutex request).locks = course.locks := by
  unfold poll
  split <;> rfl

theorem after_snoc {mutex : Mutex μ} {steps : List LockStep} {step : LockStep} :
    after mutex (steps ++ [step]) = (after mutex steps).step mutex step :=
  List.foldl_concat ..

theorem find?_ticket_cases (requests : List LockRequest) (ticket : Ticket) :
    (∃ request ∈ requests, request.ticket = ticket ∧
      requests.find? (·.ticket = ticket) = some request) ∨
    requests.find? (·.ticket = ticket) = none ∧ ∀ request ∈ requests, request.ticket ≠ ticket := by
  cases hfound : requests.find? (·.ticket = ticket) with
  | some request =>
    have hticket : request.ticket = ticket := by simpa using List.find?_some hfound
    exact .inl ⟨request, List.mem_of_find?_eq_some hfound, hticket, rfl⟩
  | none =>
    refine .inr ⟨rfl, fun request hr hticket => ?_⟩
    exact List.find?_eq_none.1 hfound request hr (decide_eq_true hticket)

/-- Polling a ticket polls the request that has it, if there is one. -/
theorem step_poll_cases (mutex : Mutex μ) (course : LockCourse μ) (ticket : Ticket) :
    (∃ request ∈ course.locks.requests, request.ticket = ticket ∧
      course.step mutex (.poll ticket) = course.poll mutex request) ∨
    course.step mutex (.poll ticket) = course ∧
      ∀ request ∈ course.locks.requests, request.ticket ≠ ticket := by
  rcases find?_ticket_cases course.locks.requests ticket with
    ⟨request, hr, hticket, hfound⟩ | ⟨hnone, hnobody⟩
  · exact .inl ⟨request, hr, hticket, by simp only [step, hfound]⟩
  · exact .inr ⟨by simp only [step, hnone], hnobody⟩

/-- Dropping a ticket drops the request that has it, if there is one. -/
theorem step_drop_cases (mutex : Mutex μ) (course : LockCourse μ) (ticket : Ticket) :
    (∃ request ∈ course.locks.requests, request.ticket = ticket ∧
      course.step mutex (.drop ticket) = { course with locks := course.locks.drop mutex request }) ∨
    course.step mutex (.drop ticket) = course ∧
      ∀ request ∈ course.locks.requests, request.ticket ≠ ticket := by
  rcases find?_ticket_cases course.locks.requests ticket with
    ⟨request, hr, hticket, hfound⟩ | ⟨hnone, hnobody⟩
  · exact .inl ⟨request, hr, hticket, by simp only [step, hfound]⟩
  · exact .inr ⟨by simp only [step, hnone], hnobody⟩

/-- How named locks serve those who ask for them. A request that is left is a guard if it was served,
and waits if not. -/
structure Orderly (mutex : Mutex μ) (steps : List LockStep) (course : LockCourse μ) : Prop where
  /-- What is left is what was asked for and not given up, in the order in which it was asked for. -/
  left : ∀ ticket name, (ticket, name) ∈ course.locks.requests.map LockRequest.wish ↔
    LockStep.Stands steps ticket name
  sorted : course.locks.requests.Pairwise (·.ticket < ·.ticket)
  /-- Those were served who asked or polled when nobody was before them. -/
  told : ∀ ticket name, (ticket, name) ∈ course.served.map LockRequest.wish ↔
    LockStep.Served ticket name steps
  /-- All requests for a name refer to one mutex. -/
  unsplit : ∀ request ∈ course.locks.requests, ∀ other ∈ course.locks.requests,
    other.name = request.name → other.mutex = request.mutex
  guards : ∀ request ∈ course.locks.requests, request ∈ course.served →
    course.locks.holds mutex request = true
  exclusive : ∀ request ∈ course.locks.requests, ∀ other ∈ course.locks.requests,
    other.name = request.name → course.locks.holds mutex request = true →
    course.locks.holds mutex other = true → other = request
  taken : ∀ request ∈ course.locks.requests, request ∉ course.served →
    ∃ owner ∈ course.locks.requests, owner.name = request.name ∧
      course.locks.holds mutex owner = true
  /-- Nobody waits but for an earlier request for the same name. -/
  prompt : ∀ request ∈ course.locks.requests, course.locks.holds mutex request = true ↔
    ∀ other ∈ course.locks.requests, other.name = request.name → request.ticket ≤ other.ticket
  order : ∀ name, (course.served.filter (·.name = name)).Pairwise (·.ticket < ·.ticket)
  /-- Nobody is served before an earlier request that still waits. -/
  passed : ∀ request ∈ course.locks.requests, request ∉ course.served →
    ∀ other ∈ course.served, other.name = request.name → other.ticket < request.ticket
  active : course.locks.active = (course.locks.requests.map LockRequest.name).dedup.length

/-- What is left and what was served, in terms of the steps. -/
structure Follows (course : LockCourse μ) (steps : List LockStep) : Prop where
  issued : course.locks.issued = (LockStep.asked steps).length
  left : ∀ ticket name, (ticket, name) ∈ course.locks.requests.map LockRequest.wish ↔
    LockStep.Stands steps ticket name
  served : ∀ ticket name, (ticket, name) ∈ course.served.map LockRequest.wish ↔
    LockStep.Served ticket name steps

/-- What was served is a guard or gone, and was served before all that is left. -/
structure Kept (mutex : Mutex μ) (course : LockCourse μ) : Prop where
  locks : course.locks.Kept mutex
  issued : ∀ request ∈ course.served, request.ticket < course.locks.issued
  order : ∀ name, (course.served.filter (·.name = name)).Pairwise (·.ticket < ·.ticket)
  passed : ∀ request ∈ course.locks.requests, ∀ other ∈ course.served,
    other.name = request.name → other = request ∨ other.ticket < request.ticket

namespace Kept

variable {mutex : Mutex μ} {course : LockCourse μ} {request : LockRequest}

theorem poll (h : course.Kept mutex) (hfair : mutex.Fair) (hr : request ∈ course.locks.requests) :
    (course.poll mutex request).Kept mutex := by
  unfold LockCourse.poll
  split
  · rename_i hserved
    obtain ⟨hholds, hnew⟩ := Bool.and_eq_true_iff.1 hserved
    have hnew : request ∉ course.served := by simpa using hnew
    have hfirst := (h.locks.holds_iff hfair hr).1 hholds
    refine ⟨h.locks, ?_, fun name => ?_, fun other ho former hformer hname => ?_⟩
    · exact List.forall_mem_append.2 ⟨h.issued,
        List.forall_mem_singleton.2 (h.locks.issued request hr)⟩
    · rw [List.filter_append]
      refine List.pairwise_append.2 ⟨h.order name, ?_, fun former hformer own hown => ?_⟩
      · exact (List.pairwise_singleton _ _).filter _
      · obtain ⟨hformer, hname⟩ := List.mem_filter.1 hformer
        obtain ⟨hown, hsame⟩ := List.mem_filter.1 hown
        obtain rfl := List.mem_singleton.1 hown
        have hname := (of_decide_eq_true hname).trans (of_decide_eq_true hsame).symm
        rcases h.passed own hr former hformer hname with rfl | hlt
        · exact absurd hformer hnew
        · exact hlt
    · rcases List.mem_append.1 hformer with hformer | hformer
      · exact h.passed other ho former hformer hname
      · obtain rfl := List.mem_singleton.1 hformer
        rcases Nat.eq_or_lt_of_le (hfirst other ho hname.symm) with heq | hlt
        · exact .inl (h.locks.eq_of_ticket ho hr heq)
        · exact .inr hlt
  · exact h

theorem acquire (h : course.Kept mutex) (name : String) :
    ({ course with locks := (course.locks.acquire mutex name).2 } : LockCourse μ).Kept mutex := by
  obtain ⟨hlocks, hrequests, hticket⟩ := h.locks.acquire name
  have hissued : (course.locks.acquire mutex name).2.issued =
      (course.locks.acquire mutex name).1.ticket + 1 := rfl
  refine ⟨hlocks, fun request hr => ?_, h.order, fun request hr other ho hname => ?_⟩
  · have hlt := hticket ▸ h.issued request hr
    exact hissued ▸ Nat.lt_succ_of_lt hlt
  · rw [hrequests] at hr
    rcases List.mem_append.1 hr with hr | hr
    · exact h.passed request hr other ho hname
    · obtain rfl := List.mem_singleton.1 hr
      exact .inr (hticket ▸ h.issued other ho)

theorem drop (h : course.Kept mutex) (hr : request ∈ course.locks.requests) :
    ({ course with locks := course.locks.drop mutex request } : LockCourse μ).Kept mutex :=
  ⟨h.locks.drop hr, h.issued, h.order,
    fun other ho former hformer => h.passed other (List.mem_filter.1 ho).1 former hformer⟩

theorem step (h : course.Kept mutex) (hfair : mutex.Fair) (step : LockStep) :
    (course.step mutex step).Kept mutex := by
  cases step with
  | acquire name =>
    obtain ⟨_, hrequests, _⟩ := h.locks.acquire name
    refine (h.acquire name).poll hfair ?_
    dsimp only
    rw [hrequests]
    exact List.mem_append_right _ (List.mem_singleton_self _)
  | poll ticket =>
    rcases step_poll_cases mutex course ticket with ⟨request, hr, _, heq⟩ | ⟨heq, _⟩ <;> rw [heq]
    · exact h.poll hfair hr
    · exact h
  | drop ticket =>
    rcases step_drop_cases mutex course ticket with ⟨request, hr, _, heq⟩ | ⟨heq, _⟩ <;> rw [heq]
    · exact h.drop hr
    · exact h

theorem after (hfair : mutex.Fair) (steps : List LockStep) :
    (LockCourse.after mutex steps).Kept mutex := by
  induction steps using List.reverseRecOn with
  | nil => exact ⟨.initial, nofun, fun _ => .nil, nofun⟩
  | append_singleton steps last ih =>
    rw [after_snoc]
    exact ih.step hfair last

theorem orderly (h : course.Kept mutex) (hfair : mutex.Fair) {steps : List LockStep}
    (hfollows : course.Follows steps) : course.Orderly mutex steps := by
  have hprompt (request : LockRequest) (hr : request ∈ course.locks.requests) :=
    h.locks.holds_iff hfair hr
  refine ⟨hfollows.left, h.locks.ordered, hfollows.served,
    fun request hr other ho => (h.locks.mutex_eq_iff hr ho).2, fun request hr hserved => ?_,
    fun request hr other ho hname hholds hother => ?_, fun request hr _ => ?_, hprompt, h.order,
    fun request hr hwaits other ho hname => ?_, h.locks.active_eq⟩
  · refine (hprompt request hr).2 fun other ho hname => ?_
    rcases h.passed other ho request hserved hname.symm with rfl | hlt
    · exact Nat.le_refl _
    · exact Nat.le_of_lt hlt
  · have hle := (hprompt request hr).1 hholds other ho hname
    have hge := (hprompt other ho).1 hother request hr hname.symm
    exact h.locks.eq_of_ticket hr ho (Nat.le_antisymm hge hle)
  · obtain ⟨owner, howner, hname, hfirst⟩ := h.locks.exists_earliest hr
    refine ⟨owner, howner, hname, (hprompt owner howner).2 fun other ho hsame => ?_⟩
    exact hfirst other ho (hsame.trans hname)
  · rcases h.passed request hr other ho hname with rfl | hlt
    · exact absurd ho hwaits
    · exact hlt

end Kept

namespace Follows

variable {mutex : Mutex μ} {course : LockCourse μ} {request : LockRequest} {steps : List LockStep}
  {ticket : Ticket} {name : String}

/-- A request has its lock just if it is the first one for its name. -/
theorem holds_iff (hkept : course.Kept mutex) (hfair : mutex.Fair)
    (hleft : ∀ ticket name, (ticket, name) ∈ course.locks.requests.map LockRequest.wish ↔
      LockStep.Stands steps ticket name) (hr : request ∈ course.locks.requests) :
    course.locks.holds mutex request = true ↔
      LockStep.First steps request.ticket request.name := by
  have hstands : LockStep.Stands steps request.ticket request.name :=
    (hleft _ _).1 (mem_wishes.2 ⟨request, hr, rfl, rfl⟩)
  rw [hkept.locks.holds_iff hfair hr]
  constructor
  · refine fun hfirst => ⟨hstands, fun other hlt hother => ?_⟩
    obtain ⟨earlier, he, rfl, hname⟩ := mem_wishes.1 ((hleft _ _).2 hother)
    exact Nat.not_le_of_lt hlt (hfirst earlier he hname)
  · intro hfirst other ho hname
    refine Nat.not_lt.1 fun hlt => hfirst.2 other.ticket hlt ?_
    exact (hleft _ _).1 (mem_wishes.2 ⟨other, ho, rfl, hname⟩)

/-- Polling serves a request if it is the first one for its name. -/
theorem mem_poll (hkept : course.Kept mutex) (hfair : mutex.Fair)
    (hleft : ∀ ticket name, (ticket, name) ∈ course.locks.requests.map LockRequest.wish ↔
      LockStep.Stands steps ticket name) (hr : request ∈ course.locks.requests) :
    (ticket, name) ∈ (course.poll mutex request).served.map LockRequest.wish ↔
      (ticket, name) ∈ course.served.map LockRequest.wish ∨
        ticket = request.ticket ∧ LockStep.First steps ticket name := by
  have hstands : LockStep.Stands steps request.ticket request.name :=
    (hleft _ _).1 (mem_wishes.2 ⟨request, hr, rfl, rfl⟩)
  have hfirst : ticket = request.ticket ∧ LockStep.First steps ticket name ↔
      course.locks.holds mutex request = true ∧ (ticket, name) = request.wish := by
    rw [holds_iff hkept hfair hleft hr]
    constructor
    · rintro ⟨rfl, hfirst⟩
      obtain rfl := hfirst.1.name_eq hstands
      exact ⟨hfirst, rfl⟩
    · rintro ⟨hfirst, heq⟩
      cases heq
      exact ⟨rfl, hfirst⟩
  rw [hfirst]
  unfold LockCourse.poll
  split
  · rename_i hserved
    have hholds := (Bool.and_eq_true_iff.1 hserved).1
    simp [hholds]
  · rename_i hnot
    constructor
    · exact .inl
    · rintro (h | ⟨hholds, heq⟩)
      · exact h
      · have hknown : request ∈ course.served := by simpa [hholds] using hnot
        exact heq ▸ List.mem_map_of_mem hknown

theorem initial : ({} : LockCourse μ).Follows [] := by
  refine ⟨rfl, fun ticket name => ⟨nofun, fun h => ?_⟩, fun ticket name => ⟨nofun, fun h => ?_⟩⟩
  · exact absurd h.lt (Nat.not_lt_zero _)
  · obtain ⟨former, step, later, heq, _⟩ := h
    exact absurd heq.symm (List.append_ne_nil_of_right_ne_nil _ (List.cons_ne_nil _ _))

theorem acquire (h : course.Follows steps) (hkept : course.Kept mutex) (hfair : mutex.Fair)
    (name : String) : (course.step mutex (.acquire name)).Follows (steps ++ [.acquire name]) := by
  obtain ⟨_, hrequests, hticket⟩ := hkept.locks.acquire name
  have hnew := hticket.trans h.issued
  have hleft (ticket : Ticket) (same : String) :
      (ticket, same) ∈ (course.locks.acquire mutex name).2.requests.map LockRequest.wish ↔
        LockStep.Stands (steps ++ [.acquire name]) ticket same := by
    rw [hrequests, List.map_append, List.mem_append, h.left, LockStep.stands_acquire, ← hnew,
      List.map_singleton, List.mem_singleton]
    exact or_congr_right Prod.ext_iff
  have hr : (course.locks.acquire mutex name).1 ∈ (course.locks.acquire mutex name).2.requests := by
    rw [hrequests]
    exact List.mem_append_right _ (List.mem_singleton_self _)
  have hlocks : (course.step mutex (.acquire name)).locks = (course.locks.acquire mutex name).2 :=
    poll_locks
  refine ⟨?_, hlocks ▸ hleft, fun ticket same => ?_⟩
  · have hissued : (course.locks.acquire mutex name).2.issued =
        (course.locks.acquire mutex name).1.ticket + 1 := rfl
    rw [hlocks, hissued, hnew, LockStep.asked_acquire, List.length_append]
    rfl
  · refine (mem_poll (hkept.acquire name) hfair hleft hr).trans ?_
    rw [h.served, hnew, LockStep.served_snoc]
    rfl

theorem poll (h : course.Follows steps) (hkept : course.Kept mutex) (hfair : mutex.Fair)
    (own : Ticket) : (course.step mutex (.poll own)).Follows (steps ++ [.poll own]) := by
  have hissued : course.locks.issued = (LockStep.asked (steps ++ [.poll own])).length := by
    rw [LockStep.asked_poll]
    exact h.issued
  have hleft (ticket : Ticket) (name : String) :
      (ticket, name) ∈ course.locks.requests.map LockRequest.wish ↔
        LockStep.Stands (steps ++ [.poll own]) ticket name := by
    rw [LockStep.stands_poll]
    exact h.left ticket name
  rcases step_poll_cases mutex course own with ⟨request, hr, hticket, heq⟩ | ⟨heq, hnobody⟩ <;>
    rw [heq]
  · have hlocks : (course.poll mutex request).locks = course.locks := poll_locks
    refine ⟨hlocks ▸ hissued, hlocks ▸ hleft, fun ticket name => ?_⟩
    rw [mem_poll hkept hfair hleft hr, h.served, hticket, LockStep.served_snoc]
    rfl
  · refine ⟨hissued, hleft, fun ticket name => ?_⟩
    rw [h.served, LockStep.served_snoc]
    refine (or_iff_left ?_).symm
    -- Nobody has the ticket that is polled.
    rintro ⟨rfl, hfirst⟩
    obtain ⟨request, hr, hticket, _⟩ := mem_wishes.1 ((hleft _ _).2 hfirst.1)
    exact hnobody request hr hticket

theorem drop (h : course.Follows steps) (own : Ticket) :
    (course.step mutex (.drop own)).Follows (steps ++ [.drop own]) := by
  have hissued : course.locks.issued = (LockStep.asked (steps ++ [.drop own])).length := by
    rw [LockStep.asked_drop]
    exact h.issued
  have hserved (ticket : Ticket) (name : String) :
      (ticket, name) ∈ course.served.map LockRequest.wish ↔
        LockStep.Served ticket name (steps ++ [.drop own]) := by
    rw [h.served, LockStep.served_snoc]
    exact (or_iff_left fun h => h.1).symm
  rcases step_drop_cases mutex course own with ⟨request, hr, hticket, heq⟩ | ⟨heq, hnobody⟩ <;>
    rw [heq]
  · refine ⟨hissued, fun ticket name => ?_, hserved⟩
    rw [LockStep.stands_drop, ← h.left, mem_wishes, mem_wishes]
    constructor
    · rintro ⟨other, ho, rfl, rfl⟩
      obtain ⟨ho, hne⟩ := List.mem_filter.1 ho
      exact ⟨⟨other, ho, rfl, rfl⟩, hticket ▸ of_decide_eq_true hne⟩
    · rintro ⟨⟨other, ho, rfl, rfl⟩, hne⟩
      exact ⟨other, List.mem_filter.2 ⟨ho, decide_eq_true (hticket ▸ hne)⟩, rfl, rfl⟩
  · refine ⟨hissued, fun ticket name => ?_, hserved⟩
    rw [LockStep.stands_drop, ← h.left, mem_wishes]
    refine (and_iff_left_of_imp ?_).symm
    rintro ⟨other, ho, hticket, _⟩ rfl
    exact hnobody other ho hticket

theorem step (h : course.Follows steps) (hkept : course.Kept mutex) (hfair : mutex.Fair) :
    (step : LockStep) → (course.step mutex step).Follows (steps ++ [step])
  | .acquire name => h.acquire hkept hfair name
  | .poll own => h.poll hkept hfair own
  | .drop own => h.drop own

theorem after (hfair : mutex.Fair) (steps : List LockStep) :
    (LockCourse.after mutex steps).Follows steps := by
  induction steps using List.reverseRecOn with
  | nil => exact .initial
  | append_singleton steps last ih =>
    rw [after_snoc]
    exact ih.step (Kept.after hfair steps) hfair last

end Follows

/-- Whatever is asked for, polled and given up, in any order, named locks exclude each other only under
one name, where they are served in the order of the requests. -/
theorem orderly_after {mutex : Mutex μ} (hfair : mutex.Fair) (steps : List LockStep) :
    (after mutex steps).Orderly mutex steps :=
  (Kept.after hfair steps).orderly hfair (.after hfair steps)

/-- Three ask for one lock and one for another. The first gives its lock up, the second does so before
it knows that it has it, and the third finds that it is served. -/
def handover : List LockStep :=
  [.acquire "port", .acquire "port", .acquire "port", .acquire "ipam", .drop 0, .drop 1, .poll 2]

theorem handover_orderly : Mutex.queue.Fair ∧
    (after .queue handover).Orderly .queue handover ∧
    (after .queue handover).served.map LockRequest.ticket = [0, 3, 2] ∧
    (after .queue handover).locks.requests.map LockRequest.ticket = [2, 3] ∧
    (after .queue handover).locks.active = 2 :=
  ⟨Mutex.queue_fair, orderly_after Mutex.queue_fair handover, by decide, by decide, by decide⟩

end LockCourse

end ControlPlane
