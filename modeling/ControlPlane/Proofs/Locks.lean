import ControlPlane.Lock
import Mathlib.Data.List.Dedup

/-! The registry of named locks. As long as somebody refers to a mutex, the registry keeps
it for its name, so that all who want a lock stand in one line. -/

namespace ControlPlane

variable {μ : Type}

namespace Mutex

/-- What a mutex comes to when tickets arrive and leave: those that have arrived and not left stand in
line in the order of their arrival. -/
inductive Line (mutex : Mutex μ) : List Ticket → μ → Prop
  | idle : Line mutex [] mutex.idle
  | enter {line : List Ticket} {state : μ} {ticket : Ticket} (h : Line mutex line state)
    (hnew : ticket ∉ line) : Line mutex (line ++ [ticket]) (mutex.enter ticket state)
  | leave {line : List Ticket} {state : μ} {ticket : Ticket} (h : Line mutex line state)
    (hin : ticket ∈ line) : Line mutex (line.erase ticket) (mutex.leave ticket state)

/-- A freed mutex goes at once to whoever has waited longest. -/
def Fair (mutex : Mutex μ) : Prop :=
  ∀ ⦃line state⦄, mutex.Line line state → mutex.owner? state = line.head?

theorem queue_fair : queue.Fair := by
  have hline : ∀ ⦃line state⦄, queue.Line line state → state = line := by
    intro line state h
    induction h with
    | idle => rfl
    | enter _ _ ih => exact congrArg (fun line => line ++ [_]) ih
    | leave _ _ ih => exact congrArg (fun line => List.erase line _) ih
  intro line state h
  rw [hline h]
  rfl

end Mutex

theorem head?_eq_some_iff_of_pairwise_lt {line : List Ticket} (h : line.Pairwise (· < ·))
    {ticket : Ticket} (hin : ticket ∈ line) :
    line.head? = some ticket ↔ ∀ other ∈ line, ticket ≤ other := by
  cases line with
  | nil => cases hin
  | cons first rest =>
    have hfirst : ∀ other ∈ first :: rest, first ≤ other :=
      List.forall_mem_cons.2
        ⟨Nat.le_refl _, fun other ho => Nat.le_of_lt (List.rel_of_pairwise_cons h ho)⟩
    constructor
    · intro heq
      cases heq
      exact hfirst
    · intro hle
      exact congrArg some (Nat.le_antisymm (hfirst ticket hin) (hle first List.mem_cons_self))

namespace Locks

theorem mem_modify {states : List μ} {own place : Nat} {change : μ → μ} {state : μ} :
    (states.modify own change)[place]? = some state ↔
      ∃ old, states[place]? = some old ∧ (if own = place then change old else old) = state := by
  rw [List.getElem?_modify, Option.map_eq_map, Option.map_eq_some_iff]

/-- The tickets of those who hold a mutex or wait for it. -/
def line (locks : Locks μ) (place : Nat) : List Ticket :=
  (locks.requests.filter (·.mutex = place)).map LockRequest.ticket

/-- The registry knows the mutexes that requests refer to, each by one name, and each mutex serves
those that refer to it. -/
structure Kept (mutex : Mutex μ) (locks : Locks μ) : Prop where
  names : (locks.entries.map Prod.fst).Nodup
  places : (locks.entries.map Prod.snd).Nodup
  made : ∀ entry ∈ locks.entries, entry.2 < locks.mutexes.length
  listed : ∀ request ∈ locks.requests, (request.name, request.mutex) ∈ locks.entries
  ordered : locks.requests.Pairwise (·.ticket < ·.ticket)
  issued : ∀ request ∈ locks.requests, request.ticket < locks.issued
  lines : ∀ place state, locks.mutexes[place]? = some state → mutex.Line (locks.line place) state

variable {mutex : Mutex μ} {locks : Locks μ} {request other : LockRequest} {name : String}

theorem mem_line {place : Nat} {ticket : Ticket} : ticket ∈ locks.line place ↔
    ∃ request ∈ locks.requests, request.mutex = place ∧ request.ticket = ticket := by
  simp [line, and_assoc]

/-- Whoever refers to a mutex keeps its entry from being forgotten. -/
theorem isActive_of_mem {entry : String × Nat} (hentry : entry ∈ locks.entries)
    (hr : request ∈ locks.requests) (hplace : request.mutex = entry.2) :
    locks.isActive entry = true := by
  have hown : 0 < locks.entries.countP (·.2 = entry.2) :=
    List.countP_pos_iff.2 ⟨entry, hentry, decide_eq_true rfl⟩
  have hrequest : 0 < locks.requests.countP (·.mutex = entry.2) :=
    List.countP_pos_iff.2 ⟨request, hr, decide_eq_true hplace⟩
  have htwo : 1 < locks.references entry.2 := Nat.add_lt_add_of_le_of_lt hown hrequest
  exact decide_eq_true htwo

namespace Kept

theorem initial : Kept mutex {} :=
  ⟨List.nodup_nil, List.nodup_nil, nofun, nofun, .nil, nofun, nofun⟩

theorem isActive_iff (h : locks.Kept mutex) {entry : String × Nat} (hentry : entry ∈ locks.entries) :
    locks.isActive entry = true ↔ ∃ request ∈ locks.requests, request.mutex = entry.2 := by
  constructor
  · intro hactive
    -- The registry has but one reference to the mutex, so that another one is of a request.
    have hone : locks.entries.countP (·.2 = entry.2) ≤ 1 := by
      have hcount := List.nodup_iff_count_le_one.1 h.places entry.2
      rw [List.count, List.countP_map] at hcount
      exact hcount
    have htwo : 1 < locks.references entry.2 := of_decide_eq_true hactive
    have hrequest : 0 < locks.requests.countP (·.mutex = entry.2) := by
      unfold references at htwo
      omega
    obtain ⟨request, hr, hplace⟩ := List.countP_pos_iff.1 hrequest
    exact ⟨request, hr, of_decide_eq_true hplace⟩
  · rintro ⟨request, hr, hplace⟩
    exact isActive_of_mem hentry hr hplace

theorem mutex_eq_iff (h : locks.Kept mutex) (hr : request ∈ locks.requests)
    (ho : other ∈ locks.requests) : other.mutex = request.mutex ↔ other.name = request.name := by
  constructor
  · intro heq
    exact congrArg Prod.fst (List.inj_on_of_nodup_map h.places (h.listed other ho)
      (h.listed request hr) heq)
  · intro heq
    exact congrArg Prod.snd (List.inj_on_of_nodup_map h.names (h.listed other ho)
      (h.listed request hr) heq)

theorem eq_of_ticket (h : locks.Kept mutex) (hr : request ∈ locks.requests)
    (ho : other ∈ locks.requests) (heq : other.ticket = request.ticket) : other = request := by
  have hnodup : (locks.requests.map LockRequest.ticket).Nodup :=
    List.pairwise_map.2 (h.ordered.imp Nat.ne_of_lt)
  exact List.inj_on_of_nodup_map hnodup ho hr heq

theorem line_ordered (h : locks.Kept mutex) (place : Nat) :
    (locks.line place).Pairwise (· < ·) :=
  List.pairwise_map.2 (h.ordered.filter _)

/-- A request has its lock just if no earlier request for the name is left. -/
theorem holds_iff (h : locks.Kept mutex) (hfair : mutex.Fair) (hr : request ∈ locks.requests) :
    locks.holds mutex request = true ↔
      ∀ other ∈ locks.requests, other.name = request.name → request.ticket ≤ other.ticket := by
  obtain ⟨state, hstate⟩ : ∃ state, locks.mutexes[request.mutex]? = some state :=
    ⟨_, List.getElem?_eq_getElem (h.made _ (h.listed request hr))⟩
  have howner : mutex.owner? state = (locks.line request.mutex).head? := hfair (h.lines _ _ hstate)
  have hin : request.ticket ∈ locks.line request.mutex := mem_line.2 ⟨request, hr, rfl, rfl⟩
  have hholds : locks.holds mutex request = true ↔
      (locks.line request.mutex).head? = some request.ticket := by
    rw [holds, hstate, Option.bind_some, howner, decide_eq_true_iff]
  rw [hholds, head?_eq_some_iff_of_pairwise_lt (h.line_ordered _) hin]
  constructor
  · intro hfirst other ho hname
    exact hfirst _ (mem_line.2 ⟨other, ho, (h.mutex_eq_iff hr ho).2 hname, rfl⟩)
  · intro hfirst ticket ht
    obtain ⟨other, ho, hplace, rfl⟩ := mem_line.1 ht
    exact hfirst other ho ((h.mutex_eq_iff hr ho).1 hplace)

theorem exists_earliest (h : locks.Kept mutex) (hr : request ∈ locks.requests) :
    ∃ earliest ∈ locks.requests, earliest.name = request.name ∧
      ∀ other ∈ locks.requests, other.name = request.name → earliest.ticket ≤ other.ticket := by
  have hmem {other : LockRequest} : other ∈ locks.requests.filter (·.name = request.name) ↔
      other ∈ locks.requests ∧ other.name = request.name := by
    rw [List.mem_filter, decide_eq_true_iff]
  have hordered := h.ordered.filter (·.name = request.name)
  cases hline : locks.requests.filter (·.name = request.name) with
  | nil => exact absurd (hline ▸ hmem.2 ⟨hr, rfl⟩) List.not_mem_nil
  | cons earliest rest =>
    rw [hline] at hmem hordered
    obtain ⟨hearliest, hname⟩ := hmem.1 List.mem_cons_self
    refine ⟨earliest, hearliest, hname, fun other ho hsame => ?_⟩
    rcases List.mem_cons.1 (hmem.2 ⟨ho, hsame⟩) with rfl | hrest
    · exact Nat.le_refl _
    · exact Nat.le_of_lt ((List.pairwise_cons.1 hordered).1 other hrest)

theorem prune (h : locks.Kept mutex) : locks.prune.Kept mutex where
  names := h.names.sublist (List.filter_sublist.map _)
  places := h.places.sublist (List.filter_sublist.map _)
  made entry hentry := h.made entry (List.mem_filter.1 hentry).1
  listed request hr := by
    have hlisted := h.listed request hr
    exact List.mem_filter.2 ⟨hlisted, isActive_of_mem hlisted hr rfl⟩
  ordered := h.ordered
  issued := h.issued
  lines := h.lines

theorem enroll (h : locks.Kept mutex) (name : String) :
    (locks.enroll mutex name).2.Kept mutex ∧
      (name, (locks.enroll mutex name).1) ∈ (locks.enroll mutex name).2.entries ∧
      (locks.enroll mutex name).2.requests = locks.requests ∧
      (locks.enroll mutex name).2.issued = locks.issued := by
  unfold Locks.enroll
  split
  · rename_i known hknown
    obtain ⟨_, _, hentries, _⟩ := List.lookup_eq_some_iff.1 hknown
    exact ⟨h, by simp [hentries], rfl, rfl⟩
  · rename_i hnone
    have hname : name ∉ locks.entries.map Prod.fst := by
      intro hin
      obtain ⟨entry, hentry, rfl⟩ := List.mem_map.1 hin
      have := List.lookup_eq_none_iff.1 hnone entry hentry
      simp at this
    have hplace : locks.mutexes.length ∉ locks.entries.map Prod.snd := by
      intro hin
      obtain ⟨entry, hentry, heq⟩ := List.mem_map.1 hin
      exact Nat.ne_of_lt (h.made entry hentry) heq
    refine ⟨⟨List.nodup_cons.2 ⟨hname, h.names⟩, List.nodup_cons.2 ⟨hplace, h.places⟩, ?_, ?_,
      h.ordered, h.issued, ?_⟩, List.mem_cons_self, rfl, rfl⟩
    · refine List.forall_mem_cons.2 ⟨?_, fun entry hentry => ?_⟩
      · simp
      · have := h.made entry hentry
        simp
        omega
    · exact fun request hr => List.mem_cons_of_mem _ (h.listed request hr)
    · -- Nobody refers to the new mutex yet.
      intro place state hstate
      rw [List.getElem?_append] at hstate
      split at hstate
      · exact h.lines place state hstate
      · obtain ⟨hnew, rfl⟩ := List.getElem?_eq_some_iff.1 hstate
        rw [List.length_singleton] at hnew
        have hnobody : locks.line place = [] := by
          refine List.eq_nil_iff_forall_not_mem.2 fun ticket ht => ?_
          obtain ⟨request, hr, rfl, _⟩ := mem_line.1 ht
          have hmade := h.made _ (h.listed request hr)
          omega
        have hline : mutex.Line (locks.line place) mutex.idle := by
          rw [hnobody]
          exact .idle
        rw [List.getElem_singleton]
        exact hline

theorem join (h : locks.Kept mutex) (hentry : (request.name, request.mutex) ∈ locks.entries)
    (hticket : request.ticket = locks.issued) : (locks.join mutex request).Kept mutex := by
  have hearlier : ∀ other ∈ locks.requests, other.ticket < request.ticket :=
    fun other ho => hticket ▸ h.issued other ho
  refine ⟨h.names, h.places, fun entry hentry => ?_, ?_, ?_, ?_, fun place state hstate => ?_⟩
  · exact Nat.lt_of_lt_of_eq (h.made entry hentry) (List.length_modify ..).symm
  · exact List.forall_mem_append.2 ⟨h.listed, List.forall_mem_singleton.2 hentry⟩
  · refine List.pairwise_append.2 ⟨h.ordered, List.pairwise_singleton _ _, fun other ho new hn => ?_⟩
    obtain rfl := List.mem_singleton.1 hn
    exact hearlier other ho
  · refine List.forall_mem_append.2 ⟨fun other ho => ?_, List.forall_mem_singleton.2 ?_⟩
    · exact Nat.lt_succ_of_lt (hearlier other ho)
    · exact Nat.lt_succ_self _
  · have hline : (locks.join mutex request).line place =
        locks.line place ++ if request.mutex = place then [request.ticket] else [] := by
      by_cases hown : request.mutex = place <;> simp [line, Locks.join, hown]
    have hnew : request.ticket ∉ locks.line place := by
      intro hin
      obtain ⟨other, ho, _, heq⟩ := mem_line.1 hin
      exact Nat.ne_of_lt (hearlier other ho) heq
    obtain ⟨old, hold, rfl⟩ := mem_modify.1 hstate
    rw [hline]
    split
    · exact .enter (h.lines place old hold) hnew
    · rw [List.append_nil]
      exact h.lines place old hold

theorem drop (h : locks.Kept mutex) (hr : request ∈ locks.requests) :
    (locks.drop mutex request).Kept mutex := by
  refine ⟨h.names, h.places, fun entry hentry => ?_, ?_, h.ordered.filter _, ?_,
    fun place state hstate => ?_⟩
  · exact Nat.lt_of_lt_of_eq (h.made entry hentry) (List.length_modify ..).symm
  · exact fun other ho => h.listed other (List.mem_filter.1 ho).1
  · exact fun other ho => h.issued other (List.mem_filter.1 ho).1
  · -- Tickets are in one line each, so that all other lines stay as they were.
    have hline : (locks.drop mutex request).line place = (locks.line place).erase request.ticket := by
      rw [List.Nodup.erase_eq_filter ((h.line_ordered place).imp Nat.ne_of_lt), line, line,
        List.filter_map, Locks.drop, List.filter_filter, List.filter_filter]
      congr 1
      exact List.filter_congr fun other _ => by simp [Bool.and_comm, bne, Bool.beq_eq_decide_eq]
    obtain ⟨old, hold, rfl⟩ := mem_modify.1 hstate
    rw [hline]
    split
    · rename_i hplace
      exact .leave (h.lines place old hold) (mem_line.2 ⟨request, hr, hplace, rfl⟩)
    · rename_i hplace
      have hout : request.ticket ∉ locks.line place := by
        intro hin
        obtain ⟨other, ho, hother, heq⟩ := mem_line.1 hin
        exact hplace (h.eq_of_ticket hr ho heq ▸ hother)
      rw [List.erase_of_not_mem hout]
      exact h.lines place old hold

theorem mem_drop (h : locks.Kept mutex) (hr : request ∈ locks.requests) :
    other ∈ (locks.drop mutex request).requests ↔ other ∈ locks.requests ∧ other ≠ request := by
  refine List.mem_filter.trans (and_congr_right fun ho => ?_)
  rw [decide_eq_true_iff]
  exact not_congr ⟨h.eq_of_ticket hr ho, congrArg LockRequest.ticket⟩

theorem acquire (h : locks.Kept mutex) (name : String) :
    (locks.acquire mutex name).2.Kept mutex ∧
      (locks.acquire mutex name).2.requests = locks.requests ++ [(locks.acquire mutex name).1] ∧
      (locks.acquire mutex name).1.ticket = locks.issued := by
  obtain ⟨henrolled, hentry, hrequests, hissued⟩ := h.prune.enroll name
  refine ⟨henrolled.join hentry rfl, ?_, hissued⟩
  exact congrArg (· ++ [_]) hrequests

theorem active_eq (h : locks.Kept mutex) :
    locks.active = (locks.requests.map LockRequest.name).dedup.length := by
  have hnodup : ((locks.entries.filter locks.isActive).map Prod.fst).Nodup :=
    h.names.sublist (List.filter_sublist.map _)
  have hmem (name : String) : name ∈ (locks.entries.filter locks.isActive).map Prod.fst ↔
      name ∈ (locks.requests.map LockRequest.name).dedup := by
    rw [List.mem_dedup, List.mem_map, List.mem_map]
    constructor
    · rintro ⟨entry, hentry, rfl⟩
      obtain ⟨hentry, hactive⟩ := List.mem_filter.1 hentry
      obtain ⟨request, hr, hplace⟩ := (h.isActive_iff hentry).1 hactive
      exact ⟨request, hr, congrArg Prod.fst (List.inj_on_of_nodup_map h.places
        (h.listed request hr) hentry hplace)⟩
    · rintro ⟨request, hr, rfl⟩
      have hlisted := h.listed request hr
      exact ⟨_, List.mem_filter.2 ⟨hlisted, isActive_of_mem hlisted hr rfl⟩, rfl⟩
  have hperm := (List.perm_ext_iff_of_nodup hnodup (List.nodup_dedup _)).2 hmem
  rw [← hperm.length_eq, List.length_map, active, List.countP_eq_length_filter]

end Kept

end Locks

end ControlPlane
