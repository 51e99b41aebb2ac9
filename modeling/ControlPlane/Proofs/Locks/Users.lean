import ControlPlane.Proofs.Locks.Courses

/-! Callers of the registry. What they do comes to a course of steps on its locks. -/

namespace ControlPlane

namespace LockCourse

variable {μ : Type} {mutex : Mutex μ} {course : LockCourse μ} {request : LockRequest}

theorem acquire_locks {name : String} :
    (course.step mutex (.acquire name)).locks = (course.locks.acquire mutex name).2 :=
  poll_locks

theorem step_poll_locks {ticket : Ticket} :
    (course.step mutex (.poll ticket)).locks = course.locks := by
  rcases step_poll_cases mutex course ticket with ⟨request, _, _, heq⟩ | ⟨heq, _⟩ <;> rw [heq]
  exact poll_locks

theorem Kept.drop_locks (h : course.Kept mutex) (hr : request ∈ course.locks.requests) :
    (course.step mutex (.drop request.ticket)).locks = course.locks.drop mutex request := by
  rcases step_drop_cases mutex course request.ticket with ⟨found, hf, hticket, heq⟩ | ⟨_, hnobody⟩
  · rw [heq, h.locks.eq_of_ticket hr hf hticket]
  · exact absurd rfl (hnobody request hr)

end LockCourse

inductive LockCall
  | acquire (user name : String)
  | held (user : String)
  | drop (user : String)

namespace LockUsers

variable {users : LockUsers} {course : LockCourse (List Ticket)} {user other name : String}
  {request : LockRequest}

def call (users : LockUsers) : LockCall → LockUsers
  | .acquire user name => (users.acquire user name).2
  | .held _ => users
  | .drop user => (users.drop user).2

/-- The steps on the locks that a call comes to. -/
def steps (users : LockUsers) : LockCall → List LockStep
  | .acquire user name => .acquire name :: (users.requests.lookup user).toList.map (.drop ·.ticket)
  | .held user => (users.requests.lookup user).toList.map (.poll ·.ticket)
  | .drop user => (users.requests.lookup user).toList.map (.drop ·.ticket)

/-- The callers after all calls, and the steps that these came to. -/
def after (calls : List LockCall) : LockUsers × List LockStep :=
  calls.foldl (fun (users, past) call => (users.call call, past ++ users.steps call)) ({}, [])

theorem lookup_others_self : (users.others user).lookup user = none := by
  refine List.lookup_eq_none_iff.2 fun entry hentry => ?_
  have hne : entry.1 ≠ user := of_decide_eq_true (List.mem_filter.1 hentry).2
  exact bne_iff_ne.2 hne.symm

theorem lookup_others (hne : other ≠ user) :
    (users.others user).lookup other = users.requests.lookup other := by
  rw [others]
  induction users.requests with
  | nil => rfl
  | cons entry rest ih =>
    by_cases hown : entry.1 = user
    · have hout : (other == entry.1) = false := beq_false_of_ne (hown ▸ hne)
      rw [List.filter_cons_of_neg (by simpa using hown), ih, List.lookup_cons, hout]
    · rw [List.filter_cons_of_pos (by simpa using hown), List.lookup_cons, List.lookup_cons, ih]

theorem poll_eq_some_iff {table : Locks (List Ticket)} :
    poll request table = some name ↔ table.holds .queue request = true ∧ request.name = name := by
  unfold poll
  split <;> simp [*]

/-- The requests that the registry knows are the last ones of the callers. -/
structure Uses (users : LockUsers) (course : LockCourse (List Ticket)) : Prop where
  table : users.table = course.locks
  mem : ∀ request, request ∈ course.locks.requests ↔
    ∃ user, users.requests.lookup user = some request
  single : ∀ ⦃user other request⦄, users.requests.lookup user = some request →
    users.requests.lookup other = some request → other = user

namespace Uses

/-- A caller has another request, or none, in place of its former one. -/
theorem replace (h : users.Uses course) (user : String) {own : Option LockRequest} {later : LockUsers}
    {next : LockCourse (List Ticket)} {locks : Locks (List Ticket)} (htable : later.table = locks)
    (hnext : next.locks = locks)
    (hown : later.requests.lookup user = own)
    (hothers : ∀ other ≠ user, later.requests.lookup other = users.requests.lookup other)
    (hnew : ∀ request ∈ own, request ∉ course.locks.requests)
    (hmem : ∀ request, request ∈ locks.requests ↔ request ∈ own ∨
      request ∈ course.locks.requests ∧ users.requests.lookup user ≠ some request) :
    later.Uses next := by
  have hknown {other : String} {request : LockRequest}
      (ho : users.requests.lookup other = some request) : request ∈ course.locks.requests :=
    (h.mem request).2 ⟨other, ho⟩
  refine ⟨htable.trans hnext.symm, fun request => ?_, fun first second request hfirst hsecond => ?_⟩
  · rw [hnext, hmem]
    constructor
    · rintro (hr | ⟨hr, hout⟩)
      · exact ⟨user, hown.trans hr⟩
      · obtain ⟨other, ho⟩ := (h.mem request).1 hr
        have hne : other ≠ user := fun heq => hout (heq ▸ ho)
        exact ⟨other, (hothers other hne).trans ho⟩
    · rintro ⟨other, ho⟩
      by_cases heq : other = user
      · exact .inl (hown.symm.trans (heq ▸ ho))
      · have ho := (hothers other heq).symm.trans ho
        exact .inr ⟨hknown ho, fun hu => heq (h.single hu ho)⟩
  · by_cases hf : first = user <;> by_cases hs : second = user
    · exact hs.trans hf.symm
    · have hr : request ∈ own := hown.symm.trans (hf ▸ hfirst)
      exact absurd (hknown ((hothers second hs).symm.trans hsecond)) (hnew request hr)
    · have hr : request ∈ own := hown.symm.trans (hs ▸ hsecond)
      exact absurd (hknown ((hothers first hf).symm.trans hfirst)) (hnew request hr)
    · exact h.single ((hothers first hf).symm.trans hfirst) ((hothers second hs).symm.trans hsecond)

theorem acquire (h : users.Uses course) (hkept : course.Kept .queue) (user name : String) :
    (users.acquire user name).2.Uses
      ((users.steps (.acquire user name)).foldl (LockCourse.step .queue) course) := by
  obtain ⟨hacquired, hrequests, hticket⟩ := hkept.locks.acquire name
  have hnext : (course.step .queue (.acquire name)).locks = (course.locks.acquire .queue name).2 :=
    LockCourse.acquire_locks
  have hmem (request : LockRequest) : request ∈ (course.locks.acquire .queue name).2.requests ↔
      request ∈ course.locks.requests ∨ request = (course.locks.acquire .queue name).1 := by
    rw [hrequests, List.mem_append, List.mem_singleton]
  have hown : ((user, (course.locks.acquire .queue name).1) :: users.others user).lookup user =
      some (course.locks.acquire .queue name).1 := List.lookup_cons_self
  have hothers (other : String) (hne : other ≠ user) :
      ((user, (course.locks.acquire .queue name).1) :: users.others user).lookup other =
        users.requests.lookup other := by
    rw [List.lookup_cons, beq_false_of_ne hne]
    exact lookup_others hne
  have hnew : (course.locks.acquire .queue name).1 ∉ course.locks.requests :=
    fun hin => absurd hticket (Nat.ne_of_lt (hkept.locks.issued _ hin))
  rw [steps]
  cases hformer : users.requests.lookup user with
  | none =>
    have hcall : (users.acquire user name).2 = ⟨(course.locks.acquire .queue name).2,
        (user, (course.locks.acquire .queue name).1) :: users.others user⟩ := by
      rw [LockUsers.acquire, h.table, hformer]
      rfl
    rw [hcall]
    refine h.replace user rfl hnext hown hothers (fun _ hr => Option.some.inj hr ▸ hnew)
      fun request => ?_
    rw [hmem, hformer, or_comm]
    simp [eq_comm]
  | some former =>
    have hcall : (users.acquire user name).2 =
        ⟨(course.locks.acquire .queue name).2.drop .queue former,
          (user, (course.locks.acquire .queue name).1) :: users.others user⟩ := by
      rw [LockUsers.acquire, h.table, hformer]
      rfl
    have hin : former ∈ course.locks.requests := (h.mem former).2 ⟨user, hformer⟩
    have hstill := (hmem former).2 (.inl hin)
    have hdropped := (hkept.step Mutex.queue_fair (.acquire name)).drop_locks (hnext ▸ hstill)
    rw [hcall]
    refine h.replace user rfl (hdropped.trans (hnext ▸ rfl)) hown hothers
      (fun _ hr => Option.some.inj hr ▸ hnew) fun request => ?_
    rw [hacquired.mem_drop hstill, hmem, hformer]
    have hne : (course.locks.acquire .queue name).1 ≠ former := fun heq => hnew (heq ▸ hin)
    constructor
    · rintro ⟨hr | rfl, hout⟩
      · exact .inr ⟨hr, fun heq => hout (Option.some.inj heq).symm⟩
      · exact .inl rfl
    · rintro (hr | ⟨hr, hout⟩)
      · cases hr
        exact ⟨.inr rfl, hne⟩
      · exact ⟨.inl hr, fun heq => hout (congrArg some heq.symm)⟩

theorem drop (h : users.Uses course) (hkept : course.Kept .queue) (user : String) :
    (users.drop user).2.Uses
      ((users.steps (.drop user)).foldl (LockCourse.step .queue) course) := by
  rw [steps]
  cases hlookup : users.requests.lookup user with
  | none =>
    rw [LockUsers.drop, hlookup]
    exact h
  | some request =>
    have hcall : (users.drop user).2 = ⟨course.locks.drop .queue request, users.others user⟩ := by
      rw [LockUsers.drop, h.table, hlookup]
    have hin : request ∈ course.locks.requests := (h.mem request).2 ⟨user, hlookup⟩
    rw [hcall]
    refine h.replace user rfl (hkept.drop_locks hin) lookup_others_self (fun _ => lookup_others)
      nofun fun other => ?_
    rw [hkept.locks.mem_drop hin, hlookup]
    simp [eq_comm]

theorem held (h : users.Uses course) (user : String) :
    users.Uses ((users.steps (.held user)).foldl (LockCourse.step .queue) course) := by
  rw [steps]
  cases users.requests.lookup user with
  | none => exact h
  | some request =>
    have hlocks : (course.step .queue (.poll request.ticket)).locks = course.locks :=
      LockCourse.step_poll_locks
    exact ⟨h.table.trans hlocks.symm, hlocks ▸ h.mem, h.single⟩

theorem call (h : users.Uses course) (hkept : course.Kept .queue) :
    (call : LockCall) → (users.call call).Uses ((users.steps call).foldl (.step .queue) course)
  | .acquire user name => h.acquire hkept user name
  | .held user => h.held user
  | .drop user => h.drop hkept user

end Uses

theorem after_snoc {calls : List LockCall} {call : LockCall} : after (calls ++ [call]) =
    ((after calls).1.call call, (after calls).2 ++ (after calls).1.steps call) :=
  List.foldl_concat ..

theorem uses_after (calls : List LockCall) :
    (after calls).1.Uses (LockCourse.after .queue (after calls).2) := by
  induction calls using List.reverseRecOn with
  | nil => exact ⟨rfl, fun _ => ⟨nofun, nofun⟩, nofun⟩
  | append_singleton calls last ih =>
    rw [after_snoc, LockCourse.after, List.foldl_append]
    exact ih.call (.after Mutex.queue_fair _) last

/-- Whatever the callers do, the registry is as after the steps that this comes to, so that it serves
them in order. -/
theorem table_after (calls : List LockCall) :
    (after calls).1.table = (LockCourse.after .queue (after calls).2).locks ∧
      (LockCourse.after .queue (after calls).2).Orderly .queue (after calls).2 :=
  ⟨(uses_after calls).table, (LockCourse.Kept.after Mutex.queue_fair _).orderly Mutex.queue_fair
    (.after Mutex.queue_fair _)⟩

/-- A caller is told that it has its lock just if nobody who asked for it before wants it still. -/
theorem held?_eq_some_iff (calls : List LockCall) (user name : String) :
    (after calls).1.held? user = some (some name) ↔
      ∃ request, (after calls).1.requests.lookup user = some request ∧ request.name = name ∧
        LockStep.First (after calls).2 request.ticket name := by
  have huses := uses_after calls
  have hkept := LockCourse.Kept.after Mutex.queue_fair (after calls).2
  have hleft := (LockCourse.Follows.after Mutex.queue_fair (after calls).2).left
  rw [held?, Option.map_eq_some_iff]
  refine exists_congr fun request => and_congr_right fun hlookup => ?_
  have hin := (huses.mem request).2 ⟨user, hlookup⟩
  rw [poll_eq_some_iff, huses.table,
    LockCourse.Follows.holds_iff hkept Mutex.queue_fair hleft hin, and_comm]
  exact and_congr_right fun hname => hname ▸ Iff.rfl

/-- Who asks for a lock has it at once just if nobody else wants it. -/
theorem acquire_eq_some_iff (calls : List LockCall) (user name : String) :
    ((after calls).1.acquire user name).1 = some name ↔
      ∀ ticket, ¬ LockStep.Stands (after calls).2 ticket name := by
  have hkept := LockCourse.Kept.after Mutex.queue_fair (after calls).2
  have hfollows := LockCourse.Follows.after Mutex.queue_fair (after calls).2
  rw [LockUsers.acquire, (uses_after calls).table, ← LockStep.first_acquire]
  generalize LockCourse.after .queue (after calls).2 = course at hkept hfollows ⊢
  obtain ⟨_, hrequests, hticket⟩ := hkept.locks.acquire name
  have hnext : (course.step .queue (.acquire name)).locks =
      (course.locks.acquire .queue name).2 := LockCourse.acquire_locks
  have hin : (course.locks.acquire .queue name).1 ∈
      (course.locks.acquire .queue name).2.requests := by
    rw [hrequests]
    exact List.mem_append_right _ (List.mem_singleton_self _)
  have hholds := LockCourse.Follows.holds_iff (hkept.step Mutex.queue_fair (.acquire name))
    Mutex.queue_fair (hfollows.acquire hkept Mutex.queue_fair name).left (hnext ▸ hin)
  rw [hnext, hticket, hfollows.issued] at hholds
  exact poll_eq_some_iff.trans ((and_iff_left rfl).trans hholds)

end LockUsers

end ControlPlane
