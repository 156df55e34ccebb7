import EspNowLink.Management.Runtime

open Framework

namespace EspNowLink

section Conditions

/-- The times of the ticks do not go back. -/
def Ordered (rt : ManagementRuntime) : ManagementInput → Prop
  | .tick i => rt.service.now_ms ≤ i.now_ms
  | .stageDone _ _ _ => True

/-- The request has had its time, when it is `now_ms`. -/
def HasHadItsTime (now_ms : UInt32) (p : PendingRequest) : Prop :=
  (effectiveTimeout p.request).toNat ≤ now_ms.toNat - p.polled_ms.toNat

/-- No request is answered with a timeout before it has had its time. -/
def NoneEarly (rt : ManagementRuntime) (input : ManagementInput) : Prop :=
  ∀ a ∈ (rt.step input).service.answers, a.response.status = .Timeout →
    HasHadItsTime (rt.step input).service.now_ms a.origin

/-- Of a timeout `waited` are over; the deadline is `gap` too early, and is compared in 32 bits. -/
def CutShort (timeout gap waited : Nat) : Prop :=
  waited < timeout ∧
    (timeout ≤ waited + gap ∧ waited + gap < timeout + 2 ^ 31 ∨ waited + gap + 2 ^ 31 < timeout)

/-- The request that a tick takes from the queue is none whose time is cut short by the gap between
the tick that polled it and the tick before that one; and no commit waits with a timeout that is more
than 31 bits ahead. -/
def TakenInTime (rt : ManagementRuntime) : ManagementInput → Prop
  | .tick i =>
    (∀ p ∈ (rt.forget.intake i).service.request_queue.head?,
      ¬CutShort (effectiveTimeout p.request).toNat (p.polled_ms.toNat - p.clock_ms.toNat)
        (i.now_ms.toNat - p.polled_ms.toNat)) ∧
    ∀ c ∈ rt.service.deferred_topology_commits,
      ¬(i.now_ms.toNat - c.origin.polled_ms.toNat < (effectiveTimeout c.origin.request).toNat ∧
        i.now_ms.toNat - c.executed_ms.toNat + 2 ^ 31 < (effectiveTimeout c.origin.request).toNat)
  | .stageDone _ _ _ => True

end Conditions

section Invariant

/-- The stamps of a request that is in the service at `now_ms`. -/
structure Stamped (now_ms : UInt32) (p : PendingRequest) : Prop where
  clock : p.clock_ms ≤ p.polled_ms
  polled : p.polled_ms ≤ now_ms
  deadline : p.deadline_ms = p.clock_ms + effectiveTimeout p.request

structure StampedCommit (now_ms : UInt32) (c : PendingDeferredTopologyCommit) : Prop where
  origin : Stamped c.executed_ms c.origin
  executed : c.executed_ms ≤ now_ms
  deadline : c.deadline_ms = c.executed_ms + effectiveTimeout c.origin.request

/-- Everything in the service is stamped. -/
structure AllStamped (s : ManagementService) : Prop where
  requests : ∀ p ∈ s.request_queue, Stamped s.now_ms p
  commits : ∀ c ∈ s.deferred_topology_commits, StampedCommit s.now_ms c

theorem Stamped.later {now_ms later_ms : UInt32} {p : PendingRequest} (h : Stamped now_ms p)
    (hle : now_ms ≤ later_ms) : Stamped later_ms p :=
  ⟨h.clock, UInt32.le_trans h.polled hle, h.deadline⟩

theorem StampedCommit.later {now_ms later_ms : UInt32} {c : PendingDeferredTopologyCommit}
    (h : StampedCommit now_ms c) (hle : now_ms ≤ later_ms) : StampedCommit later_ms c :=
  ⟨h.origin, UInt32.le_trans h.executed hle, h.deadline⟩

end Invariant

section Arithmetic

theorem deadlineReached_iff (now_ms start timeout : UInt32) (hle : start ≤ now_ms) :
    deadlineReached now_ms (start + timeout) = true ↔
      timeout.toNat ≤ now_ms.toNat - start.toNat ∧
          now_ms.toNat - start.toNat < timeout.toNat + 2 ^ 31 ∨
        now_ms.toNat - start.toNat + 2 ^ 31 < timeout.toNat := by
  have hle : start.toNat ≤ now_ms.toNat := UInt32.le_iff_toNat_le.mp hle
  have hnow := now_ms.toNat_lt
  have htimeout := timeout.toNat_lt
  have hconst : (0x80000000 : UInt32).toNat = 2 ^ 31 := rfl
  rw [deadlineReached, decide_eq_true_iff, UInt32.lt_iff_toNat_lt, UInt32.toNat_sub, UInt32.toNat_add,
    hconst]
  omega

/-- A request times out early exactly when its time is cut short. -/
theorem Stamped.early_iff {now_ms : UInt32} {p : PendingRequest} (h : Stamped now_ms p) :
    (deadlineReached now_ms p.deadline_ms = true → HasHadItsTime now_ms p) ↔
      ¬CutShort (effectiveTimeout p.request).toNat (p.polled_ms.toNat - p.clock_ms.toNat)
        (now_ms.toNat - p.polled_ms.toNat) := by
  have hclock := UInt32.le_iff_toNat_le.mp h.clock
  have hpolled := UInt32.le_iff_toNat_le.mp h.polled
  rw [h.deadline, deadlineReached_iff _ _ _ (UInt32.le_trans h.clock h.polled), HasHadItsTime, CutShort]
  have hsum : now_ms.toNat - p.polled_ms.toNat + (p.polled_ms.toNat - p.clock_ms.toNat) =
      now_ms.toNat - p.clock_ms.toNat := by omega
  rw [hsum]
  omega

theorem StampedCommit.early_iff {now_ms : UInt32} {c : PendingDeferredTopologyCommit}
    (h : StampedCommit now_ms c) :
    (deadlineReached now_ms c.deadline_ms = true → HasHadItsTime now_ms c.origin) ↔
      ¬(now_ms.toNat - c.origin.polled_ms.toNat < (effectiveTimeout c.origin.request).toNat ∧
        now_ms.toNat - c.executed_ms.toNat + 2 ^ 31 < (effectiveTimeout c.origin.request).toNat) := by
  have hpolled := UInt32.le_iff_toNat_le.mp h.origin.polled
  have hexecuted := UInt32.le_iff_toNat_le.mp h.executed
  rw [h.deadline, deadlineReached_iff _ _ _ h.executed, HasHadItsTime]
  omega

end Arithmetic

section Responses

/-- Every timeout that the service has answered is of a request in `P`. -/
def TimeoutsIn (P : PendingRequest → Prop) (s : ManagementService) : Prop :=
  ∀ a ∈ s.answers, a.response.status = .Timeout → P a.origin

variable {P : PendingRequest → Prop} {s : ManagementService}

theorem timeoutsIn_queueResponse (origin : PendingRequest) (response : ManagementResponse) :
    TimeoutsIn P (s.queueResponse origin response) ↔
      TimeoutsIn P s ∧ (response.status = .Timeout → P origin) := by
  simp only [TimeoutsIn, ManagementService.queueResponse, List.mem_append, List.mem_singleton]
  constructor
  · intro h
    exact ⟨fun a ha => h a (.inl ha), h ⟨response, origin⟩ (.inr rfl)⟩
  · rintro ⟨hs, hresponse⟩ a (ha | rfl)
    · exact hs a ha
    · exact hresponse

theorem timeoutsIn_respond (origin : PendingRequest) (status : ManagementStatus) (payload : Bytes) :
    TimeoutsIn P (s.respond origin status payload) ↔
      TimeoutsIn P s ∧ (status = .Timeout → P origin) :=
  timeoutsIn_queueResponse origin _

theorem timeoutsIn_respond_other (origin : PendingRequest) {status : ManagementStatus} (payload : Bytes)
    (h : status ≠ .Timeout) : TimeoutsIn P (s.respond origin status payload) ↔ TimeoutsIn P s := by
  rw [timeoutsIn_respond]
  simp [h]

/-- What a service keeps when it only answers, and answers no timeout. -/
structure OnlyAnswers (s s' : ManagementService) : Prop where
  now : s'.now_ms = s.now_ms
  requests : s'.request_queue = s.request_queue
  commits : s'.deferred_topology_commits = s.deferred_topology_commits
  timeouts : ∀ P, TimeoutsIn P s' ↔ TimeoutsIn P s

theorem OnlyAnswers.trans {s t u : ManagementService} (hst : OnlyAnswers s t) (htu : OnlyAnswers t u) :
    OnlyAnswers s u :=
  ⟨htu.now.trans hst.now, htu.requests.trans hst.requests, htu.commits.trans hst.commits,
    fun P => (htu.timeouts P).trans (hst.timeouts P)⟩

theorem onlyAnswers_respond (origin : PendingRequest) {status : ManagementStatus} (payload : Bytes)
    (h : status ≠ .Timeout) : OnlyAnswers s (s.respond origin status payload) :=
  ⟨rfl, rfl, rfl, fun _ => timeoutsIn_respond_other origin payload h⟩

theorem onlyAnswers_respondAll (p : PendingRequest)
    (responses : List ({ status : ManagementStatus // status ≠ .Timeout } × Bytes)) :
    OnlyAnswers s (s.respondAll p responses) := by
  rw [ManagementService.respondAll]
  induction responses generalizing s with
  | nil => exact ⟨rfl, rfl, rfl, fun _ => Iff.rfl⟩
  | cons r responses ih =>
    have hfirst := onlyAnswers_respond (s := s) p r.2 r.1.2
    exact hfirst.trans ih

end Responses

section Intake

/-- What `s` becomes in the intake of a tick at `now_ms`: it takes requests and refuses requests. -/
structure TakesIn (now_ms : UInt32) (s s' : ManagementService) : Prop where
  now : s'.now_ms = s.now_ms
  commits : s'.deferred_topology_commits = s.deferred_topology_commits
  timeouts : ∀ P, TimeoutsIn P s' ↔ TimeoutsIn P s
  requests : ∀ p ∈ s'.request_queue, p ∈ s.request_queue ∨ ∃ request, p = s.pendingOf now_ms request

variable {now_ms : UInt32} {s t u : ManagementService}

theorem TakesIn.refl : TakesIn now_ms s s :=
  ⟨rfl, rfl, fun _ => Iff.rfl, fun _ hp => .inl hp⟩

theorem TakesIn.trans (hst : TakesIn now_ms s t) (htu : TakesIn now_ms t u) : TakesIn now_ms s u := by
  refine ⟨htu.now.trans hst.now, htu.commits.trans hst.commits,
    fun P => (htu.timeouts P).trans (hst.timeouts P), fun p hp => ?_⟩
  rcases htu.requests p hp with hp | ⟨request, rfl⟩
  · exact hst.requests p hp
  · refine .inr ⟨request, ?_⟩
    simp only [ManagementService.pendingOf, hst.now]

theorem mem_insertByPriority {queue : List PendingRequest} {p q : PendingRequest} :
    q ∈ ManagementService.insertByPriority queue p ↔ q = p ∨ q ∈ queue := by
  have hsplit := List.takeWhile_append_dropWhile (p := fun q => ¬p.priority < q.priority) (l := queue)
  rw [ManagementService.insertByPriority, List.mem_append, List.mem_cons]
  conv_rhs => rw [← hsplit, List.mem_append]
  tauto

theorem takesIn_submit (request : ManagementRequest) : TakesIn now_ms s (s.submit now_ms request).2 := by
  rw [ManagementService.submit]
  split
  · have hrefused := onlyAnswers_respond (s := s) (s.pendingOf now_ms request) []
      (show ManagementStatus.QueueFull ≠ .Timeout by decide)
    refine ⟨hrefused.now, hrefused.commits, hrefused.timeouts, fun p hp => ?_⟩
    rw [hrefused.requests] at hp
    exact .inl hp
  · refine ⟨rfl, rfl, fun _ => Iff.rfl, fun p hp => ?_⟩
    rcases mem_insertByPriority.mp hp with rfl | hp
    · exact .inr ⟨request, rfl⟩
    · exact .inl hp

theorem takesIn_pollRound (rt : ManagementRuntime) (poll : Nat → Option ManagementRequest) :
    TakesIn now_ms s (rt.pollRound now_ms poll s).2 := by
  rw [ManagementRuntime.pollRound]
  generalize false = polled
  induction List.range rt.transports.length generalizing polled s with
  | nil => exact TakesIn.refl
  | cons step steps ih =>
    rw [List.foldl_cons]
    cases hat : rt.transports[(rt.request_rr_cursor + step) % rt.transports.length]? with
    | none =>
      simp only [hat]
      exact ih polled
    | some transport =>
      cases hpolled : poll ((rt.request_rr_cursor + step) % rt.transports.length) with
      | none =>
        simp only [hat, hpolled]
        exact ih polled
      | some request =>
        simp only [hat, hpolled]
        exact (takesIn_submit _).trans (ih true)

theorem takesIn_pollRounds (rt : ManagementRuntime) (i : RuntimeTick) (left : Nat) :
    TakesIn i.now_ms s (rt.pollRounds i left s) := by
  induction left generalizing s with
  | zero => exact TakesIn.refl
  | succ left ih =>
    have hround : TakesIn i.now_ms s (rt.pollRound i.now_ms
        (i.poll (i.max_requests_per_transport - (left + 1))) s).2 := takesIn_pollRound rt _
    rw [ManagementRuntime.pollRounds]
    split <;> rename_i s' hs' <;> rw [hs'] at hround
    · exact hround
    · exact hround.trans ih

theorem takesIn_intake (rt : ManagementRuntime) (i : RuntimeTick) :
    TakesIn i.now_ms rt.service (rt.intake i).service := by
  rw [ManagementRuntime.intake]
  split
  · exact takesIn_pollRounds _ i _
  · exact TakesIn.refl

end Intake

section Pruning

/-- The deferred commits that a pruning at `now_ms` leaves. -/
def stillWaiting (now_ms : UInt32) (commits : List PendingDeferredTopologyCommit) :
    List PendingDeferredTopologyCommit :=
  commits.filter fun c => !deadlineReached now_ms c.deadline_ms

variable {P : PendingRequest → Prop} {s : ManagementService}

theorem prunePendingDescriptorPulls_spec :
    s.prunePendingDescriptorPulls.now_ms = s.now_ms ∧
      s.prunePendingDescriptorPulls.request_queue = s.request_queue ∧
      s.prunePendingDescriptorPulls.deferred_topology_commits =
        stillWaiting s.now_ms s.deferred_topology_commits ∧
      (TimeoutsIn P s.prunePendingDescriptorPulls ↔ TimeoutsIn P s ∧
        ∀ c ∈ s.deferred_topology_commits, deadlineReached s.now_ms c.deadline_ms = true → P c.origin) := by
  -- over the commits that are left, with those kept so far in the service
  have hfold : ∀ (commits : List PendingDeferredTopologyCommit) (t : ManagementService),
      let u := commits.foldl
        (fun s deferred =>
          if deadlineReached s.now_ms deferred.deadline_ms then s.respondDeferred deferred .Timeout
          else { s with deferred_topology_commits := s.deferred_topology_commits ++ [deferred] }) t
      u.now_ms = t.now_ms ∧ u.request_queue = t.request_queue ∧
        u.deferred_topology_commits =
          t.deferred_topology_commits ++ stillWaiting t.now_ms commits ∧
        (TimeoutsIn P u ↔ TimeoutsIn P t ∧
          ∀ c ∈ commits, deadlineReached t.now_ms c.deadline_ms = true → P c.origin) := by
    intro commits
    induction commits with
    | nil => intro t; simp [stillWaiting]
    | cons c commits ih =>
      intro t
      rw [List.foldl_cons]
      by_cases hc : deadlineReached t.now_ms c.deadline_ms = true
      · rw [if_pos hc]
        obtain ⟨hnow, hqueue, hcommits, htimeouts⟩ := ih (t.respondDeferred c .Timeout)
        have hsame : (t.respondDeferred c .Timeout).now_ms = t.now_ms := rfl
        rw [hsame] at hcommits htimeouts
        refine ⟨hnow, hqueue, ?_, ?_⟩
        · rw [hcommits, stillWaiting, stillWaiting, List.filter_cons_of_neg (by simp [hc])]
          rfl
        · rw [htimeouts, ManagementService.respondDeferred, timeoutsIn_queueResponse]
          simp only [List.forall_mem_cons, hc, forall_const, and_assoc]
      · rw [if_neg hc]
        obtain ⟨hnow, hqueue, hcommits, htimeouts⟩ := ih
          { t with deferred_topology_commits := t.deferred_topology_commits ++ [c] }
        refine ⟨hnow, hqueue, ?_, ?_⟩
        · rw [hcommits, stillWaiting, stillWaiting, List.filter_cons_of_pos (by simp [hc]),
            List.append_assoc, List.singleton_append]
        · rw [htimeouts, List.forall_mem_cons]
          simp only [hc, Bool.false_eq_true, false_implies, true_and]
          exact Iff.rfl
  have h := hfold s.deferred_topology_commits { s with deferred_topology_commits := [] }
  rw [List.nil_append] at h
  exact h

end Pruning

section Ticks

variable {P : PendingRequest → Prop} {s : ManagementService}

/-- A commit that `p` leaves behind when it is executed at `now_ms`. -/
def deferredBy (now_ms : UInt32) (p : PendingRequest) (c : PendingDeferredTopologyCommit) : Prop :=
  c.origin = p ∧ c.executed_ms = now_ms ∧ c.deadline_ms = now_ms + effectiveTimeout p.request

/-- The execution of `p` answers no timeout and leaves the queue as it is. -/
structure Executes (p : PendingRequest) (s s' : ManagementService) : Prop where
  now : s'.now_ms = s.now_ms
  requests : s'.request_queue = s.request_queue
  timeouts : ∀ P, TimeoutsIn P s' ↔ TimeoutsIn P s
  commits : ∀ c ∈ s'.deferred_topology_commits,
    c ∈ s.deferred_topology_commits ∨ deferredBy s.now_ms p c

theorem OnlyAnswers.executes {t : ManagementService} (p : PendingRequest) (h : OnlyAnswers s t) :
    Executes p s t := by
  refine ⟨h.now, h.requests, h.timeouts, fun c hc => ?_⟩
  rw [h.commits] at hc
  exact .inl hc

theorem Executes.onlyAnswers {p : PendingRequest} {t u : ManagementService} (h : Executes p s t)
    (hu : OnlyAnswers t u) : Executes p s u := by
  refine ⟨hu.now.trans h.now, hu.requests.trans h.requests,
    fun P => (hu.timeouts P).trans (h.timeouts P), fun c hc => ?_⟩
  rw [hu.commits] at hc
  exact h.commits c hc

theorem executes_deferCommit (p : PendingRequest) (peer : MacAddress) :
    Executes p s (s.deferCommit p peer) := by
  rw [ManagementService.deferCommit]
  split
  · exact ⟨rfl, rfl, fun _ => Iff.rfl, fun _ hc => .inl hc⟩
  · refine ⟨rfl, rfl, fun _ => Iff.rfl, fun c hc => ?_⟩
    rcases List.mem_append.mp hc with hc | hc
    · exact .inl hc
    · rw [List.mem_singleton.mp hc]
      exact .inr ⟨rfl, rfl, rfl⟩

theorem executes_executeRequest (p : PendingRequest) (execution : Execution) :
    Executes p s (s.executeRequest p execution).2 := by
  cases execution with
  | answered responses => exact (onlyAnswers_respondAll p responses).executes p
  | commitDeferred peer =>
    exact (executes_deferCommit p peer).onlyAnswers (onlyAnswers_respond p [] (by decide))
  | failed responses => exact (onlyAnswers_respondAll p responses).executes p

/-- What a tick does: the commits whose time is over and the request at the head of the queue, if its
time is over, are answered with a timeout, and nothing else is. -/
theorem tick_spec (now_ms : UInt32) (execution : ManagementRequest → Execution) :
    (s.tick now_ms execution).now_ms = now_ms ∧
      (∀ p ∈ (s.tick now_ms execution).request_queue, p ∈ s.request_queue) ∧
      (∀ c ∈ (s.tick now_ms execution).deferred_topology_commits,
        c ∈ s.deferred_topology_commits ∨ ∃ p ∈ s.request_queue, deferredBy now_ms p c) ∧
      (TimeoutsIn P (s.tick now_ms execution) ↔ TimeoutsIn P s ∧
        (∀ c ∈ s.deferred_topology_commits, deadlineReached now_ms c.deadline_ms = true → P c.origin) ∧
        ∀ p ∈ s.request_queue.head?, deadlineReached now_ms p.deadline_ms = true → P p) := by
  obtain ⟨hnow, hqueue, hcommits, htimeouts⟩ :=
    prunePendingDescriptorPulls_spec (P := P) (s := { s with now_ms := now_ms })
  have hwaiting : ∀ c ∈ (ManagementService.prunePendingDescriptorPulls
      { s with now_ms := now_ms }).deferred_topology_commits, c ∈ s.deferred_topology_commits := by
    intro c hc
    rw [hcommits] at hc
    exact (List.mem_filter.mp hc).1
  rw [ManagementService.tick]
  revert hnow hqueue htimeouts hwaiting
  generalize ManagementService.prunePendingDescriptorPulls { s with now_ms := now_ms } = t
  intro hnow hqueue htimeouts hwaiting
  simp only at hnow hqueue
  subst hnow
  cases hs : s.request_queue with
  | nil =>
    rw [hs] at hqueue
    simp only [hqueue]
    refine ⟨trivial, by simp, fun c hc => .inl (hwaiting c hc), ?_⟩
    rw [htimeouts]
    simp [TimeoutsIn]
  | cons p rest =>
    rw [hs] at hqueue
    simp only [hqueue, List.head?_cons, Option.mem_some_iff, forall_eq']
    have hrest : ∀ q ∈ rest, q ∈ p :: rest := fun q hq => List.mem_cons_of_mem p hq
    by_cases hp : deadlineReached t.now_ms p.deadline_ms = true
    · rw [if_pos hp]
      refine ⟨rfl, hrest, fun c hc => .inl (hwaiting c hc), ?_⟩
      rw [timeoutsIn_respond]
      change TimeoutsIn P t ∧ _ ↔ _
      rw [htimeouts]
      simp only [hp, forall_const, and_assoc]
      exact Iff.rfl
    · rw [if_neg hp]
      have hexecutes := executes_executeRequest (s := { t with request_queue := rest }) p
        (execution p.request)
      have hall : ∀ u : ManagementService, Executes p { t with request_queue := rest } u →
          u.now_ms = t.now_ms ∧ (∀ q ∈ u.request_queue, q ∈ p :: rest) ∧
            (∀ c ∈ u.deferred_topology_commits, c ∈ s.deferred_topology_commits ∨
              ∃ q ∈ p :: rest, deferredBy t.now_ms q c) ∧
            (TimeoutsIn P u ↔ TimeoutsIn P s ∧
              (∀ c ∈ s.deferred_topology_commits,
                deadlineReached t.now_ms c.deadline_ms = true → P c.origin) ∧
              (deadlineReached t.now_ms p.deadline_ms = true → P p)) := by
        intro u hu
        refine ⟨hu.now, ?_, ?_, ?_⟩
        · rw [hu.requests]
          exact hrest
        · intro c hc
          rcases hu.commits c hc with hc | hc
          · exact .inl (hwaiting c hc)
          · exact .inr ⟨p, List.mem_cons_self, hc⟩
        · rw [hu.timeouts]
          change TimeoutsIn P t ↔ _
          rw [htimeouts]
          simp only [hp, Bool.false_eq_true, false_implies, and_true]
          exact Iff.rfl
      cases hrun : ManagementService.executeRequest { t with request_queue := rest } p
        (execution p.request) with
      | mk ok u =>
        rw [hrun] at hexecutes
        cases ok with
        | true => exact hall _ hexecutes
        | false => exact hall _ (hexecutes.onlyAnswers (onlyAnswers_respond p [] (by decide)))

end Ticks

section Stages

/-- What becomes of a service that settles `commits`: it keeps some of them, and answers no timeout. -/
structure Settles (commits : List PendingDeferredTopologyCommit) (s s' : ManagementService) : Prop where
  now : s'.now_ms = s.now_ms
  requests : s'.request_queue = s.request_queue
  commits : ∀ c ∈ s'.deferred_topology_commits, c ∈ s.deferred_topology_commits ∨ c ∈ commits
  timeouts : ∀ P, TimeoutsIn P s' ↔ TimeoutsIn P s

theorem settles_foldl {f : ManagementService → PendingDeferredTopologyCommit → ManagementService}
    (hf : ∀ s c, Settles [c] s (f s c)) (commits : List PendingDeferredTopologyCommit)
    (s : ManagementService) : Settles commits s (commits.foldl f s) := by
  induction commits generalizing s with
  | nil => exact ⟨rfl, rfl, fun _ hc => .inl hc, fun _ => Iff.rfl⟩
  | cons c commits ih =>
    have hfirst := hf s c
    have hrest := ih (f s c)
    refine ⟨hrest.now.trans hfirst.now, hrest.requests.trans hfirst.requests, fun d hd => ?_,
      fun P => (hrest.timeouts P).trans (hfirst.timeouts P)⟩
    rcases hrest.commits d hd with hd | hd
    · rcases hfirst.commits d hd with hd | hd
      · exact .inl hd
      · exact .inr (List.mem_singleton.mp hd ▸ List.mem_cons_self)
    · exact .inr (List.mem_cons_of_mem c hd)

theorem settles_respondDeferred (s : ManagementService) (c : PendingDeferredTopologyCommit)
    {status : ManagementStatus} (h : status ≠ .Timeout) :
    Settles [c] s (s.respondDeferred c status) := by
  refine ⟨rfl, rfl, fun _ hd => .inl hd, fun P => ?_⟩
  rw [ManagementService.respondDeferred, timeoutsIn_queueResponse]
  simp [h]

theorem settles_dispatchDeferredTopologyCommitsForPeer (s : ManagementService) (peer : MacAddress)
    (stage_status : { status : ManagementStatus // status ≠ .Timeout }) (sent : UInt32 → Bool) :
    Settles s.deferred_topology_commits { s with deferred_topology_commits := [] }
      (s.dispatchDeferredTopologyCommitsForPeer peer stage_status sent) := by
  apply settles_foldl
  intro t c
  split_ifs
  · refine ⟨rfl, rfl, fun d hd => ?_, fun _ => Iff.rfl⟩
    exact List.mem_append.mp hd
  · exact settles_respondDeferred t c stage_status.2
  · exact settles_respondDeferred t c (by decide)
  · exact ⟨rfl, rfl, fun _ hd => .inl hd, fun _ => Iff.rfl⟩

end Stages

section Steps

variable {rt : ManagementRuntime}

theorem stamped_pendingOf {s : ManagementService} {now_ms : UInt32} (request : ManagementRequest)
    (hle : s.now_ms ≤ now_ms) : Stamped now_ms (s.pendingOf now_ms request) :=
  ⟨hle, UInt32.le_refl now_ms, rfl⟩

theorem AllStamped.forget (h : AllStamped rt.service) : AllStamped rt.forget.service :=
  ⟨h.requests, h.commits⟩

theorem timeoutsIn_forget (P : PendingRequest → Prop) : TimeoutsIn P rt.forget.service := by
  intro a ha
  exact absurd ha List.not_mem_nil

/-- What the intake of a tick leaves is stamped, at the time of the tick. -/
theorem AllStamped.intake (h : AllStamped rt.service) (i : RuntimeTick)
    (hle : rt.service.now_ms ≤ i.now_ms) :
    ∀ p ∈ (rt.intake i).service.request_queue, Stamped i.now_ms p := by
  intro p hp
  rcases (takesIn_intake rt i).requests p hp with hp | ⟨request, rfl⟩
  · exact (h.requests p hp).later hle
  · exact stamped_pendingOf request hle

theorem AllStamped.step (h : AllStamped rt.service) (input : ManagementInput)
    (hordered : Ordered rt input) : AllStamped (rt.step input).service := by
  cases input with
  | tick i =>
    have hrequests := h.forget.intake i hordered
    have hcommits := (takesIn_intake rt.forget i).commits
    obtain ⟨hnow, hqueue, hdeferred, -⟩ := tick_spec (P := fun _ => True)
      (s := (rt.forget.intake i).service) i.now_ms i.execution
    refine ⟨fun p hp => ?_, fun c hc => ?_⟩
    · have hstamped := hrequests p (hqueue p hp)
      exact hnow.symm ▸ hstamped
    · have hstamped : StampedCommit i.now_ms c := by
        rcases hdeferred c hc with hc | ⟨p, hp, rfl, hexecuted, hdeadline⟩
        · rw [hcommits] at hc
          exact (h.commits c hc).later hordered
        · refine ⟨?_, ?_, ?_⟩
          · rw [hexecuted]
            exact hrequests _ hp
          · rw [hexecuted]
            exact UInt32.le_refl _
          · rw [hexecuted, hdeadline]
      exact hnow.symm ▸ hstamped
  | stageDone peer stage_status sent =>
    have hsettles := settles_dispatchDeferredTopologyCommitsForPeer rt.forget.service peer
      stage_status sent
    refine ⟨fun p hp => ?_, fun c hc => ?_⟩
    · have hstamped := h.requests p (hsettles.requests ▸ hp)
      exact hsettles.now.symm ▸ hstamped
    · rcases hsettles.commits c hc with hc | hc
      · exact absurd hc List.not_mem_nil
      · exact hsettles.now.symm ▸ h.commits c hc

/-- A step answers no timeout early exactly when what it takes is taken in time. -/
theorem noneEarly_iff (h : AllStamped rt.service) (input : ManagementInput)
    (hordered : Ordered rt input) : NoneEarly rt input ↔ TakenInTime rt input := by
  cases input with
  | tick i =>
    have hrequests := h.forget.intake i hordered
    have hintake := takesIn_intake rt.forget i
    obtain ⟨hnow, -, -, htimeouts⟩ := tick_spec (P := HasHadItsTime i.now_ms)
      (s := (rt.forget.intake i).service) i.now_ms i.execution
    have hnone : TimeoutsIn (HasHadItsTime i.now_ms) (rt.forget.intake i).service :=
      (hintake.timeouts _).mpr (timeoutsIn_forget _)
    have hearly : NoneEarly rt (.tick i) ↔ TimeoutsIn (HasHadItsTime i.now_ms)
        ((rt.forget.intake i).service.tick i.now_ms i.execution) := by
      rw [NoneEarly]
      change TimeoutsIn (HasHadItsTime
        ((rt.forget.intake i).service.tick i.now_ms i.execution).now_ms) _ ↔ _
      rw [hnow]
      exact Iff.rfl
    rw [hearly, htimeouts, hintake.commits, TakenInTime]
    have hhead : ∀ p ∈ (rt.forget.intake i).service.request_queue.head?, Stamped i.now_ms p :=
      fun p hp => hrequests p (List.mem_of_mem_head? hp)
    have hcommit : ∀ c ∈ rt.service.deferred_topology_commits, StampedCommit i.now_ms c :=
      fun c hc => (h.commits c hc).later hordered
    constructor
    · rintro ⟨-, hcommits, hqueue⟩
      exact ⟨fun p hp => (hhead p hp).early_iff.mp (hqueue p hp),
        fun c hc => (hcommit c hc).early_iff.mp (hcommits c hc)⟩
    · rintro ⟨hqueue, hcommits⟩
      exact ⟨hnone, fun c hc => (hcommit c hc).early_iff.mpr (hcommits c hc),
        fun p hp => (hhead p hp).early_iff.mpr (hqueue p hp)⟩
  | stageDone peer stage_status sent =>
    have hsettles := settles_dispatchDeferredTopologyCommitsForPeer rt.forget.service peer
      stage_status sent
    have hnone : ∀ P, TimeoutsIn P rt.forget.service := timeoutsIn_forget
    exact iff_of_true ((hsettles.timeouts _).mpr (hnone _)) trivial

theorem allStamped_start (max_queue_depth : Nat) (transports : List ManagementTransport) :
    AllStamped (ManagementRuntime.start max_queue_depth transports).service :=
  ⟨fun _ hp => absurd hp List.not_mem_nil, fun _ hc => absurd hc List.not_mem_nil⟩

end Steps

/-- In a run whose ticks do not go back in time, no request is answered with a timeout before it has
had its time exactly when every request is taken in time. -/
theorem no_early_timeout_iff (max_queue_depth : Nat) (transports : List ManagementTransport)
    (inputs : List ManagementInput) :
    Admitted ManagementRuntime.step (fun rt i => Ordered rt i ∧ NoneEarly rt i)
        (.start max_queue_depth transports) inputs ↔
      Admitted ManagementRuntime.step (fun rt i => Ordered rt i ∧ TakenInTime rt i)
        (.start max_queue_depth transports) inputs := by
  have hagree : ∀ (rt : ManagementRuntime) (i : ManagementInput), AllStamped rt.service →
      (Ordered rt i ∧ NoneEarly rt i ↔ Ordered rt i ∧ TakenInTime rt i) := by
    intro rt i hstamped
    constructor
    · rintro ⟨hordered, hnone⟩
      exact ⟨hordered, (noneEarly_iff hstamped i hordered).mp hnone⟩
    · rintro ⟨hordered, htaken⟩
      exact ⟨hordered, (noneEarly_iff hstamped i hordered).mpr htaken⟩
  apply admitted_iff_of_invariant hagree
  · rintro rt i hstamped ⟨hordered, -⟩
    exact hstamped.step i hordered
  · exact allStamped_start max_queue_depth transports

/-- A tick ten seconds after the start polls a status request, which has 1500 ms, and answers it with a
timeout in the same tick: the service's clock still stood at zero. -/
theorem early_timeout : ¬∀ (max_queue_depth : Nat) (transports : List ManagementTransport)
    (inputs : List ManagementInput), Admitted ManagementRuntime.step Ordered
        (.start max_queue_depth transports) inputs →
      Admitted ManagementRuntime.step NoneEarly (.start max_queue_depth transports) inputs := by
  intro h
  let first : RuntimeTick :=
    { now_ms := 10000
      poll := fun round _ =>
        if round = 0 then some { cmd_id := ManagementCommandId.StatusGet, req_id := 7 } else none
      execution := fun _ => .answered [] }
  have hnone := (h 32 [⟨.Cli, .Owner⟩] [.tick first]
    ⟨show (0 : UInt32) ≤ 10000 by decide, trivial⟩).1
  have hanswers : ((ManagementRuntime.start 32 [⟨.Cli, .Owner⟩]).step (.tick first)).service.answers =
      [{ response := ⟨.Cli, ManagementCommandId.StatusGet, 7, .Timeout, []⟩
         origin :=
           { request := { source := .Cli, cmd_id := ManagementCommandId.StatusGet, req_id := 7 }
             deadline_ms := 1500, priority := 1, polled_ms := 10000, clock_ms := 0 } }] := by
    decide +kernel
  rw [NoneEarly, hanswers] at hnone
  have hearly := hnone _ List.mem_cons_self rfl
  rw [HasHadItsTime] at hearly
  revert hearly
  decide +kernel

end EspNowLink
