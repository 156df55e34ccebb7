import EspNowLink.Management.CommTest

open Framework

namespace EspNowLink

open ManagementCommandId

section Keys

/-- What the test knows a response by: the id and the command of its request. -/
abbrev ResponseKey : Type := UInt32 × UInt16

def ManagementRequest.key (request : ManagementRequest) : ResponseKey := (request.req_id, request.cmd_id)
def ManagementResponse.key (response : ManagementResponse) : ResponseKey := (response.req_id, response.cmd_id)
def PendingDescriptorPull.key (pull : PendingDescriptorPull) : ResponseKey := (pull.req_id, pull.cmd_id)
def PendingDeferredTopologyCommit.key (c : PendingDeferredTopologyCommit) : ResponseKey := (c.req_id, c.cmd_id)

/-- The service holds no request, commit, pull and response of the key. -/
structure Clear (k : ResponseKey) (s : PullService) : Prop where
  requests : ∀ p ∈ s.request_queue, p.request.key ≠ k
  commits : ∀ c ∈ s.deferred_topology_commits, c.key ≠ k
  pulls : ∀ pull ∈ s.pending_descriptor_pulls, pull.key ≠ k
  responses : ∀ r ∈ s.response_queue, r.key ≠ k

/-- The first response of the key that waits to be read, if any waits, is an empty one, and a pull of the key
has been acknowledged. -/
def Acked (k : ResponseKey) (s : PullService) : Prop :=
  (∀ r ∈ s.response_queue, r.key ≠ k) ∧ (∀ pull ∈ s.pending_descriptor_pulls, pull.key ≠ k) ∨
    ∃ r, s.response_queue.find? (·.key = k) = some r ∧ r.payload = []

end Keys

/-- The test, and the service that it submits to. -/
structure CommTestNode where
  test : MasterCommTest := {}
  service : PullService
  deriving DecidableEq

/-- What happens to the two: a start or a tick of the test, a tick of the service, an answer of the peer, the
next response read and fed to the test, and the request of another client. -/
inductive CommTestInput where
  | start (now_ms : UInt32) (options : CommTestOptions)
  | testTick (now_ms : UInt32)
  | serviceTick (now_ms : UInt32) (calls : PullCalls)
  | pullResponse (peer : MacAddress) (corr_id : UInt32) (payload : Bytes)
  | feed
  | submit (now_ms : UInt32) (request : ManagementRequest)

/-- The first descriptor request of a test. -/
def descKey : ResponseKey := (30001, DescGet)

namespace CommTestNode

variable (registry : ProfileRegistry) (floats : FloatText) (id : CodecId)

def step (n : CommTestNode) : CommTestInput → CommTestNode
  | .start now_ms options => { n with test := (n.test.start now_ms options).2 }
  | .testTick now_ms =>
    let next := n.test.tick now_ms n.service.toManagementService
    { test := next.1, service := { n.service with toManagementService := next.2 } }
  | .serviceTick now_ms calls => { n with service := n.service.tick now_ms calls }
  | .pullResponse peer corr_id payload =>
    { n with service := n.service.onPullResponse floats id peer corr_id payload }
  | .feed =>
    let polled := n.service.pollResponse
    match polled.1 with
    | none => n
    | some response =>
      { test := (n.test.onResponse registry (decodePullResponse floats id) response).2, service := polled.2 }
  | .submit now_ms request => { n with service := n.service.submit now_ms request }

/-- No response that waits is pushed out of the queue, no other client uses the id of the first descriptor
request of a test, and a test does not start while the service still has to do with that id. -/
def Admits (n : CommTestNode) (i : CommTestInput) : Prop :=
  match i with
  | .feed => True
  | .start _ _ => n.test.running = true ∨ Clear descKey n.service
  | .submit _ request => request.key ≠ descKey ∧
      n.service.response_queue <+: (n.step registry floats id i).service.response_queue
  | i => n.service.response_queue <+: (n.step registry floats id i).service.response_queue

end CommTestNode

section Queues

variable {P : ManagementResponse → Prop} {s : ManagementService}

theorem mem_queueResponse {origin : PendingRequest} {response r : ManagementResponse}
    (h : r ∈ (s.queueResponse origin response).response_queue) : r ∈ s.response_queue ∨ r = response := by
  rw [ManagementService.queueResponse] at h
  rcases List.mem_append.mp h with h | h
  · left
    split at h
    · exact List.mem_of_mem_drop h
    · exact h
  · exact .inr (List.mem_singleton.mp h)

theorem self_mem_queueResponse (origin : PendingRequest) (response : ManagementResponse) :
    response ∈ (s.queueResponse origin response).response_queue :=
  List.mem_append_right _ (List.mem_singleton_self response)

/-- The response to `p`. -/
def responseTo (p : PendingRequest) (status : ManagementStatus) (payload : Bytes) : ManagementResponse :=
  ⟨p.request.source, p.request.cmd_id, p.request.req_id, status, payload⟩

theorem okDeferred_ne : ManagementStatus.OkDeferred ≠ .Timeout := by decide
theorem internalError_ne : ManagementStatus.InternalError ≠ .Timeout := by decide

/-- What the execution of a request answers, its failure included. -/
def Execution.responses : Execution → List (AnswerStatus × Bytes)
  | .answered responses => responses
  | .commitDeferred _ => [(⟨.OkDeferred, okDeferred_ne⟩, [])]
  | .failed responses => responses ++ [(⟨.InternalError, internalError_ne⟩, [])]

/-- The service after a request was executed. -/
def ManagementService.concluded (s : ManagementService) (p : PendingRequest) (e : Execution) :
    ManagementService :=
  let done := s.executeRequest p e
  if done.1 then done.2 else done.2.respond p .InternalError []

theorem responses_respondAll (p : PendingRequest) (responses : List (AnswerStatus × Bytes))
    (hs : ∀ r ∈ s.response_queue, P r) (hall : ∀ a ∈ responses, P (responseTo p a.1 a.2)) :
    ∀ r ∈ (s.respondAll p responses).response_queue, P r := by
  rw [ManagementService.respondAll]
  induction responses generalizing s with
  | nil => exact hs
  | cons a responses ih =>
    obtain ⟨hfirst, hrest⟩ := List.forall_mem_cons.mp hall
    rw [List.foldl_cons]
    refine ih ?_ hrest
    intro r hr
    rcases mem_queueResponse hr with hr | rfl
    · exact hs r hr
    · exact hfirst

theorem response_queue_deferCommit (p : PendingRequest) (peer : MacAddress) :
    (s.deferCommit p peer).response_queue = s.response_queue := by
  rw [ManagementService.deferCommit]
  split <;> rfl

theorem responses_concluded (p : PendingRequest) (e : Execution) (hs : ∀ r ∈ s.response_queue, P r)
    (hall : ∀ a ∈ e.responses, P (responseTo p a.1 a.2)) :
    ∀ r ∈ (s.concluded p e).response_queue, P r := by
  cases e with
  | answered responses => exact responses_respondAll p responses hs hall
  | commitDeferred peer =>
    intro r hr
    rcases mem_queueResponse hr with hr | rfl
    · rw [response_queue_deferCommit] at hr
      exact hs r hr
    · exact hall _ List.mem_cons_self
  | failed responses =>
    have hbefore := responses_respondAll p responses hs fun a ha => hall a (List.mem_append_left _ ha)
    intro r hr
    rcases mem_queueResponse hr with hr | rfl
    · exact hbefore r hr
    · exact hall (⟨.InternalError, internalError_ne⟩, []) (List.mem_append_right _ List.mem_cons_self)

/-- A commit that is left after an execution waited before, or has the key of the executed request. -/
theorem commits_concluded (p : PendingRequest) (e : Execution) :
    ∀ c ∈ (s.concluded p e).deferred_topology_commits,
      c ∈ s.deferred_topology_commits ∨ c.key = p.request.key := by
  have hall : ∀ responses, (s.respondAll p responses).deferred_topology_commits =
      s.deferred_topology_commits := fun responses => (onlyAnswers_respondAll p responses).commits
  intro c hc
  cases e with
  | answered responses => exact .inl (hall responses ▸ hc)
  | failed responses => exact .inl (hall responses ▸ hc)
  | commitDeferred peer =>
    have hc : c ∈ (s.deferCommit p peer).deferred_topology_commits := hc
    rw [ManagementService.deferCommit] at hc
    split at hc
    · exact .inl hc
    · rcases List.mem_append.mp hc with hc | hc
      · exact .inl hc
      · rw [List.mem_singleton.mp hc]
        exact .inr rfl

theorem requests_concluded (p : PendingRequest) (e : Execution) :
    (s.concluded p e).request_queue = s.request_queue := by
  have hall : ∀ responses, (s.respondAll p responses).request_queue = s.request_queue :=
    fun responses => (onlyAnswers_respondAll p responses).requests
  cases e with
  | answered responses => exact hall responses
  | failed responses => exact hall responses
  | commitDeferred peer =>
    change (s.deferCommit p peer).request_queue = s.request_queue
    rw [ManagementService.deferCommit]
    split <;> rfl

theorem responses_prune (hs : ∀ r ∈ s.response_queue, P r)
    (hcommits : ∀ c ∈ s.deferred_topology_commits, P ⟨c.source, c.cmd_id, c.req_id, .Timeout, []⟩) :
    ∀ r ∈ s.prunePendingDescriptorPulls.response_queue, P r := by
  have hfold : ∀ (commits : List PendingDeferredTopologyCommit) (t : ManagementService),
      (∀ r ∈ t.response_queue, P r) → (∀ c ∈ commits, P ⟨c.source, c.cmd_id, c.req_id, .Timeout, []⟩) →
      ∀ r ∈ (commits.foldl
        (fun s deferred =>
          if deadlineReached s.now_ms deferred.deadline_ms then s.respondDeferred deferred .Timeout
          else { s with deferred_topology_commits := s.deferred_topology_commits ++ [deferred] })
        t).response_queue, P r := by
    intro commits
    induction commits with
    | nil => exact fun t ht _ => ht
    | cons c commits ih =>
      intro t ht hall
      obtain ⟨hfirst, hrest⟩ := List.forall_mem_cons.mp hall
      rw [List.foldl_cons]
      apply ih _ _ hrest
      split
      · intro r hr
        rcases mem_queueResponse hr with hr | rfl
        · exact ht r hr
        · exact hfirst
      · exact ht
  exact hfold s.deferred_topology_commits { s with deferred_topology_commits := [] } hs hcommits

/-- What a tick makes of the service. -/
theorem tick_cases (s : ManagementService) (now_ms : UInt32) (execution : ManagementRequest → Execution) :
    ∃ t : ManagementService, t.request_queue = s.request_queue ∧
      (∀ c ∈ t.deferred_topology_commits, c ∈ s.deferred_topology_commits) ∧
      (∀ P : ManagementResponse → Prop, (∀ r ∈ s.response_queue, P r) →
        (∀ c ∈ s.deferred_topology_commits, P ⟨c.source, c.cmd_id, c.req_id, .Timeout, []⟩) →
        ∀ r ∈ t.response_queue, P r) ∧
      (s.request_queue = [] ∧ s.tick now_ms execution = t ∨
        ∃ p rest, s.request_queue = p :: rest ∧
          (deadlineReached now_ms p.deadline_ms = true ∧
              s.tick now_ms execution = ({ t with request_queue := rest }).respond p .Timeout [] ∨
            deadlineReached now_ms p.deadline_ms = false ∧
              s.tick now_ms execution = ({ t with request_queue := rest }).concluded p (execution p.request))) := by
  obtain ⟨hnow, hqueue, hcommits, -⟩ :=
    prunePendingDescriptorPulls_spec (P := fun _ => True) (s := { s with now_ms := now_ms })
  have hleft : ∀ c ∈ (ManagementService.prunePendingDescriptorPulls
      { s with now_ms := now_ms }).deferred_topology_commits, c ∈ s.deferred_topology_commits := by
    intro c hc
    rw [hcommits] at hc
    exact (List.mem_filter.mp hc).1
  have hresponses := fun P => responses_prune (P := P) (s := { s with now_ms := now_ms })
  rw [ManagementService.tick]
  revert hnow hqueue hleft hresponses
  generalize ManagementService.prunePendingDescriptorPulls { s with now_ms := now_ms } = t
  intro hnow hqueue hleft hresponses
  refine ⟨t, hqueue, hleft, hresponses, ?_⟩
  have hqueue : t.request_queue = s.request_queue := hqueue
  have hnow : t.now_ms = now_ms := hnow
  subst hnow
  cases hs : s.request_queue with
  | nil =>
    rw [hs] at hqueue
    simp only [hqueue]
    exact .inl ⟨trivial, trivial⟩
  | cons p rest =>
    rw [hs] at hqueue
    simp only [hqueue]
    refine .inr ⟨p, rest, rfl, ?_⟩
    cases hreached : deadlineReached t.now_ms p.deadline_ms with
    | true => exact .inl ⟨rfl, rfl⟩
    | false =>
      refine .inr ⟨rfl, ?_⟩
      rw [ManagementService.concluded]
      rcases ManagementService.executeRequest { t with request_queue := rest } p
        (execution p.request) with ⟨done, u⟩
      cases done <;> simp only [Bool.false_eq_true, if_false, if_true]

end Queues

section Service

variable {k : ResponseKey} {s : PullService}

theorem mem_track {pull x : PendingDescriptorPull} (h : x ∈ s.track pull) :
    x ∈ s.pending_descriptor_pulls ∨ x = pull := by
  rw [PullService.track] at h
  split at h
  · exact .inl h
  · dsimp only at h
    split at h
    · rcases List.mem_append.mp h with h | h
      · exact .inl ((List.takeWhile_sublist _).subset h)
      · rcases List.mem_cons.mp h with rfl | h
        · exact .inr rfl
        · exact .inl (List.mem_of_mem_drop h)
    · rcases List.mem_append.mp h with h | h
      · exact .inl ((List.takeWhile_sublist _).subset h)
      · exact .inr (List.mem_singleton.mp h)

theorem mem_pullsAfter {calls : PullCalls} {p : PendingRequest} {x : PendingDescriptorPull}
    (h : x ∈ s.pullsAfter calls p) : x ∈ s.pending_descriptor_pulls ∨ x.key = p.request.key := by
  rw [PullService.pullsAfter] at h
  split at h
  · split at h
    · rcases mem_track h with h | rfl
      · exact .inl h
      · exact .inr rfl
    · exact .inl h
  · exact .inl h

/-- A pull after a tick waited before, or is of the request that the tick executed. -/
theorem mem_pulls_tick {now_ms : UInt32} {calls : PullCalls} {x : PendingDescriptorPull}
    (h : x ∈ (s.tick now_ms calls).pending_descriptor_pulls) :
    x ∈ s.pending_descriptor_pulls ∨ ∃ p rest, s.request_queue = p :: rest ∧
      deadlineReached now_ms p.deadline_ms = false ∧ x.key = p.request.key := by
  have hpruned : ∀ x ∈ (s.prunePulls now_ms).pending_descriptor_pulls, x ∈ s.pending_descriptor_pulls :=
    fun x hx => (List.mem_filter.mp hx).1
  rw [PullService.tick] at h
  cases hexecuted : (s.prunePulls now_ms).executed now_ms with
  | none =>
    simp only [hexecuted] at h
    exact .inl (hpruned x h)
  | some p =>
    simp only [hexecuted] at h
    rcases mem_pullsAfter h with h | h
    · exact .inl (hpruned x h)
    · obtain ⟨hhead, hdue⟩ := Option.filter_eq_some_iff.mp hexecuted
      obtain ⟨rest, hqueue⟩ := List.head?_eq_some_iff.mp hhead
      exact .inr ⟨p, rest, hqueue, by simpa using hdue, h⟩

/-- A request of a descriptor is answered once, without a payload. -/
theorem execution_descGet (calls : PullCalls) {request : ManagementRequest} (h : request.cmd_id = DescGet) :
    s.execution calls request = .answered [((s.executePull calls request).1, [])] := by
  have hstatus : request.cmd_id ≠ StatusGet := by
    rw [h]
    decide
  have hpush : request.cmd_id ≠ PushGet := by
    rw [h]
    decide
  have hmem : request.cmd_id ∈ descriptorPulls := by
    rw [h]
    decide
  rw [PullService.execution, if_neg hstatus, if_neg hpush, if_pos hmem]

theorem Clear.tick (h : Clear k s) (now_ms : UInt32) (calls : PullCalls) : Clear k (s.tick now_ms calls) := by
  have hpulls : ∀ pull ∈ (s.tick now_ms calls).pending_descriptor_pulls, pull.key ≠ k := by
    intro pull hpull
    rcases mem_pulls_tick hpull with hpull | ⟨p, rest, hqueue, -, hkey⟩
    · exact h.pulls pull hpull
    · rw [hkey]
      exact h.requests p (hqueue ▸ List.mem_cons_self)
  obtain ⟨t, hqueue, hcommits, hresponses, hcases⟩ := tick_cases (s.prunePulls now_ms).toManagementService
    now_ms ((s.prunePulls now_ms).execution calls)
  have hunread : ∀ r ∈ t.response_queue, r.key ≠ k := hresponses (fun r => r.key ≠ k) h.responses h.commits
  have hwaiting : ∀ c ∈ t.deferred_topology_commits, c.key ≠ k := fun c hc => h.commits c (hcommits c hc)
  rcases hcases with ⟨hnil, htick⟩ | ⟨p, rest, hcons, hcase⟩
  · have hservice : (s.tick now_ms calls).toManagementService = t := htick
    refine ⟨?_, ?_, hpulls, ?_⟩
    · rw [hservice, hqueue]
      exact h.requests
    · rw [hservice]
      exact hwaiting
    · rw [hservice]
      exact hunread
  · have hcons : s.request_queue = p :: rest := hcons
    have hp : p.request.key ≠ k := h.requests p (hcons ▸ List.mem_cons_self)
    have hrest : ∀ q ∈ rest, q.request.key ≠ k := fun q hq => h.requests q (hcons ▸ List.mem_cons_of_mem p hq)
    rcases hcase with ⟨-, htick⟩ | ⟨-, htick⟩
    · have hservice : (s.tick now_ms calls).toManagementService =
          ({ t with request_queue := rest }).respond p .Timeout [] := htick
      refine ⟨?_, ?_, hpulls, ?_⟩
      · rw [hservice]
        exact hrest
      · rw [hservice]
        exact hwaiting
      · rw [hservice]
        intro r hr
        rcases mem_queueResponse hr with hr | rfl
        · exact hunread r hr
        · exact hp
    · have hservice : (s.tick now_ms calls).toManagementService = ({ t with request_queue := rest }).concluded p
          ((s.prunePulls now_ms).execution calls p.request) := htick
      refine ⟨?_, ?_, hpulls, ?_⟩
      · rw [hservice, requests_concluded]
        exact hrest
      · rw [hservice]
        intro c hc
        rcases commits_concluded p _ c hc with hc | hc
        · exact hwaiting c hc
        · rw [hc]
          exact hp
      · rw [hservice]
        exact responses_concluded p _ hunread fun a _ => hp

theorem Clear.submit (h : Clear k s) (now_ms : UInt32) {request : ManagementRequest} (hkey : request.key ≠ k) :
    Clear k (s.submit now_ms request) := by
  have hcases : (s.submit now_ms request).toManagementService = s.respond (s.pendingOf now_ms request) .QueueFull [] ∨
      (s.submit now_ms request).toManagementService = { s.toManagementService with
        request_queue := ManagementService.insertByPriority s.request_queue (s.pendingOf now_ms request) } := by
    rw [PullService.submit, ManagementService.submit]
    dsimp only
    split
    · exact .inl rfl
    · exact .inr rfl
  rcases hcases with hservice | hservice
  · refine ⟨?_, ?_, h.pulls, ?_⟩
    · rw [hservice]
      exact h.requests
    · rw [hservice]
      exact h.commits
    · rw [hservice]
      intro r hr
      rcases mem_queueResponse hr with hr | rfl
      · exact h.responses r hr
      · exact hkey
  · refine ⟨?_, ?_, h.pulls, ?_⟩
    · rw [hservice]
      intro p hp
      rcases mem_insertByPriority.mp hp with rfl | hp
      · exact hkey
      · exact h.requests p hp
    · rw [hservice]
      exact h.commits
    · rw [hservice]
      exact h.responses

/-- An answer of the peer that no pull waits for changes nothing, and another one ends a pull. -/
theorem onPullResponse_cases (floats : FloatText) (id : CodecId) (peer : MacAddress) (corr_id : UInt32)
    (payload : Bytes) :
    s.onPullResponse floats id peer corr_id payload = s ∨
      ∃ pull ∈ s.pending_descriptor_pulls, ∃ response : ManagementResponse, response.key = pull.key ∧
        (s.onPullResponse floats id peer corr_id payload).toManagementService =
          s.queueResponse pull.origin response ∧
        ∀ x ∈ (s.onPullResponse floats id peer corr_id payload).pending_descriptor_pulls,
          x ∈ s.pending_descriptor_pulls := by
  cases hfind : s.findPull peer corr_id with
  | none =>
    left
    rw [PullService.onPullResponse, hfind]
  | some pull =>
    right
    have hmem : pull ∈ s.pending_descriptor_pulls := by
      rw [PullService.findPull] at hfind
      split at hfind
      · cases hfind
      · exact List.mem_of_find?_eq_some hfind
    rw [PullService.onPullResponse, hfind]
    exact ⟨pull, hmem, _, rfl, rfl, fun x hx => List.mem_of_mem_eraseP hx⟩

theorem Clear.onPullResponse (h : Clear k s) (floats : FloatText) (id : CodecId) (peer : MacAddress)
    (corr_id : UInt32) (payload : Bytes) : Clear k (s.onPullResponse floats id peer corr_id payload) := by
  rcases onPullResponse_cases (s := s) floats id peer corr_id payload with hsame | ⟨pull, hpull, response, hkey,
    hservice, hpulls⟩
  · rw [hsame]
    exact h
  · refine ⟨?_, ?_, fun x hx => h.pulls x (hpulls x hx), ?_⟩
    · rw [hservice]
      exact h.requests
    · rw [hservice]
      exact h.commits
    · rw [hservice]
      intro r hr
      rcases mem_queueResponse hr with hr | rfl
      · exact h.responses r hr
      · rw [hkey]
        exact h.pulls pull hpull

theorem Clear.pollResponse (h : Clear k s) : Clear k s.pollResponse.2 :=
  ⟨h.requests, h.commits, h.pulls, fun r hr => h.responses r (List.mem_of_mem_tail hr)⟩

/-- What is added to the queue without a data answer: empty responses of the key, one of them with a pull. -/
structure AddsAcks (k : ResponseKey) (s s' : PullService) : Prop where
  responses : ∀ r ∈ s'.response_queue, r ∈ s.response_queue ∨ (r.key = k → r.payload = [])
  pulls : ∀ pull ∈ s'.pending_descriptor_pulls, pull.key = k →
    pull ∈ s.pending_descriptor_pulls ∨ ∃ r ∈ s'.response_queue, r.key = k

theorem Acked.kept {s' : PullService} (h : Acked k s) (hkept : s.response_queue <+: s'.response_queue)
    (hadds : (∀ pull ∈ s.pending_descriptor_pulls, pull.key ≠ k) → AddsAcks k s s') : Acked k s' := by
  rcases h with ⟨hnone, hpulls⟩ | ⟨r, hfirst, hempty⟩
  · have hadds := hadds hpulls
    cases hfind : s'.response_queue.find? (·.key = k) with
    | none =>
      have hall : ∀ r ∈ s'.response_queue, r.key ≠ k := by simpa using List.find?_eq_none.mp hfind
      refine .inl ⟨hall, ?_⟩
      intro pull hpull hkey
      rcases hadds.pulls pull hpull hkey with hold | ⟨r, hr, hrkey⟩
      · exact hpulls pull hold hkey
      · exact hall r hr hrkey
    | some r =>
      have hkey : r.key = k := by simpa using List.find?_some hfind
      refine .inr ⟨r, hfind, ?_⟩
      rcases hadds.responses r (List.mem_of_find?_eq_some hfind) with hold | hempty
      · exact absurd hkey (hnone r hold)
      · exact hempty hkey
  · obtain ⟨added, hadded⟩ := hkept
    refine .inr ⟨r, ?_, hempty⟩
    rw [← hadded, List.find?_append, hfirst, Option.some_or]

theorem addsAcks_tick (hk : k.2 = DescGet) (now_ms : UInt32) (calls : PullCalls) :
    AddsAcks k s (s.tick now_ms calls) := by
  obtain ⟨t, hqueue, hcommits, hresponses, hcases⟩ := tick_cases (s.prunePulls now_ms).toManagementService
    now_ms ((s.prunePulls now_ms).execution calls)
  have hadded : ∀ r ∈ t.response_queue, r ∈ s.response_queue ∨ (r.key = k → r.payload = []) :=
    hresponses (fun r => r ∈ s.response_queue ∨ (r.key = k → r.payload = [])) (fun r hr => .inl hr)
      fun c _ => .inr fun _ => rfl
  have hcommand : ∀ p : PendingRequest, p.request.key = k → p.request.cmd_id = DescGet := by
    intro p hp
    rw [← hk, ← hp]
    rfl
  rcases hcases with ⟨hnil, htick⟩ | ⟨p, rest, hcons, hcase⟩
  · have hservice : (s.tick now_ms calls).toManagementService = t := htick
    refine ⟨hservice ▸ hadded, ?_⟩
    intro pull hpull _
    rcases mem_pulls_tick hpull with hpull | ⟨p, rest, hcons, -, -⟩
    · exact .inl hpull
    · have hnil : s.request_queue = [] := hnil
      rw [hnil] at hcons
      cases hcons
  · have hcons : s.request_queue = p :: rest := hcons
    rcases hcase with ⟨hreached, htick⟩ | ⟨-, htick⟩
    · have hservice : (s.tick now_ms calls).toManagementService =
          ({ t with request_queue := rest }).respond p .Timeout [] := htick
      constructor
      · rw [hservice]
        intro r hr
        rcases mem_queueResponse hr with hr | rfl
        · exact hadded r hr
        · exact .inr fun _ => rfl
      · intro pull hpull _
        rcases mem_pulls_tick hpull with hpull | ⟨q, others, hother, hdue, -⟩
        · exact .inl hpull
        · obtain ⟨rfl, -⟩ := List.cons.inj (hcons.symm.trans hother)
          rw [hreached] at hdue
          cases hdue
    · have hservice : (s.tick now_ms calls).toManagementService = ({ t with request_queue := rest }).concluded p
          ((s.prunePulls now_ms).execution calls p.request) := htick
      constructor
      · rw [hservice]
        refine responses_concluded p _ hadded ?_
        intro a ha
        right
        intro hkey
        rw [execution_descGet calls (hcommand p hkey)] at ha
        rw [List.mem_singleton.mp ha]
        rfl
      · intro pull hpull hkey
        rcases mem_pulls_tick hpull with hpull | ⟨q, others, hother, -, hq⟩
        · exact .inl hpull
        · obtain ⟨rfl, -⟩ := List.cons.inj (hcons.symm.trans hother)
          have hpkey : p.request.key = k := hq.symm.trans hkey
          right
          rw [hservice, execution_descGet calls (hcommand p hpkey)]
          exact ⟨_, self_mem_queueResponse p _, hpkey⟩

theorem addsAcks_submit (now_ms : UInt32) (request : ManagementRequest) :
    AddsAcks k s (s.submit now_ms request) := by
  refine ⟨?_, fun pull hpull _ => .inl hpull⟩
  intro r hr
  rw [PullService.submit, ManagementService.submit] at hr
  dsimp only at hr
  split at hr
  · rcases mem_queueResponse hr with hr | rfl
    · exact .inl hr
    · exact .inr fun _ => rfl
  · exact .inl hr

theorem addsAcks_onPullResponse (hpulls : ∀ pull ∈ s.pending_descriptor_pulls, pull.key ≠ k) (floats : FloatText)
    (id : CodecId) (peer : MacAddress) (corr_id : UInt32) (payload : Bytes) :
    AddsAcks k s (s.onPullResponse floats id peer corr_id payload) := by
  rcases onPullResponse_cases (s := s) floats id peer corr_id payload with hsame | ⟨pull, hpull, response, hkey,
    hservice, hleft⟩
  · rw [hsame]
    exact ⟨fun r hr => .inl hr, fun pull hpull _ => .inl hpull⟩
  · refine ⟨?_, fun x hx _ => .inl (hleft x hx)⟩
    rw [hservice]
    intro r hr
    rcases mem_queueResponse hr with hr | rfl
    · exact .inl hr
    · right
      intro hrkey
      exact absurd (hkey.symm.trans hrkey) (hpulls pull hpull)

end Service

end EspNowLink
