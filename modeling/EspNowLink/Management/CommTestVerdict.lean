import EspNowLink.Framework.Runs
import EspNowLink.Management.CommTestRuns

open Framework

namespace EspNowLink

open ManagementCommandId

section Judgement

variable {t : MasterCommTest}

theorem decode_descriptor_nil (floats : FloatText) (id : CodecId) :
    (id.find floats).decodeDescriptorResponse [] = none := by
  cases id <;> rfl

/-- A descriptor step fails on a response without a payload, whatever its status. -/
theorem judge_empty (registry : ProfileRegistry) (floats : FloatText) (id : CodecId) {step : CommTestStep}
    (hstep : step.require_desc = true) {response : ManagementResponse} (hempty : response.payload = []) :
    (t.judge registry (decodePullResponse floats id) step response).1 = false := by
  have hdecoded : ∀ d, decodePullResponse floats id [] ≠ some (.descriptor d) := by
    intro d
    rw [decodePullResponse, decode_descriptor_nil]
    cases id.decodeControlResult [] <;> simp
  rw [MasterCommTest.judge]
  split
  · rfl
  · rw [MasterCommTest.handleDescriptorValidation, hempty]
    cases hdecode : decodePullResponse floats id [] with
    | none => rfl
    | some decoded =>
      cases decoded with
      | controlResult command_id result_code => rfl
      | descriptor d => exact absurd hdecode (hdecoded d)

/-- A step without a descriptor takes nothing from its response. -/
theorem judge_plain (registry : ProfileRegistry) (decode : Bytes → Option PullResponseDecoded)
    {step : CommTestStep} (hstep : step.require_desc = false) (response : ManagementResponse) :
    (t.judge registry decode step response).2.2 = t := by
  rw [MasterCommTest.judge]
  split
  · rfl
  · simp only [hstep, Bool.false_eq_true, if_false]

theorem takeDescriptor_passed (registry : ProfileRegistry) (step : CommTestStep) (d : DescriptorResponse) :
    (t.takeDescriptor registry step d).passed = t.passed := by
  have hfold : ∀ (capabilities : List CapabilityDescriptor) (u : MasterCommTest),
      (capabilities.foldl MasterCommTest.readCapability u).passed = u.passed := by
    intro capabilities
    induction capabilities with
    | nil => exact fun _ => rfl
    | cons c capabilities ih =>
      intro u
      rw [List.foldl_cons, ih, MasterCommTest.readCapability]
      split_ifs <;> rfl
  have hcapabilities : ∀ u : MasterCommTest, (u.takeCapabilities registry d).passed = u.passed := by
    intro u
    have hderive : (u.deriveProfileFromCapabilities registry d).passed = u.passed := hfold d.capabilities u
    rw [MasterCommTest.takeCapabilities]
    split
    · rw [MasterCommTest.enqueueSettingsSweepFromProfile]
      split <;> exact hderive
    · exact hderive
  rw [MasterCommTest.takeDescriptor]
  split_ifs <;> simp only [hcapabilities]

theorem judge_passed (registry : ProfileRegistry) (decode : Bytes → Option PullResponseDecoded)
    (step : CommTestStep) (response : ManagementResponse) :
    (t.judge registry decode step response).2.2.passed = t.passed := by
  rw [MasterCommTest.judge]
  split
  · rfl
  · split
    · rw [MasterCommTest.handleDescriptorValidation]
      split
      · rfl
      · rfl
      · split
        · rfl
        · dsimp only
          split <;> exact takeDescriptor_passed registry step _
    · rfl

end Judgement

section Stages

/-- The status of the peer is asked for first, and then its device. -/
inductive Opening (t : MasterCommTest) : Prop
  | started (rest : List CommTestStep) (active : t.active = none)
      (plan : t.plan = MasterCommTest.statusStep :: MasterCommTest.descStep :: rest) (id : t.next_req_id = 30000)
  | asked (rest : List CommTestStep) (sent_ms : UInt32)
      (active : t.active = some ⟨MasterCommTest.statusStep, 30000, sent_ms⟩)
      (plan : t.plan = MasterCommTest.descStep :: rest) (id : t.next_req_id = 30001)
  | answered (rest : List CommTestStep) (active : t.active = none)
      (plan : t.plan = MasterCommTest.descStep :: rest) (id : t.next_req_id = 30001)

/-- How far a test can be that has not failed: it does not run, it has not asked for the device, or it
waits for the device with an acknowledgement ahead of it. -/
inductive Stage (n : CommTestNode) : Prop
  | failed (passed : n.test.passed = false)
  | idle (running : n.test.running = false) (completed : n.test.completed = false)
  | opening (running : n.test.running = true) (completed : n.test.completed = false) (opening : Opening n.test)
      (clear : Clear descKey n.service)
  | waiting (running : n.test.running = true) (completed : n.test.completed = false) (sent_ms : UInt32)
      (active : n.test.active = some ⟨MasterCommTest.descStep, 30001, sent_ms⟩)
      (acked : Acked descKey n.service)

theorem Stage.not_passed {n : CommTestNode} (h : Stage n) : n.test.summary.passed = false := by
  cases h with
  | failed passed => simp [MasterCommTest.summary, passed]
  | idle running completed => simp [MasterCommTest.summary, completed]
  | opening running completed opening clear => simp [MasterCommTest.summary, completed]
  | waiting running completed sent_ms active acked => simp [MasterCommTest.summary, completed]

/-- The stage of a node whose test is left as it is. -/
theorem Stage.service {n : CommTestNode} (h : Stage n) {service : PullService}
    (hclear : Clear descKey n.service → Clear descKey service)
    (hacked : Acked descKey n.service → Acked descKey service) : Stage { n with service := service } := by
  cases h with
  | failed passed => exact .failed passed
  | idle running completed => exact .idle running completed
  | opening running completed opening clear => exact .opening running completed opening (hclear clear)
  | waiting running completed sent_ms active acked =>
    exact .waiting running completed sent_ms active (hacked acked)

end Stages

section TestSteps

variable {t : MasterCommTest} {mgmt : ManagementService}

theorem expire_cases (t : MasterCommTest) (now_ms : UInt32) :
    t.expire now_ms = t ∨ (t.expire now_ms).passed = false := by
  rw [MasterCommTest.expire]
  split
  · exact .inl rfl
  · split
    · exact .inr rfl
    · exact .inl rfl

theorem finalizeIfDone_failed (h : t.passed = false) (now_ms : UInt32) :
    (t.finalizeIfDone now_ms).passed = false := by
  have hsettings : t.checkSettings.passed = false := by
    rw [MasterCommTest.checkSettings]
    split
    · rfl
    · exact h
  have htelemetry : t.checkSettings.checkTelemetry.passed = false := by
    rw [MasterCommTest.checkTelemetry]
    split
    · rfl
    · exact hsettings
  rw [MasterCommTest.finalizeIfDone]
  split
  · exact h
  · exact htelemetry

theorem dispatchNext_failed (h : t.passed = false) (now_ms : UInt32) :
    (t.dispatchNext now_ms mgmt).2.1.passed = false := by
  rw [MasterCommTest.dispatchNext]
  split
  · exact h
  · dsimp only
    split
    · exact h
    · rfl

/-- A test that has failed stays so. -/
theorem tick_failed (h : t.passed = false) (now_ms : UInt32) : (t.tick now_ms mgmt).1.passed = false := by
  have hexpired : (t.expire now_ms).passed = false := by
    rcases expire_cases t now_ms with hsame | hfailed
    · rw [hsame]
      exact h
    · exact hfailed
  rw [MasterCommTest.tick]
  split
  · exact h
  · dsimp only
    split
    · exact hexpired
    · dsimp only
      split
      · exact dispatchNext_failed hexpired now_ms
      · exact finalizeIfDone_failed (dispatchNext_failed hexpired now_ms) now_ms

theorem onResponse_failed (h : t.passed = false) (registry : ProfileRegistry)
    (decode : Bytes → Option PullResponseDecoded) (response : ManagementResponse) :
    (t.onResponse registry decode response).2.passed = false := by
  rw [MasterCommTest.onResponse]
  split
  · exact h
  · split
    · exact h
    · rename_i active _
      split
      · have hjudged : (t.judge registry decode active.step response).2.2.passed = false := by
          rw [judge_passed, h]
        dsimp only
        rw [hjudged, Bool.false_and]
      · exact h

/-- A running test that waits for no response and has a step left takes it: it waits for its response, or has
failed. -/
theorem tick_next (hrunning : t.running = true) (hactive : t.active = none) {step : CommTestStep}
    {plan : List CommTestStep} (hplan : t.plan = step :: plan) (now_ms : UInt32) :
    (t.tick now_ms mgmt).1.passed = false ∨
      (mgmt.submit now_ms (t.requestOf step)).1 = true ∧
        t.tick now_ms mgmt =
          ({ t with plan := plan, next_req_id := t.next_req_id + 1, active := some ⟨step, t.next_req_id, now_ms⟩ },
            (mgmt.submit now_ms (t.requestOf step)).2) := by
  have hexpire : t.expire now_ms = t := by rw [MasterCommTest.expire, hactive]
  have hnone : ¬t.active.isSome = true := by simp [hactive]
  rw [MasterCommTest.tick]
  simp only [hrunning, Bool.not_true, Bool.false_eq_true, if_false, hexpire, if_neg hnone,
    MasterCommTest.dispatchNext, hplan]
  by_cases hsubmit : (mgmt.submit now_ms (t.requestOf step)).1 = true
  · right
    exact ⟨hsubmit, by simp only [if_pos hsubmit]; rfl⟩
  · left
    simp only [if_neg hsubmit]
    split
    · rfl
    · exact finalizeIfDone_failed rfl now_ms

/-- A running test that waits for a response goes on waiting, or has failed. -/
theorem tick_waits (hrunning : t.running = true) {active : ActiveStep} (hactive : t.active = some active)
    (now_ms : UInt32) : (t.tick now_ms mgmt).1.passed = false ∨ t.tick now_ms mgmt = (t, mgmt) := by
  rcases expire_cases t now_ms with hsame | hfailed
  · right
    have hsome : t.active.isSome = true := by simp [hactive]
    rw [MasterCommTest.tick]
    simp only [hrunning, Bool.not_true, Bool.false_eq_true, if_false, hsame, if_pos hsome]
  · left
    rw [MasterCommTest.tick]
    simp only [hrunning, Bool.not_true, Bool.false_eq_true, if_false]
    split
    · exact hfailed
    · dsimp only
      split
      · exact dispatchNext_failed hfailed now_ms
      · exact finalizeIfDone_failed (dispatchNext_failed hfailed now_ms) now_ms

theorem onResponse_other {active : ActiveStep} (hactive : t.active = some active) (registry : ProfileRegistry)
    (decode : Bytes → Option PullResponseDecoded) {response : ManagementResponse}
    (h : ¬MasterCommTest.awaits response active) : (t.onResponse registry decode response).2 = t := by
  rw [MasterCommTest.onResponse]
  split
  · rfl
  · simp only [hactive, if_neg h]

theorem onResponse_awaited (hrunning : t.running = true) {active : ActiveStep} (hactive : t.active = some active)
    (registry : ProfileRegistry) (decode : Bytes → Option PullResponseDecoded) {response : ManagementResponse}
    (h : MasterCommTest.awaits response active) : (t.onResponse registry decode response).2 =
      { (t.judge registry decode active.step response).2.2.markStepResult active
          (t.judge registry decode active.step response).1 response.status
          (t.judge registry decode active.step response).2.1 with
        passed := (t.judge registry decode active.step response).2.2.passed &&
          (t.judge registry decode active.step response).1
        active := none } := by
  rw [MasterCommTest.onResponse]
  simp only [hrunning, Bool.not_true, Bool.false_eq_true, if_false, hactive, if_pos h]

theorem onResponse_idle (h : t.running = false ∨ t.active = none) (registry : ProfileRegistry)
    (decode : Bytes → Option PullResponseDecoded) (response : ManagementResponse) :
    (t.onResponse registry decode response).2 = t := by
  rw [MasterCommTest.onResponse]
  rcases h with h | h
  · simp only [h, Bool.not_false, if_true]
  · split
    · rfl
    · simp only [h]

end TestSteps

section NodeSteps

variable {registry : ProfileRegistry} {floats : FloatText} {id : CodecId} {n : CommTestNode}

theorem Stage.start (h : Stage n) (now_ms : UInt32) (options : CommTestOptions)
    (hclear : n.test.running = true ∨ Clear descKey n.service) :
    Stage (n.step registry floats id (.start now_ms options)) := by
  have hstep : n.step registry floats id (.start now_ms options) =
      { n with test := (n.test.start now_ms options).2 } := rfl
  rw [hstep, MasterCommTest.start]
  by_cases hrunning : n.test.running = true
  · rw [if_pos hrunning]
    exact h
  · rw [if_neg hrunning]
    have hclear : Clear descKey n.service := hclear.resolve_left hrunning
    exact .opening rfl rfl (.started _ rfl rfl rfl) hclear

/-- The service after the test has submitted a step. -/
theorem clear_submitted {k : ResponseKey} {service : PullService} (h : Clear k service) (now_ms : UInt32)
    {request : ManagementRequest} (hkey : request.key ≠ k) :
    Clear k { service with toManagementService := (service.toManagementService.submit now_ms request).2 } :=
  h.submit now_ms hkey

/-- A request that is taken leaves no response. -/
theorem acked_submitted {k : ResponseKey} {service : PullService} (h : Clear k service) {now_ms : UInt32}
    {request : ManagementRequest} (htaken : (service.toManagementService.submit now_ms request).1 = true) :
    Acked k { service with toManagementService := (service.toManagementService.submit now_ms request).2 } := by
  have hqueue : (service.toManagementService.submit now_ms request).2.response_queue =
      service.response_queue := by
    rw [ManagementService.submit] at htaken ⊢
    split at htaken
    · cases htaken
    · rename_i hroom
      rw [if_neg hroom]
  left
  refine ⟨?_, h.pulls⟩
  intro r hr
  exact h.responses r (hqueue ▸ hr)

theorem Stage.testTick (h : Stage n) (now_ms : UInt32) :
    Stage (n.step registry floats id (.testTick now_ms)) := by
  have htest : (n.step registry floats id (.testTick now_ms)).test =
      (n.test.tick now_ms n.service.toManagementService).1 := rfl
  have hservice : (n.step registry floats id (.testTick now_ms)).service = { n.service with
      toManagementService := (n.test.tick now_ms n.service.toManagementService).2 } := rfl
  cases h with
  | failed passed => exact .failed (by rw [htest]; exact tick_failed passed now_ms)
  | idle running completed =>
    have hsame : n.test.tick now_ms n.service.toManagementService = (n.test, n.service.toManagementService) := by
      rw [MasterCommTest.tick]
      simp only [running, Bool.not_false, if_true]
    exact .idle (by rw [htest, hsame]; exact running) (by rw [htest, hsame]; exact completed)
  | waiting running completed sent_ms active acked =>
    have hwaits : (n.test.tick now_ms n.service.toManagementService).1.passed = false ∨
        n.test.tick now_ms n.service.toManagementService = (n.test, n.service.toManagementService) :=
      tick_waits running active now_ms
    rcases hwaits with hfailed | hsame
    · exact .failed (by rw [htest]; exact hfailed)
    · refine .waiting ?_ ?_ sent_ms ?_ ?_
      · rw [htest, hsame]
        exact running
      · rw [htest, hsame]
        exact completed
      · rw [htest, hsame]
        exact active
      · rw [hservice, hsame]
        exact acked
  | opening running completed opening clear =>
    cases opening with
    | started rest active plan next =>
      have hnexts := @tick_next n.test n.service.toManagementService running active _ _ plan now_ms
      rcases hnexts with hfailed | ⟨-, hnext⟩
      · exact .failed (by rw [htest]; exact hfailed)
      · have hkey : (n.test.requestOf MasterCommTest.statusStep).key ≠ descKey := by
          intro hsame
          have hid : n.test.next_req_id = 30001 := congrArg Prod.fst hsame
          rw [next] at hid
          exact absurd hid (by decide)
        refine .opening (by rw [htest, hnext]; exact running) (by rw [htest, hnext]; exact completed) ?_ ?_
        · rw [htest, hnext, next]
          exact .asked rest now_ms rfl rfl rfl
        · rw [hservice, hnext]
          exact clear_submitted clear now_ms hkey
    | asked rest sent_ms active plan next =>
      have hwaits : (n.test.tick now_ms n.service.toManagementService).1.passed = false ∨
          n.test.tick now_ms n.service.toManagementService = (n.test, n.service.toManagementService) :=
        tick_waits running active now_ms
      rcases hwaits with hfailed | hsame
      · exact .failed (by rw [htest]; exact hfailed)
      · refine .opening (by rw [htest, hsame]; exact running) (by rw [htest, hsame]; exact completed) ?_ ?_
        · rw [htest, hsame]
          exact .asked rest sent_ms active plan next
        · rw [hservice, hsame]
          exact clear
    | answered rest active plan next =>
      have hnexts := @tick_next n.test n.service.toManagementService running active _ _ plan now_ms
      rcases hnexts with hfailed | ⟨htaken, hnext⟩
      · exact .failed (by rw [htest]; exact hfailed)
      · refine .waiting ?_ ?_ now_ms ?_ ?_
        · rw [htest, hnext]
          exact running
        · rw [htest, hnext]
          exact completed
        · rw [htest, hnext, next]
        · rw [hservice, hnext]
          exact acked_submitted clear htaken

theorem Stage.feed (h : Stage n) : Stage (n.step registry floats id .feed) := by
  cases hqueue : n.service.response_queue with
  | nil =>
    have hstep : n.step registry floats id .feed = n := by
      simp only [CommTestNode.step, PullService.pollResponse, hqueue, List.head?_nil]
    rw [hstep]
    exact h
  | cons response rest =>
    have hstep : n.step registry floats id .feed =
        { test := (n.test.onResponse registry (decodePullResponse floats id) response).2
          service := n.service.pollResponse.2 } := by
      simp only [CommTestNode.step, PullService.pollResponse, hqueue, List.head?_cons]
    rw [hstep]
    cases h with
    | failed passed => exact .failed (onResponse_failed passed registry _ response)
    | idle running completed =>
      rw [onResponse_idle (.inl running)]
      exact .idle running completed
    | opening running completed opening clear =>
      have hclear := clear.pollResponse
      cases opening with
      | started rest active plan next =>
        rw [onResponse_idle (.inr active)]
        exact .opening running completed (.started rest active plan next) hclear
      | answered rest active plan next =>
        rw [onResponse_idle (.inr active)]
        exact .opening running completed (.answered rest active plan next) hclear
      | asked rest sent_ms active plan next =>
        by_cases hawaits : MasterCommTest.awaits response ⟨MasterCommTest.statusStep, 30000, sent_ms⟩
        · have hplain := @judge_plain n.test registry (decodePullResponse floats id)
            MasterCommTest.statusStep rfl response
          rw [onResponse_awaited running active registry _ hawaits, hplain]
          by_cases hok : (n.test.judge registry (decodePullResponse floats id) MasterCommTest.statusStep
              response).1 = true
          · exact .opening running completed (.answered rest rfl plan next) hclear
          · apply Stage.failed
            simp [hok]
        · rw [onResponse_other active registry _ hawaits]
          exact .opening running completed (.asked rest sent_ms active plan next) hclear
    | waiting running completed sent_ms active acked =>
      by_cases hawaits : MasterCommTest.awaits response ⟨MasterCommTest.descStep, 30001, sent_ms⟩
      · have hkey : response.key = descKey := Prod.ext hawaits.1 hawaits.2
        have hempty : response.payload = [] := by
          rcases acked with ⟨hnone, -⟩ | ⟨r, hfirst, hempty⟩
          · exact absurd hkey (hnone response (hqueue ▸ List.mem_cons_self))
          · rw [hqueue, List.find?_cons_of_pos (by simpa using hkey)] at hfirst
            obtain rfl := Option.some.inj hfirst
            exact hempty
        have hbad := @judge_empty n.test registry floats id MasterCommTest.descStep rfl response hempty
        apply Stage.failed
        rw [onResponse_awaited running active registry _ hawaits]
        dsimp only
        rw [hbad, Bool.and_false]
      · have hkey : response.key ≠ descKey := by
          intro hkey
          exact hawaits ⟨congrArg Prod.fst hkey, congrArg Prod.snd hkey⟩
        rw [onResponse_other active registry _ hawaits]
        refine .waiting running completed sent_ms active ?_
        have hrest : n.service.pollResponse.2.response_queue = rest := by
          rw [PullService.pollResponse]
          exact congrArg List.tail hqueue
        rcases acked with ⟨hnone, hpulls⟩ | ⟨r, hfirst, hempty⟩
        · refine .inl ⟨fun r hr => hnone r ?_, hpulls⟩
          rw [hqueue]
          exact List.mem_cons_of_mem response (hrest ▸ hr)
        · refine .inr ⟨r, ?_, hempty⟩
          rw [hqueue, List.find?_cons_of_neg (by simpa using hkey)] at hfirst
          rw [hrest]
          exact hfirst

theorem Stage.step (h : Stage n) (i : CommTestInput) (hi : n.Admits registry floats id i) :
    Stage (n.step registry floats id i) := by
  cases i with
  | start now_ms options => exact h.start now_ms options hi
  | testTick now_ms => exact h.testTick now_ms
  | feed => exact h.feed
  | serviceTick now_ms calls =>
    refine h.service (fun hclear => hclear.tick now_ms calls) fun hacked => ?_
    exact hacked.kept hi fun _ => addsAcks_tick rfl now_ms calls
  | pullResponse peer corr_id payload =>
    refine h.service (fun hclear => hclear.onPullResponse floats id peer corr_id payload) fun hacked => ?_
    exact hacked.kept hi fun hpulls => addsAcks_onPullResponse hpulls floats id peer corr_id payload
  | submit now_ms request =>
    refine h.service (fun hclear => hclear.submit now_ms hi.1) fun hacked => ?_
    exact hacked.kept hi.2 fun _ => addsAcks_submit now_ms request

end NodeSteps

/-- A service and a test as they start. -/
def CommTestNode.fresh (max_queue_depth : Nat) (local_role : Role) (has_pull : Bool) : CommTestNode where
  service := { toManagementService := .start max_queue_depth, local_role := local_role, has_pull := has_pull }

/-- However the peer answers: in no run has a test passed, as the first response to its request for the device has
no payload to decode. -/
theorem comm_test_never_passes (registry : ProfileRegistry) (floats : FloatText) (id : CodecId)
    (max_queue_depth : Nat) (local_role : Role) (has_pull : Bool) (n : CommTestNode)
    (hrun : Run (CommTestNode.step registry floats id) (CommTestNode.Admits registry floats id)
      (.fresh max_queue_depth local_role has_pull) n) : n.test.summary.passed = false := by
  have hstage : Stage n := by
    refine hrun.invariant (.idle rfl rfl) ?_
    intro x i hx hi
    exact hx.step i hi
  exact hstage.not_passed

/-- No query of a test is sent to a peer, whatever the role of the service: a master asks for the peer that the
test does not name, and a slave refuses the command. -/
theorem executePull_requestOf (s : PullService) (calls : PullCalls) (t : MasterCommTest) (step : CommTestStep) :
    (s.executePull calls (t.requestOf step)).2 = none := by
  have huntargeted : (t.requestOf step).target_peer = none := rfl
  rw [PullService.executePull]
  by_cases hrole : s.local_role = .Master
  · rw [if_neg (not_not.mpr hrole), PullService.runDescriptorPull]
    split
    · rfl
    · have hpeer : s.requirePairedPeer calls (t.requestOf step) = .error ⟨.BadPayload, by decide⟩ := by
        simp only [PullService.requirePairedPeer, huntargeted, hrole, if_true]
      rw [hpeer]
  · rw [if_pos hrole]

section ConformingPeer

/-- The type of a descriptor that the test decodes. -/
def describedType (floats : FloatText) (id : CodecId) (payload : Bytes) : Option DescriptorResponseType :=
  match decodePullResponse floats id payload with
  | some (.descriptor d) => some d.type
  | _ => none

/-- Every query that the service has sent to the peer and deferred, it has answered later, with a descriptor of
the type that the test expects. -/
def Conforms (floats : FloatText) (id : CodecId) (n : CommTestNode) : Prop :=
  ∀ q ∈ n.service.answers, q.response.status = .OkDeferred →
    ∃ a ∈ n.service.answers, a.response.key = q.response.key ∧ a.response.status = .Ok ∧
      ∃ step ∈ MasterCommTest.settingStep 0 :: MasterCommTest.basePlan n.test.options,
        step.cmd = q.response.cmd_id ∧ describedType floats id a.response.payload = some step.expected_desc

instance (floats : FloatText) (id : CodecId) (n : CommTestNode) : Decidable (Conforms floats id n) :=
  inferInstanceAs (Decidable (∀ _ ∈ _, _ → ∃ _ ∈ _, _))

instance (k : ResponseKey) (s : PullService) : Decidable (Clear k s) :=
  decidable_of_iff ((∀ p ∈ s.request_queue, p.request.key ≠ k) ∧
      (∀ c ∈ s.deferred_topology_commits, c.key ≠ k) ∧
      (∀ pull ∈ s.pending_descriptor_pulls, pull.key ≠ k) ∧ ∀ r ∈ s.response_queue, r.key ≠ k)
    ⟨fun h => ⟨h.1, h.2.1, h.2.2.1, h.2.2.2⟩, fun h => ⟨h.requests, h.commits, h.pulls, h.responses⟩⟩

instance (registry : ProfileRegistry) (floats : FloatText) (id : CodecId) (n : CommTestNode) (i : CommTestInput) :
    Decidable (n.Admits registry floats id i) :=
  match i with
  | .feed => isTrue trivial
  | .start _ _ => inferInstanceAs (Decidable (_ ∨ _))
  | .submit _ _ => inferInstanceAs (Decidable (_ ∧ _))
  | .testTick _ => inferInstanceAs (Decidable (_ <+: _))
  | .serviceTick _ _ => inferInstanceAs (Decidable (_ <+: _))
  | .pullResponse _ _ _ => inferInstanceAs (Decidable (_ <+: _))

/-- The peer that the service is paired with; every pull is sent to it. -/
def pairedCalls : PullCalls where
  persisted _ := true
  paired := some zeroMac
  sent _ _ := true
  status_payload := [1]
  other _ := .answered []

/-- A whole test of a master: each of its eight steps is submitted, executed and answered. The master sends no
query, as the test names no peer, so there is nothing that the device leaves unanswered. -/
def conformingInputs : List CommTestInput :=
  .start 0 {} :: (List.replicate 8 [.testTick 0, .serviceTick 0 pairedCalls, .feed]).flatten ++ [.testTick 0]

def noProfiles : ProfileRegistry := fun _ => none

theorem conformingInputs_admitted : Admitted (CommTestNode.step noProfiles noFloats .Default)
    (CommTestNode.Admits noProfiles noFloats .Default) (.fresh 32 .Master true) conformingInputs := by
  decide +kernel

/-- A test of a device that leaves no query unanswered. -/
def conformingRun : CommTestNode :=
  conformingInputs.foldl (CommTestNode.step noProfiles noFloats .Default) (.fresh 32 .Master true)

theorem conforming_run_not_passed : conformingRun.test.summary.passed = false :=
  comm_test_never_passes noProfiles noFloats .Default 32 .Master true conformingRun
    (Run.of_admitted conformingInputs conformingInputs_admitted)

/-- The device conforms, and each step that asks for it has failed. -/
theorem conforming_peer_fails :
    ¬ ∀ (registry : ProfileRegistry) (floats : FloatText) (id : CodecId) (max_queue_depth : Nat)
      (local_role : Role) (has_pull : Bool) (n : CommTestNode),
      Run (CommTestNode.step registry floats id) (CommTestNode.Admits registry floats id)
        (.fresh max_queue_depth local_role has_pull) n →
      Conforms floats id n → n.test.running = false → n.test.summary.completed = true ∧
        n.test.summary.passed = true ∧ n.test.summary.failed_count = 0 := by
  intro h
  have hfacts : Conforms noFloats .Default conformingRun ∧ conformingRun.test.running = false ∧
      conformingRun.test.summary.completed = true ∧ conformingRun.test.summary.failed_count = 7 := by
    decide +kernel
  obtain ⟨hconforms, hended, -, hfailed⟩ := hfacts
  obtain ⟨-, -, hnone⟩ := h noProfiles noFloats .Default 32 .Master true conformingRun
    (Run.of_admitted conformingInputs conformingInputs_admitted) hconforms hended
  rw [hfailed] at hnone
  exact absurd hnone (by decide)

end ConformingPeer

end EspNowLink
