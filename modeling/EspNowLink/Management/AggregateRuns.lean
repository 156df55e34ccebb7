import EspNowLink.Management.AggregateSessions
import Mathlib.Data.List.Induction

namespace EspNowLink

namespace Aggregate

section Runs

variable {α : Type} [Inhabited α]

/-- The id under which a session asks the target at a place. -/
def corrAt (req_id : UInt32) (i : Nat) : UInt32 := req_id + 1 + UInt32.ofNat i

/-- What holds of a session that a command opened after `pre`, with `mid` since then: the marks are those of the
targets from which a response under their id has come. -/
structure OpenSince (pre mid : List (Input α)) (req_id : UInt32) (value : α) (targets : List MacAddress)
    (a : Aggregate α) : Prop where
  idle : (run pre).session.active = false
  some_target : targets ≠ []
  once : targets.Nodup
  active : a.session.active = true
  req_id_eq : a.session.req_id = req_id
  value_eq : a.session.value = value
  started : a.session.started_ms = (run pre).now_ms
  timeout : a.session.timeout_ms = 4000
  peers : a.session.peers = targets
  corr_ids : a.session.corr_ids = (List.range targets.length).map (corrAt req_id)
  events : a.events = (run pre).events
  marks : a.session.acked.length = targets.length
  answered : ∀ i (h : i < targets.length),
    a.session.acked[i]? = some true ↔ .response targets[i] (corrAt req_id i) ∈ mid

variable {pre mid : List (Input α)} {req_id : UInt32} {value : α} {targets : List MacAddress} {a : Aggregate α}

theorem run_append (inputs : List (Input α)) (i : Input α) : run (inputs ++ [i]) = step (run inputs) i := by
  rw [run, List.foldl_append]
  rfl

theorem stop_inactive (a : Aggregate α) (success : Bool) (status : ManagementStatus) :
    (a.stop success status).session.active = false := by
  rw [stop]
  split
  · next hidle =>
    rw [Bool.and_eq_true, Bool.not_eq_true'] at hidle
    exact hidle.1
  · rfl

/-- What a pump can do: it waits, or it ends the session late, or when all marks are set. -/
theorem pump_cases (a : Aggregate α) (now_ms : UInt32) (applies : Bool) :
    (a.session.active = false ∧ a.pump now_ms applies = { a with now_ms := now_ms }) ∨
    (a.session.active = true ∧
      ((a.session.timeout_ms ≠ 0 ∧ deadlineReached now_ms (a.session.started_ms + a.session.timeout_ms)) ∧
        a.pump now_ms applies = { a with now_ms := now_ms }.stop false .Timeout ∨
      ¬(a.session.timeout_ms ≠ 0 ∧ deadlineReached now_ms (a.session.started_ms + a.session.timeout_ms)) ∧
        ((!a.session.acked.isEmpty && a.session.acked.all id) = true ∧
          a.pump now_ms applies =
            { a with now_ms := now_ms }.stop applies (if applies then .Ok else .InternalError) ∨
        ¬(!a.session.acked.isEmpty && a.session.acked.all id) = true ∧
          a.pump now_ms applies = { a with now_ms := now_ms }))) := by
  rw [pump]
  dsimp only
  cases hactive : a.session.active with
  | false => exact .inl ⟨rfl, if_pos rfl⟩
  | true =>
    refine .inr ⟨rfl, ?_⟩
    rw [if_neg (by simp)]
    split
    · next hlate => exact .inl ⟨hlate, rfl⟩
    · next hearly =>
      refine .inr ⟨hearly, ?_⟩
      split
      · next hall => exact .inl ⟨hall, rfl⟩
      · next hwaits => exact .inr ⟨hwaits, rfl⟩

theorem sendAll_corr_ids {sends : MacAddress → UInt32 → Bool} {peers : List MacAddress} {corr : UInt32}
    (h : (sendAll sends peers corr).2 = true) :
    (sendAll sends peers corr).1 = (List.range peers.length).map fun i => corr + UInt32.ofNat i := by
  induction peers generalizing corr with
  | nil => rfl
  | cons peer peers ih =>
    rw [sendAll] at h ⊢
    by_cases hsends : sends peer corr = true
    · rw [if_pos hsends] at h ⊢
      rw [List.length_cons, List.range_succ_eq_map, List.map_cons, List.map_map]
      have hrest := ih h
      dsimp only at hrest ⊢
      rw [hrest]
      refine congrArg₂ List.cons (by simp) (List.map_congr_left fun i _ => ?_)
      simp [UInt32.ofNat_add, UInt32.add_assoc, UInt32.add_comm]
    · rw [if_neg hsends] at h
      cases h

/-- A command that opens a session. -/
theorem opens (hidle : (run pre).session.active = false) (once : targets.Nodup) {sends : MacAddress → UInt32 → Bool}
    {applies : Bool} (hactive : ((run pre).command req_id value targets sends applies).session.active = true) :
    OpenSince pre [] req_id value targets ((run pre).command req_id value targets sends applies) := by
  rw [command, if_neg (by simp [hidle])] at hactive ⊢
  rw [start] at hactive ⊢
  by_cases hnone : targets = []
  · rw [if_pos hnone] at hactive
    dsimp only at hactive
    rw [stop_inactive] at hactive
    cases hactive
  · rw [if_neg hnone] at hactive ⊢
    have hsent : (sendAll sends targets (req_id + 1)).2 = true := hactive
    refine ⟨hidle, hnone, once, hactive, rfl, rfl, rfl, rfl, rfl, ?_, rfl, List.length_replicate, fun i h => ?_⟩
    · exact sendAll_corr_ids hsent
    · simp [h]

/-- The place of a response among those that a session waits for. -/
theorem place_of_response (h : OpenSince pre mid req_id value targets a) {peer : MacAddress} {corr_id : UInt32}
    {j : Nat} (hj : a.session.place peer corr_id = some j) (i : Nat) (hi : i < targets.length) :
    (targets[i] = peer ∧ corrAt req_id i = corr_id) ↔ i = j := by
  rw [AggregateSession.place, h.corr_ids, h.peers] at hj
  obtain ⟨hlt, hfound, -⟩ := List.findIdx?_eq_some_iff_getElem.mp hj
  have hjlt : j < targets.length := by simpa using hlt
  have hpair : corrAt req_id j = corr_id ∧ targets[j] = peer := by simpa using hfound
  constructor
  · rintro ⟨hpeer, -⟩
    exact (List.Nodup.getElem_inj_iff h.once).mp (hpeer.trans hpair.2.symm)
  · rintro rfl
    exact hpair.symm

theorem no_place_of_response (h : OpenSince pre mid req_id value targets a) {peer : MacAddress} {corr_id : UInt32}
    (hnone : a.session.place peer corr_id = none) (i : Nat) (hi : i < targets.length) :
    ¬(targets[i] = peer ∧ corrAt req_id i = corr_id) := by
  rw [AggregateSession.place, h.corr_ids, h.peers] at hnone
  rintro ⟨hpeer, hcorr⟩
  have hmem : (corrAt req_id i, targets[i]) ∈ ((List.range targets.length).map (corrAt req_id)).zip targets := by
    refine List.mem_iff_getElem.mpr ⟨i, by simpa using hi, ?_⟩
    simp
  have hfalse := List.findIdx?_eq_none_iff.mp hnone _ hmem
  rw [hcorr, hpeer] at hfalse
  simp at hfalse

/-- An input that is no response changes nothing in an open session, unless it ends it. -/
theorem OpenSince.more {t : Aggregate α} (h : OpenSince pre mid req_id value targets a) {i : Input α}
    (hother : ∀ peer corr_id, i ≠ .response peer corr_id) (hsession : t.session = a.session)
    (hevents : t.events = a.events) : OpenSince pre (mid ++ [i]) req_id value targets t := by
  refine ⟨h.idle, h.some_target, h.once, ?_, ?_, ?_, ?_, ?_, ?_, ?_, ?_, ?_, fun k hk => ?_⟩
  · exact hsession ▸ h.active
  · exact hsession ▸ h.req_id_eq
  · exact hsession ▸ h.value_eq
  · exact hsession ▸ h.started
  · exact hsession ▸ h.timeout
  · exact hsession ▸ h.peers
  · exact hsession ▸ h.corr_ids
  · exact hevents.trans h.events
  · exact hsession ▸ h.marks
  · rw [hsession, h.answered k hk, List.mem_append, List.mem_singleton]
    constructor
    · exact .inl
    · rintro (hold | heq)
      · exact hold
      · exact absurd heq.symm (hother _ _)

theorem OpenSince.response (h : OpenSince pre mid req_id value targets a) (peer : MacAddress) (corr_id : UInt32) :
    OpenSince pre (mid ++ [.response peer corr_id]) req_id value targets (a.onPullResponseSeen peer corr_id) := by
  rw [onPullResponseSeen, if_pos h.active]
  rcases hplace : a.session.place peer corr_id with _ | j
  · dsimp only
    refine { h with answered := fun i hi => ?_ }
    rw [h.answered i hi, List.mem_append, List.mem_singleton, Input.response.injEq]
    exact ⟨.inl, fun hor => hor.resolve_right (no_place_of_response h hplace i hi)⟩
  · dsimp only
    refine { h with marks := by rw [List.length_set]; exact h.marks, answered := fun i hi => ?_ }
    rw [List.mem_append, List.mem_singleton, Input.response.injEq, place_of_response h hplace i hi,
      ← h.answered i hi, List.getElem?_set]
    by_cases hij : j = i
    · rw [if_pos hij, if_pos (by rw [hij, h.marks]; exact hi)]
      simp [hij]
    · rw [if_neg hij]
      exact ⟨.inl, fun hor => hor.resolve_right fun heq => hij heq.symm⟩

/-- A step that leaves an open session open. -/
theorem OpenSince.step (h : OpenSince pre mid req_id value targets a) (i : Input α)
    (hactive : (a.step i).session.active = true) : OpenSince pre (mid ++ [i]) req_id value targets (a.step i) := by
  cases i with
  | command req_id' value' targets' sends applies =>
    refine h.more (fun _ _ heq => nomatch heq) ?_ ?_
    · rw [Aggregate.step, command, if_pos h.active]
    · rw [Aggregate.step, command, if_pos h.active]
  | response peer corr_id => exact h.response peer corr_id
  | pump now_ms applies =>
    rw [Aggregate.step] at hactive ⊢
    rcases pump_cases a now_ms applies with ⟨hidle, -⟩ | ⟨-, ⟨-, hstop⟩ | ⟨-, ⟨-, hstop⟩ | ⟨-, hsame⟩⟩⟩
    · rw [h.active] at hidle
      cases hidle
    · rw [hstop, stop_inactive] at hactive
      cases hactive
    · rw [hstop, stop_inactive] at hactive
      cases hactive
    · rw [hsame]
      exact h.more (fun _ _ heq => nomatch heq) rfl rfl
  | transition =>
    rw [Aggregate.step, stop_inactive] at hactive
    cases hactive
  | clearQueues => cases hactive

/-- A session that is open after a run was opened by a command of it. -/
theorem opened (inputs : List (Input α)) (hactive : (run inputs).session.active = true) :
    ∃ pre req_id value targets sends applies mid, inputs = pre ++ .command req_id value targets sends applies :: mid ∧
      OpenSince pre mid req_id value targets.1 (run inputs) := by
  induction inputs using List.reverseRecOn with
  | nil => cases hactive
  | append_singleton inputs i ih =>
    rw [run_append] at hactive ⊢
    by_cases hbefore : (run inputs).session.active = true
    · obtain ⟨pre, req_id, value, targets, sends, applies, mid, rfl, hopen⟩ := ih hbefore
      exact ⟨pre, req_id, value, targets, sends, applies, mid ++ [i], by simp, hopen.step i hactive⟩
    · have hidle : (run inputs).session.active = false := by simpa using hbefore
      cases i with
      | command req_id value targets sends applies =>
        exact ⟨inputs, req_id, value, targets, sends, applies, [], rfl, opens hidle targets.2 hactive⟩
      | response peer corr_id =>
        rw [step, onPullResponseSeen, if_neg hbefore] at hactive
        exact absurd hactive hbefore
      | pump now_ms applies =>
        rcases pump_cases (run inputs) now_ms applies with ⟨-, hsame⟩ | ⟨hopen, -⟩
        · rw [step, hsame] at hactive
          exact absurd hactive hbefore
        · exact absurd hopen hbefore
      | transition =>
        rw [step, stop_inactive] at hactive
        cases hactive
      | clearQueues => cases hactive

/-- All marks are set exactly when every target has answered. -/
theorem OpenSince.all_answered (h : OpenSince pre mid req_id value targets a) :
    (!a.session.acked.isEmpty && a.session.acked.all id) = true ↔
      ∀ i (hi : i < targets.length), .response targets[i] (corrAt req_id i) ∈ mid := by
  have hlength : a.session.acked ≠ [] := by
    intro hempty
    have hmarks := h.marks
    rw [hempty] at hmarks
    exact h.some_target (List.length_eq_zero_iff.mp hmarks.symm)
  rw [Bool.and_eq_true, Bool.not_eq_true', List.isEmpty_eq_false_iff, List.all_eq_true]
  constructor
  · rintro ⟨-, hall⟩ i hi
    have hlt : i < a.session.acked.length := h.marks ▸ hi
    refine (h.answered i hi).mp ?_
    have hmark : a.session.acked[i] = true := hall _ (List.getElem_mem hlt)
    rw [List.getElem?_eq_getElem hlt, hmark]
  · refine fun hall => ⟨hlength, fun mark hmark => ?_⟩
    obtain ⟨i, hlt, rfl⟩ := List.mem_iff_getElem.mp hmark
    have hi : i < targets.length := h.marks ▸ hlt
    have hset := (h.answered i hi).mpr (hall i hi)
    rw [List.getElem?_eq_getElem hlt] at hset
    exact Option.some.inj hset

/-- A pump tells of a success of an open session exactly when it is in time, the channel is applied, and all have
answered. -/
theorem OpenSince.pump (h : OpenSince pre mid req_id value targets a) (now_ms : UInt32) (applies : Bool) :
    (∀ e, (a.pump now_ms applies).events = e :: a.events → e.req_id = req_id ∧ e.value = value) ∧
      ((∃ e, (a.pump now_ms applies).events = e :: a.events ∧ e.done = true) ↔
        applies = true ∧ deadlineReached now_ms ((run pre).now_ms + 4000) = false ∧
          ∀ i (hi : i < targets.length), .response targets[i] (corrAt req_id i) ∈ mid) := by
  rw [← h.all_answered]
  -- the event of a session that ends
  have hstop : ∀ (success : Bool) (status : ManagementStatus) (e : AggregateEvent α),
      (({ a with now_ms := now_ms } : Aggregate α).stop success status).events = e :: a.events ↔
        e = ⟨success, req_id, status, value, min (a.session.acked.countP id) 255,
          min a.session.peers.length 255⟩ := by
    intro success status e
    rw [stop, if_neg (by simp [h.active]), List.cons.injEq, h.req_id_eq, h.value_eq]
    exact ⟨fun heq => heq.1.symm, fun heq => ⟨heq.symm, rfl⟩⟩
  rcases pump_cases a now_ms applies with ⟨hidle, -⟩ | ⟨-, hcases⟩
  · rw [h.active] at hidle
    cases hidle
  rw [h.started, h.timeout] at hcases
  rcases hcases with ⟨⟨-, hlate⟩, hpump⟩ | ⟨hearly, ⟨hall, hpump⟩ | ⟨hwaits, hpump⟩⟩
  · rw [hpump]
    refine ⟨fun e he => ?_, ?_, fun hdone => ?_⟩
    · rw [(hstop _ _ e).mp he]
      exact ⟨rfl, rfl⟩
    · rintro ⟨e, he, hdone⟩
      rw [(hstop _ _ e).mp he] at hdone
      cases hdone
    · rw [hlate] at hdone
      cases hdone.2.1
  · have hintime : deadlineReached now_ms ((run pre).now_ms + 4000) = false := by
      simpa using hearly
    rw [hpump]
    refine ⟨fun e he => ?_, ?_, fun hdone => ⟨_, (hstop _ _ _).mpr rfl, hdone.1⟩⟩
    · rw [(hstop _ _ e).mp he]
      exact ⟨rfl, rfl⟩
    · rintro ⟨e, he, hdone⟩
      rw [(hstop _ _ e).mp he] at hdone
      exact ⟨hdone, hintime, hall⟩
  · have hsame : ∀ e : AggregateEvent α, a.events ≠ e :: a.events := fun e => (List.cons_ne_self e _).symm
    rw [hpump]
    refine ⟨fun e he => absurd he (hsame e), ?_, fun hdone => absurd hdone.2.2 hwaits⟩
    rintro ⟨e, he, -⟩
    exact absurd he (hsame e)

/-- An open session was opened by one command of the run. A pump tells of its success exactly when it is in time, the
channel is applied, and every target has sent a response under its id since that command: whatever the response says,
and whichever request it answers. -/
theorem session_done_iff (inputs : List (Input α)) (hactive : (run inputs).session.active = true) :
    ∃ pre req_id value targets sends applied mid,
      inputs = pre ++ .command req_id value targets sends applied :: mid ∧
      (run pre).session.active = false ∧ (run inputs).events = (run pre).events ∧
      ∀ now_ms applies,
        (∃ e, (run (inputs ++ [.pump now_ms applies])).events = e :: (run inputs).events ∧ e.done = true) ↔
          applies = true ∧ deadlineReached now_ms ((run pre).now_ms + 4000) = false ∧
            ∀ i (hi : i < targets.1.length), .response targets.1[i] (corrAt req_id i) ∈ mid := by
  obtain ⟨pre, req_id, value, targets, sends, applied, mid, hinputs, hopen⟩ := opened inputs hactive
  refine ⟨pre, req_id, value, targets, sends, applied, mid, hinputs, hopen.idle, hopen.events, ?_⟩
  intro now_ms applies
  rw [run_append]
  exact (hopen.pump now_ms applies).2

omit [Inhabited α] in
/-- A command with responses after it is the one that opened the session. -/
theorem opening_command {c : Input α} {responses : List (MacAddress × UInt32)} {pre mid : List (Input α)}
    {req_id : UInt32} {value : α} {targets : {peers : List MacAddress // peers.Nodup}} {sends : MacAddress → UInt32 → Bool}
    {applied : Bool}
    (h : c :: responses.map (fun r => .response r.1 r.2) =
      pre ++ .command req_id value targets sends applied :: mid) :
    pre = [] ∧ c = .command req_id value targets sends applied ∧
      mid = responses.map fun r => .response r.1 r.2 := by
  cases pre with
  | nil =>
    obtain ⟨hc, hmid⟩ := List.cons.inj h
    exact ⟨rfl, hc, hmid.symm⟩
  | cons head tail =>
    have hmem : Input.command req_id value targets sends applied ∈ responses.map fun r => .response r.1 r.2 := by
      rw [(List.cons.inj h).2]
      exact List.mem_append_right tail List.mem_cons_self
    obtain ⟨r, -, hr⟩ := List.mem_map.mp hmem
    cases hr

/-- Channel 6 is asked of two peers, and `responses` come. -/
def twoAsked (responses : List (MacAddress × UInt32)) : List (Input UInt8) :=
  startChannelSyncAll 40 6 [(Vector.replicate 6 1, 1), (Vector.replicate 6 2, 2)] none (fun _ => true) true ::
    responses.map fun r => .response r.1 r.2

/-- A response of the second peer under the id of the request to the first one does not end the session; one under
its own id does. -/
theorem twoAsked_done :
    (¬ ∃ e, (run (twoAsked [(Vector.replicate 6 1, 41), (Vector.replicate 6 2, 41)] ++ [.pump 500 true])).events =
        e :: (run (twoAsked [(Vector.replicate 6 1, 41), (Vector.replicate 6 2, 41)])).events ∧ e.done = true) ∧
      ∃ e, (run (twoAsked [(Vector.replicate 6 1, 41), (Vector.replicate 6 2, 42)] ++ [.pump 500 true])).events =
        e :: (run (twoAsked [(Vector.replicate 6 1, 41), (Vector.replicate 6 2, 42)])).events ∧ e.done = true := by
  constructor
  · obtain ⟨pre, req_id, value, targets, sends, applied, mid, hinputs, -, -, hdone⟩ :=
      session_done_iff (twoAsked [(Vector.replicate 6 1, 41), (Vector.replicate 6 2, 41)]) (by decide +kernel)
    obtain ⟨rfl, hcommand, rfl⟩ := opening_command hinputs
    obtain ⟨rfl, -, rfl, -, -⟩ := Input.command.inj hcommand
    rw [hdone 500 true]
    rintro ⟨-, -, hall⟩
    obtain ⟨r, hr, heq⟩ := List.mem_map.mp (hall 1 (by decide +kernel))
    have hother : ∀ r ∈ [((Vector.replicate 6 1 : MacAddress), (41 : UInt32)), (Vector.replicate 6 2, 41)],
        r.2 ≠ corrAt 40 1 := by decide +kernel
    exact hother r hr (Input.response.inj heq).2
  · obtain ⟨pre, req_id, value, targets, sends, applied, mid, hinputs, -, -, hdone⟩ :=
      session_done_iff (twoAsked [(Vector.replicate 6 1, 41), (Vector.replicate 6 2, 42)]) (by decide +kernel)
    obtain ⟨rfl, hcommand, rfl⟩ := opening_command hinputs
    obtain ⟨rfl, -, rfl, -, -⟩ := Input.command.inj hcommand
    refine (hdone 500 true).mpr ⟨rfl, by decide +kernel, ?_⟩
    let asked := (channelSyncTargets [(Vector.replicate 6 1, 1), (Vector.replicate 6 2, 2)] none).map (·.1)
    have hown : ∀ i (hi : i < asked.length), (asked[i], corrAt 40 i) ∈
        [((Vector.replicate 6 1 : MacAddress), (41 : UInt32)), (Vector.replicate 6 2, 42)] := by decide +kernel
    exact fun i hi => List.mem_map.mpr ⟨_, hown i hi, rfl⟩

theorem stop_events (a : Aggregate α) (success : Bool) (status : ManagementStatus) :
    (a.stop success status).events = a.events ∨ ∃ e, (a.stop success status).events = e :: a.events ∧
      e.done = success := by
  rw [stop]
  split
  · exact .inl rfl
  · exact .inr ⟨_, rfl, rfl⟩

/-- A stop without success tells of none. -/
theorem stop_failed (a : Aggregate α) (status : ManagementStatus) (P : AggregateEvent α → Prop) :
    (a.stop false status).events = a.events ∨
      ∃ e, (a.stop false status).events = e :: a.events ∧ (e.done = true → P e) := by
  refine (stop_events a false status).imp_right ?_
  rintro ⟨e, he, hfailed⟩
  refine ⟨e, he, fun hdone => ?_⟩
  rw [hfailed] at hdone
  cases hdone

/-- A step tells of a success when it is a command without targets or a pump of an open session. -/
theorem step_events (a : Aggregate α) (i : Input α) :
    (a.step i).events = a.events ∨ ∃ e, (a.step i).events = e :: a.events ∧ (e.done = true →
      (∃ req_id targets sends, i = .command req_id e.value targets sends true ∧ targets.1 = []) ∨
        ∃ now_ms, i = .pump now_ms true ∧ a.session.active = true) := by
  cases i with
  | command req_id value targets sends applies =>
    rw [step, command]
    split
    · exact .inl rfl
    · rw [start]
      by_cases hnone : targets.1 = []
      · rw [if_pos hnone]
        refine .inr ⟨_, rfl, fun hdone => ?_⟩
        obtain rfl : applies = true := hdone
        exact .inl ⟨req_id, targets, sends, rfl, hnone⟩
      · rw [if_neg hnone]
        exact .inl rfl
  | response peer corr_id =>
    rw [step, onPullResponseSeen]
    left
    split
    · split <;> rfl
    · rfl
  | pump now_ms applies =>
    rw [step]
    rcases pump_cases a now_ms applies with ⟨-, hsame⟩ | ⟨hactive, ⟨-, hstop⟩ | ⟨-, ⟨-, hstop⟩ | ⟨-, hsame⟩⟩⟩
    · rw [hsame]
      exact .inl rfl
    · rw [hstop]
      exact stop_failed { a with now_ms := now_ms } .Timeout _
    · rw [hstop]
      refine (stop_events { a with now_ms := now_ms } applies _).imp_right ?_
      rintro ⟨e, he, hown⟩
      refine ⟨e, he, fun hdone => ?_⟩
      obtain rfl : applies = true := hown.symm.trans hdone
      exact .inr ⟨now_ms, rfl, hactive⟩
    · rw [hsame]
      exact .inl rfl
  | transition => exact stop_failed a .BusyRadioTransition _
  | clearQueues => exact .inl rfl

/-- The responses that a success needs have come: there is no target to ask, or each target has sent one under its id
between the command that asks it and the pump that tells the success. -/
def Answered (inputs : List (Input α)) (e : AggregateEvent α) : Prop :=
  ∃ before i after, inputs = before ++ i :: after ∧
    ((∃ req_id targets sends, i = .command req_id e.value targets sends true ∧ targets.1 = []) ∨
      ∃ now_ms pre targets sends applied mid, i = .pump now_ms true ∧
        before = pre ++ .command e.req_id e.value targets sends applied :: mid ∧
        (run pre).session.active = false ∧
        ∀ k (hk : k < targets.1.length), .response targets.1[k] (corrAt e.req_id k) ∈ mid)

theorem Answered.append {inputs : List (Input α)} {e : AggregateEvent α} (h : Answered inputs e) (i : Input α) :
    Answered (inputs ++ [i]) e := by
  obtain ⟨before, j, after, rfl, hcase⟩ := h
  exact ⟨before, j, after ++ [i], by simp, hcase⟩

/-- In every run, no session tells of a success before each of its targets has answered under its id. -/
theorem done_answered (inputs : List (Input α)) {e : AggregateEvent α} (he : e ∈ (run inputs).events)
    (hdone : e.done = true) : Answered inputs e := by
  induction inputs using List.reverseRecOn with
  | nil => cases he
  | append_singleton inputs i ih =>
    rw [run_append] at he
    rcases step_events (run inputs) i with hsame | ⟨e', hnew, hcase⟩
    · rw [hsame] at he
      exact (ih he).append i
    · rw [hnew, List.mem_cons] at he
      rcases he with rfl | hold
      · rcases hcase hdone with hnone | ⟨now_ms, rfl, hactive⟩
        · exact ⟨inputs, i, [], rfl, .inl hnone⟩
        · obtain ⟨pre, req_id, value, targets, sends, applied, mid, hinputs, hopen⟩ := opened inputs hactive
          obtain ⟨hown, honly⟩ := hopen.pump now_ms true
          obtain ⟨rfl, rfl⟩ := hown e hnew
          obtain ⟨-, -, hall⟩ := honly.mp ⟨e, hnew, hdone⟩
          exact ⟨inputs, _, [], rfl, .inr ⟨now_ms, pre, targets, sends, applied, mid, rfl, hinputs, hopen.idle, hall⟩⟩
      · exact (ih hold).append i

end Runs

section ChainLoop

/-- The chain loop is on as it was loaded, or because each target of the last session has answered. -/
theorem chain_loop_answered (loaded : Bool) (inputs : List (Input Bool))
    (hon : chainLoopEnabled loaded (run inputs).events = true) :
    (run inputs).events = [] ∧ loaded = true ∨
      ∃ e ∈ (run inputs).events.head?, e.value = true ∧ Answered inputs e := by
  rcases hevents : (run inputs).events with _ | ⟨e, events⟩
  · rw [hevents] at hon
    exact .inl ⟨rfl, hon⟩
  · rw [hevents, chainLoopEnabled, Bool.and_eq_true] at hon
    have hmem : e ∈ (run inputs).events := by
      rw [hevents]
      exact List.mem_cons_self
    exact .inr ⟨e, rfl, hon.2, done_answered inputs hmem hon.1⟩

/-- Two nodes are asked to loop and answer, one of them twice. -/
def bothAnswer : List (Input Bool) :=
  [startChainLoopAll 7 true [(Vector.replicate 6 1, 3), (Vector.replicate 6 2, 4)] none fun _ => true,
    .response (Vector.replicate 6 2) 9, pumpChainLoopAll 1000, .response (Vector.replicate 6 2) 9,
    .response (Vector.replicate 6 1) 8]

/-- Then the chain loop is on. -/
theorem bothAnswer_on :
    ∃ e ∈ (run (bothAnswer ++ [pumpChainLoopAll 2000])).events.head?, e.value = true ∧
      Answered (bothAnswer ++ [pumpChainLoopAll 2000]) e := by
  have hevents : (run (bothAnswer ++ [pumpChainLoopAll 2000])).events ≠ [] := by
    decide +kernel
  have hon := chain_loop_answered false (bothAnswer ++ [pumpChainLoopAll 2000]) (by decide +kernel)
  exact hon.resolve_left fun h => hevents h.1

end ChainLoop

end Aggregate

end EspNowLink
