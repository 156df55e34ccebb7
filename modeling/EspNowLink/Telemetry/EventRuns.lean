import EspNowLink.Telemetry.MandatoryEvents

namespace EspNowLink

open Framework

namespace EventQueue

variable {q q' : EventQueue} {i : QueueInput}

/-- What a step does to the queued events. -/
inductive QueueCase (q : EventQueue) (i : QueueInput) : List PendingMandatoryEvent → Prop
  | same (hquiet : ¬ q.TriesFront false i) : QueueCase q i q.mandatory_event_queue
  | replaced (ev : PendingMandatoryEvent) (events : List PendingMandatoryEvent)
      (hpublished : q.published i = some ev.event_id) (hcorr : ev.corr_id = q.mandatory_event_corr_seq)
      (hfresh : ev.retry_count = 0)
      (hreplaced : CoalescingQueue.replace (·.event_id) ev q.mandatory_event_queue = some events) :
      QueueCase q i events
  | pushed (ev : PendingMandatoryEvent) (hpublished : q.published i = some ev.event_id)
      (hfresh : ev.retry_count = 0) (hnew : ev.event_id ∉ q.mandatory_event_queue.map (·.event_id))
      (hroom : q.mandatory_event_queue.length < q.config.mandatory_event_max_queue.toNat) :
      QueueCase q i (q.mandatory_event_queue ++ [ev])
  | displaced (oldest ev : PendingMandatoryEvent) (rest : List PendingMandatoryEvent)
      (hpublished : q.published i = some ev.event_id) (hfresh : ev.retry_count = 0)
      (hnew : ev.event_id ∉ q.mandatory_event_queue.map (·.event_id))
      (hqueue : q.mandatory_event_queue = oldest :: rest)
      (hfull : q.config.mandatory_event_max_queue.toNat ≤ q.mandatory_event_queue.length) :
      QueueCase q i (rest ++ [ev])
  | sent (ev : PendingMandatoryEvent) (rest : List PendingMandatoryEvent) (htries : q.TriesFront true i)
      (hqueue : q.mandatory_event_queue = ev :: rest) : QueueCase q i rest
  | dropped (ev : PendingMandatoryEvent) (rest : List PendingMandatoryEvent) (htries : q.TriesFront false i)
      (hqueue : q.mandatory_event_queue = ev :: rest)
      (hused : ev.retry_count + 1 > q.config.mandatory_event_retry_max) : QueueCase q i rest
  | retried (ev : PendingMandatoryEvent) (rest : List PendingMandatoryEvent) (htries : q.TriesFront false i)
      (hqueue : q.mandatory_event_queue = ev :: rest)
      (hleft : ¬ ev.retry_count + 1 > q.config.mandatory_event_retry_max) :
      QueueCase q i ({ ev with retry_count := ev.retry_count + 1 } :: rest)

theorem publishMandatoryEvent_cases {event_id : UInt16} (hrole : q.config.local_role = .Slave)
    (hid : event_id ≠ 0) (severity : UInt8) (value : Int32) (event_ts_s : UInt32)
    (hmax : q.config.mandatory_event_max_queue ≠ 0) (hpublished : q.published i = some event_id)
    {u : EventQueue} (hconfig : u.config = q.config)
    (hqueue : u.mandatory_event_queue = q.mandatory_event_queue)
    (hseq : u.mandatory_event_corr_seq = q.mandatory_event_corr_seq) :
    ∃ q', (u.publishMandatoryEvent event_id severity value event_ts_s).map (·.2) = some q' ∧
      q'.config = q.config ∧ QueueCase q i q'.mandatory_event_queue := by
  have haccepted : ¬ (u.config.local_role ≠ .Slave ∨ event_id = 0) := by
    rw [hconfig]
    simp [hrole, hid]
  rw [publishMandatoryEvent, if_neg haccepted]
  dsimp only
  rw [hqueue, hseq, hconfig]
  generalize hev : (⟨event_id, severity, value, event_ts_s, q.mandatory_event_corr_seq, 0⟩ :
    PendingMandatoryEvent) = ev
  have hevid : q.published i = some ev.event_id := by rw [hpublished, ← hev]
  have hfresh : ev.retry_count = 0 := by rw [← hev]
  have hcorr : ev.corr_id = q.mandatory_event_corr_seq := by rw [← hev]
  cases hreplace : CoalescingQueue.replace (·.event_id) ev q.mandatory_event_queue with
  | some events => exact ⟨_, rfl, rfl, .replaced ev events hevid hcorr hfresh hreplace⟩
  | none =>
    have hnew := CoalescingQueue.replace_eq_none.mp hreplace
    dsimp only
    split
    · rename_i hfull
      cases hold : q.mandatory_event_queue with
      | nil =>
        have hzero : q.config.mandatory_event_max_queue.toNat = 0 := by
          rw [hold] at hfull
          exact Nat.le_zero.mp hfull
        exact absurd (UInt8.toNat_inj.mp hzero) hmax
      | cons oldest rest =>
        exact ⟨_, rfl, rfl, .displaced oldest ev rest hevid hfresh hnew hold hfull⟩
    · rename_i hroom
      refine ⟨_, rfl, rfl, ?_⟩
      exact .pushed ev hevid hfresh hnew (not_le.mp hroom)

theorem tickMandatoryEventQueue_cases (q : EventQueue) (now_ms : UInt32) (paired_peer : Option MacAddress)
    (result : Bool) : (q.tickMandatoryEventQueue now_ms paired_peer result).config = q.config ∧
      QueueCase q (.tick now_ms paired_peer result)
        (q.tickMandatoryEventQueue now_ms paired_peer result).mandatory_event_queue := by
  unfold tickMandatoryEventQueue
  split
  · rename_i ev rest master hqueue
    split
    · rename_i hwaits
      exact ⟨rfl, .same fun htries => hwaits htries.2.2.2⟩
    · rename_i hmay
      have htries : q.TriesFront result (.tick now_ms (some master) result) := by
        refine ⟨rfl, ?_, rfl, not_not.mp hmay⟩
        simp [hqueue]
      cases result with
      | true =>
        refine ⟨?_, ?_⟩
        · simp only [if_true, sendFront, report, withQueue]
          split <;> rfl
        · exact .sent ev rest htries hqueue
      | false =>
        simp only [Bool.false_eq_true, if_false, failFront]
        by_cases hused : ev.retry_count + 1 > q.config.mandatory_event_retry_max
        · rw [if_pos hused]
          refine ⟨by split <;> rfl, ?_⟩
          have hrest : QueueCase q (.tick now_ms (some master) false) rest := .dropped ev rest htries hqueue hused
          split <;> exact hrest
        · rw [if_neg hused]
          refine ⟨by split <;> rfl, ?_⟩
          have htried : QueueCase q (.tick now_ms (some master) false)
              ({ ev with retry_count := ev.retry_count + 1 } :: rest) := .retried ev rest htries hqueue hused
          split <;> exact htried
  · rename_i hidle
    refine ⟨rfl, .same ?_⟩
    rintro ⟨-, hqueue, hpaired, -⟩
    obtain ⟨master, rfl⟩ := Option.isSome_iff_exists.mp hpaired
    cases hold : q.mandatory_event_queue with
    | nil => exact hqueue hold
    | cons ev rest => exact hidle ev rest master hold rfl

/-- A step is defined as long as the configuration has room for what it publishes. -/
theorem step_cases (hmax : (q.published i).isSome = true → q.config.mandatory_event_max_queue ≠ 0) :
    ∃ q', q.step i = some q' ∧ q'.config = q.config ∧ QueueCase q i q'.mandatory_event_queue := by
  cases i with
  | publish event_id severity value event_ts_s =>
    by_cases hrefused : q.config.local_role ≠ .Slave ∨ event_id = 0
    · have hsame : q.step (.publish event_id severity value event_ts_s) = some q := by
        rw [step, publishMandatoryEvent, if_pos hrefused, Option.map_some]
      exact ⟨q, hsame, rfl, .same id⟩
    · have hpublished : q.published (.publish event_id severity value event_ts_s) = some event_id :=
        if_neg hrefused
      obtain ⟨hrole, hid⟩ := not_or.mp hrefused
      exact publishMandatoryEvent_cases (not_not.mp hrole) hid severity value event_ts_s
        (hmax (by rw [hpublished]; rfl)) hpublished rfl rfl rfl
  | bootNotice now_ms paired_peer notice =>
    by_cases hasks : q.AsksForNotice now_ms paired_peer
    · cases notice with
      | none =>
        have hsame : q.step (.bootNotice now_ms paired_peer none) = some q := by
          simp [step, tickOtaBootCompletionNotice]
        exact ⟨q, hsame, rfl, .same id⟩
      | some notice =>
        obtain ⟨metadata, epoch_s⟩ := notice
        have hpublished : q.published (.bootNotice now_ms paired_peer (some (metadata, epoch_s))) =
            some kOtaBootCompleteEventId := if_pos ⟨hasks, rfl⟩
        obtain ⟨q', hq', hconfig, hcase⟩ := publishMandatoryEvent_cases hasks.1 (by decide) 1
          (noticeValue metadata.sw_version) epoch_s (hmax (by rw [hpublished]; rfl)) hpublished
          (u := { q with ota_boot_notice_last_try_ms := now_ms }) rfl rfl rfl
        refine ⟨q', ?_, hconfig, hcase⟩
        simpa [step, tickOtaBootCompletionNotice, hasks] using hq'
    · have hsame : q.step (.bootNotice now_ms paired_peer notice) = some q := by
        simp [step, tickOtaBootCompletionNotice, hasks]
      exact ⟨q, hsame, rfl, .same id⟩
  | tick now_ms paired_peer result =>
    obtain ⟨hconfig, hcase⟩ := q.tickMandatoryEventQueue_cases now_ms paired_peer result
    exact ⟨_, rfl, hconfig, hcase⟩

theorem not_triesFront_of_published {event_id : UInt16} (h : q.published i = some event_id) (result : Bool) :
    ¬ q.TriesFront result i := by
  cases i with
  | tick now_ms paired_peer sent => cases h
  | publish | bootNotice => exact id

theorem QueueCase.leavesInOrder (hcase : QueueCase q i q'.mandatory_event_queue) : q.LeavesInOrder i q' := by
  generalize hevents : q'.mandatory_event_queue = events at hcase
  intro e he
  rw [hevents]
  cases hcase with
  | same => exact .inl ⟨e, he, rfl⟩
  | replaced ev _ hpublished hcorr _ hreplaced =>
    rcases CoalescingQueue.mem_replace hreplaced he with hstays | hid
    · exact .inl ⟨e, hstays, rfl⟩
    · refine .inr (.inr (.inr (.inl ⟨hpublished.trans (congrArg some hid.symm), ev, ?_, hid.symm, hcorr⟩)))
      exact CoalescingQueue.mem_of_replace hreplaced
  | pushed ev => exact .inl ⟨e, List.mem_append_left _ he, rfl⟩
  | displaced oldest ev rest hpublished _ _ hqueue hfull =>
    have hsome : (q.published i).isSome = true := by rw [hpublished]; rfl
    rcases List.mem_cons.mp (hqueue ▸ he) with rfl | hrest
    · exact .inr (.inr (.inr (.inr ⟨by rw [hqueue]; rfl, hsome, hfull⟩)))
    · exact .inl ⟨e, List.mem_append_left _ hrest, rfl⟩
  | sent ev rest htries hqueue =>
    rcases List.mem_cons.mp (hqueue ▸ he) with rfl | hrest
    · exact .inr (.inl ⟨by rw [hqueue]; rfl, htries⟩)
    · exact .inl ⟨e, hrest, rfl⟩
  | dropped ev rest htries hqueue hused =>
    rcases List.mem_cons.mp (hqueue ▸ he) with rfl | hrest
    · refine .inr (.inr (.inl ⟨by rw [hqueue]; rfl, htries, ?_⟩))
      have hlt := UInt8.lt_iff_toNat_lt.mp hused
      have hle : (e.retry_count + 1).toNat ≤ e.retry_count.toNat + 1 := Nat.mod_le _ _
      exact lt_of_lt_of_le hlt hle
    · exact .inl ⟨e, hrest, rfl⟩
  | retried ev rest htries hqueue =>
    rcases List.mem_cons.mp (hqueue ▸ he) with rfl | hrest
    · exact .inl ⟨_, List.mem_cons_self, rfl⟩
    · exact .inl ⟨e, List.mem_cons_of_mem _ hrest, rfl⟩

theorem Bounded.step (h : q.Bounded) (hconfig : q'.config = q.config)
    (hcase : QueueCase q i q'.mandatory_event_queue) : q'.Bounded := by
  obtain ⟨hlength, hids⟩ := h
  suffices hevents : q'.mandatory_event_queue.length ≤ q.config.mandatory_event_max_queue.toNat ∧
      (q'.mandatory_event_queue.map (·.event_id)).Nodup by
    exact ⟨by rw [hconfig]; exact hevents.1, hevents.2⟩
  generalize q'.mandatory_event_queue = events at hcase
  cases hcase with
  | same => exact ⟨hlength, hids⟩
  | replaced ev _ _ _ _ hreplaced =>
    rw [CoalescingQueue.replace_length hreplaced, CoalescingQueue.replace_keys hreplaced]
    exact ⟨hlength, hids⟩
  | pushed ev _ _ hnew hroom =>
    refine ⟨by rw [List.length_append]; exact hroom, ?_⟩
    rw [List.map_append, List.map_singleton]
    exact List.nodup_append.mpr ⟨hids, by simp, by simpa [List.mem_map] using hnew⟩
  | displaced oldest ev rest _ _ hnew hqueue =>
    rw [hqueue] at hlength hids hnew
    rw [List.map_cons, List.nodup_cons] at hids
    rw [List.map_cons, List.mem_cons, not_or] at hnew
    refine ⟨by simpa using hlength, ?_⟩
    rw [List.map_append, List.map_singleton]
    exact List.nodup_append.mpr ⟨hids.2, by simp, by simpa [List.mem_map] using hnew.2⟩
  | sent ev rest _ hqueue | dropped ev rest _ hqueue =>
    rw [hqueue] at hlength hids
    rw [List.map_cons, List.nodup_cons] at hids
    exact ⟨Nat.le_of_succ_le hlength, hids.2⟩
  | retried ev rest _ hqueue =>
    rw [hqueue] at hlength hids
    exact ⟨hlength, hids⟩

/-- The front carries the count of the failed attempts, the events behind it have not been tried. -/
def Counted (q : EventQueue) (attempts : Nat) : Prop :=
  ∀ e rest, q.mandatory_event_queue = e :: rest → e.retry_count.toNat = attempts ∧
    e.retry_count ≤ q.config.mandatory_event_retry_max ∧ ∀ e' ∈ rest, e'.retry_count = 0

theorem counted_of_untried (h : ∀ e ∈ q.mandatory_event_queue, e.retry_count = 0) : q.Counted 0 := by
  intro e rest hqueue
  rw [hqueue] at h
  have hfront := h e List.mem_cons_self
  refine ⟨by simp [hfront], ?_, fun e' he' => h e' (List.mem_cons_of_mem e he')⟩
  rw [hfront, UInt8.le_iff_toNat_le]
  exact Nat.zero_le _

/-- The attempts at the id of the front after a step. -/
def nextAttempts (q : EventQueue) (i : QueueInput) (q' : EventQueue) (attempts : Nat) : Nat :=
  if q.frontId.isSome = true ∧ q'.frontId = q.frontId then
    if q.TriesFront false i then attempts + 1 else attempts
  else 0

theorem nextAttempts_kept {attempts : Nat} (hfront : q.frontId.isSome = true) (hsame : q'.frontId = q.frontId)
    (hquiet : ¬ q.TriesFront false i) : q.nextAttempts i q' attempts = attempts := by
  rw [nextAttempts, if_pos ⟨hfront, hsame⟩, if_neg hquiet]

theorem nextAttempts_other {attempts : Nat} (hother : q'.frontId ≠ q.frontId) :
    q.nextAttempts i q' attempts = 0 := if_neg fun h => hother h.2

theorem frontId_cons {e : PendingMandatoryEvent} {rest : List PendingMandatoryEvent}
    (h : q.mandatory_event_queue = e :: rest) : q.frontId = some e.event_id := by
  rw [frontId, h]
  rfl

/-- The front has left, and the events behind it and new ones have not been tried. -/
theorem counted_of_left {attempts : Nat} {ev : PendingMandatoryEvent} {rest : List PendingMandatoryEvent}
    (hqueue : q.mandatory_event_queue = ev :: rest)
    (hother : ∀ e ∈ q'.mandatory_event_queue, e.event_id ≠ ev.event_id)
    (huntried : ∀ e ∈ q'.mandatory_event_queue, e.retry_count = 0) :
    q'.Counted (q.nextAttempts i q' attempts) := by
  have hleft : q'.frontId ≠ q.frontId := by
    rw [frontId_cons hqueue]
    intro hsame
    obtain ⟨e, hhead, hid⟩ := Option.map_eq_some_iff.mp hsame
    exact hother e (List.mem_of_head? hhead) hid
  rw [nextAttempts_other hleft]
  exact counted_of_untried huntried

theorem Counted.step {attempts : Nat} (h : q.Counted attempts) (hbounded : q.Bounded)
    (hconfig : q'.config = q.config) (hcase : QueueCase q i q'.mandatory_event_queue)
    (hsettled : ∀ e ∈ q.mandatory_event_queue.head?, q.published i = some e.event_id → e.retry_count = 0)
    (hcountable : ∀ e ∈ q.mandatory_event_queue.head?, q.TriesFront false i → e.retry_count ≠ 255) :
    q'.Counted (q.nextAttempts i q' attempts) := by
  have hids := hbounded.ids
  generalize hevents : q'.mandatory_event_queue = events at hcase
  cases hcase with
  | same hquiet =>
    intro e rest hqueue
    have hold := hevents.symm.trans hqueue
    rw [nextAttempts_kept (by rw [frontId_cons hold]; rfl)
      ((frontId_cons hqueue).trans (frontId_cons hold).symm) hquiet, hconfig]
    exact h e rest hold
  | replaced ev _ hpublished _ hfresh hreplaced =>
    have hquiet := not_triesFront_of_published hpublished false
    cases hold : q.mandatory_event_queue with
    | nil =>
      rw [hold] at hreplaced
      cases hreplaced
    | cons z zs =>
      obtain ⟨hcount, hmax, hzero⟩ := h z zs hold
      have hfront : q.frontId.isSome = true := by rw [frontId_cons hold]; rfl
      rw [hold, CoalescingQueue.replace] at hreplaced
      split at hreplaced
      · rename_i hid
        obtain rfl := Option.some.inj hreplaced
        have huntried : z.retry_count = 0 := by
          refine hsettled z (by rw [hold]; rfl) ?_
          rw [hpublished, hid]
        have hsame : q'.frontId = q.frontId := by
          rw [frontId_cons hevents, frontId_cons hold, hid]
        rw [nextAttempts_kept hfront hsame hquiet, ← hcount, huntried]
        refine counted_of_untried fun e he => ?_
        rcases List.mem_cons.mp (hevents ▸ he) with rfl | hrest
        · exact hfresh
        · exact hzero e hrest
      · obtain ⟨ws, hws, rfl⟩ := Option.map_eq_some_iff.mp hreplaced
        have hsame : q'.frontId = q.frontId := by rw [frontId_cons hevents, frontId_cons hold]
        rw [nextAttempts_kept hfront hsame hquiet]
        intro e rest hqueue
        obtain ⟨rfl, rfl⟩ := List.cons.inj (hevents.symm.trans hqueue)
        rw [hconfig]
        refine ⟨hcount, hmax, fun e' he' => ?_⟩
        rcases CoalescingQueue.of_mem_replace hws he' with rfl | hold'
        · exact hfresh
        · exact hzero e' hold'
  | pushed ev hpublished hfresh hnew =>
    have hquiet := not_triesFront_of_published hpublished false
    cases hold : q.mandatory_event_queue with
    | nil =>
      have hnone : q.nextAttempts i q' attempts = 0 := by
        refine if_neg fun hfront => ?_
        rw [frontId, hold] at hfront
        cases hfront.1
      rw [hnone]
      refine counted_of_untried fun e he => ?_
      rw [hevents, hold, List.nil_append, List.mem_singleton] at he
      rw [he, hfresh]
    | cons z zs =>
      rw [hold] at hevents
      have hsame : q'.frontId = q.frontId := by rw [frontId_cons hevents, frontId_cons hold]
      rw [nextAttempts_kept (by rw [frontId_cons hold]; rfl) hsame hquiet]
      intro e rest hqueue
      obtain ⟨rfl, rfl⟩ := List.cons.inj (hevents.symm.trans hqueue)
      obtain ⟨hcount, hmax, hzero⟩ := h z zs hold
      rw [hconfig]
      refine ⟨hcount, hmax, fun e' he' => ?_⟩
      rcases List.mem_append.mp he' with hzs | hev
      · exact hzero e' hzs
      · rw [List.mem_singleton.mp hev, hfresh]
  | displaced oldest ev rest _ hfresh hnew hqueue =>
    rw [hqueue] at hids hnew
    rw [List.map_cons, List.nodup_cons] at hids
    rw [List.map_cons, List.mem_cons, not_or] at hnew
    obtain ⟨-, -, hzero⟩ := h oldest rest hqueue
    refine counted_of_left hqueue (fun e he hid => ?_) fun e he => ?_
    · rcases List.mem_append.mp (hevents ▸ he) with hrest | hev
      · exact hids.1 (List.mem_map.mpr ⟨e, hrest, hid⟩)
      · rw [List.mem_singleton.mp hev] at hid
        exact hnew.1 hid
    · rcases List.mem_append.mp (hevents ▸ he) with hrest | hev
      · exact hzero e hrest
      · rw [List.mem_singleton.mp hev, hfresh]
  | sent ev _ _ hqueue | dropped ev _ _ hqueue =>
    rw [hqueue, List.map_cons, List.nodup_cons] at hids
    obtain ⟨-, -, hzero⟩ := h ev _ hqueue
    refine counted_of_left hqueue (fun e he hid => ?_) fun e he => hzero e (hevents ▸ he)
    exact hids.1 (List.mem_map.mpr ⟨e, hevents ▸ he, hid⟩)
  | retried ev rest htries hqueue hleft =>
    obtain ⟨hcount, -, hzero⟩ := h ev rest hqueue
    have hcountable := hcountable ev (by rw [hqueue]; rfl) htries
    have hsame : q'.frontId = q.frontId := by rw [frontId_cons hevents, frontId_cons hqueue]
    have hnext : q.nextAttempts i q' attempts = attempts + 1 := by
      rw [nextAttempts, if_pos ⟨by rw [frontId_cons hqueue]; rfl, hsame⟩, if_pos htries]
    rw [hnext]
    intro e rest' hqueue'
    obtain ⟨rfl, rfl⟩ := List.cons.inj (hevents.symm.trans hqueue')
    rw [hconfig]
    refine ⟨?_, UInt8.not_lt.mp hleft, hzero⟩
    have hlt : ev.retry_count.toNat < 255 := by
      have hne : ev.retry_count.toNat ≠ 255 := fun h => hcountable (UInt8.toNat_inj.mp h)
      have hsize := ev.retry_count.toNat_lt
      omega
    show (ev.retry_count + 1).toNat = attempts + 1
    rw [UInt8.toNat_add, ← hcount]
    exact Nat.mod_eq_of_lt (Nat.succ_lt_succ hlt)

end EventQueue

namespace EventTrace

open EventQueue

variable {t : EventTrace} {i : QueueInput}

/-- The queue is defined, bounded and counted. -/
def Inv (t : EventTrace) : Prop := ∃ q, t.queue = some q ∧ q.Bounded ∧ q.Counted t.attempts

theorem inv_start {q : EventQueue} (h : q.mandatory_event_queue = []) : (start q).Inv := by
  refine ⟨q, rfl, ⟨by simp [h], by simp [h]⟩, fun e rest hqueue => ?_⟩
  rw [h] at hqueue
  cases hqueue

theorem Inv.step (h : t.Inv) (hok : t.Orderly i) : t.Dependable i ∧ (t.step i).Inv := by
  obtain ⟨q, hq, hbounded, hcounted⟩ := h
  have hmem : q ∈ t.queue := hq
  obtain ⟨q', hq', hconfig, hcase⟩ := step_cases (hok.room q hmem)
  have hbounded' := hbounded.step hconfig hcase
  have hcounted' := hcounted.step hbounded hconfig hcase (hok.settled q hmem) (hok.countable q hmem)
  have hqueue : (t.step i).queue = some q' := by
    rw [EventTrace.step, hq]
    exact hq'
  have hattempts : (t.step i).attempts = q.nextAttempts i q' t.attempts := by
    simp [EventTrace.step, nextAttempts, hq, hq']
  refine ⟨⟨q, q', hq, hq', hbounded, hbounded', hcase.leavesInOrder, fun htries => ?_⟩, q', hqueue,
    hbounded', ?_⟩
  · cases hold : q.mandatory_event_queue with
    | nil =>
      cases i with
      | tick now_ms paired_peer sent => exact absurd hold htries.2.1
      | publish | bootNotice => exact absurd htries id
    | cons e rest =>
      obtain ⟨hcount, hmax, -⟩ := hcounted e rest hold
      have hle := UInt8.le_iff_toNat_le.mp hmax
      omega
  · rw [hattempts]
    exact hcounted'

end EventTrace

/-- In every run in which there is room for what is published and no event is published under the id of
a front that has failed already, the queue stays bounded, its events leave in order and no front is
tried more often than configured. -/
theorem orderly_queue_dependable (q : EventQueue) (hempty : q.mandatory_event_queue = []) (t : EventTrace)
    (hrun : Run EventTrace.step EventTrace.Orderly (.start q) t) (i : QueueInput) (hok : t.Orderly i) :
    t.Dependable i := by
  have hinv := hrun.invariant (EventTrace.inv_start hempty) fun _ _ h hok => (h.step hok).2
  exact (hinv.step hok).1

namespace QueueExample

/-- A slave with the default configuration. -/
def queue : EventQueue where
  config := ⟨.Slave, 60, 12, 3, 5, 2000⟩
  firmware_sink := true
  mandatory_event_queue := []
  mandatory_event_corr_seq := 1
  mandatory_event_last_tx_ms := 0
  mandatory_event_backoff_until_ms := 0
  mandatory_event_fail_streak := 0
  ota_boot_notice_last_try_ms := 0
  reports := []

def master : Option MacAddress := some (Vector.replicate 6 1)
def image : Option (FirmwareImageMetadata × UInt32) := some (⟨[49], [50], []⟩, 7)

/-- A sensor event is published behind the boot notice, and the link is down. -/
def unsent : List QueueInput :=
  [.bootNotice 1000 master image, .publish 5 1 3 9, .tick 1000 master false, .tick 1100 master false,
    .tick 1200 master false]

/-- The boot notice is published again, and the link stays down. -/
def blocked : List QueueInput := unsent ++ [.bootNotice 2000 master image, .tick 2000 master false]

end QueueExample

open QueueExample in
/-- The fourth failed attempt removes the boot notice. -/
theorem unsent_queue_dependable : (unsent.foldl EventTrace.step (.start queue)).attempts = 3 ∧
    (unsent.foldl EventTrace.step (.start queue)).Dependable (.tick 1300 master false) := by
  have hadmitted : Admitted EventTrace.step EventTrace.Orderly (.start queue) unsent := by
    refine ⟨?_, ?_, ?_, ?_, ?_, trivial⟩ <;> decide +kernel
  have hrun := Run.of_admitted unsent hadmitted
  refine ⟨by decide +kernel, ?_⟩
  exact orderly_queue_dependable queue rfl _ hrun (.tick 1300 master false) (by decide +kernel)

open QueueExample in
/-- The boot notice that is published again in its place keeps the front for a fifth attempt and more. -/
theorem boot_notice_blocks_queue : ¬ ∀ q : EventQueue, q.mandatory_event_queue = [] →
    ∀ t, Run EventTrace.step (fun _ _ => True) (.start q) t → ∀ i, t.Dependable i := by
  intro h
  have hrun : Run EventTrace.step (fun _ _ => True) (.start queue) (blocked.foldl EventTrace.step (.start queue)) :=
    Run.of_admitted blocked (by simp [Admitted, blocked, unsent])
  obtain ⟨q, q', hq, -, -, -, -, hprogress⟩ := h queue rfl _ hrun (.tick 2100 master false)
  have hmax : ∀ q ∈ (blocked.foldl EventTrace.step (.start queue)).queue,
      q.TriesFront false (.tick 2100 master false) ∧ q.config.mandatory_event_retry_max = 3 := by
    decide +kernel
  have hattempts : (blocked.foldl EventTrace.step (.start queue)).attempts = 4 := by decide +kernel
  obtain ⟨htries, hthree⟩ := hmax q hq
  have hbound := hprogress htries
  rw [hattempts, hthree] at hbound
  exact absurd hbound (by decide)

/-- Without room for an event the front of an empty queue is read. -/
example : (QueueExample.queue.step (.publish 5 1 3 9)).isSome = true ∧
    ({ QueueExample.queue with config.mandatory_event_max_queue := 0 } : EventQueue).step (.publish 5 1 3 9) =
      none := by
  decide +kernel

end EspNowLink
