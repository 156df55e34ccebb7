import EspNowLink.Core.ReceiveQueues

open Framework

namespace EspNowLink

theorem refill_eq (old payload : Bytes) : refill old payload = payload := by
  unfold refill
  rw [List.take_zero]
  by_cases hempty : payload = []
  · simp [hempty]
  · simp [hempty]

theorem QueuedControlRx.write_eq (frame : QueuedControlRx) (rx : RxFrame) (now_ms : UInt32) :
    frame.write rx now_ms = ⟨rx.type, rx.sender, rx.correlation_id, rx.payload, now_ms, rx.rssi⟩ := by
  simp only [write, refill_eq]

theorem QueuedFirmwareRx.write_eq (frame : QueuedFirmwareRx) (rx : RxFrame) (now_ms : UInt32) :
    frame.write rx now_ms = ⟨rx.type, rx.sender, rx.correlation_id, rx.payload, now_ms, rx.rssi⟩ := by
  simp only [write, refill_eq]

theorem QueuedPullRequest.write_eq (request : QueuedPullRequest) (rx : RxFrame) (now_ms : UInt32) :
    request.write rx now_ms =
      ⟨rx.sender, rx.correlation_id, rx.wire_service, rx.wire_op_code, rx.payload, now_ms⟩ := by
  simp only [write, refill_eq]

theorem QueuedPullResponse.write_eq (response : QueuedPullResponse) (rx : RxFrame) (now_ms : UInt32) :
    response.write rx now_ms = ⟨rx.sender, rx.correlation_id, rx.payload, now_ms⟩ := by
  simp only [write, refill_eq]

namespace RxKind

theorem queueMax_pos (k : RxKind) : 0 < k.queueMax := by
  cases k <;> decide

/-- Nothing of the entry that is written over is left. -/
theorem write_eq (k : RxKind) (entry : k.Entry) (rx : RxFrame) (now_ms : UInt32) :
    k.write entry rx now_ms = k.own rx now_ms := by
  cases k with
  | control => exact QueuedControlRx.write_eq entry rx now_ms
  | pullRequest => exact QueuedPullRequest.write_eq entry rx now_ms
  | pullResponse => exact QueuedPullResponse.write_eq entry rx now_ms
  | firmware => exact QueuedFirmwareRx.write_eq entry rx now_ms

end RxKind

theorem RxQueue.push_queue {α : Type} (q : RxQueue α) (empty a : α) (max : ℕ) {write : α → α}
    (hwrite : ∀ entry, write entry = a) :
    (q.push empty max write).queue = pushBounded max q.queue a := by
  unfold RxQueue.push pushBounded
  by_cases hfull : max ≤ q.queue.length
  · simp [hfull, hwrite]
  · by_cases hrecycle : q.has_recycle = true
    · simp [hfull, hrecycle, hwrite]
    · simp [hfull, hrecycle, hwrite]

/-- The queue that frames of a type wait in. -/
def waitsIn (role : Role) : MessageType → Option RxKind
  | .PullRequest => if role = .Slave then some .pullRequest else none
  | .PullResponse => if role = .Master then some .pullResponse else none
  | .FirmwareBegin | .FirmwareChunk | .FirmwareEnd => if role = .Slave then some .firmware else none
  | .Error => none
  | _ => some .control

/-- What an event is for one of the queues. -/
def RxEvent.view (role : Role) (k : RxKind) : RxEvent → Option (BoundedFifo.Event k.Entry)
  | .dispatched rx now_ms => if waitsIn role rx.type = some k then some (.arrived (k.own rx now_ms)) else none
  | .dropped j entry => if h : j = k then some (.dropped (h ▸ entry)) else none
  | .processed j entry => if h : j = k then some (.taken (h ▸ entry)) else none
  | .began _ | .ended _ => none

namespace RxManager

variable {σ : Type}

/-- The history of one queue. -/
def history (m : RxManager σ) (k : RxKind) : List (BoundedFifo.Event k.Entry) :=
  m.log.filterMap (RxEvent.view m.local_role k)

def Fifo (m : RxManager σ) : Prop :=
  ∀ k : RxKind, BoundedFifo.Runs k.queueMax (m.history k) (m.queues k).queue

section Steps

variable {h : RxHandlers σ} {m : RxManager σ}

@[simp] theorem setQueue_local_role (k : RxKind) (q : RxQueue k.Entry) :
    (m.setQueue k q).local_role = m.local_role := rfl

@[simp] theorem setQueue_log (k : RxKind) (q : RxQueue k.Entry) : (m.setQueue k q).log = m.log := rfl

@[simp] theorem setQueue_self (k : RxKind) (q : RxQueue k.Entry) : (m.setQueue k q).queues k = q := by
  simp only [setQueue, Function.update_self]

@[simp] theorem setQueue_of_ne {j k : RxKind} (hj : j ≠ k) (q : RxQueue k.Entry) :
    (m.setQueue k q).queues j = m.queues j := by
  simp only [setQueue, Function.update_of_ne hj]

theorem fifo_start (role : Role) (rest : σ) : (start role rest).Fifo := fun _ => .start

/-- Only what the history and the waiting entries say counts. -/
theorem Fifo.congr {m' : RxManager σ} (hm : m.Fifo) (hrole : m'.local_role = m.local_role)
    (hlog : m'.log = m.log) (hqueues : ∀ k, (m'.queues k).queue = (m.queues k).queue) : m'.Fifo := by
  intro k
  have hrun := hm k
  rw [← hqueues k] at hrun
  unfold history at hrun ⊢
  rwa [hrole, hlog]

theorem Fifo.withRest (hm : m.Fifo) (rest : σ) : Fifo { m with rest := rest } := hm.congr rfl rfl fun _ => rfl

theorem Fifo.recycled (hm : m.Fifo) (k : RxKind) (entry : k.Entry) :
    (m.setQueue k { m.queues k with recycle := entry, has_recycle := true }).Fifo := by
  refine Fifo.congr hm rfl rfl ?_
  intro j
  by_cases hj : j = k
  · subst hj
    rw [setQueue_self]
  · rw [setQueue_of_ne hj]

theorem view_other {role : Role} {j k : RxKind} (hj : j ≠ k) (entry : j.Entry) :
    RxEvent.view role k (.dropped j entry) = none ∧ RxEvent.view role k (.processed j entry) = none := by
  simp [RxEvent.view, hj]

theorem enqueue_fifo {k : RxKind} {rx : RxFrame} (hm : m.Fifo) (hk : waitsIn m.local_role rx.type = some k) :
    (m.enqueue k rx).Fifo := by
  intro j
  have hrun := hm j
  have hhistory : (m.enqueue k rx).history j = m.history j ++
      (m.overflow k ++ [RxEvent.dispatched rx m.current_now_ms]).filterMap (RxEvent.view m.local_role j) :=
    List.filterMap_append
  rw [hhistory, List.filterMap_append]
  by_cases hj : j = k
  · subst hj
    have hqueue : ((m.enqueue j rx).queues j).queue =
        pushBounded j.queueMax (m.queues j).queue (j.own rx m.current_now_ms) := by
      have hself : (m.enqueue j rx).queues j = _ := setQueue_self j _
      rw [hself]
      exact RxQueue.push_queue _ _ _ _ fun entry => j.write_eq entry rx m.current_now_ms
    have harrived : [RxEvent.dispatched rx m.current_now_ms].filterMap (RxEvent.view m.local_role j) =
        [.arrived (j.own rx m.current_now_ms)] := by simp [RxEvent.view, hk]
    rw [hqueue, harrived, pushBounded, overflow]
    cases hqs : (m.queues j).queue with
    | nil =>
      have hroom : ¬ j.queueMax ≤ ([] : List j.Entry).length := Nat.not_le.mpr j.queueMax_pos
      rw [hqs] at hrun
      rw [if_neg hroom, if_neg hroom, List.filterMap_nil, List.nil_append]
      exact hrun.arrive _ j.queueMax_pos
    | cons oldest waiting =>
      rw [hqs] at hrun
      by_cases hfull : j.queueMax ≤ (oldest :: waiting).length
      · have heq : (oldest :: waiting).length = j.queueMax := Nat.le_antisymm hrun.length_le hfull
        have hdropped : ((oldest :: waiting).head?.toList.map (RxEvent.dropped j)).filterMap
            (RxEvent.view m.local_role j) = [.dropped oldest] := by simp [RxEvent.view]
        have hroom : waiting.length < j.queueMax := heq ▸ Nat.lt_succ_self _
        rw [if_pos hfull, if_pos hfull, hdropped, ← List.append_assoc]
        exact (hrun.drop heq).arrive _ hroom
      · rw [if_neg hfull, if_neg hfull, List.filterMap_nil, List.nil_append]
        exact hrun.arrive _ (Nat.not_le.mp hfull)
  · have hqueue : (m.enqueue k rx).queues j = m.queues j := setQueue_of_ne hj _
    have hdispatched : RxEvent.view m.local_role j (.dispatched rx m.current_now_ms) = none := by
      simp [RxEvent.view, hk, Ne.symm hj]
    have hoverflow : (m.overflow k).filterMap (RxEvent.view m.local_role j) = [] := by
      rw [List.filterMap_eq_nil_iff]
      intro e he
      unfold overflow at he
      split at he
      · obtain ⟨oldest, -, rfl⟩ := List.mem_map.mp he
        exact (view_other (Ne.symm hj) oldest).1
      · cases he
    rw [hqueue, hoverflow, List.nil_append, List.filterMap_cons_none hdispatched, List.filterMap_nil,
      List.append_nil]
    exact hrun

/-- An event that is about no queue. -/
theorem note_fifo (hm : m.Fifo) {event : RxEvent} (hnone : ∀ k, event.view m.local_role k = none) :
    (m.note [event]).Fifo := by
  intro k
  have hrun := hm k
  have hhistory : (m.note [event]).history k =
      m.history k ++ [event].filterMap (RxEvent.view m.local_role k) :=
    List.filterMap_append
  rw [hhistory, List.filterMap_cons_none (hnone k), List.filterMap_nil, List.append_nil]
  exact hrun

theorem handleNow_fifo {rx : RxFrame} (hm : m.Fifo) (hnone : waitsIn m.local_role rx.type = none) :
    (m.handleNow h rx).Fifo := by
  refine note_fifo (hm.withRest (h.handle m.rest rx)) ?_
  intro k
  simp [RxEvent.view, hnone]

/-- A frame waits in its queue or is handled at once. -/
theorem dispatch_cases (h : RxHandlers σ) (m : RxManager σ) (rx : RxFrame) :
    (∃ k, waitsIn m.local_role rx.type = some k ∧ m.dispatchRxByType h rx = m.enqueue k rx) ∨
      waitsIn m.local_role rx.type = none ∧ m.dispatchRxByType h rx = m.handleNow h rx := by
  unfold dispatchRxByType
  cases htype : rx.type
  case PullRequest =>
    show _ ∨ _ ∧ m.onRxPullRequest h rx = _
    by_cases hslave : m.local_role = .Slave
    · exact .inl ⟨.pullRequest, by rw [waitsIn, if_pos hslave], if_pos hslave⟩
    · exact .inr ⟨by rw [waitsIn, if_neg hslave], if_neg hslave⟩
  case PullResponse =>
    show _ ∨ _ ∧ m.onRxPullResponse h rx = _
    by_cases hmaster : m.local_role = .Master
    · exact .inl ⟨.pullResponse, by rw [waitsIn, if_pos hmaster], if_pos hmaster⟩
    · exact .inr ⟨by rw [waitsIn, if_neg hmaster], if_neg hmaster⟩
  case Error => exact .inr ⟨rfl, rfl⟩
  case FirmwareBegin | FirmwareChunk | FirmwareEnd =>
    by_cases hslave : m.local_role = .Slave
    · exact .inl ⟨.firmware, by rw [waitsIn, if_pos hslave], if_pos hslave⟩
    · exact .inr ⟨by rw [waitsIn, if_neg hslave], if_neg hslave⟩
  all_goals exact .inl ⟨.control, rfl, rfl⟩

@[simp] theorem dispatchRxByType_role (rx : RxFrame) : (m.dispatchRxByType h rx).local_role = m.local_role := by
  obtain ⟨k, -, heq⟩ | ⟨-, heq⟩ := dispatch_cases h m rx
  · rw [heq]
    rfl
  · rw [heq]
    rfl

theorem dispatchRxByType_fifo (hm : m.Fifo) (rx : RxFrame) : (m.dispatchRxByType h rx).Fifo := by
  obtain ⟨k, hk, heq⟩ | ⟨hnone, heq⟩ := dispatch_cases h m rx
  · rw [heq]
    exact enqueue_fifo hm hk
  · rw [heq]
    exact handleNow_fifo hm hnone

theorem receiveAll_fifo (hm : m.Fifo) (frames : List RxFrame) : (m.receiveAll h frames).Fifo := by
  induction frames generalizing m with
  | nil => exact hm
  | cons rx frames ih => exact ih (dispatchRxByType_fifo hm rx)

/-- The oldest entry is taken off and processed. -/
theorem pop_fifo {k : RxKind} {entry : k.Entry} {waiting : List k.Entry} (hm : m.Fifo)
    (hqueue : (m.queues k).queue = entry :: waiting) :
    ((m.setQueue k { m.queues k with queue := waiting }).note [.processed k entry]).Fifo := by
  intro j
  have hrun := hm j
  have hhistory : ((m.setQueue k { m.queues k with queue := waiting }).note [.processed k entry]).history j =
      m.history j ++ [RxEvent.processed k entry].filterMap (RxEvent.view m.local_role j) :=
    List.filterMap_append
  rw [hhistory]
  show BoundedFifo.Runs _ _ ((m.setQueue k { m.queues k with queue := waiting }).queues j).queue
  by_cases hj : j = k
  · subst hj
    have htaken : [RxEvent.processed j entry].filterMap (RxEvent.view m.local_role j) = [.taken entry] := by
      simp [RxEvent.view]
    rw [hqueue] at hrun
    rw [htaken, setQueue_self]
    exact hrun.take
  · rw [setQueue_of_ne hj, List.filterMap_cons_none (view_other (Ne.symm hj) entry).2, List.filterMap_nil,
      List.append_nil]
    exact hrun

theorem processFront_fifo {k : RxKind} {entry : k.Entry} {waiting : List k.Entry} (hm : m.Fifo)
    (hqueue : (m.queues k).queue = entry :: waiting) : (m.processFront h k entry waiting).Fifo := by
  have hpopped := (pop_fifo hm hqueue).withRest (h.process m.rest k entry).1
  have hreceived := receiveAll_fifo (h := h) hpopped (h.process m.rest k entry).2
  exact hreceived.recycled k entry

theorem drain_fifo (hm : m.Fifo) (k : RxKind) (budget : ℕ) : (m.drain h k budget).Fifo := by
  induction budget generalizing m with
  | zero => exact hm
  | succ budget ih =>
    rw [drain]
    cases hqueue : (m.queues k).queue with
    | nil => exact hm
    | cons entry waiting => exact ih (processFront_fifo hm hqueue)

theorem drainFor_fifo (hm : m.Fifo) (role : Role) (k : RxKind) (budget : ℕ) :
    (if m.local_role = role then m.drain h k budget else m).Fifo := by
  by_cases hrole : m.local_role = role
  · rw [if_pos hrole]
    exact drain_fifo hm k budget
  · rwa [if_neg hrole]

theorem other_fifo (hm : m.Fifo) (event : RxEvent) (hnone : ∀ k, event.view m.local_role k = none)
    (done : σ × List RxFrame) : (m.other h event done).Fifo :=
  receiveAll_fifo (note_fifo (hm.withRest done.1) hnone) done.2

theorem tick_fifo (hm : m.Fifo) (now_ms : UInt32) : (m.tick h now_ms).Fifo := by
  have hnow : Fifo { m with current_now_ms := now_ms } := hm.congr rfl rfl fun _ => rfl
  have hbefore := other_fifo (h := h) hnow (.began now_ms) (fun _ => rfl) (h.before m.rest now_ms)
  have hcontrol := drain_fifo (h := h) hbefore .control RxKind.control.budget
  have hrequest := drainFor_fifo (h := h) hcontrol .Slave .pullRequest RxKind.pullRequest.budget
  have hresponse := drainFor_fifo (h := h) hrequest .Master .pullResponse RxKind.pullResponse.budget
  have hfirmware := drainFor_fifo (h := h) hresponse .Slave .firmware RxKind.firmware.budget
  exact other_fifo hfirmware _ (fun _ => rfl) _

theorem run_fifo (hm : m.Fifo) (inputs : List Input) : (m.run h inputs).Fifo := by
  induction inputs generalizing m with
  | nil => exact hm
  | cons i inputs ih =>
    cases i with
    | frame rx => exact ih (dispatchRxByType_fifo hm rx)
    | tick now_ms => exact ih (tick_fifo hm now_ms)

@[simp] theorem receiveAll_role (frames : List RxFrame) : (m.receiveAll h frames).local_role = m.local_role := by
  induction frames generalizing m with
  | nil => rfl
  | cons rx frames ih =>
    have hrest : ((m.dispatchRxByType h rx).receiveAll h frames).local_role = _ := ih
    exact hrest.trans (dispatchRxByType_role rx)

@[simp] theorem processFront_role (k : RxKind) (entry : k.Entry) (waiting : List k.Entry) :
    (m.processFront h k entry waiting).local_role = m.local_role := by
  simp only [processFront, setQueue_local_role, receiveAll_role, note]

@[simp] theorem drain_role (k : RxKind) (budget : ℕ) : (m.drain h k budget).local_role = m.local_role := by
  induction budget generalizing m with
  | zero => rfl
  | succ budget ih =>
    rw [drain]
    cases (m.queues k).queue with
    | nil => rfl
    | cons entry waiting => exact (ih (m := m.processFront h k entry waiting)).trans (processFront_role _ _ _)

theorem drainFor_role (role : Role) (k : RxKind) (budget : ℕ) :
    (if m.local_role = role then m.drain h k budget else m).local_role = m.local_role := by
  by_cases hrole : m.local_role = role
  · rw [if_pos hrole]
    exact drain_role k budget
  · rw [if_neg hrole]

theorem tick_role (now_ms : UInt32) : (m.tick h now_ms).local_role = m.local_role := by
  have hrequest (m' : RxManager σ) : (m'.tickPullRequestQueue h).local_role = m'.local_role :=
    drainFor_role .Slave .pullRequest RxKind.pullRequest.budget
  have hresponse (m' : RxManager σ) : (m'.tickPullResponseQueue h).local_role = m'.local_role :=
    drainFor_role .Master .pullResponse RxKind.pullResponse.budget
  have hfirmware (m' : RxManager σ) : (m'.tickFirmwareRxQueue h).local_role = m'.local_role :=
    drainFor_role .Slave .firmware RxKind.firmware.budget
  simp only [tick, other, note, receiveAll_role, hfirmware, hresponse, hrequest, tickControlRxQueue, drain_role]

theorem run_role (inputs : List Input) : (m.run h inputs).local_role = m.local_role := by
  induction inputs generalizing m with
  | nil => rfl
  | cons i inputs ih =>
    cases i with
    | frame rx =>
      have hrest : ((m.dispatchRxByType h rx).run h inputs).local_role = _ := ih
      exact hrest.trans (dispatchRxByType_role rx)
    | tick now_ms =>
      have hrest : ((m.tick h now_ms).run h inputs).local_role = _ := ih
      exact hrest.trans (tick_role now_ms)

end Steps

section Accounts

/-- The books of a run: what has come in, the frames of it that are still to be dispatched, whether a tick is
under way, the time, and the state of the other code. -/
structure Ledger (σ : Type) where
  inputs : List Input
  due : List RxFrame
  ticking : Bool
  now_ms : UInt32
  rest : σ

/-- The history accounts for the inputs: the frames that are dispatched are those of the inputs and of the
other code, one after the other, each at its time, and the other code has worked on the entries processed. -/
inductive Accounts (h : RxHandlers σ) (role : Role) (rest : σ) : List RxEvent → Ledger σ → Prop
  | start : Accounts h role rest [] ⟨[], [], false, 0, rest⟩
  | frame {log inputs now_ms state} (rx : RxFrame) :
      Accounts h role rest log ⟨inputs, [], false, now_ms, state⟩ →
      Accounts h role rest log ⟨inputs ++ [.frame rx], [rx], false, now_ms, state⟩
  | began {log inputs before_ms state} (now_ms : UInt32) :
      Accounts h role rest log ⟨inputs, [], false, before_ms, state⟩ →
      Accounts h role rest (log ++ [.began now_ms])
        ⟨inputs ++ [.tick now_ms], (h.before state now_ms).2, true, now_ms, (h.before state now_ms).1⟩
  | queued {log inputs rx due ticking now_ms state k} : waitsIn role rx.type = some k →
      Accounts h role rest log ⟨inputs, rx :: due, ticking, now_ms, state⟩ →
      Accounts h role rest (log ++ [.dispatched rx now_ms]) ⟨inputs, due, ticking, now_ms, state⟩
  | handled {log inputs rx due ticking now_ms state} : waitsIn role rx.type = none →
      Accounts h role rest log ⟨inputs, rx :: due, ticking, now_ms, state⟩ →
      Accounts h role rest (log ++ [.dispatched rx now_ms]) ⟨inputs, due, ticking, now_ms, h.handle state rx⟩
  | dropped {log ledger} (k : RxKind) (entry : k.Entry) :
      Accounts h role rest log ledger → Accounts h role rest (log ++ [.dropped k entry]) ledger
  | processed {log inputs now_ms state} (k : RxKind) (entry : k.Entry) :
      Accounts h role rest log ⟨inputs, [], true, now_ms, state⟩ →
      Accounts h role rest (log ++ [.processed k entry])
        ⟨inputs, (h.process state k entry).2, true, now_ms, (h.process state k entry).1⟩
  | ended {log inputs now_ms state} :
      Accounts h role rest log ⟨inputs, [], true, now_ms, state⟩ →
      Accounts h role rest (log ++ [.ended now_ms])
        ⟨inputs, (h.after state now_ms).2, false, now_ms, (h.after state now_ms).1⟩

variable {h : RxHandlers σ} {m : RxManager σ} {rest : σ}

/-- The books of a manager. -/
structure Booked (h : RxHandlers σ) (rest : σ) (m : RxManager σ) (inputs : List Input) (due : List RxFrame)
    (ticking : Bool) (now_ms : UInt32) : Prop where
  now : m.current_now_ms = now_ms
  accounts : Accounts h m.local_role rest m.log ⟨inputs, due, ticking, now_ms, m.rest⟩

variable {inputs : List Input} {due : List RxFrame} {ticking : Bool} {now_ms : UInt32}

theorem Booked.at_now (hm : Booked h rest m inputs due ticking now_ms) :
    Booked h rest m inputs due ticking m.current_now_ms := by
  obtain ⟨rfl, haccounts⟩ := hm
  exact ⟨rfl, haccounts⟩

theorem Booked.enqueue {k : RxKind} {rx : RxFrame} (hm : Booked h rest m inputs (rx :: due) ticking now_ms)
    (hk : waitsIn m.local_role rx.type = some k) : Booked h rest (m.enqueue k rx) inputs due ticking now_ms := by
  have hlog : (m.enqueue k rx).log = m.log ++ (m.overflow k ++ [.dispatched rx now_ms]) := by
    rw [← hm.now]
    rfl
  refine ⟨hm.now, ?_⟩
  rw [hlog, ← List.append_assoc]
  apply Accounts.queued hk
  unfold overflow
  split
  · cases (m.queues k).queue.head? with
    | none =>
      rw [Option.toList_none, List.map_nil, List.append_nil]
      exact hm.accounts
    | some oldest => exact .dropped k oldest hm.accounts
  · rw [List.append_nil]
    exact hm.accounts

theorem Booked.handleNow {rx : RxFrame} (hm : Booked h rest m inputs (rx :: due) ticking now_ms)
    (hnone : waitsIn m.local_role rx.type = none) :
    Booked h rest (m.handleNow h rx) inputs due ticking now_ms := by
  have hhandled := Accounts.handled hnone hm.accounts
  rw [← hm.now] at hhandled ⊢
  exact ⟨rfl, hhandled⟩

theorem Booked.dispatchRxByType {rx : RxFrame} (hm : Booked h rest m inputs (rx :: due) ticking now_ms) :
    Booked h rest (m.dispatchRxByType h rx) inputs due ticking now_ms := by
  obtain ⟨k, hk, heq⟩ | ⟨hnone, heq⟩ := dispatch_cases h m rx
  · rw [heq]
    exact hm.enqueue hk
  · rw [heq]
    exact hm.handleNow hnone

theorem Booked.receiveAll (hm : Booked h rest m inputs due ticking now_ms) :
    Booked h rest (m.receiveAll h due) inputs [] ticking now_ms := by
  induction due generalizing m with
  | nil => exact hm
  | cons rx due ih => exact ih hm.dispatchRxByType

theorem Booked.processFront (hm : Booked h rest m inputs [] true now_ms) (k : RxKind) (entry : k.Entry)
    (waiting : List k.Entry) : Booked h rest (m.processFront h k entry waiting) inputs [] true now_ms := by
  have hhandled : Booked h rest { (m.setQueue k { m.queues k with queue := waiting }).note [.processed k entry] with
      rest := (h.process m.rest k entry).1 } inputs (h.process m.rest k entry).2 true now_ms :=
    ⟨hm.now, .processed k entry hm.accounts⟩
  exact ⟨hhandled.receiveAll.now, hhandled.receiveAll.accounts⟩

theorem Booked.drain (hm : Booked h rest m inputs [] true now_ms) (k : RxKind) (budget : ℕ) :
    Booked h rest (m.drain h k budget) inputs [] true now_ms := by
  induction budget generalizing m with
  | zero => exact hm
  | succ budget ih =>
    rw [RxManager.drain]
    cases (m.queues k).queue with
    | nil => exact hm
    | cons entry waiting => exact ih (hm.processFront k entry waiting)

theorem Booked.drainFor (hm : Booked h rest m inputs [] true now_ms) (role : Role) (k : RxKind) (budget : ℕ) :
    Booked h rest (if m.local_role = role then m.drain h k budget else m) inputs [] true now_ms := by
  by_cases hrole : m.local_role = role
  · rw [if_pos hrole]
    exact hm.drain k budget
  · rwa [if_neg hrole]

theorem Booked.tick {before_ms : UInt32} (hm : Booked h rest m inputs [] false before_ms) (now_ms : UInt32) :
    Booked h rest (m.tick h now_ms) (inputs ++ [.tick now_ms]) [] false now_ms := by
  have hbegan : Booked h rest (RxManager.note { m with
      current_now_ms := now_ms, rest := (h.before m.rest now_ms).1 } [.began now_ms])
      (inputs ++ [.tick now_ms]) (h.before m.rest now_ms).2 true now_ms := ⟨rfl, .began now_ms hm.accounts⟩
  have hcontrol := hbegan.receiveAll.drain .control RxKind.control.budget
  have hrequest := hcontrol.drainFor .Slave .pullRequest RxKind.pullRequest.budget
  have hresponse := hrequest.drainFor .Master .pullResponse RxKind.pullResponse.budget
  have hfirmware := hresponse.drainFor .Slave .firmware RxKind.firmware.budget
  exact Booked.receiveAll ⟨hfirmware.now, .ended hfirmware.accounts⟩

theorem Booked.run (hm : Booked h rest m inputs [] false m.current_now_ms) (later : List Input) :
    Booked h rest (m.run h later) (inputs ++ later) [] false (m.run h later).current_now_ms := by
  induction later generalizing m inputs with
  | nil =>
    rw [List.append_nil]
    exact hm
  | cons i later ih =>
    rw [List.append_cons]
    cases i with
    | frame rx =>
      have hreceived : Booked h rest m (inputs ++ [.frame rx]) [rx] false m.current_now_ms :=
        ⟨rfl, .frame rx hm.accounts⟩
      exact ih hreceived.dispatchRxByType.at_now
    | tick now_ms =>
      exact ih (hm.tick now_ms).at_now

end Accounts

section Progress

/-- The part of the history that is about one queue. -/
def seenBy (role : Role) (k : RxKind) (log : List RxEvent) : List (BoundedFifo.Event k.Entry) :=
  log.filterMap (RxEvent.view role k)

/-- The number of entries that a part of the history processes. -/
def processedIn (role : Role) (k : RxKind) (log : List RxEvent) : ℕ :=
  (BoundedFifo.takings (seenBy role k log)).length

theorem processedIn_append (role : Role) (k : RxKind) (log part : List RxEvent) :
    processedIn role k (log ++ part) = processedIn role k log + processedIn role k part := by
  unfold processedIn seenBy BoundedFifo.takings
  rw [List.filterMap_append, List.filterMap_append, List.length_append]

/-- From one manager to the next, a queue has had `budget` of its entries processed, or all that waited, and it
has lost no other. -/
def Serves (k : RxKind) (budget : ℕ) (m m' : RxManager σ) : Prop :=
  m'.local_role = m.local_role ∧ ∃ part, m'.log = m.log ++ part ∧
    min budget (m.queues k).queue.length ≤ processedIn m.local_role k part ∧
    (m.queues k).queue.length ≤ (m'.queues k).queue.length + processedIn m.local_role k part

variable {h : RxHandlers σ} {m m' m'' : RxManager σ} {k : RxKind}

theorem Serves.trans {a b : ℕ} (hfirst : Serves k a m m') (hsecond : Serves k b m' m'') :
    Serves k (a + b) m m'' := by
  obtain ⟨hrole, part, hlog, hleast, hlost⟩ := hfirst
  obtain ⟨hrole', part', hlog', hleast', hlost'⟩ := hsecond
  rw [hrole] at hleast' hlost'
  refine ⟨hrole'.trans hrole, part ++ part', ?_, ?_, ?_⟩
  · rw [hlog', hlog, List.append_assoc]
  · rw [processedIn_append]
    omega
  · rw [processedIn_append]
    omega

/-- What leaves the queue as it is serves it if nothing waits. -/
theorem Serves.idle (hempty : (m.queues k).queue = []) (budget : ℕ) : Serves k budget m m := by
  refine ⟨rfl, [], (List.append_nil m.log).symm, ?_, Nat.le_add_right _ _⟩
  rw [hempty, List.length_nil, Nat.min_zero]
  exact Nat.zero_le _

theorem Serves.refl : Serves k 0 m m :=
  ⟨rfl, [], (List.append_nil m.log).symm, by rw [Nat.zero_min]; exact Nat.zero_le _, Nat.le_add_right _ _⟩

theorem serves_of_kept (hrole : m'.local_role = m.local_role) {part : List RxEvent} (hlog : m'.log = m.log ++ part)
    (hkept : (m.queues k).queue.length ≤ (m'.queues k).queue.length) : Serves k 0 m m' :=
  ⟨hrole, part, hlog, by rw [Nat.zero_min]; exact Nat.zero_le _, hkept.trans (Nat.le_add_right _ _)⟩

theorem length_le_pushBounded {α : Type} (max : ℕ) (queue : List α) (a : α) :
    queue.length ≤ (pushBounded max queue a).length := by
  unfold pushBounded
  split
  · rw [List.length_append, List.length_singleton]
    cases queue with
    | nil => exact Nat.zero_le _
    | cons oldest waiting => exact Nat.le_refl _
  · rw [List.length_append]
    exact Nat.le_add_right _ _

theorem serves_dispatch (rx : RxFrame) : Serves k 0 m (m.dispatchRxByType h rx) := by
  obtain ⟨j, -, heq⟩ | ⟨-, heq⟩ := dispatch_cases h m rx
  · rw [heq]
    refine serves_of_kept rfl rfl ?_
    by_cases hj : k = j
    · subst hj
      have hself : (m.enqueue k rx).queues k = _ := setQueue_self k _
      rw [hself, RxQueue.push_queue _ _ _ _ fun entry => k.write_eq entry rx m.current_now_ms]
      exact length_le_pushBounded _ _ _
    · have hother : (m.enqueue j rx).queues k = m.queues k := setQueue_of_ne hj _
      rw [hother]
  · rw [heq]
    exact serves_of_kept rfl rfl (Nat.le_refl _)

theorem serves_receiveAll (frames : List RxFrame) : Serves k 0 m (m.receiveAll h frames) := by
  induction frames generalizing m with
  | nil => exact Serves.refl
  | cons rx frames ih => exact (serves_dispatch rx).trans ih

theorem serves_other (event : RxEvent) (done : σ × List RxFrame) : Serves k 0 m (m.other h event done) := by
  have hnoted : Serves k 0 m ({ m with rest := done.1 }.note [event]) :=
    serves_of_kept rfl rfl (Nat.le_refl _)
  exact hnoted.trans (serves_receiveAll done.2)

theorem serves_recycled (j : RxKind) (entry : j.Entry) :
    Serves k 0 m (m.setQueue j { m.queues j with recycle := entry, has_recycle := true }) := by
  refine serves_of_kept rfl (List.append_nil m.log).symm ?_
  by_cases hj : k = j
  · subst hj
    rw [setQueue_self]
  · rw [setQueue_of_ne hj]

theorem serves_pop {entry : k.Entry} {waiting : List k.Entry} (hqueue : (m.queues k).queue = entry :: waiting) :
    Serves k 1 m ((m.setQueue k { m.queues k with queue := waiting }).note [.processed k entry]) := by
  have hone : processedIn m.local_role k [.processed k entry] = 1 := by
    simp [processedIn, seenBy, BoundedFifo.takings, RxEvent.view, BoundedFifo.Event.taken?]
  refine ⟨rfl, [.processed k entry], rfl, ?_, ?_⟩
  · rw [hone]
    exact Nat.min_le_left _ _
  · show _ ≤ ((m.setQueue k { m.queues k with queue := waiting }).queues k).queue.length + _
    rw [hone, setQueue_self, hqueue, List.length_cons]

theorem serves_pop_other {j : RxKind} (hj : k ≠ j) (entry : j.Entry) (waiting : List j.Entry) :
    Serves k 0 m ((m.setQueue j { m.queues j with queue := waiting }).note [.processed j entry]) := by
  refine serves_of_kept rfl rfl ?_
  show _ ≤ ((m.setQueue j { m.queues j with queue := waiting }).queues k).queue.length
  rw [setQueue_of_ne hj]

/-- The rest of a turn keeps what waits. -/
theorem Serves.processFront {budget : ℕ} {j : RxKind} {entry : j.Entry} {waiting : List j.Entry}
    (hpopped : Serves k budget m ((m.setQueue j { m.queues j with queue := waiting }).note [.processed j entry])) :
    Serves k budget m (m.processFront h j entry waiting) := by
  let popped := (m.setQueue j { m.queues j with queue := waiting }).note [.processed j entry]
  let handled := h.process m.rest j entry
  have hhandled : Serves k 0 popped { popped with rest := handled.1 } :=
    serves_of_kept rfl (List.append_nil popped.log).symm (Nat.le_refl _)
  exact hpopped.trans (hhandled.trans ((serves_receiveAll handled.2).trans (serves_recycled j entry)))

theorem serves_drain_other {j : RxKind} (hj : k ≠ j) (budget : ℕ) : Serves k 0 m (m.drain h j budget) := by
  induction budget generalizing m with
  | zero => exact Serves.refl
  | succ budget ih =>
    rw [drain]
    cases (m.queues j).queue with
    | nil => exact Serves.refl
    | cons entry waiting => exact (serves_pop_other hj entry waiting).processFront.trans ih

theorem serves_drain (budget : ℕ) : Serves k budget m (m.drain h k budget) := by
  induction budget generalizing m with
  | zero => exact Serves.refl
  | succ budget ih =>
    rw [drain]
    cases hqueue : (m.queues k).queue with
    | nil => exact Serves.idle hqueue _
    | cons entry waiting =>
      rw [Nat.add_comm]
      exact (serves_pop hqueue).processFront.trans ih

theorem serves_drainFor_other {j : RxKind} (hj : k ≠ j) (role : Role) (budget : ℕ) :
    Serves k 0 m (if m.local_role = role then m.drain h j budget else m) := by
  split
  · exact serves_drain_other hj budget
  · exact Serves.refl

/-- No entry waits in a queue that the role does not drain. -/
theorem Fifo.queue_nil (hm : m.Fifo) (hunused : ∀ type, waitsIn m.local_role type ≠ some k) :
    (m.queues k).queue = [] := by
  have harrivals : BoundedFifo.arrivals (m.history k) = [] := by
    apply List.filterMap_eq_nil_iff.mpr
    intro event hevent
    obtain ⟨e, -, hview⟩ := List.mem_filterMap.mp hevent
    cases e with
    | began now_ms => cases hview
    | ended now_ms => cases hview
    | dispatched rx now_ms =>
      rw [RxEvent.view, if_neg (hunused rx.type)] at hview
      cases hview
    | dropped j entry =>
      rw [RxEvent.view] at hview
      split at hview
      · cases hview
        rfl
      · cases hview
    | processed j entry =>
      rw [RxEvent.view] at hview
      split at hview
      · cases hview
        rfl
      · cases hview
  have hall := (hm k).arrivals_eq
  rw [harrivals] at hall
  exact (List.append_eq_nil_iff.mp hall.symm).2

theorem serves_drainFor {role : Role} (hm : m.Fifo)
    (hunused : m.local_role ≠ role → ∀ type, waitsIn m.local_role type ≠ some k) (budget : ℕ) :
    Serves k budget m (if m.local_role = role then m.drain h k budget else m) := by
  by_cases hrole : m.local_role = role
  · rw [if_pos hrole]
    exact serves_drain budget
  · rw [if_neg hrole]
    exact Serves.idle (hm.queue_nil (hunused hrole)) budget

theorem waitsIn_slave {role : Role} (hrole : role ≠ .Slave) {k : RxKind} (hk : k = .pullRequest ∨ k = .firmware)
    (type : MessageType) : waitsIn role type ≠ some k := by
  rcases hk with rfl | rfl
  · cases type <;> simp [waitsIn, hrole]
  · cases type <;> simp [waitsIn, hrole]

theorem waitsIn_master {role : Role} (hrole : role ≠ .Master) (type : MessageType) :
    waitsIn role type ≠ some .pullResponse := by
  cases type <;> simp [waitsIn, hrole]

theorem serves_tick (hm : m.Fifo) (k : RxKind) (now_ms : UInt32) : Serves k k.budget m (m.tick h now_ms) := by
  have hnow : Fifo { m with current_now_ms := now_ms } := hm.congr rfl rfl fun _ => rfl
  have hbefore := other_fifo (h := h) hnow (.began now_ms) (fun _ => rfl) (h.before m.rest now_ms)
  have hcontrol := drain_fifo (h := h) hbefore .control RxKind.control.budget
  have hrequest := drainFor_fifo (h := h) hcontrol .Slave .pullRequest RxKind.pullRequest.budget
  have hresponse := drainFor_fifo (h := h) hrequest .Master .pullResponse RxKind.pullResponse.budget
  have hset : Serves k 0 m { m with current_now_ms := now_ms } :=
    serves_of_kept rfl (List.append_nil m.log).symm (Nat.le_refl _)
  have hstart := hset.trans (serves_other (h := h) (.began now_ms) (h.before m.rest now_ms))
  cases k with
  | control =>
    have hserved : Serves .control _ m (m.tick h now_ms) :=
      ((((hstart.trans (serves_drain RxKind.control.budget)).trans
        (serves_drainFor_other (by decide) .Slave RxKind.pullRequest.budget)).trans
        (serves_drainFor_other (by decide) .Master RxKind.pullResponse.budget)).trans
        (serves_drainFor_other (by decide) .Slave RxKind.firmware.budget)).trans (serves_other _ _)
    simpa only [Nat.zero_add, Nat.add_zero] using hserved
  | pullRequest =>
    have hserved : Serves .pullRequest _ m (m.tick h now_ms) :=
      ((((hstart.trans (serves_drain_other (by decide) RxKind.control.budget)).trans
        (serves_drainFor hcontrol (fun hrole => waitsIn_slave hrole (.inl rfl)) RxKind.pullRequest.budget)).trans
        (serves_drainFor_other (by decide) .Master RxKind.pullResponse.budget)).trans
        (serves_drainFor_other (by decide) .Slave RxKind.firmware.budget)).trans (serves_other _ _)
    simpa only [Nat.zero_add, Nat.add_zero] using hserved
  | pullResponse =>
    have hserved : Serves .pullResponse _ m (m.tick h now_ms) :=
      ((((hstart.trans (serves_drain_other (by decide) RxKind.control.budget)).trans
        (serves_drainFor_other (by decide) .Slave RxKind.pullRequest.budget)).trans
        (serves_drainFor hrequest waitsIn_master RxKind.pullResponse.budget)).trans
        (serves_drainFor_other (by decide) .Slave RxKind.firmware.budget)).trans (serves_other _ _)
    simpa only [Nat.zero_add, Nat.add_zero] using hserved
  | firmware =>
    have hserved : Serves .firmware _ m (m.tick h now_ms) :=
      ((((hstart.trans (serves_drain_other (by decide) RxKind.control.budget)).trans
        (serves_drainFor_other (by decide) .Slave RxKind.pullRequest.budget)).trans
        (serves_drainFor_other (by decide) .Master RxKind.pullResponse.budget)).trans
        (serves_drainFor hresponse (fun hrole => waitsIn_slave hrole (.inr rfl)) RxKind.firmware.budget)).trans
        (serves_other _ _)
    simpa only [Nat.zero_add, Nat.add_zero] using hserved

end Progress

section Statement

def isDiscovery (frame : RxKind.control.Entry) : Bool := QueuedControlRx.type frame = .Discovery

/-- What waits in a queue at a moment of its history, and what is dropped there. -/
theorem waiting_before {role : Role} {k : RxKind} {before after : List RxEvent} {queue : List k.Entry}
    (hrun : BoundedFifo.Runs k.queueMax (seenBy role k (before ++ after)) queue) : ∃ waiting,
      BoundedFifo.arrivals (seenBy role k before) = BoundedFifo.departures (seenBy role k before) ++ waiting ∧
      waiting.length ≤ k.queueMax ∧
      ∀ entry later, after = .dropped k entry :: later →
        waiting.head? = some entry ∧ waiting.length = k.queueMax := by
  rw [seenBy, List.filterMap_append] at hrun
  cases after with
  | nil =>
    rw [List.filterMap_nil, List.append_nil] at hrun
    exact ⟨_, hrun.arrivals_eq, hrun.length_le, fun entry later hnil => by cases hnil⟩
  | cons e after =>
    by_cases hdrop : ∃ entry, e = .dropped k entry
    · obtain ⟨entry, rfl⟩ := hdrop
      have hview : RxEvent.view role k (.dropped k entry) = some (.dropped entry) := by simp [RxEvent.view]
      rw [List.filterMap_cons_some hview] at hrun
      obtain ⟨waiting, hbefore, hfull⟩ := hrun.dropped
      refine ⟨entry :: waiting, hbefore.arrivals_eq, hbefore.length_le, ?_⟩
      intro entry' later hcons
      cases hcons
      exact ⟨rfl, hfull⟩
    · obtain ⟨waiting, hbefore⟩ := hrun.prefix
      refine ⟨waiting, hbefore.arrivals_eq, hbefore.length_le, ?_⟩
      intro entry later hcons
      cases hcons
      exact absurd ⟨entry, rfl⟩ hdrop

/-- The entries that the frames of a queue call for leave it once and in order: each is processed or, with
the queue full, dropped as the oldest one. The history accounts for the inputs, and the next tick serves every
queue. -/
theorem receive_queues_fifo (h : RxHandlers σ) (role : Role) (rest : σ) (inputs : List Input) :
    let m := (start role rest).run h inputs
    Accounts h role rest m.log ⟨inputs, [], false, m.current_now_ms, m.rest⟩ ∧
    (∀ k : RxKind, (m.queues k).queue.length ≤ k.queueMax ∧
      BoundedFifo.arrivals (seenBy role k m.log) =
        BoundedFifo.departures (seenBy role k m.log) ++ (m.queues k).queue ∧
      (BoundedFifo.takings (seenBy role k m.log)).Sublist (BoundedFifo.arrivals (seenBy role k m.log)) ∧
      (∀ before after, m.log = before ++ after → ∃ waiting,
        BoundedFifo.arrivals (seenBy role k before) = BoundedFifo.departures (seenBy role k before) ++ waiting ∧
        waiting.length ≤ k.queueMax ∧
        ∀ entry later, after = .dropped k entry :: later →
          waiting.head? = some entry ∧ waiting.length = k.queueMax) ∧
      ∀ now_ms, ∃ part, (m.tick h now_ms).log = m.log ++ part ∧
        min k.budget (m.queues k).queue.length ≤ processedIn role k part) ∧
    ((m.queues .control).queue.filter isDiscovery).length ≤ 32 ∧
    (BoundedFifo.arrivals (seenBy role .control m.log)).filter isDiscovery =
      (BoundedFifo.departures (seenBy role .control m.log)).filter isDiscovery ++
        (m.queues .control).queue.filter isDiscovery := by
  intro m
  have hrole : m.local_role = role := run_role inputs
  have hstart : Booked h rest (start role rest) [] [] false (start role rest).current_now_ms := ⟨rfl, .start⟩
  have hbooked : Booked h rest m inputs [] false m.current_now_ms :=
    Booked.run hstart inputs
  have hfifos : m.Fifo := run_fifo (fifo_start role rest) inputs
  have hfifo : ∀ k, BoundedFifo.Runs k.queueMax (seenBy role k m.log) (m.queues k).queue := by
    intro k
    have hrun := hfifos k
    unfold history at hrun
    rwa [hrole] at hrun
  refine ⟨hrole ▸ hbooked.accounts, fun k =>
    ⟨(hfifo k).length_le, (hfifo k).arrivals_eq, (hfifo k).takings_sublist, ?_, ?_⟩, ?_, ?_⟩
  · exact fun before after hlog => waiting_before (hlog ▸ hfifo k)
  · intro now_ms
    obtain ⟨-, part, hlog, hserved, -⟩ := serves_tick (h := h) hfifos k now_ms
    exact ⟨part, hlog, hrole ▸ hserved⟩
  · exact (List.length_filter_le _ _).trans (hfifo .control).length_le
  · rw [(hfifo .control).arrivals_eq, List.filter_append]

end Statement

end RxManager

end EspNowLink
