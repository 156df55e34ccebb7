import EspNowLink.Framework.CoalescingQueue
import EspNowLink.Framework.Runs
import EspNowLink.Ota.Receive

namespace EspNowLink

open Framework

def kOtaBootCompleteEventId : UInt16 := 0x7F10

structure MandatoryEventConfig where
  local_role : Role
  mandatory_event_min_gap_ms : UInt32
  mandatory_event_max_queue : UInt8
  mandatory_event_retry_max : UInt8
  mandatory_event_fail_backoff_threshold : UInt8
  mandatory_event_backoff_ms : UInt32
  deriving DecidableEq

structure PendingMandatoryEvent where
  event_id : UInt16
  severity : UInt8
  value : Int32
  event_ts_s : UInt32
  corr_id : UInt32
  retry_count : UInt8
  deriving DecidableEq

inductive MandatoryEventReport where
  | dropped (peer : MacAddress) (corr_id : UInt32) (event : PendingMandatoryEvent) (message : String)
  | sent (peer : MacAddress) (event : PendingMandatoryEvent) (message : String)
  | noticeCleared
  deriving DecidableEq

/-- The part of a manager that queues mandatory events. -/
structure EventQueue where
  config : MandatoryEventConfig
  firmware_sink : Bool
  mandatory_event_queue : List PendingMandatoryEvent
  mandatory_event_corr_seq : UInt32
  mandatory_event_last_tx_ms : UInt32
  mandatory_event_backoff_until_ms : UInt32
  mandatory_event_fail_streak : UInt8
  ota_boot_notice_last_try_ms : UInt32
  reports : List MandatoryEventReport
  deriving DecidableEq

namespace EventQueue

def withQueue (q : EventQueue) (events : List PendingMandatoryEvent) : EventQueue :=
  { q with mandatory_event_queue := events }

def report (q : EventQueue) (r : MandatoryEventReport) : EventQueue := { q with reports := q.reports ++ [r] }

/-- No result where the source reads the front of an empty queue. -/
def publishMandatoryEvent (q : EventQueue) (event_id : UInt16) (severity : UInt8) (value : Int32)
    (event_ts_s : UInt32) : Option (Bool × EventQueue) :=
  if q.config.local_role ≠ .Slave ∨ event_id = 0 then some (false, q)
  else
    let ev : PendingMandatoryEvent := ⟨event_id, severity, value, event_ts_s, q.mandatory_event_corr_seq, 0⟩
    let q := { q with mandatory_event_corr_seq := q.mandatory_event_corr_seq + 1 }
    match CoalescingQueue.replace (·.event_id) ev q.mandatory_event_queue with
    | some events => some (true, q.withQueue events)
    | none =>
      if q.mandatory_event_queue.length ≥ q.config.mandatory_event_max_queue.toNat then
        match q.mandatory_event_queue with
        | [] => none
        | oldest :: rest =>
          some (true, (q.report (.dropped zeroMac 0 oldest "event queue full")).withQueue (rest ++ [ev]))
      else some (true, q.withQueue (q.mandatory_event_queue ++ [ev]))

/-- A tick asks the sink for its boot notice. -/
def AsksForNotice (q : EventQueue) (now_ms : UInt32) (paired_peer : Option MacAddress) : Prop :=
  q.config.local_role = .Slave ∧ q.firmware_sink = true ∧ paired_peer.isSome = true ∧
    ¬ (q.ota_boot_notice_last_try_ms ≠ 0 ∧ now_ms - q.ota_boot_notice_last_try_ms < 1000)

instance (q : EventQueue) (now_ms : UInt32) (paired_peer : Option MacAddress) :
    Decidable (q.AsksForNotice now_ms paired_peer) := inferInstanceAs (Decidable (_ ∧ _ ∧ _ ∧ _))

def noticeValue (sw_version : Bytes) : Int32 :=
  (if sw_version.isEmpty then 1 else sw_version.length.toUInt32 &&& 0x7FFF).toInt32

/-- `peekBootCompletionNotice` answers `notice`. -/
def tickOtaBootCompletionNotice (q : EventQueue) (now_ms : UInt32) (paired_peer : Option MacAddress)
    (notice : Option (FirmwareImageMetadata × UInt32)) : Option EventQueue :=
  if ¬ q.AsksForNotice now_ms paired_peer then some q
  else match notice with
    | none => some q
    | some (metadata, epoch_s) =>
      (({ q with ota_boot_notice_last_try_ms := now_ms } : EventQueue).publishMandatoryEvent
        kOtaBootCompleteEventId 1 (noticeValue metadata.sw_version) epoch_s).map (·.2)

/-- A tick with a queued event tries to send it. -/
def MaySend (q : EventQueue) (now_ms : UInt32) : Prop :=
  q.config.local_role = .Slave ∧
    ¬ (q.mandatory_event_backoff_until_ms ≠ 0 ∧
      (now_ms - q.mandatory_event_backoff_until_ms).toInt32 < 0) ∧
    ¬ (q.mandatory_event_last_tx_ms ≠ 0 ∧
      now_ms - q.mandatory_event_last_tx_ms < q.config.mandatory_event_min_gap_ms)

instance (q : EventQueue) (now_ms : UInt32) : Decidable (q.MaySend now_ms) :=
  inferInstanceAs (Decidable (_ ∧ _ ∧ _))

/-- The report of the front could not be sent. -/
def failFront (q : EventQueue) (now_ms : UInt32) (master : MacAddress) (ev : PendingMandatoryEvent)
    (rest : List PendingMandatoryEvent) : EventQueue :=
  let tried := { ev with retry_count := ev.retry_count + 1 }
  let fail_streak := q.mandatory_event_fail_streak + 1
  let q := { q with mandatory_event_last_tx_ms := now_ms, mandatory_event_fail_streak := fail_streak }
  let q :=
    if tried.retry_count > q.config.mandatory_event_retry_max then
      (q.report (.dropped master ev.corr_id ev "event retry exceeded")).withQueue rest
    else q.withQueue (tried :: rest)
  if fail_streak ≥ q.config.mandatory_event_fail_backoff_threshold then
    { q with
      mandatory_event_backoff_until_ms := now_ms + q.config.mandatory_event_backoff_ms
      mandatory_event_fail_streak := 0 }
  else q

def sendFront (q : EventQueue) (now_ms : UInt32) (master : MacAddress) (ev : PendingMandatoryEvent)
    (rest : List PendingMandatoryEvent) : EventQueue :=
  let q : EventQueue := { q with
    mandatory_event_last_tx_ms := now_ms
    mandatory_event_backoff_until_ms := 0
    mandatory_event_fail_streak := 0 }
  let q : EventQueue :=
    if ev.event_id = kOtaBootCompleteEventId ∧ q.firmware_sink = true then q.report .noticeCleared else q
  (q.withQueue rest).report (.sent master ev "mandatory event tx")

/-- `sendMandatoryEventReport` answers `sent`. -/
def tickMandatoryEventQueue (q : EventQueue) (now_ms : UInt32) (paired_peer : Option MacAddress)
    (sent : Bool) : EventQueue :=
  match q.mandatory_event_queue, paired_peer with
  | ev :: rest, some master =>
    if ¬ q.MaySend now_ms then q
    else if sent then q.sendFront now_ms master ev rest
    else q.failFront now_ms master ev rest
  | _, _ => q

end EventQueue

inductive QueueInput where
  | publish (event_id : UInt16) (severity : UInt8) (value : Int32) (event_ts_s : UInt32)
  | bootNotice (now_ms : UInt32) (paired_peer : Option MacAddress)
      (notice : Option (FirmwareImageMetadata × UInt32))
  | tick (now_ms : UInt32) (paired_peer : Option MacAddress) (sent : Bool)

namespace EventQueue

def step (q : EventQueue) : QueueInput → Option EventQueue
  | .publish event_id severity value event_ts_s =>
    (q.publishMandatoryEvent event_id severity value event_ts_s).map (·.2)
  | .bootNotice now_ms paired_peer notice => q.tickOtaBootCompletionNotice now_ms paired_peer notice
  | .tick now_ms paired_peer sent => some (q.tickMandatoryEventQueue now_ms paired_peer sent)

/-- The id under which the input publishes an event. -/
def published (q : EventQueue) : QueueInput → Option UInt16
  | .publish event_id _ _ _ => if q.config.local_role ≠ .Slave ∨ event_id = 0 then none else some event_id
  | .bootNotice now_ms paired_peer notice =>
    if q.AsksForNotice now_ms paired_peer ∧ notice.isSome = true then some kOtaBootCompleteEventId else none
  | .tick _ _ _ => none

/-- The input tries to send the front, with this result. -/
def TriesFront (q : EventQueue) (result : Bool) : QueueInput → Prop
  | .tick now_ms paired_peer sent =>
    sent = result ∧ q.mandatory_event_queue ≠ [] ∧ paired_peer.isSome = true ∧ q.MaySend now_ms
  | _ => False

instance (q : EventQueue) (result : Bool) : (i : QueueInput) → Decidable (q.TriesFront result i)
  | .publish .. => inferInstanceAs (Decidable False)
  | .bootNotice .. => inferInstanceAs (Decidable False)
  | .tick .. => inferInstanceAs (Decidable (_ ∧ _ ∧ _ ∧ _))

/-- No event leaves the queue but by being sent, by having used up its retries, for a newer one of its
id, or as the oldest of a full queue. -/
def LeavesInOrder (q : EventQueue) (i : QueueInput) (q' : EventQueue) : Prop :=
  ∀ e ∈ q.mandatory_event_queue,
    (∃ e' ∈ q'.mandatory_event_queue, e' = { e with retry_count := e'.retry_count }) ∨
    (q.mandatory_event_queue.head? = some e ∧ q.TriesFront true i) ∨
    (q.mandatory_event_queue.head? = some e ∧ q.TriesFront false i ∧
      q.config.mandatory_event_retry_max.toNat < e.retry_count.toNat + 1) ∨
    (q.published i = some e.event_id ∧ ∃ e' ∈ q'.mandatory_event_queue, e'.event_id = e.event_id ∧
      e'.corr_id = q.mandatory_event_corr_seq) ∨
    (q.mandatory_event_queue.head? = some e ∧ (q.published i).isSome = true ∧
      q.config.mandatory_event_max_queue.toNat ≤ q.mandatory_event_queue.length)

/-- No more events than configured, no two under one id. -/
structure Bounded (q : EventQueue) : Prop where
  length : q.mandatory_event_queue.length ≤ q.config.mandatory_event_max_queue.toNat
  ids : (q.mandatory_event_queue.map (·.event_id)).Nodup

def frontId (q : EventQueue) : Option UInt16 := q.mandatory_event_queue.head?.map (·.event_id)

end EventQueue

/-- A queue in a run, undefined once the front of an empty queue was read, and the failed attempts to
send an event under the id of its front since that id came to the front. -/
structure EventTrace where
  queue : Option EventQueue
  attempts : Nat

namespace EventTrace

def start (q : EventQueue) : EventTrace := ⟨some q, 0⟩

def step (t : EventTrace) (i : QueueInput) : EventTrace where
  queue := t.queue.bind (·.step i)
  attempts :=
    if (t.queue.bind (·.frontId)).isSome = true ∧
        (t.queue.bind (·.step i)).bind (·.frontId) = t.queue.bind (·.frontId) then
      if ∃ q ∈ t.queue, q.TriesFront false i then t.attempts + 1 else t.attempts
    else 0

/-- What a queue owes its users in a step. -/
def Dependable (t : EventTrace) (i : QueueInput) : Prop :=
  ∃ q q', t.queue = some q ∧ q.step i = some q' ∧ q.Bounded ∧ q'.Bounded ∧ q.LeavesInOrder i q' ∧
    (q.TriesFront false i → t.attempts + 1 ≤ q.config.mandatory_event_retry_max.toNat + 1)

/-- The configuration has room for the events that are published, no event is published under the id of
a front that has failed already, and no front has failed 255 times. -/
structure Orderly (t : EventTrace) (i : QueueInput) : Prop where
  room : ∀ q ∈ t.queue, (q.published i).isSome = true → q.config.mandatory_event_max_queue ≠ 0
  settled : ∀ q ∈ t.queue, ∀ e ∈ q.mandatory_event_queue.head?, q.published i = some e.event_id →
    e.retry_count = 0
  countable : ∀ q ∈ t.queue, ∀ e ∈ q.mandatory_event_queue.head?, q.TriesFront false i →
    e.retry_count ≠ 255

instance (t : EventTrace) (i : QueueInput) : Decidable (t.Orderly i) :=
  decidable_of_iff
    ((∀ q ∈ t.queue, (q.published i).isSome = true → q.config.mandatory_event_max_queue ≠ 0) ∧
      (∀ q ∈ t.queue, ∀ e ∈ q.mandatory_event_queue.head?, q.published i = some e.event_id →
        e.retry_count = 0) ∧
      ∀ q ∈ t.queue, ∀ e ∈ q.mandatory_event_queue.head?, q.TriesFront false i → e.retry_count ≠ 255)
    ⟨fun h => ⟨h.1, h.2.1, h.2.2⟩, fun h => ⟨h.room, h.settled, h.countable⟩⟩

end EventTrace

end EspNowLink
