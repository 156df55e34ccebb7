import EspNowLink.Management.Commands
import Mathlib.Data.List.TakeWhile

namespace EspNowLink

structure ManagementRequest where
  source : ManagementSource := .Unknown
  access_level : ManagementAccessLevel := .Owner
  cmd_id : UInt16 := 0
  req_id : UInt32 := 0
  timeout_ms : UInt32 := 0
  target_peer : Option MacAddress := none
  payload : Bytes := []
  deriving DecidableEq

structure ManagementResponse where
  source : ManagementSource
  cmd_id : UInt16
  req_id : UInt32
  status : ManagementStatus
  payload : Bytes := []
  deriving DecidableEq

/-- The time that a request has: its own, or that of its command. -/
def effectiveTimeout (request : ManagementRequest) : UInt32 :=
  if request.timeout_ms = 0 then commandTimeoutMs request.cmd_id else request.timeout_ms

/-- `polled_ms` is the time of the tick that polled the request and `clock_ms` what the service took
for the time then; nothing in the service reads them. -/
structure PendingRequest where
  request : ManagementRequest
  deadline_ms : UInt32
  priority : UInt8
  polled_ms : UInt32
  clock_ms : UInt32
  deriving DecidableEq

/-- A commit that waits for a topology stage. `origin` and `executed_ms`, the request that it is for
and the time when it was executed, are read by nothing in the service. -/
structure PendingDeferredTopologyCommit where
  req_id : UInt32
  cmd_id : UInt16
  source : ManagementSource
  peer : MacAddress
  deadline_ms : UInt32
  origin : PendingRequest
  executed_ms : UInt32
  deriving DecidableEq

/-- A response with the request that it answers. -/
structure AnsweredRequest where
  response : ManagementResponse
  origin : PendingRequest
  deriving DecidableEq

/-- `static_cast<int32_t>(now_ms - deadline_ms) >= 0`. -/
def deadlineReached (now_ms deadline_ms : UInt32) : Bool := now_ms - deadline_ms < 0x80000000

/-- What the execution of a command does to the queues of the service. No command is answered with a
timeout by its execution. -/
inductive Execution where
  /-- It is answered, once or more often, or not at all yet. -/
  | answered (responses : List ({ status : ManagementStatus // status ≠ .Timeout } × Bytes))
  /-- A topology commit finds a stage under way for the peer. -/
  | commitDeferred (peer : MacAddress)
  /-- `executeRequest` returns false, with what it has answered before. -/
  | failed (responses : List ({ status : ManagementStatus // status ≠ .Timeout } × Bytes))

/-- The queues of a `ManagementService`. `answers` are the responses queued since the last input. -/
structure ManagementService where
  now_ms : UInt32 := 0
  max_queue_depth : Nat := 32
  request_queue : List PendingRequest := []
  response_queue : List ManagementResponse := []
  deferred_topology_commits : List PendingDeferredTopologyCommit := []
  answers : List AnsweredRequest := []
  deriving DecidableEq

namespace ManagementService

/-- `begin`. -/
def start (max_queue_depth : Nat) : ManagementService where
  max_queue_depth := if max_queue_depth = 0 then 1 else max_queue_depth

def queueResponse (s : ManagementService) (origin : PendingRequest) (response : ManagementResponse) :
    ManagementService :=
  { s with
    response_queue := (if s.response_queue.length ≥ s.max_queue_depth then s.response_queue.drop 1
      else s.response_queue) ++ [response]
    answers := s.answers ++ [⟨response, origin⟩] }

/-- A response to a request. -/
def respond (s : ManagementService) (origin : PendingRequest) (status : ManagementStatus)
    (payload : Bytes) : ManagementService :=
  s.queueResponse origin
    ⟨origin.request.source, origin.request.cmd_id, origin.request.req_id, status, payload⟩

/-- The queue with a request in it: before the first one of a lower priority. -/
def insertByPriority (queue : List PendingRequest) (p : PendingRequest) : List PendingRequest :=
  queue.takeWhile (fun q => ¬p.priority < q.priority) ++ p :: queue.dropWhile fun q => ¬p.priority < q.priority

/-- A request as it is queued at `polled_ms`; the service's clock is that of its last tick. -/
def pendingOf (s : ManagementService) (polled_ms : UInt32) (request : ManagementRequest) :
    PendingRequest where
  request := request
  deadline_ms := s.now_ms + effectiveTimeout request
  priority := commandPriority request.cmd_id
  polled_ms := polled_ms
  clock_ms := s.now_ms

def submit (s : ManagementService) (polled_ms : UInt32) (request : ManagementRequest) :
    Bool × ManagementService :=
  let p := s.pendingOf polled_ms request
  if s.request_queue.length ≥ s.max_queue_depth then (false, s.respond p .QueueFull [])
  else (true, { s with request_queue := insertByPriority s.request_queue p })

/-- The response to a deferred commit. -/
def respondDeferred (s : ManagementService) (deferred : PendingDeferredTopologyCommit)
    (status : ManagementStatus) : ManagementService :=
  s.queueResponse deferred.origin ⟨deferred.source, deferred.cmd_id, deferred.req_id, status, []⟩

/-- The deferred commits in `prunePendingDescriptorPulls_`. The pulls that it drops are not answered. -/
def prunePendingDescriptorPulls (s : ManagementService) : ManagementService :=
  s.deferred_topology_commits.foldl
    (fun s deferred =>
      if deadlineReached s.now_ms deferred.deadline_ms then s.respondDeferred deferred .Timeout
      else { s with deferred_topology_commits := s.deferred_topology_commits ++ [deferred] })
    { s with deferred_topology_commits := [] }

/-- The commit is deferred already. -/
def commitWaits (s : ManagementService) (p : PendingRequest) (peer : MacAddress) : Bool :=
  s.deferred_topology_commits.any fun deferred =>
    deferred.req_id = p.request.req_id && deferred.source = p.request.source && deferred.peer = peer

def deferCommit (s : ManagementService) (p : PendingRequest) (peer : MacAddress) : ManagementService :=
  if s.commitWaits p peer then s
  else { s with deferred_topology_commits := s.deferred_topology_commits ++
    [{ req_id := p.request.req_id
       cmd_id := p.request.cmd_id
       source := p.request.source
       peer := peer
       deadline_ms := s.now_ms + effectiveTimeout p.request
       origin := p
       executed_ms := s.now_ms }] }

def respondAll (s : ManagementService) (p : PendingRequest)
    (responses : List ({ status : ManagementStatus // status ≠ .Timeout } × Bytes)) : ManagementService :=
  responses.foldl (fun s r => s.respond p r.1 r.2) s

def executeRequest (s : ManagementService) (p : PendingRequest) : Execution → Bool × ManagementService
  | .answered responses => (true, s.respondAll p responses)
  | .commitDeferred peer => (true, (s.deferCommit p peer).respond p .OkDeferred [])
  | .failed responses => (false, s.respondAll p responses)

/-- One tick: one request of the queue is taken. The pumps behind it queue events, not responses. -/
def tick (s : ManagementService) (now_ms : UInt32) (execution : ManagementRequest → Execution) :
    ManagementService :=
  let s := prunePendingDescriptorPulls { s with now_ms := now_ms }
  match s.request_queue with
  | [] => s
  | p :: rest =>
    let s := { s with request_queue := rest }
    if deadlineReached s.now_ms p.deadline_ms then s.respond p .Timeout []
    else
      match s.executeRequest p (execution p.request) with
      | (true, s) => s
      | (false, s) => s.respond p .InternalError []

/-- What becomes of the commits that wait for the stage of a peer when it ends with a status that is
no timeout: they are refused, or sent if the pull client takes them. -/
def dispatchDeferredTopologyCommitsForPeer (s : ManagementService) (peer : MacAddress)
    (stage_status : { status : ManagementStatus // status ≠ .Timeout }) (sent : UInt32 → Bool) :
    ManagementService :=
  s.deferred_topology_commits.foldl
    (fun s deferred =>
      if deferred.peer ≠ peer then
        { s with deferred_topology_commits := s.deferred_topology_commits ++ [deferred] }
      else if stage_status.1 ≠ .Ok then s.respondDeferred deferred stage_status
      else if !sent deferred.req_id then s.respondDeferred deferred .InternalError
      else s)
    { s with deferred_topology_commits := [] }

end ManagementService

end EspNowLink
