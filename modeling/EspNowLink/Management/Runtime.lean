import EspNowLink.Framework.Runs
import EspNowLink.Management.Service

open Framework

namespace EspNowLink

/-- A transport as the runtime knows it; what it polls is input of a tick. -/
structure ManagementTransport where
  source : ManagementSource
  access_level : ManagementAccessLevel := .Owner
  deriving DecidableEq

/-- `sent` is what the last tick gave to the transports, each by its place. -/
structure ManagementRuntime where
  service : ManagementService
  transports : List ManagementTransport
  request_rr_cursor : Nat := 0
  sent : List (Nat × ManagementResponse) := []
  deriving DecidableEq

/-- A tick of the runtime. `poll` answers for `pollRequest` of a transport in a round. -/
structure RuntimeTick where
  now_ms : UInt32
  max_requests_per_transport : Nat := 4
  max_responses : Nat := 32
  poll : Nat → Nat → Option ManagementRequest
  execution : ManagementRequest → Execution

/-- A tick, or the end of a topology stage between two ticks. -/
inductive ManagementInput where
  | tick (i : RuntimeTick)
  | stageDone (peer : MacAddress) (stage_status : { status : ManagementStatus // status ≠ .Timeout })
      (sent : UInt32 → Bool)

namespace ManagementRuntime

/-- A request gets its source and its access level from the transport. -/
def tagged (transport : ManagementTransport) (request : ManagementRequest) : ManagementRequest :=
  { request with source := transport.source, access_level := transport.access_level }

/-- The polls of one round, from the cursor on: whether any gave a request, and the service. -/
def pollRound (rt : ManagementRuntime) (now_ms : UInt32) (poll : Nat → Option ManagementRequest)
    (s : ManagementService) : Bool × ManagementService :=
  (List.range rt.transports.length).foldl
    (fun acc step =>
      let idx := (rt.request_rr_cursor + step) % rt.transports.length
      match rt.transports[idx]?, poll idx with
      | some transport, some request => (true, (acc.2.submit now_ms (tagged transport request)).2)
      | _, _ => acc)
    (false, s)

/-- The rounds that are left, up to the first that polls nothing. -/
def pollRounds (rt : ManagementRuntime) (i : RuntimeTick) : Nat → ManagementService → ManagementService
  | 0, s => s
  | left + 1, s =>
    match rt.pollRound i.now_ms (i.poll (i.max_requests_per_transport - (left + 1))) s with
    | (false, s) => s
    | (true, s) => pollRounds rt i left s

/-- The intake of a tick. -/
def intake (rt : ManagementRuntime) (i : RuntimeTick) : ManagementRuntime :=
  if rt.transports.length > 0 ∧ i.max_requests_per_transport > 0 then
    let rt := { rt with request_rr_cursor := rt.request_rr_cursor % rt.transports.length }
    let service := rt.pollRounds i i.max_requests_per_transport rt.service
    { rt with service := service
              request_rr_cursor := (rt.request_rr_cursor + 1) % rt.transports.length }
  else rt

/-- The transports of a response's source, by their places. -/
def routes (rt : ManagementRuntime) (response : ManagementResponse) : List (Nat × ManagementResponse) :=
  (rt.transports.zipIdx.filter fun t => t.1.source = response.source).map fun t => (t.2, response)

/-- The responses that a tick takes from the service and gives to the transports. -/
def dispatch (rt : ManagementRuntime) (max_responses : Nat) : ManagementRuntime :=
  { rt with
    service := { rt.service with response_queue := rt.service.response_queue.drop max_responses }
    sent := (rt.service.response_queue.take max_responses).flatMap rt.routes }

def forget (rt : ManagementRuntime) : ManagementRuntime :=
  { rt with service := { rt.service with answers := [] }, sent := [] }

def tick (rt : ManagementRuntime) (i : RuntimeTick) : ManagementRuntime :=
  let rt := rt.intake i
  dispatch { rt with service := rt.service.tick i.now_ms i.execution } i.max_responses

def step (rt : ManagementRuntime) : ManagementInput → ManagementRuntime
  | .tick i => rt.forget.tick i
  | .stageDone peer stage_status sent =>
    { rt.forget with
      service := rt.forget.service.dispatchDeferredTopologyCommitsForPeer peer stage_status sent }

/-- A runtime as it starts. -/
def start (max_queue_depth : Nat) (transports : List ManagementTransport) : ManagementRuntime where
  service := .start max_queue_depth
  transports := transports

end ManagementRuntime

end EspNowLink
