import EspNowLink.Management.DescriptorPulls
import EspNowLink.Ota.StatusRecord

open Framework

namespace EspNowLink

open ManagementCommandId

/-- What the test reads of a profile: its name and the ids of its settings, in their order. -/
structure IProfileDefinition where
  profileName : String
  settings : List UInt16
  deriving DecidableEq

/-- `ProfileRegistry::find`. -/
abbrev ProfileRegistry : Type := UInt16 → Option IProfileDefinition

structure CommTestOptions where
  step_timeout_ms : UInt32 := 5000
  source : ManagementSource := .Custom
  include_settings_full : Bool := true
  include_push_get : Bool := true
  deriving DecidableEq

structure CommTestStep where
  name : String
  cmd : UInt16
  payload : Bytes := []
  expected_desc : DescriptorResponseType := .Unknown
  require_desc : Bool := false
  parse_caps : Bool := false
  parse_setting : Bool := false
  parse_telem_schema : Bool := false
  require_telem_snapshot_non_empty : Bool := false
  deriving DecidableEq

structure ActiveStep where
  step : CommTestStep
  req_id : UInt32
  sent_ms : UInt32
  deriving DecidableEq

structure MasterCommTestStepResult where
  name : String
  cmd_id : UInt16
  req_id : UInt32
  passed : Bool
  status : ManagementStatus
  detail : String
  deriving DecidableEq

structure MasterCommTest where
  options : CommTestOptions := {}
  running : Bool := false
  completed : Bool := false
  passed : Bool := true
  started_ms : UInt32 := 0
  ended_ms : UInt32 := 0
  plan : List CommTestStep := []
  active : Option ActiveStep := none
  results : List MasterCommTestStepResult := []
  next_req_id : UInt32 := 30000
  remote_profile_id : UInt16 := kProfileUnknown
  remote_profile : Option IProfileDefinition := none
  settings_sweep_enqueued : Bool := false
  expected_settings_count : UInt32 := 0
  expected_telemetry_count : UInt32 := 0
  seen_telemetry_count : UInt32 := 0
  seen_settings : List UInt16 := []
  deriving DecidableEq

structure MasterCommTestSummary where
  running : Bool
  completed : Bool
  passed : Bool
  started_ms : UInt32
  ended_ms : UInt32
  total : UInt16
  passed_count : UInt16
  failed_count : UInt16
  profile_name : String
  expected_settings_count : UInt32
  seen_settings_count : UInt32
  expected_telemetry_count : UInt32
  seen_telemetry_count : UInt32
  deriving DecidableEq

def isStatusOk (status : ManagementStatus) : Bool := status = .Ok ∨ status = .OkDeferred

/-- `std::strtoul` with base 10. -/
def strtoul (text : Bytes) : UInt32 :=
  let (negative, number) := decimalForm.sign ((cString text).dropWhile isspace)
  OtaManager.unsignedLong negative (numberOf digitValue 10 (number.takeWhile isdigit))

namespace MasterCommTest

variable (t : MasterCommTest)

section Plan

def statusStep : CommTestStep where
  name := "status.get"
  cmd := StatusGet

def descStep : CommTestStep where
  name := "desc.get"
  cmd := DescGet
  require_desc := true
  expected_desc := .Device

/-- The steps behind the first two. -/
def laterSteps (options : CommTestOptions) : List CommTestStep :=
  [{ name := "caps.get", cmd := CapsGet, require_desc := true, expected_desc := .Capabilities
     parse_caps := true },
   { name := "telem.schema.get", cmd := TelemSchemaGet, require_desc := true, expected_desc := .Telemetry
     parse_telem_schema := true },
   { name := "telem.pull", cmd := TelemPull, require_desc := true, expected_desc := .TelemetrySnapshot
     require_telem_snapshot_non_empty := true },
   { name := "live.get", cmd := LiveGet, require_desc := true, expected_desc := .Liveness },
   { name := "time.get", cmd := TimeGet, require_desc := true, expected_desc := .Time }] ++
  if options.include_push_get then
    (encodeTelemetryPushCommand {}).toList.map fun payload =>
      { name := "push.get", cmd := PushGet, payload := payload }
  else []

/-- `buildBasePlan`. -/
def basePlan (options : CommTestOptions) : List CommTestStep := statusStep :: descStep :: laterSteps options

/-- `start`, with the `reset` in it. -/
def start (now_ms : UInt32) (options : CommTestOptions) : Bool × MasterCommTest :=
  if t.running then (false, t)
  else (true, { options := options, started_ms := now_ms, running := true, plan := basePlan options })

end Plan

section Dispatch

def markStepResult (active : ActiveStep) (passed : Bool) (status : ManagementStatus) (detail : String) :
    MasterCommTest :=
  { t with results := t.results ++
      [⟨active.step.name, active.step.cmd, active.req_id, passed, status, detail⟩] }

/-- The step that waits too long has failed. -/
def expire (now_ms : UInt32) : MasterCommTest :=
  match t.active with
  | none => t
  | some active =>
    if now_ms - active.sent_ms > t.options.step_timeout_ms then
      { t.markStepResult active false .Timeout "step timeout" with passed := false, active := none }
    else t

/-- The request of a step. -/
def requestOf (step : CommTestStep) : ManagementRequest where
  source := t.options.source
  cmd_id := step.cmd
  req_id := t.next_req_id
  timeout_ms := t.options.step_timeout_ms
  payload := step.payload

/-- The next step of the plan; false when there is none to wait for. -/
def dispatchNext (now_ms : UInt32) (mgmt : ManagementService) : Bool × MasterCommTest × ManagementService :=
  match t.plan with
  | [] => (false, t, mgmt)
  | step :: plan =>
    let request := t.requestOf step
    let taken : MasterCommTest := { t with plan := plan, next_req_id := t.next_req_id + 1 }
    let submitted := mgmt.submit now_ms request
    if submitted.1 then
      (true, { taken with active := some ⟨step, request.req_id, now_ms⟩ }, submitted.2)
    else
      (!plan.isEmpty,
        { taken with
          passed := false
          results := t.results ++
            [⟨step.name, request.cmd_id, request.req_id, false, .QueueFull, "submit failed"⟩] },
        submitted.2)

/-- The check of the settings at the end. -/
def checkSettings : MasterCommTest :=
  if t.options.include_settings_full ∧ t.expected_settings_count > 0 ∧
      UInt32.ofNat t.seen_settings.length ≠ t.expected_settings_count then
    { t with
      passed := false
      results := t.results ++
        [⟨"settings.count.check", SettingGet, 0, false, .InternalError, "settings count mismatch"⟩] }
  else t

/-- The check of the metrics at the end. -/
def checkTelemetry : MasterCommTest :=
  if t.expected_telemetry_count > 0 ∧ t.seen_telemetry_count > 0 ∧
      t.seen_telemetry_count ≠ t.expected_telemetry_count then
    { t with
      passed := false
      results := t.results ++
        [⟨"telemetry.count.check", TelemSchemaGet, 0, false, .InternalError, "telemetry count mismatch"⟩] }
  else t

def finalizeIfDone (now_ms : UInt32) : MasterCommTest :=
  if t.active.isSome ∨ t.plan ≠ [] then t
  else { t.checkSettings.checkTelemetry with running := false, completed := true, ended_ms := now_ms }

def tick (now_ms : UInt32) (mgmt : ManagementService) : MasterCommTest × ManagementService :=
  if !t.running then (t, mgmt)
  else
    let t := t.expire now_ms
    if t.active.isSome then (t, mgmt)
    else
      let next := t.dispatchNext now_ms mgmt
      (if next.1 then next.2.1 else next.2.1.finalizeIfDone now_ms, next.2.2)

end Dispatch

section Responses

/-- One capability of the device, as the test reads it. -/
def readCapability (c : CapabilityDescriptor) : MasterCommTest :=
  let number := strtoul c.description
  if c.key = ascii "profile_id" then
    if 0 < number ∧ number ≤ 0xFFFF then { t with remote_profile_id := number.toUInt16 } else t
  else if c.key = ascii "settings_count" then { t with expected_settings_count := number }
  else if c.key = ascii "telemetry_count" then { t with expected_telemetry_count := number }
  else t

def deriveProfileFromCapabilities (registry : ProfileRegistry) (d : DescriptorResponse) : MasterCommTest :=
  let t := d.capabilities.foldl readCapability t
  { t with
    remote_profile :=
      if t.remote_profile_id ≠ kProfileUnknown then registry t.remote_profile_id else none }

def settingStep (setting_id : UInt16) : CommTestStep where
  name := "setting.get.id." ++ toString setting_id.toNat
  cmd := SettingGet
  payload := [kSettingModeById, setting_id.toUInt8, (setting_id >>> 8).toUInt8]
  require_desc := true
  expected_desc := .Setting
  parse_setting := true

def enqueueSettingsSweepFromProfile : MasterCommTest :=
  match t.remote_profile with
  | none => t
  | some profile =>
    { t with
      expected_settings_count :=
        if t.expected_settings_count = 0 then UInt32.ofNat profile.settings.length
        else t.expected_settings_count
      plan := profile.settings.map settingStep ++ t.plan }

/-- What the test takes from the capabilities. -/
def takeCapabilities (registry : ProfileRegistry) (d : DescriptorResponse) : MasterCommTest :=
  let t := t.deriveProfileFromCapabilities registry d
  if t.options.include_settings_full ∧ !t.settings_sweep_enqueued then
    { t.enqueueSettingsSweepFromProfile with settings_sweep_enqueued := true }
  else t

/-- What the test takes from a descriptor of the expected type. -/
def takeDescriptor (registry : ProfileRegistry) (step : CommTestStep) (d : DescriptorResponse) : MasterCommTest :=
  let t := if step.parse_caps then t.takeCapabilities registry d else t
  let t :=
    if step.parse_telem_schema then { t with seen_telemetry_count := UInt32.ofNat d.telemetry.length } else t
  if step.parse_setting ∧ d.type = .Setting then
    { t with seen_settings := t.seen_settings.insert d.setting.setting_id }
  else t

/-- Whether the response validates, with the detail; it always has been handled. -/
def handleDescriptorValidation (registry : ProfileRegistry) (decode : Bytes → Option PullResponseDecoded)
    (step : CommTestStep) (response : ManagementResponse) : Bool × String × MasterCommTest :=
  match decode response.payload with
  | none => (false, "descriptor decode failed", t)
  | some (.controlResult _ _) => (false, "decoded kind mismatch", t)
  | some (.descriptor d) =>
    if step.expected_desc ≠ .Unknown ∧ d.type ≠ step.expected_desc then
      (false, "descriptor response type mismatch", t)
    else
      let t := t.takeDescriptor registry step d
      if step.require_telem_snapshot_non_empty ∧ d.telemetry_samples = [] then
        (false, "telemetry snapshot is empty", t)
      else (true, "ok", t)

/-- Whether the response is good for the step, with the detail. -/
def judge (registry : ProfileRegistry) (decode : Bytes → Option PullResponseDecoded) (step : CommTestStep)
    (response : ManagementResponse) : Bool × String × MasterCommTest :=
  if !isStatusOk response.status then (false, "non-ok management status", t)
  else if step.require_desc then t.handleDescriptorValidation registry decode step response
  else (true, "ok", t)

/-- The response is for the step that waits. -/
def awaits (response : ManagementResponse) (active : ActiveStep) : Prop :=
  response.req_id = active.req_id ∧ response.cmd_id = active.step.cmd

instance (response : ManagementResponse) (active : ActiveStep) : Decidable (awaits response active) :=
  inferInstanceAs (Decidable (_ ∧ _))

def onResponse (registry : ProfileRegistry) (decode : Bytes → Option PullResponseDecoded)
    (response : ManagementResponse) : Bool × MasterCommTest :=
  if !t.running then (false, t)
  else
    match t.active with
    | none => (false, t)
    | some active =>
      if awaits response active then
        let (ok, detail, t) := t.judge registry decode active.step response
        (true, { t.markStepResult active ok response.status detail with
          passed := t.passed && ok
          active := none })
      else (false, t)

def summary : MasterCommTestSummary where
  running := t.running
  completed := t.completed
  passed := t.completed && t.passed
  started_ms := t.started_ms
  ended_ms := t.ended_ms
  total := UInt16.ofNat (t.results.length + t.plan.length + if t.active.isSome then 1 else 0)
  passed_count := UInt16.ofNat (t.results.countP (·.passed))
  failed_count := UInt16.ofNat t.results.length - UInt16.ofNat (t.results.countP (·.passed))
  profile_name :=
    match t.remote_profile with
    | some profile => profile.profileName
    | none =>
      if t.remote_profile_id ≠ kProfileUnknown then "id:" ++ toString t.remote_profile_id.toNat else ""
  expected_settings_count := t.expected_settings_count
  seen_settings_count := UInt32.ofNat t.seen_settings.length
  expected_telemetry_count := t.expected_telemetry_count
  seen_telemetry_count := t.seen_telemetry_count

end Responses

end MasterCommTest

end EspNowLink
