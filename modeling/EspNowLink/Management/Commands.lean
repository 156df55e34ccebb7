import EspNowLink.Core.Types

namespace EspNowLink

inductive ManagementSource where
  | Unknown
  | Cli
  | Wifi
  | Ble
  | Custom
  deriving DecidableEq

inductive ManagementAccessLevel where
  | Observer
  | Operator
  | Maintainer
  | Owner
  deriving DecidableEq

inductive ManagementStatus where
  | Ok
  | OkDeferred
  | UnsupportedCommand
  | BadPayload
  | NotPaired
  | QueueFull
  | BusyPairing
  | UnpairInProgress
  | SourceNotActiveMaster
  | DeniedByPolicy
  | Timeout
  | DeniedByRole
  | CapacityLimitReached
  | TopologyNotStaged
  | TopologyVersionStale
  | TopologyApplyFailed
  | BusyRadioTransition
  | InternalError
  deriving DecidableEq

namespace ManagementCommandId

def StatusGet : UInt16 := 0x0002
def PairRequest : UInt16 := 0x0003
def UnpairRequest : UInt16 := 0x0004
def RemovePeerRequest : UInt16 := 0x0007
def PairedSnapshotGet : UInt16 := 0x0008
def DescGet : UInt16 := 0x0010
def CapsGet : UInt16 := 0x0011
def SettingsGet : UInt16 := 0x0012
def SettingGet : UInt16 := 0x0013
def SettingSet : UInt16 := 0x0014
def TelemSchemaGet : UInt16 := 0x0015
def TelemPull : UInt16 := 0x0016
def LiveGet : UInt16 := 0x0017
def TimeGet : UInt16 := 0x0018
def TimeSet : UInt16 := 0x0019
def CapsPageGet : UInt16 := 0x001A
def TelemSchemaPageGet : UInt16 := 0x001B
def SettingsPageGet : UInt16 := 0x001C
def PingGet : UInt16 := 0x001D
def LiveMonitorEnable : UInt16 := 0x001E
def LiveMonitorDisable : UInt16 := 0x001F
def PushStart : UInt16 := 0x0020
def PushUpdate : UInt16 := 0x0021
def PushPause : UInt16 := 0x0022
def PushResume : UInt16 := 0x0023
def PushStop : UInt16 := 0x0024
def PushGet : UInt16 := 0x0025
def LiveMonitorStatusGet : UInt16 := 0x0026
def TopologyStageSet : UInt16 := 0x0027
def TopologyCommit : UInt16 := 0x0028
def TopologyStatusGet : UInt16 := 0x0029
def TopologySlotsGet : UInt16 := 0x002A
def TopologyTriggerSend : UInt16 := 0x002B
def RestartSlaveRequest : UInt16 := 0x0030
def ResetSlaveRequest : UInt16 := 0x0031
def RestartMasterRequest : UInt16 := 0x0032
def ResetMasterRequest : UInt16 := 0x0033
def AudioPingRequest : UInt16 := 0x0034
def LogLocalStatusGet : UInt16 := 0x0040
def LogLocalRead : UInt16 := 0x0041
def LogLocalClear : UInt16 := 0x0042
def LogLocalControlSet : UInt16 := 0x0043
def LogRemoteStatusGet : UInt16 := 0x0044
def LogRemoteRead : UInt16 := 0x0045
def LogRemoteClear : UInt16 := 0x0046
def LogRemoteControlSet : UInt16 := 0x0047
def ChannelRuntimeGet : UInt16 := 0x0048
def ChannelSyncAll : UInt16 := 0x0049
def StorageInfoGet : UInt16 := 0x0050
def StorageList : UInt16 := 0x0051
def StorageStat : UInt16 := 0x0052
def StorageFormat : UInt16 := 0x0053
def OtaStatusGet : UInt16 := 0x0060
def OtaManifestGet : UInt16 := 0x0061
def OtaManifestPageGet : UInt16 := 0x0062
def OtaManifestRebuild : UInt16 := 0x0063
def OtaClearScope : UInt16 := 0x0064
def OtaCapacityGet : UInt16 := 0x0065
def OtaGateGet : UInt16 := 0x0066
def OtaApply : UInt16 := 0x0067
def OtaRollback : UInt16 := 0x0068
def OtaTransferBegin : UInt16 := 0x0069
def OtaTransferChunk : UInt16 := 0x006A
def OtaTransferEnd : UInt16 := 0x006B
def OtaTransferAbort : UInt16 := 0x006C
def OtaPushStart : UInt16 := 0x006D
def OtaPushAbort : UInt16 := 0x006E
def OtaPushStatus : UInt16 := 0x006F
def CommTestRun : UInt16 := 0x0070
def CommTestStatus : UInt16 := 0x0071
def CommTestReport : UInt16 := 0x0072
def MetricsGet : UInt16 := 0x0073
def MetricsReset : UInt16 := 0x0074
def QueueGet : UInt16 := 0x0075
def OtaUpdateStart : UInt16 := 0x0076
def OtaArchiveList : UInt16 := 0x0077
def OtaArchiveSaveRunning : UInt16 := 0x0078
def OtaArchiveSaveStaged : UInt16 := 0x0079
def OtaArchiveRestore : UInt16 := 0x007A
def OtaArchiveDelete : UInt16 := 0x007B
def OtaArchiveClear : UInt16 := 0x007C
def OtaMasterUpdateStart : UInt16 := 0x007D
def OtaArchiveVerify : UInt16 := 0x007E
def CliControlSet : UInt16 := 0x007F
def ChainLoopControlSet : UInt16 := 0x0080
def NodeBundleGet : UInt16 := 0x0081

end ManagementCommandId

open ManagementCommandId

/-- The commands that go before all others. -/
def urgentCommands : List UInt16 :=
  [PairRequest, UnpairRequest, RemovePeerRequest, RestartMasterRequest, ResetMasterRequest,
    RestartSlaveRequest, ResetSlaveRequest, AudioPingRequest, LogLocalClear, LogLocalControlSet,
    LogRemoteClear, LogRemoteControlSet, StorageFormat, OtaManifestRebuild, OtaClearScope,
    OtaApply, OtaArchiveSaveRunning, OtaArchiveSaveStaged, OtaArchiveRestore, OtaArchiveDelete,
    OtaArchiveClear, OtaRollback, OtaTransferAbort, OtaPushAbort, OtaMasterUpdateStart,
    OtaUpdateStart, TopologyStageSet, TopologyCommit, TopologyTriggerSend, CommTestRun,
    MetricsReset, CliControlSet, ChainLoopControlSet, ChannelSyncAll, LiveMonitorEnable,
    LiveMonitorDisable]

/-- The commands that go before those of no list. -/
def promptCommands : List UInt16 :=
  [StatusGet, QueueGet, PairedSnapshotGet, MetricsGet, TopologyStatusGet, TopologySlotsGet,
    CommTestStatus, CommTestReport, NodeBundleGet, SettingGet, SettingSet, LiveGet,
    LiveMonitorStatusGet, PingGet, TimeGet, TimeSet, LogLocalStatusGet, LogLocalRead,
    LogRemoteStatusGet, LogRemoteRead, ChannelRuntimeGet, CapsPageGet, TelemSchemaPageGet,
    SettingsPageGet, StorageInfoGet, StorageList, ManagementCommandId.StorageStat, OtaStatusGet,
    OtaManifestGet, OtaManifestPageGet, OtaArchiveVerify, OtaArchiveList, OtaCapacityGet, OtaGateGet,
    OtaTransferBegin, OtaTransferChunk, OtaTransferEnd, OtaPushStart, OtaPushStatus,
    OtaUpdateStart]

def commandPriority (cmd_id : UInt16) : UInt8 :=
  if cmd_id ∈ urgentCommands then 0 else if cmd_id ∈ promptCommands then 1 else 2

/-- The commands with 2500 ms. -/
def changingCommands : List UInt16 :=
  [RestartMasterRequest, ResetMasterRequest, RestartSlaveRequest, ResetSlaveRequest,
    AudioPingRequest, RemovePeerRequest, SettingSet, LogLocalClear, LogLocalControlSet,
    LogRemoteClear, LogRemoteControlSet, OtaManifestRebuild, OtaClearScope,
    OtaArchiveSaveRunning, OtaArchiveSaveStaged, OtaArchiveRestore, OtaArchiveDelete,
    OtaArchiveClear, OtaApply, OtaRollback, OtaPushStart, OtaPushAbort, OtaMasterUpdateStart,
    OtaUpdateStart, TopologyStageSet, TopologyCommit, TopologyTriggerSend, MetricsReset,
    CliControlSet, ChainLoopControlSet, ChannelSyncAll, ManagementCommandId.PushStart, PushUpdate, PushPause,
    PushResume, PushStop]

def commandTimeoutMs (cmd_id : UInt16) : UInt32 :=
  if cmd_id ∈ [PairRequest, UnpairRequest, CommTestRun] then 5000
  else if cmd_id ∈ [NodeBundleGet, SettingsGet, SettingsPageGet] then 5000
  else if cmd_id ∈ [LogLocalRead, LogRemoteRead] then 3000
  else if cmd_id ∈ [StorageFormat] then 30000
  else if cmd_id ∈ [OtaTransferBegin, OtaTransferChunk, OtaTransferEnd, OtaTransferAbort] then 30000
  else if cmd_id ∈ changingCommands then 2500
  else if cmd_id ∈ [OtaManifestGet, OtaManifestPageGet, OtaArchiveVerify, OtaArchiveList] then 10000
  else 1500

end EspNowLink
