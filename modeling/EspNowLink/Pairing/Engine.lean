import EspNowLink.Platform.Persistence
import EspNowLink.Platform.Radio

namespace EspNowLink

inductive EventType where
  | PairingStarted
  | PairingStep
  | Paired
  | PairingFailed
  | ChannelSwitchStarted
  | ChannelSwitchCommitted
  | ChannelSwitchFailed
  deriving DecidableEq

structure Event where
  type : EventType
  peer : MacAddress
  correlation_id : UInt32
  message : String
  deriving DecidableEq

/-- The fields of `ManagerConfig` that the engine reads. -/
structure ManagerConfig where
  local_role : Role
  discovery_interval_ms : UInt32
  discovery_name : Option Bytes
  auto_pair_on_discovery : Bool
  unpair_ack_timeout_ms : UInt32
  unpair_ack_grace_ms : UInt32
  channel_switch_timeout_ms : UInt32
  channel_switch_grace_ms : UInt32
  time_sync_enabled : Bool
  time_sync_interval_ms : UInt32

inductive PairPhase where
  | Idle
  | MasterWaitInitAck
  | MasterSecureGuard
  | MasterWaitConfirmAck
  | SlaveWaitConfirm
  deriving DecidableEq

inductive ChannelSwitchState where
  | Idle
  | MasterWaitAck
  | MasterWaitCommit
  | SlavePrepared
  deriving DecidableEq

def kPairInitAckTimeoutMs : UInt32 := 1200
def kSecureGuardDelayMs : UInt32 := 150
def kPairConfirmAckTimeoutMs : UInt32 := 1500
def kPairTotalTimeoutMs : UInt32 := 4000
def kSlavePairHoldTimeoutMs : UInt32 := 2500

def appendTlv (tag type : UInt8) (value : Bytes) : Bytes :=
  [tag, type] ++ le16 value.length.toUInt16 ++ value

def pairInitPayload (seed : PairSeed) (nonce : UInt32) (profile_id : UInt8) : Bytes :=
  appendTlv 0x01 0x01 [1] ++ appendTlv 0x10 0x08 seed.bytes.toList ++
    appendTlv 0x11 0x03 (le32 nonce) ++ appendTlv 0x12 0x01 [profile_id]

def pairInitAckPayload (nonce : UInt32) : Bytes := appendTlv 0x20 0x03 (le32 nonce)
def pairConfirmPayload (nonce : UInt32) : Bytes := appendTlv 0x30 0x03 (le32 nonce)
def pairConfirmAckPayload : Bytes := appendTlv 0x40 0x01 [1]
def channelPreparePayload (p : ChannelSwitchPayload) : Bytes :=
  appendTlv 0x10 0x01 [p.new_channel] ++ appendTlv 0x11 0x03 (le32 p.effective_at_ms)

/-- `mbedtls_md_hmac` with SHA-256, which may report an error, and the compiled-in PMK. -/
structure Crypto where
  hmac : Bytes → Bytes → Option (Vector UInt8 32)
  pmk : Bytes

/-- The bytes of `ENL2LMK`. -/
def kDeriveTag : Bytes := [0x45, 0x4E, 0x4C, 0x32, 0x4C, 0x4D, 0x4B]

def deriveLmkFromSeed (crypto : Crypto) (seed : PairSeed) (master slave : MacAddress)
    (pairing_nonce : UInt32) : Option LmkKey :=
  (crypto.hmac crypto.pmk (master.toList ++ slave.toList ++ seed.bytes.toList ++
    le32 pairing_nonce ++ kDeriveTag)).map fun digest => Vector.ofFn fun i => digest[i.val]

/-- `makePairSeed`: random bytes, never all zero. -/
def makePairSeed (p : Platform) : PairSeed × Platform :=
  let (bytes, p) := p.espFillRandom 16
  if bytes.all (· == 0) then
    let (word, p) := p.espRandom
    let first := if word.toUInt8 = 0 then 0x5A else word.toUInt8
    (⟨bytes.set 0 first⟩, p)
  else (⟨bytes⟩, p)

structure PairingEngine where
  config : ManagerConfig
  crypto : Crypto
  platform : Platform
  store : Option PairingStore
  has_hooks : Bool
  has_time_source : Bool
  events : List Event
  local_mac : MacAddress
  local_profile_id : UInt8
  peer_mac : MacAddress
  current_seed : PairSeed
  current_lmk : LmkKey
  pairing_nonce : UInt32
  state : LinkState
  pair_phase : PairPhase
  corr_id : UInt32
  pair_deadline_ms : UInt32
  pair_total_deadline_ms : UInt32
  pair_last_tick_ms : UInt32
  current_now_ms : UInt32
  discovery_last_sent_ms : UInt32
  discovery_counter : UInt32
  last_time_sync_tx_ms : UInt32
  has_time_sync_tx : Bool
  unpair_pending : Bool
  unpair_corr_id : UInt32
  unpair_deadline_ms : UInt32
  unpair_last_tick_ms : UInt32
  deferred_unpair_cleanup : Bool
  deferred_unpair_peer : MacAddress
  deferred_unpair_corr_id : UInt32
  deferred_unpair_deadline_ms : UInt32
  deferred_unpair_last_tick_ms : UInt32
  channel_state : ChannelSwitchState
  pending_channel : UInt8
  channel_corr_id : UInt32
  channel_effective_at_ms : UInt32
  channel_deadline_ms : UInt32

namespace PairingEngine

/-- The engine as constructed, with its local identity set. -/
def boot (config : ManagerConfig) (crypto : Crypto) (platform : Platform)
    (store : Option PairingStore) (has_hooks has_time_source : Bool) (local_mac : MacAddress)
    (profile_id : UInt8) : PairingEngine where
  config := config
  crypto := crypto
  platform := platform
  store := store
  has_hooks := has_hooks
  has_time_source := has_time_source
  events := []
  local_mac := local_mac
  local_profile_id := if profile_id = 0 then 1 else profile_id
  peer_mac := zeroMac
  current_seed := ⟨Vector.replicate 16 0⟩
  current_lmk := Vector.replicate 16 0
  pairing_nonce := 0
  state := .Unpaired
  pair_phase := .Idle
  corr_id := 0
  pair_deadline_ms := 0
  pair_total_deadline_ms := 0
  pair_last_tick_ms := 0
  current_now_ms := 0
  discovery_last_sent_ms := 0
  discovery_counter := 1
  last_time_sync_tx_ms := 0
  has_time_sync_tx := false
  unpair_pending := false
  unpair_corr_id := 0
  unpair_deadline_ms := 0
  unpair_last_tick_ms := 0
  deferred_unpair_cleanup := false
  deferred_unpair_peer := zeroMac
  deferred_unpair_corr_id := 0
  deferred_unpair_deadline_ms := 0
  deferred_unpair_last_tick_ms := 0
  channel_state := .Idle
  pending_channel := 0
  channel_corr_id := 0
  channel_effective_at_ms := 0
  channel_deadline_ms := 0

def getPairedPeer (e : PairingEngine) : Option MacAddress :=
  if e.state ≠ .Secured then none else some e.peer_mac

def emit (e : PairingEngine) (type : EventType) (peer : MacAddress) (corr_id : UInt32)
    (msg : String) : PairingEngine :=
  { e with events := e.events ++ [⟨type, peer, corr_id, msg⟩] }

def attachPeer (e : PairingEngine) (mac : MacAddress) (encrypted : Bool) (lmk : Option LmkKey) :
    Bool × PairingEngine :=
  let (ok, platform) := e.platform.addPeer mac encrypted lmk
  (ok, { e with platform := platform })

def evictPeer (e : PairingEngine) (mac : MacAddress) : Bool × PairingEngine :=
  let (ok, platform) := e.platform.removePeer mac
  (ok, { e with platform := platform })

def shouldAttachTimeSync (e : PairingEngine) (now_ms : UInt32) : Bool :=
  if !e.config.time_sync_enabled || e.config.local_role ≠ .Master || !e.has_time_source then false
  else if !e.has_time_sync_tx then true
  else if e.config.time_sync_interval_ms = 0 then true
  else now_ms - e.last_time_sync_tx_ms ≥ e.config.time_sync_interval_ms

/-- The time prefix of a control frame: the payload with its flags, and the engine that has noted
the transmission. -/
def wrapTimeSync (e : PairingEngine) (payload : Bytes) : Bytes × UInt8 × PairingEngine :=
  if e.shouldAttachTimeSync e.current_now_ms &&
      payload.length ≤ kMaxPayload - kTimeSyncMetadataSize then
    match e.platform.nowEpochSec with
    | (some epoch_s, platform) =>
      (le32 epoch_s.toUInt32 ++ payload, kFrameFlagTimeSyncEpoch,
        { e with platform := platform, has_time_sync_tx := true,
                 last_time_sync_tx_ms := e.current_now_ms })
    | (none, platform) => (payload, 0, { e with platform := platform })
  else (payload, 0, e)

/-- `ProtocolCodec::encode` of a control frame fails only on its length. -/
def sendControl (e : PairingEngine) (dest : MacAddress) (type : MessageType) (corr_id : UInt32)
    (payload : Bytes) : Bool × PairingEngine :=
  let (wire, flags, e) := e.wrapTimeSync payload
  if wire.length > kMaxPayload then (false, e)
  else
    let (ok, platform) := e.platform.send ⟨dest, ⟨type, flags, corr_id, e.config.local_role⟩, wire⟩
    (ok, { e with platform := platform })

def setPaired (e : PairingEngine) (paired : Bool) : PairingEngine :=
  if paired then
    { e with state := .Secured, pair_phase := .Idle, pair_deadline_ms := 0,
             pair_total_deadline_ms := 0 }
  else { e with state := .Unpaired }

def resetPairing (e : PairingEngine) : PairingEngine :=
  { e with
    state := .Unpaired
    pair_phase := .Idle
    corr_id := 0
    pair_deadline_ms := 0
    pair_total_deadline_ms := 0
    pair_last_tick_ms := 0
    pairing_nonce := 0
    has_time_sync_tx := false
    last_time_sync_tx_ms := 0
    unpair_pending := false
    unpair_corr_id := 0
    unpair_deadline_ms := 0
    unpair_last_tick_ms := 0
    deferred_unpair_cleanup := false
    deferred_unpair_peer := zeroMac
    deferred_unpair_corr_id := 0
    deferred_unpair_deadline_ms := 0
    deferred_unpair_last_tick_ms := 0 }

def failPairing (e : PairingEngine) (peer : MacAddress) (corr_id : UInt32) (msg : String) :
    PairingEngine :=
  let e := e.emit .PairingFailed peer corr_id msg
  let e := if peer = kBroadcastMac then e else (e.evictPeer peer).2
  { e.resetPairing with discovery_last_sent_ms := 0 }

/-- `store_->f(...)` where the engine ignores the result and a missing store is skipped. -/
def withStore (e : PairingEngine) (f : PairingStore → PairingStore) : PairingEngine :=
  { e with store := e.store.map f }

/-- The two erasures that follow the end of a pairing. -/
def forgetPeer (e : PairingEngine) (peer : MacAddress) : PairingEngine :=
  e.withStore fun s => ((s.erasePair e.local_mac peer).2.eraseChannel e.local_mac peer).2

def pairRecord (e : PairingEngine) : PairRecord where
  valid := true
  local_role := e.config.local_role.toByte
  local_mac := e.local_mac
  peer_mac := e.peer_mac
  lmk := e.current_lmk
  channel := e.platform.channel

def persistPair (e : PairingEngine) : Bool × PairingEngine :=
  match e.store with
  | none => (false, e)
  | some s =>
    if !s.enabled || e.state ≠ .Secured then (false, e)
    else
      let (saved_pair, s) := s.savePair e.pairRecord
      let (saved_chan, s) := s.saveChannel e.local_mac e.peer_mac e.platform.channel
      (saved_pair && saved_chan, { e with store := some s })

def discoveryNameId (config : ManagerConfig) : UInt8 :=
  (config.discovery_name.getD []).foldl (· ^^^ ·) 0

/-- `tick`: the discovery beacon of an unpaired slave. -/
def tickDiscovery (e : PairingEngine) (now_ms : UInt32) : PairingEngine :=
  if e.config.local_role = .Slave ∧ e.state = .Unpaired ∧
      (e.discovery_last_sent_ms = 0 ∨
        now_ms - e.discovery_last_sent_ms ≥ e.config.discovery_interval_ms) then
    let disc := [kProtocolVersion, 0, 2, 2, 1, discoveryNameId e.config, e.local_profile_id,
      0, 0, 0, 0, 0, 0, 0]
    let counter := e.discovery_counter
    let e := { e with discovery_last_sent_ms := now_ms, discovery_counter := counter + 1 }
    (e.sendControl kBroadcastMac .Discovery counter disc).2
  else e

def timeoutReason : PairPhase → String
  | .MasterWaitInitAck => "pair init ack timeout"
  | .MasterWaitConfirmAck => "pair confirm ack timeout"
  | .SlaveWaitConfirm => "pair confirm wait timeout on slave"
  | _ => "pair timeout"

/-- `tick`: the phase deadline of a pairing attempt is reached. -/
def pairDeadline (e : PairingEngine) : Bool × PairingEngine :=
  if e.pair_phase = .MasterSecureGuard then
    match e.sendControl e.peer_mac .PairConfirm e.corr_id (pairConfirmPayload e.pairing_nonce) with
    | (false, e) => (false, e.failPairing e.peer_mac e.corr_id "pair confirm send failed on master")
    | (true, e) =>
      let e := { e with pair_phase := .MasterWaitConfirmAck,
                        pair_deadline_ms := kPairConfirmAckTimeoutMs, pair_last_tick_ms := 0 }
      (true, e.emit .PairingStep e.peer_mac e.corr_id "pair_confirm_tx_secure")
  else (false, e.failPairing e.peer_mac e.corr_id (timeoutReason e.pair_phase))

def spendTotal (e : PairingEngine) (elapsed : UInt32) : PairingEngine :=
  if e.pair_total_deadline_ms ≠ 0 then
    { e with pair_total_deadline_ms := e.pair_total_deadline_ms - elapsed }
  else e

def spendPhase (e : PairingEngine) (elapsed : UInt32) : Bool × PairingEngine :=
  if e.pair_deadline_ms = 0 then (true, e)
  else if elapsed ≥ e.pair_deadline_ms then e.pairDeadline
  else (true, { e with pair_deadline_ms := e.pair_deadline_ms - elapsed })

/-- `tick`: the timers of a pairing attempt. -/
def tickPairing (e : PairingEngine) (now_ms : UInt32) : Bool × PairingEngine :=
  if e.state ≠ .Pairing then (true, e)
  else if e.pair_last_tick_ms = 0 then (true, { e with pair_last_tick_ms := now_ms })
  else
    let elapsed := now_ms - e.pair_last_tick_ms
    let e := { e with pair_last_tick_ms := now_ms }
    if e.pair_total_deadline_ms ≠ 0 ∧ elapsed ≥ e.pair_total_deadline_ms then
      (false, e.failPairing e.peer_mac e.corr_id "pair total timeout")
    else (e.spendTotal elapsed).spendPhase elapsed

/-- `tick`: a prepared slave moves to the new channel. -/
def applySlaveChannel (e : PairingEngine) : Bool × PairingEngine :=
  match e.platform.setChannel e.pending_channel with
  | (false, platform) =>
    let e := { e with platform := platform }
    let e := e.emit .ChannelSwitchFailed e.peer_mac e.channel_corr_id "slave channel apply failed"
    (false, { e with channel_state := .Idle })
  | (true, platform) =>
    let e := { e with platform := platform }
    let e := e.withStore fun s => (s.saveChannel e.local_mac e.peer_mac e.pending_channel).2
    let (sent, e) := e.sendControl e.peer_mac .ChannelSwitchCommitAck e.channel_corr_id []
    let e := { e with channel_state := .Idle }
    (sent, if sent then
      e.emit .ChannelSwitchCommitted e.peer_mac e.channel_corr_id "slave channel committed" else e)

/-- `tick`: the channel switch. The first component is what `tick` returns at once, if it does. -/
def tickChannel (e : PairingEngine) (now_ms : UInt32) : Option Bool × PairingEngine :=
  if e.channel_state ≠ .Idle ∧ e.channel_deadline_ms ≠ 0 ∧ now_ms > e.channel_deadline_ms then
    let e := e.emit .ChannelSwitchFailed e.peer_mac e.channel_corr_id "channel switch timeout"
    (some false, { e with channel_state := .Idle })
  else if e.channel_state = .SlavePrepared ∧ now_ms ≥ e.channel_effective_at_ms then
    let (ok, e) := e.applySlaveChannel
    (some ok, e)
  else if e.channel_state = .MasterWaitCommit ∧ now_ms ≥ e.channel_effective_at_ms then
    match e.platform.setChannel e.pending_channel with
    | (false, platform) =>
      let e := { e with platform := platform }
      let e := e.emit .ChannelSwitchFailed e.peer_mac e.channel_corr_id "master channel apply failed"
      (some false, { e with channel_state := .Idle })
    | (true, platform) => (none, { e with platform := platform })
  else (none, e)

/-- `tick`: the timer of a pending unpair request. -/
def tickUnpair (e : PairingEngine) (now_ms : UInt32) : PairingEngine :=
  if e.unpair_pending ∧ e.unpair_deadline_ms ≠ 0 then
    if e.unpair_last_tick_ms = 0 then { e with unpair_last_tick_ms := now_ms }
    else
      let elapsed := now_ms - e.unpair_last_tick_ms
      let e := { e with unpair_last_tick_ms := now_ms }
      if elapsed ≥ e.unpair_deadline_ms then
        let e := { e with unpair_pending := false, unpair_deadline_ms := 0,
                          unpair_last_tick_ms := 0 }
        e.emit .PairingStep e.peer_mac e.unpair_corr_id "unpair timeout; still paired"
      else { e with unpair_deadline_ms := e.unpair_deadline_ms - elapsed }
  else e

/-- `tick`: the teardown that an accepted unpair request scheduled. -/
def deferredCleanup (e : PairingEngine) : PairingEngine :=
  let peer := e.deferred_unpair_peer
  let e := e.forgetPeer peer
  let e := (e.evictPeer peer).2
  let e := (e.setPaired false).resetPairing
  let e := { e with discovery_last_sent_ms := 0 }
  -- the reset has cleared the deferred peer, so the event names no peer
  let e := e.emit .PairingStep e.deferred_unpair_peer e.deferred_unpair_corr_id "unpaired by request"
  { e with deferred_unpair_cleanup := false, deferred_unpair_deadline_ms := 0,
           deferred_unpair_last_tick_ms := 0, deferred_unpair_corr_id := 0 }

/-- `tick`: the timer of the deferred teardown. -/
def tickDeferredCleanup (e : PairingEngine) (now_ms : UInt32) : PairingEngine :=
  if e.deferred_unpair_cleanup ∧ e.deferred_unpair_deadline_ms ≠ 0 then
    if e.deferred_unpair_last_tick_ms = 0 then { e with deferred_unpair_last_tick_ms := now_ms }
    else
      let elapsed := now_ms - e.deferred_unpair_last_tick_ms
      let e := { e with deferred_unpair_last_tick_ms := now_ms }
      if elapsed ≥ e.deferred_unpair_deadline_ms then e.deferredCleanup
      else { e with deferred_unpair_deadline_ms := e.deferred_unpair_deadline_ms - elapsed }
  else e

def tick (e : PairingEngine) (now_ms : UInt32) : Bool × PairingEngine :=
  let e := { e with current_now_ms := now_ms }
  match (e.tickDiscovery now_ms).tickPairing now_ms with
  | (false, e) => (false, e)
  | (true, e) =>
    match e.tickChannel now_ms with
    | (some result, e) => (result, e)
    | (none, e) => (true, (e.tickUnpair now_ms).tickDeferredCleanup now_ms)

def masterKey (e : PairingEngine) (slave : MacAddress) : Option LmkKey :=
  deriveLmkFromSeed e.crypto e.current_seed e.local_mac slave e.pairing_nonce

def slaveKey (e : PairingEngine) (master : MacAddress) : Option LmkKey :=
  deriveLmkFromSeed e.crypto e.current_seed master e.local_mac e.pairing_nonce

/-- Both sides replace the peer's open entry by one with the derived key. -/
def installKey (e : PairingEngine) (peer : MacAddress) (lmk : LmkKey) : Bool × PairingEngine :=
  ({ (e.evictPeer peer).2 with current_lmk := lmk }).attachPeer peer true (some lmk)

def beginMasterAttempt (e : PairingEngine) (peer : MacAddress) (corr_id : UInt32) :
    PairingEngine :=
  { e with
    peer_mac := peer
    corr_id := corr_id
    state := .Pairing
    pair_phase := .MasterWaitInitAck
    pair_deadline_ms := kPairInitAckTimeoutMs
    pair_total_deadline_ms := kPairTotalTimeoutMs
    pair_last_tick_ms := 0
    pairing_nonce := 0 }

/-- The seed and the nonce of a new attempt. -/
def drawSecrets (e : PairingEngine) : PairingEngine :=
  let seed := makePairSeed e.platform
  let nonce := seed.2.espRandom
  { e with platform := nonce.2, current_seed := seed.1, pairing_nonce := nonce.1 }

def requestPair (e : PairingEngine) (peer : MacAddress) (corr_id : UInt32) : Bool × PairingEngine :=
  if e.config.local_role ≠ .Master then (false, e)
  else if e.state = .Pairing ∨ e.unpair_pending then (false, e)
  else
    match (e.beginMasterAttempt peer corr_id).attachPeer peer false none with
    | (false, e) => (false, e.failPairing peer corr_id "unsecure peer add failed on master")
    | (true, e) =>
      let e := e.drawSecrets.emit .PairingStarted peer corr_id "pair_init_tx_unsecure"
      match e.sendControl peer .PairInit corr_id
          (pairInitPayload e.current_seed e.pairing_nonce 0) with
      | (false, e) => (false, e.failPairing peer corr_id "pair init send failed")
      | (true, e) => (true, e)

def onDiscovery (e : PairingEngine) (sender : MacAddress) (corr_id : UInt32) :
    Bool × PairingEngine :=
  if e.config.local_role ≠ .Master ∨ e.state ≠ .Unpaired then (false, e)
  else if !e.config.auto_pair_on_discovery then
    (true, e.emit .PairingStep sender corr_id "discovery seen (manual pair mode)")
  else e.requestPair sender corr_id

/-- The answer to a pair init while another attempt is under way. -/
def rejectBusy (e : PairingEngine) (sender : MacAddress) (corr_id : UInt32) : PairingEngine :=
  let e := (e.attachPeer sender false none).2
  let e := (e.sendControl sender .PairBusy corr_id [1]).2
  e.emit .PairingStep sender corr_id "busy_pairing_reject"

def beginSlaveAttempt (e : PairingEngine) (sender : MacAddress) (corr_id : UInt32)
    (seed : PairSeed) (pairing_nonce : UInt32) : PairingEngine :=
  { e with
    peer_mac := sender
    corr_id := corr_id
    current_seed := seed
    pairing_nonce := pairing_nonce
    state := .Pairing
    pair_phase := .SlaveWaitConfirm
    pair_deadline_ms := kSlavePairHoldTimeoutMs
    pair_total_deadline_ms := kPairTotalTimeoutMs
    pair_last_tick_ms := 0 }

/-- The last part of `onPairInit`: the slave installs the key before the confirm arrives. -/
def prepareSlaveKey (e : PairingEngine) (sender : MacAddress) (corr_id : UInt32) :
    Bool × PairingEngine :=
  match e.slaveKey sender with
  | none => (false, e.failPairing sender corr_id "lmk derive failed on slave (prepare)")
  | some lmk =>
    match e.installKey sender lmk with
    | (false, e) =>
      (false, e.failPairing sender corr_id "secure peer add failed on slave (prepare)")
    | (true, e) => (true, e.emit .PairingStep sender corr_id "secure_peer_install_done")

def onPairInit (e : PairingEngine) (sender : MacAddress) (corr_id : UInt32) (seed : PairSeed)
    (pairing_nonce : UInt32) : Bool × PairingEngine :=
  if e.config.local_role ≠ .Slave ∨ e.state = .Secured then (false, e)
  else if e.state = .Pairing ∧ (sender ≠ e.peer_mac ∨ corr_id ≠ e.corr_id) then
    (true, e.rejectBusy sender corr_id)
  else
    let e := (e.beginSlaveAttempt sender corr_id seed pairing_nonce).emit .PairingStep sender corr_id
      "pair_init_rx_unsecure"
    match e.attachPeer sender false none with
    | (false, e) => (false, e.failPairing sender corr_id "unsecure peer add failed on slave")
    | (true, e) =>
      match e.sendControl sender .PairInitAck corr_id (pairInitAckPayload e.pairing_nonce) with
      | (false, e) => (false, e.failPairing sender corr_id "pair init ack send failed on slave")
      | (true, e) =>
        (e.emit .PairingStep sender corr_id "pair_init_ack_tx_unsecure").prepareSlaveKey sender corr_id

/-- The guard of `onPairInitAck` before it looks at the nonce. -/
def expectsPairInitAck (e : PairingEngine) (corr_id : UInt32) : Prop :=
  e.config.local_role = .Master ∧ e.state = .Pairing ∧ e.pair_phase = .MasterWaitInitAck ∧
    corr_id = e.corr_id

def expectsPairConfirm (e : PairingEngine) (corr_id : UInt32) : Prop :=
  e.config.local_role = .Slave ∧ e.state = .Pairing ∧ e.pair_phase = .SlaveWaitConfirm ∧
    corr_id = e.corr_id

def expectsPairConfirmAck (e : PairingEngine) (corr_id : UInt32) : Prop :=
  e.config.local_role = .Master ∧ e.state = .Pairing ∧ e.pair_phase = .MasterWaitConfirmAck ∧
    corr_id = e.corr_id

def expectsPairBusy (e : PairingEngine) (corr_id : UInt32) : Prop :=
  e.config.local_role = .Master ∧ e.state = .Pairing ∧ corr_id = e.corr_id

instance (e : PairingEngine) (corr_id : UInt32) : Decidable (e.expectsPairInitAck corr_id) := by
  unfold expectsPairInitAck; infer_instance
instance (e : PairingEngine) (corr_id : UInt32) : Decidable (e.expectsPairConfirm corr_id) := by
  unfold expectsPairConfirm; infer_instance
instance (e : PairingEngine) (corr_id : UInt32) : Decidable (e.expectsPairConfirmAck corr_id) := by
  unfold expectsPairConfirmAck; infer_instance
instance (e : PairingEngine) (corr_id : UInt32) : Decidable (e.expectsPairBusy corr_id) := by
  unfold expectsPairBusy; infer_instance

def enterSecureGuard (e : PairingEngine) : PairingEngine :=
  { e with pair_phase := .MasterSecureGuard, pair_deadline_ms := kSecureGuardDelayMs,
           pair_last_tick_ms := 0 }

def onPairInitAck (e : PairingEngine) (sender : MacAddress) (corr_id : UInt32)
    (pairing_nonce_echo : UInt32) : Bool × PairingEngine :=
  if ¬ e.expectsPairInitAck corr_id then (false, e)
  else if pairing_nonce_echo ≠ e.pairing_nonce then
    (false, e.failPairing sender corr_id "pair init ack nonce mismatch")
  else
    match e.masterKey sender with
    | none => (false, (e.evictPeer sender).2.failPairing sender corr_id "lmk derive failed on master")
    | some lmk =>
      match e.installKey sender lmk with
      | (false, e) => (false, e.failPairing sender corr_id "secure peer add failed on master")
      | (true, e) =>
        (true, e.enterSecureGuard.emit .PairingStep sender corr_id "secure_guard_wait_150ms")

/-- The common end of both handshakes. -/
def enterSecured (e : PairingEngine) : PairingEngine :=
  { e with state := .Secured, pair_phase := .Idle, pair_deadline_ms := 0,
           pair_total_deadline_ms := 0, pair_last_tick_ms := 0 }

def onPairConfirm (e : PairingEngine) (sender : MacAddress) (corr_id : UInt32)
    (pairing_nonce_echo : UInt32) : Bool × PairingEngine :=
  if ¬ e.expectsPairConfirm corr_id then (false, e)
  else if pairing_nonce_echo ≠ e.pairing_nonce then
    (false, e.failPairing sender corr_id "pair confirm nonce mismatch on slave")
  else
    match e.slaveKey sender with
    | none => (false, e.failPairing sender corr_id "lmk derive failed on slave")
    | some lmk =>
      match e.installKey sender lmk with
      | (false, e) => (false, e.failPairing sender corr_id "secure peer add failed on slave")
      | (true, e) =>
        match e.enterSecured.persistPair with
        | (false, e) =>
          (false, (e.evictPeer sender).2.failPairing sender corr_id "persist failed on slave")
        | (true, e) =>
          (e.emit .Paired sender corr_id "pair_complete_persisted").sendControl sender
            .PairConfirmAck corr_id pairConfirmAckPayload

def clearNonce (e : PairingEngine) : PairingEngine := { e with pairing_nonce := 0 }

def onPairConfirmAck (e : PairingEngine) (sender : MacAddress) (corr_id : UInt32)
    (paired_flag : Bool) : Bool × PairingEngine :=
  if ¬ e.expectsPairConfirmAck corr_id then (false, e)
  else if !paired_flag then
    (false, e.failPairing sender corr_id "pair confirm ack missing paired flag")
  else
    match e.enterSecured.clearNonce.persistPair with
    | (false, e) =>
      (false, (e.evictPeer sender).2.failPairing sender corr_id "persist failed on master")
    | (true, e) => (true, e.emit .Paired sender corr_id "pair_complete_persisted")

def onPairBusy (e : PairingEngine) (sender : MacAddress) (corr_id : UInt32) :
    Bool × PairingEngine :=
  if ¬ e.expectsPairBusy corr_id then (false, e)
  else
    let e := e.emit .PairingFailed sender corr_id "busy_pairing"
    (false, (e.evictPeer sender).2.resetPairing)

def withPlatform (e : PairingEngine) (platform : Platform) : PairingEngine :=
  { e with platform := platform }

def adoptRecord (e : PairingEngine) (record : PairRecord) : PairingEngine :=
  { e with
    peer_mac := record.peer_mac
    current_lmk := record.lmk
    state := .Secured
    pair_phase := .Idle
    corr_id := 0
    pair_deadline_ms := 0
    pair_total_deadline_ms := 0
    pairing_nonce := 0
    discovery_last_sent_ms := 0 }

def restorePairedLink (e : PairingEngine) (record : PairRecord) : Bool × PairingEngine :=
  if !record.valid || record.local_role ≠ e.config.local_role.toByte ||
      record.local_mac ≠ e.local_mac then (false, e)
  else
    match e.platform.setChannel record.channel with
    | (false, platform) => (false, e.withPlatform platform)
    | (true, platform) =>
      match (e.withPlatform platform).attachPeer record.peer_mac true (some record.lmk) with
      | (false, e) => (false, e)
      | (true, e) =>
        (true, (e.adoptRecord record).emit .PairingStep record.peer_mac 0
          "paired link restored from persistence")

def beginUnpair (e : PairingEngine) (peer : MacAddress) (corr_id : UInt32) : PairingEngine :=
  { e with
    peer_mac := peer
    unpair_pending := true
    unpair_corr_id := corr_id
    unpair_deadline_ms := e.config.unpair_ack_timeout_ms
    unpair_last_tick_ms := 0 }

def cancelUnpair (e : PairingEngine) : PairingEngine :=
  { e with unpair_pending := false, unpair_corr_id := 0, unpair_deadline_ms := 0,
           unpair_last_tick_ms := 0 }

def requestUnpair (e : PairingEngine) (peer : MacAddress) (corr_id : UInt32) :
    Bool × PairingEngine :=
  if e.config.local_role ≠ .Master ∨ e.state ≠ .Secured ∨ e.unpair_pending then (false, e)
  else
    match (e.beginUnpair peer corr_id).sendControl peer .UnpairRequest corr_id [] with
    | (false, e) => (false, e.cancelUnpair)
    | (true, e) => (true, e)

/-- The local teardown is put off so that the ack can leave the radio queue. -/
def scheduleCleanup (e : PairingEngine) (sender : MacAddress) (corr_id : UInt32) : PairingEngine :=
  { e with
    deferred_unpair_cleanup := true
    deferred_unpair_peer := sender
    deferred_unpair_corr_id := corr_id
    deferred_unpair_deadline_ms := e.config.unpair_ack_grace_ms
    deferred_unpair_last_tick_ms := 0 }

def onUnpairRequest (e : PairingEngine) (sender : MacAddress) (corr_id : UInt32) :
    Bool × PairingEngine :=
  if e.state ≠ .Secured then (false, e)
  else
    match e.sendControl sender .UnpairAck corr_id [] with
    | (false, e) => (false, e)
    | (true, e) => (true, e.scheduleCleanup sender corr_id)

def onUnpairAck (e : PairingEngine) (sender : MacAddress) (corr_id : UInt32) :
    Bool × PairingEngine :=
  if !e.unpair_pending || corr_id ≠ e.unpair_corr_id then (false, e)
  else
    let e := ((e.forgetPeer sender).evictPeer sender).2
    let e := ((e.setPaired false).resetPairing).cancelUnpair
    (true, e.emit .PairingStep sender corr_id "unpair ack received")

def restartDiscovery (e : PairingEngine) : PairingEngine := { e with discovery_last_sent_ms := 0 }

/-- `removePeer` before it looks at the link: the hardware entry and the records go. -/
def dropPeer (e : PairingEngine) (peer : MacAddress) (erase_persisted : Bool) : PairingEngine :=
  if erase_persisted then (e.evictPeer peer).2.forgetPeer peer else (e.evictPeer peer).2

def removePeer (e : PairingEngine) (peer : MacAddress) (erase_persisted : Bool) :
    Bool × PairingEngine :=
  let removed := (e.evictPeer peer).1
  let e := e.dropPeer peer erase_persisted
  let e := if e.state = .Secured ∧ peer = e.peer_mac then
      ((e.setPaired false).resetPairing).restartDiscovery else e
  (removed, e.emit .PairingStep peer 0 "peer removed locally")

/-- `hooks_->allowChannelSwitch`, which a missing hook grants. -/
def askChannelSwitch (e : PairingEngine) : Bool × PairingEngine :=
  if e.has_hooks then
    let (allowed, platform) := e.platform.askHook
    (allowed, e.withPlatform platform)
  else (true, e)

def beginChannelSwitch (e : PairingEngine) (peer : MacAddress) (corr_id : UInt32)
    (payload : ChannelSwitchPayload) (deadline_ms : UInt32) (state : ChannelSwitchState) :
    PairingEngine :=
  { e with
    peer_mac := peer
    pending_channel := payload.new_channel
    channel_corr_id := corr_id
    channel_effective_at_ms := payload.effective_at_ms
    channel_deadline_ms := deadline_ms
    channel_state := state }

def requestChannelSwitch (e : PairingEngine) (peer : MacAddress) (new_channel : UInt8)
    (now_ms corr_id : UInt32) : Bool × PairingEngine :=
  if e.config.local_role ≠ .Master ∨ e.state ≠ .Secured ∨ e.channel_state ≠ .Idle then (false, e)
  else if new_channel < 1 ∨ new_channel > 14 then (false, e)
  else
    match e.askChannelSwitch with
    | (false, e) => (false, e.emit .ChannelSwitchFailed peer corr_id "channel switch denied by hook")
    | (true, e) =>
      let payload : ChannelSwitchPayload := ⟨new_channel, now_ms + e.config.channel_switch_grace_ms⟩
      match e.sendControl peer .ChannelSwitchPrepare corr_id (channelPreparePayload payload) with
      | (false, e) => (false, e)
      | (true, e) =>
        (true, (e.beginChannelSwitch peer corr_id payload
          (now_ms + e.config.channel_switch_timeout_ms) .MasterWaitAck).emit .ChannelSwitchStarted
            peer corr_id "prepare sent")

def onChannelSwitchPrepare (e : PairingEngine) (sender : MacAddress) (corr_id : UInt32)
    (payload : ChannelSwitchPayload) : Bool × PairingEngine :=
  if e.config.local_role ≠ .Slave ∨ e.state ≠ .Secured then (false, e)
  else if payload.new_channel < 1 ∨ payload.new_channel > 14 then
    (false, e.emit .ChannelSwitchFailed sender corr_id "invalid requested channel")
  else
    match e.askChannelSwitch with
    | (false, e) =>
      (false, e.emit .ChannelSwitchFailed sender corr_id "channel switch denied by hook")
    | (true, e) =>
      ((e.beginChannelSwitch sender corr_id payload
        (payload.effective_at_ms + e.config.channel_switch_timeout_ms) .SlavePrepared).emit
          .ChannelSwitchStarted sender corr_id "slave prepared").sendControl sender
            .ChannelSwitchAck corr_id []

def onChannelSwitchAck (e : PairingEngine) (sender : MacAddress) (corr_id : UInt32) :
    Bool × PairingEngine :=
  if e.config.local_role ≠ .Master ∨ e.channel_state ≠ .MasterWaitAck ∨
      corr_id ≠ e.channel_corr_id then (false, e)
  else
    let e := e.emit .PairingStep sender corr_id "channel switch ack received"
    (true, { e with channel_state := .MasterWaitCommit })

def onChannelSwitchCommitAck (e : PairingEngine) (sender : MacAddress) (corr_id : UInt32) :
    Bool × PairingEngine :=
  if e.config.local_role ≠ .Master ∨ e.channel_state ≠ .MasterWaitCommit ∨
      corr_id ≠ e.channel_corr_id then (false, e)
  else
    let e := e.withStore fun s => (s.saveChannel e.local_mac sender e.pending_channel).2
    let e := e.emit .ChannelSwitchCommitted sender corr_id "master switch confirmed"
    (true, { e with channel_state := .Idle })

end PairingEngine

/-- Everything that can happen to an engine: its clock, a received control message, or a call of
its owner. -/
inductive PairingInput where
  | tick (now_ms : UInt32)
  | discovery (sender : MacAddress) (corr_id : UInt32)
  | pairInit (sender : MacAddress) (corr_id : UInt32) (seed : PairSeed) (pairing_nonce : UInt32)
  | pairInitAck (sender : MacAddress) (corr_id pairing_nonce_echo : UInt32)
  | pairConfirm (sender : MacAddress) (corr_id pairing_nonce_echo : UInt32)
  | pairConfirmAck (sender : MacAddress) (corr_id : UInt32) (paired_flag : Bool)
  | pairBusy (sender : MacAddress) (corr_id : UInt32)
  | restore (record : PairRecord)
  | requestPair (peer : MacAddress) (corr_id : UInt32)
  | requestUnpair (peer : MacAddress) (corr_id : UInt32)
  | unpairRequest (sender : MacAddress) (corr_id : UInt32)
  | unpairAck (sender : MacAddress) (corr_id : UInt32)
  | removePeer (peer : MacAddress) (erase_persisted : Bool)
  | requestChannelSwitch (peer : MacAddress) (new_channel : UInt8) (now_ms corr_id : UInt32)
  | channelSwitchPrepare (sender : MacAddress) (corr_id : UInt32) (payload : ChannelSwitchPayload)
  | channelSwitchAck (sender : MacAddress) (corr_id : UInt32)
  | channelSwitchCommitAck (sender : MacAddress) (corr_id : UInt32)

namespace PairingEngine

def perform (e : PairingEngine) : PairingInput → Bool × PairingEngine
  | .tick now_ms => e.tick now_ms
  | .discovery sender corr_id => e.onDiscovery sender corr_id
  | .pairInit sender corr_id seed nonce => e.onPairInit sender corr_id seed nonce
  | .pairInitAck sender corr_id echo => e.onPairInitAck sender corr_id echo
  | .pairConfirm sender corr_id echo => e.onPairConfirm sender corr_id echo
  | .pairConfirmAck sender corr_id flag => e.onPairConfirmAck sender corr_id flag
  | .pairBusy sender corr_id => e.onPairBusy sender corr_id
  | .restore record => e.restorePairedLink record
  | .requestPair peer corr_id => e.requestPair peer corr_id
  | .requestUnpair peer corr_id => e.requestUnpair peer corr_id
  | .unpairRequest sender corr_id => e.onUnpairRequest sender corr_id
  | .unpairAck sender corr_id => e.onUnpairAck sender corr_id
  | .removePeer peer erase => e.removePeer peer erase
  | .requestChannelSwitch peer channel now_ms corr_id =>
    e.requestChannelSwitch peer channel now_ms corr_id
  | .channelSwitchPrepare sender corr_id payload => e.onChannelSwitchPrepare sender corr_id payload
  | .channelSwitchAck sender corr_id => e.onChannelSwitchAck sender corr_id
  | .channelSwitchCommitAck sender corr_id => e.onChannelSwitchCommitAck sender corr_id

def step (e : PairingEngine) (i : PairingInput) : PairingEngine := (e.perform i).2

end PairingEngine

/-! A master that asks the node `mac 2` for a link, on a platform where every call succeeds. -/

namespace PairingExample

def alwaysOk : Platform where
  channel := 1
  attached := fun _ => none
  sent := []
  answer := fun _ => ⟨true, false, none⟩
  calls := 0
  random := fun _ => 1
  drawn := 0

def emptyStore : PairingStore where
  config := ⟨true, 1⟩
  has_backend := true
  backend := ⟨fun _ => none, fun _ => true, 0⟩
  blob_cache := ∅
  blob_cache_access_seq := 0

def config (role : Role) : ManagerConfig where
  local_role := role
  discovery_interval_ms := 1000
  discovery_name := none
  auto_pair_on_discovery := true
  unpair_ack_timeout_ms := 1200
  unpair_ack_grace_ms := 120
  channel_switch_timeout_ms := 2000
  channel_switch_grace_ms := 500
  time_sync_enabled := true
  time_sync_interval_ms := 5000

def mac (b : UInt8) : MacAddress := Vector.replicate 6 b

def master : PairingEngine :=
  .boot (config .Master) ⟨fun _ _ => some (Vector.replicate 32 7), []⟩ alwaysOk (some emptyStore)
    false false (mac 1) 1

/-- The handshake a master asked of the node `mac 2`, with every answer sent by `sender`. -/
def handshake (sender : MacAddress) : List PairingInput :=
  [.requestPair (mac 2) 7, .pairInitAck sender 7 0x01010101, .tick 100, .tick 300,
    .pairConfirmAck sender 7 true]

end PairingExample

end EspNowLink
