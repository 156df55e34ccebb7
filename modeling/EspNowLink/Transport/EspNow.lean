import EspNowLink.Core.Types

namespace EspNowLink

/-- `esp_err_t`. -/
inductive EspErr where
  | ESP_OK
  | ESP_ERR_ESPNOW_EXIST
  | ESP_ERR_ESPNOW_NOT_FOUND
  | ESP_ERR_ESPNOW_NO_MEM
  | other (code : UInt32)
  deriving DecidableEq

/-- `esp_now_peer_info_t`, under its address in the table of the radio. -/
structure EspNowPeerInfo where
  channel : UInt8
  encrypt : Bool
  lmk : LmkKey
  deriving DecidableEq

structure PeerCacheEntry where
  mac : MacAddress
  encrypted : Bool
  has_lmk : Bool
  lmk : LmkKey
  deriving DecidableEq

def zeroKey : LmkKey := Vector.replicate 16 0

/-- How the radio, the Wi-Fi driver and the clock answer a call. -/
structure RadioAnswer where
  rc : EspErr := .ESP_OK
  wifi_channel : UInt8 := 0
  millis : UInt32 := 0

def kChannelVerifyIntervalMs : UInt32 := 1500
def kRecoverCooldownMs : UInt32 := 4000
def kRecoverFailStreakThreshold : UInt32 := 8
def kNoMemRecoverCooldownMs : UInt32 := 1000
def kNoMemRecoverFailStreakThreshold : UInt32 := 2
def kNoMemStuckWindowMs : UInt32 := 12000
def kNoMemStuckProbeIntervalMs : UInt32 := 1800
def kNoMemHardReinitFailStreakThreshold : UInt32 := 6
def kNoMemHardReinitStuckMs : UInt32 := 18000

/-- The transport over the peer table of the radio. The `n`-th call that may fail is answered by
`answer n`. -/
structure EspNowArduinoTransport where
  peers : MacAddress → Option EspNowPeerInfo
  answer : Nat → RadioAnswer
  calls : Nat
  channel : UInt8
  encrypted_default : Bool
  peer_cache : List PeerCacheEntry
  send_fail_streak : UInt32
  no_mem_streak : UInt8
  no_mem_backoff_until_ms : UInt32
  last_send_ok_ms : UInt32
  last_no_mem_probe_ms : UInt32
  last_channel_check_ms : UInt32
  last_recover_ms : UInt32

namespace EspNowArduinoTransport

section Radio

/-- The answer to the next call. -/
def ask (t : EspNowArduinoTransport) : RadioAnswer × EspNowArduinoTransport :=
  (t.answer t.calls, { t with calls := t.calls + 1 })

def esp_now_is_peer_exist (t : EspNowArduinoTransport) (mac : MacAddress) : Bool := (t.peers mac).isSome

def esp_now_add_peer (t : EspNowArduinoTransport) (mac : MacAddress) (p : EspNowPeerInfo) :
    EspErr × EspNowArduinoTransport :=
  if t.esp_now_is_peer_exist mac then (.ESP_ERR_ESPNOW_EXIST, t)
  else
    let rc := t.ask.1.rc
    if rc = .ESP_OK then (.ESP_OK, { t.ask.2 with peers := Function.update t.peers mac (some p) })
    else (rc, t.ask.2)

def esp_now_del_peer (t : EspNowArduinoTransport) (mac : MacAddress) : EspErr × EspNowArduinoTransport :=
  if t.esp_now_is_peer_exist mac then
    let rc := t.ask.1.rc
    if rc = .ESP_OK then (.ESP_OK, { t.ask.2 with peers := Function.update t.peers mac none })
    else (rc, t.ask.2)
  else (.ESP_ERR_ESPNOW_NOT_FOUND, t)

def esp_now_send (t : EspNowArduinoTransport) (mac : MacAddress) : EspErr × EspNowArduinoTransport :=
  if t.esp_now_is_peer_exist mac then (t.ask.1.rc, t.ask.2) else (.ESP_ERR_ESPNOW_NOT_FOUND, t)

/-- The table is empty afterwards. -/
def esp_now_deinit (t : EspNowArduinoTransport) : EspNowArduinoTransport :=
  { t with peers := fun _ => none }

/-- `esp_now_init`, `esp_now_set_pmk` and `esp_wifi_set_channel`. -/
def configure (t : EspNowArduinoTransport) : EspErr × EspNowArduinoTransport := (t.ask.1.rc, t.ask.2)

def esp_wifi_get_channel (t : EspNowArduinoTransport) : Option UInt8 × EspNowArduinoTransport :=
  (if t.ask.1.rc = .ESP_OK then some t.ask.1.wifi_channel else none, t.ask.2)

def millis (t : EspNowArduinoTransport) : UInt32 × EspNowArduinoTransport := (t.ask.1.millis, t.ask.2)

end Radio

section Cache

def findPeerCacheEntry (t : EspNowArduinoTransport) (mac : MacAddress) : Option PeerCacheEntry :=
  t.peer_cache.find? fun entry => entry.mac = mac

/-- What an entry becomes that a peer is attached again by. -/
def refreshed (encrypted : Bool) (lmk : Option LmkKey) (entry : PeerCacheEntry) : PeerCacheEntry :=
  match encrypted, lmk with
  | false, _ => { entry with encrypted := false, has_lmk := false, lmk := zeroKey }
  | true, some key => { entry with encrypted := true, has_lmk := true, lmk := key }
  -- only the intent is known: a key from before stays
  | true, none => { entry with encrypted := true, lmk := if entry.has_lmk then entry.lmk else zeroKey }

def upsertEntry (mac : MacAddress) (encrypted : Bool) (lmk : Option LmkKey) :
    List PeerCacheEntry → List PeerCacheEntry
  | [] =>
    [{ mac := mac
       encrypted := encrypted
       has_lmk := encrypted && lmk.isSome
       lmk := if encrypted then lmk.getD zeroKey else zeroKey }]
  | entry :: entries =>
    if entry.mac = mac then refreshed encrypted lmk entry :: entries
    else entry :: upsertEntry mac encrypted lmk entries

def upsertPeerCacheEntry (t : EspNowArduinoTransport) (mac : MacAddress) (encrypted : Bool)
    (lmk : Option LmkKey) : EspNowArduinoTransport :=
  { t with peer_cache := upsertEntry mac encrypted lmk t.peer_cache }

def erasePeerCacheEntry (t : EspNowArduinoTransport) (mac : MacAddress) : EspNowArduinoTransport :=
  { t with peer_cache := t.peer_cache.filter fun entry => entry.mac ≠ mac }

end Cache

section Peers

/-- The peer of the radio is as it is asked for. -/
def keepExisting (t : EspNowArduinoTransport) (oldp : EspNowPeerInfo) (encrypted : Bool)
    (lmk : Option LmkKey) : Bool :=
  oldp.encrypt = encrypted && oldp.channel = t.channel &&
    match encrypted, lmk with
    | true, some key => oldp.lmk = key
    | _, _ => true

/-- The end of `addPeer`: the peer goes into the table and then into the cache. -/
def attach (t : EspNowArduinoTransport) (mac : MacAddress) (encrypted : Bool) (lmk : Option LmkKey) :
    Bool × EspNowArduinoTransport :=
  match t.esp_now_add_peer mac
    ⟨t.channel, encrypted, if encrypted then lmk.getD zeroKey else zeroKey⟩ with
  | (.ESP_OK, t) => (true, t.upsertPeerCacheEntry mac encrypted lmk)
  | (_, t) => (false, t)

def addPeer (t : EspNowArduinoTransport) (mac : MacAddress) (encrypted : Bool) (lmk : Option LmkKey) :
    Bool × EspNowArduinoTransport :=
  match t.peers mac with
  | none => t.attach mac encrypted lmk
  | some oldp =>
    if t.keepExisting oldp encrypted lmk then (true, t.upsertPeerCacheEntry mac encrypted lmk)
    else (t.esp_now_del_peer mac).2.attach mac encrypted lmk

def removePeer (t : EspNowArduinoTransport) (mac : MacAddress) : Bool × EspNowArduinoTransport :=
  let del := (t.erasePeerCacheEntry mac).esp_now_del_peer mac
  (del.1 = .ESP_OK, del.2)

/-- The key that an entry is attached with. -/
def cachedKey (entry : PeerCacheEntry) : Option LmkKey :=
  if entry.encrypted && entry.has_lmk then some entry.lmk else none

/-- One turn of the loop in `setChannel`. -/
def moveEntry (t : EspNowArduinoTransport) (entry : PeerCacheEntry) : Bool × EspNowArduinoTransport :=
  let t := if t.esp_now_is_peer_exist entry.mac then (t.esp_now_del_peer entry.mac).2 else t
  let add := t.esp_now_add_peer entry.mac
    ⟨t.channel, entry.encrypted, (cachedKey entry).getD zeroKey⟩
  (add.1 = .ESP_OK, add.2)

def setChannel (t : EspNowArduinoTransport) (ch : UInt8) : Bool × EspNowArduinoTransport :=
  match t.configure with
  | (.ESP_OK, t) =>
    t.peer_cache.foldl (fun acc entry => ((acc.2.moveEntry entry).1 && acc.1, (acc.2.moveEntry entry).2))
      (true, { t with channel := ch })
  | (_, t) => (false, t)

def ensureRuntimeChannel (t : EspNowArduinoTransport) (force_reapply : Bool) :
    Bool × EspNowArduinoTransport :=
  match t.esp_wifi_get_channel with
  | (none, t) => (false, t)
  | (some wifi_channel, t) =>
    if !force_reapply && wifi_channel = t.channel then (true, t) else t.setChannel t.channel

end Peers

section Recovery

/-- The broadcast peer, if the radio has none. -/
def ensureBroadcast (t : EspNowArduinoTransport) : Bool × EspNowArduinoTransport :=
  if t.esp_now_is_peer_exist kBroadcastMac then (true, t) else t.addPeer kBroadcastMac false none

/-- One turn of a loop that attaches the peers of the cache, but those that it skips. -/
def reattachEntry (skip : EspNowArduinoTransport → PeerCacheEntry → Bool) (t : EspNowArduinoTransport)
    (i : Nat) : Bool × EspNowArduinoTransport :=
  match t.peer_cache[i]? with
  | none => (true, t)
  | some entry => if skip t entry then (true, t) else t.addPeer entry.mac entry.encrypted (cachedKey entry)

def reattachAll (skip : EspNowArduinoTransport → PeerCacheEntry → Bool) (t : EspNowArduinoTransport) :
    Bool × EspNowArduinoTransport :=
  (List.range t.peer_cache.length).foldl
    (fun acc i => ((reattachEntry skip acc.2 i).1 && acc.1, (reattachEntry skip acc.2 i).2)) (true, t)

def reinitEspNowStack (t : EspNowArduinoTransport) : Bool × EspNowArduinoTransport :=
  match t.esp_now_deinit.configure with
  | (.ESP_OK, t) =>
    match t.configure with
    | (.ESP_OK, t) =>
      match t.configure with
      | (.ESP_OK, t) =>
        let broadcast := t.ensureBroadcast
        let all := broadcast.2.reattachAll fun _ entry => entry.mac = kBroadcastMac
        (all.1 && broadcast.1, all.2)
      | (_, t) => (false, t.esp_now_deinit)
    | (_, t) => (false, t.esp_now_deinit)
  | (_, t) => (false, t)

def recoverAfterSendFailures (t : EspNowArduinoTransport) (last_rc : EspErr) :
    Bool × EspNowArduinoTransport :=
  let t := { t.millis.2 with last_recover_ms := t.millis.1 }
  let channel := t.ensureRuntimeChannel true
  let broadcast := channel.2.ensureBroadcast
  let all := broadcast.2.reattachAll fun t entry => t.esp_now_is_peer_exist entry.mac
  let ok := all.1 && broadcast.1 && channel.1
  let now_ms := all.2.millis.1
  let t := all.2.millis.2
  let no_mem_stuck := t.last_send_ok_ms ≠ 0 ∧ now_ms - t.last_send_ok_ms ≥ kNoMemHardReinitStuckMs
  if last_rc = .ESP_ERR_ESPNOW_NO_MEM ∧
      (ok = false ∨ t.send_fail_streak ≥ kNoMemHardReinitFailStreakThreshold ∨ no_mem_stuck) then
    match t.reinitEspNowStack with
    | (true, t) => (true, { t with no_mem_backoff_until_ms := 0, no_mem_streak := 0 })
    | (false, t) => (false, t)
  else (ok, t)

end Recovery

section Sending

/-- `resolvePeerConfig`. -/
def resolvePeerConfig (t : EspNowArduinoTransport) (dest : MacAddress) : Bool × Option LmkKey :=
  match t.findPeerCacheEntry dest with
  | none => (t.encrypted_default, none)
  | some cached => (cached.encrypted, cachedKey cached)

/-- `addPeer` with the configuration from the cache. -/
def addResolved (t : EspNowArduinoTransport) (dest : MacAddress) : Bool × EspNowArduinoTransport :=
  t.addPeer dest (t.resolvePeerConfig dest).1 (t.resolvePeerConfig dest).2

/-- What a successful send sets. -/
def noteSent (t : EspNowArduinoTransport) (now_ms : UInt32) : EspNowArduinoTransport :=
  { t with
    send_fail_streak := 0
    no_mem_streak := 0
    no_mem_backoff_until_ms := 0
    last_send_ok_ms := now_ms
    last_no_mem_probe_ms := 0 }

/-- A send within the backoff: it fails, after a recovery if it has lasted too long. -/
def sendInBackoff (t : EspNowArduinoTransport) (now_ms : UInt32) : EspNowArduinoTransport :=
  if (t.last_send_ok_ms ≠ 0 ∧ now_ms - t.last_send_ok_ms ≥ kNoMemStuckWindowMs) ∧
      now_ms - t.last_no_mem_probe_ms ≥ kNoMemStuckProbeIntervalMs then
    ({ t with last_no_mem_probe_ms := now_ms }.recoverAfterSendFailures .ESP_ERR_ESPNOW_NO_MEM).2
  else t

/-- The retry for a peer that the radio does not know. -/
def retryMissing (t : EspNowArduinoTransport) (dest : MacAddress) (rc : EspErr) :
    EspErr × EspNowArduinoTransport :=
  if rc = .ESP_ERR_ESPNOW_NOT_FOUND ∨ t.esp_now_is_peer_exist dest = false then
    match t.addResolved dest with
    | (true, t) => t.esp_now_send dest
    | (false, t) => (rc, t)
  else (rc, t)

/-- What a failed send sets. -/
def noteFailed (t : EspNowArduinoTransport) (now_ms : UInt32) (rc : EspErr) : EspNowArduinoTransport :=
  let t :=
    if rc = .ESP_ERR_ESPNOW_NO_MEM then
      let streak := if t.no_mem_streak < 32 then t.no_mem_streak + 1 else t.no_mem_streak
      { t with
        no_mem_streak := streak
        no_mem_backoff_until_ms := now_ms + min (400 + streak.toUInt32 * 500) 5000 }
    else { t with no_mem_streak := 0, no_mem_backoff_until_ms := 0 }
  { t with send_fail_streak :=
      if t.send_fail_streak < 0xFFFFFFFF then t.send_fail_streak + 1 else t.send_fail_streak }

/-- The recovery after a failed send, and the last try. -/
def sendAfterRecovery (t : EspNowArduinoTransport) (dest : MacAddress) (now_ms : UInt32) (rc : EspErr) :
    Bool × EspNowArduinoTransport :=
  let no_mem_rc := rc = .ESP_ERR_ESPNOW_NO_MEM
  let recover_threshold :=
    if no_mem_rc then kNoMemRecoverFailStreakThreshold else kRecoverFailStreakThreshold
  let recover_cooldown := if no_mem_rc then kNoMemRecoverCooldownMs else kRecoverCooldownMs
  if t.send_fail_streak ≥ recover_threshold ∧ now_ms - t.last_recover_ms ≥ recover_cooldown then
    match t.recoverAfterSendFailures rc with
    | (true, t) =>
      let t := if t.esp_now_is_peer_exist dest then t else (t.addResolved dest).2
      match t.esp_now_send dest with
      | (.ESP_OK, t) => (true, t.noteSent now_ms)
      | (_, t) => (false, t)
    | (false, t) => (false, t)
  else (false, t)

/-- The sends of a frame to a peer of the radio. -/
def sendAttached (t : EspNowArduinoTransport) (dest : MacAddress) (now_ms : UInt32) :
    Bool × EspNowArduinoTransport :=
  match t.esp_now_send dest with
  | (.ESP_OK, t) => (true, t.noteSent now_ms)
  | (rc, t) =>
    match t.retryMissing dest rc with
    | (.ESP_OK, t) => (true, t.noteSent now_ms)
    | (rc, t) => (t.noteFailed now_ms rc).sendAfterRecovery dest now_ms rc

def send (t : EspNowArduinoTransport) (dest : MacAddress) : Bool × EspNowArduinoTransport :=
  let now_ms := t.millis.1
  let t := t.millis.2
  let t :=
    if now_ms - t.last_channel_check_ms ≥ kChannelVerifyIntervalMs then
      ({ t with last_channel_check_ms := now_ms }.ensureRuntimeChannel false).2
    else t
  -- the backoff is not over: a signed difference
  if t.no_mem_backoff_until_ms ≠ 0 ∧ now_ms - t.no_mem_backoff_until_ms ≥ 0x80000000 then
    (false, t.sendInBackoff now_ms)
  else if t.esp_now_is_peer_exist dest then t.sendAttached dest now_ms
  else
    match t.addResolved dest with
    | (true, t) => t.sendAttached dest now_ms
    | (false, t) => (false, t)

end Sending

end EspNowArduinoTransport

/-- The calls that reach the peers of a transport. -/
inductive TransportCall where
  | addPeer (mac : MacAddress) (encrypted : Bool) (lmk : Option LmkKey)
  | removePeer (mac : MacAddress)
  | setChannel (ch : UInt8)
  | send (dest : MacAddress)
  | recoverAfterSendFailures (last_rc : EspErr)
  | reinitEspNowStack

/-- A call, and how the radio answers during it. -/
structure TransportInput where
  call : TransportCall
  answer : Nat → RadioAnswer := fun _ => {}

namespace EspNowArduinoTransport

def perform (t : EspNowArduinoTransport) : TransportCall → Bool × EspNowArduinoTransport
  | .addPeer mac encrypted lmk => t.addPeer mac encrypted lmk
  | .removePeer mac => t.removePeer mac
  | .setChannel ch => t.setChannel ch
  | .send dest => t.send dest
  | .recoverAfterSendFailures last_rc => t.recoverAfterSendFailures last_rc
  | .reinitEspNowStack => t.reinitEspNowStack

def step (t : EspNowArduinoTransport) (input : TransportInput) : EspNowArduinoTransport :=
  ({ t with answer := input.answer, calls := 0 }.perform input.call).2

end EspNowArduinoTransport

end EspNowLink
