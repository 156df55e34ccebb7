import EspNowLink.Pairing.AbortedPairs
import EspNowLink.Pairing.KeyAgreement

namespace EspNowLink

open Framework PairingEngine

/-- The messages of a channel switch. -/
def MessageType.isChannelSwitch : MessageType → Bool
  | .ChannelSwitchPrepare | .ChannelSwitchAck | .ChannelSwitchCommitAck => true
  | _ => false

/-- What happens to a master and a slave while they switch channels: their clocks run, the master's
owner asks for a switch, a message of a switch arrives. -/
inductive SwitchInput where
  | masterTick (now_ms : UInt32)
  | slaveTick (now_ms : UInt32)
  | request (new_channel : UInt8) (now_ms corr_id : UInt32)
  | deliver (k : Nat)

namespace PairingEngine

/-- The channel that the backend holds for the link with a peer. -/
def storedChannel (e : PairingEngine) (peer : MacAddress) : Option UInt8 :=
  e.store.bind fun s => (s.backend.blobs (s.makeKey .Channel e.local_mac peer)).bind fun blob =>
    if blob.length ≠ 1 then none else blob[0]?

/-- Between two states of an engine it reported an event of the type. -/
def Reports (type : EventType) (e t : PairingEngine) : Prop :=
  ∃ ev ∈ t.events.drop e.events.length, ev.type = type

/-- The deadline of the switch has passed. -/
def SwitchExpired (e : PairingEngine) (now_ms : UInt32) : Prop :=
  e.channel_deadline_ms ≠ 0 ∧ now_ms > e.channel_deadline_ms

/-- A tick at which the master's own radio is due. -/
def MasterDue (e : PairingEngine) (now_ms : UInt32) : Prop :=
  e.channel_state = .MasterWaitCommit ∧ now_ms ≥ e.channel_effective_at_ms

/-- The master's switch ends in this tick: its deadline has passed, or the radio refuses the channel. -/
def SwitchFails (e : PairingEngine) (now_ms : UInt32) : Prop :=
  e.channel_state ≠ .Idle ∧
    (e.SwitchExpired now_ms ∨
      (e.MasterDue now_ms ∧ (e.platform.setChannel e.pending_channel).1 = false))

/-- The prepared slave moves its radio in this tick. -/
def SlaveMoves (e : PairingEngine) (now_ms : UInt32) : Prop :=
  e.channel_state = .SlavePrepared ∧ ¬ e.SwitchExpired now_ms ∧ now_ms ≥ e.channel_effective_at_ms ∧
    ((({ e with current_now_ms := now_ms } : PairingEngine).tickDiscovery now_ms).platform.setChannel
      e.pending_channel).1 = true

/-- A teardown in this tick takes the channel stored for the link with the peer along. -/
def ErasesChannel (e : PairingEngine) (peer : MacAddress) (now_ms : UInt32) : Prop :=
  e.CleansUp now_ms ∧ (e.store.any fun s =>
    s.makeKey .Channel e.local_mac e.deferred_unpair_peer = s.makeKey .Channel e.local_mac peer) = true

instance (e : PairingEngine) (peer : MacAddress) (now_ms : UInt32) :
    Decidable (e.ErasesChannel peer now_ms) := inferInstanceAs (Decidable (_ ∧ _))
instance (e : PairingEngine) (now_ms : UInt32) : Decidable (e.SwitchExpired now_ms) :=
  inferInstanceAs (Decidable (_ ∧ _))
instance (e : PairingEngine) (now_ms : UInt32) : Decidable (e.MasterDue now_ms) :=
  inferInstanceAs (Decidable (_ ∧ _))
instance (e : PairingEngine) (now_ms : UInt32) : Decidable (e.SwitchFails now_ms) :=
  inferInstanceAs (Decidable (_ ∧ _))
instance (e : PairingEngine) (now_ms : UInt32) : Decidable (e.SlaveMoves now_ms) :=
  inferInstanceAs (Decidable (_ ∧ _ ∧ _ ∧ _))
instance (type : EventType) (e t : PairingEngine) : Decidable (Reports type e t) :=
  inferInstanceAs (Decidable (∃ ev ∈ _, _))

end PairingEngine

/-- The master's open switch: the channel it had and had stored when the switch was asked for, whether a
tick has moved its radio since, and whether one has erased the stored channel. -/
structure Switching where
  channel : UInt8
  stored : Option UInt8
  applied : Bool
  erased : Bool

def Switching.after (w : Switching) (n : PairNet) : SwitchInput → Switching
  | .masterTick now_ms => { w with
      applied := w.applied || decide (n.master.MasterDue now_ms)
      erased := w.erased || decide (n.master.ErasesChannel n.slave.local_mac now_ms) }
  | _ => w

namespace PairNet

/-- A message of another kind is lost. -/
def switchStep (n : PairNet) : SwitchInput → PairNet
  | .masterTick now_ms => n.step (.master (.tick now_ms))
  | .slaveTick now_ms => n.step (.slave (.tick now_ms))
  | .request channel now_ms corr_id => n.step (.master (.requestChannelSwitch channel now_ms corr_id))
  | .deliver k =>
    match n.air[k]? with
    | none => n
    | some t => if t.frame.header.type.isChannelSwitch then n.step (.deliver k) else n

def masterChannel (n : PairNet) : UInt8 × Option UInt8 :=
  (n.master.platform.channel, n.master.storedChannel n.slave.local_mac)

/-- A master and a slave with a link, and no switch under way. -/
structure Linked (n : PairNet) : Prop where
  master_role : n.master.config.local_role = .Master
  slave_role : n.slave.config.local_role = .Slave
  master_state : n.master.state = .Secured
  slave_state : n.slave.state = .Secured
  master_idle : n.master.channel_state = .Idle
  slave_idle : n.slave.channel_state = .Idle
  air : ∀ t ∈ n.air, t.frame.header.type.isChannelSwitch = false

end PairNet

/-- Two nodes in a run, with the master's open switch. -/
structure SwitchTrace where
  net : PairNet
  switching : Option Switching

namespace SwitchTrace

def start (n : PairNet) : SwitchTrace := ⟨n, none⟩

def step (t : SwitchTrace) (i : SwitchInput) : SwitchTrace where
  net := t.net.switchStep i
  switching :=
    if (t.net.switchStep i).master.channel_state = .Idle then none
    else if t.net.master.channel_state = .Idle then
      some ⟨t.net.masterChannel.1, t.net.masterChannel.2, false, false⟩
    else t.switching.map (·.after t.net i)

/-- What the master had before the switch that is open, or has if none is. -/
def before (t : SwitchTrace) : UInt8 × Option UInt8 :=
  (t.switching.map fun w => (w.channel, w.stored)).getD t.net.masterChannel

/-- A switch of the master that ends in failure leaves it with the channel, in use and stored, that it had
before. -/
def FailureRestores (t : SwitchTrace) (i : SwitchInput) : Prop :=
  Reports .ChannelSwitchFailed t.net.master (t.step i).net.master → (t.step i).net.masterChannel = t.before

/-- A side that reports a switch as committed and the other side are on the channel of the switch. -/
def CommitsTogether (t : SwitchTrace) (i : SwitchInput) : Prop :=
  (Reports .ChannelSwitchCommitted t.net.master (t.step i).net.master →
    (t.step i).net.master.platform.channel = t.net.master.pending_channel ∧
      (t.step i).net.slave.platform.channel = t.net.master.pending_channel) ∧
  (Reports .ChannelSwitchCommitted t.net.slave (t.step i).net.slave →
    (t.step i).net.master.platform.channel = t.net.slave.pending_channel ∧
      (t.step i).net.slave.platform.channel = t.net.slave.pending_channel)

/-- Where a switch does not split the link: it has an id of its own, the slave moves only to where the
master is, and the master does not give up after it has moved away or lost its stored channel. -/
structure Coordinated (t : SwitchTrace) (i : SwitchInput) : Prop where
  fresh : ∀ channel now_ms corr_id, i = .request channel now_ms corr_id → ∀ u ∈ t.net.air,
    u.frame.header.type.isChannelSwitch = true → u.corr_id ≠ corr_id
  follows : ∀ now_ms, i = .slaveTick now_ms → t.net.slave.SlaveMoves now_ms →
    t.net.master.platform.channel = t.net.slave.pending_channel
  restored : ∀ now_ms w, i = .masterTick now_ms → t.net.master.SwitchFails now_ms →
    t.switching = some w →
      w.erased = false ∧ (w.applied = true → t.net.master.pending_channel = w.channel)

end SwitchTrace

end EspNowLink
