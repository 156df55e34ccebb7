import EspNowLink.Pairing.SwitchSteps

namespace EspNowLink

open Framework PairingEngine

namespace PairNet

/-- The transmission announces the switch to the channel. -/
def Announces (u : Transmission) (channel : UInt8) : Prop :=
  ∃ payload : ChannelSwitchPayload, payload.new_channel = channel ∧
    u.frame.effectivePayload.bind parseChannelSwitchPayload = some payload

/-- What the two nodes know of a switch that the master has open. -/
structure SwitchKnown (n : PairNet) : Prop where
  matched : n.slave.channel_state = .SlavePrepared → n.slave.channel_corr_id = n.master.channel_corr_id →
    n.slave.pending_channel = n.master.pending_channel
  announced : ∀ u ∈ n.air, u.frame.header.type = .ChannelSwitchPrepare →
    u.corr_id = n.master.channel_corr_id → ∀ channel, Announces u channel → channel = n.master.pending_channel
  settled : ∀ u ∈ n.air, u.frame.header.type = .ChannelSwitchCommitAck →
    u.corr_id = n.master.channel_corr_id →
      n.master.platform.channel = n.master.pending_channel ∧
        n.slave.platform.channel = n.master.pending_channel

/-- Two nodes that are not in an attempt, and their switch. -/
structure SwitchInv (n : PairNet) : Prop where
  master_role : n.master.config.local_role = .Master
  slave_role : n.slave.config.local_role = .Slave
  master_state : n.master.state ≠ .Pairing
  slave_state : n.slave.state ≠ .Pairing
  master_switch : n.master.channel_state ≠ .SlavePrepared
  slave_switch : n.slave.channel_state = .Idle ∨ n.slave.channel_state = .SlavePrepared
  heard : n.slave.channel_state = .SlavePrepared →
    ∃ u ∈ n.air, u.frame.header.type.isChannelSwitch = true ∧ u.corr_id = n.slave.channel_corr_id
  known : n.master.channel_state ≠ .Idle → n.SwitchKnown

theorem Linked.inv {n : PairNet} (h : n.Linked) : n.SwitchInv where
  master_role := h.master_role
  slave_role := h.slave_role
  master_state := by simp [h.master_state]
  slave_state := by simp [h.slave_state]
  master_switch := by simp [h.master_idle]
  slave_switch := .inl h.slave_idle
  heard := by simp [h.slave_idle]
  known := fun hopen => absurd h.master_idle hopen

section Air

variable {n : PairNet} {m s : PairingEngine} {u : Transmission}

/-- A message of a switch that a step did not send was on the air before. -/
theorem mem_withMaster (hemits : n.master.Emits m Unrelated) (hu : u ∈ (n.withMaster m).air)
    (hswitch : u.frame.header.type.isChannelSwitch = true) : u ∈ n.air := by
  rcases List.mem_append.mp hu with hnew | hold
  · have hplain : u.frame.header.type.isChannelSwitch = false := mem_sentBy hemits hnew
    rw [hplain] at hswitch
    cases hswitch
  · exact hold

theorem mem_withSlave (hemits : n.slave.Emits s Unrelated) (hu : u ∈ (n.withSlave s).air)
    (hswitch : u.frame.header.type.isChannelSwitch = true) : u ∈ n.air := by
  rcases List.mem_append.mp hu with hnew | hold
  · have hplain : u.frame.header.type.isChannelSwitch = false := mem_sentBy hemits hnew
    rw [hplain] at hswitch
    cases hswitch
  · exact hold

end Air

/-- What a step of the two nodes does to their switch. -/
inductive SwitchCase (n : PairNet) : SwitchInput → PairNet → Prop
  | none (i : SwitchInput) (hi : ∀ now_ms, i ≠ .masterTick now_ms) : SwitchCase n i n
  | fails (now_ms : UInt32) (m : PairingEngine) (hfails : n.master.SwitchFails now_ms)
      (hm : Ended n.master.platform.channel Unrelated n.master m) (hstore : m.store = n.master.store)
      (hreports : ReportsOnly (· ≠ .ChannelSwitchCommitted) n.master m) :
      SwitchCase n (.masterTick now_ms) (n.withMaster m)
  | goes (now_ms : UInt32) (m : PairingEngine) (hm : Idly (n.master.onChannel
        (if n.master.MasterDue now_ms then n.master.pending_channel else n.master.platform.channel)) m)
      (hstored : ∀ peer, ¬ n.master.ErasesChannel peer now_ms →
        m.storedChannel peer = n.master.storedChannel peer) :
      SwitchCase n (.masterTick now_ms) (n.withMaster m)
  | moves (now_ms : UInt32) (s : PairingEngine) (hmoves : n.slave.SlaveMoves now_ms)
      (hs : Ended n.slave.pending_channel n.slave.CommitFrame n.slave s) :
      SwitchCase n (.slaveTick now_ms) (n.withSlave s)
  | stays (i : SwitchInput) (s : PairingEngine) (hi : ∀ now_ms, i ≠ .masterTick now_ms)
      (hs : StaysPrepared n.slave s) (hmac : s.local_mac = n.slave.local_mac)
      (hreports : ReportsOnly (· ≠ .ChannelSwitchCommitted) n.slave s) : SwitchCase n i (n.withSlave s)
  | refused (i : SwitchInput) (m : PairingEngine) (hidle : n.master.channel_state = .Idle)
      (hm : Declines n.master m) : SwitchCase n i (n.withMaster m)
  | asks (channel : UInt8) (now_ms corr_id : UInt32) (m : PairingEngine)
      (hidle : n.master.channel_state = .Idle)
      (hm : Opens .MasterWaitAck channel corr_id (PrepareFrame channel corr_id) n.master m) :
      SwitchCase n (.request channel now_ms corr_id) (n.withMaster m)
  | prepares (k : Nat) (u : Transmission) (channel : UInt8) (s : PairingEngine) (hu : u ∈ n.air)
      (htype : u.frame.header.type = .ChannelSwitchPrepare) (hannounces : Announces u channel)
      (hs : Opens .SlavePrepared channel u.corr_id (fun f => f.header.type = .ChannelSwitchAck) n.slave s) :
      SwitchCase n (.deliver k) (n.withSlave s)
  | acknowledged (k : Nat) (hwaits : n.master.channel_state = .MasterWaitAck)
      (sender : MacAddress) (corr_id : UInt32) :
      SwitchCase n (.deliver k) (n.withMaster { n.master.emit .PairingStep sender corr_id
        "channel switch ack received" with channel_state := .MasterWaitCommit })
  | committed (k : Nat) (u : Transmission) (m : PairingEngine) (hu : u ∈ n.air)
      (htype : u.frame.header.type = .ChannelSwitchCommitAck) (hcorr : u.corr_id = n.master.channel_corr_id)
      (hwaits : n.master.channel_state = .MasterWaitCommit)
      (hm : Ended n.master.platform.channel Unrelated n.master m)
      (hreports : ReportsOnly (· = .ChannelSwitchCommitted) n.master m) :
      SwitchCase n (.deliver k) (n.withMaster m)

theorem withMaster_self (n : PairNet) : n.withMaster n.master = n := by
  simp [withMaster, sentBy]

theorem withSlave_self (n : PairNet) : n.withSlave n.slave = n := by
  simp [withSlave, sentBy]

/-- The receiver of a message of a switch reads it as what its sender meant. -/
theorem switchInput_cases {profile : UInt8} {sender : MacAddress} {u : Transmission} {i : PairingInput}
    (hswitch : u.frame.header.type.isChannelSwitch = true)
    (h : controlInput profile sender u.frame = some i) :
    (∃ payload, i = .channelSwitchPrepare sender u.corr_id payload ∧
      u.frame.header.type = .ChannelSwitchPrepare ∧ Announces u payload.new_channel) ∨
    (i = .channelSwitchAck sender u.corr_id ∧ u.frame.header.type = .ChannelSwitchAck) ∨
    (i = .channelSwitchCommitAck sender u.corr_id ∧ u.frame.header.type = .ChannelSwitchCommitAck) := by
  unfold controlInput at h
  obtain ⟨payload, hpayload, h⟩ := Option.bind_eq_some_iff.mp h
  cases htype : u.frame.header.type <;> rw [htype] at h hswitch <;> dsimp only at h
  case ChannelSwitchPrepare =>
    obtain ⟨p, hparse, rfl⟩ := Option.map_eq_some_iff.mp h
    exact .inl ⟨p, rfl, rfl, p, rfl, by rw [hpayload, Option.bind_some, hparse]⟩
  case ChannelSwitchAck =>
    obtain rfl := Option.some.inj h
    exact .inr (.inl ⟨rfl, rfl⟩)
  case ChannelSwitchCommitAck =>
    obtain rfl := Option.some.inj h
    exact .inr (.inr ⟨rfl, rfl⟩)
  all_goals cases hswitch

namespace SwitchInv

variable {n : PairNet} {i : SwitchInput} {m s : PairingEngine}

theorem deliver_slave (h : n.SwitchInv) {k : Nat} {u : Transmission} (hu : u ∈ n.air)
    (hswitch : u.frame.header.type.isChannelSwitch = true) {profile : UInt8} {sender : MacAddress}
    {j : PairingInput} (hj : controlInput profile sender u.frame = some j) :
    SwitchCase n (.deliver k) (n.stepSlave j) := by
  have hslave : n.slave.config.local_role ≠ .Master := by simp [h.slave_role]
  rcases switchInput_cases hswitch hj with
    ⟨payload, rfl, htype, hannounces⟩ | ⟨rfl, -⟩ | ⟨rfl, -⟩
  · show SwitchCase n _ (n.withSlave (n.slave.onChannelSwitchPrepare sender u.corr_id payload).2)
    rcases n.slave.onChannelSwitchPrepare_cases sender u.corr_id payload with hs | ⟨-, hs⟩
    · refine .stays _ _ (by simp) ⟨hs.config, hs.unpairing, .inr ?_, hs.channel, hs.emits⟩ hs.local_mac hs.reports
      exact ⟨hs.channel_state, hs.pending_channel, hs.channel_corr_id⟩
    · exact .prepares k u payload.new_channel _ hu htype hannounces hs
  · show SwitchCase n _ (n.withSlave (n.slave.onChannelSwitchAck sender u.corr_id).2)
    have hsame : (n.slave.onChannelSwitchAck sender u.corr_id).2 = n.slave := by
      rw [onChannelSwitchAck, if_pos (.inl hslave)]
    rw [hsame, withSlave_self]
    exact .none _ (by simp)
  · show SwitchCase n _ (n.withSlave (n.slave.onChannelSwitchCommitAck sender u.corr_id).2)
    have hsame : (n.slave.onChannelSwitchCommitAck sender u.corr_id).2 = n.slave := by
      rw [onChannelSwitchCommitAck, if_pos (.inl hslave)]
    rw [hsame, withSlave_self]
    exact .none _ (by simp)

theorem deliver_master (h : n.SwitchInv) {k : Nat} {u : Transmission} (hu : u ∈ n.air)
    (hswitch : u.frame.header.type.isChannelSwitch = true) {profile : UInt8} {sender : MacAddress}
    {j : PairingInput} (hj : controlInput profile sender u.frame = some j) :
    SwitchCase n (.deliver k) (n.stepMaster j) := by
  have hmaster : n.master.config.local_role ≠ .Slave := by simp [h.master_role]
  rcases switchInput_cases hswitch hj with
    ⟨payload, rfl, -, -⟩ | ⟨rfl, -⟩ | ⟨rfl, htype⟩
  · show SwitchCase n _ (n.withMaster (n.master.onChannelSwitchPrepare sender u.corr_id payload).2)
    have hsame : (n.master.onChannelSwitchPrepare sender u.corr_id payload).2 = n.master := by
      rw [onChannelSwitchPrepare, if_pos (.inl hmaster)]
    rw [hsame, withMaster_self]
    exact .none _ (by simp)
  · show SwitchCase n _ (n.withMaster (n.master.onChannelSwitchAck sender u.corr_id).2)
    rcases n.master.onChannelSwitchAck_cases sender u.corr_id with hsame | ⟨hwaits, hm⟩
    · rw [hsame, withMaster_self]
      exact .none _ (by simp)
    · rw [hm]
      exact .acknowledged k hwaits sender u.corr_id
  · show SwitchCase n _ (n.withMaster (n.master.onChannelSwitchCommitAck sender u.corr_id).2)
    rcases n.master.onChannelSwitchCommitAck_cases sender u.corr_id with
      hsame | ⟨-, hwaits, hcorr, hm, hreports⟩
    · rw [hsame, withMaster_self]
      exact .none _ (by simp)
    · exact .committed k u _ hu htype hcorr hwaits hm hreports

theorem step_cases (h : n.SwitchInv) (i : SwitchInput) : SwitchCase n i (n.switchStep i) := by
  cases i with
  | masterTick now_ms =>
    show SwitchCase n _ (n.withMaster (n.master.tick now_ms).2)
    rcases masterTick_cases h.master_role h.master_state h.master_switch now_ms with
      ⟨hfails, hm, hstore, hreports⟩ | ⟨-, hm, hstored⟩
    · exact .fails now_ms _ hfails hm hstore hreports
    · exact .goes now_ms _ hm hstored
  | slaveTick now_ms =>
    show SwitchCase n _ (n.withSlave (n.slave.tick now_ms).2)
    rcases slaveTick_cases h.slave_state h.slave_switch now_ms with ⟨hmoves, hs⟩ | ⟨-, hreports, hs | hs⟩
    · exact .moves now_ms _ hmoves hs
    · exact .stays _ _ (by simp) ⟨hs.config, hs.unpairing, .inl hs.idle, hs.channel, hs.emits⟩ hs.local_mac hreports
    · refine .stays _ _ (by simp) ⟨hs.config, hs.unpairing, .inr ?_, hs.channel, hs.emits⟩ hs.local_mac hreports
      exact ⟨hs.channel_state, hs.pending_channel, hs.channel_corr_id⟩
  | request channel now_ms corr_id =>
    show SwitchCase n _ (n.withMaster
      (n.master.requestChannelSwitch n.slave.local_mac channel now_ms corr_id).2)
    rcases n.master.requestChannelSwitch_cases n.slave.local_mac channel now_ms corr_id with
      hsame | ⟨hidle, hm | hm⟩
    · rw [hsame, withMaster_self]
      exact .none _ (by simp)
    · exact .refused _ _ hidle hm
    · exact .asks channel now_ms corr_id _ hidle hm
  | deliver k =>
    simp only [switchStep]
    cases hk : n.air[k]? with
    | none => exact .none _ (by simp)
    | some u =>
      have hu := List.mem_of_getElem? hk
      dsimp only
      split
      · rename_i hswitch
        simp only [step, hk]
        cases hj : n.received u with
        | none => exact .none _ (by simp)
        | some j =>
          dsimp only
          unfold stepReceiver
          rcases received_cases hj with ⟨hsender, hcontrol⟩ | ⟨hsender, hcontrol⟩ <;> rw [hsender]
          · exact h.deliver_slave hu hswitch hcontrol
          · exact h.deliver_master hu hswitch hcontrol
      · exact .none _ (by simp)


theorem master_keeps (h : n.SwitchInv) {channel : UInt8} (hm : KeepsSwitch channel n.master m)
    (hchannel : channel = n.master.platform.channel ∨ channel = n.master.pending_channel) :
    (n.withMaster m).SwitchInv where
  master_role := (congrArg _ hm.config).trans h.master_role
  slave_role := h.slave_role
  master_state := hm.unpairing h.master_state
  slave_state := h.slave_state
  master_switch := hm.unprepared
  slave_switch := h.slave_switch
  heard := by
    intro hprepared
    obtain ⟨u, hu, hheard⟩ := h.heard hprepared
    exact ⟨u, List.mem_append_right _ hu, hheard⟩
  known := by
    intro hopen
    obtain ⟨hopened, hpending, hcorr, hradio⟩ := hm.opened hopen
    obtain ⟨hmatched, hannounced, hsettled⟩ := h.known hopened
    refine ⟨?_, ?_, ?_⟩
    · intro hprepared hid
      exact (hmatched hprepared (hid.trans hcorr)).trans hpending.symm
    · intro u hu htype hid c hannounces
      have hold := mem_withMaster hm.emits hu (by rw [htype]; rfl)
      exact (hannounced u hold htype (hid.trans hcorr) c hannounces).trans hpending.symm
    · intro u hu htype hid
      have hold := mem_withMaster hm.emits hu (by rw [htype]; rfl)
      obtain ⟨hmaster, hslave⟩ := hsettled u hold htype (hid.trans hcorr)
      constructor
      · show m.platform.channel = m.pending_channel
        rw [hradio, hpending]
        rcases hchannel with hsame | hthere
        · rw [hsame, hmaster]
        · exact hthere
      · exact hslave.trans hpending.symm

/-- A switch under an id that no message of a switch on the air has. -/
theorem master_opens (h : n.SwitchInv) {channel : UInt8} {corr_id : UInt32}
    (hm : Opens .MasterWaitAck channel corr_id (PrepareFrame channel corr_id) n.master m)
    (hfresh : ∀ u ∈ n.air, u.frame.header.type.isChannelSwitch = true → u.corr_id ≠ corr_id) :
    (n.withMaster m).SwitchInv where
  master_role := (congrArg _ hm.config).trans h.master_role
  slave_role := h.slave_role
  master_state := hm.unpairing h.master_state
  slave_state := h.slave_state
  master_switch := by
    show m.channel_state ≠ .SlavePrepared
    simp [hm.channel_state]
  slave_switch := h.slave_switch
  heard := by
    intro hprepared
    obtain ⟨u, hu, hheard⟩ := h.heard hprepared
    exact ⟨u, List.mem_append_right _ hu, hheard⟩
  known := by
    intro _
    refine ⟨?_, ?_, ?_⟩
    · intro hprepared hid
      obtain ⟨u, hu, hswitch, hheard⟩ := h.heard hprepared
      have hsame : u.corr_id = corr_id := hheard.trans (hid.trans hm.channel_corr_id)
      exact absurd hsame (hfresh u hu hswitch)
    · intro u hu htype hid c hannounces
      rcases List.mem_append.mp hu with hnew | hold
      · obtain ⟨-, -, payload, hpayload, hread⟩ := mem_sentBy hm.emits hnew
        obtain ⟨payload', rfl, hread'⟩ := hannounces
        have hsame : payload' = payload := Option.some.inj (hread'.symm.trans hread)
        rw [hsame, hpayload]
        exact hm.pending_channel.symm
      · have hsame : u.corr_id = corr_id := hid.trans hm.channel_corr_id
        exact absurd hsame (hfresh u hold (by rw [htype]; rfl))
    · intro u hu htype hid
      rcases List.mem_append.mp hu with hnew | hold
      · obtain ⟨hprepare, -⟩ := mem_sentBy hm.emits hnew
        rw [hprepare] at htype
        cases htype
      · have hsame : u.corr_id = corr_id := hid.trans hm.channel_corr_id
        exact absurd hsame (hfresh u hold (by rw [htype]; rfl))

theorem slave_stays (h : n.SwitchInv) (hs : StaysPrepared n.slave s) : (n.withSlave s).SwitchInv where
  master_role := h.master_role
  slave_role := (congrArg _ hs.config).trans h.slave_role
  master_state := h.master_state
  slave_state := hs.unpairing h.slave_state
  master_switch := h.master_switch
  slave_switch := by
    rcases hs.opened with hidle | ⟨hsame, -⟩
    · exact .inl hidle
    · show s.channel_state = .Idle ∨ s.channel_state = .SlavePrepared
      rw [hsame]
      exact h.slave_switch
  heard := by
    intro hprepared
    have hprepared : s.channel_state = .SlavePrepared := hprepared
    rcases hs.opened with hidle | ⟨hsame, -, hcorr⟩
    · rw [hidle] at hprepared
      cases hprepared
    · obtain ⟨u, hu, hswitch, hheard⟩ := h.heard (hsame.symm.trans hprepared)
      exact ⟨u, List.mem_append_right _ hu, hswitch, hheard.trans hcorr.symm⟩
  known := by
    intro hopen
    obtain ⟨hmatched, hannounced, hsettled⟩ := h.known hopen
    refine ⟨?_, ?_, ?_⟩
    · intro hprepared hid
      have hprepared : s.channel_state = .SlavePrepared := hprepared
      rcases hs.opened with hidle | ⟨hsame, hpending, hcorr⟩
      · rw [hidle] at hprepared
        cases hprepared
      · exact hpending.trans (hmatched (hsame.symm.trans hprepared) (hcorr.symm.trans hid))
    · intro u hu htype
      exact hannounced u (mem_withSlave hs.emits hu (by rw [htype]; rfl)) htype
    · intro u hu htype hid
      obtain ⟨hmaster, hslave⟩ := hsettled u (mem_withSlave hs.emits hu (by rw [htype]; rfl)) htype hid
      exact ⟨hmaster, hs.channel.trans hslave⟩

/-- The slave moves to where the master is. -/
theorem slave_moves (h : n.SwitchInv)
    (hs : Ended n.slave.pending_channel n.slave.CommitFrame n.slave s)
    (hprepared : n.slave.channel_state = .SlavePrepared)
    (hfollows : n.master.platform.channel = n.slave.pending_channel) : (n.withSlave s).SwitchInv where
  master_role := h.master_role
  slave_role := (congrArg _ hs.config).trans h.slave_role
  master_state := h.master_state
  slave_state := hs.unpairing h.slave_state
  master_switch := h.master_switch
  slave_switch := .inl hs.idle
  heard := by
    intro hnow
    have hnow : s.channel_state = .SlavePrepared := hnow
    rw [hs.idle] at hnow
    cases hnow
  known := by
    intro hopen
    obtain ⟨hmatched, hannounced, hsettled⟩ := h.known hopen
    refine ⟨?_, ?_, ?_⟩
    · intro hnow
      have hnow : s.channel_state = .SlavePrepared := hnow
      rw [hs.idle] at hnow
      cases hnow
    · intro u hu htype
      rcases List.mem_append.mp hu with hnew | hold
      · obtain ⟨hcommit, -⟩ := mem_sentBy hs.emits hnew (by rw [htype]; rfl)
        rw [htype] at hcommit
        cases hcommit
      · exact hannounced u hold htype
    · intro u hu htype hid
      have hsame : n.slave.pending_channel = n.master.pending_channel := by
        rcases List.mem_append.mp hu with hnew | hold
        · obtain ⟨-, hcorr⟩ := mem_sentBy hs.emits hnew (by rw [htype]; rfl)
          exact hmatched hprepared (hcorr.symm.trans hid)
        · exact hfollows.symm.trans (hsettled u hold htype hid).1
      exact ⟨hfollows.trans hsame, hs.channel.trans hsame⟩

theorem slave_opens (h : n.SwitchInv) {u : Transmission} (hu : u ∈ n.air)
    (htype : u.frame.header.type = .ChannelSwitchPrepare) {channel : UInt8} (hannounces : Announces u channel)
    (hs : Opens .SlavePrepared channel u.corr_id (fun f => f.header.type = .ChannelSwitchAck) n.slave s) :
    (n.withSlave s).SwitchInv where
  master_role := h.master_role
  slave_role := (congrArg _ hs.config).trans h.slave_role
  master_state := h.master_state
  slave_state := hs.unpairing h.slave_state
  master_switch := h.master_switch
  slave_switch := .inr hs.channel_state
  heard := fun _ => ⟨u, List.mem_append_right _ hu, by rw [htype]; rfl, hs.channel_corr_id.symm⟩
  known := by
    intro hopen
    obtain ⟨hmatched, hannounced, hsettled⟩ := h.known hopen
    refine ⟨?_, ?_, ?_⟩
    · intro _ hid
      have hsame := hannounced u hu htype (hs.channel_corr_id.symm.trans hid) channel hannounces
      exact hs.pending_channel.trans hsame
    · intro v hv hvtype
      rcases List.mem_append.mp hv with hnew | hold
      · have hack : v.frame.header.type = .ChannelSwitchAck := mem_sentBy hs.emits hnew
        rw [hvtype] at hack
        cases hack
      · exact hannounced v hold hvtype
    · intro v hv hvtype hid
      rcases List.mem_append.mp hv with hnew | hold
      · have hack : v.frame.header.type = .ChannelSwitchAck := mem_sentBy hs.emits hnew
        rw [hvtype] at hack
        cases hack
      · obtain ⟨hmaster, hslave⟩ := hsettled v hold hvtype hid
        exact ⟨hmaster, hs.channel.trans hslave⟩


theorem after (h : n.SwitchInv) {n' : PairNet} (hcase : SwitchCase n i n')
    (hfresh : ∀ channel now_ms corr_id, i = .request channel now_ms corr_id → ∀ u ∈ n.air,
      u.frame.header.type.isChannelSwitch = true → u.corr_id ≠ corr_id)
    (hfollows : ∀ now_ms, i = .slaveTick now_ms → n.slave.SlaveMoves now_ms →
      n.master.platform.channel = n.slave.pending_channel) : n'.SwitchInv := by
  cases hcase with
  | none => exact h
  | fails now_ms m _ hm => exact h.master_keeps hm.keepsSwitch (.inl rfl)
  | goes now_ms m hm =>
    refine h.master_keeps (hm.keepsSwitch h.master_switch) ?_
    split
    · exact .inr rfl
    · exact .inl rfl
  | moves now_ms s hmoves hs => exact h.slave_moves hs hmoves.1 (hfollows now_ms rfl hmoves)
  | stays _ s _ hs => exact h.slave_stays hs
  | refused _ m hidle hm => exact h.master_keeps (hm.keepsSwitch hidle) (.inl rfl)
  | asks channel now_ms corr_id m _ hm => exact h.master_opens hm (hfresh channel now_ms corr_id rfl)
  | prepares k u channel s hu htype hannounces hs => exact h.slave_opens hu htype hannounces hs
  | acknowledged k hwaits sender corr_id =>
    refine h.master_keeps ⟨rfl, id, by simp, fun _ => ⟨?_, rfl, rfl, rfl⟩, .nil rfl⟩ (.inl rfl)
    simp [hwaits]
  | committed k u m _ _ _ _ hm => exact h.master_keeps hm.keepsSwitch (.inl rfl)

end SwitchInv

end PairNet

open PairNet

/-- The record of the master's open switch is right. -/
structure Switching.Describes (w : Switching) (n : PairNet) : Prop where
  home : w.applied = false → n.master.platform.channel = w.channel
  away : w.applied = true → n.master.platform.channel = n.master.pending_channel
  stored : w.erased = false → n.master.storedChannel n.slave.local_mac = w.stored

theorem Switching.after_eq (w : Switching) (n : PairNet) {i : SwitchInput}
    (hi : ∀ now_ms, i ≠ .masterTick now_ms) : w.after n i = w := by
  cases i with
  | masterTick now_ms => exact absurd rfl (hi now_ms)
  | _ => rfl

/-- A step that leaves the master's switch alone. -/
theorem Switching.Describes.same {w : Switching} {n n' : PairNet} (h : w.Describes n)
    (hchannel : n'.master.platform.channel = n.master.platform.channel)
    (hpending : n'.master.pending_channel = n.master.pending_channel)
    (hstore : n'.master.store = n.master.store) (hlocal : n'.master.local_mac = n.master.local_mac)
    (hmac : n'.slave.local_mac = n.slave.local_mac) : w.Describes n' where
  home := fun happlied => hchannel.trans (h.home happlied)
  away := fun happlied => by rw [hchannel, hpending, h.away happlied]
  stored := fun herased => by rw [storedChannel_eq hstore hlocal, hmac, h.stored herased]

/-- A tick of the master in which its switch goes on. -/
theorem Switching.Describes.goes {w : Switching} {n : PairNet} (h : w.Describes n) {now_ms : UInt32}
    {m : PairingEngine} (hm : Idly (n.master.onChannel
      (if n.master.MasterDue now_ms then n.master.pending_channel else n.master.platform.channel)) m)
    (hstored : ∀ peer, ¬ n.master.ErasesChannel peer now_ms →
      m.storedChannel peer = n.master.storedChannel peer) :
    (w.after n (.masterTick now_ms)).Describes (n.withMaster m) := by
  have hchannel : m.platform.channel =
      if n.master.MasterDue now_ms then n.master.pending_channel else n.master.platform.channel := hm.channel
  have hpending : m.pending_channel = n.master.pending_channel := hm.pending_channel
  refine ⟨?_, ?_, ?_⟩
  · intro happlied
    obtain ⟨hbefore, hnow⟩ : w.applied = false ∧ ¬ n.master.MasterDue now_ms := by
      simpa [Switching.after] using happlied
    show m.platform.channel = w.channel
    rw [hchannel, if_neg hnow, h.home hbefore]
  · intro happlied
    show m.platform.channel = m.pending_channel
    rw [hchannel, hpending]
    by_cases hnow : n.master.MasterDue now_ms
    · rw [if_pos hnow]
    · have hbefore : w.applied = true := by simpa [Switching.after, hnow] using happlied
      rw [if_neg hnow, h.away hbefore]
  · intro herased
    obtain ⟨hbefore, hnow⟩ : w.erased = false ∧ ¬ n.master.ErasesChannel n.slave.local_mac now_ms := by
      simpa [Switching.after] using herased
    show m.storedChannel n.slave.local_mac = w.stored
    rw [hstored _ hnow, h.stored hbefore]

namespace SwitchTrace

variable {t : SwitchTrace} {i : SwitchInput}

structure Inv (t : SwitchTrace) : Prop where
  net : t.net.SwitchInv
  closed : t.net.master.channel_state = .Idle → t.switching = none
  opened : t.net.master.channel_state ≠ .Idle → ∃ w, t.switching = some w ∧ w.Describes t.net

theorem Inv.step_opened (h : t.Inv) (hopen : (t.step i).net.master.channel_state ≠ .Idle) :
    ∃ w, (t.step i).switching = some w ∧ w.Describes (t.step i).net := by
  have hcase := h.net.step_cases i
  have hnext : (t.step i).switching =
      if (t.net.switchStep i).master.channel_state = .Idle then none
      else if t.net.master.channel_state = .Idle then
        some ⟨t.net.masterChannel.1, t.net.masterChannel.2, false, false⟩
      else t.switching.map (·.after t.net i) := rfl
  have hnet : (t.step i).net = t.net.switchStep i := rfl
  rw [hnet] at hopen ⊢
  rw [if_neg hopen] at hnext
  -- a switch that was open before goes on under its record
  have hgoes (hbefore : t.net.master.channel_state ≠ .Idle)
      (hafter : ∀ w : Switching, w.Describes t.net → (w.after t.net i).Describes (t.net.switchStep i)) :
      ∃ w, (t.step i).switching = some w ∧ w.Describes (t.net.switchStep i) := by
    obtain ⟨w, hw, hdescribes⟩ := h.opened hbefore
    refine ⟨w.after t.net i, ?_, hafter w hdescribes⟩
    rw [hnext, if_neg hbefore, hw]
    rfl
  generalize t.net.switchStep i = n' at hcase hopen hgoes ⊢
  cases hcase with
  | none _ hi =>
    refine hgoes hopen fun w hw => ?_
    rw [w.after_eq t.net hi]
    exact hw
  | fails now_ms m _ hm => exact absurd hm.idle hopen
  | goes now_ms m hm hstored =>
    refine hgoes (fun hidle => hopen (hm.channel_state.trans hidle)) fun w hw => ?_
    exact hw.goes hm hstored
  | moves now_ms s _ hs => exact hgoes hopen fun w hw => hw.same rfl rfl rfl rfl hs.local_mac
  | stays _ s hi _ hmac =>
    refine hgoes hopen fun w hw => ?_
    rw [w.after_eq t.net hi]
    exact hw.same rfl rfl rfl rfl hmac
  | refused _ m hidle hm => exact absurd (hm.channel_state.trans hidle) hopen
  | asks channel now_ms corr_id m hidle hm =>
    rw [if_pos hidle] at hnext
    refine ⟨_, hnext, fun _ => hm.channel, by simp, fun _ => ?_⟩
    exact storedChannel_eq hm.store hm.local_mac _
  | prepares k u channel s _ _ _ hs => exact hgoes hopen fun w hw => hw.same rfl rfl rfl rfl hs.local_mac
  | acknowledged k hwaits sender corr_id =>
    have hbefore : t.net.master.channel_state ≠ .Idle := by simp [hwaits]
    exact hgoes hbefore fun w hw => hw.same rfl rfl rfl rfl rfl
  | committed k u m _ _ _ _ hm => exact absurd hm.idle hopen

theorem Inv.step (h : t.Inv) (hok : t.Coordinated i) : (t.step i).Inv where
  net := h.net.after (h.net.step_cases i) hok.fresh hok.follows
  closed := fun hidle => if_pos hidle
  opened := h.step_opened

theorem Inv.failureRestores (h : t.Inv) (hok : t.Coordinated i) : t.FailureRestores i := by
  have hcase := h.net.step_cases i
  intro hreports
  have hnet : (t.step i).net = t.net.switchStep i := rfl
  rw [hnet] at hreports ⊢
  have hquiet : ReportsOnly (fun _ => False) t.net.master t.net.master := .nothing rfl
  generalize t.net.switchStep i = n' at hcase hreports ⊢
  cases hcase with
  | none | moves | stays | prepares => exact absurd hreports (hquiet.not_reports id)
  | fails now_ms m hfails hm hstore =>
    obtain ⟨w, hw, hdescribes⟩ := h.opened hfails.1
    obtain ⟨herased, hback⟩ := hok.restored now_ms w rfl hfails hw
    have hbefore : t.before = (w.channel, w.stored) := by
      rw [before, hw]
      rfl
    have hchannel : t.net.master.platform.channel = w.channel := by
      cases happlied : w.applied with
      | false => exact hdescribes.home happlied
      | true => exact (hdescribes.away happlied).trans (hback happlied)
    have hstored : m.storedChannel t.net.slave.local_mac = w.stored :=
      (storedChannel_eq hstore hm.local_mac _).trans (hdescribes.stored herased)
    rw [hbefore]
    exact Prod.ext (hm.channel.trans hchannel) hstored
  | goes now_ms m hm => exact absurd hreports (hm.reports.not_reports (by simp))
  | refused _ m hidle hm =>
    have hbefore : t.before = t.net.masterChannel := by
      rw [before, h.closed hidle]
      rfl
    rw [hbefore]
    exact Prod.ext hm.channel (storedChannel_eq hm.store hm.local_mac _)
  | asks channel now_ms corr_id m _ hm => exact absurd hreports (hm.reports.not_reports (by simp))
  | acknowledged k hwaits sender corr_id =>
    have hstep : ReportsOnly (· = .PairingStep) t.net.master { t.net.master.emit .PairingStep sender
        corr_id "channel switch ack received" with channel_state := .MasterWaitCommit } := .one rfl rfl
    exact absurd hreports (hstep.not_reports (by simp))
  | committed k u m _ _ _ _ _ honly => exact absurd hreports (honly.not_reports (by simp))

theorem Inv.commitsTogether (h : t.Inv) (hok : t.Coordinated i) : t.CommitsTogether i := by
  have hcase := h.net.step_cases i
  unfold CommitsTogether
  have hnet : (t.step i).net = t.net.switchStep i := rfl
  rw [hnet]
  have hmaster : ReportsOnly (fun _ => False) t.net.master t.net.master := .nothing rfl
  have hslave : ReportsOnly (fun _ => False) t.net.slave t.net.slave := .nothing rfl
  generalize t.net.switchStep i = n' at hcase ⊢
  cases hcase with
  | none => exact ⟨fun h => absurd h (hmaster.not_reports id), fun h => absurd h (hslave.not_reports id)⟩
  | fails now_ms m _ _ _ honly =>
    exact ⟨fun h => absurd h (honly.not_reports (by simp)), fun h => absurd h (hslave.not_reports id)⟩
  | goes now_ms m hm =>
    exact ⟨fun h => absurd h (hm.reports.not_reports (by simp)), fun h => absurd h (hslave.not_reports id)⟩
  | moves now_ms s hmoves hs =>
    refine ⟨fun h => absurd h (hmaster.not_reports id), fun _ => ?_⟩
    exact ⟨hok.follows now_ms rfl hmoves, hs.channel⟩
  | stays _ s _ _ _ honly =>
    exact ⟨fun h => absurd h (hmaster.not_reports id), fun h => absurd h (honly.not_reports (by simp))⟩
  | refused _ m _ hm =>
    exact ⟨fun h => absurd h (hm.reports.not_reports (by simp)), fun h => absurd h (hslave.not_reports id)⟩
  | asks channel now_ms corr_id m _ hm =>
    exact ⟨fun h => absurd h (hm.reports.not_reports (by simp)), fun h => absurd h (hslave.not_reports id)⟩
  | prepares k u channel s _ _ _ hs =>
    exact ⟨fun h => absurd h (hmaster.not_reports id), fun h => absurd h (hs.reports.not_reports (by simp))⟩
  | acknowledged k hwaits sender corr_id =>
    have hstep : ReportsOnly (· = .PairingStep) t.net.master { t.net.master.emit .PairingStep sender
        corr_id "channel switch ack received" with channel_state := .MasterWaitCommit } := .one rfl rfl
    exact ⟨fun h => absurd h (hstep.not_reports (by simp)), fun h => absurd h (hslave.not_reports id)⟩
  | committed k u m hu htype hcorr hwaits hm =>
    refine ⟨fun _ => ?_, fun h => absurd h (hslave.not_reports id)⟩
    obtain ⟨hmoved, htogether⟩ := (h.net.known (by simp [hwaits])).settled u hu htype hcorr
    exact ⟨hm.channel.trans hmoved, htogether⟩

theorem inv_start {n : PairNet} (h : n.Linked) : (start n).Inv :=
  ⟨h.inv, fun _ => rfl, fun hopen => absurd h.master_idle hopen⟩

instance (t : SwitchTrace) : (i : SwitchInput) → Decidable (t.Coordinated i)
  | .masterTick now_ms =>
    decidable_of_iff (t.net.master.SwitchFails now_ms → ∀ w ∈ t.switching,
      w.erased = false ∧ (w.applied = true → t.net.master.pending_channel = w.channel))
      ⟨fun h => ⟨nofun, nofun, fun _ w hi hfails hw => by cases hi; exact h hfails w hw⟩,
        fun h hfails w hw => h.restored now_ms w rfl hfails hw⟩
  | .slaveTick now_ms =>
    decidable_of_iff (t.net.slave.SlaveMoves now_ms →
      t.net.master.platform.channel = t.net.slave.pending_channel)
      ⟨fun h => ⟨nofun, fun _ hi hmoves => by cases hi; exact h hmoves, nofun⟩,
        fun h hmoves => h.follows now_ms rfl hmoves⟩
  | .request channel now_ms corr_id =>
    decidable_of_iff (∀ u ∈ t.net.air, u.frame.header.type.isChannelSwitch = true → u.corr_id ≠ corr_id)
      ⟨fun h => ⟨fun _ _ _ hi => by cases hi; exact h, nofun, nofun⟩,
        fun h => h.fresh channel now_ms corr_id rfl⟩
  | .deliver _ => .isTrue ⟨nofun, nofun, nofun⟩

instance (t : SwitchTrace) (i : SwitchInput) : Decidable (t.FailureRestores i) :=
  inferInstanceAs (Decidable (_ → _))
instance (t : SwitchTrace) (i : SwitchInput) : Decidable (t.CommitsTogether i) :=
  inferInstanceAs (Decidable ((_ → _) ∧ (_ → _)))

end SwitchTrace

open SwitchTrace in
/-- As long as every switch has an id of its own, the slave moves only to where the master is, and the
master gives no switch up after it has moved, no switch splits the link. -/
theorem coordinated_switch_keeps_link (n : PairNet) (hlinked : n.Linked) (t : SwitchTrace)
    (hrun : Run SwitchTrace.step SwitchTrace.Coordinated (start n) t) (i : SwitchInput)
    (hok : t.Coordinated i) : t.FailureRestores i ∧ t.CommitsTogether i := by
  have hinv := hrun.invariant (inv_start hlinked) fun _ _ h hok => h.step hok
  exact ⟨hinv.failureRestores hok, hinv.commitsTogether hok⟩

namespace SwitchExample

/-- The two ends of an undisturbed pairing, on channel 1. -/
def linked : PairNet := PairingExample.pairing.foldl PairNet.step PairingExample.net

/-- A switch to channel 6 under the id 40 in which every message arrives once and the master's clock
reaches the time of the switch first. -/
def switched : List SwitchInput :=
  [.request 6 1000 40, .deliver 0, .deliver 0, .masterTick 1500, .slaveTick 1501]

/-- The acknowledgement of the prepare is lost. -/
def unheard : List SwitchInput := [.request 6 1000 40, .deliver 0, .masterTick 1500]

theorem linked_linked : linked.Linked := by
  refine ⟨?_, ?_, ?_, ?_, ?_, ?_, ?_⟩ <;> decide +kernel

end SwitchExample

open SwitchExample in
/-- The undisturbed switch ends with both nodes on channel 6. -/
theorem undisturbed_switch_keeps_link :
    let t := switched.foldl SwitchTrace.step (SwitchTrace.start linked)
    Reports .ChannelSwitchCommitted t.net.master (t.step (.deliver 0)).net.master ∧
      t.FailureRestores (.deliver 0) ∧ t.CommitsTogether (.deliver 0) := by
  have hadmitted : Admitted SwitchTrace.step SwitchTrace.Coordinated (.start linked) switched := by
    refine ⟨?_, ?_, ?_, ?_, ?_, trivial⟩ <;> decide +kernel
  have hrun := Run.of_admitted switched hadmitted
  refine ⟨by decide +kernel, ?_⟩
  exact coordinated_switch_keeps_link linked linked_linked _ hrun (.deliver 0) (by decide +kernel)

open SwitchExample in
/-- If the commit acknowledgement is lost, the master's time runs out with its radio on channel 6 and
channel 1 stored. -/
theorem lost_commit_ack_strands_master :
    ¬ ∀ n : PairNet, n.Linked → ∀ t, Run SwitchTrace.step (fun _ _ => True) (.start n) t →
      ∀ i, t.FailureRestores i ∧ t.CommitsTogether i := by
  intro h
  have hrun : Run SwitchTrace.step (fun _ _ => True) (.start linked)
      (switched.foldl SwitchTrace.step (.start linked)) :=
    Run.of_admitted switched (by simp [Admitted, switched])
  have hrestores := (h linked linked_linked _ hrun (.masterTick 3001)).1
  have hstranded : ¬ (switched.foldl SwitchTrace.step (.start linked)).FailureRestores (.masterTick 3001) := by
    decide +kernel
  exact hstranded hrestores

open SwitchExample in
/-- If the acknowledgement of the prepare is lost, the slave commits the switch alone. -/
example : ¬ (unheard.foldl SwitchTrace.step (.start linked)).CommitsTogether (.slaveTick 1501) := by
  decide +kernel

end EspNowLink
