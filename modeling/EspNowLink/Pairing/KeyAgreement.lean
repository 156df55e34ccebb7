import EspNowLink.Pairing.HandshakeCases

namespace EspNowLink

open Framework PairingEngine

/-- What an engine's owner does: its clock, and calls about the other side. -/
inductive PairingCall where
  | tick (now_ms : UInt32)
  | requestPair (corr_id : UInt32)
  | requestUnpair (corr_id : UInt32)
  | removePeer (erase_persisted : Bool)
  | requestChannelSwitch (new_channel : UInt8) (now_ms corr_id : UInt32)

def PairingCall.input (peer : MacAddress) : PairingCall → PairingInput
  | .tick now_ms => .tick now_ms
  | .requestPair corr_id => .requestPair peer corr_id
  | .requestUnpair corr_id => .requestUnpair peer corr_id
  | .removePeer erase => .removePeer peer erase
  | .requestChannelSwitch channel now_ms corr_id =>
    .requestChannelSwitch peer channel now_ms corr_id

/-- A frame on the air, and the side that sent it. -/
structure Transmission where
  sender : Role
  frame : SentFrame

def Transmission.corr_id (t : Transmission) : UInt32 := t.frame.header.correlation_id

/-- The transmission begins an attempt under the id. -/
def Transmission.Begins (t : Transmission) (corr_id : UInt32) : Prop :=
  t.frame.header.type = .PairInit ∧ t.corr_id = corr_id

instance (t : Transmission) (corr_id : UInt32) : Decidable (t.Begins corr_id) := by
  unfold Transmission.Begins; infer_instance

/-- The seed and the nonce of the attempt that the transmission begins under the id. -/
def Transmission.initOf (t : Transmission) (corr_id : UInt32) : Option (PairSeed × UInt32) :=
  if t.Begins corr_id then
    (t.frame.effectivePayload.bind parsePairInitPayload).map fun init => (init.1, init.2.1)
  else none

/-- A master and a slave in reach of each other, with the profile ids of their managers. Every frame
stays on the air, the newest first: it may arrive late, repeatedly, out of order or never. -/
structure PairNet where
  master : PairingEngine
  slave : PairingEngine
  master_profile : UInt8
  slave_profile : UInt8
  air : List Transmission

inductive NetInput where
  | master (call : PairingCall)
  | slave (call : PairingCall)
  | deliver (k : Nat)

namespace PairNet

/-- The frames an engine has sent between two states, the newest first. -/
def sentBy (sender : Role) (e t : PairingEngine) : List Transmission :=
  ((t.platform.sent.drop e.platform.sent.length).map (Transmission.mk sender)).reverse

def withMaster (n : PairNet) (m : PairingEngine) : PairNet :=
  { n with master := m, air := sentBy .Master n.master m ++ n.air }

def withSlave (n : PairNet) (s : PairingEngine) : PairNet :=
  { n with slave := s, air := sentBy .Slave n.slave s ++ n.air }

def stepMaster (n : PairNet) (i : PairingInput) : PairNet := n.withMaster (n.master.step i)
def stepSlave (n : PairNet) (i : PairingInput) : PairNet := n.withSlave (n.slave.step i)

/-- What a transmission asks of the other side, if it is addressed to it. -/
def received (n : PairNet) (t : Transmission) : Option PairingInput :=
  match t.sender with
  | .Master =>
    if t.frame.dest = n.slave.local_mac ∨ t.frame.dest = kBroadcastMac then
      controlInput n.slave_profile n.master.local_mac t.frame
    else none
  | .Slave =>
    if t.frame.dest = n.master.local_mac ∨ t.frame.dest = kBroadcastMac then
      controlInput n.master_profile n.slave.local_mac t.frame
    else none

def stepReceiver (n : PairNet) (t : Transmission) (i : PairingInput) : PairNet :=
  match t.sender with
  | .Master => n.stepSlave i
  | .Slave => n.stepMaster i

def step (n : PairNet) : NetInput → PairNet
  | .master call => n.stepMaster (call.input n.slave.local_mac)
  | .slave call => n.stepSlave (call.input n.master.local_mac)
  | .deliver k =>
    match n.air[k]? with
    | none => n
    | some t =>
      match n.received t with
      | none => n
      | some i => n.stepReceiver t i

/-- Two nodes with the same library, as their owners make them. -/
structure Booted (n : PairNet) : Prop where
  master : n.master.Booted
  slave : n.slave.Booted
  master_role : n.master.config.local_role = .Master
  slave_role : n.slave.config.local_role = .Slave
  crypto : n.slave.crypto = n.master.crypto
  air : n.air = []

/-- Both ends of a link that came out of one attempt hold and have stored the key that the seed and
the nonce of the attempt give. -/
def KeysAgree (n : PairNet) : Prop :=
  n.master.state = .Secured → n.slave.state = .Secured → n.master.corr_id = n.slave.corr_id →
    ∃ key, deriveLmkFromSeed n.master.crypto n.master.current_seed n.master.local_mac
        n.slave.local_mac n.slave.pairing_nonce = some key ∧
      n.slave.current_seed = n.master.current_seed ∧
      n.master.current_lmk = key ∧ n.slave.current_lmk = key ∧
      (∃ s, n.master.store = some s ∧ HoldsPair s n.master.local_mac n.slave.local_mac key) ∧
      ∃ s, n.slave.store = some s ∧ HoldsPair s n.slave.local_mac n.master.local_mac key

/-- The engine takes the message as one of its attempt. -/
def TakesUp (e : PairingEngine) : PairingInput → Prop
  | .pairInit sender corr_id _ _ => e.TakesPairInit sender corr_id
  | .pairInitAck _ corr_id nonce => e.expectsPairInitAck corr_id ∧ nonce = e.pairing_nonce
  | .pairConfirm _ corr_id nonce => e.expectsPairConfirm corr_id ∧ nonce = e.pairing_nonce
  | .pairConfirmAck _ corr_id _ => e.expectsPairConfirmAck corr_id
  | _ => False

instance (e : PairingEngine) (i : PairingInput) : Decidable (TakesUp e i) := by
  cases i <;> unfold TakesUp <;> infer_instance

def receiver (n : PairNet) (t : Transmission) : PairingEngine :=
  match t.sender with
  | .Master => n.slave
  | .Slave => n.master

/-- No message is taken up once the master has begun a later attempt under the same id. -/
def CurrentOnly (n : PairNet) : NetInput → Prop
  | .deliver k =>
    match n.air[k]? with
    | none => True
    | some t =>
      match n.received t with
      | none => True
      | some i => TakesUp (n.receiver t) i → ∀ u ∈ n.air.take k, ¬ u.Begins t.corr_id
  | _ => True

instance (n : PairNet) (i : NetInput) : Decidable (n.CurrentOnly i) := by
  unfold CurrentOnly
  split
  · split
    · infer_instance
    · split <;> infer_instance
  · infer_instance

/-- The seed and the nonce of the latest attempt under the id. -/
def lastInit (air : List Transmission) (corr_id : UInt32) : Option (PairSeed × UInt32) :=
  air.findSome? (·.initOf corr_id)

/-- Where the slave has the id of an attempt, it has the values of the latest one. -/
def Synced (n : PairNet) (corr_id : UInt32) : Prop :=
  n.slave.state ≠ .Unpaired → n.slave.corr_id = corr_id →
    lastInit n.air corr_id = some (n.slave.current_seed, n.slave.pairing_nonce)

/-- The transmission presumes that the slave has taken up an init. -/
def Presumes (t : Transmission) : Prop :=
  t.frame.header.type = .PairInitAck ∨ t.frame.header.type = .PairConfirm ∨
    t.frame.header.type = .PairConfirmAck

/-- What holds while no message of an earlier attempt under the same id is taken up. -/
structure Inv (n : PairNet) : Prop where
  crypto : n.slave.crypto = n.master.crypto
  master_role : n.master.config.local_role = .Master
  slave_role : n.slave.config.local_role = .Slave
  master_peer : n.master.state ≠ .Unpaired → n.master.peer_mac = n.slave.local_mac
  slave_peer : n.slave.state ≠ .Unpaired → n.slave.peer_mac = n.master.local_mac
  master_sound : n.master.StoreSound
  slave_sound : n.slave.StoreSound
  master_held : n.master.state = .Secured → n.master.Persisted
  slave_held : n.slave.state = .Secured → n.slave.Persisted
  slave_phase : n.slave.state = .Pairing → n.slave.pair_phase = .SlaveWaitConfirm
  master_init : n.master.state ≠ .Unpaired →
    ∃ nonce, lastInit n.air n.master.corr_id = some (n.master.current_seed, nonce) ∧
      (n.master.state = .Pairing → nonce = n.master.pairing_nonce) ∧
      (n.master.KeyInstalled → deriveLmkFromSeed n.master.crypto n.master.current_seed
        n.master.local_mac n.slave.local_mac nonce = some n.master.current_lmk)
  slave_key : n.slave.state = .Secured →
    n.slave.slaveKey n.master.local_mac = some n.slave.current_lmk
  answered : ∀ later t earlier, n.air = later ++ t :: earlier → Presumes t →
    (∀ u ∈ later, ¬ u.Begins t.corr_id) → n.Synced t.corr_id
  installed : n.master.KeyInstalled → n.Synced n.master.corr_id

/-- What the air and the slave tell about a message that is taken up. -/
def Vouched (n : PairNet) : PairingInput → Prop
  | .pairInit _ corr_id seed nonce => lastInit n.air corr_id = some (seed, nonce)
  | .pairInitAck _ corr_id _ | .pairConfirm _ corr_id _ | .pairConfirmAck _ corr_id _ =>
    n.Synced corr_id
  | _ => True

theorem Inv.keysAgree {n : PairNet} (h : n.Inv) : n.KeysAgree := by
  intro hm hs hcorr
  have hinstalled : n.master.KeyInstalled := .inl hm
  obtain ⟨nonce, hinit, -, hkey⟩ := h.master_init (by simp [hm])
  have hsync := h.installed hinstalled (by simp [hs]) hcorr.symm
  obtain ⟨hseed, rfl⟩ := Prod.mk.inj (Option.some.inj (hinit.symm.trans hsync))
  have hslave := h.slave_key hs
  rw [slaveKey, h.crypto, ← hseed, hkey hinstalled] at hslave
  have hlmk := Option.some.inj hslave
  obtain ⟨s, hstore, hheld⟩ := h.slave_held hs
  obtain ⟨s', hstore', hheld'⟩ := h.master_held hm
  rw [h.slave_peer (by simp [hs]), ← hlmk] at hheld
  rw [h.master_peer (by simp [hm])] at hheld'
  exact ⟨_, hkey hinstalled, hseed.symm, rfl, hlmk.symm, ⟨s', hstore', hheld'⟩, s, hstore, hheld⟩

theorem inv_start {n : PairNet} (h : n.Booted) : n.Inv := by
  have hunpaired {e : PairingEngine} (he : e.Booted) : e.state = .Unpaired ∧ e.StoreSound := by
    have hinv := (PairingTrace.inv_start he).link.sound
    obtain ⟨_, _, _, _, _, _, _, _, rfl, -⟩ := he
    exact ⟨rfl, hinv⟩
  obtain ⟨hm, hmsound⟩ := hunpaired h.master
  obtain ⟨hs, hssound⟩ := hunpaired h.slave
  constructor
  case crypto => exact h.crypto
  case master_role => exact h.master_role
  case slave_role => exact h.slave_role
  case master_sound => exact hmsound
  case slave_sound => exact hssound
  case answered =>
    intro later t earlier hair
    simp [h.air] at hair
  case installed => simp [KeyInstalled, hm]
  all_goals simp [hm, hs]

/-! New frames on the air. -/

theorem mem_sentBy {sender : Role} {e t : PairingEngine} {P : SentFrame → Prop} (h : e.Emits t P)
    {u : Transmission} (hu : u ∈ sentBy sender e t) : P u.frame := by
  obtain ⟨new, hsent, hnew⟩ := h
  simp only [sentBy, hsent, List.drop_left, List.mem_reverse, List.mem_map] at hu
  obtain ⟨f, hf, rfl⟩ := hu
  exact hnew f hf

theorem sentBy_single {sender : Role} {e t : PairingEngine} {f : SentFrame}
    (h : t.platform.sent = e.platform.sent ++ [f]) : sentBy sender e t = [⟨sender, f⟩] := by
  simp [sentBy, h]

theorem lastInit_append (new : List Transmission) {air : List Transmission} {corr_id : UInt32}
    (h : ∀ u ∈ new, ¬ u.Begins corr_id) : lastInit (new ++ air) corr_id = lastInit air corr_id := by
  have hnone : new.findSome? (·.initOf corr_id) = none :=
    List.findSome?_eq_none_iff.mpr fun u hu => if_neg (h u hu)
  rw [lastInit, List.findSome?_append, hnone, Option.none_or, lastInit]

/-- A transmission of a longer air is a new one, or an old one behind all the new ones. -/
theorem split_air {new air later earlier : List Transmission} {t : Transmission}
    (h : new ++ air = later ++ t :: earlier) :
    t ∈ new ∨ ∃ later', later = new ++ later' ∧ air = later' ++ t :: earlier := by
  rcases List.append_eq_append_iff.mp h with ⟨mid, rfl, hair⟩ | ⟨mid, rfl, hair⟩
  · exact .inr ⟨mid, rfl, hair⟩
  · cases mid with
    | nil => exact .inr ⟨[], by simp, by simpa using hair.symm⟩
    | cons u mid =>
      obtain ⟨rfl, -⟩ := List.cons.inj hair
      exact .inl (by simp)

theorem Inv.answered_append {n n' : PairNet} (h : n.Inv) (new : List Transmission)
    (hair : n'.air = new ++ n.air) (hnew : ∀ t ∈ new, Presumes t → n'.Synced t.corr_id)
    (hold : ∀ corr_id, (∀ u ∈ new, ¬ u.Begins corr_id) → n.Synced corr_id → n'.Synced corr_id)
    (later : List Transmission) (t : Transmission) (earlier : List Transmission)
    (hsplit : n'.air = later ++ t :: earlier) (ht : Presumes t)
    (hlater : ∀ u ∈ later, ¬ u.Begins t.corr_id) : n'.Synced t.corr_id := by
  rcases split_air (hair.symm.trans hsplit) with hmem | ⟨later', rfl, hair'⟩
  · exact hnew t hmem ht
  · refine hold _ (fun u hu => hlater u (by simp [hu])) ?_
    exact h.answered later' t earlier hair' ht fun u hu => hlater u (by simp [hu])

theorem not_begins_of_quiet {e t : PairingEngine} {sender : Role} (h : e.Emits t e.Quiet)
    {u : Transmission} (hu : u ∈ sentBy sender e t) (corr_id : UInt32) : ¬ u.Begins corr_id := by
  rintro ⟨htype, -⟩
  have hconfirm := mem_sentBy h hu (by rw [htype]; rfl)
  exact absurd (htype.symm.trans hconfirm.1) (by simp)

/-- The slave's values seen from a network in which only the master and the air have changed. -/
theorem Synced.of_same {n : PairNet} {corr_id : UInt32} (h : n.Synced corr_id) (n' : PairNet)
    (hslave : n'.slave = n.slave) (hair : lastInit n'.air corr_id = lastInit n.air corr_id) :
    n'.Synced corr_id := by
  unfold Synced
  rw [hslave, hair]
  exact h

/-! Steps of the master. -/

theorem lastInit_quiet {n : PairNet} {m : PairingEngine} (hm : n.master.Emits m n.master.Quiet)
    (corr_id : UInt32) : lastInit (n.withMaster m).air corr_id = lastInit n.air corr_id :=
  lastInit_append _ fun _ hu => not_begins_of_quiet hm hu corr_id

/-- A confirm on its way keeps what the installed key stands for. -/
theorem Inv.answered_quiet {n : PairNet} (h : n.Inv) {m : PairingEngine}
    (hm : n.master.Emits m n.master.Quiet) (later : List Transmission) (t : Transmission)
    (earlier : List Transmission) (hsplit : (n.withMaster m).air = later ++ t :: earlier)
    (ht : Presumes t) (hlater : ∀ u ∈ later, ¬ u.Begins t.corr_id) :
    (n.withMaster m).Synced t.corr_id := by
  refine h.answered_append (sentBy .Master n.master m) rfl ?_ ?_ later t earlier hsplit ht
    hlater
  · intro u hu hpresumes
    have hhand : u.frame.header.type.isHandshake = true := by
      rcases hpresumes with h | h | h <;> rw [h] <;> rfl
    obtain ⟨-, hcorr, hstate, hphase⟩ := mem_sentBy hm hu hhand
    have hsync := h.installed (.inr ⟨hstate, h.master_role, .inl hphase⟩)
    rw [Transmission.corr_id, hcorr]
    exact hsync.of_same _ rfl (lastInit_quiet hm _)
  · exact fun c _ hsync => hsync.of_same _ rfl (lastInit_quiet hm c)

theorem Inv.master_holds {n : PairNet} (h : n.Inv) {m : PairingEngine} (hm : Holds n.master m) :
    (n.withMaster m).Inv := by
  have hkey : m.KeyInstalled → n.master.KeyInstalled := by
    rintro (hs | ⟨hs, hrole, hphase⟩)
    · exact .inl (hm.state.symm.trans hs)
    · refine .inr ⟨hm.state.symm.trans hs, h.master_role, ?_⟩
      rcases hm.pair_phase with hp | ⟨hp, -⟩
      · exact hphase.imp hp.symm.trans hp.symm.trans
      · exact .inl hp
  exact {
    crypto := h.crypto.trans hm.crypto.symm
    master_role := (congrArg _ hm.config).trans h.master_role
    slave_role := h.slave_role
    master_peer := fun hs => hm.peer_mac.trans (h.master_peer (hm.state ▸ hs))
    slave_peer := fun hs => (h.slave_peer hs).trans hm.local_mac.symm
    master_sound := hm.sound h.master_sound
    slave_sound := h.slave_sound
    master_held := by
      intro hs
      have hs : n.master.state = .Secured := hm.state.symm.trans hs
      exact hm.held hs (h.master_held hs)
    slave_held := h.slave_held
    slave_phase := h.slave_phase
    master_init := by
      intro hs
      obtain ⟨nonce, hinit, hn, hlmk⟩ := h.master_init (hm.state ▸ hs)
      refine ⟨nonce, ?_, fun hp => ?_, fun hk => ?_⟩
      · rw [lastInit_quiet hm.emits]
        change lastInit n.air m.corr_id = some (m.current_seed, nonce)
        rw [hm.corr_id, hm.current_seed, hinit]
      · exact (hn (hm.state.symm.trans hp)).trans hm.pairing_nonce.symm
      · change deriveLmkFromSeed m.crypto m.current_seed m.local_mac n.slave.local_mac nonce =
          some m.current_lmk
        rw [hm.crypto, hm.current_seed, hm.local_mac, hm.current_lmk]
        exact hlmk (hkey hk)
    slave_key := by
      intro hs
      change n.slave.slaveKey m.local_mac = some n.slave.current_lmk
      rw [hm.local_mac]
      exact h.slave_key hs
    answered := h.answered_quiet hm.emits
    installed := by
      intro hk
      have hsync := (h.installed (hkey hk)).of_same (n.withMaster m) rfl
        (lastInit_quiet hm.emits _)
      change (n.withMaster m).Synced m.corr_id
      rwa [hm.corr_id] }

theorem Inv.master_ends {n : PairNet} (h : n.Inv) {m : PairingEngine}
    (hm : Ends n.master m n.master.Quiet) : (n.withMaster m).Inv := by
  have hunpaired : (n.withMaster m).master.state = .Unpaired := hm.state
  exact {
    crypto := h.crypto.trans hm.crypto.symm
    master_role := (congrArg _ hm.config).trans h.master_role
    slave_role := h.slave_role
    master_peer := fun hs => absurd hunpaired hs
    slave_peer := fun hs => (h.slave_peer hs).trans hm.local_mac.symm
    master_sound := hm.sound h.master_sound
    slave_sound := h.slave_sound
    master_held := by simp [hunpaired]
    slave_held := h.slave_held
    slave_phase := h.slave_phase
    master_init := fun hs => absurd hunpaired hs
    slave_key := by
      intro hs
      change n.slave.slaveKey m.local_mac = some n.slave.current_lmk
      rw [hm.local_mac]
      exact h.slave_key hs
    answered := h.answered_quiet hm.emits
    installed := by simp [KeyInstalled, hunpaired] }

/-- A new attempt has an init of its own, and nothing that presumes it is on the air yet. -/
theorem Inv.master_asks {n : PairNet} (h : n.Inv) {m : PairingEngine}
    (hm : Asks n.slave.local_mac n.master m) : (n.withMaster m).Inv := by
  obtain ⟨f, hsent, -, htype, hcorr, hpayload⟩ := hm.sent
  have hair : (n.withMaster m).air = ⟨.Master, f⟩ :: n.air := by
    unfold withMaster
    rw [sentBy_single hsent]
    rfl
  have hinit : (⟨.Master, f⟩ : Transmission).initOf m.corr_id =
      some (m.current_seed, m.pairing_nonce) := by
    rw [Transmission.initOf, if_pos ⟨htype, hcorr⟩, hpayload]
    simp [parsePairInitPayload_pairInitPayload]
  have hopen : ¬ m.KeyInstalled := by
    rintro (hs | ⟨-, -, hp | hp⟩)
    · exact absurd (hm.state.symm.trans hs) (by simp)
    · exact absurd (hm.pair_phase.symm.trans hp) (by simp)
    · exact absurd (hm.pair_phase.symm.trans hp) (by simp)
  exact {
    crypto := h.crypto.trans hm.crypto.symm
    master_role := (congrArg _ hm.config).trans h.master_role
    slave_role := h.slave_role
    master_peer := fun _ => hm.peer_mac
    slave_peer := fun hs => (h.slave_peer hs).trans hm.local_mac.symm
    master_sound := hm.sound h.master_sound
    slave_sound := h.slave_sound
    master_held := fun hs => absurd (hm.state.symm.trans hs) (by simp)
    slave_held := h.slave_held
    slave_phase := h.slave_phase
    master_init := by
      refine fun _ => ⟨m.pairing_nonce, ?_, fun _ => rfl, fun hk => absurd hk hopen⟩
      have hlast : lastInit (⟨.Master, f⟩ :: n.air) m.corr_id =
          some (m.current_seed, m.pairing_nonce) := by
        simp [lastInit, hinit]
      rw [hair]
      exact hlast
    slave_key := by
      intro hs
      change n.slave.slaveKey m.local_mac = some n.slave.current_lmk
      rw [hm.local_mac]
      exact h.slave_key hs
    answered := by
      refine h.answered_append [⟨.Master, f⟩] hair ?_ ?_
      · intro u hu hpresumes
        obtain rfl := List.mem_singleton.mp hu
        rcases hpresumes with hp | hp | hp <;> exact absurd (htype.symm.trans hp) (by simp)
      · intro c hc hsync
        exact hsync.of_same _ rfl (by rw [hair]; exact lastInit_append [_] hc)
    installed := fun hk => absurd hk hopen }

/-- At an init ack the slave has the values of the attempt, and the master derives its key. -/
theorem Inv.master_keys {n : PairNet} (h : n.Inv) {m : PairingEngine} {c : UInt32}
    (hm : Keys n.slave.local_mac c n.master m) (hsync : n.Synced c) : (n.withMaster m).Inv := by
  obtain ⟨-, hpairing, -, rfl⟩ := hm.expects
  have hactive : n.master.state ≠ .Unpaired := by simp [hpairing]
  exact {
    crypto := h.crypto.trans hm.crypto.symm
    master_role := (congrArg _ hm.config).trans h.master_role
    slave_role := h.slave_role
    master_peer := fun _ => hm.peer_mac.trans (h.master_peer hactive)
    slave_peer := fun hs => (h.slave_peer hs).trans hm.local_mac.symm
    master_sound := hm.sound h.master_sound
    slave_sound := h.slave_sound
    master_held := fun hs => absurd (hm.state.symm.trans hs) (by simp)
    slave_held := h.slave_held
    slave_phase := h.slave_phase
    master_init := by
      obtain ⟨nonce, hinit, hn, -⟩ := h.master_init hactive
      refine fun _ => ⟨nonce, ?_, fun _ => (hn hpairing).trans hm.pairing_nonce.symm, fun _ => ?_⟩
      · rw [lastInit_quiet hm.emits]
        change lastInit n.air m.corr_id = some (m.current_seed, nonce)
        rw [hm.corr_id, hm.current_seed, hinit]
      · change deriveLmkFromSeed m.crypto m.current_seed m.local_mac n.slave.local_mac nonce =
          some m.current_lmk
        rw [hm.crypto, hm.current_seed, hm.local_mac, hn hpairing]
        exact hm.key
    slave_key := by
      intro hs
      change n.slave.slaveKey m.local_mac = some n.slave.current_lmk
      rw [hm.local_mac]
      exact h.slave_key hs
    answered := h.answered_quiet hm.emits
    installed := by
      intro _
      change (n.withMaster m).Synced m.corr_id
      rw [hm.corr_id]
      exact hsync.of_same _ rfl (lastInit_quiet hm.emits _) }

theorem Inv.master_concludes {n : PairNet} (h : n.Inv) {m : PairingEngine} {c : UInt32}
    (hm : Concludes c n.master m) : (n.withMaster m).Inv := by
  obtain ⟨hrole, hpairing, hphase, -⟩ := hm.expects
  have hactive : n.master.state ≠ .Unpaired := by simp [hpairing]
  have hkey : n.master.KeyInstalled := .inr ⟨hpairing, hrole, .inr hphase⟩
  exact {
    crypto := h.crypto.trans hm.crypto.symm
    master_role := (congrArg _ hm.config).trans h.master_role
    slave_role := h.slave_role
    master_peer := fun _ => hm.peer_mac.trans (h.master_peer hactive)
    slave_peer := fun hs => (h.slave_peer hs).trans hm.local_mac.symm
    master_sound := hm.sound h.master_sound
    slave_sound := h.slave_sound
    master_held := fun _ => hm.persisted h.master_sound
    slave_held := h.slave_held
    slave_phase := h.slave_phase
    master_init := by
      obtain ⟨nonce, hinit, -, hlmk⟩ := h.master_init hactive
      refine fun _ => ⟨nonce, ?_, fun hp => absurd (hm.state.symm.trans hp) (by simp), fun _ => ?_⟩
      · rw [lastInit_quiet hm.emits]
        change lastInit n.air m.corr_id = some (m.current_seed, nonce)
        rw [hm.corr_id, hm.current_seed, hinit]
      · change deriveLmkFromSeed m.crypto m.current_seed m.local_mac n.slave.local_mac nonce =
          some m.current_lmk
        rw [hm.crypto, hm.current_seed, hm.local_mac, hm.current_lmk]
        exact hlmk hkey
    slave_key := by
      intro hs
      change n.slave.slaveKey m.local_mac = some n.slave.current_lmk
      rw [hm.local_mac]
      exact h.slave_key hs
    answered := h.answered_quiet hm.emits
    installed := by
      intro _
      change (n.withMaster m).Synced m.corr_id
      rw [hm.corr_id]
      exact (h.installed hkey).of_same _ rfl (lastInit_quiet hm.emits _) }

theorem Inv.stepMaster {n : PairNet} (h : n.Inv) {i : PairingInput}
    (hi : i.About n.slave.local_mac) (hv : TakesUp n.master i → n.Vouched i) :
    (n.stepMaster i).Inv := by
  have hslave : n.master.config.local_role ≠ .Slave := by simp [h.master_role]
  cases n.master.step_cases hi h.master_peer with
  | wanes hw => exact hw.elim h.master_holds h.master_ends
  | asks ha => exact h.master_asks ha
  | drops role hd => exact absurd role hslave
  | answers c seed nonce hi ha => exact absurd ha.takes.1 hslave
  | keys c hi hk =>
    subst hi
    exact h.master_keys hk (hv ⟨hk.expects, rfl⟩)
  | completes c hi hc => exact absurd hc.expects.1 hslave
  | concludes c hi hc => exact h.master_concludes hc

/-! Steps of the slave. -/

/-- The master's side of the invariant does not look at the slave's values. -/
structure SlaveSide (n : PairNet) (s : PairingEngine) : Prop where
  node : SameNode n.slave s
  peer : s.state ≠ .Unpaired → s.peer_mac = n.master.local_mac
  sound : s.StoreSound
  held : s.state = .Secured → s.Persisted
  phase : s.state = .Pairing → s.pair_phase = .SlaveWaitConfirm
  key : s.state = .Secured → s.slaveKey n.master.local_mac = some s.current_lmk
  begins : ∀ u ∈ sentBy .Slave n.slave s, ∀ corr_id, ¬ u.Begins corr_id
  presumes : ∀ u ∈ sentBy .Slave n.slave s, Presumes u → (n.withSlave s).Synced u.corr_id
  synced : ∀ corr_id, n.Synced corr_id → (n.withSlave s).Synced corr_id

theorem Inv.withSlave {n : PairNet} (h : n.Inv) {s : PairingEngine} (hs : n.SlaveSide s) :
    (n.withSlave s).Inv where
  crypto := hs.node.crypto.trans h.crypto
  master_role := h.master_role
  slave_role := (congrArg _ hs.node.config).trans h.slave_role
  master_peer := fun hm => (h.master_peer hm).trans hs.node.local_mac.symm
  slave_peer := hs.peer
  master_sound := h.master_sound
  slave_sound := hs.sound
  master_held := h.master_held
  slave_held := hs.held
  slave_phase := hs.phase
  master_init := by
    intro hm
    obtain ⟨nonce, hinit, hn, hlmk⟩ := h.master_init hm
    refine ⟨nonce, ?_, hn, fun hk => ?_⟩
    · exact (lastInit_append _ fun u hu => hs.begins u hu _).trans hinit
    · change deriveLmkFromSeed n.master.crypto n.master.current_seed n.master.local_mac s.local_mac
        nonce = some n.master.current_lmk
      rw [hs.node.local_mac]
      exact hlmk hk
  slave_key := hs.key
  answered := h.answered_append _ rfl hs.presumes fun c _ => hs.synced c
  installed := fun hk => hs.synced _ (h.installed hk)

/-- Without a link nothing is asked of the slave's values. -/
theorem SlaveSide.of_ends {n : PairNet} (h : n.Inv) {s : PairingEngine} {P : SentFrame → Prop}
    (hs : Ends n.slave s P) (hP : ∀ f, P f → f.header.type ≠ .PairInit) : n.SlaveSide s := by
  have hfree (c : UInt32) : (n.withSlave s).Synced c := fun ha => absurd hs.state ha
  exact {
    node := hs.toSameNode
    peer := fun ha => absurd hs.state ha
    sound := hs.sound h.slave_sound
    held := by simp [hs.state]
    phase := by simp [hs.state]
    key := by simp [hs.state]
    begins := fun u hu c hb => hP _ (mem_sentBy hs.emits hu) hb.1
    presumes := fun u _ _ => hfree _
    synced := fun c _ => hfree c }

/-- A slave that goes on as it was sends no message of the handshake. -/
theorem SlaveSide.of_holds {n : PairNet} (h : n.Inv) {s : PairingEngine} (hs : Holds n.slave s) :
    n.SlaveSide s := by
  have hplain {u : Transmission} (hu : u ∈ sentBy .Slave n.slave s) :
      u.frame.header.type.isHandshake ≠ true := by
    intro hhand
    obtain ⟨-, -, hstate, hphase⟩ := mem_sentBy hs.emits hu hhand
    exact absurd ((h.slave_phase hstate).symm.trans hphase) (by simp)
  have hbegins (u : Transmission) (hu : u ∈ sentBy .Slave n.slave s) (c : UInt32) :
      ¬ u.Begins c := fun hb => hplain hu (by rw [hb.1]; rfl)
  refine ⟨hs.toSameNode, fun ha => ?_, hs.sound h.slave_sound, fun hsec => ?_, fun hp => ?_,
    fun hsec => ?_, hbegins, fun u hu hpresumes => ?_, fun c hsync => ?_⟩
  · exact hs.peer_mac.trans (h.slave_peer (hs.state ▸ ha))
  · have hsec : n.slave.state = .Secured := hs.state.symm.trans hsec
    exact hs.held hsec (h.slave_held hsec)
  · have hp : n.slave.state = .Pairing := hs.state.symm.trans hp
    rcases hs.pair_phase with hphase | ⟨hguard, -⟩
    · exact hphase.trans (h.slave_phase hp)
    · exact absurd ((h.slave_phase hp).symm.trans hguard) (by simp)
  · rw [slaveKey, hs.crypto, hs.current_seed, hs.local_mac, hs.pairing_nonce, hs.current_lmk]
    exact h.slave_key (hs.state.symm.trans hsec)
  · refine absurd ?_ (hplain hu)
    rcases hpresumes with hp | hp | hp <;> rw [hp] <;> rfl
  · intro ha hcorr
    have hlast : lastInit (n.withSlave s).air c = lastInit n.air c :=
      lastInit_append _ fun u hu => hbegins u hu c
    change lastInit (n.withSlave s).air c = some (s.current_seed, s.pairing_nonce)
    rw [hlast, hs.current_seed, hs.pairing_nonce]
    exact hsync (hs.state ▸ ha) (hs.corr_id.symm.trans hcorr)

theorem SlaveSide.of_answers {n : PairNet} (h : n.Inv) {s : PairingEngine} {c : UInt32}
    {seed : PairSeed} {nonce : UInt32}
    (hs : Answers n.master.local_mac c seed nonce n.slave s)
    (hlast : lastInit n.air c = some (seed, nonce)) : n.SlaveSide s := by
  have hbegins (u : Transmission) (hu : u ∈ sentBy .Slave n.slave s) (c : UInt32) :
      ¬ u.Begins c := by
    rintro ⟨htype, -⟩
    have hack := (mem_sentBy hs.emits hu (by rw [htype]; rfl)).1
    exact absurd (htype.symm.trans hack) (by simp)
  have hsynced (c' : UInt32) : (n.withSlave s).Synced c' := by
    rintro - hcorr
    obtain rfl : c = c' := hs.corr_id.symm.trans hcorr
    change lastInit (sentBy .Slave n.slave s ++ n.air) c = some (s.current_seed, s.pairing_nonce)
    rw [lastInit_append _ fun u hu => hbegins u hu c, hlast, hs.current_seed, hs.pairing_nonce]
  exact {
    node := hs.toSameNode
    peer := fun _ => hs.peer_mac
    sound := hs.sound h.slave_sound
    held := fun hsec => absurd (hs.state.symm.trans hsec) (by simp)
    phase := fun _ => hs.pair_phase
    key := fun hsec => absurd (hs.state.symm.trans hsec) (by simp)
    begins := hbegins
    presumes := fun u _ _ => hsynced _
    synced := fun c _ => hsynced c }

/-- A confirm of the current attempt leaves the slave secured with the values of the attempt. -/
theorem SlaveSide.of_completes {n : PairNet} (h : n.Inv) {s : PairingEngine} {c : UInt32}
    (hs : Completes n.master.local_mac c n.slave s) (hsync : n.Synced c) : n.SlaveSide s := by
  obtain ⟨-, hpairing, -, rfl⟩ := hs.expects
  have hactive : n.slave.state ≠ .Unpaired := by simp [hpairing]
  have hack {u : Transmission} (hu : u ∈ sentBy .Slave n.slave s)
      (hhand : u.frame.header.type.isHandshake = true) :
      u.frame.header.type = .PairConfirmAck ∧ u.corr_id = n.slave.corr_id :=
    mem_sentBy hs.emits hu hhand
  have hbegins (u : Transmission) (hu : u ∈ sentBy .Slave n.slave s) (c : UInt32) :
      ¬ u.Begins c := by
    rintro ⟨htype, -⟩
    exact absurd (htype.symm.trans (hack hu (by rw [htype]; rfl)).1) (by simp)
  have hkept (c : UInt32) (hold : n.Synced c) : (n.withSlave s).Synced c := by
    intro _ hcorr
    change lastInit (sentBy .Slave n.slave s ++ n.air) c = some (s.current_seed, s.pairing_nonce)
    rw [lastInit_append _ fun u hu => hbegins u hu c, hs.current_seed, hs.pairing_nonce]
    exact hold hactive (hs.corr_id.symm.trans hcorr)
  refine ⟨hs.toSameNode, fun _ => hs.peer_mac.trans (h.slave_peer hactive), hs.sound h.slave_sound,
    fun _ => hs.persisted h.slave_sound, fun hp => absurd (hs.state.symm.trans hp) (by simp),
    fun _ => ?_, hbegins, fun u hu hpresumes => ?_, hkept⟩
  · rw [slaveKey, hs.crypto, hs.current_seed, hs.local_mac, hs.pairing_nonce]
    exact hs.key
  · have hhand : u.frame.header.type.isHandshake = true := by
      rcases hpresumes with hp | hp | hp <;> rw [hp] <;> rfl
    rw [(hack hu hhand).2]
    exact hkept _ hsync

theorem Inv.stepSlave {n : PairNet} (h : n.Inv) {i : PairingInput}
    (hi : i.About n.master.local_mac) (hv : TakesUp n.slave i → n.Vouched i) :
    (n.stepSlave i).Inv := by
  have hmaster : n.slave.config.local_role ≠ .Master := by simp [h.slave_role]
  refine h.withSlave ?_
  cases n.slave.step_cases hi h.slave_peer with
  | wanes hw =>
    refine hw.elim (.of_holds h) fun hs => .of_ends h hs ?_
    intro f hf htype
    exact absurd (htype.symm.trans (hf (by rw [htype]; rfl)).1) (by simp)
  | asks ha => exact absurd ha.role hmaster
  | drops role hd => exact .of_ends h hd fun f hf => hf
  | answers c seed nonce hi ha =>
    subst hi
    exact .of_answers h ha (hv ha.takes)
  | keys c hi hk => exact absurd hk.expects.1 hmaster
  | completes c hi hc =>
    subst hi
    exact .of_completes h hc (hv ⟨hc.expects, rfl⟩)
  | concludes c hi hc => exact absurd hc.expects.1 hmaster

/-! Deliveries. -/

/-- What the receiver of a frame knows about it. -/
theorem controlInput_cases {profile : UInt8} {sender : MacAddress} {frame : SentFrame}
    {i : PairingInput} (h : controlInput profile sender frame = some i) :
    i.About sender ∧ match i with
      | .pairInit _ c seed nonce => frame.header.type = .PairInit ∧
          frame.header.correlation_id = c ∧
          (frame.effectivePayload.bind parsePairInitPayload).map (fun init => (init.1, init.2.1)) =
            some (seed, nonce)
      | .pairInitAck _ c _ => frame.header.type = .PairInitAck ∧ frame.header.correlation_id = c
      | .pairConfirm _ c _ => frame.header.type = .PairConfirm ∧ frame.header.correlation_id = c
      | .pairConfirmAck _ c _ =>
          frame.header.type = .PairConfirmAck ∧ frame.header.correlation_id = c
      | _ => True := by
  unfold controlInput at h
  obtain ⟨payload, hpayload, h⟩ := Option.bind_eq_some_iff.mp h
  cases htype : frame.header.type <;> rw [htype] at h <;> dsimp only at h
  case PairInit =>
    obtain ⟨⟨seed, nonce, target⟩, hparse, h⟩ := Option.bind_eq_some_iff.mp h
    dsimp only at h
    split at h
    · obtain rfl := Option.some.inj h
      exact ⟨rfl, rfl, rfl, by simp [hpayload, hparse]⟩
    · simp at h
  case PairInitAck =>
    obtain ⟨_, _, rfl⟩ := Option.map_eq_some_iff.mp h
    exact ⟨rfl, rfl, rfl⟩
  case PairConfirm =>
    obtain ⟨_, _, rfl⟩ := Option.map_eq_some_iff.mp h
    exact ⟨rfl, rfl, rfl⟩
  case PairConfirmAck =>
    obtain ⟨_, _, rfl⟩ := Option.map_eq_some_iff.mp h
    exact ⟨rfl, rfl, rfl⟩
  case ChannelSwitchPrepare =>
    obtain ⟨_, _, rfl⟩ := Option.map_eq_some_iff.mp h
    exact ⟨rfl, trivial⟩
  all_goals
    first
    | (obtain rfl := Option.some.inj h; exact ⟨rfl, trivial⟩)
    | simp at h

theorem received_cases {n : PairNet} {t : Transmission} {i : PairingInput}
    (h : n.received t = some i) :
    (t.sender = .Master ∧ controlInput n.slave_profile n.master.local_mac t.frame = some i) ∨
      (t.sender = .Slave ∧ controlInput n.master_profile n.slave.local_mac t.frame = some i) := by
  unfold received at h
  split at h <;> split at h
  · exact .inl ⟨by assumption, h⟩
  · simp at h
  · exact .inr ⟨by assumption, h⟩
  · simp at h

/-- A message that no later attempt has overtaken speaks for the latest one. -/
theorem Inv.vouched {n : PairNet} (h : n.Inv) {k : Nat} {t : Transmission} {i : PairingInput}
    {profile : UInt8} {sender : MacAddress} (hk : n.air[k]? = some t)
    (hi : controlInput profile sender t.frame = some i)
    (hcurrent : ∀ u ∈ n.air.take k, ¬ u.Begins t.corr_id) : n.Vouched i := by
  obtain ⟨hlt, hget⟩ := List.getElem?_eq_some_iff.mp hk
  have hsplit : n.air = n.air.take k ++ t :: n.air.drop (k + 1) := by
    rw [← hget, List.getElem_cons_drop, List.take_append_drop]
  have hanswered (hp : Presumes t) : n.Synced t.corr_id := h.answered _ _ _ hsplit hp hcurrent
  obtain ⟨-, hcase⟩ := controlInput_cases hi
  cases i with
  | pairInit s c seed nonce =>
    obtain ⟨htype, rfl, hvalues⟩ := hcase
    have hinit : t.initOf t.corr_id = some (seed, nonce) := by
      rw [Transmission.initOf, if_pos ⟨htype, rfl⟩, hvalues]
    change lastInit n.air t.corr_id = some (seed, nonce)
    rw [hsplit, lastInit_append _ hcurrent]
    simp [lastInit, hinit]
  | pairInitAck s c nonce =>
    obtain ⟨htype, rfl⟩ := hcase
    exact hanswered (.inl htype)
  | pairConfirm s c nonce =>
    obtain ⟨htype, rfl⟩ := hcase
    exact hanswered (.inr (.inl htype))
  | pairConfirmAck s c flag =>
    obtain ⟨htype, rfl⟩ := hcase
    exact hanswered (.inr (.inr htype))
  | _ => trivial

theorem PairingCall.about (peer : MacAddress) (call : PairingCall) :
    (call.input peer).About peer := by
  cases call <;> trivial

/-- A call of the owner is no message of the handshake. -/
theorem PairingCall.not_takesUp (e : PairingEngine) (peer : MacAddress) (call : PairingCall) :
    ¬ TakesUp e (call.input peer) := by
  cases call <;> exact id

theorem inv_step {n : PairNet} (h : n.Inv) (i : NetInput) (hok : n.CurrentOnly i) :
    (n.step i).Inv := by
  cases i with
  | master call =>
    exact h.stepMaster (PairingCall.about _ call) fun ht =>
      absurd ht (PairingCall.not_takesUp _ _ call)
  | slave call =>
    exact h.stepSlave (PairingCall.about _ call) fun ht =>
      absurd ht (PairingCall.not_takesUp _ _ call)
  | deliver k =>
    simp only [CurrentOnly] at hok
    simp only [step]
    cases hk : n.air[k]? with
    | none => exact h
    | some t =>
      rw [hk] at hok
      dsimp only at hok ⊢
      cases hi : n.received t with
      | none => exact h
      | some i =>
        rw [hi] at hok
        dsimp only at hok ⊢
        unfold stepReceiver
        rcases received_cases hi with ⟨hsender, hcontrol⟩ | ⟨hsender, hcontrol⟩ <;>
          simp only [receiver, hsender] at hok ⊢
        · exact h.stepSlave (controlInput_cases hcontrol).1 fun ht =>
            h.vouched hk hcontrol (hok ht)
        · exact h.stepMaster (controlInput_cases hcontrol).1 fun ht =>
            h.vouched hk hcontrol (hok ht)

end PairNet

open PairNet in
/-- As long as no message is taken up after the master has begun a later attempt under the same id,
both ends of a link agree on its key. -/
theorem pairing_keys_agree (n : PairNet) (hboot : n.Booted) (m : PairNet)
    (hrun : Run PairNet.step PairNet.CurrentOnly n m) : m.KeysAgree :=
  (hrun.invariant (inv_start hboot) fun _ i hx hok => inv_step hx i hok).keysAgree

namespace PairingExample

/-- A stand-in for the HMAC whose digest shows the seed and the nonce it was given. -/
def showingHmac : Crypto := ⟨fun _ data => some (Vector.ofFn fun i => data.getD (12 + i.val) 0), []⟩

def countingRandom : Platform := { alwaysOk with random := fun n => UInt8.ofNat (n + 1) }

def net : PairNet where
  master := .boot (config .Master) showingHmac countingRandom (some emptyStore) false false (mac 1) 1
  slave := .boot (config .Slave) showingHmac countingRandom (some emptyStore) false false (mac 2) 1
  master_profile := 1
  slave_profile := 1
  air := []

/-- A pairing under the id 7 in which every message arrives once. -/
def pairing : List NetInput :=
  [.master (.requestPair 7), .deliver 0, .deliver 0, .master (.tick 100), .master (.tick 300),
    .deliver 0, .deliver 0]

/-- The link is given up, and a second pairing under the id 7 goes as far as the master's confirm.
Then the confirm ack of the first pairing comes again, and its init and its confirm. -/
def repairing : List NetInput :=
  [.master (.requestUnpair 8), .deliver 0, .deliver 0, .slave (.tick 400), .slave (.tick 600),
    .master (.requestPair 7), .deliver 0, .deliver 0, .master (.tick 700), .master (.tick 900),
    .deliver 5, .deliver 8, .deliver 7]

theorem net_booted : net.Booted where
  master := ⟨_, _, _, _, _, _, _, _, rfl, by rintro s hs; obtain rfl := Option.some.inj hs; rfl⟩
  slave := ⟨_, _, _, _, _, _, _, _, rfl, by rintro s hs; obtain rfl := Option.some.inj hs; rfl⟩
  master_role := rfl
  slave_role := rfl
  crypto := rfl
  air := rfl

end PairingExample

open PairingExample in
/-- An undisturbed pairing ends with the agreed key on both sides. -/
theorem undisturbed_pairing_agrees :
    let n := pairing.foldl PairNet.step net
    (n.master.state = .Secured ∧ n.slave.state = .Secured ∧ n.master.corr_id = n.slave.corr_id) ∧
      n.KeysAgree := by
  have hadmitted : Admitted PairNet.step PairNet.CurrentOnly net pairing := by
    refine ⟨?_, ?_, ?_, ?_, ?_, ?_, ?_, trivial⟩ <;> decide +kernel
  exact ⟨by decide +kernel, pairing_keys_agree net net_booted _ (Run.of_admitted pairing hadmitted)⟩

open PairingExample in
/-- Messages of a first pairing that come again during a second one under the same id leave both
sides secured, with the key of the second on the master and that of the first on the slave. -/
theorem repeated_id_splits_keys :
    ¬ ∀ n : PairNet, n.Booted → ∀ m, Run PairNet.step (fun _ _ => True) n m → m.KeysAgree := by
  intro h
  let m := (pairing ++ repairing).foldl PairNet.step net
  have hrun : Run PairNet.step (fun _ _ => True) net m :=
    Run.of_admitted (pairing ++ repairing) (by simp [Admitted, pairing, repairing])
  have hsecured : m.master.state = .Secured ∧ m.slave.state = .Secured ∧
      m.master.corr_id = m.slave.corr_id ∧ m.master.current_lmk ≠ m.slave.current_lmk := by
    decide +kernel
  obtain ⟨hmaster, hslave, hcorr, hsplit⟩ := hsecured
  obtain ⟨key, -, -, hm, hs, -⟩ := h net net_booted m hrun hmaster hslave hcorr
  exact hsplit (hm.trans hs.symm)

end EspNowLink
