import EspNowLink.Topology.LinkKeys

namespace EspNowLink

theorem compareMac_swap_gt {a b : MacAddress} :
    compareMac a b = .gt ↔ compareMac b a = .lt := by
  unfold compareMac
  exact Std.OrientedCmp.gt_iff_lt

/-- The derivation takes the two ends in either order. -/
theorem deriveLmkFromTopologySeed_comm (crypto : Crypto) (seed : Vector UInt8 32)
    (icm_mac a b : MacAddress) (group_id : UInt8) :
    deriveLmkFromTopologySeed crypto seed icm_mac a b group_id =
      deriveLmkFromTopologySeed crypto seed icm_mac b a group_id := by
  unfold deriveLmkFromTopologySeed
  cases hab : compareMac a b with
  | lt =>
    have hba : compareMac b a = .gt := compareMac_swap_gt.mpr hab
    simp [hba]
  | gt =>
    have hba : compareMac b a = .lt := compareMac_swap_gt.mp hab
    simp [hba]
  | eq =>
    have hsame : a = b := by
      unfold compareMac at hab
      exact Std.LawfulEqCmp.compare_eq_iff_eq.mp hab
    simp [hsame]

/-- A slave as its peers know it. -/
structure TopologyDevice where
  local_profile_id : ProfileId
  local_mac : MacAddress
  master : MacAddress

namespace TopologyDevice

def linkKey (d : TopologyDevice) (crypto : Crypto) (S : TopologySnapshot) (peer : MacAddress)
    (group_id : UInt8) : Option LmkKey :=
  if peer = d.local_mac then none
  else (findTopologyGroupSeed S group_id).bind fun group_seed =>
    deriveLmkFromTopologySeed crypto group_seed d.master d.local_mac peer group_id

/-- `stageTopology` accepts `snapshot` on the device, and a commit of it commits `S`. -/
def Accepts (d : TopologyDevice) (snapshot S : TopologySnapshot) : Prop :=
  ∃ staged, validateTopologySnapshot d.local_profile_id (snapshot.withState .Staged) = .ok staged ∧
    validateTopologySnapshot d.local_profile_id ((staged.withState .Committed).withChecksum 0) = .ok S

/-- An enabled slot names the device itself. -/
def NamesItself (d : TopologyDevice) (S : TopologySnapshot) : Prop :=
  ∃ slot ∈ S.enabledSlots, slot.peer = d.local_mac

/-- No lateral peer is in two groups. -/
def OneGroupPerPeer (d : TopologyDevice) (S : TopologySnapshot) : Prop :=
  ∀ s ∈ S.enabledSlots, ∀ t ∈ S.enabledSlots, s.peer = t.peer → s.peer ≠ d.master →
    s.group_id = t.group_id

end TopologyDevice

/-- `m` runs on the device, paired with its master. -/
structure TopologyManager.RunsOn (m : TopologyManager) (d : TopologyDevice) (crypto : Crypto) :
    Prop where
  local_role : m.local_role = .Slave
  local_profile_id : m.local_profile_id = d.local_profile_id
  local_mac : m.local_mac = d.local_mac
  crypto : m.crypto = crypto
  paired_peer : m.paired_peer = some d.master
  sound : m.StoreSound

/-- A commit of `S` on the device. -/
structure TopologyManager.CommitsOn (m : TopologyManager) (d : TopologyDevice) (crypto : Crypto)
    (staged S : TopologySnapshot) : Prop where
  runs : m.RunsOn d crypto
  stages : m.topology_staged = some staged
  form : validateTopologySnapshot d.local_profile_id
    ((staged.withState .Committed).withChecksum 0) = .ok S
  ok : m.commitStagedTopology.1 = .ok ()

/-- The ways in which the peer of a slot of `S` comes to be attached under a key: at the commit of
`S`, at a restart after it, or on demand. -/
inductive AttachesUnder (crypto : Crypto) (d : TopologyDevice) (S : TopologySnapshot)
    (slot : TopologySlot) (lmk : LmkKey) : Prop where
  | commit (m : TopologyManager) (staged : TopologySnapshot) (hm : m.CommitsOn d crypto staged S)
    (hatt : m.commitStagedTopology.2.platform.attached slot.peer = some ⟨true, some lmk⟩)
  | reboot (m : TopologyManager) (staged : TopologySnapshot) (hm : m.CommitsOn d crypto staged S)
    (p : Platform) (hfresh : p.attached slot.peer = none)
    (hatt : ((m.commitStagedTopology.2.reboot p).restoreTopologySnapshots.restoreTopologyPeers
      d.master).platform.attached slot.peer = some ⟨true, some lmk⟩)
  | demand (m : TopologyManager) (hm : m.RunsOn d crypto) (hcommitted : m.topology_committed = some S)
    (hmeta : m.KeepsMeta S d.master) (hok : (m.ensureTopologyPeerReadyForSlot slot).1 = .ok ())
    (hatt : (m.ensureTopologyPeerReadyForSlot slot).2.platform.attached slot.peer
      = some ⟨true, some lmk⟩)

/-- Whichever way attaches a lateral peer, it is under one key. -/
def KeysAgree (crypto : Crypto) (d : TopologyDevice) (S : TopologySnapshot) : Prop :=
  ∀ slot ∈ S.enabledSlots, slot.peer ≠ d.master → ∀ k k', AttachesUnder crypto d S slot k →
    AttachesUnder crypto d S slot k' → k = k'

/-- Two slots by which two devices name each other, in one group with one seed. -/
structure NameEachOther (a b : TopologyDevice) (S T : TopologySnapshot) (s t : TopologySlot) :
    Prop where
  left : s ∈ S.enabledSlots
  right : t ∈ T.enabledSlots
  left_peer : s.peer = b.local_mac
  right_peer : t.peer = a.local_mac
  left_lateral : s.peer ≠ a.master
  right_lateral : t.peer ≠ b.master
  group : s.group_id = t.group_id
  seed : findTopologyGroupSeed S s.group_id = findTopologyGroupSeed T t.group_id

/-- Two devices that name each other attach each other under one key. -/
def EndsAgree (crypto : Crypto) (a b : TopologyDevice) (S T : TopologySnapshot) : Prop :=
  ∀ s t, NameEachOther a b S T s t → ∀ k k', AttachesUnder crypto a S s k →
    AttachesUnder crypto b T t k' → k = k'

namespace TopologyManager

variable {m : TopologyManager} {d : TopologyDevice} {crypto : Crypto} {S : TopologySnapshot}

theorem RunsOn.linkKey (h : m.RunsOn d crypto) : m.linkKey = d.linkKey crypto := by
  funext snapshot peer group_id
  simp only [TopologyManager.linkKey, TopologyDevice.linkKey, h.local_mac, h.paired_peer, h.crypto,
    Option.bind_some]

/-- The chosen key of a slot's peer is that of the smallest group the peer is in. -/
theorem Chosen.slot_key {choice : PeerMap (LmkKey × UInt8)}
    (h : Chosen (d.linkKey crypto S) S.slots.toList choice) {slot : TopologySlot}
    (hslot : slot ∈ S.enabledSlots) :
    ∃ lmk group_id, choice[slot.peer]? = some (lmk, group_id) ∧
      d.linkKey crypto S slot.peer group_id = some lmk ∧ group_id ≤ slot.group_id ∧
      ∃ other ∈ S.enabledSlots, other.peer = slot.peer ∧ other.group_id = group_id := by
  obtain ⟨hmem, hon⟩ := List.mem_filter.mp hslot
  obtain ⟨lmk, group_id, hget, hle⟩ := h.least slot hmem hon
  obtain ⟨other, hother, hoon, hpeer, hgroup⟩ := h.taken slot.peer lmk group_id hget
  exact ⟨lmk, group_id, hget, h.key _ _ _ hget, hle, other, List.mem_filter.mpr ⟨hother, hoon⟩,
    hpeer, hgroup⟩

theorem CommitsOn.commits {staged : TopologySnapshot} (h : m.CommitsOn d crypto staged S) :
    ∃ choice, Commits m m.commitStagedTopology.2 S choice ∧
      Chosen (d.linkKey crypto S) S.slots.toList choice := by
  obtain ⟨S', choice, hform, hcommits⟩ := commitStagedTopology_ok h.runs.local_role h.stages h.ok
  rw [h.runs.local_profile_id, h.form] at hform
  obtain rfl : S = S' := Except.ok.inj hform
  have hchosen := peerChoice_chosen hcommits.chosen
  rw [h.runs.linkKey] at hchosen
  exact ⟨choice, hcommits, hchosen⟩

theorem Chosen.not_itself {choice : PeerMap (LmkKey × UInt8)}
    (h : Chosen (d.linkKey crypto S) S.slots.toList choice) : ¬ d.NamesItself S := by
  rintro ⟨slot, hslot, hself⟩
  obtain ⟨lmk, group_id, -, hkey, -⟩ := h.slot_key hslot
  rw [TopologyDevice.linkKey, if_pos hself] at hkey
  cases hkey

theorem RunsOn.peerChoice {m' : TopologyManager} (h : m.RunsOn d crypto) (h' : m'.RunsOn d crypto)
    (T : TopologySnapshot) : m'.peerChoice T = m.peerChoice T := by
  refine peerChoice_congr ?_ T
  funext T slot
  simp only [deriveTopologySlotLmk, h.local_mac, h.paired_peer, h.crypto, h'.local_mac,
    h'.paired_peer, h'.crypto]

theorem RunsOn.lmkMeta {m' : TopologyManager} (h : m.RunsOn d crypto) (h' : m'.RunsOn d crypto) :
    m'.lmkMeta = m.lmkMeta := by
  funext T master choice
  simp only [TopologyManager.lmkMeta, h.local_mac, h.local_profile_id, h'.local_mac,
    h'.local_profile_id]

/-- A restart after a commit of `S` finds `S` committed, with the keys that the commit chose, or finds
nothing. -/
theorem CommitsOn.rebooted {staged : TopologySnapshot} (h : m.CommitsOn d crypto staged S)
    {choice : PeerMap (LmkKey × UInt8)} (hcommits : Commits m m.commitStagedTopology.2 S choice)
    (hsome : choice.isEmpty = false) (p : Platform) :
    (((m.commitStagedTopology.2.reboot p).restoreTopologySnapshots.withPaired
      (some d.master)).RunsOn d crypto) ∧
      ∀ T, (m.commitStagedTopology.2.reboot p).restoreTopologySnapshots.topology_committed = some T →
        T = S ∧ ((m.commitStagedTopology.2.reboot p).restoreTopologySnapshots.withPaired
          (some d.master)).KeepsMeta S d.master := by
  obtain ⟨hsame, -, hsound, hlmk, hstored⟩ := restoreTopologySnapshots_frame
    (m.commitStagedTopology.2.reboot_storeSound p)
  rw [reboot_metaBlob] at hlmk
  rw [reboot_metaBlob, reboot_storeEnabled, hcommits.enabled] at hstored
  have hdevice := hcommits.same
  generalize hc : m.commitStagedTopology.2 = c at *
  generalize hr : (c.reboot p).restoreTopologySnapshots = r at *
  have hruns : (r.withPaired (some d.master)).RunsOn d crypto :=
    ⟨hsame.local_role.trans (hdevice.local_role.trans h.runs.local_role),
      hsame.local_profile_id.trans (hdevice.local_profile_id.trans h.runs.local_profile_id),
      hsame.local_mac.trans (hdevice.local_mac.trans h.runs.local_mac),
      hsame.crypto.trans (hdevice.crypto.trans h.runs.crypto), rfl, hsound⟩
  refine ⟨hruns, fun T hT => ?_⟩
  obtain ⟨hon, v, stored, hv, hparse, hvalid⟩ := hstored T hT
  constructor
  · -- the snapshot is the one that the commit wrote
    rw [hcommits.snapshot h.runs.sound hon, Option.some.injEq] at hv
    rw [← hv, topologySnapshotOfBlob_write, Option.some.injEq] at hparse
    have hstate : S.withState .Committed = S := by
      have hcommitted : S.state = .Committed := validated_state h.form
      rw [← hcommitted]
      rfl
    have hprofile : (c.reboot p).local_profile_id = d.local_profile_id :=
      hdevice.local_profile_id.trans h.runs.local_profile_id
    rw [← hparse, hstate, hprofile, validated_again h.form] at hvalid
    exact (Except.ok.inj hvalid).symm
  · intro saved hload hcheck
    have hpaired : (r.withPaired (some d.master)).StoreSound := hsound
    obtain ⟨-, v, hv, hparse⟩ := (loadTopologyLmkMeta_frame _).2 hpaired saved hload
    obtain ⟨master, hmaster, hsize, hblob⟩ := hcommits.keys h.runs.sound hon hsome
    have hkept : (r.withPaired (some d.master)).metaBlob kTopologyMetaSlotLmk =
        c.metaBlob kTopologyMetaSlotLmk := hlmk
    rw [hkept, hblob, Option.some.injEq] at hv
    have hentries : (m.lmkMeta S master choice).entries.length ≤ 255 := by
      simpa [TopologyManager.lmkMeta] using hsize
    rw [← hv, lmkMetaOfBlob_write hentries] at hparse
    obtain rfl : d.master = master := Option.some.inj (h.runs.paired_peer.symm.trans hmaster)
    refine ⟨choice, (h.runs.peerChoice hruns S).trans hcommits.chosen, ?_⟩
    rw [h.runs.lmkMeta hruns]
    exact (Except.ok.inj hparse).symm

/-- The key a slot's peer is attached under is that of one of the peer's groups: of the smallest, or
of the slot's own. -/
theorem AttachesUnder.key {slot : TopologySlot} {k : LmkKey} (h : AttachesUnder crypto d S slot k)
    (hslot : slot ∈ S.enabledSlots) (hpeer : slot.peer ≠ d.master) :
    ∃ other ∈ S.enabledSlots, other.peer = slot.peer ∧
      d.linkKey crypto S slot.peer other.group_id = some k ∧ (other = slot ∨ ¬ d.NamesItself S) := by
  have hof {choice : PeerMap (LmkKey × UInt8)} (hchosen : Chosen (d.linkKey crypto S) S.slots.toList
      choice) {group_id : UInt8} (hget : choice[slot.peer]? = some (k, group_id)) :
      ∃ other ∈ S.enabledSlots, other.peer = slot.peer ∧
        d.linkKey crypto S slot.peer other.group_id = some k ∧
        (other = slot ∨ ¬ d.NamesItself S) := by
    obtain ⟨lmk, group_id', hget', hkey, -, other, hother, hopeer, hgroup⟩ := hchosen.slot_key hslot
    rw [hget, Option.some.injEq, Prod.mk.injEq] at hget'
    rw [← hgroup, ← hget'.1] at hkey
    exact ⟨other, hother, hopeer, hkey, .inr hchosen.not_itself⟩
  cases h with
  | commit m staged hm hatt =>
    obtain ⟨choice, hcommits, hchosen⟩ := hm.commits
    obtain ⟨lmk, group_id, hget, -⟩ := hchosen.slot_key hslot
    have hactive : m.paired_peer ≠ some slot.peer := by
      rw [hm.runs.paired_peer]
      exact fun heq => hpeer (Option.some.inj heq).symm
    have hlmk := hcommits.attached slot.peer lmk group_id hget hactive
    rw [hatt, Option.some.injEq, Attachment.mk.injEq, Option.some.injEq] at hlmk
    rw [← hlmk.2] at hget
    exact hof hchosen hget
  | reboot m staged hm p hfresh hatt =>
    obtain ⟨choice, hcommits, hchosen⟩ := hm.commits
    obtain ⟨lmk, group_id, hget, -⟩ := hchosen.slot_key hslot
    have hsome : choice.isEmpty = false := by
      rw [Std.TreeMap.isEmpty_eq_false_iff_exists_contains_eq_true]
      exact ⟨slot.peer, by rw [Std.TreeMap.contains_eq_isSome_getElem?, hget]; rfl⟩
    obtain ⟨hruns, hmeta⟩ := hm.rebooted hcommits hsome p
    have hkeys (T : TopologySnapshot) (choice' : PeerMap (LmkKey × UInt8)) (k' : LmkKey)
        (group_id' : UInt8)
        (hT : (m.commitStagedTopology.2.reboot p).restoreTopologySnapshots.topology_committed = some T)
        (hchoice' : ((m.commitStagedTopology.2.reboot p).restoreTopologySnapshots.withPaired
          (some d.master)).peerChoice T = .ok choice')
        (hget' : choice'[slot.peer]? = some (k', group_id')) : k' = lmk := by
      rw [(hmeta T hT).1, hm.runs.peerChoice hruns S, hcommits.chosen] at hchoice'
      rw [← Except.ok.inj hchoice', hget, Option.some.injEq, Prod.mk.injEq] at hget'
      exact hget'.1.symm
    obtain ⟨-, hplatform, -⟩ := restoreTopologySnapshots_frame
      (m.commitStagedTopology.2.reboot_storeSound p)
    have hstart : (m.commitStagedTopology.2.reboot p).restoreTopologySnapshots.platform.HeldUnder
        slot.peer lmk := by
      rw [hplatform]
      exact .inl hfresh
    have hheld := restoreTopologyPeers_held hstart
      (fun T hT => (hmeta T hT).1 ▸ (hmeta T hT).2) hkeys
    rcases hheld with hnone | hheld
    · rw [hatt] at hnone
      cases hnone
    · rw [hatt, Option.some.injEq, Attachment.mk.injEq, Option.some.injEq] at hheld
      rw [← hheld.2] at hget
      exact hof hchosen hget
  | demand m hm hcommitted hmeta hok hatt =>
    have hon : slot.enabled = true := (List.mem_filter.mp hslot).2
    obtain ⟨lmk, hlmk, hfrom⟩ := ensureTopologyPeerReadyForSlot_attached hm.local_role hon
      hm.paired_peer hpeer hcommitted hok
    rw [hatt, Option.some.injEq, Attachment.mk.injEq, Option.some.injEq] at hlmk
    rw [← hlmk.2] at hfrom
    rcases hfrom with hstored | hderived
    · obtain ⟨choice, group_id, hchoice, hget⟩ := slotLmkFromMeta_chosen hmeta hstored
      have hchosen := peerChoice_chosen hchoice
      rw [hm.linkKey] at hchosen
      exact hof hchosen hget
    · have hkey := (deriveTopologySlotLmk_ok.mp hderived).2
      rw [hm.linkKey] at hkey
      exact ⟨slot, hslot, rfl, hkey, .inl rfl⟩

end TopologyManager

/-- A platform that grants every call. -/
def Platform.Willing (p : Platform) : Prop := ∀ n, (p.answer n).ok = true

theorem Platform.Willing.attachAll {p : Platform} (h : p.Willing) (kvs : List (MacAddress × LmkKey)) :
    (p.attachAll kvs).1 = true ∧ (p.attachAll kvs).2.Willing := by
  induction kvs generalizing p with
  | nil => exact ⟨rfl, h⟩
  | cons kv kvs ih =>
    have hadd : p.addPeer kv.1 true (some kv.2) =
        (true, { p.next with attached := Function.update p.attached kv.1 (some ⟨true, some kv.2⟩) }) := by
      simp [addPeer, h p.calls]
    rw [Platform.attachAll, hadd]
    exact ih fun n => h n

namespace TopologyDevice

variable {d : TopologyDevice} {crypto : Crypto} {S : TopologySnapshot}

def radio : Platform where
  channel := 1
  attached := fun _ => none
  sent := []
  answer := fun _ => ⟨true, false, none⟩
  calls := 0
  random := fun _ => 0
  drawn := 0

theorem radio_willing : radio.Willing := fun _ => rfl

/-- The device without a store, on a radio that grants every call. -/
def started (d : TopologyDevice) (crypto : Crypto) (staged committed : Option TopologySnapshot) :
    TopologyManager where
  local_role := .Slave
  local_profile_id := d.local_profile_id
  local_mac := d.local_mac
  crypto := crypto
  paired_peer := some d.master
  has_peer_window := true
  platform := radio
  store := none
  topology_staged := staged
  topology_committed := committed
  topology_attached_peers := []

theorem started_runsOn (d : TopologyDevice) (crypto : Crypto)
    (staged committed : Option TopologySnapshot) : (d.started crypto staged committed).RunsOn d crypto :=
  ⟨rfl, rfl, rfl, rfl, rfl, fun s hs => by cases hs⟩

theorem started_applies (d : TopologyDevice) (crypto : Crypto)
    (staged committed : Option TopologySnapshot) (desired : PeerMap LmkKey) :
    ((d.started crypto staged committed).applyTopologyDesiredPeers desired).1 = .ok () := by
  obtain ⟨hok, -⟩ := radio_willing.attachAll
    (desired.toList.filter fun kv => some d.master ≠ some kv.1)
  rcases hp : radio.attachAll (desired.toList.filter fun kv => some d.master ≠ some kv.1) with ⟨ok, q⟩
  rw [hp] at hok
  dsimp only at hok
  subst hok
  have hp' : (d.started crypto staged committed).platform.attachAll (desired.toList.filter fun kv =>
      (d.started crypto staged committed).paired_peer ≠ some kv.1) = (true, q) := hp
  have hrole := (d.started_runsOn crypto staged committed).local_role
  unfold TopologyManager.applyTopologyDesiredPeers
  rw [if_neg (not_not.mpr hrole), if_neg (by simp [started])]
  dsimp only
  rw [hp']
  rfl

/-- A device whose slots all have keys commits. -/
theorem started_commits {staged : TopologySnapshot}
    (hform : validateTopologySnapshot d.local_profile_id
      ((staged.withState .Committed).withChecksum 0) = .ok S)
    (hkeys : ∀ slot ∈ S.enabledSlots, ∃ lmk, d.linkKey crypto S slot.peer slot.group_id = some lmk) :
    (d.started crypto (some staged) none).CommitsOn d crypto staged S where
  runs := started_runsOn d crypto _ _
  stages := rfl
  form := hform
  ok := by
    have hruns := started_runsOn d crypto (some staged) none
    rw [← hruns.linkKey] at hkeys
    obtain ⟨choice, hchoice⟩ := TopologyManager.peerChoice_total hkeys
    have hmat : ((d.started crypto (some staged) none).materializeTopologyPeers S).1 = .ok () := by
      unfold TopologyManager.materializeTopologyPeers
      rw [if_neg (not_not.mpr hruns.local_role), hchoice]
      exact started_applies _ _ _ _ _
    exact TopologyManager.commitStagedTopology_storeless hruns.local_role rfl hform rfl hmat

/-- A slot whose group has a key is attached on demand under that key. -/
theorem started_demands {slot : TopologySlot} (hslot : slot ∈ S.enabledSlots)
    (hpeer : slot.peer ≠ d.master) {lmk : LmkKey}
    (hkey : d.linkKey crypto S slot.peer slot.group_id = some lmk) :
    AttachesUnder crypto d S slot lmk := by
  have hruns := started_runsOn d crypto none (some S)
  have hon : slot.enabled = true := (List.mem_filter.mp hslot).2
  have hderive : (d.started crypto none (some S)).deriveTopologySlotLmk S slot = .ok lmk := by
    rw [TopologyManager.deriveTopologySlotLmk_ok, hruns.linkKey]
    exact ⟨hon, hkey⟩
  have hmeta : (d.started crypto none (some S)).slotLmkFromMeta S d.master slot =
      (none, d.started crypto none (some S)) := rfl
  have hrun : (d.started crypto none (some S)).ensureTopologyPeerReadyForSlot slot = (.ok (),
      ((d.started crypto none (some S)).withPlatform (radio.addPeer slot.peer true (some lmk)).2)) := by
    have hmaster : ¬ d.master = slot.peer := Ne.symm hpeer
    unfold TopologyManager.ensureTopologyPeerReadyForSlot
    rw [if_neg (not_not.mpr hruns.local_role), if_neg (by simp [hon]), if_neg (by simp [started])]
    simp only [hruns.paired_peer, if_neg hmaster]
    have hcommitted : (d.started crypto none (some S)).topology_committed = some S := rfl
    simp only [hcommitted, hmeta, hderive]
    rfl
  refine .demand _ hruns rfl ?_ (by rw [hrun]) ?_
  · intro saved hload
    cases hload
  · rw [hrun]
    exact Platform.addPeer_attached rfl

end TopologyDevice

/-- A digest that shows the master and the group that were mixed in. -/
def telling : Crypto where
  hmac := fun _ message => some (Vector.ofFn fun i =>
    if i.val = 15 then message.getD 24 0 else ((message.drop 6).take 6).getD i.val 0)
  pmk := []

theorem deriveLmkFromTopologySeed_telling (seed : Vector UInt8 32) (icm_mac a b : MacAddress)
    (group_id : UInt8) :
    deriveLmkFromTopologySeed telling seed icm_mac a b group_id = some (Vector.ofFn fun i =>
      if i.val = 15 then group_id else icm_mac.toList.getD i.val 0) := by
  have htag : kTopologyDeriveTag.length = 6 := rfl
  unfold deriveLmkFromTopologySeed
  generalize (if compareMac a b = .gt then b else a) = first
  generalize (if compareMac a b = .gt then a else b) = second
  simp only [telling, Option.map_some, Option.some.injEq]
  have hget (digest : Vector UInt8 32) (j : Fin 32) : digest.get j = digest[j.val] := rfl
  ext i hi
  simp only [Vector.getElem_ofFn, hget, Fin.val_castLE, List.append_assoc]
  split
  · simp [List.getD_eq_getElem?_getD, htag]
  · have hmaster : ((kTopologyDeriveTag ++ (icm_mac.toList ++ (first.toList ++ (second.toList ++
        [group_id])))).drop 6).take 6 = icm_mac.toList := by
      rw [List.drop_left' htag]
      exact List.take_left' (by simp)
    rw [hmaster]

theorem telling_injective {seed seed' : Vector UInt8 32} {icm_mac icm_mac' a b a' b' : MacAddress}
    {group_id group_id' : UInt8}
    (h : deriveLmkFromTopologySeed telling seed icm_mac a b group_id =
      deriveLmkFromTopologySeed telling seed' icm_mac' a' b' group_id') :
    icm_mac = icm_mac' ∧ group_id = group_id' := by
  rw [deriveLmkFromTopologySeed_telling, deriveLmkFromTopologySeed_telling, Option.some.injEq] at h
  have hbyte : ∀ i (hi : i < 16), (if i = 15 then group_id else icm_mac.toList.getD i 0) =
      if i = 15 then group_id' else icm_mac'.toList.getD i 0 := by
    intro i hi
    have hget := congrArg (fun key : LmkKey => key[i]) h
    simpa using hget
  constructor
  · ext i hi
    have hget := hbyte i (by omega)
    rw [if_neg (by omega), if_neg (by omega)] at hget
    have hmac : icm_mac[i] = icm_mac'[i] := by
      simpa [List.getD_eq_getElem?_getD, hi] using hget
    exact congrArg UInt8.toNat hmac
  · simpa using hbyte 15 (by omega)

namespace TopologyDevice

variable {d : TopologyDevice} {crypto : Crypto} {s S : TopologySnapshot}

theorem linkKey_telling (hS : d.Accepts s S) {slot : TopologySlot} (hslot : slot ∈ S.enabledSlots)
    (hself : slot.peer ≠ d.local_mac) :
    ∃ seed, d.linkKey telling S slot.peer slot.group_id =
        deriveLmkFromTopologySeed telling seed d.master d.local_mac slot.peer slot.group_id ∧
      ∃ lmk, d.linkKey telling S slot.peer slot.group_id = some lmk := by
  obtain ⟨staged, -, hform⟩ := hS
  obtain ⟨hgroup, group, hmem, hon, hid⟩ := validated_group hform hslot
  have hseed : (findTopologyGroupSeed S slot.group_id).isSome = true := by
    unfold findTopologyGroupSeed
    rw [if_neg hgroup, Option.isSome_map, List.find?_isSome]
    exact ⟨group, hmem, by simp [hon, hid]⟩
  obtain ⟨seed, hseed⟩ := Option.isSome_iff_exists.mp hseed
  have hkey : d.linkKey telling S slot.peer slot.group_id =
      deriveLmkFromTopologySeed telling seed d.master d.local_mac slot.peer slot.group_id := by
    rw [linkKey, if_neg hself, hseed, Option.bind_some]
  exact ⟨seed, hkey, _, hkey.trans (deriveLmkFromTopologySeed_telling _ _ _ _ _)⟩

/-- With one group per peer, or no commit at all, a slot's peer has the key of the slot's group. -/
theorem ownKey (h : d.NamesItself S ∨ d.OneGroupPerPeer S) {slot : TopologySlot}
    (hslot : slot ∈ S.enabledSlots) (hpeer : slot.peer ≠ d.master) {k : LmkKey}
    (hk : AttachesUnder crypto d S slot k) :
    d.linkKey crypto S slot.peer slot.group_id = some k := by
  obtain ⟨other, hother, hopeer, hlink, how⟩ :=
    TopologyManager.AttachesUnder.key hk hslot hpeer
  rcases h with hself | hone
  · rcases how with rfl | hnot
    · exact hlink
    · exact absurd hself hnot
  · have hgroup := hone other hother slot hslot hopeer (hopeer ▸ hpeer)
    rwa [hgroup] at hlink

theorem keysAgree_of_oneGroup (h : d.NamesItself S ∨ d.OneGroupPerPeer S) :
    KeysAgree crypto d S := by
  intro slot hslot hpeer k k' hk hk'
  have hown := ownKey h hslot hpeer hk
  have hown' := ownKey h hslot hpeer hk'
  exact Option.some.inj (hown.symm.trans hown')

/-- The commit's key and the demand's keys tell two groups of a peer apart. -/
theorem oneGroup_of_keysAgree (hS : d.Accepts s S) (h : KeysAgree telling d S) :
    d.NamesItself S ∨ d.OneGroupPerPeer S := by
  by_contra hnot
  obtain ⟨hself, hone⟩ := not_or.mp hnot
  have hother (slot : TopologySlot) (hslot : slot ∈ S.enabledSlots) : slot.peer ≠ d.local_mac :=
    fun hmac => hself ⟨slot, hslot, hmac⟩
  obtain ⟨staged, hstaged, hform⟩ := hS
  have hkeys (slot : TopologySlot) (hslot : slot ∈ S.enabledSlots) :
      ∃ lmk, d.linkKey telling S slot.peer slot.group_id = some lmk := by
    obtain ⟨-, -, hlmk⟩ := linkKey_telling ⟨staged, hstaged, hform⟩ hslot (hother slot hslot)
    exact hlmk
  have hcommit := started_commits hform hkeys
  obtain ⟨choice, hcommits, hchosen⟩ := hcommit.commits
  refine hone fun a ha b hb hab hlateral => ?_
  obtain ⟨lmk, group_id, hget, -⟩ := hchosen.slot_key ha
  have hpaired : (d.started telling (some staged) none).paired_peer ≠ some a.peer :=
    fun heq => hlateral (Option.some.inj heq).symm
  have hatt := hcommits.attached a.peer lmk group_id hget hpaired
  have hkey (slot : TopologySlot) (hslot : slot ∈ S.enabledSlots) (hpeer : slot.peer = a.peer) :
      d.linkKey telling S slot.peer slot.group_id = some lmk := by
    obtain ⟨own, hown⟩ := hkeys slot hslot
    have hlat : slot.peer ≠ d.master := hpeer ▸ hlateral
    have hsame := h slot hslot hlat own lmk (started_demands hslot hlat hown)
      (.commit _ staged hcommit (hpeer ▸ hatt))
    exact hsame ▸ hown
  obtain ⟨seed, hseed, -⟩ := linkKey_telling ⟨staged, hstaged, hform⟩ ha (hother a ha)
  obtain ⟨seed', hseed', -⟩ := linkKey_telling ⟨staged, hstaged, hform⟩ hb (hother b hb)
  have hsame := (hkey a ha rfl).trans (hkey b hb hab.symm).symm
  rw [hseed, hseed'] at hsame
  exact (telling_injective hsame).2

end TopologyDevice

/-- Over every keyed hash, the ways to a peer's key and the two ends of a link agree exactly when no
committed peer is in two groups and devices that name each other have one master. -/
theorem topology_keys_consistent_iff (a b : TopologyDevice) {s t S T : TopologySnapshot}
    (hS : a.Accepts s S) (hT : b.Accepts t T) :
    (∀ crypto, KeysAgree crypto a S ∧ KeysAgree crypto b T ∧ EndsAgree crypto a b S T) ↔
      (a.NamesItself S ∨ a.OneGroupPerPeer S) ∧ (b.NamesItself T ∨ b.OneGroupPerPeer T) ∧
        ∀ s t, NameEachOther a b S T s t → a.local_mac ≠ b.local_mac → a.master = b.master := by
  constructor
  · intro h
    obtain ⟨ha, hb, hends⟩ := h telling
    refine ⟨TopologyDevice.oneGroup_of_keysAgree hS ha, TopologyDevice.oneGroup_of_keysAgree hT hb, ?_⟩
    intro s t hnamed hmac
    have hs : s.peer ≠ a.local_mac := hnamed.left_peer ▸ hmac.symm
    have ht : t.peer ≠ b.local_mac := hnamed.right_peer ▸ hmac
    obtain ⟨seed, hkey, k, hk⟩ := TopologyDevice.linkKey_telling hS hnamed.left hs
    obtain ⟨seed', hkey', k', hk'⟩ := TopologyDevice.linkKey_telling hT hnamed.right ht
    have hsame := hends s t hnamed k k'
      (TopologyDevice.started_demands hnamed.left hnamed.left_lateral hk)
      (TopologyDevice.started_demands hnamed.right hnamed.right_lateral hk')
    rw [← hsame, ← hk, hkey, hkey'] at hk'
    exact (telling_injective hk').1.symm
  · rintro ⟨ha, hb, hmasters⟩ crypto
    refine ⟨TopologyDevice.keysAgree_of_oneGroup ha, TopologyDevice.keysAgree_of_oneGroup hb, ?_⟩
    intro s t hnamed k k' hk hk'
    have hown := TopologyDevice.ownKey ha hnamed.left hnamed.left_lateral hk
    have hown' := TopologyDevice.ownKey hb hnamed.right hnamed.right_lateral hk'
    rw [hnamed.left_peer] at hown
    rw [hnamed.right_peer, ← hnamed.group] at hown'
    unfold TopologyDevice.linkKey at hown hown'
    by_cases hmac : b.local_mac = a.local_mac
    · rw [if_pos hmac] at hown
      cases hown
    · rw [if_neg hmac] at hown
      have hseed : findTopologyGroupSeed T s.group_id = findTopologyGroupSeed S s.group_id := by
        rw [hnamed.seed, hnamed.group]
      rw [if_neg (Ne.symm hmac), hseed, ← hmasters s t hnamed (Ne.symm hmac)] at hown'
      simp only [deriveLmkFromTopologySeed_comm crypto _ _ b.local_mac a.local_mac] at hown'
      exact Option.some.inj (hown.symm.trans hown')

/-- A snapshot that `stageTopology` accepts can be committed, with the same slots and groups. -/
theorem TopologyDevice.accepts_of_staged {d : TopologyDevice} {snapshot staged : TopologySnapshot}
    (h : validateTopologySnapshot d.local_profile_id (snapshot.withState .Staged) = .ok staged) :
    ∃ S, d.Accepts snapshot S ∧ S.slots = snapshot.slots ∧ S.groups = snapshot.groups := by
  obtain ⟨S, hS⟩ := validated_in_state h .Committed
  refine ⟨S, ⟨staged, h, hS⟩, ?_, ?_⟩
  · exact (validated_slots hS).1.trans (validated_slots h).1
  · exact (validated_slots hS).2.trans (validated_slots h).2

/-- A slot towards the device at `mac`, on either side of it. -/
def sideSlot (mac : UInt8) (peer_role group_id : UInt8) (side : Int8) : TopologySlot where
  enabled := true
  peer := Vector.replicate 6 mac
  peer_role := peer_role
  group_id := group_id
  relative_index := side
  local_virtual_index := 0xFF
  peer_virtual_index := if side > 0 then 0 else 1
  axis_order := 0
  delay_ms := 0
  hold_ms := 0

/-- A snapshot with the peer at `mac` on both sides, and the groups 1 and 2. -/
def bothSides (mac peer_role left_group right_group : UInt8) : TopologySnapshot where
  schema_version := kTopologySchemaVersion
  state := .None
  topology_version := 1
  index_neg := 1
  index_pos := 1
  enabled_slot_count := 0
  enabled_group_count := 0
  checksum := 0
  slots := Vector.ofFn fun i => { sideSlot mac peer_role
    (if i.val = 0 then left_group else right_group) (if i.val = 0 then -1 else 1) with
    enabled := decide (i.val < 2) }
  groups := Vector.ofFn fun i => ⟨decide (i.val < 2), i.val.toUInt8 + 1, Vector.replicate 32 7⟩

def semu : TopologyDevice := ⟨kProfileSemu, Vector.replicate 6 2, Vector.replicate 6 1⟩
def remu : TopologyDevice := ⟨kProfileRemu, Vector.replicate 6 3, Vector.replicate 6 1⟩

theorem TopologyDevice.accepts_of_valid (d : TopologyDevice) (snapshot : TopologySnapshot)
    (h : (validateTopologySnapshot d.local_profile_id (snapshot.withState .Staged)).isOk = true) :
    ∃ S, d.Accepts snapshot S ∧ S.enabledSlots = snapshot.enabledSlots := by
  cases hstaged : validateTopologySnapshot d.local_profile_id (snapshot.withState .Staged) with
  | error e =>
    rw [hstaged] at h
    cases h
  | ok staged =>
    obtain ⟨S, hS, hslots, -⟩ := TopologyDevice.accepts_of_staged hstaged
    exact ⟨S, hS, TopologySnapshot.enabledSlots_congr hslots⟩

/-- A peer on both sides, in one group each: the commit attaches it under the key of group 1, a
trigger to its other side under the key of group 2. -/
theorem shared_peer_keys_differ :
    ∃ S, semu.Accepts (bothSides 3 5 2 1) S ∧ ¬ KeysAgree telling semu S := by
  obtain ⟨S, hS, hslots⟩ := semu.accepts_of_valid (bothSides 3 5 2 1) (by decide +kernel)
  have henabled : S.enabledSlots = [sideSlot 3 5 2 (-1), sideSlot 3 5 1 1] := by
    rw [hslots]
    decide +kernel
  refine ⟨S, hS, fun hagree => ?_⟩
  rcases TopologyDevice.oneGroup_of_keysAgree hS hagree with hself | hone
  · obtain ⟨slot, hslot, hpeer⟩ := hself
    rw [henabled] at hslot
    revert slot
    decide +kernel
  · have hgroup := hone (sideSlot 3 5 2 (-1)) (by rw [henabled]; decide +kernel) (sideSlot 3 5 1 1)
      (by rw [henabled]; decide +kernel) rfl (by decide +kernel)
    exact absurd hgroup (by decide)

/-- Two devices on both sides of each other in one group. -/
theorem one_group_keys_agree :
    ∃ S T, semu.Accepts (bothSides 3 5 1 1) S ∧ remu.Accepts (bothSides 2 4 1 1) T ∧
      ∀ crypto, KeysAgree crypto semu S ∧ KeysAgree crypto remu T ∧ EndsAgree crypto semu remu S T := by
  obtain ⟨S, hS, hslots⟩ := semu.accepts_of_valid (bothSides 3 5 1 1) (by decide +kernel)
  obtain ⟨T, hT, hslots'⟩ := remu.accepts_of_valid (bothSides 2 4 1 1) (by decide +kernel)
  refine ⟨S, T, hS, hT, (topology_keys_consistent_iff semu remu hS hT).mpr ⟨.inr ?_, .inr ?_, ?_⟩⟩
  · intro s hs t ht _ _
    rw [hslots] at hs ht
    have hgroup : ∀ slot ∈ (bothSides 3 5 1 1).enabledSlots, slot.group_id = 1 := by decide +kernel
    rw [hgroup s hs, hgroup t ht]
  · intro s hs t ht _ _
    rw [hslots'] at hs ht
    have hgroup : ∀ slot ∈ (bothSides 2 4 1 1).enabledSlots, slot.group_id = 1 := by decide +kernel
    rw [hgroup s hs, hgroup t ht]
  · intro s t _ _
    rfl

end EspNowLink
