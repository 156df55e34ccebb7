import EspNowLink.Topology.MetaStore

namespace EspNowLink

theorem PeerMap.getElem?_insert {β : Type} (t : PeerMap β) (k a : MacAddress) (v : β) :
    (t.insert k v)[a]? = if k = a then some v else t[a]? := by
  simp only [Std.TreeMap.getElem?_insert, Std.LawfulEqCmp.compare_eq_iff_eq]

namespace Platform

variable {p : Platform} {mac : MacAddress} {lmk : LmkKey}

/-- If the peer is attached, then encrypted under the given key. -/
def HeldUnder (p : Platform) (mac : MacAddress) (lmk : LmkKey) : Prop :=
  p.attached mac = none ∨ p.attached mac = some ⟨true, some lmk⟩

theorem addPeer_held (h : p.HeldUnder mac lmk) (other : MacAddress) (key : LmkKey)
    (hkey : other = mac → key = lmk) : (p.addPeer other true (some key)).2.HeldUnder mac lmk := by
  by_cases hmac : other = mac
  · obtain rfl := hkey hmac
    subst hmac
    unfold addPeer HeldUnder
    dsimp only
    split
    · exact .inr (by simp)
    · split
      · exact .inl (by simp)
      · exact h
  · unfold HeldUnder
    rwa [addPeer_attached_of_ne p true (some key) (Ne.symm hmac)]

theorem removePeer_held (h : p.HeldUnder mac lmk) (other : MacAddress) :
    (p.removePeer other).2.HeldUnder mac lmk := by
  by_cases hmac : other = mac
  · subst hmac
    unfold removePeer HeldUnder
    dsimp only
    split
    · exact .inl (by simp)
    · exact h
  · unfold HeldUnder
    rwa [removePeer_attached_of_ne p (Ne.symm hmac)]

theorem attachAll_held (h : p.HeldUnder mac lmk) (kvs : List (MacAddress × LmkKey))
    (hkvs : ∀ kv ∈ kvs, kv.1 = mac → kv.2 = lmk) : (p.attachAll kvs).2.HeldUnder mac lmk := by
  induction kvs generalizing p with
  | nil => exact h
  | cons kv kvs ih =>
    have hadd := addPeer_held h kv.1 kv.2 (hkvs kv List.mem_cons_self)
    unfold attachAll
    rcases hp : p.addPeer kv.1 true (some kv.2) with ⟨ok, q⟩
    rw [hp] at hadd
    cases ok with
    | false => exact hadd
    | true => exact ih hadd fun kv' hkv' => hkvs kv' (List.mem_cons_of_mem _ hkv')

theorem evictAll_held (h : p.HeldUnder mac lmk) (macs : List MacAddress) :
    (p.evictAll macs).2.HeldUnder mac lmk := by
  induction macs generalizing p with
  | nil => exact h
  | cons other macs ih =>
    have hrem := removePeer_held h other
    unfold evictAll
    rcases hp : p.removePeer other with ⟨ok, q⟩
    rw [hp] at hrem
    cases ok with
    | false => exact hrem
    | true => exact ih hrem

theorem attachAll_other {kvs : List (MacAddress × LmkKey)} (h : ∀ kv ∈ kvs, kv.1 ≠ mac) :
    (p.attachAll kvs).2.attached mac = p.attached mac := by
  induction kvs generalizing p with
  | nil => rfl
  | cons kv kvs ih =>
    have hne : mac ≠ kv.1 := Ne.symm (h kv List.mem_cons_self)
    have hadd := addPeer_attached_of_ne p true (some kv.2) hne
    unfold attachAll
    rcases hp : p.addPeer kv.1 true (some kv.2) with ⟨ok, q⟩
    rw [hp] at hadd
    cases ok with
    | false => exact hadd
    | true => exact (ih fun kv' hkv' => h kv' (List.mem_cons_of_mem _ hkv')).trans hadd

theorem evictAll_other {macs : List MacAddress} (h : mac ∉ macs) :
    (p.evictAll macs).2.attached mac = p.attached mac := by
  induction macs generalizing p with
  | nil => rfl
  | cons other macs ih =>
    rw [List.mem_cons, not_or] at h
    have hrem := removePeer_attached_of_ne p h.1
    unfold evictAll
    rcases hp : p.removePeer other with ⟨ok, q⟩
    rw [hp] at hrem
    cases ok with
    | false => exact hrem
    | true => exact (ih h.2).trans hrem

/-- After all attachments succeeded each peer of the list is attached under its key. -/
theorem attachAll_attached {kvs : List (MacAddress × LmkKey)} (hok : (p.attachAll kvs).1 = true)
    (hnodup : (kvs.map (·.1)).Nodup) {kv : MacAddress × LmkKey} (hkv : kv ∈ kvs) :
    (p.attachAll kvs).2.attached kv.1 = some ⟨true, some kv.2⟩ := by
  induction kvs generalizing p with
  | nil => cases hkv
  | cons head kvs ih =>
    rw [List.map_cons, List.nodup_cons] at hnodup
    have hadd : (p.addPeer head.1 true (some head.2)).1 = true →
        (p.addPeer head.1 true (some head.2)).2.attached head.1 = some ⟨true, some head.2⟩ :=
      addPeer_attached
    unfold attachAll at hok ⊢
    rcases hp : p.addPeer head.1 true (some head.2) with ⟨ok, q⟩
    rw [hp] at hadd hok
    cases ok with
    | false => cases hok
    | true =>
      rcases List.mem_cons.mp hkv with rfl | hmem
      · have hlater : ∀ kv' ∈ kvs, kv'.1 ≠ kv.1 := fun kv' hkv' heq =>
          hnodup.1 (heq ▸ List.mem_map_of_mem hkv')
        exact (attachAll_other hlater).trans (hadd rfl)
      · exact ih hok hnodup.2 hmem

end Platform

namespace TopologyManager

/-- The key a peer and the device share through a group. -/
def linkKey (m : TopologyManager) (snapshot : TopologySnapshot) (peer : MacAddress)
    (group_id : UInt8) : Option LmkKey :=
  if peer = m.local_mac then none
  else (findTopologyGroupSeed snapshot group_id).bind fun group_seed =>
    m.paired_peer.bind fun master_mac =>
      deriveLmkFromTopologySeed m.crypto group_seed master_mac m.local_mac peer group_id

theorem deriveTopologySlotLmk_ok {m : TopologyManager} {snapshot : TopologySnapshot}
    {slot : TopologySlot} {lmk : LmkKey} :
    m.deriveTopologySlotLmk snapshot slot = .ok lmk ↔
      slot.enabled = true ∧ m.linkKey snapshot slot.peer slot.group_id = some lmk := by
  unfold deriveTopologySlotLmk linkKey
  cases slot.enabled with
  | false => simp
  | true =>
    by_cases hself : slot.peer = m.local_mac
    · simp [hself]
    · cases findTopologyGroupSeed snapshot slot.group_id with
      | none => simp [hself]
      | some seed =>
        cases m.paired_peer with
        | none => simp [hself]
        | some master =>
          simp only [Bool.not_true, Bool.false_eq_true, if_false, hself, Option.bind_some, true_and]
          cases deriveLmkFromTopologySeed m.crypto seed master m.local_mac slot.peer slot.group_id <;>
            simp

/-- A choice made over the slots `done`: each peer has the key of its smallest group. -/
structure Chosen (key : MacAddress → UInt8 → Option LmkKey) (done : List TopologySlot)
    (choice : PeerMap (LmkKey × UInt8)) : Prop where
  taken : ∀ peer lmk group_id, choice[peer]? = some (lmk, group_id) →
    ∃ slot ∈ done, slot.enabled = true ∧ slot.peer = peer ∧ slot.group_id = group_id
  key : ∀ peer lmk group_id, choice[peer]? = some (lmk, group_id) → key peer group_id = some lmk
  least : ∀ slot ∈ done, slot.enabled = true →
    ∃ lmk group_id, choice[slot.peer]? = some (lmk, group_id) ∧ group_id ≤ slot.group_id

namespace Chosen

variable {key : MacAddress → UInt8 → Option LmkKey} {done : List TopologySlot}
  {choice choice' : PeerMap (LmkKey × UInt8)} {slot : TopologySlot} {slot_lmk : LmkKey}

theorem empty (key : MacAddress → UInt8 → Option LmkKey) : Chosen key [] ∅ where
  taken peer lmk group_id h := by simp at h
  key peer lmk group_id h := by simp at h
  least slot h := by cases h

theorem skip (h : Chosen key done choice) (hoff : slot.enabled = false) :
    Chosen key (done ++ [slot]) choice where
  taken peer lmk group_id hget := by
    obtain ⟨s, hs, hrest⟩ := h.taken peer lmk group_id hget
    exact ⟨s, List.mem_append_left _ hs, hrest⟩
  key := h.key
  least s hs hen := by
    rcases List.mem_append.mp hs with hs | hs
    · exact h.least s hs hen
    · obtain rfl := List.mem_singleton.mp hs
      rw [hoff] at hen
      cases hen

/-- The slot's key is entered: its group is smaller than what the peer had, if it had any. -/
theorem insert (h : Chosen key done choice) (hon : slot.enabled = true)
    (hkey : key slot.peer slot.group_id = some slot_lmk)
    (hless : ∀ lmk group_id, choice[slot.peer]? = some (lmk, group_id) → slot.group_id ≤ group_id) :
    Chosen key (done ++ [slot]) (choice.insert slot.peer (slot_lmk, slot.group_id)) where
  taken peer lmk group_id hget := by
    rw [PeerMap.getElem?_insert] at hget
    by_cases hpeer : slot.peer = peer
    · rw [if_pos hpeer, Option.some.injEq, Prod.mk.injEq] at hget
      exact ⟨slot, by simp, hon, hpeer, hget.2⟩
    · rw [if_neg hpeer] at hget
      obtain ⟨s, hs, hrest⟩ := h.taken peer lmk group_id hget
      exact ⟨s, List.mem_append_left _ hs, hrest⟩
  key peer lmk group_id hget := by
    rw [PeerMap.getElem?_insert] at hget
    by_cases hpeer : slot.peer = peer
    · rw [if_pos hpeer, Option.some.injEq, Prod.mk.injEq] at hget
      rw [← hpeer, ← hget.1, ← hget.2]
      exact hkey
    · rw [if_neg hpeer] at hget
      exact h.key peer lmk group_id hget
  least s hs hen := by
    rw [PeerMap.getElem?_insert]
    by_cases hpeer : slot.peer = s.peer
    · rw [if_pos hpeer]
      refine ⟨slot_lmk, slot.group_id, rfl, ?_⟩
      rcases List.mem_append.mp hs with hs | hs
      · obtain ⟨lmk, group_id, hget, hle⟩ := h.least s hs hen
        exact UInt8.le_trans (hless lmk group_id (hpeer ▸ hget)) hle
      · obtain rfl := List.mem_singleton.mp hs
        exact UInt8.le_refl _
    · rw [if_neg hpeer]
      rcases List.mem_append.mp hs with hs | hs
      · exact h.least s hs hen
      · obtain rfl := List.mem_singleton.mp hs
        exact absurd rfl hpeer

theorem keep (h : Chosen key done choice) {lmk : LmkKey} {group_id : UInt8}
    (hget : choice[slot.peer]? = some (lmk, group_id)) (hle : group_id ≤ slot.group_id) :
    Chosen key (done ++ [slot]) choice where
  taken peer lmk group_id hget := by
    obtain ⟨s, hs, hrest⟩ := h.taken peer lmk group_id hget
    exact ⟨s, List.mem_append_left _ hs, hrest⟩
  key := h.key
  least s hs hen := by
    rcases List.mem_append.mp hs with hs | hs
    · exact h.least s hs hen
    · obtain rfl := List.mem_singleton.mp hs
      exact ⟨lmk, group_id, hget, hle⟩

/-- Entering a slot never fails: two slots of one peer and group have one key. -/
theorem enter (h : Chosen key done choice) (hon : slot.enabled = true)
    (hkey : key slot.peer slot.group_id = some slot_lmk) :
    ∃ choice', choosePeerLmk choice slot slot_lmk = .ok choice' ∧
      Chosen key (done ++ [slot]) choice' := by
  unfold choosePeerLmk
  cases hget : choice[slot.peer]? with
  | none =>
    refine ⟨_, rfl, h.insert hon hkey fun lmk group_id hsome => ?_⟩
    rw [hget] at hsome
    cases hsome
  | some old =>
    obtain ⟨lmk, group_id⟩ := old
    dsimp only
    by_cases hless : slot.group_id < group_id
    · rw [if_pos hless]
      refine ⟨_, rfl, h.insert hon hkey fun lmk' group_id' hsome => ?_⟩
      rw [hget, Option.some.injEq, Prod.mk.injEq] at hsome
      exact hsome.2 ▸ UInt8.le_of_lt hless
    · have hsame : ¬ (slot.group_id = group_id ∧ lmk ≠ slot_lmk) := by
        rintro ⟨rfl, hne⟩
        have hold := h.key slot.peer lmk slot.group_id hget
        exact hne (Option.some.inj (hold.symm.trans hkey))
      rw [if_neg hless, if_neg hsame]
      exact ⟨choice, rfl, h.keep hget (UInt8.not_lt.mp hless)⟩

end Chosen

variable {m : TopologyManager} {snapshot : TopologySnapshot}

theorem choosePeerLmks_chosen {slots done : List TopologySlot}
    {choice choice' : PeerMap (LmkKey × UInt8)} (h : Chosen (m.linkKey snapshot) done choice)
    (hok : m.choosePeerLmks snapshot slots choice = .ok choice') :
    Chosen (m.linkKey snapshot) (done ++ slots) choice' := by
  induction slots generalizing done choice with
  | nil =>
    rw [choosePeerLmks, Except.ok.injEq] at hok
    simpa [← hok] using h
  | cons slot slots ih =>
    have happend : done ++ slot :: slots = done ++ [slot] ++ slots := by simp
    rw [happend]
    rw [choosePeerLmks] at hok
    cases hon : slot.enabled with
    | false =>
      rw [hon] at hok
      exact ih (h.skip hon) hok
    | true =>
      rw [hon] at hok
      simp only [Bool.not_true, Bool.false_eq_true, if_false] at hok
      cases hderive : m.deriveTopologySlotLmk snapshot slot with
      | error e =>
        rw [hderive] at hok
        cases hok
      | ok lmk =>
        obtain ⟨choice₁, hchoose, hchosen⟩ := h.enter hon (deriveTopologySlotLmk_ok.mp hderive).2
        rw [hderive] at hok
        dsimp only at hok
        rw [hchoose] at hok
        exact ih hchosen hok

theorem choosePeerLmks_total {slots done : List TopologySlot} {choice : PeerMap (LmkKey × UInt8)}
    (h : Chosen (m.linkKey snapshot) done choice)
    (hkeys : ∀ slot ∈ slots, slot.enabled = true →
      ∃ lmk, m.linkKey snapshot slot.peer slot.group_id = some lmk) :
    ∃ choice', m.choosePeerLmks snapshot slots choice = .ok choice' := by
  induction slots generalizing done choice with
  | nil => exact ⟨choice, rfl⟩
  | cons slot slots ih =>
    have hlater : ∀ s ∈ slots, s.enabled = true →
        ∃ lmk, m.linkKey snapshot s.peer s.group_id = some lmk :=
      fun s hs => hkeys s (List.mem_cons_of_mem _ hs)
    rw [choosePeerLmks]
    cases hon : slot.enabled with
    | false => exact ih (h.skip hon) hlater
    | true =>
      obtain ⟨lmk, hlmk⟩ := hkeys slot List.mem_cons_self hon
      obtain ⟨choice₁, hchoose, hchosen⟩ := h.enter hon hlmk
      rw [deriveTopologySlotLmk_ok.mpr ⟨hon, hlmk⟩]
      dsimp only
      rw [hchoose]
      exact ih hchosen hlater

/-- The chosen peers are those of the enabled slots, each with the key of its smallest group. -/
theorem peerChoice_chosen {choice : PeerMap (LmkKey × UInt8)}
    (h : m.peerChoice snapshot = .ok choice) :
    Chosen (m.linkKey snapshot) snapshot.slots.toList choice :=
  choosePeerLmks_chosen (Chosen.empty _) h

theorem peerChoice_total (hkeys : ∀ slot ∈ snapshot.enabledSlots,
    ∃ lmk, m.linkKey snapshot slot.peer slot.group_id = some lmk) :
    ∃ choice, m.peerChoice snapshot = .ok choice :=
  choosePeerLmks_total (Chosen.empty _) fun slot hslot hon =>
    hkeys slot (List.mem_filter.mpr ⟨hslot, hon⟩)

theorem peerChoice_congr {m m' : TopologyManager}
    (h : m'.deriveTopologySlotLmk = m.deriveTopologySlotLmk) (snapshot : TopologySnapshot) :
    m'.peerChoice snapshot = m.peerChoice snapshot := by
  have hloop : ∀ slots choice, m'.choosePeerLmks snapshot slots choice =
      m.choosePeerLmks snapshot slots choice := by
    intro slots
    induction slots with
    | nil => exact fun _ => rfl
    | cons slot slots ih =>
      intro choice
      simp only [choosePeerLmks, h, ih]
  exact hloop _ _

/-- What no topology function changes. -/
structure SameDevice (m m' : TopologyManager) : Prop where
  local_role : m'.local_role = m.local_role
  local_profile_id : m'.local_profile_id = m.local_profile_id
  local_mac : m'.local_mac = m.local_mac
  crypto : m'.crypto = m.crypto
  paired_peer : m'.paired_peer = m.paired_peer
  has_peer_window : m'.has_peer_window = m.has_peer_window

namespace SameDevice

variable {m' m'' : TopologyManager}

protected theorem trans (h : SameDevice m m') (h' : SameDevice m' m'') : SameDevice m m'' :=
  ⟨h'.local_role.trans h.local_role, h'.local_profile_id.trans h.local_profile_id,
    h'.local_mac.trans h.local_mac, h'.crypto.trans h.crypto, h'.paired_peer.trans h.paired_peer,
    h'.has_peer_window.trans h.has_peer_window⟩

theorem deriveTopologySlotLmk (h : SameDevice m m') :
    m'.deriveTopologySlotLmk = m.deriveTopologySlotLmk := by
  funext snapshot slot
  simp only [TopologyManager.deriveTopologySlotLmk, h.local_mac, h.paired_peer, h.crypto]

theorem peerChoice (h : SameDevice m m') (snapshot : TopologySnapshot) :
    m'.peerChoice snapshot = m.peerChoice snapshot :=
  peerChoice_congr h.deriveTopologySlotLmk snapshot

theorem lmkMeta (h : SameDevice m m') : m'.lmkMeta = m.lmkMeta := by
  funext snapshot master choice
  simp only [TopologyManager.lmkMeta, h.local_mac, h.local_profile_id]

end SameDevice

theorem MetaFrame.same {K : Set UInt8} {m' : TopologyManager} (h : MetaFrame K m m') :
    SameDevice m m' :=
  ⟨h.local_role, h.local_profile_id, h.local_mac, h.crypto, h.paired_peer, h.has_peer_window⟩

/-- `m'` is `m` but for the peers on the radio and the list of those attached for the topology. -/
structure PeerFrame (m m' : TopologyManager) : Prop where
  rest : m' = (m.withPlatform m'.platform).withAttached m'.topology_attached_peers

namespace PeerFrame

variable {m' : TopologyManager}

protected theorem refl (m : TopologyManager) : PeerFrame m m := ⟨rfl⟩

theorem same (h : PeerFrame m m') : SameDevice m m' := by
  rw [h.rest]
  exact ⟨rfl, rfl, rfl, rfl, rfl, rfl⟩

theorem store (h : PeerFrame m m') : m'.store = m.store := by
  rw [h.rest]
  rfl

theorem staged (h : PeerFrame m m') : m'.topology_staged = m.topology_staged := by
  rw [h.rest]
  rfl

theorem committed (h : PeerFrame m m') : m'.topology_committed = m.topology_committed := by
  rw [h.rest]
  rfl

theorem storeEnabled (h : PeerFrame m m') : m'.storeEnabled = m.storeEnabled := by
  simp only [TopologyManager.storeEnabled, h.store]

theorem storeSound (h : PeerFrame m m') : m'.StoreSound ↔ m.StoreSound := by
  simp only [StoreSound, h.store]

theorem metaBlob (h : PeerFrame m m') (slot : UInt8) : m'.metaBlob slot = m.metaBlob slot := by
  simp only [TopologyManager.metaBlob, h.store, h.same.local_mac]

end PeerFrame

variable {desired : PeerMap LmkKey}

theorem applyTopologyDesiredPeers_frame (m : TopologyManager) (desired : PeerMap LmkKey) :
    PeerFrame m (m.applyTopologyDesiredPeers desired).2 := by
  unfold applyTopologyDesiredPeers
  split
  · exact .refl m
  · split
    · exact .refl m
    · dsimp only
      split
      · exact ⟨rfl⟩
      · split <;> exact ⟨rfl⟩

theorem mem_toList_of_getElem? {β : Type} {t : PeerMap β} {k : MacAddress} {v : β}
    (h : t[k]? = some v) : (k, v) ∈ t.toList :=
  Std.TreeMap.mem_toList_iff_getElem?_eq_some.mpr h

theorem toList_keys_nodup {β : Type} (t : PeerMap β) : (t.toList.map (·.1)).Nodup := by
  rw [List.nodup_iff_pairwise_ne, List.pairwise_map]
  refine Std.TreeMap.distinct_keys_toList.imp fun hne heq => hne ?_
  rw [heq]
  exact Std.ReflCmp.compare_self

/-- Applied desired peers are attached, each under its key. -/
theorem applyTopologyDesiredPeers_attached (hrole : m.local_role = .Slave)
    (h : (m.applyTopologyDesiredPeers desired).1 = .ok ()) {peer : MacAddress} {lmk : LmkKey}
    (hpeer : desired[peer]? = some lmk) (hactive : m.paired_peer ≠ some peer) :
    (m.applyTopologyDesiredPeers desired).2.platform.attached peer = some ⟨true, some lmk⟩ := by
  unfold applyTopologyDesiredPeers at h ⊢
  rw [if_neg (not_not.mpr hrole)] at h ⊢
  split at h
  · cases h
  · rename_i hwindow
    rw [if_neg hwindow]
    dsimp only at h ⊢
    have hmem : (peer, lmk) ∈ desired.toList.filter fun kv => m.paired_peer ≠ some kv.1 :=
      List.mem_filter.mpr ⟨mem_toList_of_getElem? hpeer, by simpa using hactive⟩
    have hnodup : ((desired.toList.filter fun kv => m.paired_peer ≠ some kv.1).map (·.1)).Nodup :=
      (toList_keys_nodup desired).sublist (List.filter_sublist.map _)
    have hattach := fun hok => Platform.attachAll_attached (p := m.platform) hok hnodup hmem
    rcases hp : m.platform.attachAll (desired.toList.filter fun kv => m.paired_peer ≠ some kv.1)
      with ⟨ok, p⟩
    rw [hp] at h hattach
    cases ok with
    | false => cases h
    | true =>
      dsimp only at h ⊢
      -- the peers that go are not among the desired ones
      have hstay : peer ∉ m.topology_attached_peers.filter fun old =>
          m.paired_peer ≠ some old && !desired.contains old := by
        intro hgone
        have hcontains : desired.contains peer = true := by
          rw [Std.TreeMap.contains_eq_isSome_getElem?, hpeer]
          rfl
        have hnot := (List.mem_filter.mp hgone).2
        rw [hcontains] at hnot
        simp at hnot
      have hkept := Platform.evictAll_other (p := p) hstay
      rcases hq : p.evictAll (m.topology_attached_peers.filter fun old =>
        m.paired_peer ≠ some old && !desired.contains old) with ⟨ok, q⟩
      rw [hq] at h hkept
      cases ok with
      | false => cases h
      | true => exact hkept.trans (hattach rfl)

theorem applyTopologyDesiredPeers_held {peer : MacAddress} {lmk : LmkKey}
    (h : m.platform.HeldUnder peer lmk) (hkey : ∀ k, desired[peer]? = some k → k = lmk) :
    (m.applyTopologyDesiredPeers desired).2.platform.HeldUnder peer lmk := by
  unfold applyTopologyDesiredPeers
  split
  · exact h
  · split
    · exact h
    · dsimp only
      have hattach := Platform.attachAll_held h
        (desired.toList.filter fun kv => m.paired_peer ≠ some kv.1) ?_
      · rcases hp : m.platform.attachAll (desired.toList.filter fun kv => m.paired_peer ≠ some kv.1)
          with ⟨ok, p⟩
        rw [hp] at hattach
        cases ok with
        | false => exact hattach
        | true =>
          dsimp only
          have hevict := Platform.evictAll_held hattach (m.topology_attached_peers.filter fun old =>
            m.paired_peer ≠ some old && !desired.contains old)
          rcases hq : p.evictAll (m.topology_attached_peers.filter fun old =>
            m.paired_peer ≠ some old && !desired.contains old) with ⟨ok, q⟩
          rw [hq] at hevict
          cases ok <;> exact hevict
      · rintro ⟨mac, key⟩ hkv rfl
        have hget := Std.TreeMap.mem_toList_iff_getElem?_eq_some.mp (List.mem_filter.mp hkv).1
        exact hkey key hget

theorem materializeTopologyPeers_frame (m : TopologyManager) (snapshot : TopologySnapshot) :
    PeerFrame m (m.materializeTopologyPeers snapshot).2 := by
  unfold materializeTopologyPeers
  split
  · exact .refl m
  · split
    · exact .refl m
    · exact m.applyTopologyDesiredPeers_frame _

theorem materializeTopologyPeers_attached (snapshot : TopologySnapshot) (hrole : m.local_role = .Slave)
    (h : (m.materializeTopologyPeers snapshot).1 = .ok ()) :
    ∃ choice, m.peerChoice snapshot = .ok choice ∧ ∀ peer lmk group_id,
      choice[peer]? = some (lmk, group_id) → m.paired_peer ≠ some peer →
      (m.materializeTopologyPeers snapshot).2.platform.attached peer = some ⟨true, some lmk⟩ := by
  unfold materializeTopologyPeers at h ⊢
  rw [if_neg (not_not.mpr hrole)] at h ⊢
  cases hchoice : m.peerChoice snapshot with
  | error e =>
    rw [hchoice] at h
    cases h
  | ok choice =>
    rw [hchoice] at h
    refine ⟨choice, rfl, fun peer lmk group_id hget hactive => ?_⟩
    refine applyTopologyDesiredPeers_attached hrole h ?_ hactive
    rw [Std.TreeMap.getElem?_map, hget]
    rfl

theorem materializeTopologyPeers_held (snapshot : TopologySnapshot) {peer : MacAddress} {lmk : LmkKey}
    (h : m.platform.HeldUnder peer lmk)
    (hkey : ∀ choice k group_id, m.peerChoice snapshot = .ok choice →
      choice[peer]? = some (k, group_id) → k = lmk) :
    (m.materializeTopologyPeers snapshot).2.platform.HeldUnder peer lmk := by
  unfold materializeTopologyPeers
  split
  · exact h
  · cases hchoice : m.peerChoice snapshot with
    | error e => exact h
    | ok choice =>
      refine applyTopologyDesiredPeers_held h fun k hk => ?_
      rw [Std.TreeMap.getElem?_map] at hk
      obtain ⟨⟨k', group_id⟩, hget, rfl⟩ := Option.map_eq_some_iff.mp hk
      exact hkey choice _ group_id hchoice hget

end TopologyManager

end EspNowLink
