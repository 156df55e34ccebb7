import EspNowLink.Framework.Runs
import EspNowLink.Pairing.LinkInvariant

namespace EspNowLink

open Framework

namespace PairingInput

/-- The sender of an answer to a pairing attempt. -/
def answerSender : PairingInput → Option MacAddress
  | .pairInitAck sender _ _ | .pairConfirm sender _ _ | .pairConfirmAck sender _ _
  | .pairBusy sender _ => some sender
  | _ => none

end PairingInput

namespace PairingEngine

def StartsPair (e : PairingEngine) : Prop :=
  e.config.local_role = .Master ∧ ¬ (e.state = .Pairing ∨ e.unpair_pending = true)

def TakesPairInit (e : PairingEngine) (sender : MacAddress) (corr_id : UInt32) : Prop :=
  e.config.local_role = .Slave ∧ e.state ≠ .Secured ∧
    ¬ (e.state = .Pairing ∧ (sender ≠ e.peer_mac ∨ corr_id ≠ e.corr_id))

instance (e : PairingEngine) : Decidable e.StartsPair := by
  unfold StartsPair; infer_instance
instance (e : PairingEngine) (sender : MacAddress) (corr_id : UInt32) :
    Decidable (e.TakesPairInit sender corr_id) := by
  unfold TakesPairInit; infer_instance

/-- The peer of the attempt that an input begins: `requestPair(P)`, or an accepted pair init. -/
def attemptPeer (e : PairingEngine) : PairingInput → Option MacAddress
  | .requestPair peer _ => if e.StartsPair then some peer else none
  | .discovery sender _ =>
    if e.state = .Unpaired ∧ e.config.auto_pair_on_discovery ∧ e.StartsPair then some sender
    else none
  | .pairInit sender corr_id _ _ =>
    if e.state ≠ .Pairing ∧ e.TakesPairInit sender corr_id then some sender else none
  | _ => none

/-- The sender of a handshake message that the engine takes as part of its attempt. -/
def takenUp (e : PairingEngine) : PairingInput → Option MacAddress
  | .pairInit sender corr_id _ _ => if e.TakesPairInit sender corr_id then some sender else none
  | .pairInitAck sender corr_id _ => if e.expectsPairInitAck corr_id then some sender else none
  | .pairConfirm sender corr_id _ => if e.expectsPairConfirm corr_id then some sender else none
  | .pairConfirmAck sender corr_id _ => if e.expectsPairConfirmAck corr_id then some sender else none
  | .pairBusy sender corr_id => if e.expectsPairBusy corr_id then some sender else none
  | _ => none

/-- The input adopts a stored link, which ends the record of an earlier handshake. -/
def restores (e : PairingEngine) : PairingInput → Bool
  | .restore record => (e.restorePairedLink record).1
  | _ => false

end PairingEngine

/-- An engine in a run, with the peer of its latest attempt and the senders of the handshake
messages it has taken up in it. -/
structure PairingTrace where
  engine : PairingEngine
  target : Option MacAddress
  accepted : List MacAddress

namespace PairingTrace

def start (e : PairingEngine) : PairingTrace := ⟨e, none, []⟩

def step (t : PairingTrace) (i : PairingInput) : PairingTrace where
  engine := t.engine.step i
  target := (t.engine.attemptPeer i).or t.target
  accepted := (if (t.engine.attemptPeer i).isSome || t.engine.restores i then [] else t.accepted) ++
    (t.engine.takenUp i).toList

/-- A secured link has one peer: the reported, the attached, the persisted one and the sender of
every accepted handshake message. -/
def LinkAuthentic (t : PairingTrace) : Prop :=
  t.engine.state = .Secured → ∃ peer, t.engine.getPairedPeer = some peer ∧
    t.engine.platform.attached peer = some ⟨true, some t.engine.current_lmk⟩ ∧
    (∃ s, t.engine.store = some s ∧
      PairingEngine.HoldsPair s t.engine.local_mac peer t.engine.current_lmk) ∧
    ∀ sender ∈ t.accepted, sender = peer

/-- An answer from another MAC than the attempt's peer changes neither the state, the keys, the
store nor the attached peers. -/
def StrayIgnored (t : PairingTrace) (i : PairingInput) : Prop :=
  ∀ peer sender, t.target = some peer → i.answerSender = some sender → sender ≠ peer →
    (t.engine.step i).state = t.engine.state ∧
    (t.engine.step i).current_lmk = t.engine.current_lmk ∧
    (t.engine.step i).current_seed = t.engine.current_seed ∧
    (t.engine.step i).store = t.engine.store ∧
    (t.engine.step i).platform.attached = t.engine.platform.attached

end PairingTrace

namespace PairingEngine

/-- An engine as its owner makes it, over a store whose cache is still empty. -/
def Booted (e : PairingEngine) : Prop :=
  ∃ config crypto platform store has_hooks has_time_source local_mac profile_id,
    e = boot config crypto platform store has_hooks has_time_source local_mac profile_id ∧
      ∀ s, store = some s → s.blob_cache = ∅

/-- Peer authenticity of one engine over all its runs. -/
def PeerAuthentic (e : PairingEngine) : Prop :=
  ∀ t, Run PairingTrace.step (fun _ _ => True) (.start e) t →
    t.LinkAuthentic ∧ ∀ i, t.StrayIgnored i

/-- The steps after which a link keeps a single peer. -/
def OnePeer (e : PairingEngine) : PairingInput → Prop
  | .pairInitAck sender corr_id _ => e.expectsPairInitAck corr_id → sender = e.peer_mac
  | .pairConfirm sender corr_id _ => e.expectsPairConfirm corr_id → sender = e.peer_mac
  | .pairConfirmAck sender corr_id _ => e.expectsPairConfirmAck corr_id → sender = e.peer_mac
  | .pairBusy sender corr_id => e.expectsPairBusy corr_id → sender = e.peer_mac
  | .restore record => e.HoldsRecord record ∧ (e.KeyInstalled → record.peer_mac ≠ e.peer_mac)
  | .requestUnpair peer _ => e.config.local_role = .Master → e.state = .Secured →
      e.unpair_pending = false → peer = e.peer_mac
  | .requestChannelSwitch peer _ _ _ => e.config.local_role = .Master → e.state = .Secured →
      peer = e.peer_mac
  | .channelSwitchPrepare sender _ _ => e.config.local_role = .Slave → e.state = .Secured →
      sender = e.peer_mac
  | .removePeer peer erase => (e.state = .Pairing → e.KeyInstalled → peer ≠ e.peer_mac) ∧
      (erase = true → e.state = .Secured → peer ≠ e.peer_mac → ∀ s, e.store = some s →
        s.makeKey .Pair e.local_mac e.peer_mac ≠ s.makeKey .Pair e.local_mac peer)
  | _ => True

end PairingEngine

namespace PairingTrace

open PairingEngine

/-- What holds along a run whose steps keep to one peer. -/
structure Inv (t : PairingTrace) : Prop where
  link : LinkInv t.engine
  target : t.engine.state = .Pairing → t.target = some t.engine.peer_mac
  accepted : t.engine.state ≠ .Unpaired → ∀ sender ∈ t.accepted, sender = t.engine.peer_mac

theorem Inv.of_keeps {t : PairingTrace} (ht : t.Inv) {e : PairingEngine} (hk : Keeps t.engine e)
    {accepted : List MacAddress}
    (ha : ∀ sender ∈ accepted, sender ∈ t.accepted ∨ sender = t.engine.peer_mac) :
    Inv ⟨e, t.target, accepted⟩ := by
  obtain ⟨hlink, hfollows⟩ := hk
  refine ⟨hlink ht.link, fun hs => ?_, fun hs sender hsender => ?_⟩
  · rcases hfollows with hu | ⟨hpeer, -, hpairing⟩
    · exact absurd (hu.symm.trans hs) (by simp)
    · rw [ht.target (hpairing hs), ← hpeer]
  · rcases hfollows with hu | ⟨hpeer, hstate, -⟩
    · exact absurd hu hs
    · rcases ha sender hsender with hold | hnew
      · rw [ht.accepted hstate sender hold, ← hpeer]
      · rw [hnew, ← hpeer]

theorem Inv.of_starts {e : PairingEngine} {peer : MacAddress} (h : Starts peer e)
    {accepted : List MacAddress} (ha : ∀ sender ∈ accepted, sender = peer) :
    Inv ⟨e, some peer, accepted⟩ := by
  obtain ⟨hlink, hu | ⟨hpairing, hpeer⟩⟩ := h
  · exact ⟨hlink, fun hs => absurd (hu.symm.trans hs) (by simp), fun hs => absurd hu hs⟩
  · exact ⟨hlink, fun _ => by rw [hpeer], fun _ s hs => (ha s hs).trans hpeer.symm⟩

/-- One answer, taken up or not. -/
private theorem mem_taken {t : PairingTrace} {p : Prop} [Decidable p] {sender : MacAddress}
    (h : p → sender = t.engine.peer_mac) :
    ∀ m ∈ t.accepted ++ (if p then some sender else none).toList,
      m ∈ t.accepted ∨ m = t.engine.peer_mac := by
  intro m hm
  rcases List.mem_append.mp hm with hold | hnew
  · exact .inl hold
  · split at hnew
    · rename_i hp
      exact .inr ((List.mem_singleton.mp hnew).trans (h hp))
    · simp at hnew

theorem inv_requestPair {t : PairingTrace} (ht : t.Inv) (peer : MacAddress) (corr_id : UInt32) :
    Inv ⟨(t.engine.requestPair peer corr_id).2,
      (if t.engine.StartsPair then some peer else none).or t.target,
      if t.engine.StartsPair then [] else t.accepted⟩ := by
  by_cases hs : t.engine.StartsPair
  · simp only [hs, if_true, Option.some_or]
    exact .of_starts (requestPair_starts _ _ _ ht.link hs.1 hs.2) (by simp)
  · simp only [hs, if_false, Option.none_or]
    have hsame : (t.engine.requestPair peer corr_id).2 = t.engine := by
      unfold requestPair
      split
      · rfl
      · rename_i hrole
        rw [if_pos]
        by_contra hidle
        exact hs ⟨not_not.mp hrole, hidle⟩
    rw [hsame]
    exact ht

theorem inv_discovery {t : PairingTrace} (ht : t.Inv) (sender : MacAddress) (corr_id : UInt32) :
    (t.step (.discovery sender corr_id)).Inv := by
  have hstep (e : PairingEngine) (he : t.engine.onDiscovery sender corr_id = (true, e) ∨
      t.engine.onDiscovery sender corr_id = (false, e)) (hk : Keeps t.engine e)
      (hno : t.engine.attemptPeer (.discovery sender corr_id) = none) :
      (t.step (.discovery sender corr_id)).Inv := by
    have heng : t.engine.step (.discovery sender corr_id) = e := by
      rcases he with he | he <;> simp [PairingEngine.step, perform, he]
    have hinv : Inv ⟨e, t.target, t.accepted⟩ := ht.of_keeps hk fun m hm => .inl hm
    simpa [step, hno, takenUp, restores, heng] using hinv
  by_cases hidle : t.engine.config.local_role ≠ .Master ∨ t.engine.state ≠ .Unpaired
  · refine hstep t.engine (.inr ?_) (SameLink.refl _).keeps ?_
    · simp only [onDiscovery, if_pos hidle]
    · rcases hidle with h | h <;> simp [attemptPeer, StartsPair, h]
  · have hboth := hidle
    simp only [ne_eq, not_or, not_not] at hboth
    by_cases hauto : t.engine.config.auto_pair_on_discovery = true
    · have h := inv_requestPair ht sender corr_id
      have heng : t.engine.step (.discovery sender corr_id) =
          (t.engine.requestPair sender corr_id).2 := by
        simp [PairingEngine.step, perform, onDiscovery, hboth, hauto]
      by_cases hs : t.engine.StartsPair <;>
        simpa [step, attemptPeer, takenUp, restores, hboth, hauto, hs, heng] using h
    · refine hstep _ (.inl ?_) ((SameLink.refl t.engine).emit .PairingStep sender corr_id
        "discovery seen (manual pair mode)").keeps (by simp [attemptPeer, hauto])
      simp [onDiscovery, hboth, hauto]

theorem inv_pairInit {t : PairingTrace} (ht : t.Inv) (sender : MacAddress) (corr_id : UInt32)
    (seed : PairSeed) (nonce : UInt32) : (t.step (.pairInit sender corr_id seed nonce)).Inv := by
  by_cases htake : t.engine.TakesPairInit sender corr_id
  · have hstarts := onPairInit_starts _ sender corr_id seed nonce ht.link htake.1 htake.2.1 htake.2.2
    by_cases hpairing : t.engine.state = .Pairing
    · -- the attempt's own peer sends its init again
      have hown : sender = t.engine.peer_mac := by
        by_contra hne
        exact htake.2.2 ⟨hpairing, .inl hne⟩
      have htarget : t.target = some sender := by rw [ht.target hpairing, hown]
      simp only [step, attemptPeer, takenUp, restores, htake, hpairing, htarget, ne_eq,
        not_true_eq_false, false_and, if_false, if_true, Option.none_or, Option.isSome_none,
        Bool.or_false, Option.toList_some, Bool.false_eq_true]
      refine .of_starts hstarts ?_
      intro m hm
      rcases List.mem_append.mp hm with hold | hnew
      · rw [ht.accepted (by simp [hpairing]) m hold, hown]
      · exact List.mem_singleton.mp hnew
    · simp only [step, attemptPeer, takenUp, restores, htake, hpairing, ne_eq, not_false_eq_true,
        true_and, if_true, Option.some_or, Option.isSome_some, Bool.true_or, List.nil_append,
        Option.toList_some]
      exact .of_starts hstarts (by simp)
  · have hkeeps : Keeps t.engine (t.engine.onPairInit sender corr_id seed nonce).2 := by
      unfold onPairInit
      split
      · exact (SameLink.refl _).keeps
      rename_i hguard
      simp only [ne_eq, not_or, not_not] at hguard
      split
      · rename_i hbusy
        exact rejectBusy_keeps _ sender corr_id hguard.1 hbusy.1
      · rename_i hown
        exact absurd ⟨hguard.1, hguard.2, hown⟩ htake
    simp only [step, attemptPeer, takenUp, restores, htake, and_false, if_false, Option.none_or,
      Option.isSome_none, Bool.or_false, Bool.false_eq_true, Option.toList_none, List.append_nil]
    exact ht.of_keeps hkeeps fun m hm => .inl hm

/-- A step that keeps to one peer keeps the invariant. -/
theorem inv_step {t : PairingTrace} (ht : t.Inv) (i : PairingInput) (hok : t.engine.OnePeer i) :
    (t.step i).Inv := by
  have hplain {e : PairingEngine} (hk : Keeps t.engine e) : Inv ⟨e, t.target, t.accepted ++ []⟩ :=
    ht.of_keeps hk fun m hm => .inl (by simpa using hm)
  cases i with
  | tick now_ms => exact hplain (tick_keeps _ now_ms)
  | discovery sender corr_id => exact inv_discovery ht sender corr_id
  | pairInit sender corr_id seed nonce => exact inv_pairInit ht sender corr_id seed nonce
  | pairInitAck sender corr_id nonce =>
    exact ht.of_keeps (onPairInitAck_keeps _ _ _ _ hok) (mem_taken hok)
  | pairConfirm sender corr_id nonce =>
    exact ht.of_keeps (onPairConfirm_keeps _ _ _ _ hok) (mem_taken hok)
  | pairConfirmAck sender corr_id flag =>
    exact ht.of_keeps (onPairConfirmAck_keeps _ _ _ _) (mem_taken hok)
  | pairBusy sender corr_id =>
    exact ht.of_keeps (onPairBusy_keeps _ _ _) (mem_taken hok)
  | restore record =>
    rcases restorePairedLink_cases _ record hok.1 hok.2 with ⟨hfail, hk⟩ | ⟨hdone, hl, hs, hp⟩
    · have hstep : t.step (.restore record) =
          ⟨(t.engine.restorePairedLink record).2, t.target, t.accepted ++ []⟩ := by
        simp [step, attemptPeer, takenUp, restores, hfail, PairingEngine.step, perform]
      rw [hstep]
      exact hplain hk
    · have hstep : t.step (.restore record) =
          ⟨(t.engine.restorePairedLink record).2, t.target, []⟩ := by
        simp [step, attemptPeer, takenUp, restores, hdone, PairingEngine.step, perform]
      rw [hstep]
      exact ⟨hl ht.link, fun h => absurd (hs.symm.trans h) (by simp), by simp⟩
  | requestPair peer corr_id =>
    have h := inv_requestPair ht peer corr_id
    by_cases hs : t.engine.StartsPair <;>
      simpa [step, attemptPeer, takenUp, restores, hs, PairingEngine.step, perform] using h
  | requestUnpair peer corr_id => exact hplain (requestUnpair_keeps _ _ _ hok)
  | unpairRequest sender corr_id => exact hplain (onUnpairRequest_keeps _ _ _)
  | unpairAck sender corr_id => exact hplain (onUnpairAck_keeps _ _ _)
  | removePeer peer erase => exact hplain (removePeer_keeps _ _ _ hok.1 hok.2)
  | requestChannelSwitch peer channel now_ms corr_id =>
    exact hplain (requestChannelSwitch_keeps _ _ _ _ _ hok)
  | channelSwitchPrepare sender corr_id payload =>
    exact hplain (onChannelSwitchPrepare_keeps _ _ _ _ hok)
  | channelSwitchAck sender corr_id => exact hplain (onChannelSwitchAck_keeps _ _ _)
  | channelSwitchCommitAck sender corr_id => exact hplain (onChannelSwitchCommitAck_keeps _ _ _)

theorem inv_start {e : PairingEngine} (h : e.Booted) : (start e).Inv := by
  obtain ⟨config, crypto, platform, store, hooks, clock, mac, profile, rfl, hcache⟩ := h
  refine ⟨.of_unpaired rfl ?_, by simp [start, boot], by simp [start]⟩
  intro s hs key entry hlookup
  rw [hcache s hs] at hlookup
  simp at hlookup

theorem Inv.linkAuthentic {t : PairingTrace} (ht : t.Inv) : t.LinkAuthentic := by
  intro hs
  exact ⟨t.engine.peer_mac, by simp [getPairedPeer, hs], ht.link.attached (.inl hs),
    ht.link.held hs, ht.accepted (by simp [hs])⟩

/-- A stray answer that meets no handler's guard is dropped without effect. -/
theorem Inv.strayIgnored {t : PairingTrace} (ht : t.Inv) {i : PairingInput}
    (hok : t.engine.OnePeer i) : t.StrayIgnored i := by
  intro peer sender htarget hsender hne
  have hstray (hp : t.engine.state = .Pairing) : sender ≠ t.engine.peer_mac := by
    intro h
    exact hne (h.trans (Option.some.inj ((ht.target hp).symm.trans htarget)))
  suffices h : t.engine.step i = t.engine by simp [h]
  cases i with
  | pairInitAck s corr_id nonce =>
    obtain rfl := Option.some.inj hsender
    have hno : ¬ t.engine.expectsPairInitAck corr_id := fun he => hstray he.2.1 (hok he)
    simp [PairingEngine.step, perform, onPairInitAck, hno]
  | pairConfirm s corr_id nonce =>
    obtain rfl := Option.some.inj hsender
    have hno : ¬ t.engine.expectsPairConfirm corr_id := fun he => hstray he.2.1 (hok he)
    simp [PairingEngine.step, perform, onPairConfirm, hno]
  | pairConfirmAck s corr_id flag =>
    obtain rfl := Option.some.inj hsender
    have hno : ¬ t.engine.expectsPairConfirmAck corr_id := fun he => hstray he.2.1 (hok he)
    simp [PairingEngine.step, perform, onPairConfirmAck, hno]
  | pairBusy s corr_id =>
    obtain rfl := Option.some.inj hsender
    have hno : ¬ t.engine.expectsPairBusy corr_id := fun he => hstray he.2.1 (hok he)
    simp [PairingEngine.step, perform, onPairBusy, hno]
  | _ => simp [PairingInput.answerSender] at hsender

end PairingTrace

open PairingTrace in
/-- In every run whose steps keep to one peer the link is authentic in every state reached, and
answers of strangers are ignored. -/
theorem pairing_peer_authentic (e : PairingEngine) (hboot : e.Booted) (t : PairingTrace)
    (hrun : Run PairingTrace.step (fun t i => t.engine.OnePeer i) (.start e) t) :
    t.LinkAuthentic ∧ ∀ i, t.engine.OnePeer i → t.StrayIgnored i := by
  have hinv : t.Inv := hrun.invariant (inv_start hboot) fun _ i hx hok => inv_step hx i hok
  exact ⟨hinv.linkAuthentic, fun _ hok => hinv.strayIgnored hok⟩

theorem PairingExample.master_booted : PairingExample.master.Booted :=
  ⟨_, _, _, _, _, _, _, _, rfl, by rintro s hs; obtain rfl := Option.some.inj hs; rfl⟩

open PairingExample in
/-- The undisturbed handshake ends secured and authentic. -/
theorem handshake_with_asked_node :
    let t := (handshake (mac 2)).foldl PairingTrace.step (.start master)
    t.engine.state = .Secured ∧ t.LinkAuthentic ∧ t.StrayIgnored (.pairBusy (mac 3) 9) := by
  have hadmitted : Admitted PairingTrace.step (fun t i => t.engine.OnePeer i) (.start master)
      (handshake (mac 2)) :=
    ⟨trivial, fun _ => by decide +kernel, trivial, trivial, fun _ => by decide +kernel, trivial⟩
  have hend : ((handshake (mac 2)).foldl PairingTrace.step (.start master)).engine.state =
      .Secured := by decide +kernel
  obtain ⟨hlink, hstray⟩ := pairing_peer_authentic master master_booted _
    (Run.of_admitted (handshake (mac 2)) hadmitted)
  exact ⟨hend, hlink, hstray _ fun hbusy => absurd (hend.symm.trans hbusy.2.1) (by simp)⟩

open PairingExample in
/-- A stranger that answers with the right correlation id and nonce gets the link key, and the
master reports and stores the node it asked, which has no key. -/
theorem stranger_completes_handshake : ¬ master.PeerAuthentic := by
  intro h
  obtain ⟨hlink, -⟩ := h _ (Run.of_admitted (handshake (mac 3)) (by simp [Admitted, handshake]))
  obtain ⟨peer, hpeer, hattached, -⟩ := hlink (by decide +kernel)
  have hreported : peer = mac 2 := by
    have : some peer = some (mac 2) := hpeer.symm.trans (by decide +kernel)
    exact Option.some.inj this
  subst hreported
  revert hattached
  decide +kernel

end EspNowLink
