import EspNowLink.Framework.Runs
import EspNowLink.Topology.Triggers

namespace EspNowLink

open Framework

/-- A received trigger frame, `elapsed_ms` after the one before. -/
structure TriggerInput where
  elapsed_ms : Nat
  sender : MacAddress
  corr_id : UInt32
  batch : Bool
  payload : Bytes

/-- What a well-formed frame comes to on a given device. -/
structure TriggerRequest where
  refusal : Option UInt8
  key : TriggerKey
  items_reason : UInt8
  notes : List TopologyTriggerNotification
  ack : TopologyTriggerAckPayload
  deriving DecidableEq

namespace TriggerReceiver

def receive (r : TriggerReceiver) (i : TriggerInput) : TriggerReceiver :=
  if i.batch then r.onRxTopologyTriggerBatch i.sender i.corr_id i.payload
  else r.onRxTopologyTrigger i.sender i.corr_id i.payload

def request (r : TriggerReceiver) (i : TriggerInput) : Option TriggerRequest :=
  if r.local_role ≠ .Slave then none
  else if i.batch then
    (parseTopologyTriggerBatchPayload i.payload).map fun trigger =>
      ⟨r.batchRefusal trigger, trigger.key i.sender,
        r.itemsReason i.sender trigger.src_role trigger.src_vid trigger.items,
        trigger.items.map (trigger.note i.sender), trigger.ack r⟩
  else
    (parseTopologyTriggerPayload i.payload).map fun trigger =>
      ⟨r.triggerRefusal i.sender trigger, trigger.key i.sender, kTopologyTriggerReasonOk,
        [trigger.note i.sender], trigger.ack r⟩

def handle (r : TriggerReceiver) (i : TriggerInput) (q : TriggerRequest) : TriggerReceiver :=
  r.handleTrigger i.sender i.corr_id q.refusal q.key q.items_reason q.notes q.ack

/-- The two handlers are one, after the frame is read. -/
theorem receive_eq (r : TriggerReceiver) (i : TriggerInput) :
    r.receive i = ((r.request i).map (r.handle i)).getD r := by
  unfold receive request onRxTopologyTriggerBatch onRxTopologyTrigger
  split <;> split
  · rfl
  · cases parseTopologyTriggerBatchPayload i.payload <;> rfl
  · rfl
  · cases parseTopologyTriggerPayload i.payload <;> rfl

/-- What no received trigger changes. -/
structure SameDevice (r s : TriggerReceiver) : Prop where
  local_role : s.local_role = r.local_role
  local_profile_id : s.local_profile_id = r.local_profile_id
  topology_committed : s.topology_committed = r.topology_committed
  has_hooks : s.has_hooks = r.has_hooks

theorem itemsReason_congr {r s : TriggerReceiver} (h : SameDevice r s) (sender : MacAddress)
    (src_role src_vid : UInt8) (items : List TopologyTriggerBatchItem) :
    s.itemsReason sender src_role src_vid items = r.itemsReason sender src_role src_vid items := by
  have hfind (dst_vid : UInt8) : s.findTopologyAuthorizedSourceSlot sender src_role src_vid dst_vid =
      r.findTopologyAuthorizedSourceSlot sender src_role src_vid dst_vid := by
    unfold findTopologyAuthorizedSourceSlot
    rw [h.topology_committed]
  induction items with
  | nil => rfl
  | cons item items ih => rw [itemsReason, itemsReason, ih, hfind]

theorem request_congr {r s : TriggerReceiver} (h : SameDevice r s) (i : TriggerInput) :
    s.request i = r.request i := by
  have hitems := itemsReason_congr h
  obtain ⟨role, profile, committed, hooks, now, dedup, notified, acks⟩ := r
  obtain ⟨role', profile', committed', hooks', now', dedup', notified', acks'⟩ := s
  obtain ⟨rfl, rfl, rfl, rfl⟩ := h
  simp only [request, hitems]
  rfl

/-- A retransmission asks for what the first transmission asked for. -/
theorem request_again {i i0 : TriggerInput} (r : TriggerReceiver) (hsender : i.sender = i0.sender)
    (hbatch : i.batch = i0.batch) (hpayload : i.payload = i0.payload) :
    r.request i = r.request i0 := by
  unfold request
  rw [hsender, hbatch, hpayload]

/-- What a handler does with a request: an ack in every case, and a notification for a new request
without a fault. -/
theorem handle_cases (r : TriggerReceiver) (i : TriggerInput) (q : TriggerRequest) :
    SameDevice r (r.handle i q) ∧ ∃ ack, (r.handle i q).acks = r.acks ++ [ack] ∧
      ((q.refusal.isSome ∧ ack.2.2.result = kTopologyTriggerResultRejected ∧
          (r.handle i q).topology_trigger_dedup = r.topology_trigger_dedup ∧
          (r.handle i q).notified = r.notified) ∨
        (q.refusal = none ∧ (r.isTopologyTriggerDuplicate q.key).1 = true ∧
          ack.2.2.result = kTopologyTriggerResultAccepted ∧
          (r.handle i q).topology_trigger_dedup =
            (r.isTopologyTriggerDuplicate q.key).2.topology_trigger_dedup ∧
          (r.handle i q).notified = r.notified) ∨
        (q.refusal = none ∧ (r.isTopologyTriggerDuplicate q.key).1 = false ∧
          (r.handle i q).topology_trigger_dedup =
            (r.isTopologyTriggerDuplicate q.key).2.topology_trigger_dedup ∧
          ((q.items_reason = kTopologyTriggerReasonOk ∧
              ack.2.2.result = kTopologyTriggerResultAccepted ∧
              (r.handle i q).notified = if r.has_hooks then r.notified ++ q.notes else r.notified) ∨
            (q.items_reason ≠ kTopologyTriggerReasonOk ∧
              ack.2.2.result = kTopologyTriggerResultRejected ∧
              (r.handle i q).notified = r.notified)))) := by
  obtain ⟨refusal, key, items_reason, notes, ack⟩ := q
  unfold handle handleTrigger
  cases refusal with
  | some reason => exact ⟨⟨rfl, rfl, rfl, rfl⟩, _, rfl, .inl ⟨rfl, rfl, rfl, rfl⟩⟩
  | none =>
    dsimp only
    rcases hd : r.isTopologyTriggerDuplicate key with ⟨duplicate, s⟩
    have hs : s = { r with topology_trigger_dedup := s.topology_trigger_dedup } := by
      obtain ⟨-, rfl⟩ := Prod.mk.inj hd
      rfl
    rw [hs]
    cases duplicate with
    | true => exact ⟨⟨rfl, rfl, rfl, rfl⟩, _, rfl, .inr (.inl ⟨rfl, rfl, rfl, rfl, rfl⟩)⟩
    | false =>
      refine ⟨⟨rfl, rfl, rfl, rfl⟩, _, rfl, .inr (.inr ⟨rfl, rfl, rfl, ?_⟩)⟩
      by_cases hok : items_reason = kTopologyTriggerReasonOk
      · exact .inl ⟨hok, by simp [hok], by simp [conclude, hok]⟩
      · exact .inr ⟨hok, by simp [hok], by simp [conclude, hok]⟩

/-- The device has a route from the note's source to its target. -/
def Authorizes (r : TriggerReceiver) (note : TopologyTriggerNotification) : Prop :=
  (r.findTopologyAuthorizedSourceSlot note.source note.src_role note.src_vid note.dst_vid).isSome

theorem itemsReason_ok {r : TriggerReceiver} {sender : MacAddress} {src_role src_vid : UInt8}
    {items : List TopologyTriggerBatchItem}
    (h : r.itemsReason sender src_role src_vid items = kTopologyTriggerReasonOk) :
    ∀ item ∈ items,
      (r.findTopologyAuthorizedSourceSlot sender src_role src_vid item.dst_vid).isSome := by
  induction items with
  | nil => simp
  | cons item items ih =>
    unfold itemsReason at h
    split at h
    · exact absurd h (by decide)
    split at h
    · exact absurd h (by decide)
    · rename_i hsome
      intro other hmem
      rcases List.mem_cons.mp hmem with rfl | hmem
      · simpa [Option.isSome_iff_ne_none] using hsome
      · exact ih h other hmem

/-- A request that passes all checks asks for routes the device has. -/
theorem request_authorized {r : TriggerReceiver} {i : TriggerInput} {q : TriggerRequest}
    (hq : r.request i = some q) (hrefusal : q.refusal = none)
    (hitems : q.items_reason = kTopologyTriggerReasonOk) : ∀ note ∈ q.notes, r.Authorizes note := by
  unfold request at hq
  split at hq
  · simp at hq
  split at hq
  · obtain ⟨trigger, -, rfl⟩ := Option.map_eq_some_iff.mp hq
    intro note hnote
    obtain ⟨item, hitem, rfl⟩ := List.mem_map.mp hnote
    exact itemsReason_ok hitems item hitem
  · obtain ⟨trigger, -, rfl⟩ := Option.map_eq_some_iff.mp hq
    intro note hnote
    obtain rfl := List.mem_singleton.mp hnote
    have hlast : (r.findTopologyAuthorizedSourceSlot i.sender trigger.src_role trigger.src_vid
        trigger.dst_vid).isNone = false := by
      by_contra hnone
      rw [Bool.not_eq_false] at hnone
      have hrefused : r.triggerRefusal i.sender trigger ≠ none := by
        unfold triggerRefusal
        simp only [hnone, if_true]
        repeat' split
        all_goals simp
      exact hrefused hrefusal
    simpa [Authorizes, TopologyTriggerPayload.note, Option.isSome_iff_ne_none] using hlast

end TriggerReceiver

/-- A reception of the run: what it asked for, whether it entered the dedup table, the ack it was
given and what the local handler was told. -/
structure TriggerArrival where
  input : TriggerInput
  request : TriggerRequest
  at_ms : Nat
  entered : Bool
  ack : Option (MacAddress × UInt32 × TopologyTriggerAckPayload)
  delivered : List TopologyTriggerNotification

namespace TriggerArrival

def result (h : TriggerArrival) : Option UInt8 := h.ack.map (·.2.2.result)
def Accepted (h : TriggerArrival) : Prop := h.result = some kTopologyTriggerResultAccepted
def Rejected (h : TriggerArrival) : Prop := h.result = some kTopologyTriggerResultRejected

/-- The same frame of the same sender again. -/
def Retransmits (h h0 : TriggerArrival) : Prop :=
  h.input.sender = h0.input.sender ∧ h.input.batch = h0.input.batch ∧
    h.input.payload = h0.input.payload

end TriggerArrival

/-- A device in a run, with the true time and the receptions of well-formed frames, the newest
first. -/
structure TriggerTrace where
  device : TriggerReceiver
  now : Nat
  history : List TriggerArrival

namespace TriggerTrace

def advance (t : TriggerTrace) (i : TriggerInput) : TriggerReceiver :=
  { t.device with current_now_ms := UInt32.ofNat (t.now + i.elapsed_ms) }

def reception (t : TriggerTrace) (i : TriggerInput) (q : TriggerRequest) : TriggerArrival where
  input := i
  request := q
  at_ms := t.now + i.elapsed_ms
  entered := q.refusal.isNone && !((t.advance i).isTopologyTriggerDuplicate q.key).1
  ack := (((t.advance i).receive i).acks.drop t.device.acks.length).head?
  delivered := ((t.advance i).receive i).notified.drop t.device.notified.length

def step (t : TriggerTrace) (i : TriggerInput) : TriggerTrace where
  device := (t.advance i).receive i
  now := t.now + i.elapsed_ms
  history :=
    match (t.advance i).request i with
    | none => t.history
    | some q => t.reception i q :: t.history

/-- What is to hold of a reception with the receptions before it. -/
structure Sound (device : TriggerReceiver) (earlier : List TriggerArrival) (h : TriggerArrival) : Prop where
  executed : h.Accepted → ∀ note ∈ h.request.notes, device.Authorizes note ∧
    ∃ h0 ∈ h :: earlier, note ∈ h0.delivered
  whole : h.delivered = [] ∨ h.delivered = h.request.notes
  once : h.delivered ≠ [] → ∀ h0 ∈ earlier, h0.delivered ≠ [] → h0.request.key = h.request.key →
    kTopologyTriggerDedupWindowMs.toNat < h.at_ms - h0.at_ms
  rejected : ∀ h0 ∈ earlier, h.Retransmits h0 → h0.Rejected → ¬ h.Accepted

/-- Every accepted trigger has been executed, and once; a rejected one stays rejected. -/
def ExecutedOnce (t : TriggerTrace) : Prop :=
  ∀ later h earlier, t.history = later ++ h :: earlier → Sound t.device earlier h

/-- The receptions that came as far as the dedup table. -/
def arrivals (history : List TriggerArrival) : List (TriggerKey × Nat) :=
  (history.filter (·.request.refusal.isNone)).map fun h => (h.request.key, h.at_ms)

/-- No more distinct triggers fall into a window than the table holds. -/
def Fits (t : TriggerTrace) (i : TriggerInput) : Prop :=
  ∀ q ∈ (t.advance i).request i, q.refusal = none →
    (DedupWindow.recentKeys kTopologyTriggerDedupWindowMs.toNat (t.now + i.elapsed_ms)
      ((q.key, t.now + i.elapsed_ms) :: arrivals t.history)).toFinset.card ≤
        kTopologyTriggerDedupMaxEntries

/-- A trigger that passes its checks finds a local handler. One that is found in the table passes them, and asks for
no more than the trigger that made the entry, which passed its own. -/
def Backed (t : TriggerTrace) (i : TriggerInput) : Prop :=
  ∀ q ∈ (t.advance i).request i, q.refusal = none →
    (q.items_reason = kTopologyTriggerReasonOk → t.device.has_hooks = true) ∧
    ∀ e ∈ DedupWindow.prune kTopologyTriggerDedupWindowMs kTopologyTriggerDedupMaxEntries
        (t.advance i).current_now_ms t.device.topology_trigger_dedup, e.key = q.key →
      q.items_reason = kTopologyTriggerReasonOk ∧
        ∀ h0 ∈ t.history, h0.entered = true → DedupWindow.stamp (h0.request.key, h0.at_ms) = e →
          h0.request.items_reason = kTopologyTriggerReasonOk ∧ ∀ note ∈ q.notes, note ∈ h0.request.notes

instance (t : TriggerTrace) (i : TriggerInput) : Decidable (t.Fits i) := by
  unfold Fits; infer_instance

instance (t : TriggerTrace) (i : TriggerInput) : Decidable (t.Backed i) := by
  unfold Backed; infer_instance

/-- The receptions that stand for the entries made in the dedup table. -/
def entries (history : List TriggerArrival) : List (TriggerKey × Nat) :=
  (history.filter (·.entered)).map fun h => (h.request.key, h.at_ms)

/-- What holds along a run. -/
structure Inv (t : TriggerTrace) : Prop where
  requests : ∀ h ∈ t.history, t.device.request h.input = some h.request
  tracks : DedupWindow.Tracks kTopologyTriggerDedupWindowMs t.device.topology_trigger_dedup
    (entries t.history) t.now
  entered : ∀ h ∈ t.history, h.entered = true → h.request.refusal = none
  delivered : ∀ h ∈ t.history, h.delivered ≠ [] → h.entered = true
  settled : ∀ h ∈ t.history, h.entered = true → h.request.items_reason = kTopologyTriggerReasonOk →
    h.delivered = h.request.notes
  faulty : ∀ h ∈ t.history, h.Rejected → h.request.refusal = none →
    h.request.items_reason ≠ kTopologyTriggerReasonOk
  sound : t.ExecutedOnce

theorem mem_entries {history : List TriggerArrival} {p : TriggerKey × Nat} (hp : p ∈ entries history) :
    ∃ h ∈ history, h.entered = true ∧ (h.request.key, h.at_ms) = p := by
  obtain ⟨h, hmem, rfl⟩ := List.mem_map.mp hp
  obtain ⟨hmem, hentered⟩ := List.mem_filter.mp hmem
  exact ⟨h, hmem, hentered, rfl⟩

theorem entries_cons (h : TriggerArrival) (history : List TriggerArrival) :
    entries (h :: history) =
      if h.entered then (h.request.key, h.at_ms) :: entries history else entries history := by
  unfold entries
  rw [List.filter_cons]
  split <;> rfl

theorem Inv.entries_subset {t : TriggerTrace} (ht : t.Inv) : entries t.history ⊆ arrivals t.history := by
  intro p hp
  obtain ⟨h, hmem, hentered, rfl⟩ := mem_entries hp
  refine List.mem_map.mpr ⟨h, List.mem_filter.mpr ⟨hmem, ?_⟩, rfl⟩
  rw [ht.entered h hmem hentered]
  rfl

theorem Sound.of_same {device device' : TriggerReceiver} {earlier : List TriggerArrival} {h : TriggerArrival}
    (hs : Sound device earlier h) (hsame : TriggerReceiver.SameDevice device device') :
    Sound device' earlier h := by
  refine ⟨fun hacc note hnote => ?_, hs.whole, hs.once, hs.rejected⟩
  obtain ⟨hauth, hdone⟩ := hs.executed hacc note hnote
  refine ⟨?_, hdone⟩
  unfold TriggerReceiver.Authorizes TriggerReceiver.findTopologyAuthorizedSourceSlot at hauth ⊢
  rw [hsame.topology_committed]
  exact hauth

/-- A reception at the front that is sound, and whose ghost fields say what happened, keeps the
invariant. -/
theorem Inv.cons {t : TriggerTrace} (ht : t.Inv) {device : TriggerReceiver} {now : Nat}
    {h : TriggerArrival} (hsame : TriggerReceiver.SameDevice t.device device)
    (hrequest : t.device.request h.input = some h.request)
    (htracks : DedupWindow.Tracks kTopologyTriggerDedupWindowMs device.topology_trigger_dedup
      (entries (h :: t.history)) now)
    (hentered : h.entered = true → h.request.refusal = none)
    (hdelivered : h.delivered ≠ [] → h.entered = true)
    (hsettled : h.entered = true → h.request.items_reason = kTopologyTriggerReasonOk →
      h.delivered = h.request.notes)
    (hfaulty : h.Rejected → h.request.refusal = none →
      h.request.items_reason ≠ kTopologyTriggerReasonOk)
    (hsound : Sound t.device t.history h) : Inv ⟨device, now, h :: t.history⟩ where
  requests := by
    intro h0 hmem
    change device.request h0.input = some h0.request
    rw [TriggerReceiver.request_congr hsame]
    rcases List.mem_cons.mp hmem with rfl | hmem
    · exact hrequest
    · exact ht.requests h0 hmem
  tracks := htracks
  entered := List.forall_mem_cons.mpr ⟨hentered, ht.entered⟩
  delivered := List.forall_mem_cons.mpr ⟨hdelivered, ht.delivered⟩
  settled := List.forall_mem_cons.mpr ⟨hsettled, ht.settled⟩
  faulty := List.forall_mem_cons.mpr ⟨hfaulty, ht.faulty⟩
  sound := by
    intro later h' earlier hsplit
    refine Sound.of_same ?_ hsame
    cases later with
    | nil =>
      obtain ⟨rfl, rfl⟩ := List.cons.inj hsplit
      exact hsound
    | cons x later => exact ht.sound later h' earlier (List.cons.inj hsplit).2

/-- A trigger that passes all its checks was not rejected before. -/
theorem Inv.not_rejected {t : TriggerTrace} (ht : t.Inv) {h : TriggerArrival}
    (hrequest : t.device.request h.input = some h.request) (hrefusal : h.request.refusal = none)
    (hitems : h.request.items_reason = kTopologyTriggerReasonOk) :
    ∀ h0 ∈ t.history, h.Retransmits h0 → ¬ h0.Rejected := by
  rintro h0 hmem ⟨hsender, hbatch, hpayload⟩ hrejected
  have hsame := (ht.requests h0 hmem).symm.trans
    (t.device.request_again hsender.symm hbatch.symm hpayload.symm)
  have heq : h0.request = h.request := Option.some.inj (hsame.trans hrequest)
  exact ht.faulty h0 hmem hrejected (heq ▸ hrefusal) (heq ▸ hitems)

theorem not_accepted {h : TriggerArrival} (hr : h.result = some kTopologyTriggerResultRejected) :
    ¬ h.Accepted := by
  intro hacc
  exact absurd (hr.symm.trans hacc) (by decide)

theorem not_rejected_of_accepted {h : TriggerArrival} (ha : h.Accepted) : ¬ h.Rejected := by
  intro hrej
  exact absurd (ha.symm.trans hrej) (by decide)

/-- A reception that was rejected and told the local handler nothing. -/
theorem Sound.of_rejected (device : TriggerReceiver) (earlier : List TriggerArrival) {h : TriggerArrival}
    (hr : h.result = some kTopologyTriggerResultRejected) (hd : h.delivered = []) :
    Sound device earlier h where
  executed := fun hacc => absurd hacc (not_accepted hr)
  whole := .inl hd
  once := fun hne => absurd hd hne
  rejected := fun _ _ _ _ => not_accepted hr

/-- A duplicate of a trigger that was executed. -/
theorem Inv.sound_duplicate {t : TriggerTrace} (ht : t.Inv) {h : TriggerArrival}
    (hrequest : t.device.request h.input = some h.request) (hrefusal : h.request.refusal = none)
    (hitems : h.request.items_reason = kTopologyTriggerReasonOk) (hd : h.delivered = [])
    {h0 : TriggerArrival} (hmem : h0 ∈ t.history) (hdone : ∀ note ∈ h.request.notes, note ∈ h0.delivered) :
    Sound t.device t.history h where
  executed := fun _ note hnote =>
    ⟨TriggerReceiver.request_authorized hrequest hrefusal hitems note hnote, h0,
      List.mem_cons_of_mem _ hmem, hdone note hnote⟩
  whole := .inl hd
  once := fun hne => absurd hd hne
  rejected := fun h1 hmem hagain hrej =>
    absurd hrej (ht.not_rejected hrequest hrefusal hitems h1 hmem hagain)

/-- A new trigger that passes its checks and is executed. -/
theorem Inv.sound_new {t : TriggerTrace} (ht : t.Inv) {h : TriggerArrival}
    (hrequest : t.device.request h.input = some h.request) (hrefusal : h.request.refusal = none)
    (hitems : h.request.items_reason = kTopologyTriggerReasonOk)
    (hd : h.delivered = h.request.notes)
    (hnew : ∀ p ∈ entries t.history, p.1 = h.request.key →
      kTopologyTriggerDedupWindowMs.toNat < h.at_ms - p.2) : Sound t.device t.history h where
  executed := fun _ note hnote =>
    ⟨TriggerReceiver.request_authorized hrequest hrefusal hitems note hnote, h,
      List.mem_cons_self, hd ▸ hnote⟩
  whole := .inr hd
  once := by
    intro _ h0 hmem hne hkey
    refine hnew (h0.request.key, h0.at_ms) ?_ hkey
    exact List.mem_map.mpr ⟨h0, List.mem_filter.mpr ⟨hmem, ht.delivered h0 hmem hne⟩, rfl⟩
  rejected := fun h1 hmem hagain hrej =>
    absurd hrej (ht.not_rejected hrequest hrefusal hitems h1 hmem hagain)

theorem inv_step {t : TriggerTrace} (ht : t.Inv) (i : TriggerInput) (hfits : t.Fits i)
    (hbacked : t.Backed i) : (t.step i).Inv := by
  have hadvance : TriggerReceiver.SameDevice t.device (t.advance i) := ⟨rfl, rfl, rfl, rfl⟩
  have hreceive := (t.advance i).receive_eq i
  have htracks := ht.tracks.later (Nat.le_add_right t.now i.elapsed_ms)
  unfold step
  cases hq : (t.advance i).request i with
  | none =>
    rw [hq] at hreceive
    rw [hreceive]
    exact ⟨fun h hmem => (TriggerReceiver.request_congr hadvance _).trans (ht.requests h hmem),
      htracks, ht.entered, ht.delivered, ht.settled, ht.faulty,
      fun later h earlier hsplit => (ht.sound later h earlier hsplit).of_same hadvance⟩
  | some q =>
    rw [hq] at hreceive
    have hrequest : t.device.request i = some q :=
      (TriggerReceiver.request_congr hadvance i).symm.trans hq
    obtain ⟨hsame, ack, hacks, hcases⟩ := (t.advance i).handle_cases i q
    have hreceive : (t.advance i).receive i = (t.advance i).handle i q := hreceive
    have hdevice : TriggerReceiver.SameDevice t.device ((t.advance i).handle i q) :=
      ⟨hsame.local_role, hsame.local_profile_id, hsame.topology_committed, hsame.has_hooks⟩
    -- what the trace notes of the reception
    have hresult : (t.reception i q).result = some ack.2.2.result := by
      have hold : (t.advance i).acks = t.device.acks := rfl
      simp [TriggerArrival.result, reception, hreceive, hacks, hold]
    have hnotes (new : List TopologyTriggerNotification)
        (h : ((t.advance i).handle i q).notified = t.device.notified ++ new) :
        (t.reception i q).delivered = new := by simp [reception, hreceive, h]
    have hcheck (hrefusal : q.refusal = none) := htracks.check q.key
      ((DedupWindow.card_recentKeys_le (List.cons_subset_cons _ ht.entries_subset)).trans
        (hfits q hq hrefusal))
    rw [hreceive]
    rcases hcases with ⟨hrefusal, hrej, hdedup, hsilent⟩ | ⟨hrefusal, hdup, hacc, hdedup, hsilent⟩ |
      ⟨hrefusal, hdup, hdedup, hitems⟩
    · -- refused before the dedup table
      obtain ⟨reason, hreason⟩ := Option.isSome_iff_exists.mp hrefusal
      have hentered : (t.reception i q).entered = false := by simp [reception, hreason]
      have hreason : (t.reception i q).request.refusal = some reason := hreason
      have hsilent := hnotes [] (hsilent.trans (List.append_nil _).symm)
      have hsound := Sound.of_rejected t.device t.history
        (hresult.trans (congrArg some hrej)) hsilent
      refine ht.cons hdevice hrequest ?_ (by simp [hentered]) (by simp [hsilent])
        (by simp [hentered]) (by simp [hreason]) hsound
      rw [entries_cons, hentered, hdedup]
      exact htracks
    · -- found in the dedup table
      have hentered : (t.reception i q).entered = false := by simp [reception, hdup]
      have hsilent := hnotes [] (hsilent.trans (List.append_nil _).symm)
      have haccepted : (t.reception i q).Accepted := hresult.trans (congrArg some hacc)
      rcases hcheck hrefusal with ⟨-, htable, p, hp, hkey, hstamp⟩ | ⟨hfresh, -⟩
      · obtain ⟨h0, hmem, hentered0, rfl⟩ := mem_entries hp
        obtain ⟨hitems, hbehind⟩ := (hbacked q hq hrefusal).2 _ hstamp hkey
        obtain ⟨hitems0, hcovered⟩ := hbehind h0 hmem hentered0 rfl
        have hdone : ∀ note ∈ q.notes, note ∈ h0.delivered := by
          rw [ht.settled h0 hmem hentered0 hitems0]
          exact hcovered
        have hsound := ht.sound_duplicate (h := t.reception i q) hrequest hrefusal hitems hsilent
          hmem hdone
        refine ht.cons hdevice hrequest ?_ (by simp [hentered]) (by simp [hsilent])
          (by simp [hentered]) (fun hrej => absurd hrej (not_rejected_of_accepted haccepted)) hsound
        rw [entries_cons, hentered, hdedup]
        exact htable
      · exact absurd (hfresh.symm.trans hdup) (by simp)
    · -- entered in the dedup table
      have hentered : (t.reception i q).entered = true := by simp [reception, hdup, hrefusal]
      rcases hcheck hrefusal with ⟨hfound, -⟩ | ⟨-, htable, hnew⟩
      · exact absurd (hfound.symm.trans hdup) (by simp)
      have htracks' : DedupWindow.Tracks kTopologyTriggerDedupWindowMs
          ((t.advance i).handle i q).topology_trigger_dedup (entries (t.reception i q :: t.history))
          (t.now + i.elapsed_ms) := by
        rw [entries_cons, hentered, hdedup]
        exact htable
      rcases hitems with ⟨hitems, hacc, hdone⟩ | ⟨hitems, hrej, hsilent⟩
      · have hhooks : (t.advance i).has_hooks = true := (hbacked q hq hrefusal).1 hitems
        rw [if_pos hhooks] at hdone
        have hdone := hnotes _ hdone
        have haccepted : (t.reception i q).Accepted := hresult.trans (congrArg some hacc)
        exact ht.cons hdevice hrequest htracks' (fun _ => hrefusal) (fun _ => hentered)
          (fun _ _ => hdone) (fun hrej => absurd hrej (not_rejected_of_accepted haccepted))
          (ht.sound_new hrequest hrefusal hitems hdone hnew)
      · have hsilent := hnotes [] (hsilent.trans (List.append_nil _).symm)
        exact ht.cons hdevice hrequest htracks' (fun _ => hrefusal) (by simp [hsilent])
          (fun _ hok => absurd hok hitems) (fun _ _ => hitems)
          (Sound.of_rejected _ _ (hresult.trans (congrArg some hrej)) hsilent)

end TriggerTrace

/-- A device as it is set up, before its first trigger. -/
def TriggerReceiver.Fresh (r : TriggerReceiver) : Prop :=
  r.topology_trigger_dedup = [] ∧ r.notified = [] ∧ r.acks = []

open TriggerTrace in
/-- Where every trigger found in the dedup table stands for an executed one, accepted triggers have
been executed once and rejected ones stay rejected. -/
theorem triggers_executed_once (r : TriggerReceiver) (hfresh : r.Fresh) (now : Nat)
    (t : TriggerTrace)
    (hrun : Run TriggerTrace.step (fun t i => t.Fits i ∧ t.Backed i) ⟨r, now, []⟩ t) :
    t.ExecutedOnce := by
  have hstart : Inv ⟨r, now, []⟩ := by
    refine ⟨by simp, ?_, by simp, by simp, by simp, by simp, by simp [ExecutedOnce]⟩
    change DedupWindow.Tracks _ r.topology_trigger_dedup [] now
    rw [hfresh.1]
    exact .empty now
  exact (hrun.invariant hstart fun x i hx hok => inv_step hx i hok.1 hok.2).sound

/-! A relay with one route: from the physical sensor `02:02:02:02:02:02` to itself. -/

namespace TriggerExample

def sensor : MacAddress := Vector.replicate 6 2

def noSlot : TopologySlot := ⟨false, zeroMac, 0, 0, 0, 0xFF, 0xFF, 0, 0, 0⟩

def route : TopologySlot := ⟨true, sensor, 3, 1, 1, 0xFF, 0xFF, 1, 0, 0⟩

def snapshot : TopologySnapshot where
  schema_version := 1
  state := .Committed
  topology_version := 1
  index_neg := 0
  index_pos := 1
  enabled_slot_count := 1
  enabled_group_count := 0
  checksum := 0
  slots := (Vector.replicate kTopologyMaxSlots noSlot).set 0 route
  groups := Vector.replicate kTopologyMaxGroups ⟨false, 0, Vector.replicate 32 0⟩

def relay : TriggerReceiver where
  local_role := .Slave
  local_profile_id := kProfileRelay
  topology_committed := some snapshot
  has_hooks := true
  current_now_ms := 0
  topology_trigger_dedup := []
  notified := []
  acks := []

/-- A batch of the sensor, with sequence number 7, for the given virtual indices of the relay. -/
def batch (targets : List UInt8) : TriggerInput where
  elapsed_ms := 10
  sender := sensor
  corr_id := 1
  batch := true
  payload := [0xED, 1, 3, 1, 0, 0, 0, 7, 0, 3, 0xFF, 2, 1, UInt8.ofNat targets.length] ++
    targets.flatMap fun vid => [vid, 1, 0, 0, 100, 0]

end TriggerExample

open TriggerExample in
/-- A batch for the relay itself is executed, and its retransmission only acknowledged. -/
theorem retransmitted_batch_executed_once :
    let t := [batch [0xFF], batch [0xFF]].foldl TriggerTrace.step ⟨relay, 0, []⟩
    (t.device.acks.map (·.2.2.result) = [0, 0] ∧ t.device.notified.length = 1) ∧ t.ExecutedOnce := by
  refine ⟨by decide +kernel, ?_⟩
  refine triggers_executed_once relay ⟨rfl, rfl, rfl⟩ 0 _ (Run.of_admitted _ ?_)
  exact ⟨by decide +kernel, by decide +kernel, trivial⟩

open TriggerExample in
/-- A batch with a target that the relay has no route to is rejected. Its retransmission is
acknowledged as accepted, though no item of it was executed. -/
theorem rejected_batch_accepted_again :
    ¬ ∀ r : TriggerReceiver, r.Fresh → r.has_hooks = true → ∀ now t,
      Run TriggerTrace.step TriggerTrace.Fits ⟨r, now, []⟩ t → t.ExecutedOnce := by
  intro h
  let t := [batch [0xFF, 1], batch [0xFF, 1]].foldl TriggerTrace.step ⟨relay, 0, []⟩
  have hrun : Run TriggerTrace.step TriggerTrace.Fits ⟨relay, 0, []⟩ t :=
    Run.of_admitted _ ⟨by decide +kernel, by decide +kernel, trivial⟩
  have hsound := h relay ⟨rfl, rfl, rfl⟩ rfl 0 t hrun
  obtain ⟨second, first, hhistory⟩ : ∃ second first, t.history = [second, first] := ⟨_, _, rfl⟩
  have hlist : t.history.map (fun h => (h.result, h.delivered, h.request.notes.length)) =
      [(some 0, [], 2), (some 1, [], 2)] := by decide +kernel
  rw [hhistory] at hlist
  obtain ⟨hsecond, hrest⟩ := List.cons.inj hlist
  obtain ⟨hresult, hsilent, hlength⟩ : second.result = some 0 ∧ second.delivered = [] ∧
      second.request.notes.length = 2 := by simpa using hsecond
  have hfirst : first.delivered = [] := by
    have := (List.cons.inj hrest).1
    exact congrArg (·.2.1) this
  obtain ⟨note, hnote⟩ := List.exists_mem_of_length_pos (l := second.request.notes) (by omega)
  obtain ⟨-, h0, hmem, hdone⟩ := (hsound [] second [first] hhistory).executed hresult note hnote
  rcases List.mem_cons.mp hmem with rfl | hmem
  · simp [hsilent] at hdone
  · obtain rfl := List.mem_singleton.mp hmem
    simp [hfirst] at hdone

end EspNowLink
