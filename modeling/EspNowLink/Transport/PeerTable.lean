import EspNowLink.Framework.Mirror
import EspNowLink.Framework.Runs
import EspNowLink.Transport.EspNow
import Mathlib.Data.List.Nodup

open Framework

namespace EspNowLink

namespace EspNowArduinoTransport

section Conditions

/-- A peer of the radio is what the cache's entry says: the same flag and, if the entry has a key,
that key. -/
def Fits (entry : PeerCacheEntry) (p : EspNowPeerInfo) : Prop :=
  entry.encrypted = p.encrypt ∧ (entry.has_lmk = true → p.lmk = entry.lmk)

/-- The peers of the radio are in the cache. -/
def FollowsCache (t : EspNowArduinoTransport) : Prop := Mirrors Fits t.findPeerCacheEntry t.peers

/-- `addPeer` with the intent to encrypt and no key would attach the peer anew: the radio does not have
it so on its channel, and takes it. -/
def AttachesAnew (t : EspNowArduinoTransport) (mac : MacAddress) (answer : Nat → RadioAnswer) : Prop :=
  match t.peers mac with
  | none => (answer 0).rc = .ESP_OK
  | some p => ¬(p.encrypt = true ∧ p.channel = t.channel) ∧ (answer 0).rc = .ESP_OK ∧
      (answer 1).rc = .ESP_OK

/-- The calls that the cache survives: a removal is one the radio carries out, and a peer whose key is
in the cache is attached anew with a key only. -/
def Careful (t : EspNowArduinoTransport) (input : TransportInput) : Prop :=
  match input.call with
  | .addPeer mac true none => ∀ entry, t.findPeerCacheEntry mac = some entry → entry.has_lmk = true →
      entry.lmk ≠ zeroKey → ¬AttachesAnew t mac input.answer
  | .removePeer mac => (t.peers mac).isSome = true → (input.answer 0).rc = .ESP_OK
  | _ => True

/-- A transport as it starts: no peers yet. -/
def Started (t : EspNowArduinoTransport) : Prop := (∀ mac, t.peers mac = none) ∧ t.peer_cache = []

end Conditions

section Cache

/-- The entries are apart, and only those of encrypted peers have a key. -/
structure WellFormed (entries : List PeerCacheEntry) : Prop where
  unique : (entries.map PeerCacheEntry.mac).Nodup
  keyed : ∀ entry ∈ entries, entry.has_lmk = true → entry.encrypted = true

variable {mac : MacAddress} {encrypted : Bool} {lmk : Option LmkKey} {entries : List PeerCacheEntry}

@[simp] theorem refreshed_mac (entry : PeerCacheEntry) : (refreshed encrypted lmk entry).mac = entry.mac := by
  cases encrypted <;> cases lmk <;> rfl

@[simp] theorem refreshed_encrypted (entry : PeerCacheEntry) :
    (refreshed encrypted lmk entry).encrypted = encrypted := by
  cases encrypted <;> cases lmk <;> rfl

theorem refreshed_has_lmk (entry : PeerCacheEntry) (h : (refreshed encrypted lmk entry).has_lmk = true) :
    encrypted = true := by
  cases encrypted with
  | false => exact h
  | true => rfl

theorem mem_upsertEntry_macs {m : MacAddress}
    (h : m ∈ (upsertEntry mac encrypted lmk entries).map PeerCacheEntry.mac) :
    m = mac ∨ m ∈ entries.map PeerCacheEntry.mac := by
  induction entries with
  | nil => exact .inl (List.mem_singleton.mp h)
  | cons entry entries ih =>
    rw [upsertEntry] at h
    split at h
    · rw [List.map_cons, refreshed_mac] at h
      exact .inr h
    · rw [List.map_cons, List.mem_cons] at h
      rw [List.map_cons, List.mem_cons]
      rcases h with rfl | h
      · exact .inr (.inl rfl)
      · exact (ih h).imp id .inr

theorem WellFormed.upsertEntry (h : WellFormed entries) :
    WellFormed (upsertEntry mac encrypted lmk entries) := by
  induction entries with
  | nil =>
    refine ⟨List.nodup_singleton mac, fun entry he hlmk => ?_⟩
    rw [List.mem_singleton.mp he] at hlmk ⊢
    exact (Bool.and_eq_true_iff.mp hlmk).1
  | cons entry entries ih =>
    have hunique := List.nodup_cons.mp h.unique
    have hkeyed := List.forall_mem_cons.mp h.keyed
    rw [EspNowArduinoTransport.upsertEntry]
    split
    · refine ⟨?_, List.forall_mem_cons.mpr ⟨?_, hkeyed.2⟩⟩
      · rw [List.map_cons, refreshed_mac]
        exact h.unique
      · rw [refreshed_encrypted]
        exact refreshed_has_lmk entry
    · rename_i hmac
      have hrest := ih ⟨hunique.2, hkeyed.2⟩
      refine ⟨?_, List.forall_mem_cons.mpr ⟨hkeyed.1, hrest.keyed⟩⟩
      rw [List.map_cons, List.nodup_cons]
      refine ⟨fun hmem => ?_, hrest.unique⟩
      rcases mem_upsertEntry_macs hmem with heq | hmem
      · exact hmac heq
      · exact hunique.1 hmem

theorem find_upsertEntry_of_ne {m : MacAddress} (hm : m ≠ mac) :
    (upsertEntry mac encrypted lmk entries).find? (fun entry => entry.mac = m) =
      entries.find? fun entry => entry.mac = m := by
  induction entries with
  | nil => simp [upsertEntry, hm.symm]
  | cons entry entries ih =>
    rw [upsertEntry]
    split
    · rename_i hmac
      have hne : entry.mac ≠ m := fun heq => hm (heq.symm.trans hmac)
      simp [hne]
    · rw [List.find?_cons, List.find?_cons, ih]

theorem find_upsertEntry_intent {old : PeerCacheEntry}
    (h : entries.find? (fun entry => entry.mac = mac) = some old) :
    (upsertEntry mac true none entries).find? (fun entry => entry.mac = mac) =
      some (refreshed true none old) := by
  induction entries with
  | nil => exact absurd h (by simp)
  | cons entry entries ih =>
    rw [upsertEntry]
    by_cases hmac : entry.mac = mac
    · rw [List.find?_cons, decide_eq_true hmac] at h
      cases h
      rw [if_pos hmac, List.find?_cons, refreshed_mac, decide_eq_true hmac]
    · rw [List.find?_cons, decide_eq_false hmac] at h
      rw [if_neg hmac, List.find?_cons, decide_eq_false hmac]
      exact ih h

variable (mac encrypted lmk entries) in
/-- The entry of an address after `upsertEntry`. -/
theorem find_upsertEntry_self :
    ∃ entry, (upsertEntry mac encrypted lmk entries).find? (fun entry => entry.mac = mac) = some entry ∧
      entry.encrypted = encrypted ∧
      (entry.has_lmk = true → encrypted = true ∧
        ((∃ key, lmk = some key ∧ entry.lmk = key) ∨
          lmk = none ∧ ∃ old, entries.find? (fun entry => entry.mac = mac) = some old ∧
            old.has_lmk = true ∧ entry.lmk = old.lmk)) := by
  induction entries with
  | nil =>
    refine ⟨⟨mac, encrypted, encrypted && lmk.isSome, if encrypted then lmk.getD zeroKey else zeroKey⟩,
      by simp [upsertEntry], rfl, fun hlmk => ?_⟩
    simp only [Bool.and_eq_true] at hlmk
    obtain ⟨rfl, hsome⟩ := hlmk
    obtain ⟨key, rfl⟩ := Option.isSome_iff_exists.mp hsome
    exact ⟨rfl, .inl ⟨key, rfl, rfl⟩⟩
  | cons entry entries ih =>
    rw [upsertEntry]
    by_cases hmac : entry.mac = mac
    · rw [if_pos hmac]
      refine ⟨refreshed encrypted lmk entry, by simp [hmac], refreshed_encrypted entry, fun hlmk => ?_⟩
      have hencrypted := refreshed_has_lmk entry hlmk
      subst hencrypted
      refine ⟨rfl, ?_⟩
      cases lmk with
      | some key => exact .inl ⟨key, rfl, rfl⟩
      | none =>
        have hold : entry.has_lmk = true := hlmk
        refine .inr ⟨rfl, entry, by simp [hmac], hold, ?_⟩
        simp [refreshed, hold]
    · rw [if_neg hmac]
      simpa [List.find?_cons, hmac] using ih

theorem WellFormed.erase (h : WellFormed entries) :
    WellFormed (entries.filter fun entry => entry.mac ≠ mac) := by
  refine ⟨?_, fun entry he => h.keyed entry (List.mem_filter.mp he).1⟩
  exact h.unique.sublist (List.filter_sublist.map PeerCacheEntry.mac)

theorem WellFormed.find_of_mem (h : WellFormed entries) {entry : PeerCacheEntry} (he : entry ∈ entries) :
    entries.find? (fun e => e.mac = entry.mac) = some entry := by
  induction entries with
  | nil => exact absurd he List.not_mem_nil
  | cons first entries ih =>
    have hunique := List.nodup_cons.mp h.unique
    rw [List.find?_cons]
    by_cases hfirst : first.mac = entry.mac
    · rw [decide_eq_true hfirst]
      rcases List.mem_cons.mp he with rfl | he
      · rfl
      · rw [hfirst] at hunique
        exact absurd (List.mem_map_of_mem he) hunique.1
    · rw [decide_eq_false hfirst]
      have htail : entry ∈ entries := (List.mem_cons.mp he).resolve_left fun heq => hfirst (heq ▸ rfl)
      exact ih ⟨hunique.2, fun e he => h.keyed e (List.mem_cons_of_mem first he)⟩ htail

end Cache

section Peers

/-- The peers of the radio are in the cache, and the cache is well formed. -/
structure Mirrored (t : EspNowArduinoTransport) : Prop where
  follows : t.FollowsCache
  cache : WellFormed t.peer_cache

variable {t u : EspNowArduinoTransport} {mac : MacAddress} {encrypted : Bool} {lmk : Option LmkKey}

theorem findPeerCacheEntry_congr (h : u.peer_cache = t.peer_cache) :
    u.findPeerCacheEntry = t.findPeerCacheEntry := by
  funext mac
  rw [findPeerCacheEntry, findPeerCacheEntry, h]

theorem Mirrored.of_same (h : t.Mirrored) (hpeers : u.peers = t.peers)
    (hcache : u.peer_cache = t.peer_cache) : u.Mirrored := by
  refine ⟨?_, hcache.symm ▸ h.cache⟩
  rw [FollowsCache, hpeers, findPeerCacheEntry_congr hcache]
  exact h.follows

theorem Mirrored.of_lost (h : t.Mirrored) (hpeers : u.peers = Function.update t.peers mac none)
    (hcache : u.peer_cache = t.peer_cache) : u.Mirrored := by
  refine ⟨?_, hcache.symm ▸ h.cache⟩
  rw [FollowsCache, hpeers, findPeerCacheEntry_congr hcache]
  exact h.follows.erase mac

/-- A deletion removes the peer or changes nothing. -/
theorem esp_now_del_peer_cases (t : EspNowArduinoTransport) (mac : MacAddress) :
    let u := (t.esp_now_del_peer mac).2
    u.peer_cache = t.peer_cache ∧ u.channel = t.channel ∧ u.answer = t.answer ∧
      ((t.peers mac = none ∧ u.peers = t.peers ∧ u.calls = t.calls) ∨
        ((t.peers mac).isSome = true ∧ u.calls = t.calls + 1 ∧
          u.peers = if (t.answer t.calls).rc = .ESP_OK then Function.update t.peers mac none
            else t.peers)) := by
  rw [esp_now_del_peer, esp_now_is_peer_exist, ask]
  cases hp : t.peers mac with
  | none => simp
  | some p =>
    by_cases hrc : (t.answer t.calls).rc = .ESP_OK
    · simp [hrc]
    · simp [hrc]

/-- An addition needs a free place and an answer that grants it. -/
theorem esp_now_add_peer_cases (t : EspNowArduinoTransport) (mac : MacAddress) (p : EspNowPeerInfo) :
    let r := t.esp_now_add_peer mac p
    r.2.peer_cache = t.peer_cache ∧
      if t.peers mac = none ∧ (t.answer t.calls).rc = .ESP_OK then
        r.1 = .ESP_OK ∧ r.2.peers = Function.update t.peers mac (some p)
      else r.1 ≠ .ESP_OK ∧ r.2.peers = t.peers := by
  rw [esp_now_add_peer, esp_now_is_peer_exist, ask]
  cases hp : t.peers mac with
  | some old => simp
  | none =>
    by_cases hrc : (t.answer t.calls).rc = .ESP_OK
    · simp [hrc]
    · simp [hrc]

/-- What an attachment with a key that may be missing puts in the table. -/
def attached (t : EspNowArduinoTransport) (encrypted : Bool) (lmk : Option LmkKey) : EspNowPeerInfo :=
  ⟨t.channel, encrypted, if encrypted then lmk.getD zeroKey else zeroKey⟩

theorem attach_cases (t : EspNowArduinoTransport) (mac : MacAddress) (encrypted : Bool)
    (lmk : Option LmkKey) :
    let u := (t.attach mac encrypted lmk).2
    if t.peers mac = none ∧ (t.answer t.calls).rc = .ESP_OK then
      u.peers = Function.update t.peers mac (some (t.attached encrypted lmk)) ∧
        u.peer_cache = upsertEntry mac encrypted lmk t.peer_cache
    else u.peers = t.peers ∧ u.peer_cache = t.peer_cache := by
  obtain ⟨hcache, hcase⟩ := esp_now_add_peer_cases t mac (t.attached encrypted lmk)
  rw [attach]
  rw [attached] at hcache hcase ⊢
  split at hcase <;> rename_i hfree
  · rw [if_pos hfree]
    obtain ⟨hrc, hpeers⟩ := hcase
    split <;> rename_i v hv
    · rw [hv] at hpeers hcache
      exact ⟨hpeers, congrArg _ hcache⟩
    · rw [hv] at hrc
      exact absurd hrc (by assumption)
  · rw [if_neg hfree]
    obtain ⟨hrc, hpeers⟩ := hcase
    split <;> rename_i v hv
    · rw [hv] at hrc
      exact absurd rfl hrc
    · rw [hv] at hpeers hcache
      exact ⟨hpeers, hcache⟩

/-- `addPeer` attaches the peer anew. -/
def Recreates (t : EspNowArduinoTransport) (mac : MacAddress) (encrypted : Bool) (lmk : Option LmkKey) :
    Prop :=
  match t.peers mac with
  | none => (t.answer t.calls).rc = .ESP_OK
  | some oldp => t.keepExisting oldp encrypted lmk = false ∧ (t.answer t.calls).rc = .ESP_OK ∧
      (t.answer (t.calls + 1)).rc = .ESP_OK

/-- `addPeer` fails, keeps the peer of the radio as it is, or attaches it anew. -/
theorem addPeer_cases (t : EspNowArduinoTransport) (mac : MacAddress) (encrypted : Bool)
    (lmk : Option LmkKey) :
    let u := (t.addPeer mac encrypted lmk).2
    (¬t.Recreates mac encrypted lmk ∧ u.peer_cache = t.peer_cache ∧
        (u.peers = t.peers ∨ u.peers = Function.update t.peers mac none)) ∨
      (¬t.Recreates mac encrypted lmk ∧ u.peer_cache = upsertEntry mac encrypted lmk t.peer_cache ∧
        u.peers = t.peers ∧
        ∃ oldp, t.peers mac = some oldp ∧ t.keepExisting oldp encrypted lmk = true) ∨
      (t.Recreates mac encrypted lmk ∧ u.peer_cache = upsertEntry mac encrypted lmk t.peer_cache ∧
        u.peers = Function.update t.peers mac (some (t.attached encrypted lmk))) := by
  rw [addPeer, Recreates]
  cases hp : t.peers mac with
  | none =>
    have hattach := attach_cases t mac encrypted lmk
    simp only [hp, true_and] at hattach ⊢
    split at hattach <;> rename_i hrc
    · exact .inr (.inr ⟨hrc, hattach.2, hattach.1⟩)
    · exact .inl ⟨hrc, hattach.2, .inl hattach.1⟩
  | some oldp =>
    cases hkeep : t.keepExisting oldp encrypted lmk with
    | true =>
      simp only [hkeep, if_true]
      exact .inr (.inl ⟨by simp, rfl, rfl, oldp, rfl, hkeep⟩)
    | false =>
      simp only [hkeep, Bool.false_eq_true, if_false, true_and]
      obtain ⟨hcache, hchannel, hanswer, hnone | ⟨-, hcalls, hpeers⟩⟩ := esp_now_del_peer_cases t mac
      · rw [hp] at hnone
        exact absurd hnone.1 (by simp)
      · have hattach := attach_cases (t.esp_now_del_peer mac).2 mac encrypted lmk
        have hsame : (t.esp_now_del_peer mac).2.attached encrypted lmk = t.attached encrypted lmk := by
          rw [attached, attached, hchannel]
        rw [hanswer, hcalls, hcache, hsame, hpeers] at hattach
        by_cases hdel : (t.answer t.calls).rc = .ESP_OK
        · simp only [hdel, if_true, Function.update_self, true_and, Function.update_idem] at hattach
          split at hattach <;> rename_i hadd
          · exact .inr (.inr ⟨⟨hdel, hadd⟩, hattach.2, hattach.1⟩)
          · exact .inl ⟨fun h => hadd h.2, hattach.2, .inr hattach.1⟩
        · simp only [hdel, if_false, hp, reduceCtorEq, false_and] at hattach
          exact .inl ⟨fun h => hdel h.1, hattach.2, .inl hattach.1⟩

/-- An entry that a peer was looked up by fits the table after `upsertEntry`, if the key is given or
there is none to lose. -/
theorem upserted_fits {p : EspNowPeerInfo} (hencrypt : p.encrypt = encrypted)
    (hgiven : ∀ key, encrypted = true → lmk = some key → p.lmk = key)
    (hkept : ∀ old, encrypted = true → lmk = none → t.findPeerCacheEntry mac = some old →
      old.has_lmk = true → p.lmk = old.lmk) :
    ∃ entry, (upsertEntry mac encrypted lmk t.peer_cache).find? (fun entry => entry.mac = mac) =
      some entry ∧ Fits entry p := by
  obtain ⟨entry, hfind, hflag, hkey⟩ :=
    find_upsertEntry_self mac encrypted lmk t.peer_cache
  refine ⟨entry, hfind, hflag.trans hencrypt.symm, fun hlmk => ?_⟩
  obtain ⟨hencrypted, ⟨key, hkey, heq⟩ | ⟨hnone, old, hold, hhas, heq⟩⟩ := hkey hlmk
  · rw [heq]
    exact hgiven key hencrypted hkey
  · rw [heq]
    exact hkept old hencrypted hnone hold hhas

/-- `addPeer` takes a key from the cache away from the radio. -/
def LosesKey (t : EspNowArduinoTransport) (mac : MacAddress) (encrypted : Bool) (lmk : Option LmkKey) :
    Prop :=
  encrypted = true ∧ lmk = none ∧ t.Recreates mac encrypted lmk ∧
    ∃ old, t.findPeerCacheEntry mac = some old ∧ old.has_lmk = true ∧ old.lmk ≠ zeroKey

theorem Mirrored.upserted (h : t.Mirrored) (hcache : u.peer_cache = upsertEntry mac encrypted lmk t.peer_cache)
    (hpeers : ∀ m ≠ mac, u.peers m = t.peers m)
    (hfits : ∀ p, u.peers mac = some p → ∃ entry,
      (upsertEntry mac encrypted lmk t.peer_cache).find? (fun entry => entry.mac = mac) = some entry ∧
        Fits entry p) : u.Mirrored := by
  refine ⟨?_, hcache.symm ▸ h.cache.upsertEntry⟩
  have hfind : ∀ m, u.findPeerCacheEntry m =
      (upsertEntry mac encrypted lmk t.peer_cache).find? fun entry => entry.mac = m := by
    intro m
    rw [findPeerCacheEntry, hcache]
  refine Mirrors.replace h.follows mac (fun m hm => ?_) hpeers fun p hp => ?_
  · rw [hfind m, find_upsertEntry_of_ne hm]
    rfl
  · rw [hfind mac]
    exact hfits p hp

/-- A mirrored transport stays so in `addPeer`, unless the radio loses a key. -/
theorem Mirrored.addPeer (h : t.Mirrored) (hkey : ¬t.LosesKey mac encrypted lmk) :
    (t.addPeer mac encrypted lmk).2.Mirrored := by
  obtain ⟨-, hcache, hpeers | hpeers⟩ | ⟨-, hcache, hpeers, oldp, hold, hkeep⟩ |
    ⟨hanew, hcache, hpeers⟩ := addPeer_cases t mac encrypted lmk
  · exact h.of_same hpeers hcache
  · exact h.of_lost hpeers hcache
  · refine h.upserted hcache (fun m _ => by rw [hpeers]) fun p hp => ?_
    rw [hpeers, hold, Option.some_inj] at hp
    subst hp
    obtain ⟨cached, hcached, -, hlmk⟩ := h.follows mac oldp hold
    simp only [keepExisting, Bool.and_eq_true, decide_eq_true_eq] at hkeep
    refine upserted_fits hkeep.1.1 ?_ ?_
    · rintro key rfl rfl
      simpa using hkeep.2
    · rintro old - - hfound hhas
      rw [hcached, Option.some_inj] at hfound
      exact hfound ▸ hlmk (hfound ▸ hhas)
  · refine h.upserted hcache (fun m hm => by rw [hpeers, Function.update_of_ne hm]) fun p hp => ?_
    rw [hpeers, Function.update_self, Option.some_inj] at hp
    subst hp
    refine upserted_fits rfl ?_ ?_
    · rintro key rfl rfl
      rfl
    · rintro old rfl rfl hfound hhas
      by_contra hne
      exact hkey ⟨rfl, rfl, hanew, old, hfound, hhas, fun hzero => hne (hzero.symm)⟩

/-- When the radio loses a key it no longer follows the cache. -/
theorem not_followsCache_of_losesKey (hkey : t.LosesKey mac encrypted lmk) :
    ¬(t.addPeer mac encrypted lmk).2.FollowsCache := by
  obtain ⟨rfl, rfl, hanew, old, hold, hhas, hne⟩ := hkey
  intro hfollows
  obtain ⟨hno, -⟩ | ⟨hno, -⟩ | ⟨-, hcache, hpeers⟩ := addPeer_cases t mac true none
  · exact hno hanew
  · exact hno hanew
  · obtain ⟨entry, hentry, -, hlmk⟩ := hfollows mac (t.attached true none)
      (by rw [hpeers, Function.update_self])
    rw [findPeerCacheEntry, hcache, find_upsertEntry_intent hold, Option.some_inj] at hentry
    subst hentry
    have hzero := hlmk hhas
    simp only [refreshed, hhas, if_true] at hzero
    exact hne hzero.symm

end Peers

section Calls

variable {t : EspNowArduinoTransport}

theorem not_losesKey_cached {mac : MacAddress} {entry : PeerCacheEntry}
    (hentry : t.findPeerCacheEntry mac = some entry) :
    ¬t.LosesKey mac entry.encrypted (cachedKey entry) := by
  rintro ⟨hencrypted, hnone, -, old, hold, hhas, -⟩
  rw [hentry, Option.some_inj] at hold
  subst hold
  simp [cachedKey, hencrypted, hhas] at hnone

theorem not_losesKey_clear (mac : MacAddress) (lmk : Option LmkKey) : ¬t.LosesKey mac false lmk :=
  fun h => absurd h.1 (by decide)

theorem Mirrored.esp_now_del_peer (h : t.Mirrored) (mac : MacAddress) :
    (t.esp_now_del_peer mac).2.Mirrored := by
  obtain ⟨hcache, -, -, ⟨-, hpeers, -⟩ | ⟨-, -, hpeers⟩⟩ := esp_now_del_peer_cases t mac
  · exact h.of_same hpeers hcache
  · split at hpeers
    · exact h.of_lost hpeers hcache
    · exact h.of_same hpeers hcache

theorem Mirrored.esp_now_send (h : t.Mirrored) (mac : MacAddress) : (t.esp_now_send mac).2.Mirrored := by
  rw [EspNowArduinoTransport.esp_now_send]
  split
  · exact h.of_same rfl rfl
  · exact h

theorem Mirrored.esp_now_deinit (h : t.Mirrored) : t.esp_now_deinit.Mirrored :=
  ⟨Mirrors.empty, h.cache⟩

theorem Mirrored.configure (h : t.Mirrored) : t.configure.2.Mirrored := h.of_same rfl rfl

/-- A turn of the loop in `setChannel` puts in the table what the cache says. -/
theorem Mirrored.moveEntry (h : t.Mirrored) {entry : PeerCacheEntry} (he : entry ∈ t.peer_cache) :
    (t.moveEntry entry).2.Mirrored ∧ (t.moveEntry entry).2.peer_cache = t.peer_cache := by
  rw [EspNowArduinoTransport.moveEntry]
  have hdeleted : ∀ u : EspNowArduinoTransport, u.Mirrored → u.peer_cache = t.peer_cache →
      ∀ p : EspNowPeerInfo, Fits entry p → (u.esp_now_add_peer entry.mac p).2.Mirrored ∧
        (u.esp_now_add_peer entry.mac p).2.peer_cache = t.peer_cache := by
    intro u hu hcache p hfits
    obtain ⟨hsame, hcase⟩ := esp_now_add_peer_cases u entry.mac p
    refine ⟨?_, hsame.trans hcache⟩
    split at hcase
    · have hentry : u.findPeerCacheEntry entry.mac = some entry := by
        rw [findPeerCacheEntry_congr hcache]
        exact h.cache.find_of_mem he
      refine ⟨?_, hsame.symm ▸ hu.cache⟩
      rw [FollowsCache, hcase.2, findPeerCacheEntry_congr hsame]
      exact hu.follows.insert hentry hfits
    · exact hu.of_same hcase.2 hsame
  have hfits (ch : UInt8) : Fits entry ⟨ch, entry.encrypted, (cachedKey entry).getD zeroKey⟩ := by
    refine ⟨rfl, fun hhas => ?_⟩
    simp [cachedKey, h.cache.keyed entry he hhas, hhas]
  dsimp only
  split
  · exact hdeleted _ (h.esp_now_del_peer entry.mac) (esp_now_del_peer_cases t entry.mac).1 _ (hfits _)
  · exact hdeleted _ h rfl _ (hfits _)

theorem Mirrored.setChannel (h : t.Mirrored) (ch : UInt8) : (t.setChannel ch).2.Mirrored := by
  have hloop : ∀ (entries : List PeerCacheEntry) (acc : Bool × EspNowArduinoTransport),
      acc.2.Mirrored → (∀ entry ∈ entries, entry ∈ acc.2.peer_cache) →
      (entries.foldl (fun acc entry => ((acc.2.moveEntry entry).1 && acc.1, (acc.2.moveEntry entry).2))
        acc).2.Mirrored := by
    intro entries
    induction entries with
    | nil => exact fun _ hacc _ => hacc
    | cons entry entries ih =>
      intro acc hacc hmem
      obtain ⟨hentry, hentries⟩ := List.forall_mem_cons.mp hmem
      obtain ⟨hmoved, hsame⟩ := hacc.moveEntry hentry
      refine ih _ hmoved fun e he => ?_
      rw [hsame]
      exact hentries e he
  have hconfigured := h.configure
  rw [EspNowArduinoTransport.setChannel]
  split <;> rename_i hu <;> rw [hu] at hconfigured
  · exact hloop _ _ (hconfigured.of_same rfl rfl) fun _ he => he
  · exact hconfigured

theorem Mirrored.ensureRuntimeChannel (h : t.Mirrored) (force_reapply : Bool) :
    (t.ensureRuntimeChannel force_reapply).2.Mirrored := by
  have hasked : t.esp_wifi_get_channel.2.Mirrored := h.of_same rfl rfl
  rw [EspNowArduinoTransport.ensureRuntimeChannel]
  split <;> rename_i u hu <;> rw [hu] at hasked
  · exact hasked
  · split
    · exact hasked
    · exact hasked.setChannel _

theorem Mirrored.ensureBroadcast (h : t.Mirrored) : t.ensureBroadcast.2.Mirrored := by
  rw [EspNowArduinoTransport.ensureBroadcast]
  split
  · exact h
  · exact h.addPeer (not_losesKey_clear _ _)

theorem Mirrored.reattachAll (h : t.Mirrored) (skip : EspNowArduinoTransport → PeerCacheEntry → Bool) :
    (t.reattachAll skip).2.Mirrored := by
  have hturn : ∀ (u : EspNowArduinoTransport) (i : Nat), u.Mirrored →
      (u.reattachEntry skip i).2.Mirrored := by
    intro u i hu
    rw [reattachEntry]
    split
    · exact hu
    · rename_i entry hentry
      split
      · exact hu
      · exact hu.addPeer (not_losesKey_cached (hu.cache.find_of_mem (List.mem_of_getElem? hentry)))
  rw [EspNowArduinoTransport.reattachAll]
  generalize true = ok
  induction List.range t.peer_cache.length generalizing t ok with
  | nil => exact h
  | cons i is ih => exact ih (hturn t i h) _

theorem Mirrored.reinitEspNowStack (h : t.Mirrored) : t.reinitEspNowStack.2.Mirrored := by
  rw [EspNowArduinoTransport.reinitEspNowStack]
  have hinit := h.esp_now_deinit.configure
  split <;> rename_i u hu <;> rw [hu] at hinit
  · have hpmk := hinit.configure
    split <;> rename_i v hv <;> rw [hv] at hpmk
    · have hchannel := hpmk.configure
      split <;> rename_i w hw <;> rw [hw] at hchannel
      · exact hchannel.ensureBroadcast.reattachAll _
      · exact hchannel.esp_now_deinit
    · exact hpmk.esp_now_deinit
  · exact hinit

theorem Mirrored.recoverAfterSendFailures (h : t.Mirrored) (last_rc : EspErr) :
    (t.recoverAfterSendFailures last_rc).2.Mirrored := by
  rw [EspNowArduinoTransport.recoverAfterSendFailures]
  dsimp only
  have hclock : EspNowArduinoTransport.Mirrored { t.millis.2 with last_recover_ms := t.millis.1 } :=
    h.of_same rfl rfl
  have hall := ((hclock.ensureRuntimeChannel true).ensureBroadcast.reattachAll
    fun t entry => t.esp_now_is_peer_exist entry.mac)
  revert hall
  generalize EspNowArduinoTransport.reattachAll _ _ = all
  intro hall
  have hnow : all.2.millis.2.Mirrored := hall.of_same rfl rfl
  split
  · have hreinit := hnow.reinitEspNowStack
    split <;> rename_i u hu <;> rw [hu] at hreinit
    · exact hreinit.of_same rfl rfl
    · exact hreinit
  · exact hnow

theorem Mirrored.addResolved (h : t.Mirrored) (dest : MacAddress) : (t.addResolved dest).2.Mirrored := by
  rw [EspNowArduinoTransport.addResolved, resolvePeerConfig]
  split
  · rename_i hnone
    refine h.addPeer ?_
    rintro ⟨-, -, -, old, hold, -⟩
    rw [hnone] at hold
    exact absurd hold (by simp)
  · rename_i cached hcached
    exact h.addPeer (not_losesKey_cached hcached)

theorem Mirrored.retryMissing (h : t.Mirrored) (dest : MacAddress) (rc : EspErr) :
    (t.retryMissing dest rc).2.Mirrored := by
  have hadded := h.addResolved dest
  rw [EspNowArduinoTransport.retryMissing]
  split
  · split <;> rename_i u hu <;> rw [hu] at hadded
    · exact hadded.esp_now_send dest
    · exact hadded
  · exact h

theorem Mirrored.noteFailed (h : t.Mirrored) (now_ms : UInt32) (rc : EspErr) :
    (t.noteFailed now_ms rc).Mirrored := by
  refine h.of_same ?_ ?_ <;> rw [EspNowArduinoTransport.noteFailed] <;> dsimp only <;> split <;> rfl

theorem Mirrored.sendAfterRecovery (h : t.Mirrored) (dest : MacAddress) (now_ms : UInt32) (rc : EspErr) :
    (t.sendAfterRecovery dest now_ms rc).2.Mirrored := by
  rw [EspNowArduinoTransport.sendAfterRecovery]
  dsimp only
  have hrecovered := h.recoverAfterSendFailures rc
  generalize (if rc = .ESP_ERR_ESPNOW_NO_MEM then _ else _ : UInt32) = threshold
  generalize (if rc = .ESP_ERR_ESPNOW_NO_MEM then _ else _ : UInt32) = cooldown
  split
  · split <;> rename_i u hu <;> rw [hu] at hrecovered
    · have hadded : EspNowArduinoTransport.Mirrored
          (if u.esp_now_is_peer_exist dest then u else (u.addResolved dest).2) := by
        split
        · exact hrecovered
        · exact hrecovered.addResolved dest
      have hsent := hadded.esp_now_send dest
      split <;> rename_i hv <;> rw [hv] at hsent
      · exact hsent.of_same rfl rfl
      · exact hsent
    · exact hrecovered
  · exact h

theorem Mirrored.sendAttached (h : t.Mirrored) (dest : MacAddress) (now_ms : UInt32) :
    (t.sendAttached dest now_ms).2.Mirrored := by
  have hsent := h.esp_now_send dest
  rw [EspNowArduinoTransport.sendAttached]
  split <;> rename_i hu <;> rw [hu] at hsent
  · exact hsent.of_same rfl rfl
  · rename_i rc u _
    have hretried := hsent.retryMissing dest rc
    split <;> rename_i hv <;> rw [hv] at hretried
    · exact hretried.of_same rfl rfl
    · exact (hretried.noteFailed now_ms _).sendAfterRecovery dest now_ms _

theorem Mirrored.send (h : t.Mirrored) (dest : MacAddress) : (t.send dest).2.Mirrored := by
  have hchecked : EspNowArduinoTransport.Mirrored
      (if t.millis.1 - t.millis.2.last_channel_check_ms ≥ kChannelVerifyIntervalMs then
        ({ t.millis.2 with last_channel_check_ms := t.millis.1 }.ensureRuntimeChannel false).2
      else t.millis.2) := by
    split
    · have hclock : EspNowArduinoTransport.Mirrored
          { t.millis.2 with last_channel_check_ms := t.millis.1 } := h.of_same rfl rfl
      exact hclock.ensureRuntimeChannel false
    · exact h.of_same rfl rfl
  rw [EspNowArduinoTransport.send]
  revert hchecked
  generalize (if t.millis.1 - t.millis.2.last_channel_check_ms ≥ kChannelVerifyIntervalMs then
    ({ t.millis.2 with last_channel_check_ms := t.millis.1 }.ensureRuntimeChannel false).2
    else t.millis.2) = u
  intro hchecked
  split
  · rw [sendInBackoff]
    split
    · have hprobe : EspNowArduinoTransport.Mirrored { u with last_no_mem_probe_ms := t.millis.1 } :=
        hchecked.of_same rfl rfl
      exact hprobe.recoverAfterSendFailures _
    · exact hchecked
  · split
    · exact hchecked.sendAttached dest _
    · have hadded := hchecked.addResolved dest
      split <;> rename_i v hv <;> rw [hv] at hadded
      · exact hadded.sendAttached dest _
      · exact hadded

end Calls

section Steps

variable {t : EspNowArduinoTransport}

theorem find_filter_self (entries : List PeerCacheEntry) (mac : MacAddress) :
    (entries.filter fun entry => entry.mac ≠ mac).find? (fun entry => entry.mac = mac) = none := by
  rw [List.find?_eq_none]
  intro entry he
  simpa using (List.mem_filter.mp he).2

theorem find_filter_of_ne (entries : List PeerCacheEntry) {mac m : MacAddress} (hm : m ≠ mac) :
    (entries.filter fun entry => entry.mac ≠ mac).find? (fun entry => entry.mac = m) =
      entries.find? fun entry => entry.mac = m := by
  rw [List.find?_filter]
  congr 1
  funext entry
  by_cases hentry : entry.mac = m
  · simp [hentry, hm]
  · simp [hentry]

/-- A removal keeps the transport mirrored exactly when the radio does not keep the peer. -/
theorem removePeer_followsCache_iff (h : t.Mirrored) (mac : MacAddress) :
    (t.removePeer mac).2.FollowsCache ↔
      ((t.peers mac).isSome = true → (t.answer t.calls).rc = .ESP_OK) := by
  obtain ⟨hcache, -, -, hcase⟩ := esp_now_del_peer_cases (t.erasePeerCacheEntry mac) mac
  have hfind : ∀ m, (t.removePeer mac).2.findPeerCacheEntry m =
      (t.peer_cache.filter fun entry => entry.mac ≠ mac).find? fun entry => entry.mac = m := by
    intro m
    rw [findPeerCacheEntry]
    exact congrArg (List.find? fun entry => decide (entry.mac = m)) hcache
  have hpeers : ∀ m ≠ mac, (t.removePeer mac).2.peers m = t.peers m := by
    intro m hm
    rcases hcase with ⟨-, hsame, -⟩ | ⟨-, -, hpeers⟩
    · exact congrFun hsame m
    · refine (congrFun hpeers m).trans ?_
      split
      · exact Function.update_of_ne hm none t.peers
      · rfl
  have hself : (t.removePeer mac).2.peers mac = none ↔
      ((t.peers mac).isSome = true → (t.answer t.calls).rc = .ESP_OK) := by
    rcases hcase with ⟨hnone, hsame, -⟩ | ⟨hsome, -, hpeers⟩
    · have hnone : t.peers mac = none := hnone
      refine iff_of_true ((congrFun hsame mac).trans hnone) fun hsome => ?_
      rw [hnone] at hsome
      exact absurd hsome (by decide)
    · have hsome : (t.peers mac).isSome = true := hsome
      have hafter : (t.removePeer mac).2.peers mac = _ := congrFun hpeers mac
      change _ = (if (t.answer t.calls).rc = .ESP_OK then Function.update t.peers mac none
        else t.peers) mac at hafter
      rw [hafter]
      by_cases hrc : (t.answer t.calls).rc = .ESP_OK
      · simp [hrc]
      · rw [if_neg hrc]
        refine iff_of_false (fun hnone => ?_) fun hall => hrc (hall hsome)
        rw [hnone] at hsome
        exact absurd hsome (by decide)
  rw [← hself]
  constructor
  · intro hfollows
    by_contra hpeer
    obtain ⟨p, hp⟩ := Option.ne_none_iff_exists'.mp hpeer
    obtain ⟨entry, hentry, -⟩ := hfollows mac p hp
    rw [hfind, find_filter_self] at hentry
    exact absurd hentry (by simp)
  · intro hnone
    refine Mirrors.replace h.follows mac (fun m hm => ?_) hpeers fun p hp => ?_
    · rw [hfind, find_filter_of_ne _ hm]
      rfl
    · rw [hnone] at hp
      exact absurd hp (by simp)

theorem removePeer_cache (t : EspNowArduinoTransport) (mac : MacAddress) :
    (t.removePeer mac).2.peer_cache = t.peer_cache.filter fun entry => entry.mac ≠ mac :=
  (esp_now_del_peer_cases (t.erasePeerCacheEntry mac) mac).1

/-- To attach a peer with the intent only loses a key when the peer is attached anew and the cache
holds one. -/
theorem losesKey_intent_iff (input : TransportInput) (mac : MacAddress) :
    LosesKey { t with answer := input.answer, calls := 0 } mac true none ↔
      ∃ entry, t.findPeerCacheEntry mac = some entry ∧ entry.has_lmk = true ∧ entry.lmk ≠ zeroKey ∧
        AttachesAnew t mac input.answer := by
  have hanew : Recreates { t with answer := input.answer, calls := 0 } mac true none ↔
      AttachesAnew t mac input.answer := by
    rw [Recreates, AttachesAnew]
    cases hp : t.peers mac with
    | none => exact Iff.rfl
    | some p =>
      have hkeep : keepExisting { t with answer := input.answer, calls := 0 } p true none = false ↔
          ¬(p.encrypt = true ∧ p.channel = t.channel) := by
        change (decide (p.encrypt = true) && decide (p.channel = t.channel) && true) = false ↔ _
        simp
      simp only
      rw [hkeep]
  constructor
  · rintro ⟨-, -, hrecreates, old, hold, hhas, hne⟩
    exact ⟨old, hold, hhas, hne, hanew.mp hrecreates⟩
  · rintro ⟨old, hold, hhas, hne, hattaches⟩
    exact ⟨rfl, rfl, hanew.mpr hattaches, old, hold, hhas, hne⟩

/-- What a call keeps of a mirrored transport, and when. -/
theorem step_mirrored_iff (h : t.Mirrored) (input : TransportInput) :
    ((t.step input).FollowsCache ↔ Careful t input) ∧
      (Careful t input → (t.step input).Mirrored) := by
  have hready : EspNowArduinoTransport.Mirrored { t with answer := input.answer, calls := 0 } :=
    h.of_same rfl rfl
  have halways (hkept : (t.step input).Mirrored) (hcareful : Careful t input) :
      ((t.step input).FollowsCache ↔ Careful t input) ∧
        (Careful t input → (t.step input).Mirrored) :=
    ⟨iff_of_true hkept.follows hcareful, fun _ => hkept⟩
  rw [step] at halways ⊢
  cases hcall : input.call with
  | addPeer mac encrypted lmk =>
    rw [hcall] at halways
    have hiff : Careful t input ↔
        ¬LosesKey { t with answer := input.answer, calls := 0 } mac encrypted lmk := by
      rw [Careful, hcall]
      cases encrypted with
      | false => exact iff_of_true trivial (not_losesKey_clear mac lmk)
      | true =>
        cases lmk with
        | some key => exact iff_of_true trivial fun hloses => absurd hloses.2.1 (by simp)
        | none =>
          rw [losesKey_intent_iff]
          constructor
          · rintro hcareful ⟨entry, hentry, hhas, hne, hanew⟩
            exact hcareful entry hentry hhas hne hanew
          · intro hnone entry hentry hhas hne hanew
            exact hnone ⟨entry, hentry, hhas, hne, hanew⟩
    rw [hiff]
    refine ⟨⟨fun hfollows hloses => not_followsCache_of_losesKey hloses hfollows, fun hkey => ?_⟩,
      fun hkey => hready.addPeer hkey⟩
    exact (hready.addPeer hkey).follows
  | removePeer mac =>
    have hiff := removePeer_followsCache_iff hready mac
    rw [Careful, hcall]
    refine ⟨hiff, fun hcareful => ⟨hiff.mpr hcareful, ?_⟩⟩
    change WellFormed (EspNowArduinoTransport.removePeer _ mac).2.peer_cache
    rw [removePeer_cache]
    exact h.cache.erase
  | setChannel ch =>
    rw [hcall] at halways
    exact halways (hready.setChannel ch) (by rw [Careful, hcall]; trivial)
  | send dest =>
    rw [hcall] at halways
    exact halways (hready.send dest) (by rw [Careful, hcall]; trivial)
  | recoverAfterSendFailures last_rc =>
    rw [hcall] at halways
    exact halways (hready.recoverAfterSendFailures last_rc) (by rw [Careful, hcall]; trivial)
  | reinitEspNowStack =>
    rw [hcall] at halways
    exact halways hready.reinitEspNowStack (by rw [Careful, hcall]; trivial)

theorem mirrored_of_started (h : Started t) : t.Mirrored := by
  refine ⟨fun mac p hp => ?_, ?_⟩
  · rw [h.1 mac] at hp
    exact absurd hp (by simp)
  · rw [h.2]
    exact ⟨List.nodup_nil, fun _ he => absurd he List.not_mem_nil⟩

end Steps

end EspNowArduinoTransport

open EspNowArduinoTransport

/-- From the start on, the peers of the radio stay those of the cache, with their flags and their keys,
exactly in the runs of careful calls. -/
theorem peer_table_follows_iff (t : EspNowArduinoTransport) (inputs : List TransportInput)
    (h : Started t) :
    Admitted step (fun t input => FollowsCache (step t input)) t inputs ↔
      Admitted step Careful t inputs := by
  have hagree : ∀ (t : EspNowArduinoTransport) (input : TransportInput), t.Mirrored →
      (FollowsCache (step t input) ↔ Careful t input) :=
    fun t input hmirrored => (step_mirrored_iff hmirrored input).1
  apply admitted_iff_of_invariant hagree
  · intro t input hmirrored hfollows
    have hstep := step_mirrored_iff hmirrored input
    exact hstep.2 (hstep.1.mp hfollows)
  · exact mirrored_of_started h

section Cases

/-- A transport on channel 1 without peers. -/
def freshTransport : EspNowArduinoTransport where
  peers := fun _ => none
  answer := fun _ => {}
  calls := 0
  channel := 1
  encrypted_default := false
  peer_cache := []
  send_fail_streak := 0
  no_mem_streak := 0
  no_mem_backoff_until_ms := 0
  last_send_ok_ms := 0
  last_no_mem_probe_ms := 0
  last_channel_check_ms := 0
  last_recover_ms := 0

/-- A peer's address and its key. -/
def someMac : MacAddress := #v[2, 0, 0, 0, 0, 1]
def someKey : LmkKey := Vector.replicate 16 7

theorem peer_table_follows_case :
    (Started freshTransport ∧
      (Admitted step Careful freshTransport
        [⟨.addPeer someMac true (some someKey), fun _ => {}⟩, ⟨.setChannel 6, fun _ => {}⟩])) ∧
      Admitted step (fun t input => FollowsCache (step t input)) freshTransport
        [⟨.addPeer someMac true (some someKey), fun _ => {}⟩, ⟨.setChannel 6, fun _ => {}⟩] := by
  have hstarted : Started freshTransport := ⟨fun _ => rfl, rfl⟩
  have hcareful : Admitted step Careful freshTransport
      [⟨.addPeer someMac true (some someKey), fun _ => {}⟩, ⟨.setChannel 6, fun _ => {}⟩] :=
    ⟨trivial, trivial, trivial⟩
  exact ⟨⟨hstarted, hcareful⟩, (peer_table_follows_iff _ _ hstarted).mpr hcareful⟩

/-- A peer is attached with its key, a change of the channel fails to put it back, and a call with the
intent to encrypt attaches it with the zero key, while the cache holds its key. -/
theorem peer_table_strays : ¬∀ (t : EspNowArduinoTransport) (inputs : List TransportInput), Started t →
    Admitted step (fun t input => FollowsCache (step t input)) t inputs := by
  intro h
  let refused : Nat → RadioAnswer := fun n => if n = 2 then { rc := .ESP_ERR_ESPNOW_NO_MEM } else {}
  let inputs : List TransportInput :=
    [⟨.addPeer someMac true (some someKey), fun _ => {}⟩, ⟨.setChannel 6, refused⟩,
      ⟨.addPeer someMac true none, fun _ => {}⟩]
  obtain ⟨-, -, hlast, -⟩ := h freshTransport inputs ⟨fun _ => rfl, rfl⟩
  have hpeer : (inputs.foldl step freshTransport).peers someMac = some ⟨6, true, zeroKey⟩ := by
    decide +kernel
  have hcache : (inputs.foldl step freshTransport).findPeerCacheEntry someMac =
      some ⟨someMac, true, true, someKey⟩ := by
    decide +kernel
  obtain ⟨entry, hentry, -, hkey⟩ := hlast someMac ⟨6, true, zeroKey⟩ hpeer
  have hsame := hcache.symm.trans hentry
  rw [Option.some_inj] at hsame
  subst hsame
  have hzero : zeroKey = someKey := hkey rfl
  revert hzero
  decide +kernel

end Cases

end EspNowLink
