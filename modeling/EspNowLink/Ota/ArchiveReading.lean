import EspNowLink.Ota.ArchiveJson

open Framework

namespace EspNowLink

namespace OtaArchive

section Objects

/-- An object as the reader cuts it out: from the start of an entry to its only closing brace. -/
def Closed (o : Bytes) : Prop := ∃ body, o = entryStart ++ body ++ [0x7D] ∧ 0x7D ∉ body

theorem entryStart_open : 0x7D ∉ entryStart := by decide

theorem archiveObjects_skip {s : Bytes} (hs : 0x7B ∉ s) (n : ℕ) (t : Bytes) :
    archiveObjects n (s ++ t) = archiveObjects n t := by
  cases n with
  | zero => rfl
  | succ n =>
    have hskip : afterFirst entryStart (s ++ t) = afterFirst entryStart t := afterFirst_skip_all hs
    simp only [archiveObjects, hskip]

theorem archiveObjects_open {text : Bytes} (h : 0x7D ∉ text) (n : ℕ) : archiveObjects n text = [] := by
  cases n with
  | zero => rfl
  | succ n =>
    simp only [archiveObjects]
    split
    · rfl
    · rename_i rest hrest
      have hno : 0x7D ∉ rest := fun hmem => h (mem_of_afterFirst hrest _ hmem)
      rw [if_neg hno]

theorem archiveObjects_closed {o : Bytes} (ho : Closed o) (n : ℕ) (t : Bytes) :
    archiveObjects (n + 1) (o ++ t) = o :: archiveObjects n t := by
  obtain ⟨body, rfl, hbody⟩ := ho
  have htext : entryStart ++ body ++ [0x7D] ++ t = entryStart ++ (body ++ 0x7D :: t) := by
    simp only [List.append_assoc, List.singleton_append]
  have hfound : afterFirst entryStart (entryStart ++ (body ++ 0x7D :: t)) = some (body ++ 0x7D :: t) :=
    afterFirst_here
  have hplain : ∀ c ∈ body, decide (c ≠ (0x7D : UInt8)) = true := by
    intro c hc
    apply decide_eq_true
    rintro rfl
    exact hbody hc
  have htake : (body ++ 0x7D :: t).takeWhile (· ≠ 0x7D) = body := by
    rw [List.takeWhile_append_of_pos hplain, List.takeWhile_cons]
    simp
  have hdrop : ((body ++ 0x7D :: t).dropWhile (· ≠ 0x7D)).tail = t := by
    rw [List.dropWhile_append_of_pos hplain, List.dropWhile_cons]
    simp
  have hmem : (0x7D : UInt8) ∈ body ++ 0x7D :: t := List.mem_append_right body List.mem_cons_self
  rw [htext]
  simp only [archiveObjects, hfound]
  rw [if_pos hmem, htake, hdrop]

/-- An object that is cut off is not found. -/
theorem archiveObjects_cut {o : Bytes} (ho : Closed o) {k : ℕ} (hk : k < o.length) (n : ℕ) :
    archiveObjects n (o.take k) = [] := by
  obtain ⟨body, rfl, hbody⟩ := ho
  apply archiveObjects_open
  rw [List.length_append, List.length_singleton] at hk
  rw [List.take_append_of_le_length (Nat.le_of_lt_succ hk)]
  intro hmem
  rcases List.mem_append.mp (List.mem_of_mem_take hmem) with h | h
  · exact entryStart_open h
  · exact hbody h

/-- Objects behind commas, and the end of the manifest. -/
def behind (os : List Bytes) : Bytes := os.flatMap (fun o => 0x2C :: o) ++ manifestEnd

theorem behind_cons (o : Bytes) (os : List Bytes) : behind (o :: os) = [0x2C] ++ (o ++ behind os) := by
  rw [behind, List.flatMap_cons, List.append_assoc]
  rfl

theorem intercalate_behind (o : Bytes) (os : List Bytes) :
    List.intercalate [0x2C] (o :: os) ++ manifestEnd = o ++ behind os := by
  induction os generalizing o with
  | nil => simp [List.intercalate, behind]
  | cons p os ih =>
    rw [behind_cons, ← ih p]
    simp [List.intercalate]

/-- A list of objects followed by the rest of a manifest that is cut somewhere: the objects before the
cut are found, all of them if nothing is cut. -/
theorem archiveObjects_take (os : List Bytes) (hos : ∀ o ∈ os, Closed o) (k n : ℕ)
    (hn : ((behind os).take k).length ≤ n) :
    ∃ j, archiveObjects n ((behind os).take k) = os.take j ∧ ((behind os).length ≤ k → os.length ≤ j) := by
  induction os generalizing k n with
  | nil =>
    refine ⟨0, ?_, fun _ => Nat.le_refl 0⟩
    have hend : 0x7B ∉ (behind []).take k := by
      intro hmem
      have hno : (0x7B : UInt8) ∉ behind [] := by decide
      exact hno (List.mem_of_mem_take hmem)
    have hskip := archiveObjects_skip hend n []
    rw [List.append_nil] at hskip
    rw [hskip, List.take_nil]
    exact archiveObjects_open List.not_mem_nil n
  | cons o os ih =>
    obtain ⟨ho, hrest⟩ := List.forall_mem_cons.mp hos
    have hlen : (behind (o :: os)).length = 1 + (o.length + (behind os).length) := by
      rw [behind_cons, List.length_append, List.length_append, List.length_singleton]
    rcases Nat.eq_zero_or_pos k with rfl | hk
    · refine ⟨0, archiveObjects_open List.not_mem_nil n, ?_⟩
      omega
    · have hcomma : (behind (o :: os)).take k = [0x2C] ++ (o ++ behind os).take (k - 1) := by
        rw [behind_cons, List.take_append, List.take_of_length_le hk]
        rfl
      rw [hcomma, archiveObjects_skip (by decide)]
      by_cases hcut : k - 1 < o.length
      · refine ⟨0, ?_, ?_⟩
        · rw [List.take_append_of_le_length (Nat.le_of_lt hcut), archiveObjects_cut ho hcut]
          rfl
        · omega
      · have hwhole : (o ++ behind os).take (k - 1) = o ++ (behind os).take (k - 1 - o.length) := by
          rw [List.take_append, List.take_of_length_le (Nat.not_lt.mp hcut)]
        have hfuel : 1 + (o.length + ((behind os).take (k - 1 - o.length)).length) ≤ n := by
          rw [hcomma, hwhole, List.length_append, List.length_append, List.length_singleton] at hn
          exact hn
        obtain ⟨m, rfl⟩ : ∃ m, n = m + 1 := ⟨n - 1, by omega⟩
        obtain ⟨j, hj, hall⟩ := ih hrest (k - 1 - o.length) m (by omega)
        refine ⟨j + 1, ?_, ?_⟩
        · rw [hwhole, archiveObjects_closed ho, hj, List.take_succ_cons]
        · intro hle
          have hfull := hall (by omega)
          rw [List.length_cons]
          omega

theorem manifestHead_open (role : Role) : 0x7D ∉ manifestHead role := by
  cases role <;> decide

/-- The head of a manifest looks like no entry. -/
theorem archiveObjects_head (role : Role) (n : ℕ) (t : Bytes) :
    archiveObjects n (manifestHead role ++ t) = archiveObjects n t := by
  have hrest : (0x7B : UInt8) ∉ (manifestHead role).tail := by
    cases role <;> decide
  have hfirst : afterFirst entryStart (manifestHead role ++ t) =
      afterFirst entryStart ((manifestHead role).tail ++ t) := by
    have hno : ¬ entryStart <+: manifestHead role ++ t := by
      intro hpre
      have hthird : entryStart.take 3 <+: manifestHead role := by
        apply List.prefix_of_prefix_length_le ((List.take_prefix 3 entryStart).trans hpre)
          (List.prefix_append _ t)
        cases role <;> decide
      have hwrong : ¬ entryStart.take 3 <+: manifestHead role := by
        cases role <;> decide
      exact hwrong hthird
    rw [manifestHead, List.cons_append] at hno ⊢
    rw [afterFirst, if_neg hno]
    rfl
  have hskip := archiveObjects_skip hrest n t
  cases n with
  | zero => rfl
  | succ n =>
    rw [← hskip]
    simp only [archiveObjects, hfirst]

/-- A manifest that is cut somewhere holds the entries before the cut. -/
theorem archiveObjects_manifest (role : Role) (es : List OtaArchiveEntry)
    (hes : ∀ e ∈ es, Closed (entryJson e)) (k : ℕ) :
    ∃ j, archiveObjects ((manifestJson role es).take k).length ((manifestJson role es).take k) =
        (es.take j).map entryJson ∧
      ((manifestJson role es).length ≤ k → es.length ≤ j) := by
  obtain ⟨rest, hrest⟩ : ∃ rest, rest = List.intercalate [0x2C] (es.map entryJson) ++ manifestEnd := ⟨_, rfl⟩
  have hmanifest : manifestJson role es = manifestHead role ++ rest := by
    rw [manifestJson, List.append_assoc, hrest]
  have hclosed : ∀ o ∈ es.map entryJson, Closed o := by
    intro o ho
    obtain ⟨e, he, rfl⟩ := List.mem_map.mp ho
    exact hes e he
  rw [hmanifest]
  generalize hn : ((manifestHead role ++ rest).take k).length = n
  by_cases hcut : k < (manifestHead role).length
  · refine ⟨0, ?_, ?_⟩
    · rw [List.take_append_of_le_length (Nat.le_of_lt hcut)]
      exact archiveObjects_open (fun hmem => manifestHead_open role (List.mem_of_mem_take hmem)) n
    · intro hle
      rw [List.length_append] at hle
      omega
  · have htake : (manifestHead role ++ rest).take k =
        manifestHead role ++ rest.take (k - (manifestHead role).length) := by
      rw [List.take_append, List.take_of_length_le (Nat.not_lt.mp hcut)]
    have hhead : 1 ≤ (manifestHead role).length := Nat.succ_le_succ (Nat.zero_le _)
    rw [htake, List.length_append] at hn
    rw [htake, archiveObjects_head, List.length_append]
    cases es with
    | nil =>
      refine ⟨0, ?_, fun _ => Nat.le_refl 0⟩
      have hbehind : rest = behind [] := hrest
      rw [hbehind] at hn ⊢
      obtain ⟨j, hj, -⟩ := archiveObjects_take [] hclosed (k - (manifestHead role).length) n (by omega)
      rw [hj, List.take_nil]
      rfl
    | cons e es =>
      have hbehind : rest = entryJson e ++ behind (es.map entryJson) := hrest.trans (intercalate_behind _ _)
      have hcomma : (behind ((e :: es).map entryJson)).take (k - (manifestHead role).length + 1) =
          [0x2C] ++ rest.take (k - (manifestHead role).length) := by
        rw [hbehind, List.map_cons, behind_cons, List.singleton_append, List.take_succ_cons]
        rfl
      have hlen : (behind ((e :: es).map entryJson)).length = 1 + rest.length := by
        rw [hbehind, List.map_cons, behind_cons, List.length_append, List.length_singleton]
      have hfuel : ((behind ((e :: es).map entryJson)).take (k - (manifestHead role).length + 1)).length ≤ n := by
        rw [hcomma, List.length_append, List.length_singleton]
        omega
      obtain ⟨j, hj, hall⟩ := archiveObjects_take _ hclosed _ n hfuel
      rw [hcomma, archiveObjects_skip (by decide), ← List.map_take] at hj
      refine ⟨j, hj, ?_⟩
      intro hle
      have hfull := hall (by omega)
      rwa [List.length_map] at hfull

end Objects

section Entries

variable {host : ArchiveHost} {role : Role} {e : OtaArchiveEntry}

/-- An entry that a manifest keeps: the commands make it, and the readers find it again. -/
structure Kept (role : Role) (e : OtaArchiveEntry) : Prop extends Made role e, Separable e where
  size_ne : e.size_bytes ≠ 0

theorem quote_open {s : Bytes} (h : 0x7D ∉ s) : 0x7D ∉ quote s := by
  intro hmem
  rcases List.mem_cons.mp hmem with hc | hmem
  · exact absurd hc (by decide)
  · rcases List.mem_append.mp hmem with hmem | hmem
    · exact h ((mem_escape (by decide)).mp hmem)
    · exact absurd (List.mem_singleton.mp hmem) (by decide)

theorem hexText_open {s : Bytes} (h : ∀ c ∈ s, isxdigit c = true) : 0x7D ∉ s := fun hmem =>
  absurd (h _ hmem) (by decide)

theorem decimal_open (n : UInt32) : 0x7D ∉ OtaManager.printDecimal n := fun hmem =>
  absurd (OtaManager.mem_printDecimal n _ hmem) (by decide)

theorem hex_open (n : UInt32) : 0x7D ∉ OtaManager.printHex n := by
  intro hmem
  rcases List.mem_append.mp hmem with h | h
  · exact absurd h (by decide)
  · exact hexText_open (OtaManager.mem_hexDigits n) h

/-- The members behind the id have no closing brace. -/
theorem members_open (h : Kept role e) : ∀ m ∈ (entryMembers e).tail, 0x7D ∉ m.2.written := by
  obtain ⟨seed, hseed⟩ := h.id
  have hid : 0x7D ∉ e.id := hseed ▸ hexText_open (archiveFormatId_digits seed)
  have hname : ∀ suffix : Bytes, 0x7D ∉ suffix → 0x7D ∉ e.id ++ suffix := by
    intro suffix hsuffix hmem
    rcases List.mem_append.mp hmem with hmem | hmem
    · exact hid hmem
    · exact hsuffix hmem
  have hbin : 0x7D ∉ e.bin_name := h.bin_name ▸ hname _ (by decide +kernel)
  have hmeta : 0x7D ∉ e.meta_name := h.meta_name ▸ hname _ (by decide +kernel)
  have htarget : 0x7D ∉ e.target_role := by
    rw [h.target_role]
    cases role <;> decide
  have hsource : 0x7D ∉ e.source := by
    rcases h.source with hs | hs <;> rw [hs] <;> decide
  simp only [entryMembers, List.tail_cons, List.forall_mem_cons, List.not_mem_nil, false_implies,
    implies_true, and_true]
  exact ⟨quote_open hbin, quote_open hmeta, quote_open h.sw_closed, quote_open h.build_closed,
    quote_open htarget, quote_open hsource, decimal_open _, quote_open (hex_open _), decimal_open _⟩

theorem entryJson_closed (h : Kept role e) : Closed (entryJson e) := by
  obtain ⟨seed, hseed⟩ := h.id
  have hid : 0x7D ∉ escape e.id := by
    rw [mem_escape (by decide), hseed]
    exact hexText_open (archiveFormatId_digits seed)
  have hplain : ∀ m ∈ (entryMembers e).tail, PlainMember m := fun m hm =>
    entryMembers_plain e m (List.mem_of_mem_tail hm)
  obtain ⟨body, hbody, hopen⟩ := mem_membersText hplain (members_open h)
  refine ⟨escape e.id ++ 0x22 :: body, ?_, ?_⟩
  · have htext : entryJson e = 0x7B :: (quote (ascii "id") ++ 0x3A ::
        (quote e.id ++ membersText (entryMembers e).tail)) := rfl
    have hstart : entryStart = 0x7B :: (quote (ascii "id") ++ [0x3A, 0x22]) := by decide
    rw [htext, hstart, hbody, quote_append e.id]
    simp only [List.append_assoc, List.cons_append, List.nil_append]
  · intro hmem
    rcases List.mem_append.mp hmem with hmem | hmem
    · exact hid hmem
    · rcases List.mem_cons.mp hmem with hc | hmem
      · exact absurd hc (by decide)
      · exact hopen hmem

theorem parse_kept {es : List OtaArchiveEntry} (hes : ∀ e ∈ es, Kept role e) :
    (es.map entryJson).mapM (parseEntry host role) = .ok es := by
  induction es with
  | nil => rfl
  | cons e es ih =>
    obtain ⟨he, hrest⟩ := List.forall_mem_cons.mp hes
    rw [List.map_cons, List.mapM_cons, parseEntry_entryJson he.toMade he.size_ne he.toSeparable, ih hrest]
    rfl

end Entries

end OtaArchive

end EspNowLink
