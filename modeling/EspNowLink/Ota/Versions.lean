import EspNowLink.Descriptor.Types
import EspNowLink.Framework.DigitRuns
import EspNowLink.Framework.FirstDifference
import EspNowLink.Ota.Receive

namespace EspNowLink

open Framework

section Comparators

def isdigit (c : UInt8) : Bool := 0x30 ≤ c && c ≤ 0x39

def isspace (c : UInt8) : Bool := c = 0x20 || (0x09 ≤ c && c ≤ 0x0D)

def tolower (c : UInt8) : UInt8 := if 0x41 ≤ c && c ≤ 0x5A then c + 0x20 else c

/-- The locals of `tokenize`. -/
structure Tokens where
  out : List UInt32 := []
  current : UInt32 := 0
  in_num : Bool := false
  deriving DecidableEq

def Tokens.next (t : Tokens) (c : UInt8) : Tokens :=
  if isdigit c then { t with in_num := true, current := t.current * 10 + (c - 0x30).toUInt32 }
  else if t.in_num then { out := t.out ++ [t.current], current := 0, in_num := false }
  else t

def Tokens.finish (t : Tokens) : List UInt32 := if t.in_num then t.out ++ [t.current] else t.out

def tokenize (v : Bytes) : List UInt32 := (v.foldl Tokens.next {}).finish

/-- The loop that both comparators run over the tokens. -/
def compareTokens (a b : List UInt32) : Int :=
  let n := max a.length b.length
  ((List.range n).findSome? fun i =>
    let av := a.getD i 0
    let bv := b.getD i 0
    if av < bv then some (-1) else if bv < av then some 1 else none).getD 0

namespace OtaDescriptorAdapter

def trim (s : Bytes) : Bytes := ((s.dropWhile isspace).reverse.dropWhile isspace).reverse

def compareVersions (lhs rhs : Bytes) : Int :=
  let a := tokenize lhs
  let b := tokenize rhs
  if a ≠ [] ∧ b ≠ [] then compareTokens a b
  else if lhs < rhs then -1
  else if rhs < lhs then 1
  else 0

/-- What `applyOtaImage` checks of the version of the image it has selected, and what it refuses
it with. -/
def versionRefusal (version confirmed_sw_version : Bytes) : Option String :=
  if version = [] then some "ota metadata missing version"
  else
    let current := trim confirmed_sw_version
    if current ≠ [] ∧ compareVersions version current ≤ 0 then
      some "ota version is not newer than running image"
    else none

end OtaDescriptorAdapter

namespace SlaveOtaVersionGate

structure Config where
  current_sw_version : Bytes := []
  require_newer_version : Bool := true
  strict_role_check : Bool := true
  deriving DecidableEq

def compareVersion (lhs rhs : Bytes) : Int := compareTokens (tokenize lhs) (tokenize rhs)

def prepareForTransfer (image_size : UInt32) : OtaGateDecision × String :=
  if image_size = 0 then (.Denied, "zero-sized image denied") else (.Ready, "ready")

def prepareForTransferWithMetadata (cfg : Config) (image_size : UInt32)
    (metadata : Option FirmwareImageMetadata) : OtaGateDecision × String :=
  let out := prepareForTransfer image_size
  if out.1 ≠ .Ready then out
  else
    match metadata with
    | none => (.Denied, "missing fw metadata")
    | some metadata =>
      let target := (metadata.target_role.filter (!isspace ·)).map tolower
      if cfg.strict_role_check ∧ target ≠ ascii "slave" then
        (.Denied, "metadata target_role must be slave")
      else if !cfg.require_newer_version then out
      else if metadata.sw_version = [] then (.Denied, "missing fw metadata version")
      else if cfg.current_sw_version ≠ [] ∧
          compareVersion metadata.sw_version cfg.current_sw_version ≤ 0 then
        (.Denied, "version not newer than running image")
      else (.Ready, "ready")

end SlaveOtaVersionGate

end Comparators

section Numbers

def digitValue (c : UInt8) : ℕ := (c - 0x30).toNat

/-- The numeric components of a version, whatever their size. -/
def components (v : Bytes) : List ℕ := numbersIn isdigit digitValue 10 v

/-- A version as the sequence of its components, zero after the last. -/
def ofVersion (v : Bytes) : Lex (ℕ → ℕ) := padded 0 (components v)

/-- The locals of `tokenize` behind a run of digits. -/
def afterRun (out : List UInt32) (run : Bytes) : Tokens where
  out := out
  current := (numberOf digitValue 10 run).toUInt32
  in_num := !run.isEmpty

theorem next_digit {c : UInt8} (hc : isdigit c = true) (out : List UInt32) (run : Bytes) :
    (afterRun out run).next c = afterRun out (run ++ [c]) := by
  have hvalue : (c - 0x30).toUInt32 = (digitValue c).toUInt32 := by
    apply UInt32.toNat_inj.mp
    simp [digitValue, Nat.toUInt32]
  have hstep (n : ℕ) : n.toUInt32 * 10 + (c - 0x30).toUInt32 = (n * 10 + digitValue c).toUInt32 := by
    rw [hvalue, Nat.toUInt32_eq, Nat.toUInt32_eq, Nat.toUInt32_eq, UInt32.ofNat_add, UInt32.ofNat_mul]
    rfl
  have hmore : (!(run ++ [c]).isEmpty) = true := by simp
  rw [Tokens.next, if_pos hc]
  simp only [afterRun, numberOf_concat, hstep, hmore]

theorem next_other {c : UInt8} (hc : isdigit c = false) {out : List UInt32} {run : Bytes}
    (hrun : ∀ d ∈ run, isdigit d = true) :
    (afterRun out run).next c = afterRun (out ++ (components run).map Nat.toUInt32) [] := by
  rcases run with - | ⟨d, run⟩
  · simp [Tokens.next, afterRun, hc, components]
  · rw [components, numbersIn_digits hrun (List.cons_ne_nil d run)]
    simp [Tokens.next, afterRun, hc, Nat.toUInt32]

theorem finish_afterRun {out : List UInt32} {run : Bytes} (hrun : ∀ d ∈ run, isdigit d = true) :
    (afterRun out run).finish = out ++ (components run).map Nat.toUInt32 := by
  rcases run with - | ⟨d, run⟩
  · simp [Tokens.finish, afterRun, components]
  · rw [components, numbersIn_digits hrun (List.cons_ne_nil d run)]
    simp [Tokens.finish, afterRun]

theorem foldl_next (v : Bytes) : ∀ (out : List UInt32) (run : Bytes), (∀ d ∈ run, isdigit d = true) →
    (v.foldl Tokens.next (afterRun out run)).finish =
      out ++ (components (run ++ v)).map Nat.toUInt32 := by
  induction v with
  | nil =>
    intro out run hrun
    rw [List.append_nil]
    exact finish_afterRun hrun
  | cons c v ih =>
    intro out run hrun
    rw [List.foldl_cons]
    cases hc : isdigit c with
    | true =>
      have hrun' : ∀ d ∈ run ++ [c], isdigit d = true := by
        intro d hd
        rcases List.mem_append.mp hd with hd | hd
        · exact hrun d hd
        · rw [List.mem_singleton.mp hd]
          exact hc
      rw [next_digit hc, ih out (run ++ [c]) hrun', List.append_assoc, List.singleton_append]
    | false =>
      rw [next_other hc hrun, ih _ [] (by simp), components, components, components,
        numbersIn_append_cons hc, List.map_append, List.append_assoc, List.nil_append]

/-- The tokens are the components in 32 bits. -/
theorem tokenize_eq (v : Bytes) : tokenize v = (components v).map Nat.toUInt32 :=
  foldl_next v [] [] (by simp)

theorem tokenize_eq_nil {v : Bytes} : tokenize v = [] ↔ components v = [] := by
  rw [tokenize_eq, List.map_eq_nil_iff]

theorem compareTokens_eq (a b : List UInt32) :
    compareTokens a b = signOf (padded 0 (a.map UInt32.toNat)) (padded 0 (b.map UInt32.toNat)) := by
  have hat (l : List UInt32) (i : ℕ) : (l.map UInt32.toNat).getD i 0 = (l.getD i 0).toNat := by
    simp [List.getD_eq_getElem?_getD, List.getElem?_map]
    cases l[i]? <;> rfl
  rw [← firstDifference_padded, firstDifference, compareTokens, List.length_map, List.length_map]
  simp only [hat, UInt32.lt_iff_toNat_lt]

end Numbers

section Consistency

open OtaDescriptorAdapter SlaveOtaVersionGate

/-- The version has a number, and all its numbers fit in the 32 bits of a token. -/
structure WellFormed (v : Bytes) : Prop where
  numbered : components v ≠ []
  fits : ∀ n ∈ components v, n < 2 ^ 32

/-- What is expected of the comparisons of three versions, and of the two gates that use them. -/
structure Consistent (a b c : Bytes) : Prop where
  reflexive : compareVersions a a = 0
  antisymmetric : compareVersions b a = -compareVersions a b
  transitive : compareVersions a b ≤ 0 → compareVersions b c ≤ 0 → compareVersions a c ≤ 0
  transitive_strict : compareVersions a b < 0 → compareVersions b c ≤ 0 → compareVersions a c < 0
  by_value : components a ≠ [] → components b ≠ [] →
    compareVersions a b = signOf (ofVersion a) (ofVersion b)
  gate_compares : compareVersion a b = compareVersions a b
  gates_agree : ∀ image_size build_id, image_size ≠ 0 →
    (versionRefusal a b = none ↔
      (prepareForTransferWithMetadata { current_sw_version := b } image_size
        (some ⟨a, build_id, ascii "slave"⟩)).1 = .Ready)

theorem compareTokens_self (a : List UInt32) : compareTokens a a = 0 := by
  rw [compareTokens_eq, signOf_self]

theorem compareTokens_swap (a b : List UInt32) : compareTokens b a = -compareTokens a b := by
  rw [compareTokens_eq, compareTokens_eq, signOf_swap]

/-- For all texts, equal ones compare as equal. -/
theorem compareVersions_self (a : Bytes) : compareVersions a a = 0 := by
  unfold compareVersions
  dsimp only
  split
  · exact compareTokens_self (tokenize a)
  · rw [if_neg (List.lt_irrefl a), if_neg (List.lt_irrefl a)]

theorem compareVersions_swap (a b : Bytes) : compareVersions b a = -compareVersions a b := by
  unfold compareVersions
  dsimp only
  by_cases hboth : tokenize a ≠ [] ∧ tokenize b ≠ []
  · rw [if_pos hboth, if_pos hboth.symm, compareTokens_swap]
  · rw [if_neg hboth, if_neg fun h => hboth h.symm]
    by_cases hab : a < b
    · rw [if_pos hab, if_neg (List.lt_asymm hab), if_pos hab]
      rfl
    · by_cases hba : b < a
      · rw [if_pos hba, if_neg hab, if_pos hba]
      · rw [if_neg hba, if_neg hab, if_neg hba, if_neg hab]
        rfl

theorem compareVersions_numbered {a b : Bytes} (ha : components a ≠ []) (hb : components b ≠ []) :
    compareVersions a b = compareVersion a b := by
  have hboth : tokenize a ≠ [] ∧ tokenize b ≠ [] :=
    ⟨mt tokenize_eq_nil.mp ha, mt tokenize_eq_nil.mp hb⟩
  rw [compareVersions, if_pos hboth, compareVersion]

theorem compareVersion_eq {a b : Bytes} (ha : ∀ n ∈ components a, n < 2 ^ 32)
    (hb : ∀ n ∈ components b, n < 2 ^ 32) :
    compareVersion a b = signOf (ofVersion a) (ofVersion b) := by
  have hback {v : Bytes} (hv : ∀ n ∈ components v, n < 2 ^ 32) :
      (tokenize v).map UInt32.toNat = components v := by
    rw [tokenize_eq, List.map_map]
    refine (List.map_congr_left fun n hn => ?_).trans (List.map_id _)
    exact Nat.mod_eq_of_lt (hv n hn)
  rw [compareVersion, compareTokens_eq, hback ha, hback hb]
  rfl

theorem WellFormed.compare {a b : Bytes} (ha : WellFormed a) (hb : WellFormed b) :
    compareVersions a b = signOf (ofVersion a) (ofVersion b) := by
  rw [compareVersions_numbered ha.numbered hb.numbered, compareVersion_eq ha.fits hb.fits]

theorem isdigit_of_isspace (c : UInt8) (hc : isspace c = true) : isdigit c = false := by
  have hall : ∀ n < 256, isspace (UInt8.ofNat n) = true → isdigit (UInt8.ofNat n) = false := by
    decide +kernel
  have := hall c.toNat c.toNat_lt
  rw [UInt8.ofNat_toNat] at this
  exact this hc

theorem components_trim (v : Bytes) : components (trim v) = components v := by
  rw [components, trim, numbersIn_rdropWhile isdigit_of_isspace, numbersIn_dropWhile isdigit_of_isspace]
  rfl

theorem WellFormed.ne_nil {v : Bytes} (hv : WellFormed v) : v ≠ [] := by
  rintro rfl
  exact hv.numbered rfl

theorem WellFormed.trimmed {v : Bytes} (hv : WellFormed v) : WellFormed (trim v) where
  numbered := by
    rw [components_trim]
    exact hv.numbered
  fits := by
    rw [components_trim]
    exact hv.fits

/-- With well-formed versions both gates ask for a version that is newer by its numbers. -/
theorem WellFormed.gates {a b : Bytes} (ha : WellFormed a) (hb : WellFormed b) {image_size : UInt32}
    (build_id : Bytes) (hsize : image_size ≠ 0) :
    versionRefusal a b = none ↔
      (prepareForTransferWithMetadata { current_sw_version := b } image_size
        (some ⟨a, build_id, ascii "slave"⟩)).1 = .Ready := by
  have htrim : compareVersions a (trim b) = compareVersion a b := by
    rw [ha.compare hb.trimmed, compareVersion_eq ha.fits hb.fits, ofVersion, ofVersion, components_trim]
    rfl
  have hrole : ((ascii "slave").filter (!isspace ·)).map tolower = ascii "slave" := by decide
  have hready : prepareForTransfer image_size = (.Ready, "ready") := if_neg hsize
  rw [versionRefusal, if_neg ha.ne_nil, prepareForTransferWithMetadata, hready]
  simp only [hrole, htrim, ha.ne_nil]
  by_cases hle : compareVersion a b ≤ 0 <;> simp [hle, hb.ne_nil, hb.trimmed.ne_nil]

theorem WellFormed.consistent {a b c : Bytes} (ha : WellFormed a) (hb : WellFormed b)
    (hc : WellFormed c) : Consistent a b c where
  reflexive := compareVersions_self a
  antisymmetric := compareVersions_swap a b
  transitive := by
    rw [ha.compare hb, hb.compare hc, ha.compare hc, signOf_nonpos, signOf_nonpos, signOf_nonpos]
    exact le_trans
  transitive_strict := by
    rw [ha.compare hb, hb.compare hc, ha.compare hc, signOf_neg, signOf_nonpos, signOf_neg]
    exact lt_of_lt_of_le
  by_value := fun _ _ => ha.compare hb
  gate_compares := (compareVersions_numbered ha.numbered hb.numbered).symm
  gates_agree := fun _ build_id hsize => ha.gates hb build_id hsize

/-- A text without a number is told from `0` by one comparison only. -/
theorem inconsistent_of_unnumbered {a : Bytes} (ha : components a = []) (c : Bytes) :
    ¬Consistent a (ascii "0") c := by
  intro h
  have hcompare := h.gate_compares
  have htokens : tokenize a = [] := tokenize_eq_nil.mpr ha
  have hzero : compareVersion a (ascii "0") = 0 := by
    rw [compareVersion, htokens]
    decide
  have hne : a ≠ ascii "0" := by
    rintro rfl
    exact absurd ha (by decide +kernel)
  rw [hzero, compareVersions, if_neg (by simp [htokens])] at hcompare
  by_cases hlt : a < ascii "0"
  · rw [if_pos hlt] at hcompare
    cases hcompare
  · by_cases hgt : ascii "0" < a
    · rw [if_neg hlt, if_pos hgt] at hcompare
      cases hcompare
    · exact hne (List.le_antisymm (List.not_lt.mp hgt) (List.not_lt.mp hlt))

def digitByte (d : ℕ) : UInt8 := UInt8.ofNat (0x30 + d)

theorem digitByte_facts : ∀ d < 10, isdigit (digitByte d) = true ∧ digitValue (digitByte d) = d := by
  decide

/-- A version with the given components. -/
def versionOf (numbers : List ℕ) : Bytes := written 10 digitByte 0x2E numbers

theorem components_versionOf (numbers : List ℕ) : components (versionOf numbers) = numbers :=
  numbersIn_written (by decide) (fun d hd => (digitByte_facts d hd).2)
    (fun d hd => (digitByte_facts d hd).1) (by decide) numbers

theorem padded_le_padded (xs : List ℕ) {zs : List ℕ} {m : ℕ} (hzs : ∀ z ∈ zs, z ≤ m) :
    padded 0 (xs ++ zs) ≤ padded 0 (xs ++ List.replicate zs.length m) := by
  apply Pi.toLex_monotone
  intro i
  dsimp only
  rw [List.getD_eq_getElem?_getD, List.getD_eq_getElem?_getD, List.getElem?_append, List.getElem?_append]
  split
  · exact le_refl _
  · rw [List.getElem?_replicate]
    split
    · rename_i hlt
      rw [List.getElem?_eq_getElem hlt]
      exact hzs _ (List.getElem_mem hlt)
    · rename_i hge
      rw [List.getElem?_eq_none (Nat.le_of_not_lt hge)]

/-- A number above 32 bits wraps below one that still fits. -/
theorem inconsistent_of_large {a : Bytes} {n : ℕ} (hn : n ∈ components a) (hlarge : 2 ^ 32 ≤ n) :
    ∃ b, WellFormed b ∧ ∀ c, ¬Consistent a b c := by
  have hsome : ((components a).find? (2 ^ 32 ≤ ·)).isSome := by
    rw [List.find?_isSome]
    exact ⟨n, hn, decide_eq_true hlarge⟩
  obtain ⟨y, hy⟩ := Option.isSome_iff_exists.mp hsome
  obtain ⟨hy, xs, ys, hsplit, hxs⟩ := List.find?_eq_some_iff_append.mp hy
  have hy : 2 ^ 32 ≤ y := of_decide_eq_true hy
  have hsmall : ∀ x ∈ xs, x < 2 ^ 32 := by
    intro x hx
    simpa using hxs x hx
  have hwrapped : (tokenize a).map UInt32.toNat = xs ++ (y :: ys).map (· % 2 ^ 32) := by
    rw [tokenize_eq, List.map_map, hsplit, List.map_append]
    congr 1
    refine (List.map_congr_left fun x hx => ?_).trans (List.map_id _)
    exact Nat.mod_eq_of_lt (hsmall x hx)
  let b := versionOf (xs ++ List.replicate (ys.length + 1) (2 ^ 32 - 1))
  have hb : components b = xs ++ List.replicate (ys.length + 1) (2 ^ 32 - 1) := components_versionOf _
  have hwell : WellFormed b := by
    constructor
    · rw [hb]
      simp
    · rw [hb]
      intro x hx
      rcases List.mem_append.mp hx with hx | hx
      · exact hsmall x hx
      · rw [List.eq_of_mem_replicate hx]
        decide
  refine ⟨b, hwell, fun c h => ?_⟩
  have hnumbered : components a ≠ [] := List.ne_nil_of_mem hn
  have hbelow : compareVersions a b ≤ 0 := by
    have hback : (tokenize b).map UInt32.toNat = components b := by
      rw [tokenize_eq, List.map_map]
      refine (List.map_congr_left fun n hn => ?_).trans (List.map_id _)
      exact Nat.mod_eq_of_lt (hwell.fits n hn)
    rw [compareVersions_numbered hnumbered hwell.numbered, compareVersion, compareTokens_eq, hwrapped,
      hback, hb, signOf_nonpos]
    have hmod : ∀ z ∈ (y :: ys).map (· % 2 ^ 32), z ≤ 2 ^ 32 - 1 := by
      intro z hz
      obtain ⟨x, -, rfl⟩ := List.mem_map.mp hz
      have := Nat.mod_lt x (show 0 < 2 ^ 32 by decide)
      omega
    have hle := padded_le_padded xs hmod
    rwa [List.length_map, List.length_cons] at hle
  have habove : ofVersion b < ofVersion a := by
    refine ⟨xs.length, fun j hj => ?_, ?_⟩
    · change (components b).getD j 0 = (components a).getD j 0
      rw [hb, hsplit, List.getD_eq_getElem?_getD, List.getD_eq_getElem?_getD,
        List.getElem?_append_left hj, List.getElem?_append_left hj]
    · change (components b).getD xs.length 0 < (components a).getD xs.length 0
      rw [hb, hsplit, List.getD_eq_getElem?_getD, List.getD_eq_getElem?_getD,
        List.getElem?_append_right (Nat.le_refl _), List.getElem?_append_right (Nat.le_refl _),
        Nat.sub_self, List.replicate_succ, List.getElem?_cons_zero, List.getElem?_cons_zero]
      exact Nat.lt_of_lt_of_le (by decide) hy
  rw [h.by_value hnumbered hwell.numbered, signOf_of_gt habove] at hbelow
  exact absurd hbelow (by decide)

end Consistency

/-- Firmware versions are compared consistently, by both comparators and both gates, when each has a
number and all its numbers fit in 32 bits. No other version can be compared with all of these. -/
theorem versions_consistent_iff (a : Bytes) :
    WellFormed a ↔ ∀ b c, WellFormed b → WellFormed c → Consistent a b c := by
  constructor
  · intro ha b c hb hc
    exact ha.consistent hb hc
  · intro h
    have hzero : WellFormed (ascii "0") := ⟨by decide +kernel, by decide +kernel⟩
    constructor
    · intro hnone
      exact inconsistent_of_unnumbered hnone (ascii "0") (h _ _ hzero hzero)
    · intro n hn
      by_contra hlarge
      obtain ⟨b, hb, hnot⟩ := inconsistent_of_large hn (Nat.le_of_not_lt hlarge)
      exact hnot b (h b b hb hb)

/-- Text beside numbers breaks transitivity, a number of 33 bits wraps to zero, and for two texts
without numbers the gates disagree on the newer one. -/
theorem versions_inconsistent :
    ¬Consistent (ascii "m") (ascii "z1") (ascii "a2") ∧
      ¬Consistent (ascii "4294967296") (ascii "1") (ascii "1") ∧
      (OtaDescriptorAdapter.compareVersions (ascii "4294967296") (ascii "1") = -1 ∧
        OtaDescriptorAdapter.versionRefusal (ascii "b") (ascii "a") = none ∧
        SlaveOtaVersionGate.prepareForTransferWithMetadata { current_sw_version := ascii "a" } 1
          (some ⟨ascii "b", [], ascii "slave"⟩) =
            (.Denied, "version not newer than running image")) := by
  refine ⟨fun h => ?_, fun h => ?_, ?_⟩
  · exact absurd (h.transitive (by decide +kernel) (by decide +kernel)) (by decide +kernel)
  · have hvalue := h.by_value (by decide +kernel) (by decide +kernel)
    have habove : ofVersion (ascii "1") < ofVersion (ascii "4294967296") :=
      ⟨0, fun j hj => absurd hj (Nat.not_lt_zero j), by decide +kernel⟩
    rw [signOf_of_gt habove] at hvalue
    exact absurd hvalue (by decide +kernel)
  · decide +kernel

end EspNowLink
