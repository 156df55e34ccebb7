import EspNowLink.Codec.ResponseFields
import EspNowLink.Descriptor.Pager

open Framework

namespace EspNowLink

/-- The reply of `SlaveControlPlane::onPullRequest` to a query for a list of the device. No payload is sent
for a response that the codec cannot encode. -/
def onPullRequest (codec : ProfileCodec) (device : DescriptorDevice) (payload : Bytes) : Option Bytes :=
  ((codec.decodeDescriptorQuery payload).or (parseDescriptorQuery payload)).bind fun query =>
    (handleListQuery device query).bind codec.encodeDescriptorResponse

def listQuery (kind : DeviceListKind) (page_size : UInt8) (cursor : UInt16) : DescriptorQuery :=
  { type := kind.query, paged := true, cursor := cursor, page_size := page_size }

/-- One exchange of the client: its query, and the page in the reply. -/
def fetchPage (codec : ProfileCodec) (device : DescriptorDevice) (kind : DeviceListKind) (page_size : UInt8)
    (cursor : Nat) : Option (Page kind.Item) := do
  let request ← codec.encodeDescriptorQuery (listQuery kind page_size (UInt16.ofNat cursor))
  let reply ← onPullRequest codec device request
  let d ← codec.decodeDescriptorResponse reply
  if d.type = kind.response ∧ d.is_paged = true then some ⟨kind.items d, d.next_cursor.toNat, d.done⟩
  else none

/-- The client starts at cursor 0, goes on at `next_cursor` until a page is done, and has then received the
list. -/
def FetchesAll (codec : ProfileCodec) (device : DescriptorDevice) (kind : DeviceListKind) (page_size : UInt8)
    (full : List kind.Item) : Prop :=
  ∃ pages, readPages (fetchPage codec device kind page_size) pages 0 = some full

/-- The number of items of a page. -/
def pageLength (page_size : UInt8) : Nat :=
  min (if page_size = 0 then kDefaultPage else page_size.toNat) kMaxPage

theorem pageLength_pos (page_size : UInt8) : 0 < pageLength page_size := by
  unfold pageLength
  split
  · decide
  · rename_i hsize
    have hpos : page_size.toNat ≠ 0 := fun h => hsize (UInt8.toNat_inj.mp h)
    simp [kMaxPage]
    omega

theorem pageLength_le (page_size : UInt8) : pageLength page_size ≤ 16 := Nat.min_le_right _ _

theorem effectivePageSize_listQuery (kind : DeviceListKind) (page_size : UInt8) (cursor : UInt16) :
    effectivePageSize (listQuery kind page_size cursor) = pageLength page_size := by
  cases kind <;> rfl

theorem handleListQuery_listQuery (kind : DeviceListKind) (device : DescriptorDevice) (page_size : UInt8)
    (cursor : UInt16) : handleListQuery device (listQuery kind page_size cursor) =
      some (kind.answer device (listQuery kind page_size cursor)) := by
  cases kind <;> rfl

section Page

variable (kind : DeviceListKind) (full : List kind.Item) (message : Bytes) (page_size : UInt8)

/-- The items of the page that begins at `c`, and what its metadata says. -/
def pageItemsAt (c : Nat) : List kind.Item := ((full.drop c).take (pageLength page_size)).map kind.clip

def pageMetaAt (c : Nat) : PageMeta :=
  { is_paged := true
    snapshot_id := kind.snapshot full message
    total_count := UInt16.ofNat (min full.length 0xFFFF)
    cursor := UInt16.ofNat c
    returned_count := UInt16.ofNat (pageItemsAt kind full page_size c).length
    next_cursor := UInt16.ofNat (min full.length (c + pageLength page_size))
    done := full.length ≤ c + pageLength page_size }

def pageAt (c : Nat) : DescriptorResponse :=
  { kind.withItems (pageItemsAt kind full page_size c) { type := kind.response, message := message } with
    toPageMeta := pageMetaAt kind full message page_size c }

theorem pageItemsAt_length (c : Nat) :
    (pageItemsAt kind full page_size c).length = min (pageLength page_size) (full.length - c) := by
  simp [pageItemsAt]

variable {kind full} in
/-- The pager answers the query of the client with the page at its cursor. -/
theorem page_listQuery {c : Nat} (hc : c ≤ full.length) (hmod : c < 65536) :
    kind.page (listQuery kind page_size (UInt16.ofNat c)) full message =
      pageAt kind full message page_size c := by
  have hpos := pageLength_pos page_size
  have hle := pageLength_le page_size
  have hcursor : (UInt16.ofNat c).toNat = c := by
    rw [UInt16.toNat_ofNat', Nat.mod_eq_of_lt hmod]
  have hstart : min c full.length = c := Nat.min_eq_left hc
  have hmeta : finalizePageMeta (listQuery kind page_size (UInt16.ofNat c)) full.length
      (min full.length (c + pageLength page_size) - c) (kind.snapshot full message) =
      pageMetaAt kind full message page_size c := by
    have hcount : min (min full.length (c + pageLength page_size) - c) 0xFFFF =
        (pageItemsAt kind full page_size c).length := by
      rw [pageItemsAt_length]
      omega
    have hnext : c + (min full.length (c + pageLength page_size) - c) =
        min full.length (c + pageLength page_size) := by omega
    have hbound : min (min full.length (c + pageLength page_size)) full.length =
        min full.length (c + pageLength page_size) := by omega
    have hmin : min c 0xFFFF = c := by omega
    have hdone : full.length ≤ min full.length (c + pageLength page_size) ↔
        full.length ≤ c + pageLength page_size := by omega
    have hquery : (listQuery kind page_size (UInt16.ofNat c)).cursor.toNat = c := hcursor
    simp only [finalizePageMeta, pageMetaAt, hquery, hstart, hcount, hnext, hbound, hmin, hdone]
  have hquery : min (listQuery kind page_size (UInt16.ofNat c)).cursor.toNat full.length = c :=
    (congrArg (min · full.length) hcursor).trans hstart
  simp only [DeviceListKind.page, effectivePageSize_listQuery, if_neg (Nat.ne_of_gt hpos), hquery, hmeta,
    slicePage_eq hc]
  rfl

end Page

end EspNowLink
