import EspNowLink.Descriptor.Query

namespace EspNowLink

/-- A metric or a setting that a profile names; a null key is an empty one. -/
structure ProfileSpec where
  id : UInt16 := 0
  key : Bytes := []
  deriving DecidableEq

/-- `IProfileDefinition`; of its events only their number is read. -/
structure ProfileDefinition where
  profileId : ProfileId
  profileName : Option Bytes
  telemetryMetrics : List ProfileSpec
  settings : List ProfileSpec
  events : Nat

/-- The list calls of `IDescriptorProvider`: the flag that a call returns, and the list it fills. -/
structure DescriptorProvider where
  getCapabilities : Bool × List CapabilityDescriptor
  getTelemetrySchema : Bool × List TelemetryDescriptor
  getSettings : Bool × List SettingDescriptor
  getSettingById : UInt16 → Option SettingDescriptor
  getOtaManifest : Bool × List OtaManifestEntry × Bytes

/-- What answers the descriptor queries of a device. -/
structure DescriptorDevice where
  provider : DescriptorProvider
  profile : Option ProfileDefinition
  registry : ProfileId → Option ProfileDefinition

/-- The lists that a device is asked for page by page. -/
inductive DeviceListKind where
  | Capabilities
  | Telemetry
  | Settings
  | OtaManifest
  deriving DecidableEq

/-- A list and the message that goes with it, or the text of an error. -/
abbrev DeviceList (α : Type) := Except Bytes (List α × Bytes)

def decimal (n : Nat) : Bytes := ascii (toString n)

def capability (key : String) (description : Bytes) : CapabilityDescriptor := ⟨ascii key, description⟩

/-- `appendProfileTopologyCapabilities`. -/
def profileTopologyCapabilities (profile_id : ProfileId) : List CapabilityDescriptor :=
  if profile_id = kProfileSens ∨ profile_id = kProfileSemu then
    [capability "topology_orchestrated" (ascii "1"), capability "peer_pair_initiator" (ascii "1"),
      capability "allowed_peer_profiles" (ascii "RELAY,REMU"), capability "topology_seed_required" (ascii "1"),
      capability "uplink_path" (ascii "sensor_to_relay_time_stamped")]
  else if profile_id = kProfileRelay ∨ profile_id = kProfileRemu then
    [capability "topology_orchestrated" (ascii "1"), capability "peer_pair_acceptor" (ascii "1"),
      capability "allowed_peer_profiles" (ascii "SENS,SEMU"), capability "topology_seed_required" (ascii "1"),
      capability "accepts_time_stamped_uplink" (ascii "1")]
  else []

def profileCapabilities (profile : ProfileDefinition) : List CapabilityDescriptor :=
  [capability "profile" (profile.profileName.getD (ascii "UNKNOWN")),
    capability "telemetry_count" (decimal profile.telemetryMetrics.length),
    capability "profile_id" (decimal profile.profileId.toNat),
    capability "settings_count" (decimal profile.settings.length)] ++
  profileTopologyCapabilities profile.profileId ++ [capability "events_count" (decimal profile.events)]

/-- The message of a list that a profile heads. -/
def primaryMessage (have_provider : Bool) : Bytes :=
  if have_provider then ascii "profile-primary+provider" else ascii "profile-primary"

def DescriptorDevice.capabilities (device : DescriptorDevice) : DeviceList CapabilityDescriptor :=
  let (have_provider_caps, provider_caps) := device.provider.getCapabilities
  match device.profile with
  | some profile => .ok (profileCapabilities profile ++ provider_caps, primaryMessage have_provider_caps)
  | none => if have_provider_caps then .ok (provider_caps, []) else .error (ascii "capabilities unavailable")

/-- `resolveRegisteredProfile`: the schemas are those of the registered profile with the same id. -/
def DescriptorDevice.registered (device : DescriptorDevice) (profile : ProfileDefinition) :
    Option ProfileDefinition :=
  if profile.profileId = kProfileUnknown then none else device.registry profile.profileId

def DescriptorDevice.telemetrySchemaForProfile (device : DescriptorDevice) (profile : ProfileDefinition) :
    List TelemetryDescriptor :=
  match device.registered profile with
  | some registered =>
    (registered.telemetryMetrics.filter fun m => !m.key.isEmpty).map fun m =>
      { metric_id := m.id, key := m.key, description := ascii "profile-schema" }
  | none => []

def DescriptorDevice.settingsSchemaForProfile (device : DescriptorDevice) (profile : ProfileDefinition) :
    List SettingDescriptor :=
  match device.registered profile with
  | some registered =>
    (registered.settings.filter fun s => !s.key.isEmpty).map fun s =>
      { setting_id := s.id, key := s.key, description := ascii "profile-schema" }
  | none => []

/-- A metric takes over what the provider's first metric with its key says. -/
def fromProviderSchema (provider_schema : List TelemetryDescriptor) (t : TelemetryDescriptor) :
    TelemetryDescriptor :=
  match provider_schema.find? fun ps => ps.key = t.key with
  | some ps =>
    { t with
      unit := ps.unit
      min_value := ps.min_value
      max_value := ps.max_value
      description := if ps.description.isEmpty then t.description else ps.description }
  | none => t

/-- Without a profile there is no id to fill in. -/
def DescriptorDevice.telemetry (device : DescriptorDevice) : DeviceList TelemetryDescriptor :=
  let (have_provider_schema, provider_schema) := device.provider.getTelemetrySchema
  match device.profile with
  | some profile =>
    let full_telem := (device.telemetrySchemaForProfile profile).map (fromProviderSchema provider_schema)
    if full_telem.isEmpty then .error (ascii "telemetry schema unavailable")
    else .ok (full_telem, primaryMessage have_provider_schema)
  | none =>
    if have_provider_schema then .ok (provider_schema, []) else .error (ascii "telemetry schema unavailable")

/-- What the provider has for a setting of the schema: by its id, or else by its key. Where settings share
an id or a key the first one counts. -/
def DescriptorProvider.resolveSetting (provider : DescriptorProvider) (st : SettingDescriptor) :
    Option SettingDescriptor :=
  let (have_provider_bulk, provider_settings) := provider.getSettings
  if have_provider_bulk then
    (provider_settings.find? fun s => st.setting_id ≠ 0 ∧ s.setting_id = st.setting_id).or
      (provider_settings.find? fun s => !st.key.isEmpty ∧ s.key = st.key)
  else provider.getSettingById st.setting_id

/-- The id and the key stay those of the schema. -/
def fromProviderSetting (provider : DescriptorProvider) (st : SettingDescriptor) : SettingDescriptor :=
  match provider.resolveSetting st with
  | some resolved => { resolved with setting_id := st.setting_id, key := st.key }
  | none => st

def DescriptorDevice.settings (device : DescriptorDevice) : DeviceList SettingDescriptor :=
  match device.profile with
  | some profile =>
    let schema := device.settingsSchemaForProfile profile
    if schema.isEmpty then .error (ascii "settings unavailable")
    else .ok (schema.map (fromProviderSetting device.provider),
      primaryMessage (schema.any fun st => (device.provider.resolveSetting st).isSome))
  | none =>
    let (have_provider_settings, provider_settings) := device.provider.getSettings
    if have_provider_settings then .ok (provider_settings, []) else .error (ascii "settings unavailable")

def DescriptorDevice.otaManifest (device : DescriptorDevice) : DeviceList OtaManifestEntry :=
  let (available, full_manifest, msg) := device.provider.getOtaManifest
  if available then .ok (full_manifest, msg)
  else .error (if msg.isEmpty then ascii "ota manifest unavailable" else msg)

namespace DeviceListKind

def Item : DeviceListKind → Type
  | Capabilities => CapabilityDescriptor
  | Telemetry => TelemetryDescriptor
  | Settings => SettingDescriptor
  | OtaManifest => OtaManifestEntry

instance (kind : DeviceListKind) : DecidableEq kind.Item :=
  match kind with
  | Capabilities => inferInstanceAs (DecidableEq CapabilityDescriptor)
  | Telemetry => inferInstanceAs (DecidableEq TelemetryDescriptor)
  | Settings => inferInstanceAs (DecidableEq SettingDescriptor)
  | OtaManifest => inferInstanceAs (DecidableEq OtaManifestEntry)

def query : DeviceListKind → DescriptorQueryType
  | Capabilities => .GetCapabilities
  | Telemetry => .GetTelemetry
  | Settings => .GetSettings
  | OtaManifest => .GetOtaManifest

def response : DeviceListKind → DescriptorResponseType
  | Capabilities => .Capabilities
  | Telemetry => .Telemetry
  | Settings => .Settings
  | OtaManifest => .OtaManifest

def list (device : DescriptorDevice) : (kind : DeviceListKind) → DeviceList kind.Item
  | Capabilities => device.capabilities
  | Telemetry => device.telemetry
  | Settings => device.settings
  | OtaManifest => device.otaManifest

/-- The list that a response of the kind holds. -/
def items : (kind : DeviceListKind) → DescriptorResponse → List kind.Item
  | Capabilities, out => out.capabilities
  | Telemetry, out => out.telemetry
  | Settings, out => out.settings
  | OtaManifest, out => out.ota_manifest

def withItems : (kind : DeviceListKind) → List kind.Item → DescriptorResponse → DescriptorResponse
  | Capabilities, xs, out => { out with capabilities := xs }
  | Telemetry, xs, out => { out with telemetry := xs }
  | Settings, xs, out => { out with settings := xs }
  | OtaManifest, xs, out => { out with ota_manifest := xs }

@[simp] theorem items_withItems (kind : DeviceListKind) (xs : List kind.Item) (out : DescriptorResponse) :
    kind.items (kind.withItems xs out) = xs := by
  cases kind <;> rfl

@[simp] theorem withItems_type (kind : DeviceListKind) (xs : List kind.Item) (out : DescriptorResponse) :
    (kind.withItems xs out).type = out.type := by
  cases kind <;> rfl

@[simp] theorem withItems_message (kind : DeviceListKind) (xs : List kind.Item) (out : DescriptorResponse) :
    (kind.withItems xs out).message = out.message := by
  cases kind <;> rfl

@[simp] theorem withItems_page (kind : DeviceListKind) (xs : List kind.Item) (out : DescriptorResponse) :
    (kind.withItems xs out).toPageMeta = out.toPageMeta := by
  cases kind <;> rfl

theorem items_page (kind : DeviceListKind) (out : DescriptorResponse) (page : PageMeta) :
    kind.items { out with toPageMeta := page } = kind.items out := by
  cases kind <;> rfl

end DeviceListKind

end EspNowLink
