import PortageEngine.Build.Request

/-!
# Provisioning on Proxmox VE

How a stored build request becomes a Terraform configuration on the PVE provider: the settings are
merged under the request's machine specification (`pveSpecWithDefaults`), the merged map is decoded
into an instance specification (`pveInstanceSpecFromMap`) and that is rendered (`generateMainTF`).
The configuration is kept as a record with one field for each argument of the VM resource.
-/

namespace PortageEngine.Build

open Library Library.Decimal BuildCatalog

/-! ## The specification map -/

/-- The PVE part of the operator's cloud settings. -/
structure CloudSettings where
  pveEndpoint : String
  pveNode : String
  pveNodes : List String
  pveStorage : String
  pveNetwork : String
  pveTemplate : String
  pveCICustom : String
  pveNameserver : String
  pveIPConfig : String
  pveGateway : String
  pveInsecure : Bool

def setNonempty (spec : StringMap) (key value : String) : StringMap :=
  if value = "" then spec else spec.insert key value

/-- Apply a list of non-empty settings in order. -/
def setAll (spec : StringMap) (settings : List (String × String)) : StringMap :=
  settings.foldl (fun acc kv => setNonempty acc kv.1 kv.2) spec

def pveSettings (cs : CloudSettings) : List (String × String) :=
  [("endpoint", cs.pveEndpoint), ("node", cs.pveNode), ("nodes", ",".intercalate cs.pveNodes),
    ("storage", cs.pveStorage), ("network", cs.pveNetwork), ("template", cs.pveTemplate),
    ("cicustom", cs.pveCICustom), ("nameserver", cs.pveNameserver), ("ip_config", cs.pveIPConfig),
    ("gateway", cs.pveGateway), ("insecure", if cs.pveInsecure then "true" else "")]

/-- A native Gentoo template is a UEFI image whose boot disk is cloned onto scsi0. -/
def nativeGentooSettings : List (String × String) :=
  [("bios", "ovmf"), ("machine", "q35"), ("disk_type", "scsi")]

def pveSpecWithDefaults (cs : CloudSettings) (reqSpec : StringMap) (buildMode : String) :
    StringMap :=
  let uefi := if buildMode = "native-gentoo" then nativeGentooSettings else []
  reqSpec ∪ setAll ∅ (pveSettings cs ++ uefi)

/-- The keys `bindResolvedProvisionContext` writes for every resolved context. -/
def contextSettings (context : ResolvedBuildContext) : List (String × String) :=
  [("pe_catalog_version", toString context.catalogVersion), ("pe_profile_id", context.profileId),
    ("pe_image_id", context.image.id), ("pe_image_generation", context.image.generation),
    ("pe_image_digest", context.image.digest), ("pe_mirror_bundle_id", context.mirrorBundle.id),
    ("pe_mirror_bundle_digest", context.mirrorBundle.digest),
    ("pe_egress_policy_id", context.egressPolicy.id),
    ("pe_egress_policy_digest", context.egressPolicyDigest)]

def writeAll (spec : StringMap) (settings : List (String × String)) : StringMap :=
  settings.foldl (fun acc kv => acc.insert kv.1 kv.2) spec

/-- The specification map of `Manager.buildProvisionRequest` for the PVE provider. -/
def pveProvisionSpec (cs : CloudSettings) (req : BuildRequest) : Except String StringMap := do
  let buildMode := match req.resolvedContext with
    | none => "native-gentoo"
    | some context => if context.buildMode = "" then "native-gentoo" else context.buildMode
  require (buildMode = "native-gentoo")
    s!"build mode {buildMode.quote} is no longer supported; only native-gentoo is available"
  let spec := pveSpecWithDefaults cs req.machineSpec buildMode
  match req.resolvedContext with
  | none => return spec
  | some context =>
    let spec := setNonempty spec "template" context.template
    let spec := writeAll spec (contextSettings context)
    return if context.egressPolicy.mode = .enforce then spec.insert "start_stopped" "true"
      else spec

/-! ## The instance specification -/

structure PVEInstanceSpec where
  node : String
  vmid : Int
  name : String
  cores : Int
  sockets : Int
  memoryMB : Int
  diskSizeGB : Int
  diskType : String
  storage : String
  template : String
  osType : String
  bios : String
  machine : String
  network : String
  vlan : Int
  ipConfig : String
  gateway : String
  nameserver : String
  sshKeys : String
  ciCustom : String
  smbiosUuid : String
  pool : String
  tags : List String
  startOnBoot : Bool
  agent : Bool
  cloudInit : Bool
  startStopped : Bool

def defaultPVEInstanceSpec : PVEInstanceSpec where
  node := "pve"
  vmid := 0
  name := "portage-builder"
  cores := 4
  sockets := 1
  memoryMB := 8192
  diskSizeGB := 50
  diskType := "scsi"
  storage := "local-lvm"
  template := ""
  osType := "l26"
  bios := ""
  machine := ""
  network := "vmbr0"
  vlan := 0
  ipConfig := "dhcp"
  gateway := ""
  nameserver := ""
  sshKeys := ""
  ciCustom := ""
  smbiosUuid := ""
  pool := ""
  tags := ["portage-builder"]
  startOnBoot := true
  agent := true
  cloudInit := true
  startStopped := false

def stringField (m : StringMap) (key : String) (target : String) : String :=
  match m.lookup key with
  | none => target
  | some v => if v = "" then target else v

/-- A number field keeps its old value when the text has no number at its front. -/
def intField (m : StringMap) (key : String) (target : Int) : Int :=
  match m.lookup key with
  | none => target
  | some v => if v = "" then target else (scanInt v).getD target

def boolField (m : StringMap) (key : String) (target : Bool) : Bool :=
  match m.lookup key with
  | none => target
  | some v => v = "true" || v = "1"

def tagsField (m : StringMap) (target : List String) : List String :=
  let value := trimSpace ((m.lookup "tags").getD "")
  if value = "" then target
  else ((value.toList.splitOnP fun c => c = ',' || c = ';').filter (· ≠ [])).map String.ofList

def pveInstanceSpecFromMap (m : StringMap) : PVEInstanceSpec :=
  let d := defaultPVEInstanceSpec
  { node := stringField m "node" d.node
    vmid := intField m "vmid" d.vmid
    name := stringField m "name" d.name
    cores := intField m "cores" d.cores
    sockets := intField m "sockets" d.sockets
    memoryMB := intField m "memory_mb" d.memoryMB
    diskSizeGB := intField m "disk_size_gb" d.diskSizeGB
    diskType := stringField m "disk_type" d.diskType
    storage := stringField m "storage" d.storage
    template := stringField m "template" d.template
    osType := stringField m "os_type" d.osType
    bios := stringField m "bios" d.bios
    machine := stringField m "machine" d.machine
    network := stringField m "network" d.network
    vlan := intField m "vlan" d.vlan
    ipConfig := stringField m "ip_config" d.ipConfig
    gateway := stringField m "gateway" d.gateway
    nameserver := stringField m "nameserver" d.nameserver
    sshKeys := stringField m "ssh_keys" d.sshKeys
    ciCustom := stringField m "cicustom" d.ciCustom
    smbiosUuid := stringField m "smbios_uuid" d.smbiosUuid
    pool := stringField m "pool" d.pool
    tags := tagsField m d.tags
    startOnBoot := d.startOnBoot
    agent := boolField m "agent" d.agent
    cloudInit := boolField m "cloud_init" d.cloudInit
    startStopped := boolField m "start_stopped" d.startStopped }

/-! ## The configuration -/

/-- The arguments of the `proxmox_vm_qemu` resource that the template fills in. -/
structure MainTF where
  name : String
  targetNode : String
  vmid : Option Int
  pool : Option String
  cpuCores : Int
  cpuSockets : Int
  memory : Int
  agent : Bool
  onboot : Bool
  stopped : Bool
  smbiosUuid : Option String
  cloudInit : Bool
  bios : Option String
  machine : Option String
  clone : String
  diskFamily : String
  diskStorage : String
  diskSizeGB : Int
  network : String
  tags : List String

/-- A template block that is left out for an empty value. -/
def optionalBlock (value : String) : Option String :=
  if value = "" then none else some value

def generateMainTF (spec : PVEInstanceSpec) (instanceName : String) : MainTF where
  name := instanceName
  targetNode := spec.node
  vmid := if 0 < spec.vmid then some spec.vmid else none
  pool := optionalBlock spec.pool
  cpuCores := spec.cores
  cpuSockets := spec.sockets
  memory := spec.memoryMB
  agent := spec.agent
  onboot := spec.startOnBoot
  stopped := spec.startStopped
  smbiosUuid := optionalBlock spec.smbiosUuid
  cloudInit := spec.cloudInit
  bios := optionalBlock spec.bios
  machine := optionalBlock spec.machine
  clone := spec.template
  diskFamily := if spec.diskType = "scsi" || spec.diskType = "virtio" then spec.diskType else "scsi"
  diskStorage := spec.storage
  diskSizeGB := spec.diskSizeGB
  network := spec.network
  tags := if spec.tags.isEmpty then ["portage-builder"] else spec.tags

/-- `generatePVEConfig` for a request of the PVE provider; `instanceName` is chosen by the caller. -/
def generatePVEConfig (cs : CloudSettings) (req : BuildRequest) (instanceName : String) :
    Except String MainTF := do
  let m ← pveProvisionSpec cs req
  let spec := pveInstanceSpecFromMap m
  require ((m.lookup "endpoint").getD "" ≠ "")
    "PVE endpoint missing: set CLOUD_PVE_ENDPOINT (or machine_spec \"endpoint\")"
  require (spec.template ≠ "")
    "PVE template missing: set CLOUD_PVE_TEMPLATE (or machine_spec \"template\") to a cloud-init enabled QEMU VM template, see docs/PVE_TESTING.md"
  return generateMainTF spec instanceName

def MainTF.vcpus (tf : MainTF) : Int :=
  tf.cpuCores * tf.cpuSockets

end PortageEngine.Build
