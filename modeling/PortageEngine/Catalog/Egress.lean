import PortageEngine.Catalog.Definitions
import PortageEngine.Library.Netip

/-!
# Egress policies

`EgressPolicy.Validate` brings a policy into normal form: one spelling of every resolver, host and
prefix, and all lists in order (`internal/catalog/egress.go`).  Prefixes become rules of a firewall;
hosts are what `CoversURL` compares the addresses of repositories with.
-/

namespace PortageEngine.BuildCatalog

open List Library Library.Decimal Library.Netip

/-! ## Lists of texts -/

def sortStrings (values : List String) : List String :=
  values.insertionSort (· ≤ ·)

/-- What the lists of resolvers, hosts and prefixes have in common: every text is brought into
normal form, no two may then be equal, and the result is sorted. -/
def normalizeTexts (normalize : String → Option String) (invalid duplicate : String → String)
    (values : List String) : Except String (List String) :=
  sortStrings <$> mapDistinct id (fun raw => (normalize raw).elim (.error (invalid raw)) .ok)
    duplicate [] values

def dnsResolver? (raw : String) : Option String :=
  (parseAddr (trimSpace raw).toList).map fun a => String.ofList a.text

def normalizeDNSResolvers : List String → Except String (List String) :=
  normalizeTexts dnsResolver? (fun raw => s!"invalid DNS resolver {raw.quote}")
    fun value => s!"duplicate DNS resolver {value.quote}"

def ruleCIDR? (raw : String) : Option String :=
  ((parsePrefix (trimSpace raw).toList).filter Prefix.isMasked).map fun p => String.ofList p.text

def normalizeRuleCIDRs : List String → Except String (List String) :=
  normalizeTexts ruleCIDR? (fun raw => s!"CIDR {raw.quote} must be canonical")
    fun value => s!"duplicate CIDR {value.quote}"

/-- `strings.ToLower`, as far as it makes letters of host names: beside the capitals, of two letters
outside of ASCII. -/
def lowerHostChar (c : Char) : Char :=
  if c.toNat = 0x130 then 'i' else if c.toNat = 0x212A then 'k' else c.toLower

def validHostLabel (label : List Char) : Bool :=
  label ≠ [] && label.length ≤ 63 && label.head? ≠ some '-' && label.getLast? ≠ some '-' &&
    label.all fun c => ('a' ≤ c && c ≤ 'z') || c.isDigit || c = '-'

/-- `normalizePolicyHost`; the empty text stands for an invalid host. -/
def normalizePolicyHost (raw : String) : String :=
  let lower := (trimSpace raw).toList.map lowerHostChar
  let host := if lower.getLast? = some '.' then lower.dropLast else lower
  match parseIP host with
  | some a => String.ofList a.unmap.text
  | none =>
    if host.length ≤ 253 && host.all (fun c => !"/\\:@?#".toList.contains c) &&
        (host.splitOn '.').all validHostLabel then String.ofList host
    else ""

def normalizeRuleHosts : List String → Except String (List String) :=
  normalizeTexts (fun raw => some (normalizePolicyHost raw) |>.filter (· ≠ ""))
    (fun raw => s!"invalid host {raw.quote}") fun value => s!"duplicate host {value.quote}"

/-! ## Validation -/

/-- `len` is in `1..32`. -/
def sized {α : Type} (values : List α) : Bool := 1 ≤ values.length && values.length ≤ 32

def normalizeEgressRule (rule : EgressRule) : Except String EgressRule := do
  require (idPattern rule.id) "invalid rule ID"
  require (rule.protocol = "tcp" || rule.protocol = "udp") "protocol must be tcp or udp"
  require (sized rule.hosts && sized rule.cidrs && sized rule.ports)
    "hosts, cidrs, and ports must each contain 1..32 values"
  let hosts ← normalizeRuleHosts rule.hosts
  let cidrs ← normalizeRuleCIDRs rule.cidrs
  let ports := rule.ports.insertionSort (· ≤ ·)
  require (ports.all (fun port => 1 ≤ port && port ≤ 65535) && decide ports.Nodup)
    "ports must be unique values in 1..65535"
  return { rule with hosts := hosts, cidrs := cidrs, ports := ports }

/-- `EgressPolicy.Validate`, with the policy as it leaves it. -/
def EgressPolicy.validate (p : EgressPolicy) : Except String EgressPolicy := do
  require (idPattern p.id && validChannel p.channel) "invalid egress policy identity"
  match p.mode with
  | .enforce =>
    require (1 ≤ p.rules.length && p.rules.length ≤ 64)
      "enforced egress policy requires 1..64 rules"
    let resolvers ← normalizeDNSResolvers p.dnsResolvers
    let rules ← mapDistinct EgressRule.id
      (fun rule => (normalizeEgressRule rule).mapError fun e => s!"egress rule {rule.id.quote}: {e}")
      (fun rule => s!"duplicate egress rule ID {rule.id.quote}") [] p.rules
    return { p with
      dnsResolvers := resolvers, rules := rules.insertionSort fun a b => a.id ≤ b.id }
  | .disabled =>
    require (p.channel = .compatibility && p.rules.isEmpty && p.dnsResolvers.isEmpty)
      "disabled egress policy is allowed only for empty compatibility policy"
    return p
  | .other text => .error s!"unsupported egress policy mode {text.quote}"

/-- `EgressPolicy.Digest`, with the policy as its validation leaves it. -/
def EgressPolicy.digest (hash : EgressPolicy → String) (p : EgressPolicy) :
    Except String (EgressPolicy × String) := do
  let p ← p.validate
  return (p, "sha256:" ++ hash p)

/-! ## Addresses of repositories -/

def egressURLProtocolPort (u : ParsedUrl) : Except String (String × Nat) := do
  let defaultPort ←
    if u.scheme = "http" then .ok 80 else if u.scheme = "https" then .ok 443
    else if u.scheme = "rsync" then .ok 873
    else .error s!"unsupported URL scheme {u.scheme.quote}"
  if u.port = "" then return ("tcp", defaultPort)
  let port := (atoi u.port).getD 0
  require (1 ≤ port && port ≤ 65535) "invalid URL port"
  return ("tcp", port.toNat)

/-- `EgressPolicy.CoversURL`; in a sorted list, binary search finds what is there. -/
def EgressPolicy.coversUrl (ext : Externals) (p : EgressPolicy) (raw purpose : String) :
    Except String Unit := do
  require (p.mode = .enforce) s!"{purpose} requires an enforced egress policy"
  match ext.parseUrl raw with
  | none => .error s!"{purpose} is not a credential-free network URL"
  | some u =>
    require (u.hostname ≠ "" && !u.hasUser && u.rawQuery = "" && u.fragment = "")
      s!"{purpose} is not a credential-free network URL"
    let (protocol, port) ← (egressURLProtocolPort u).mapError fun e => s!"{purpose}: {e}"
    let host := normalizePolicyHost u.hostname
    require (p.rules.any fun rule =>
        rule.protocol = protocol && rule.hosts.contains host && rule.ports.contains port)
      s!"{purpose} host {host.quote} port {port}/{protocol} is absent from egress policy {p.id.quote}"

/-! ## What validation leaves -/

variable {values texts : List String} {p p' : EgressPolicy}

theorem mem_sortStrings {s : String} : s ∈ sortStrings values ↔ s ∈ values :=
  mem_insertionSort _

/-- The normal forms of a list are those of its texts, each of which has one. -/
theorem mem_normalizeTexts {normalize : String → Option String} {invalid duplicate : String → String}
    (h : normalizeTexts normalize invalid duplicate values = .ok texts) :
    (∀ raw ∈ values, ∃ text ∈ texts, normalize raw = some text) ∧
      ∀ text ∈ texts, ∃ raw ∈ values, normalize raw = some text := by
  rcases map_eq_ok.mp h with ⟨forms, hforms, rfl⟩
  have hsome : ∀ raw text, (normalize raw).elim (.error (invalid raw)) .ok = Except.ok text →
      normalize raw = some text := by
    intro raw text h
    cases hraw : normalize raw <;> simp_all
  simp only [mem_sortStrings]
  rcases mem_of_map_eq_ok (mapDistinct_ok hforms) with ⟨hleft, hright⟩
  exact ⟨fun raw hraw => (hleft raw hraw).imp fun text h => h.imp_right (hsome raw text),
    fun text htext => (hright text htext).imp fun raw h => h.imp_right (hsome raw text)⟩

theorem EgressPolicy.channel_validate (h : p.validate = .ok p') : p'.channel = p.channel := by
  unfold EgressPolicy.validate at h
  replace h := passed h
  cases hmode : p.mode with
  | enforce =>
    simp only [hmode, bind_eq_ok, pure_eq_ok] at h
    rcases h with ⟨_, _, _, _, _, _, rfl⟩
    rfl
  | disabled =>
    simp only [hmode] at h
    cases passed h
    rfl
  | other text =>
    rw [hmode] at h
    cases h

/-- Web access to one network, and one resolver. -/
def webPolicy : EgressPolicy where
  id := "web"
  mode := .enforce
  dnsResolvers := ["2001:db8::53"]
  rules := [{
    id := "https"
    hosts := ["git.example.com"]
    cidrs := ["203.0.113.0/24"]
    protocol := "tcp"
    ports := [443] }]
  channel := .stable

example : webPolicy.validate = .ok webPolicy := rfl

end PortageEngine.BuildCatalog
