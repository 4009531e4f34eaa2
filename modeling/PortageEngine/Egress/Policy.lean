import PortageEngine.Catalog.Egress

/-!
# The rules that a policy asks for

`expectedPVERules` turns a validated egress policy into rules of the PVE firewall: one for every
prefix of every rule, and two for every resolver.  They cover the packets that the policy covers
(`expected_cover`).
-/

namespace PortageEngine.Egress

open List Library Decimal Netip BuildCatalog

/-- An IP packet, by what firewall rules look at. -/
structure Packet where
  source : Addr
  dest : Addr
  protocol : String
  sourcePort : Nat
  port : Nat

structure ExpectedRule where
  dest : String
  proto : String
  dport : String
  comment : String
  deriving DecidableEq

def joinPorts (ports : List Nat) : String :=
  String.ofList ([','].intercalate (ports.map (Nat.toDigits 10)))

def ExpectedRule.key (rule : ExpectedRule) : String :=
  rule.dest ++ "\x00" ++ rule.proto ++ "\x00" ++ rule.dport ++ "\x00" ++ rule.comment

def sortExpectedPVERules (rules : List ExpectedRule) : List ExpectedRule :=
  rules.insertionSort fun a b => a.key ≤ b.key

/-- The rules for the destinations of one rule; `label` names the digest of the policy. -/
def ruleEntries (label : String) (rule : EgressRule) : List ExpectedRule :=
  rule.cidrs.map fun dest =>
    { dest := dest, proto := rule.protocol, dport := joinPorts rule.ports
      comment := label ++ rule.id }

def resolverEntries (label : String) (resolver : String) : Except String (List ExpectedRule) :=
  match parseAddr resolver.toList with
  | none => .error s!"ParseAddr({resolver.quote})"
  | some a => .ok (["tcp", "udp"].map fun protocol =>
      { dest := String.ofList a.hostPrefix.text, proto := protocol, dport := "53"
        comment := label ++ "dns" })

def expectedPVERules (policy : EgressPolicy) (policyDigest : String) :
    Except String (List ExpectedRule) := do
  let hex := if "sha256:".toList.isPrefixOf policyDigest.toList then policyDigest.toList.drop 7
    else policyDigest.toList
  require (12 ≤ hex.length) "invalid egress policy digest"
  let label := "portage-engine:" ++ String.ofList (hex.take 12) ++ ":"
  let resolvers ← policy.dnsResolvers.mapM (resolverEntries label)
  return sortExpectedPVERules (policy.rules.flatMap (ruleEntries label) ++ resolvers.flatten)

/-! ## What a policy covers -/

/-- Some rule of the policy covers the packet, or it goes to port 53 of a listed resolver. -/
def Covers (policy : EgressPolicy) (p : Packet) : Prop :=
  (∃ rule ∈ policy.rules, ∃ cidr ∈ rule.cidrs, ∃ x ∈ parsePrefix (trimSpace cidr).toList,
    x.contains p.dest = true ∧ p.protocol = rule.protocol ∧ p.port ∈ rule.ports) ∨
  ∃ resolver ∈ policy.dnsResolvers, ∃ a ∈ parseAddr (trimSpace resolver).toList,
    a.withoutZone = p.dest ∧ p.port = 53 ∧ (p.protocol = "tcp" ∨ p.protocol = "udp")

instance (policy : EgressPolicy) (p : Packet) : Decidable (Covers policy p) :=
  inferInstanceAs (Decidable (_ ∨ _))

/-- How the firewall reads the port of a rule: a list separated by commas. -/
def listsPort (dport : String) (port : Nat) : Bool :=
  (dport.toList.splitOn ',').contains (Nat.toDigits 10 port)

/-- How the firewall reads an accepting rule that the controller created. -/
def ExpectedRule.covers (rule : ExpectedRule) (p : Packet) : Bool :=
  (rule.dest == "" || (parsePrefix rule.dest.toList).any (·.contains p.dest)) &&
    (rule.proto == "" || rule.proto == p.protocol) &&
    (rule.dport == "" || listsPort rule.dport p.port)

variable {ports : List Nat} {p : Packet} {rule rule' : EgressRule}

theorem listsPort_joinPorts (hne : ports ≠ []) {port : Nat} :
    listsPort (joinPorts ports) port = true ↔ port ∈ ports := by
  have hsplit : (joinPorts ports).toList.splitOn ',' = ports.map (Nat.toDigits 10) := by
    rw [joinPorts, String.toList_ofList]
    refine splitOn_intercalate _ ?_ (by simpa using hne)
    intro digits hdigits hcomma
    rcases mem_map.mp hdigits with ⟨n, -, rfl⟩
    cases isDigit_of_mem_toDigits hcomma
  have hinj : Function.Injective (Nat.toDigits 10) := fun m n h => by
    rw [← Nat.ofDigitChars_ten_toDigits (n := m), h, Nat.ofDigitChars_ten_toDigits]
  rw [listsPort, hsplit, contains_iff_mem, mem_map_of_injective hinj]

theorem joinPorts_ne_empty (hne : ports ≠ []) : joinPorts ports ≠ "" := by
  intro hempty
  rcases exists_mem_of_ne_nil ports hne with ⟨port, hport⟩
  have hlists := (listsPort_joinPorts hne).mpr hport
  rw [hempty, listsPort] at hlists
  simp at hlists

/-! ## The expected rules cover what the policy covers -/

variable {label digest : String} {policy valid : EgressPolicy} {expected : List ExpectedRule}

/-- A rule with the text of a prefix covers the packets to this prefix. -/
theorem covers_text {x : Netip.Prefix} {proto dport comment : String}
    (hproto : proto ≠ "") (hdport : dport ≠ "") :
    (ExpectedRule.mk (String.ofList x.text) proto dport comment).covers p = true ↔
      x.contains p.dest = true ∧ proto = p.protocol ∧ listsPort dport p.port = true := by
  have hdest : x.text ≠ [] := fun h => by
    have hparse := parsePrefix_text x
    rw [h] at hparse
    cases hparse
  simp [ExpectedRule.covers, hdest, hproto, hdport, parsePrefix_text, and_assoc]

/-- What validation makes of a rule. -/
theorem normalizeEgressRule_ok (h : normalizeEgressRule rule = .ok rule') :
    rule'.protocol = rule.protocol ∧ rule.protocol ≠ "" ∧ rule'.ports ≠ [] ∧
      (∀ port, port ∈ rule'.ports ↔ port ∈ rule.ports) ∧
      normalizeRuleCIDRs rule.cidrs = .ok rule'.cidrs := by
  unfold normalizeEgressRule at h
  simp only [bind_eq_ok, pure_eq_ok, require_eq_ok] at h
  rcases h with ⟨-, -, -, hproto, -, hsized, hosts, -, cidrs, hcidrs, -, -, rfl⟩
  refine ⟨rfl, ?_, ?_, fun port => mem_insertionSort _, hcidrs⟩
  · intro hempty
    simp [hempty] at hproto
  · intro hnil
    have hlength := congrArg List.length hnil
    simp only [length_insertionSort, length_nil] at hlength
    simp [sized, hlength] at hsized

theorem ruleCIDR?_some {raw text : String} (h : ruleCIDR? raw = some text) :
    ∃ x, parsePrefix (trimSpace raw).toList = some x ∧ text = String.ofList x.text := by
  rcases Option.map_eq_some_iff.mp h with ⟨x, hx, rfl⟩
  exact ⟨x, (Option.filter_eq_some_iff.mp hx).1, rfl⟩

theorem ruleEntries_cover (h : normalizeEgressRule rule = .ok rule') :
    (∃ e ∈ ruleEntries label rule', e.covers p = true) ↔
      ∃ cidr ∈ rule.cidrs, ∃ x ∈ parsePrefix (trimSpace cidr).toList,
        x.contains p.dest = true ∧ p.protocol = rule.protocol ∧ p.port ∈ rule.ports := by
  rcases normalizeEgressRule_ok h with ⟨hproto, hne, hports, hmem, hcidrs⟩
  rcases mem_normalizeTexts hcidrs with ⟨hleft, hright⟩
  have hentry : ∀ x : Netip.Prefix, (ExpectedRule.mk (String.ofList x.text) rule'.protocol
      (joinPorts rule'.ports) (label ++ rule'.id)).covers p = true ↔
        x.contains p.dest = true ∧ rule'.protocol = p.protocol ∧ p.port ∈ rule'.ports := by
    intro x
    rw [covers_text (hproto ▸ hne) (joinPorts_ne_empty hports), listsPort_joinPorts hports]
  constructor
  · rintro ⟨e, he, hcovers⟩
    rcases mem_map.mp he with ⟨text, htext, rfl⟩
    rcases hright text htext with ⟨cidr, hcidr, hok⟩
    rcases ruleCIDR?_some hok with ⟨x, hx, rfl⟩
    grind
  · rintro ⟨cidr, hcidr, x, hx, hcontains, hprotocol, hport⟩
    rcases hleft cidr hcidr with ⟨text, htext, hok⟩
    rcases ruleCIDR?_some hok with ⟨y, hy, rfl⟩
    refine ⟨_, mem_map.mpr ⟨_, htext, rfl⟩, ?_⟩
    grind

theorem resolverEntries_cover {raw text : String} {entries : List ExpectedRule}
    (h : dnsResolver? raw = some text) (he : resolverEntries label text = .ok entries) :
    (∃ e ∈ entries, e.covers p = true) ↔
      ∃ a ∈ parseAddr (trimSpace raw).toList,
        a.withoutZone = p.dest ∧ p.port = 53 ∧ (p.protocol = "tcp" ∨ p.protocol = "udp") := by
  rcases Option.map_eq_some_iff.mp h with ⟨a, ha, rfl⟩
  rw [resolverEntries, String.toList_ofList, parseAddr_text] at he
  cases he
  have hport : ∀ port, listsPort "53" port = true ↔ port = 53 := fun port => by
    have h53 : joinPorts [53] = "53" := by decide
    rw [← h53, listsPort_joinPorts (cons_ne_nil _ _), mem_singleton]
  have hentry : ∀ proto, proto ≠ "" → ((ExpectedRule.mk (String.ofList a.hostPrefix.text) proto
      "53" (label ++ "dns")).covers p = true ↔
        a.withoutZone = p.dest ∧ proto = p.protocol ∧ p.port = 53) := by
    intro proto hproto
    rw [covers_text hproto (by decide), hport, contains_hostPrefix]
  simp only [map_cons, map_nil, mem_cons, not_mem_nil, or_false, exists_eq_or_imp, exists_eq_left,
    hentry _ (show "tcp" ≠ "" by decide), hentry _ (show "udp" ≠ "" by decide), ha]
  grind

/-- The rules that are asked for cover exactly the packets that the policy covers. -/
theorem expected_cover (hmode : policy.mode = .enforce) (hvalid : policy.validate = .ok valid)
    (hexpected : expectedPVERules valid digest = .ok expected) (p : Packet) :
    (∃ e ∈ expected, e.covers p = true) ↔ Covers policy p := by
  unfold EgressPolicy.validate at hvalid
  simp only [hmode, bind_eq_ok, pure_eq_ok] at hvalid
  rcases hvalid with ⟨-, -, -, -, resolvers, hresolvers, rules, hrules, rfl⟩
  rcases bind_eq_ok.mp (passed hexpected) with ⟨entries, hentries, hsorted⟩
  cases pure_eq_ok.mp hsorted
  rcases mem_normalizeTexts hresolvers with ⟨htext, hraw⟩
  have hrules := mem_of_map_eq_ok (mapDistinct_ok hrules)
  simp only [mapError_succeeds_iff] at hrules
  rcases mem_of_map_eq_ok (map_of_mapM_eq_ok hentries) with ⟨hentry, hentry'⟩
  simp only [sortExpectedPVERules, mem_insertionSort, mem_append, mem_flatMap, mem_flatten,
    or_and_right, exists_or]
  refine or_congr ⟨?_, ?_⟩ ⟨?_, ?_⟩
  · rintro ⟨e, ⟨rule', hin, he⟩, hcovers⟩
    rcases hrules.2 rule' hin with ⟨rule, hrule, hok⟩
    exact ⟨rule, hrule, (ruleEntries_cover hok).mp ⟨e, he, hcovers⟩⟩
  · rintro ⟨rule, hin, hcovers⟩
    rcases hrules.1 rule hin with ⟨rule', hin', hok⟩
    rcases (ruleEntries_cover hok).mpr hcovers with ⟨e, he, hcovers⟩
    exact ⟨e, ⟨rule', hin', he⟩, hcovers⟩
  · rintro ⟨e, ⟨group, hin, he⟩, hcovers⟩
    rcases hentry' group hin with ⟨text, htext, hgroup⟩
    rcases hraw text htext with ⟨raw, hraw, hok⟩
    exact ⟨raw, hraw, (resolverEntries_cover hok hgroup).mp ⟨e, he, hcovers⟩⟩
  · rintro ⟨raw, hin, hcovers⟩
    rcases htext raw hin with ⟨text, htext, hok⟩
    rcases hentry text htext with ⟨group, hin', hgroup⟩
    rcases (resolverEntries_cover hok hgroup).mpr hcovers with ⟨e, he, hcovers⟩
    exact ⟨e, ⟨group, hin', he⟩, hcovers⟩

end PortageEngine.Egress
