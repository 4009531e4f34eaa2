import PortageEngine.Egress.Policy
import PortageEngine.Library.Positions

/-!
# The firewall of a PVE machine

`ApplyPVEEgressPolicy` deletes the outbound rules of a machine by position and creates those its
policy asks for; `ClosePVEVMInbound` deletes the inbound ones.  Both leave security-group rules
alone.  A group is defined for the whole cluster, and the first rule that matches a packet decides,
be it a rule of the machine or of a group it refers to.

The firewall numbers rules from zero and renumbers them after each change; where it puts a new
rule is left open.
-/

namespace PortageEngine.Egress

open List Library Decimal Positions Netip BuildCatalog

inductive Direction where
  | inbound
  | outbound
  deriving DecidableEq

inductive RuleType where
  | flow (direction : Direction)
  | group (name : String)
  deriving DecidableEq

inductive Action where
  | accept
  | drop
  | reject
  deriving DecidableEq

/-- A rule; `other` is what its other attributes ask of a packet. -/
structure Rule where
  type : RuleType
  action : Action
  entry : ExpectedRule
  enable : Bool
  other : Packet → Bool

structure Firewall where
  enable : Bool
  policyIn : Action
  policyOut : Action
  rules : List Rule

def ExpectedRule.form (e : ExpectedRule) : Rule :=
  { type := .flow .outbound, action := .accept, entry := e, enable := true, other := fun _ => true }

def Rule.isFlow (d : Direction) (r : Rule) : Bool := r.type == .flow d

def Rule.isGroup (r : Rule) : Bool :=
  match r.type with
  | .group _ => true
  | .flow _ => false

/-- Delete the rules of one direction, from the last position to the first. -/
def deleteFlow (d : Direction) (rules : List Rule) : List Rule :=
  eraseAll rules ((positions (Rule.isFlow d) rules).insertionSort (· ≥ ·))

def insertAt (i : Nat) (r : Rule) (rules : List Rule) : List Rule :=
  rules.take i ++ r :: rules.drop i

/-- Create the rules in order; `place` says where the firewall puts the next one. -/
def createRules (place : List Rule → Nat) :
    List ExpectedRule → List Rule → List Rule
  | [], rules => rules
  | e :: expected, rules => createRules place expected (insertAt (place rules) e.form rules)

def applyPVEEgressPolicy (hash : EgressPolicy → String) (place : List Rule → Nat)
    (node vmid : String) (clusterEnabled : Bool) (policy : EgressPolicy) (fw : Firewall) :
    Except String Firewall := do
  require (trimSpace node != "" && trimSpace vmid != "")
    "PVE node and VMID are required for egress enforcement"
  require (policy.mode = .enforce) "PVE egress enforcement requires an enforced policy"
  let (policy, digest) ← (policy.digest hash).mapError fun e => s!"validate egress policy: {e}"
  let expected ← expectedPVERules policy digest
  require clusterEnabled
    "PVE cluster firewall is disabled; VM rules would not be an enforcement boundary"
  let rules := createRules place expected (deleteFlow .outbound fw.rules)
  let outbound := rules.filter (Rule.isFlow .outbound)
  require (outbound.all fun r => r.action == .accept && r.enable)
    "PVE outbound firewall readback contains a non-ACCEPT or disabled rule"
  require (decide (sortExpectedPVERules (outbound.map (·.entry)) = expected))
    s!"PVE outbound firewall readback differs from policy {policy.id.quote}"
  return { enable := true, policyIn := .accept, policyOut := .drop, rules := rules }

def closePVEVMInbound (fw : Firewall) : Except String Firewall := do
  let rules := deleteFlow .inbound fw.rules
  require (rules.all fun r => !r.isFlow .inbound)
    "PVE VM firewall readback still contains inbound rule"
  return { enable := true, policyIn := .drop, policyOut := .drop, rules := rules }

/-! ## What the firewall does -/

section Semantics

variable (groups : String → List Rule)

def Rule.decide (d : Direction) (p : Packet) (r : Rule) : Option Bool :=
  if r.enable && r.isFlow d && r.entry.covers p && r.other p then some (r.action == .accept)
  else none

def Rule.verdict (d : Direction) (p : Packet) (r : Rule) : Option Bool :=
  match r.type with
  | .group name => if r.enable then (groups name).findSome? (Rule.decide d p) else none
  | .flow _ => r.decide d p

def verdict (d : Direction) (rules : List Rule) (p : Packet) : Option Bool :=
  rules.findSome? (Rule.verdict groups d p)

/-- Whether the machine may send the packet, unless it is DHCP or neighbour discovery, which the
options `dhcp` and `ndp` let pass before any rule. -/
def Firewall.sends (fw : Firewall) (p : Packet) : Bool :=
  !fw.enable || (verdict groups .outbound fw.rules p).getD (fw.policyOut == .accept)

/-! ## Editing the rules -/

variable {groups} {d : Direction} {p : Packet} {rules : List Rule}

theorem deleteFlow_eq : deleteFlow d rules = rules.filter (!Rule.isFlow d ·) :=
  eraseAll_positions

theorem closePVEVMInbound_eq {fw : Firewall} :
    closePVEVMInbound fw = .ok ⟨true, .drop, .drop, deleteFlow .inbound fw.rules⟩ :=
  bind_eq_ok.mpr ⟨(), require_eq_ok.mpr (by simp [deleteFlow_eq]), rfl⟩

variable {q : Rule → Bool} {place : List Rule → Nat}

theorem filter_deleteFlow (hq : ∀ r, q r = true → r.isFlow d = false) :
    (deleteFlow d rules).filter q = rules.filter q := by
  rw [deleteFlow_eq, filter_filter]
  refine filter_congr fun r _ => ?_
  cases hr : q r with
  | false => rfl
  | true => simp [hq r hr]

variable {expected : List ExpectedRule} {e : ExpectedRule}

theorem filter_createRules
    (hq : ∀ e : ExpectedRule, q e.form = false) :
    (createRules place expected rules).filter q = rules.filter q := by
  induction expected generalizing rules with
  | nil => rfl
  | cons e expected ih =>
      rw [createRules, ih, insertAt, filter_append, filter_cons, hq,
        if_neg Bool.false_ne_true, ← filter_append, take_append_drop]

theorem createRules_length :
    createRules List.length expected rules = rules ++ expected.map ExpectedRule.form := by
  induction expected generalizing rules with
  | nil => simp [createRules]
  | cons e expected ih => rw [createRules, ih]; simp [insertAt]

theorem mem_createRules (he : e ∈ expected) : e.form ∈ createRules place expected rules := by
  have hkeep : ∀ (expected : List ExpectedRule) (rules : List Rule) (r : Rule),
      r ∈ rules → r ∈ createRules place expected rules := by
    intro expected
    induction expected with
    | nil => exact fun _ _ hr => hr
    | cons f expected ih =>
        refine fun rules r hr => ih _ r ?_
        rw [← take_append_drop (place rules) rules] at hr
        grind [insertAt]
  induction expected generalizing rules with
  | nil => cases he
  | cons f expected ih =>
      rcases mem_cons.mp he with rfl | he
      · exact hkeep expected _ _ (by simp [insertAt])
      · exact ih he

/-! ## Verdicts -/

theorem verdict_form :
    Rule.verdict groups .outbound p e.form = if e.covers p then some true else none := by
  simp [Rule.verdict, Rule.decide, ExpectedRule.form, Rule.isFlow]

theorem verdict_filter (hq : ∀ r ∈ rules, q r = false → Rule.verdict groups d p r = none) :
    verdict groups d (rules.filter q) p = verdict groups d rules p := by
  induction rules with
  | nil => rfl
  | cons r rules ih =>
      have hrest := ih fun r' hr' => hq r' (mem_cons_of_mem r hr')
      unfold verdict at *
      cases hr : q r with
      | false =>
          rw [filter_cons_of_neg (by simp [hr]), hrest, findSome?_cons,
            hq r mem_cons_self hr]
      | true => rw [filter_cons_of_pos hr, findSome?_cons, findSome?_cons, hrest]

theorem Rule.isFlow_of_isGroup {r : Rule} (hr : r.isGroup = true) : r.isFlow d = false := by
  unfold Rule.isGroup at hr
  unfold Rule.isFlow
  grind

/-- Without the rules of one direction, the groups decide for it. -/
theorem verdict_deleteFlow :
    verdict groups d (deleteFlow d rules) p =
      verdict groups d (rules.filter Rule.isGroup) p := by
  rw [← filter_deleteFlow fun r hr => Rule.isFlow_of_isGroup hr, verdict_filter]
  intro r hr hgroup
  rw [deleteFlow_eq] at hr
  unfold Rule.isGroup at hgroup
  unfold Rule.verdict Rule.decide
  grind

/-- The firewall decides nothing that the policy does not say. -/
def Agrees (groups : String → List Rule)
    (policy : EgressPolicy) (rules : List Rule) : Prop :=
  ∀ p v, verdict groups .outbound rules p = some v → (v = true ↔ Covers policy p)

theorem Agrees.createRules {policy : EgressPolicy}
    (hcover : ∀ e ∈ expected, ∀ p, e.covers p = true → Covers policy p)
    (h : Agrees groups policy rules) :
    Agrees groups policy (createRules place expected rules) := by
  induction expected generalizing rules with
  | nil => exact h
  | cons e expected ih =>
      refine ih (fun f hf => hcover f (mem_cons_of_mem e hf)) ?_
      intro p v hv
      have hsplit := h p v
      rw [← take_append_drop (place rules) rules, verdict, findSome?_append] at hsplit
      rw [verdict, insertAt, findSome?_append, findSome?_cons, verdict_form] at hv
      -- what stands before the new rule decides as it did, and so does what stands behind it
      cases hbefore : (rules.take (place rules)).findSome? (Rule.verdict groups .outbound p) with
      | some w =>
          rw [hbefore] at hv hsplit
          exact hsplit hv
      | none =>
          rw [hbefore] at hv hsplit
          by_cases hcovers : e.covers p = true
          · rw [if_pos hcovers] at hv
            cases hv
            exact iff_of_true rfl (hcover e mem_cons_self p hcovers)
          · rw [if_neg hcovers] at hv
            exact hsplit hv

end Semantics

/-! ## Exactness -/

section Exactness

variable {hash : EgressPolicy → String} {groups : String → List Rule}
  {node vmid : String} {cluster : Bool} {policy : EgressPolicy} {fw : Firewall}

/-- After a successful call the machine may send what the policy covers and nothing else, its
inbound rules are as before, and once closed no rule lets a packet in. -/
def Enforced (groups : String → List Rule)
    (policy : EgressPolicy) (fw fw' : Firewall) : Prop :=
  (∀ p, fw'.sends groups p = true ↔ Covers policy p) ∧
    fw'.rules.filter (Rule.isFlow .inbound) = fw.rules.filter (Rule.isFlow .inbound) ∧
    ∀ closed, closePVEVMInbound fw' = .ok closed →
      ∀ p, verdict groups .inbound closed.rules p ≠ some true

theorem sortExpectedPVERules_idem {rules : List ExpectedRule} :
    sortExpectedPVERules (sortExpectedPVERules rules) = sortExpectedPVERules rules := by
  exact (pairwise_insertionSort _ rules).insertionSort_eq

theorem applyPVEEgressPolicy_ok {place : List Rule → Nat} {fw' : Firewall}
    (h : applyPVEEgressPolicy hash place node vmid cluster policy fw = .ok fw') :
    ∃ expected, (∀ p, (∃ e ∈ expected, e.covers p = true) ↔ Covers policy p) ∧
      fw' = ⟨true, .accept, .drop, createRules place expected (deleteFlow .outbound fw.rules)⟩ ∧
      applyPVEEgressPolicy hash List.length node vmid cluster policy fw =
        .ok ⟨true, .accept, .drop,
          createRules List.length expected (deleteFlow .outbound fw.rules)⟩ := by
  unfold applyPVEEgressPolicy at *
  simp only [bind_eq_ok, pure_eq_ok, require_eq_ok] at *
  rcases h with ⟨-, hnode, -, hmode, ⟨valid, digest⟩, hdigest, expected, hexpected, -, hcluster, -, -,
    -, -, rfl⟩
  rcases bind_eq_ok.mp (mapError_succeeds_iff.mp hdigest) with ⟨_, hvalid, heq⟩
  cases pure_eq_ok.mp heq
  refine ⟨expected, expected_cover (by simpa using hmode) hvalid hexpected, rfl, ⟨⟩, hnode, ⟨⟩, hmode,
    _, hdigest, expected, hexpected, ⟨⟩, hcluster, ⟨⟩, ?_, ⟨⟩, ?_, rfl⟩
  all_goals
    have hnone : (deleteFlow .outbound fw.rules).filter (Rule.isFlow .outbound) = [] := by
      rw [deleteFlow_eq]
      simp
    have hforms : (expected.map fun e => (e.form : Rule)).filter (Rule.isFlow .outbound) =
        expected.map ExpectedRule.form := by
      refine filter_eq_self.mpr fun r hr => ?_
      rcases mem_map.mp hr with ⟨e, -, rfl⟩
      rfl
    rw [createRules_length, filter_append, hnone, hforms, nil_append]
  · simp [ExpectedRule.form]
  · -- the rules are read back in the order in which they were created
    rcases bind_eq_ok.mp (passed hexpected) with ⟨entries, -, hsorted⟩
    cases pure_eq_ok.mp hsorted
    have hentry : (fun r : Rule => r.entry) ∘ ExpectedRule.form = id := rfl
    rw [map_map, hentry, map_id, sortExpectedPVERules_idem, decide_eq_true_iff]

/-- A call that succeeds enforces the policy, wherever the firewall puts new rules, exactly if the
security groups of the machine decide nothing about outbound packets that the policy does not say,
and let nothing in. -/
theorem egress_enforced_iff {place₀ : List Rule → Nat} {fw₀ : Firewall}
    (hok : applyPVEEgressPolicy hash place₀ node vmid cluster policy fw = .ok fw₀) :
    (∀ place fw', applyPVEEgressPolicy hash place node vmid cluster policy fw = .ok fw' →
      Enforced groups policy fw fw') ↔
    Agrees groups policy (fw.rules.filter Rule.isGroup) ∧
      ∀ p, verdict groups .inbound (fw.rules.filter Rule.isGroup) p ≠ some true := by
  have hgroups : ∀ place expected, (createRules place expected (deleteFlow .outbound fw.rules)).filter
      Rule.isGroup = fw.rules.filter Rule.isGroup := by
    intro place expected
    rw [filter_createRules (fun _ => rfl), filter_deleteFlow fun r hr => Rule.isFlow_of_isGroup hr]
  constructor
  · -- with the new rules behind the groups, the groups decide first
    intro h
    rcases applyPVEEgressPolicy_ok hok with ⟨expected, -, -, happend⟩
    rcases h _ _ happend with ⟨hsends, -, hclosed⟩
    constructor
    · intro p v hv
      rw [← verdict_deleteFlow] at hv
      have hfirst : verdict groups .outbound
          (createRules List.length expected (deleteFlow .outbound fw.rules)) p = some v := by
        rw [createRules_length, verdict, findSome?_append]
        simp only [verdict] at hv
        rw [hv]
        rfl
      rw [← hsends p, Firewall.sends, hfirst]
      simp
    · intro p
      have hin := hclosed _ (closePVEVMInbound_eq) p
      rwa [verdict_deleteFlow, hgroups] at hin
  · rintro ⟨hagrees, hin⟩ place fw' hfw'
    rcases applyPVEEgressPolicy_ok hfw' with ⟨expected, hcover, rfl, -⟩
    refine ⟨?_, ?_, ?_⟩
    · have hbase : Agrees groups policy (deleteFlow .outbound fw.rules) := fun p v hv =>
        hagrees p v (verdict_deleteFlow ▸ hv)
      have hall : Agrees groups policy
          (createRules place expected (deleteFlow .outbound fw.rules)) :=
        hbase.createRules fun e he p hp => (hcover p).mp ⟨e, he, hp⟩
      intro p
      rw [Firewall.sends]
      cases hv : verdict groups .outbound
          (createRules place expected (deleteFlow .outbound fw.rules)) p with
      | some v => simpa using hall p v hv
      | none =>
          -- no rule matches, so none that the policy asks for does
          simp only [Bool.not_true, Option.getD_none, Bool.false_or]
          rw [← hcover p]
          constructor
          · intro hdrop
            exact absurd hdrop (by decide)
          · rintro ⟨e, he, hcovers⟩
            have hnone := findSome?_eq_none_iff.mp hv _ (mem_createRules he)
            rw [verdict_form, hcovers] at hnone
            cases hnone
    · rw [filter_createRules (fun _ => rfl), filter_deleteFlow]
      intro r hr
      simp only [Rule.isFlow, beq_iff_eq] at hr ⊢
      simp [hr]
    · intro closed hclosed p
      replace hclosed := passed hclosed
      cases pure_eq_ok.mp hclosed
      rw [verdict_deleteFlow, hgroups]
      exact hin p

end Exactness

/-! ## A group that lets everything pass -/

/-- A rule that accepts every packet it is asked about. -/
def openRule (type : RuleType) : Rule where
  type := type
  action := .accept
  entry := { dest := "", proto := "", dport := "", comment := "" }
  enable := true
  other := fun _ => true

def openGroups (_ : String) : List Rule :=
  [openRule (.flow .inbound), openRule (.flow .outbound)]

/-- A new machine with the given rule. -/
def machine (type : RuleType) : Firewall :=
  ⟨false, .accept, .accept, [openRule type]⟩

/-- A hash of the right form. -/
def zeroHash (_ : EgressPolicy) : String :=
  String.ofList (replicate 64 '0')

/-- A machine without groups sends what its policy covers, whatever outbound rule it came with. -/
theorem egress_enforced_without_groups :
    (∃ fw, applyPVEEgressPolicy zeroHash List.length "pve" "100" true webPolicy
      (machine (.flow .outbound)) = .ok fw) ∧
    ∀ place fw, applyPVEEgressPolicy zeroHash place "pve" "100" true webPolicy
      (machine (.flow .outbound)) = .ok fw →
        Enforced openGroups webPolicy (machine (.flow .outbound)) fw := by
  have hok : applyPVEEgressPolicy zeroHash List.length "pve" "100" true webPolicy
      (machine (.flow .outbound)) = .ok _ := rfl
  exact ⟨⟨_, hok⟩, (egress_enforced_iff hok).mpr ⟨nofun, nofun⟩⟩

/-- A packet to 198.51.100.7, outside of the network of the policy. -/
def strayPacket : Packet where
  source := .v4 ⟨[203, 0, 113, 9], by decide⟩
  dest := .v4 ⟨[198, 51, 100, 7], by decide⟩
  protocol := "tcp"
  sourcePort := 50000
  port := 443

/-- A security group of the machine outlives both calls: a packet that the policy does not cover is
sent, and inbound packets are accepted. -/
theorem group_rules_survive :
    ∃ fw closed, applyPVEEgressPolicy zeroHash List.length "pve" "100" true webPolicy
        (machine (.group "open")) = .ok fw ∧ closePVEVMInbound fw = .ok closed ∧
      fw.sends openGroups strayPacket = true ∧ ¬ Covers webPolicy strayPacket ∧
        verdict openGroups .inbound closed.rules strayPacket = some true :=
  ⟨_, _, rfl, rfl, rfl, by decide +kernel, rfl⟩

end PortageEngine.Egress
