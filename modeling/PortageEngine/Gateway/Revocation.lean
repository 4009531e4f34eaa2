import PortageEngine.Gateway.Effects

/-!
# Revocation of workload identities

Certificates only ever go from active to revoked, and generations of an issuer from active over
draining to revoked; the two registration calls insert rows but never bring one back.  So what a
revocation reaches is refused for good, although sessions do become active again.
-/

namespace PortageEngine.Gateway

open List Library Library.Rows Library.Runs
open Ledger

variable {ext : Externals} {t t' : Tables} {op : GatewayOp}

/-! ## What a call does to certificates and generations -/

def CertificateStep (c c' : Certificate) : Prop :=
  c' = c ∨ c' = c.revoke

def GenerationState.rank : GenerationState → Nat
  | .active => 0
  | .draining => 1
  | .revoked => 2

structure GenerationStep (g g' : IssuerGeneration) : Prop where
  fingerprint : g'.fingerprint = g.fingerprint
  issuerId : g'.issuerId = g.issuerId
  older : g.state.rank ≤ g'.state.rank

theorem rank_le_revoked {state : GenerationState} : state.rank ≤ GenerationState.revoked.rank := by
  cases state <;> decide

theorem generationStep_refl (g : IssuerGeneration) : GenerationStep g g :=
  ⟨rfl, rfl, Nat.le_refl _⟩

/-- A registration: the generation of the record is the only active one of its issuer. -/
structure Registered (t : Tables) (t' : Tables) (i : Identity) (r : CertificateRecord) : Prop where
  generations : Evolves GenerationStep (· = newGeneration r) t.generations t'.generations
  keyed : Keyed IssuerGeneration.fingerprint t.generations →
    Keyed IssuerGeneration.fingerprint t'.generations
  single : Keyed IssuerGeneration.fingerprint t.generations →
    ∀ g ∈ t'.generations, g.issuerId = r.issuerId → g.state = .active → g = newGeneration r
  active : newGeneration r ∈ t'.generations
  others : ∀ g' ∈ t'.generations, g'.issuerId ≠ r.issuerId → g' ∈ t.generations
  revoked : ∀ g' ∈ t'.generations, g'.state = .revoked → g' ∈ t.generations
  certificates : t'.certificates = t.certificates ∨
    (t'.certificates = newCertificate i r :: t.certificates ∧
      ∀ c ∈ t.certificates, c.fingerprint ≠ r.fingerprint)

section Drain

variable {generations generations' : List IssuerGeneration} {r : CertificateRecord}
  {g : IssuerGeneration}

theorem mem_drainOthers (hg : g ∈ drainOthers r generations) :
    (g ∈ generations ∧ (g.issuerId = r.issuerId → g.state = .active →
      g.fingerprint = r.issuerFingerprint)) ∨ (g.issuerId = r.issuerId ∧ g.state = .draining) := by
  rcases mem_update_cases hg with ⟨k, hk, hp, rfl⟩ | ⟨hg, hp⟩
  · simp only [Bool.and_eq_true, decide_eq_true_eq] at hp
    exact .inr ⟨hp.1.1, rfl⟩
  refine .inl ⟨hg, ?_⟩
  intro hissuer hactive
  by_contra hne
  simp [hissuer, hactive, hne] at hp

/-- After the other generations of the issuer have been drained, none but the record's is active. -/
theorem drainOthers_active (hg : g ∈ drainOthers r generations) (hissuer : g.issuerId = r.issuerId)
    (hactive : g.state = .active) : g.fingerprint = r.issuerFingerprint := by
  rcases mem_drainOthers hg with ⟨_, hown⟩ | ⟨_, hdraining⟩
  · exact hown hissuer hactive
  · rw [hdraining] at hactive
    cases hactive

theorem drainOthers_other (hg : g ∈ drainOthers r generations) (hissuer : g.issuerId ≠ r.issuerId) :
    g ∈ generations := by
  rcases mem_drainOthers hg with ⟨hmem, _⟩ | ⟨hsame, _⟩
  · exact hmem
  · exact absurd hsame hissuer

theorem drainOthers_revoked (hg : g ∈ drainOthers r generations) (hrevoked : g.state = .revoked) :
    g ∈ generations := by
  rcases mem_drainOthers hg with ⟨hmem, _⟩ | ⟨_, hdraining⟩
  · exact hmem
  · rw [hdraining] at hrevoked
    cases hrevoked

theorem evolves_drainOthers : Evolves GenerationStep (· = newGeneration r) generations
    (drainOthers r generations) := by
  refine evolves_update generationStep_refl ?_
  intro g _ hp
  simp only [Bool.and_eq_true, decide_eq_true_eq] at hp
  refine ⟨rfl, rfl, ?_⟩
  rw [hp.2]
  exact Nat.zero_le _

theorem registerGeneration_ok (h : registerGeneration generations r = .ok generations') :
    (generations' = drainOthers r generations ∧ newGeneration r ∈ generations') ∨
      (generations' = newGeneration r :: drainOthers r generations ∧
        ∀ g ∈ drainOthers r generations, g.fingerprint ≠ r.issuerFingerprint) := by
  unfold registerGeneration at h
  cases hfind : (drainOthers r generations).find? fun g => g.fingerprint = r.issuerFingerprint with
  | some g =>
    rw [hfind] at h
    rcases require_bind_eq_ok.mp h with ⟨hsame, h⟩
    cases h
    refine .inl ⟨rfl, ?_⟩
    rw [← of_decide_eq_true hsame]
    exact mem_of_find?_eq_some hfind
  | none =>
    rw [hfind] at h
    replace h := passed h
    cases h
    refine .inr ⟨rfl, ?_⟩
    intro g hg heq
    simpa [heq] using find?_eq_none.mp hfind g hg

end Drain

variable {certificates : List Certificate} {i : Identity} {r : CertificateRecord} {c : Certificate}
  {g : IssuerGeneration} {state : GenerationState}

theorem insertCertificate_ok {certificates' : List Certificate}
    (h : insertCertificate certificates i r = .ok certificates') :
    certificates' = certificates ∨ (certificates' = newCertificate i r :: certificates ∧
      ∀ c ∈ certificates, c.fingerprint ≠ r.fingerprint) := by
  unfold insertCertificate at h
  cases hfind : certificates.find? fun c => c.fingerprint = r.fingerprint with
  | some c =>
    rw [hfind] at h
    replace h := passed h
    cases h
    exact .inl rfl
  | none =>
    rw [hfind] at h
    replace h := passed h
    cases h
    refine .inr ⟨rfl, ?_⟩
    intro c hc heq
    simpa [heq] using find?_eq_none.mp hfind c hc

theorem registered {generations : List IssuerGeneration}
    (hg : registerGeneration t.generations r = .ok generations)
    (hc : insertCertificate t.certificates i r = .ok certificates)
    (hgenerations : t'.generations = generations) (hcertificates : t'.certificates = certificates) :
    Registered t t' i r := by
  subst hgenerations hcertificates
  have hcerts := insertCertificate_ok hc
  have hkeyed : Keyed IssuerGeneration.fingerprint t.generations →
      Keyed IssuerGeneration.fingerprint (drainOthers r t.generations) :=
    fun hk => hk.update fun _ => rfl
  rcases registerGeneration_ok hg with ⟨heq, hmem⟩ | ⟨heq, hfresh⟩
  · rw [heq] at hmem
    refine ⟨heq ▸ evolves_drainOthers, heq ▸ hkeyed, ?_, heq ▸ hmem, ?_, ?_, hcerts⟩
    all_goals rw [heq]
    · intro hk g hg hissuer hstate
      exact (hkeyed hk).eq hg hmem (drainOthers_active hg hissuer hstate)
    · exact fun g hg => drainOthers_other hg
    · exact fun g hg => drainOthers_revoked hg
  · refine ⟨heq ▸ evolves_drainOthers.cons rfl, heq ▸ fun hk => (hkeyed hk).cons hfresh, ?_,
      heq ▸ mem_cons_self, ?_, ?_, hcerts⟩
    all_goals rw [heq]
    · intro _ g hg hissuer hstate
      rcases mem_cons.mp hg with rfl | hg
      · rfl
      · exact absurd (drainOthers_active hg hissuer hstate) (hfresh g hg)
    · intro g hg hissuer
      rcases mem_cons.mp hg with rfl | hg
      · exact absurd rfl hissuer
      · exact drainOthers_other hg hissuer
    · intro g hg hrevoked
      rcases mem_cons.mp hg with rfl | hg
      · cases hrevoked
      · exact drainOthers_revoked hg hrevoked

/-- Everything a call can do to certificates and generations. -/
inductive IdentityChange (t t' : Tables) : Prop
  | kept (hc : t'.certificates = t.certificates) (hg : t'.generations = t.generations)
  | registered (i : Identity) (r : CertificateRecord) (h : Registered t t' i r)
  | revoked (p : Certificate → Bool)
      (hc : t'.certificates = update (fun c => p c && c.state = .active) Certificate.revoke
        t.certificates)
      (hg : t'.generations = t.generations)
  | issuerRevoked (fingerprint : String)
      (hc : t'.certificates = update (fun c => c.issuerFingerprint = fingerprint &&
        c.state = .active) Certificate.revoke t.certificates)
      (hg : t'.generations = update (fun g => g.fingerprint = fingerprint && g.state ≠ .revoked)
        ({ · with state := .revoked }) t.generations)

theorem identityChange (h : GatewayStep ext t op t') : IdentityChange t t' := by
  cases h with
  | certified i r generations certificates hg hc =>
    exact .registered i r (registered hg hc rfl rfl)
  | revoked op hop certificate => exact .revoked certificate rfl rfl
  | issuerRevoked fingerprint reason name => exact .issuerRevoked name rfl rfl
  | _ => exact .kept rfl rfl

/-! ## Along a run -/

structure IdentityInv (t : Tables) : Prop where
  certificates : Keyed Certificate.fingerprint t.certificates
  generations : Keyed IssuerGeneration.fingerprint t.generations
  single : ∀ g ∈ t.generations, ∀ g' ∈ t.generations, g.issuerId = g'.issuerId →
    g.state = .active → g'.state = .active → g = g'
  issued : ∀ c ∈ t.certificates, ∀ g ∈ t.generations, g.fingerprint = c.issuerFingerprint →
    g.state = .revoked → c.state = .revoked

theorem identityInv_empty : IdentityInv Tables.empty := by
  refine ⟨nodup_nil, nodup_nil, ?_, ?_⟩
  all_goals exact fun _ h => absurd h not_mem_nil

theorem certificateStep_revoke {p : Certificate → Bool} :
    Evolves CertificateStep (fun _ => False) certificates
      (update (fun c => p c && c.state = .active) Certificate.revoke certificates) :=
  evolves_update (fun _ => .inl rfl) fun _ _ _ => .inr rfl

theorem revoked_of_update {p : Certificate → Bool} (hc : c ∈ certificates) (hp : p c = true) :
    c.revoke ∈ update (fun c => p c && c.state = .active) Certificate.revoke certificates := by
  refine mem_update.mpr ⟨c, hc, ?_⟩
  by_cases hstate : c.state = .active
  · simp [hp, hstate]
  have hrevoked : c.state = .revoked := by
    cases hc : c.state with
    | active => exact absurd hc hstate
    | revoked => rfl
  simp [Certificate.revoke, ← hrevoked]

theorem IdentityInv.change (h : IdentityInv t) (hchange : IdentityChange t t') : IdentityInv t' := by
  cases hchange with
  | kept hc hg => exact ⟨hc ▸ h.certificates, hg ▸ h.generations, hg ▸ h.single, by
      rw [hc, hg]
      exact h.issued⟩
  | revoked p hc hg =>
    refine ⟨hc ▸ h.certificates.update fun _ => rfl, hg ▸ h.generations, hg ▸ h.single, ?_⟩
    rw [hc, hg]
    intro c' hc' g hg' hissuer hrevoked
    rcases certificateStep_revoke.prior c' hc' with ⟨c, hc, heq | heq⟩ | hnew
    · exact h.issued c' (heq ▸ hc) g hg' hissuer hrevoked
    · rw [heq]
      rfl
    · exact hnew.elim
  | issuerRevoked fingerprint hc hg =>
    refine ⟨hc ▸ h.certificates.update fun _ => rfl, hg ▸ h.generations.update fun _ => rfl, ?_, ?_⟩
    · -- an active generation has not been touched
      have hactive : ∀ g ∈ t'.generations, g.state = .active → g ∈ t.generations := by
        rw [hg]
        intro g hg hstate
        rcases mem_update_cases hg with ⟨k, hk, _, rfl⟩ | ⟨hg, _⟩
        · cases hstate
        · exact hg
      intro g hg g' hg' hissuer hstate hstate'
      exact h.single g (hactive g hg hstate) g' (hactive g' hg' hstate') hissuer hstate hstate'
    · rw [hc, hg]
      intro c' hc' g' hg' hissuer hrevoked
      rcases mem_update_cases hc' with ⟨c, hcm, _, rfl⟩ | ⟨hc', hp⟩
      · rfl
      rcases mem_update_cases hg' with ⟨g, hgm, hq, rfl⟩ | ⟨hg', _⟩
      · simp only [Bool.and_eq_true, decide_eq_true_eq] at hq
        have hname : c'.issuerFingerprint = fingerprint := hissuer.symm.trans hq.1
        cases hstate : c'.state with
        | active => simp [hname, hstate] at hp
        | revoked => rfl
      · exact h.issued c' hc' g' hg' hissuer hrevoked
  | registered i r hr =>
    have hkeyed' := hr.keyed h.generations
    refine ⟨?_, hkeyed', ?_, ?_⟩
    · rcases hr.certificates with hc | ⟨hc, hfresh⟩
      · exact hc ▸ h.certificates
      · exact hc ▸ h.certificates.cons hfresh
    · intro g hg g' hg' hissuer hstate hstate'
      by_cases hown : g.issuerId = r.issuerId
      · rw [hr.single h.generations g hg hown hstate,
          hr.single h.generations g' hg' (hissuer.symm.trans hown) hstate']
      · exact h.single g (hr.others g hg hown) g' (hr.others g' hg' (hissuer ▸ hown)) hissuer
          hstate hstate'
    · intro c hc g' hg' hissuer hrevoked
      -- the generation of a new certificate is the active one of the record
      have hold : c ∈ t.certificates ∨ c = newCertificate i r := by
        rcases hr.certificates with heq | ⟨heq, _⟩
        · exact .inl (heq ▸ hc)
        · rw [heq] at hc
          exact (mem_cons.mp hc).symm
      rcases hold with hold | rfl
      · exact h.issued c hold g' (hr.revoked g' hg' hrevoked) hissuer hrevoked
      · rw [hkeyed'.eq hg' hr.active hissuer] at hrevoked
        cases hrevoked

theorem IdentityInv.step (h : IdentityInv t) (op : GatewayOp) : IdentityInv (stepGateway ext t op) :=
  h.change (identityChange (stepGateway_step ext t op))

theorem identityInv_run (ext : Externals) (h : IdentityInv t) (ops : List GatewayOp) :
    IdentityInv (run (stepGateway ext) t ops) :=
  run_induction (fun _ op hs => hs.step op) h

theorem certificate_next (hc : c ∈ t.certificates) :
    ∃ c' ∈ (stepGateway ext t op).certificates, CertificateStep c c' := by
  cases identityChange (stepGateway_step ext t op) with
  | kept hcerts hg => exact ⟨c, hcerts ▸ hc, .inl rfl⟩
  | revoked p hcerts hg | issuerRevoked fingerprint hcerts hg =>
    rw [hcerts]
    exact certificateStep_revoke.next c hc
  | registered i r hr =>
    refine ⟨c, ?_, .inl rfl⟩
    rcases hr.certificates with heq | ⟨heq, _⟩
    · exact heq ▸ hc
    · exact heq ▸ mem_cons_of_mem _ hc

theorem generation_next (ext : Externals) (op : GatewayOp) (hg : g ∈ t.generations) :
    ∃ g' ∈ (stepGateway ext t op).generations, GenerationStep g g' := by
  cases identityChange (stepGateway_step ext t op) with
  | kept _ heq | revoked p _ heq => exact ⟨g, heq ▸ hg, generationStep_refl g⟩
  | registered i r hr => exact hr.generations.next g hg
  | issuerRevoked fingerprint _ heq =>
    have hgrow : Evolves GenerationStep (fun _ => False) t.generations
        (update (fun g => g.fingerprint = fingerprint && g.state ≠ .revoked)
          ({ · with state := .revoked }) t.generations) := by
      refine evolves_update generationStep_refl fun g _ _ => ⟨rfl, rfl, ?_⟩
      exact rank_le_revoked
    rw [heq]
    exact hgrow.next g hg

variable {ops : List GatewayOp} {p : PresentedCertificate}

theorem certificate_revoked_run (hc : c ∈ t.certificates)
    (hrevoked : c.state = .revoked) : c ∈ (run (stepGateway ext) t ops).certificates := by
  induction ops generalizing t with
  | nil => exact hc
  | cons op ops ih =>
    rcases certificate_next hc with ⟨c', hc', hstep⟩
    have heq : c' = c := by
      rcases hstep with heq | heq
      · exact heq
      · rw [heq, Certificate.revoke, ← hrevoked]
    exact ih (heq ▸ hc')

theorem generation_run (hg : g ∈ t.generations) :
    ∃ g' ∈ (run (stepGateway ext) t ops).generations, GenerationStep g g' := by
  induction ops generalizing t g with
  | nil => exact ⟨g, hg, generationStep_refl g⟩
  | cons op ops ih =>
    rcases generation_next ext op hg with ⟨k, hk, hstep⟩
    rcases ih hk with ⟨g', hg', hlater⟩
    exact ⟨g', hg', hlater.fingerprint.trans hstep.fingerprint,
      hlater.issuerId.trans hstep.issuerId, Nat.le_trans hstep.older hlater.older⟩

/-! ## Permanence -/

def Refuses (t : Tables) (p : PresentedCertificate) : Prop :=
  ∀ i now, ∃ e, authorizeWorkerCertificate t i p now = .error e

theorem refuses_of_not_accepted
    (h : ∀ i now, ∀ c ∈ t.certificates, certificateAccepted t i p now c ≠ true) : Refuses t p := by
  intro i now
  cases hauth : authorizeWorkerCertificate t i p now with
  | error e => exact ⟨e, rfl⟩
  | ok u =>
    replace hauth := passed hauth
    replace hauth := passed hauth
    replace hauth := passed hauth
    rcases any_eq_true.mp (require_eq_ok.mp hauth) with ⟨c, hc, haccepted⟩
    exact absurd haccepted (h i now c hc)

theorem IdentityInv.refuses (h : IdentityInv t) (hc : c ∈ t.certificates)
    (hrevoked : c.state = .revoked) (hp : p.fingerprint = c.fingerprint) :
    Refuses t p := by
  refine refuses_of_not_accepted ?_
  intro i now k hk haccepted
  simp only [certificateAccepted, Bool.and_eq_true, decide_eq_true_eq] at haccepted
  have hkc : k = c := h.certificates.eq hk hc (haccepted.1.1.1.1.1.1.1.1.1.1.trans hp)
  rw [hkc, hrevoked] at haccepted
  cases haccepted.1.1.1.1.2

def Affected (t : Tables) (c : Certificate) : GatewayOp → Prop
  | .revokeAttempt attempt _ => c.attempt = attempt
  | .revokeCertificate fingerprint _ => c.fingerprint = lowerCase (Decimal.trimSpace fingerprint)
  | .revokeIssuer fingerprint _ => c.issuerFingerprint = lowerCase (Decimal.trimSpace fingerprint)
  | .revokeSession i _ => c.workerId = i.workerId ∧
      ∃ s ∈ t.sessions, s.owned i = true ∧ s.state = .active
  | _ => False

theorem IdentityInv.revoked_of_affected (h : IdentityInv t) (hok : op.run ext t = .ok t')
    (hc : c ∈ t.certificates) (haffected : Affected t c op) :
    c.revoke ∈ t'.certificates := by
  cases op with
  | revokeAttempt attempt reason =>
    cases hok
    exact revoked_of_update hc (decide_eq_true haffected)
  | revokeSession i reason =>
    cases hok
    rcases haffected with ⟨hworker, s, hs, hown, hactive⟩
    unfold revokeWorkerSession
    rw [if_pos (any_eq_true.mpr ⟨s, hs, by simp [hown, hactive]⟩)]
    exact revoked_of_update hc (by simpa using hworker)
  | revokeCertificate fingerprint reason =>
    rcases revokeWorkloadCertificate_ok hok with ⟨d, hd, hfingerprint, rfl⟩
    have hdc : d = c := h.certificates.eq hd hc (hfingerprint.trans haffected.symm)
    exact revoked_of_update hc (by simp [hdc])
  | revokeIssuer fingerprint reason =>
    rcases revokeWorkloadIssuer_ok hok with rfl | ⟨rfl, g, hg, hname, hrevoked⟩
    · exact revoked_of_update hc (decide_eq_true haffected)
    have hstate := h.issued c hc g hg (hname.trans haffected.symm) hrevoked
    rw [Certificate.revoke, ← hstate]
    exact hc
  | _ => exact haffected.elim

/-- Revocation in a state: what a revocation reaches is refused whatever follows, also certificates
that name the issuer later; an issuer has one active generation at most, and no generation becomes
active again. -/
structure RevocationSound (ext : Externals) (t : Tables) : Prop where
  permanent : ∀ op t', op.run ext t = .ok t' → ∀ c ∈ t.certificates, Affected t c op →
    ∀ later p, p.fingerprint = c.fingerprint → Refuses (run (stepGateway ext) t' later) p
  issuer : ∀ g ∈ t.generations, g.state = .revoked → ∀ later,
    ∀ c ∈ (run (stepGateway ext) t later).certificates, c.issuerFingerprint = g.fingerprint →
      ∀ p, p.fingerprint = c.fingerprint → Refuses (run (stepGateway ext) t later) p
  single : ∀ g ∈ t.generations, ∀ g' ∈ t.generations, g.issuerId = g'.issuerId →
    g.state = .active → g'.state = .active → g = g'
  retired : ∀ g ∈ t.generations, g.state ≠ .active → ∀ later,
    ∀ g' ∈ (run (stepGateway ext) t later).generations, g'.fingerprint = g.fingerprint →
      g'.state ≠ .active ∧ (g.state = .revoked → g'.state = .revoked)

theorem rank_active (h : state ≠ .active) : 0 < state.rank := by
  cases state with
  | active => exact absurd rfl h
  | draining | revoked => decide

theorem revoked_of_rank (h : GenerationState.revoked.rank ≤ state.rank) : state = .revoked := by
  cases state with
  | revoked => rfl
  | active | draining => exact absurd h (by decide)

theorem IdentityInv.sound (h : IdentityInv t) : RevocationSound ext t := by
  -- the row that a generation has become is the only one with its fingerprint
  have hlater : ∀ g ∈ t.generations, ∀ later,
      ∀ g' ∈ (run (stepGateway ext) t later).generations, g'.fingerprint = g.fingerprint →
        g.state.rank ≤ g'.state.rank := by
    intro g hg later g' hg' hfingerprint
    rcases generation_run hg with ⟨k, hk, hstep⟩
    have hkeyed := (identityInv_run ext h later).generations
    rw [hkeyed.eq hg' hk (hfingerprint.trans hstep.fingerprint.symm)]
    exact hstep.older
  refine ⟨?_, ?_, h.single, ?_⟩
  · intro op t' hok c hc haffected later p hp
    have hrevoked := h.revoked_of_affected hok hc haffected
    have hinv := identityInv_run ext (h.change (identityChange (gatewayStep hok))) later
    exact hinv.refuses (certificate_revoked_run hrevoked rfl) rfl hp
  · intro g hg hrevoked later c hc hissuer p hp
    have hinv := identityInv_run ext h later
    rcases generation_run hg with ⟨g', hg', hstep⟩
    have hstate : g'.state = .revoked := revoked_of_rank (hrevoked ▸ hstep.older)
    have hcert := hinv.issued c hc g' hg' (hstep.fingerprint.trans hissuer.symm) hstate
    exact hinv.refuses hc hcert hp
  · intro g hg hstate later g' hg' hfingerprint
    have hrank := hlater g hg later g' hg' hfingerprint
    refine ⟨?_, fun hrevoked => revoked_of_rank (hrevoked ▸ hrank)⟩
    intro hactive
    have hpos := rank_active hstate
    rw [hactive] at hrank
    exact absurd hrank (Nat.not_le.mpr hpos)

/-- In every state that the gateway's calls reach, revocation is permanent. -/
theorem revocation_sound_of_run (ext : Externals) (ops : List GatewayOp) :
    RevocationSound ext (run (stepGateway ext) Tables.empty ops) :=
  (identityInv_run ext identityInv_empty ops).sound

def exampleRecord : CertificateRecord where
  fingerprint := String.ofList (List.replicate 64 'c')
  serial := "01"
  notBefore := 1000000
  notAfter := 9000000
  issuerId := "issuer-1"
  issuerProvider := "vault"
  issuerFingerprint := String.ofList (List.replicate 64 'd')
  issuerSubject := "workers"
  issuerSerial := "02"
  issuerNotBefore := 1000000
  issuerNotAfter := 9000000

/-- The worker's certificate is accepted until it is revoked, and not after its session has been
registered again. -/
example :
    let issued := run (stepGateway exampleExternals) Tables.empty
      [.registerSession exampleLedger exampleIdentity 3000000,
        .registerCertificate exampleIdentity exampleRecord]
    let revoked := run (stepGateway exampleExternals) issued
      [.revokeCertificate exampleRecord.fingerprint "key lost",
        .registerSession exampleLedger exampleIdentity 4000000]
    let accepts := fun t => (authorizeWorkerCertificate t exampleIdentity
      ⟨exampleRecord.fingerprint, "01"⟩ 5000000).isOk
    (accepts issued, accepts revoked, revoked.sessions.map Session.state) =
      (true, false, [.active]) := by
  decide +kernel

end PortageEngine.Gateway
