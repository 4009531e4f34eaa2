import PortageEngine.Gateway.Commands
import PortageEngine.Library.Evolution

/-!
# What the calls of the gateway do

`GatewayStep` says which table a call that succeeds changes, and how; there is one lemma for each
call.
-/

namespace PortageEngine.Gateway

open List Library Library.Rows
open Ledger

variable {ext : Externals} {t t' : Tables} {op : GatewayOp}

def GatewayOp.revokes : GatewayOp → Bool
  | .revokeSession _ _ | .revokeAttempt _ _ | .revokeCertificate _ _ | .revokeIssuer _ _ => true
  | _ => false

/-- Everything that a call can do to the tables. -/
inductive GatewayStep (ext : Externals) (t : Tables) : GatewayOp → Tables → Prop
  | nothing (op : GatewayOp) : GatewayStep ext t op t
  | sessionAdded (l : Ledger) (i : Identity) (now : Time)
      (hfresh : ∀ s ∈ t.sessions, s.workerId ≠ i.workerId) :
      GatewayStep ext t (.registerSession l i now) { t with sessions := newSession i :: t.sessions }
  | sessionActive (l : Ledger) (i : Identity) (now : Time) :
      GatewayStep ext t (.registerSession l i now) { t with
        sessions := update (fun s => s.workerId = i.workerId) ({ · with state := .active })
          t.sessions }
  | certified (i : Identity) (r : CertificateRecord) (generations : List IssuerGeneration)
      (certificates : List Certificate) (hg : registerGeneration t.generations r = .ok generations)
      (hc : insertCertificate t.certificates i r = .ok certificates) :
      GatewayStep ext t (.registerCertificate i r) { t with
        generations := generations
        certificates := certificates
        sessions := update (fun s => s.owned i && s.state = .active)
          ({ · with certificateFingerprint := some r.fingerprint }) t.sessions }
  | revoked (op : GatewayOp) (hop : op.revokes = true) (certificate : Certificate → Bool)
      (session : Session → Bool) (command : Command → Bool) (upload : Upload → Bool)
      (reason : String) :
      GatewayStep ext t op (t.revoke certificate session command upload reason)
  | issuerRevoked (fingerprint reason name : String) (session : Session → Bool)
      (command : Command → Bool) (upload : Upload → Bool) (text : String) :
      GatewayStep ext t (.revokeIssuer fingerprint reason)
        { t.revoke (fun c => c.issuerFingerprint = name) session command upload text with
          generations := update (fun g => g.fingerprint = name && g.state ≠ .revoked)
            ({ · with state := .revoked }) t.generations }
  | enqueued (l : Ledger) (i : Identity) (task : Task) (now : Time) (s : Session)
      (hs : s ∈ t.sessions) (request : Jsonb) (hfresh : ∀ c ∈ t.commands, c.id ≠ task.id) :
      GatewayStep ext t (.enqueueCommand l i task now)
        { t with commands := newCommand s task request :: t.commands }
  | requeued (l : Ledger) (i : Identity) (lease : Time) (candidate : CommandId) (now : Time) :
      GatewayStep ext t (.claimCommand l i lease candidate now)
        { t with commands := update (fun c => c.expired i now) Command.requeue t.commands }
  | delivered (l : Ledger) (i : Identity) (lease : Time) (candidate : CommandId) (now : Time)
      (c : Command) (hc : c ∈ update (fun c => c.expired i now) Command.requeue t.commands)
      (hqueued : c.state = .queued) :
      GatewayStep ext t (.claimCommand l i lease candidate now) { t with
        commands := update (fun k => k.id = c.id) (Command.deliver (now + lease))
          (update (fun c => c.expired i now) Command.requeue t.commands) }
  | finished (l : Ledger) (i : Identity) (k : Completion) (now : Time) (response : Option Jsonb)
      (hresponse : k.response ext.jsonb = .ok response) :
      GatewayStep ext t (.completeCommand l i k now) { t with
        commands := update (acceptsCompletion l t i k response now) (Command.finish k response)
          t.commands }
  | uploadAdded (i : Identity) (id : UploadId) (destination : String) (maxBytes : Nat) (s : Session)
      (hs : s ∈ t.sessions) (hfresh : ∀ u ∈ t.uploads, u.id ≠ id) :
      GatewayStep ext t (.prepareUpload i id destination maxBytes)
        { t with uploads := newUpload s id destination maxBytes :: t.uploads }
  | uploadClaimed (l : Ledger) (i : Identity) (id : UploadId) (lease now : Time) (u : Upload)
      (hu : u ∈ t.uploads) (hid : u.id = id) (hstate : u.state = .ready ∨ u.state = .uploading) :
      GatewayStep ext t (.claimUpload l i id lease now) { t with
        uploads := update (fun k => k.id = u.id) (Upload.receive (now + lease)) t.uploads }
  | uploadFinished (l : Ledger) (i : Identity) (id : UploadId) (fence : Nat) (digest : String)
      (size : Nat) (now : Time) :
      GatewayStep ext t (.completeUpload l i id fence digest size now) { t with
        uploads := update (acceptsUpload l t i id fence now)
          (Upload.finish (lowerCase (Decimal.trimSpace digest)) size) t.uploads }
  | uploadCanceled (i : Identity) (id : UploadId) (fence : Nat) (held : Upload → Bool)
      (hheld : ∀ u, held u = true → u.id = id ∧ u.state = .uploading ∧ u.fence = fence) :
      GatewayStep ext t (.cancelUpload i id fence)
        { t with uploads := update held Upload.cancel t.uploads }

section Calls

variable {l : Ledger} {i : Identity} {now : Time} {id : UploadId}

theorem registerWorkerSession_step (h : registerWorkerSession l t i now = .ok t') :
    GatewayStep ext t (.registerSession l i now) t' := by
  replace h := passed h
  replace h := passed h
  cases hfind : t.sessions.find? fun s => s.workerId = i.workerId with
  | none =>
    rw [hfind] at h
    replace h := passed h
    cases h
    refine .sessionAdded l i now ?_
    intro s hs heq
    simpa [heq] using find?_eq_none.mp hfind s hs
  | some s =>
    rw [hfind] at h
    replace h := passed h
    cases h
    exact .sessionActive l i now

theorem registerWorkerCertificate_step {r : CertificateRecord}
    (h : registerWorkerCertificate t i r = .ok t') :
    GatewayStep ext t (.registerCertificate i r) t' := by
  replace h := passed h
  replace h := passed h
  rcases bind_eq_ok.mp h with ⟨generations, hgenerations, h⟩
  replace h := passed h
  rcases bind_eq_ok.mp h with ⟨certificates, hcertificates, h⟩
  replace h := passed h
  replace h := passed h
  cases h
  exact .certified i r generations certificates hgenerations hcertificates

theorem enqueueWorkerCommand_step {task : Task}
    (h : enqueueWorkerCommand ext.jsonb l t i task now = .ok t') :
    GatewayStep ext t (.enqueueCommand l i task now) t' := by
  replace h := passed h
  cases hjson : ext.jsonb task.payload with
  | none =>
    rw [hjson] at h
    cases h
  | some request =>
    rw [hjson] at h
    cases hsession : t.sessions.find? fun s => s.owned i && s.state = .active &&
        leaseLive l s.attempt s.fence now with
    | none =>
      rw [hsession] at h
      cases h
    | some s =>
      rw [hsession] at h
      cases hcommand : t.commands.find? fun c => c.id = task.id with
      | none =>
        rw [hcommand] at h
        cases h
        refine .enqueued l i task now s (mem_of_find?_eq_some hsession) request ?_
        intro c hc heq
        simpa [heq] using find?_eq_none.mp hcommand c hc
      | some c =>
        rw [hcommand] at h
        replace h := passed h
        cases h
        exact .nothing _

theorem claimWorkerCommand_step {lease : Time} {candidate : CommandId} {task : Option Task}
    (h : claimWorkerCommand l t i lease candidate now = .ok (t', task)) :
    GatewayStep ext t (.claimCommand l i lease candidate now) t' := by
  replace h := passed h
  replace h := passed h
  dsimp only at h
  cases hfind : (update (fun c => c.expired i now) Command.requeue t.commands).find? fun c =>
      c.id = candidate && c.workerId = i.workerId && c.attempt = i.attemptId &&
        c.state = .queued with
  | none =>
    rw [hfind] at h
    cases h
    exact .requeued l i lease candidate now
  | some c =>
    rw [hfind] at h
    cases h
    have hqueued := find?_some hfind
    simp only [Bool.and_eq_true, decide_eq_true_eq] at hqueued
    exact .delivered l i lease candidate now c (mem_of_find?_eq_some hfind) hqueued.2

theorem completeWorkerCommand_step {k : Completion}
    (h : completeWorkerCommand ext.jsonb l t i k now = .ok t') :
    GatewayStep ext t (.completeCommand l i k now) t' := by
  replace h := passed h
  replace h := passed h
  rcases bind_eq_ok.mp h with ⟨response, hresponse, h⟩
  replace h := passed h
  cases h
  exact .finished l i k now response hresponse

theorem prepareWorkerUpload_step {normalized : String → Bool}
    {destination : String} {maxBytes : Nat}
    (h : prepareWorkerUpload normalized t i id destination maxBytes = .ok t') :
    GatewayStep ext t (.prepareUpload i id destination maxBytes) t' := by
  replace h := passed h
  replace h := passed h
  cases hsession : t.sessions.find? fun s => s.owned i && s.state = .active with
  | none =>
    rw [hsession] at h
    cases h
  | some s =>
    rw [hsession] at h
    cases hupload : t.uploads.find? fun u => u.id = id with
    | none =>
      rw [hupload] at h
      cases h
      refine .uploadAdded i id destination maxBytes s (mem_of_find?_eq_some hsession) ?_
      intro u hu heq
      simpa [heq] using find?_eq_none.mp hupload u hu
    | some u =>
      rw [hupload] at h
      replace h := passed h
      cases h
      exact .nothing _

/-- A claim hands out a completed upload as it is, or advances the fence of one that nobody holds. -/
theorem claimWorkerUpload_ok {lease : Time} {claim : UploadClaim}
    (h : claimWorkerUpload l t i id lease now = .ok (t', claim)) :
    ∃ u ∈ t.uploads, u.id = id ∧
      ((u.state = .completed ∧ t' = t ∧ claim = u.claim u.fence) ∨
        ((u.state = .ready ∨ u.state = .uploading) ∧
          t' = { t with
            uploads := update (fun k => k.id = u.id) (Upload.receive (now + lease)) t.uploads } ∧
          claim = { u.claim (u.fence + 1) with completed := false })) := by
  replace h := passed h
  replace h := passed h
  cases hfind : t.uploads.find? fun u => u.id = id && u.workerId = i.workerId && u.job = i.jobId &&
      u.attempt = i.attemptId with
  | none =>
    rw [hfind] at h
    cases h
  | some u =>
    rw [hfind] at h
    dsimp only at h
    have hid := find?_some hfind
    simp only [Bool.and_eq_true, decide_eq_true_eq] at hid
    refine ⟨u, mem_of_find?_eq_some hfind, hid.1.1.1, ?_⟩
    by_cases hdone : u.state = .completed
    · rw [if_pos hdone] at h
      cases h
      exact .inl ⟨hdone, rfl, rfl⟩
    rw [if_neg hdone] at h
    rcases require_bind_eq_ok.mp h with ⟨hfree, h⟩
    cases h
    refine .inr ⟨?_, rfl, rfl⟩
    simp only [Bool.and_eq_true, decide_eq_true_eq] at hfree
    cases hstate : u.state with
    | ready => exact .inl rfl
    | uploading => exact .inr rfl
    | completed => exact absurd hstate hdone
    | canceled => exact absurd hstate hfree.1

theorem completeWorkerUpload_ok {fence size : Nat} {digest : String}
    (h : completeWorkerUpload l t i id fence digest size now = .ok t') :
    t' = { t with
      uploads := update (acceptsUpload l t i id fence now)
        (Upload.finish (lowerCase (Decimal.trimSpace digest)) size) t.uploads } := by
  replace h := passed h
  replace h := passed h
  cases h
  rfl

theorem cancelWorkerUpload_step {fence : Nat} (h : cancelWorkerUpload t i id fence = .ok t') :
    GatewayStep ext t (.cancelUpload i id fence) t' := by
  replace h := passed h
  cases h
  refine .uploadCanceled i id fence _ ?_
  intro u hu
  simp only [Bool.and_eq_true, decide_eq_true_eq] at hu
  exact ⟨hu.1.1.1.1.1.1, hu.1.1.2, hu.1.2⟩

end Calls

variable {fingerprint reason : String}

theorem revokeWorkloadCertificate_ok
    (h : revokeWorkloadCertificate t fingerprint reason = .ok t') :
    ∃ c ∈ t.certificates, c.fingerprint = lowerCase (Decimal.trimSpace fingerprint) ∧
      t' = revokeWorkerGatewayAttempt t c.attempt (Decimal.trimSpace reason) := by
  replace h := passed h
  replace h := passed h
  cases hfind : t.certificates.find? fun c =>
      c.fingerprint = lowerCase (Decimal.trimSpace fingerprint) with
  | none =>
    rw [hfind] at h
    cases h
  | some c =>
    rw [hfind] at h
    cases h
    have hfingerprint := find?_some hfind
    exact ⟨c, mem_of_find?_eq_some hfind, of_decide_eq_true hfingerprint, rfl⟩

theorem revokeWorkloadIssuer_ok
    (h : revokeWorkloadIssuer t fingerprint reason = .ok t') :
    let name := lowerCase (Decimal.trimSpace fingerprint)
    (t' = { t.revoke (fun c => c.issuerFingerprint = name)
          (fun s => issuedBy t name fun c => s.certificateFingerprint = some c.fingerprint)
          (fun k => issuedBy t name fun c => k.workerId = c.workerId)
          (fun u => issuedBy t name fun c => u.workerId = c.workerId)
          (Decimal.trimSpace reason) with
        generations := update (fun g => g.fingerprint = name && g.state ≠ .revoked)
          ({ · with state := .revoked }) t.generations }) ∨
      (t' = t ∧ ∃ g ∈ t.generations, g.fingerprint = name ∧ g.state = .revoked) := by
  replace h := passed h
  replace h := passed h
  generalize lowerCase (Decimal.trimSpace fingerprint) = name at h ⊢
  by_cases hopen : (t.generations.any fun g => g.fingerprint = name && g.state ≠ .revoked) = true
  · rw [if_pos hopen] at h
    cases h
    exact .inl rfl
  rw [if_neg hopen] at h
  rcases require_bind_eq_ok.mp h with ⟨hexists, h⟩
  cases h
  refine .inr ⟨rfl, ?_⟩
  simp only [any_eq_true, decide_eq_true_eq] at hexists
  rcases hexists with ⟨g, hg, hname⟩
  refine ⟨g, hg, hname, ?_⟩
  by_contra hstate
  refine hopen (any_eq_true.mpr ⟨g, hg, ?_⟩)
  simp [hname, hstate]

/-! ## All calls together -/

theorem gatewayStep (h : op.run ext t = .ok t') : GatewayStep ext t op t' := by
  cases op with
  | registerSession l i now => exact registerWorkerSession_step h
  | registerCertificate i r => exact registerWorkerCertificate_step h
  | revokeAttempt attempt reason =>
    cases h
    exact .revoked _ rfl _ _ _ _ _
  | revokeSession i reason =>
    cases h
    unfold revokeWorkerSession
    by_cases hactive : (t.sessions.any fun s => s.owned i && s.state = .active) = true
    · rw [if_pos hactive]
      exact .revoked _ rfl _ _ _ _ _
    · rw [if_neg hactive]
      exact .nothing _
  | revokeCertificate fingerprint reason =>
    rcases revokeWorkloadCertificate_ok h with ⟨c, _, _, rfl⟩
    exact .revoked _ rfl _ _ _ _ _
  | revokeIssuer fingerprint reason =>
    rcases revokeWorkloadIssuer_ok h with rfl | ⟨rfl, _⟩
    · exact .issuerRevoked fingerprint reason _ _ _ _ _
    · exact .nothing _
  | enqueueCommand l i task now => exact enqueueWorkerCommand_step h
  | claimCommand l i lease candidate now =>
    rcases map_eq_ok.mp h with ⟨⟨t₁, task⟩, hok, rfl⟩
    exact claimWorkerCommand_step hok
  | completeCommand l i k now => exact completeWorkerCommand_step h
  | prepareUpload i id destination maxBytes => exact prepareWorkerUpload_step h
  | claimUpload l i id lease now =>
    rcases map_eq_ok.mp h with ⟨⟨t₁, claim⟩, hok, rfl⟩
    rcases claimWorkerUpload_ok hok with ⟨u, hu, hid, ⟨_, rfl, _⟩ | ⟨hstate, rfl, _⟩⟩
    · exact .nothing _
    · exact .uploadClaimed l i id lease now u hu hid hstate
  | completeUpload l i id fence digest size now =>
    rw [completeWorkerUpload_ok h]
    exact .uploadFinished l i id fence digest size now
  | cancelUpload i id fence => exact cancelWorkerUpload_step h

theorem stepGateway_step (ext : Externals) (t : Tables) (op : GatewayOp) :
    GatewayStep ext t op (stepGateway ext t op) := by
  unfold stepGateway
  cases h : op.run ext t with
  | error e => exact .nothing op
  | ok t' => exact gatewayStep h

end PortageEngine.Gateway
