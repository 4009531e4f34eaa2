import PortageEngine.Iam.Sessions

/-!
# Logouts are final

After a back-channel logout no token that it covers is accepted, as long as three things hold: a token
of a provider session that has been logged out is presented only if it has been seen before the
logout, no token that a logout covers is exchanged, and the subject of a logout is known.  The logout
of a provider session revokes the sessions that exist and leaves nothing behind that a later
presentation would be checked against, and the exchange dates the new session to its own time, past
every watermark.
-/

namespace PortageEngine.Iam

open List Library Library.Rows Library.Runs
open Ledger

/-! ## The property and the conditions -/

/-- The later event is not the acceptance of a token that the earlier event has logged out. -/
def Event.respects : Event → Event → Bool
  | .accepted i, .loggedOut l => !l.covers i
  | _, _ => true

/-- No token is accepted after a logout that covers it. -/
def LogoutsFinal (s : Store) : Prop :=
  s.history.Pairwise fun later earlier => later.respects earlier = true

def Conforms (claims : String → Identity) (s : Store) : Op → Prop
  | .present hash _ _ _ _ => ∀ l ∈ s.logouts, l.providerSessionId ≠ "" → l.covers (claims hash) = true →
      ∃ x ∈ s.sessions, x.tokenHash = .provider hash
  | .exchange hash _ _ _ _ now => ∀ l ∈ s.logouts, l.covers (claims hash) = true →
      (claims hash).expiresAt ≤ now
  | .presentPlatform _ _ _ => True
  | .logout l => l.providerSessionId = "" →
      ∃ x ∈ s.subjects, x.issuer = l.issuer ∧ x.subject = l.subject

instance (claims : String → Identity) (s : Store) : ∀ op, Decidable (Conforms claims s op)
  | .present _ _ _ _ _ | .exchange _ _ _ _ _ _ =>
    inferInstanceAs (Decidable (∀ l ∈ s.logouts, _))
  | .presentPlatform _ _ _ => inferInstanceAs (Decidable True)
  | .logout _ => inferInstanceAs (Decidable (_ → _))

/-! ## The invariant -/

def Subject.name (x : Subject) : String × String :=
  (x.issuer, x.subject)

/-- The session is the record of the provider token. -/
def Session.records (x : Session) (subjects : List Subject) (i : Identity) : Prop :=
  x.providerSessionId = i.providerSessionId ∧
    ∃ y ∈ subjects, y.id = x.subject ∧ y.name = (i.issuer, i.subject)

/-- The logout of a subject has left a watermark. -/
def Watermarked (s : Store) (l : LogoutIdentity) : Prop :=
  ∃ y ∈ s.subjects, y.name = (l.issuer, l.subject) ∧
    ∃ w ∈ s.security, w.subject = y.id ∧ l.issuedAt ≤ w.tokensValidAfter

structure LogoutInv (claims : String → Identity) (s : Store) : Prop where
  subjects : Keyed Subject.id s.subjects
  names : Keyed Subject.name s.subjects
  security : Keyed SubjectSecurity.subject s.security
  hashes : Keyed Session.tokenHash s.sessions
  faithful : ∀ x ∈ s.sessions, ∀ h, x.tokenHash = .provider h → x.records s.subjects (claims h)
  ended : ∀ l ∈ s.logouts, l.providerSessionId ≠ "" → ∀ x ∈ s.sessions, ∀ h,
    x.tokenHash = .provider h → l.covers (claims h) = true → x.revoked = true
  watermarked : ∀ l ∈ s.logouts, l.providerSessionId = "" → Watermarked s l
  recorded : ∀ l, .loggedOut l ∈ s.history → l ∈ s.logouts
  final : LogoutsFinal s

theorem logoutInv_empty {claims : String → Identity} : LogoutInv claims Store.empty where
  subjects := nodup_nil
  names := nodup_nil
  security := nodup_nil
  hashes := nodup_nil
  faithful _ hx := absurd hx not_mem_nil
  ended _ hl := absurd hl not_mem_nil
  watermarked _ hl := absurd hl not_mem_nil
  recorded _ hl := absurd hl not_mem_nil
  final := List.Pairwise.nil

variable {claims : String → Identity} {s s' : Store} {i : Identity} {subject : SubjectId}

/-! ## Observing a subject -/

theorem Session.records.mono {x : Session} {subjects subjects' : List Subject}
    (h : x.records subjects i) (hsub : ∀ y ∈ subjects, y ∈ subjects') : x.records subjects' i := by
  rcases h with ⟨hsid, y, hy, hrest⟩
  exact ⟨hsid, y, hsub y hy, hrest⟩

variable {fresh : SubjectId}

theorem observeSubject_ok (h : observeSubject s i fresh = .ok (s', subject)) :
    (∃ y ∈ s'.subjects, y.id = subject ∧ y.name = (i.issuer, i.subject)) ∧
      (s' = s ∨ (s' = { s with subjects := ⟨fresh, i.issuer, i.subject⟩ :: s.subjects } ∧
        (∀ x ∈ s.subjects, x.id ≠ fresh) ∧ ∀ x ∈ s.subjects, x.name ≠ (i.issuer, i.subject))) := by
  unfold observeSubject at h
  cases hfind : s.subjects.find? fun x => x.issuer = i.issuer && x.subject = i.subject with
  | some x =>
    rw [hfind] at h
    cases h
    have hname := find?_some hfind
    simp only [Bool.and_eq_true, decide_eq_true_eq] at hname
    exact ⟨⟨x, mem_of_find?_eq_some hfind, rfl, by rw [Subject.name, hname.1, hname.2]⟩, .inl rfl⟩
  | none =>
    rw [hfind] at h
    rcases require_bind_eq_ok.mp h with ⟨hfresh, h⟩
    cases h
    refine ⟨⟨_, mem_cons_self, rfl, rfl⟩, .inr ⟨rfl, ?_, ?_⟩⟩
    · simpa using hfresh
    · intro x hx hname
      have hnone := find?_eq_none.mp hfind x hx
      simp only [Subject.name, Prod.mk.injEq] at hname
      simp [hname.1, hname.2] at hnone

theorem LogoutInv.observe (hinv : LogoutInv claims s)
    (h : observeSubject s i fresh = .ok (s', subject)) :
    LogoutInv claims s' ∧ s'.sessions = s.sessions ∧ s'.logouts = s.logouts ∧
      s'.history = s.history := by
  rcases (observeSubject_ok h).2 with rfl | ⟨rfl, hid, hname⟩
  · exact ⟨hinv, rfl, rfl, rfl⟩
  refine ⟨?_, rfl, rfl, rfl⟩
  exact {
    hinv with
    subjects := hinv.subjects.cons hid
    names := hinv.names.cons hname
    faithful := fun x hx k hk => (hinv.faithful x hx k hk).mono fun y hy => mem_cons_of_mem _ hy
    watermarked := by
      intro l hl hsid
      rcases hinv.watermarked l hl hsid with ⟨y, hy, hrest⟩
      exact ⟨y, mem_cons_of_mem _ hy, hrest⟩ }

/-! ## Authorizing a session -/

theorem ensureSecurity_spec (subject : SubjectId) (hkeyed : Keyed SubjectSecurity.subject s.security) :
    ∃ security, (ensureSecurity s subject).1 = { s with security := security } ∧
      Keyed SubjectSecurity.subject security ∧ (∀ w ∈ s.security, w ∈ security) ∧
      ∀ w ∈ s.security, w.subject = subject → (ensureSecurity s subject).2 = w.tokensValidAfter := by
  unfold ensureSecurity
  cases hfind : s.security.find? fun x => x.subject = subject with
  | some x =>
    refine ⟨s.security, rfl, hkeyed, fun _ hw => hw, ?_⟩
    intro w hw hsubject
    have hx := find?_some hfind
    rw [hkeyed.eq hw (mem_of_find?_eq_some hfind)
      (hsubject.trans (of_decide_eq_true hx).symm)]
  | none =>
    have hnone : ∀ w ∈ s.security, w.subject ≠ subject := by
      intro w hw
      simpa using find?_eq_none.mp hfind w hw
    refine ⟨_, rfl, hkeyed.cons hnone, fun _ hw => mem_cons_of_mem _ hw, ?_⟩
    exact fun w hw hsubject => absurd hsubject (hnone w hw)

variable {policy : SessionPolicy} {now : Time} {freshSubject : SubjectId} {freshSession : SessionId}
  {l : LogoutIdentity} {fresh : SessionId} {hash : TokenHash}

theorem authorizeSession_ok (h : authorizeSession s subject hash i policy fresh now = .ok s') :
    (ensureSecurity s subject).2 < i.issuedAt ∧
      (((∀ x ∈ (ensureSecurity s subject).1.sessions, x.tokenHash ≠ hash) ∧
          s' = { (ensureSecurity s subject).1 with
            sessions := newSession fresh subject hash i now ::
              (ensureSecurity s subject).1.sessions }) ∨
        ∃ x ∈ (ensureSecurity s subject).1.sessions, x.tokenHash = hash ∧ x.revoked = false ∧
          s' = { (ensureSecurity s subject).1 with
            sessions := update (fun x => x.tokenHash = hash) ({ · with lastSeenAt := now })
              (ensureSecurity s subject).1.sessions }) := by
  replace h := passed h
  replace h := passed h
  rcases hs : ensureSecurity s subject with ⟨s₁, validAfter⟩
  rw [hs] at h
  rcases require_bind_eq_ok.mp h with ⟨hafter, h⟩
  replace h := passed h
  refine ⟨of_decide_eq_true hafter, ?_⟩
  cases hfind : s₁.sessions.find? fun x => x.tokenHash = hash with
  | none =>
    rw [hfind] at h
    replace h := passed h
    cases h
    refine .inl ⟨?_, rfl⟩
    intro x hx
    simpa using find?_eq_none.mp hfind x hx
  | some x =>
    rw [hfind] at h
    rcases require_bind_eq_ok.mp h with ⟨hrefreshes, h⟩
    cases h
    have hx := find?_some hfind
    simp only [Session.refreshes, Session.live, Bool.and_eq_true, Bool.not_eq_true'] at hrefreshes
    exact .inr ⟨x, mem_of_find?_eq_some hfind, of_decide_eq_true hx, hrefreshes.2.1.1.1, rfl⟩

theorem LogoutInv.rewrite (hinv : LogoutInv claims s) (p : Session → Bool) {f : Session → Session}
    (hf : ∀ x, (f x).tokenHash = x.tokenHash ∧ (x.revoked = true → (f x).revoked = true) ∧
      (f x).subject = x.subject ∧ (f x).providerSessionId = x.providerSessionId) :
    LogoutInv claims { s with sessions := update p f s.sessions } := by
  have hrow : ∀ x ∈ update p f s.sessions, ∃ y ∈ s.sessions, x.tokenHash = y.tokenHash ∧
      (y.revoked = true → x.revoked = true) ∧ x.subject = y.subject ∧
        x.providerSessionId = y.providerSessionId := by
    intro x hx
    rcases mem_update_cases hx with ⟨y, hy, _, rfl⟩ | ⟨hx, _⟩
    · exact ⟨y, hy, hf y⟩
    · exact ⟨x, hx, rfl, id, rfl, rfl⟩
  exact {
    hinv with
    hashes := hinv.hashes.update fun x => (hf x).1
    faithful := by
      intro x hx k hk
      rcases hrow x hx with ⟨y, hy, hhash, _, hsubject, hsid⟩
      have hrecords := hinv.faithful y hy k (hhash.symm.trans hk)
      exact ⟨hsid.trans hrecords.1, hsubject ▸ hrecords.2⟩
    ended := by
      intro l hl hsid x hx k hk hcovers
      rcases hrow x hx with ⟨y, hy, hhash, hrevoked, _⟩
      exact hrevoked (hinv.ended l hl hsid y hy k (hhash.symm.trans hk) hcovers) }

theorem LogoutInv.ensure (hinv : LogoutInv claims s) (subject : SubjectId) :
    LogoutInv claims (ensureSecurity s subject).1 := by
  rcases ensureSecurity_spec subject hinv.security with ⟨security, heq, hkeyed, hmem, _⟩
  rw [heq]
  exact {
    hinv with
    security := hkeyed
    watermarked := by
      intro l hl hsid
      rcases hinv.watermarked l hl hsid with ⟨y, hy, hname, w, hw, hrest⟩
      exact ⟨y, hy, hname, w, hmem w hw, hrest⟩ }

/-- A new session of a provider token needs that no provider session of it has been logged out. -/
theorem LogoutInv.insert (hinv : LogoutInv claims s)
    (hsubject : ∃ y ∈ s.subjects, y.id = subject ∧ y.name = (i.issuer, i.subject))
    (hhash : ∀ x ∈ s.sessions, x.tokenHash ≠ hash) (hnew : ∀ h, hash = .provider h → i = claims h ∧
      ∀ l ∈ s.logouts, l.providerSessionId ≠ "" → l.covers i = false) :
    LogoutInv claims { s with sessions := newSession fresh subject hash i now :: s.sessions } :=
  { hinv with
    hashes := hinv.hashes.cons hhash
    faithful := by
      intro x hx k hk
      rcases mem_cons.mp hx with rfl | hx
      · rcases hnew k hk with ⟨rfl, _⟩
        exact ⟨rfl, hsubject⟩
      · exact hinv.faithful x hx k hk
    ended := by
      intro l hl hsid x hx k hk hcovers
      rcases mem_cons.mp hx with rfl | hx
      · rcases hnew k hk with ⟨rfl, hfree⟩
        rw [hfree l hl hsid] at hcovers
        cases hcovers
      · exact hinv.ended l hl hsid x hx k hk hcovers }

/-- The sessions of a provider token after a logout: if the token is covered it has one, and that is
revoked. -/
theorem LogoutInv.authorize (hinv : LogoutInv claims s)
    (hsubject : ∃ y ∈ s.subjects, y.id = subject ∧ y.name = (i.issuer, i.subject))
    (hnew : ∀ h, hash = .provider h → i = claims h ∧ ∀ l ∈ s.logouts, l.providerSessionId ≠ "" →
      l.covers i = true → ∃ x ∈ s.sessions, x.tokenHash = hash)
    (h : authorizeSession s subject hash i policy fresh now = .ok s') :
    LogoutInv claims s' ∧ s'.logouts = s.logouts ∧ s'.history = s.history ∧
      ∀ h, hash = .provider h → ∀ l ∈ s.logouts, l.covers (claims h) = false := by
  rcases ensureSecurity_spec subject hinv.security with ⟨security, heq, _, _, hvalid⟩
  have hensured := hinv.ensure subject
  rcases authorizeSession_ok h with ⟨hafter, hrows⟩
  rw [heq] at hrows hensured
  -- a subject's logout is kept by the watermark
  have hwatermark : ∀ l ∈ s.logouts, l.providerSessionId = "" → l.covers i = false := by
    intro l hl hsid
    by_contra hcovers
    simp only [LogoutIdentity.covers, hsid, ne_eq, not_true_eq_false, if_false, Bool.not_eq_false,
      Bool.and_eq_true, decide_eq_true_eq] at hcovers
    rcases hinv.watermarked l hl hsid with ⟨y, hy, hname, w, hw, hwsubject, hle⟩
    rcases hsubject with ⟨z, hz, hzid, hzname⟩
    have hyz : y = z := by
      refine hinv.names.eq hy hz ?_
      rw [hname, hzname, hcovers.1, hcovers.2.1]
    have hw' := hvalid w hw (by rw [hwsubject, hyz, hzid])
    have hlt : w.tokensValidAfter < i.issuedAt := hw' ▸ hafter
    exact absurd (Nat.lt_of_lt_of_le hlt (Nat.le_trans hcovers.2.2 hle)) (Nat.lt_irrefl _)
  rcases hrows with ⟨hhash, rfl⟩ | ⟨x, hx, hxhash, hxlive, rfl⟩
  · have hfree : ∀ h, hash = .provider h → ∀ l ∈ s.logouts, l.covers (claims h) = false := by
      intro k hk l hl
      rcases hnew k hk with ⟨rfl, hseen⟩
      by_cases hsid : l.providerSessionId = ""
      · exact hwatermark l hl hsid
      by_contra hcovers
      rcases hseen l hl hsid (by simpa using hcovers) with ⟨x, hx, hxhash⟩
      exact hhash x hx hxhash
    refine ⟨hensured.insert hsubject hhash ?_, rfl, rfl, hfree⟩
    intro k hk
    refine ⟨(hnew k hk).1, fun l hl _ => ?_⟩
    rw [(hnew k hk).1]
    exact hfree k hk l hl
  · refine ⟨hensured.rewrite _ fun _ => ⟨rfl, id, rfl, rfl⟩, rfl, rfl, ?_⟩
    intro k hk l hl
    by_cases hsid : l.providerSessionId = ""
    · rw [← (hnew k hk).1]
      exact hwatermark l hl hsid
    by_contra hcovers
    have hrevoked := hinv.ended l hl hsid x hx k (hxhash.trans hk) (by simpa using hcovers)
    rw [hxlive] at hrevoked
    cases hrevoked

theorem LogoutInv.accept (hinv : LogoutInv claims s) (hfree : ∀ l ∈ s.logouts, l.covers i = false) :
    LogoutInv claims { s with history := .accepted i :: s.history } :=
  { hinv with
    recorded := by
      intro l hl
      rcases mem_cons.mp hl with hl | hl
      · cases hl
      · exact hinv.recorded l hl
    final := by
      refine pairwise_cons.mpr ⟨?_, hinv.final⟩
      intro e he
      cases e with
      | accepted j => rfl
      | loggedOut l => simp [Event.respects, hfree l (hinv.recorded l he)] }

/-! ## The calls -/

theorem LogoutInv.present {hash : String} (hinv : LogoutInv claims s)
    (hseen : ∀ l ∈ s.logouts, l.providerSessionId ≠ "" → l.covers (claims hash) = true →
      ∃ x ∈ s.sessions, x.tokenHash = .provider hash) :
    LogoutInv claims
      (presentToken s hash (claims hash) policy freshSubject freshSession now) := by
  unfold presentToken
  cases hobserve : observeSubject s (claims hash) freshSubject with
  | error e => exact hinv
  | ok observed =>
    rcases observed with ⟨s₁, subject⟩
    rcases hinv.observe hobserve with ⟨hinv₁, hsessions, hlogouts, _⟩
    dsimp only
    cases hauthorize : authorizeSession s₁ subject (.provider hash) (claims hash) policy freshSession
        now with
    | error e => exact hinv₁
    | ok s₂ =>
      have hnew : ∀ h, TokenHash.provider hash = .provider h → claims hash = claims h ∧
          ∀ l ∈ s₁.logouts, l.providerSessionId ≠ "" → l.covers (claims hash) = true →
            ∃ x ∈ s₁.sessions, x.tokenHash = .provider hash := by
        rintro h ⟨⟩
        rw [hlogouts, hsessions]
        exact ⟨rfl, hseen⟩
      rcases hinv₁.authorize (observeSubject_ok hobserve).1 hnew hauthorize with
        ⟨hinv₂, hlogouts₂, _, hfree⟩
      refine hinv₂.accept ?_
      rw [hlogouts₂]
      exact hfree hash rfl

theorem LogoutInv.exchange {platformHash : String} (hinv : LogoutInv claims s)
    (hexpired : ∀ l ∈ s.logouts, l.covers i = true → i.expiresAt ≤ now) :
    LogoutInv claims (exchangeToken s i policy platformHash freshSubject freshSession now) := by
  unfold exchangeToken
  by_cases hend : (i.exchanged policy now).expiresAt ≤ now
  · rw [if_pos hend]
    exact hinv
  rw [if_neg hend]
  have hfree : ∀ l ∈ s.logouts, l.covers i = false := by
    intro l hl
    by_contra hcovers
    have hle := hexpired l hl (by simpa using hcovers)
    exact hend (Nat.le_trans (Nat.min_le_left _ _) hle)
  cases hobserve : observeSubject s i freshSubject with
  | error e => exact hinv
  | ok observed =>
    rcases observed with ⟨s₁, subject⟩
    rcases hinv.observe hobserve with ⟨hinv₁, _, hlogouts, _⟩
    dsimp only
    cases hauthorize : authorizeSession s₁ subject (.platform platformHash)
        (i.exchanged policy now) policy freshSession now with
    | error e => exact hinv₁
    | ok s₂ =>
      have hsubject : ∃ y ∈ s₁.subjects, y.id = subject ∧
          y.name = ((i.exchanged policy now).issuer, (i.exchanged policy now).subject) :=
        (observeSubject_ok hobserve).1
      rcases hinv₁.authorize hsubject (fun _ hk => by cases hk) hauthorize with
        ⟨hinv₂, hlogouts₂, _, _⟩
      refine hinv₂.accept ?_
      rw [hlogouts₂, hlogouts]
      exact hfree

theorem LogoutInv.revoke (hinv : LogoutInv claims s) (p : Session → Bool) :
    LogoutInv claims { s with sessions := update p ({ · with revoked := true }) s.sessions } :=
  hinv.rewrite p fun _ => ⟨rfl, fun _ => rfl, rfl, rfl⟩

theorem LogoutInv.record (hinv : LogoutInv claims s)
    (hended : l.providerSessionId ≠ "" → ∀ x ∈ s.sessions, ∀ h, x.tokenHash = .provider h →
      l.covers (claims h) = true → x.revoked = true)
    (hwatermarked : l.providerSessionId = "" → Watermarked s l) :
    LogoutInv claims { s with logouts := l :: s.logouts, history := .loggedOut l :: s.history } :=
  { hinv with
    ended := by
      intro e he hsid
      rcases mem_cons.mp he with rfl | he
      · exact hended hsid
      · exact hinv.ended e he hsid
    watermarked := by
      intro e he hsid
      rcases mem_cons.mp he with rfl | he
      · exact hwatermarked hsid
      · exact hinv.watermarked e he hsid
    recorded := by
      intro e he
      rcases mem_cons.mp he with he | he
      · cases he
        exact mem_cons_self
      · exact mem_cons_of_mem _ (hinv.recorded e he)
    final := pairwise_cons.mpr ⟨fun _ _ => rfl, hinv.final⟩ }

theorem truncSecond_mul (n : Nat) : truncSecond (n * microsPerSecond) = n * microsPerSecond := by
  simp [truncSecond, microsPerSecond]

/-- The watermark of the subject is at least the given time, and nothing else has changed. -/
theorem raiseWatermark_spec {security : List SubjectSecurity} (subject : SubjectId) (t : Time)
    (hkeyed : Keyed SubjectSecurity.subject security) :
    Keyed SubjectSecurity.subject (raiseWatermark security subject t) ∧
      (∃ w ∈ raiseWatermark security subject t, w.subject = subject ∧ t ≤ w.tokensValidAfter) ∧
      ∀ w ∈ security, ∃ w' ∈ raiseWatermark security subject t, w'.subject = w.subject ∧
        w.tokensValidAfter ≤ w'.tokensValidAfter := by
  unfold raiseWatermark
  by_cases hany : (security.any fun x => x.subject = subject) = true
  · rw [if_pos hany]
    refine ⟨hkeyed.update fun _ => rfl, ?_, ?_⟩
    · rcases any_eq_true.mp hany with ⟨w, hw, hsubject⟩
      refine ⟨_, mem_update.mpr ⟨w, hw, rfl⟩, ?_⟩
      rw [if_pos hsubject]
      exact ⟨of_decide_eq_true hsubject, Nat.le_max_right _ _⟩
    · intro w hw
      refine ⟨_, mem_update.mpr ⟨w, hw, rfl⟩, ?_⟩
      by_cases hsubject : w.subject = subject
      · rw [if_pos (decide_eq_true hsubject)]
        exact ⟨rfl, Nat.le_max_left _ _⟩
      · rw [if_neg (by simpa using hsubject)]
        exact ⟨rfl, Nat.le_refl _⟩
  · rw [if_neg hany]
    have hnone : ∀ w ∈ security, w.subject ≠ subject := by simpa using hany
    refine ⟨hkeyed.cons hnone, ⟨_, mem_cons_self, rfl, Nat.le_refl _⟩, ?_⟩
    exact fun w hw => ⟨w, mem_cons_of_mem _ hw, rfl, Nat.le_refl _⟩

theorem LogoutInv.raise (hinv : LogoutInv claims s) (subject : SubjectId) (t : Time) :
    LogoutInv claims { s with security := raiseWatermark s.security subject t } := by
  rcases raiseWatermark_spec subject t hinv.security with ⟨hkeyed, _, hkept⟩
  exact {
    hinv with
    security := hkeyed
    watermarked := by
      intro l hl hsid
      rcases hinv.watermarked l hl hsid with ⟨y, hy, hname, w, hw, hsubject, hle⟩
      rcases hkept w hw with ⟨w', hw', hsubject', hle'⟩
      exact ⟨y, hy, hname, w', hw', hsubject'.trans hsubject, Nat.le_trans hle hle'⟩ }

theorem LogoutInv.logout (hinv : LogoutInv claims s) (hknown : l.providerSessionId = "" →
      ∃ x ∈ s.subjects, x.issuer = l.issuer ∧ x.subject = l.subject) :
    LogoutInv claims (applyBackchannelLogout s l) := by
  unfold applyBackchannelLogout
  by_cases hskip : (!l.complete || s.logouts.any fun e => e.key = l.key) = true
  · rw [if_pos hskip]
    exact hinv
  rw [if_neg hskip]
  by_cases hsid : l.providerSessionId = ""
  · rw [if_neg (by simpa using hsid)]
    rcases hknown hsid with ⟨x, hx, hissuer, hname⟩
    cases hfind : s.subjects.find? fun x => x.issuer = l.issuer && x.subject = l.subject with
    | none =>
      have hnone := find?_eq_none.mp hfind x hx
      simp [hissuer, hname] at hnone
    | some y =>
      have hy := find?_some hfind
      simp only [Bool.and_eq_true, decide_eq_true_eq] at hy
      have hraised := (hinv.raise y.id (truncSecond l.issuedAt)).revoke
        fun z => decide (z.subject = y.id) && !z.revoked
      refine hraised.record (fun h => absurd hsid h) fun _ => ?_
      rcases (raiseWatermark_spec y.id (truncSecond l.issuedAt) hinv.security).2.1 with
        ⟨w, hw, hsubject, hle⟩
      rw [LogoutIdentity.issuedAt, truncSecond_mul] at hle
      exact ⟨y, mem_of_find?_eq_some hfind, by rw [Subject.name, hy.1, hy.2], w, hw, hsubject,
        hle⟩
  · rw [if_pos (by simpa using hsid)]
    refine (hinv.revoke (l.names s.subjects)).record (fun _ => ?_) fun h => absurd h hsid
    intro x hx k hk hcovers
    rcases mem_update_cases hx with ⟨y, hy, _, rfl⟩ | ⟨hx, hnames⟩
    · rfl
    -- the token's session is one that the logout names, unless it is revoked already
    rcases hinv.faithful x hx k hk with ⟨hysid, z, hz, hzid, hzname⟩
    simp only [LogoutIdentity.covers, hsid, ne_eq, not_false_eq_true, if_true, Bool.and_eq_true,
      Bool.or_eq_true, decide_eq_true_eq] at hcovers
    by_contra hlive
    refine absurd ?_ (Bool.eq_false_iff.mp hnames)
    simp only [Subject.name, Prod.mk.injEq] at hzname
    simp only [LogoutIdentity.names, Bool.and_eq_true, decide_eq_true_eq, any_eq_true,
      Bool.or_eq_true, Bool.not_eq_true']
    refine ⟨⟨hysid.trans hcovers.2.1, by simpa using hlive⟩, z, hz, ⟨hzid, ?_⟩, ?_⟩
    · rw [hzname.1, hcovers.1]
    · rw [hzname.2]
      exact hcovers.2.2

theorem LogoutInv.step (hinv : LogoutInv claims s) (op : Op) (hop : Conforms claims s op) :
    LogoutInv claims (step claims s op) := by
  cases op with
  | present hash policy freshSubject freshSession now => exact hinv.present hop
  | exchange hash policy platformHash freshSubject freshSession now => exact hinv.exchange hop
  | presentPlatform platformHash policy now => exact hinv.rewrite _ fun _ => ⟨rfl, id, rfl, rfl⟩
  | logout l => exact hinv.logout hop

/-- In every sequence of calls that meet the conditions no token is accepted after a logout that covers
it. -/
theorem logouts_final_of_conforming (claims : String → Identity) (ops : List Op)
    (hops : Along (Iam.step claims) (Conforms claims) Store.empty ops) :
    LogoutsFinal (run (Iam.step claims) Store.empty ops) := by
  have hinv : LogoutInv claims (run (Iam.step claims) Store.empty ops) :=
    run_invariant (fun _ op hs hop => hs.step op hop) (logoutInv_empty) hops
  exact hinv.final

/-! ## Two tokens of one provider session -/

/-- Every token of the example is of one subject and one provider session. -/
def exampleClaims (_ : String) : Identity where
  issuer := "https://idp.example"
  subject := "alice"
  providerSessionId := "sid-1"
  issuedAt := 100000000
  expiresAt := 900000000

def examplePolicy : SessionPolicy where
  idleTimeout := 3600000000
  maxLifetime := 43200000000

def exampleLogout : LogoutIdentity where
  issuer := "https://idp.example"
  subject := ""
  providerSessionId := "sid-1"
  providerTokenId := "logout-1"
  iat := 200
  exp := 320

/-- A token is used, its session is logged out, and the token is used again. -/
def seenToken : List Op :=
  [.present "a" examplePolicy 1 1 110000000, .logout exampleLogout,
    .present "a" examplePolicy 2 2 210000000]

theorem logouts_final_seenToken :
    (run (Iam.step exampleClaims) Store.empty seenToken).history =
        [.loggedOut exampleLogout, .accepted (exampleClaims "a")] ∧
      LogoutsFinal (run (Iam.step exampleClaims) Store.empty seenToken) :=
  ⟨by decide, logouts_final_of_conforming _ _ (by decide)⟩

/-- Another token of the session is used for the first time after the logout, and a third one is
exchanged after it. -/
def unseenTokens : List Op :=
  [.present "a" examplePolicy 1 1 110000000, .logout exampleLogout,
    .present "b" examplePolicy 2 2 210000000, .exchange "c" examplePolicy "p" 3 3 220000000]

theorem unseen_tokens_accepted :
    (run (Iam.step exampleClaims) Store.empty unseenTokens).history =
        [.accepted (exampleClaims "c"), .accepted (exampleClaims "b"), .loggedOut exampleLogout,
          .accepted (exampleClaims "a")] ∧
      ¬ LogoutsFinal (run (Iam.step exampleClaims) Store.empty unseenTokens) := by
  have hhistory : (run (Iam.step exampleClaims) Store.empty unseenTokens).history =
      [.accepted (exampleClaims "c"), .accepted (exampleClaims "b"), .loggedOut exampleLogout,
        .accepted (exampleClaims "a")] := by
    decide
  unfold LogoutsFinal
  decide

end PortageEngine.Iam
