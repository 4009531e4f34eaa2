import PortageEngine.Iam.Schema
import PortageEngine.Library.Runs

/-!
# Tokens and back-channel logouts

A provider token is presented directly (`authenticateOIDCIdentity`) or exchanged for a session of the
platform (`issueFederatedSession` of `internal/server/iam.go`); both observe the subject and then
authorize a session (`AuthorizeSession` of `internal/persistence/iam_sessions.go`).  A provider ends a
session of its own, or all sessions of a subject, by a logout token (`ApplyBackchannelLogout` of
`iam_logout.go`).

What a verifier reads from a provider token is determined by the token, so provider tokens are given
by their claims.  `history` records what has been accepted and which logouts have been applied.
-/

namespace PortageEngine.Iam

open Library Library.Rows
open Ledger (Time microsPerSecond)

/-! ## Tokens and logouts -/

/-- `ExternalIdentity`: what a verifier reads from a provider token. -/
structure Identity where
  issuer : String
  subject : String
  providerSessionId : String
  issuedAt : Time
  expiresAt : Time
  deriving DecidableEq

/-- `LogoutIdentity`.  The claim `iat` is read in whole seconds. -/
structure LogoutIdentity where
  issuer : String
  subject : String
  providerSessionId : String
  providerTokenId : String
  iat : Nat
  exp : Nat
  deriving DecidableEq

def LogoutIdentity.issuedAt (l : LogoutIdentity) : Time :=
  l.iat * microsPerSecond

/-- What a logout is about: the tokens of a provider session, or the tokens of a subject that were
issued at or before the logout. -/
def LogoutIdentity.covers (l : LogoutIdentity) (i : Identity) : Bool :=
  l.issuer = i.issuer &&
    (if l.providerSessionId ≠ "" then
      i.providerSessionId = l.providerSessionId && (l.subject = "" || i.subject = l.subject)
    else i.subject = l.subject && i.issuedAt ≤ l.issuedAt)

inductive Event
  | accepted (identity : Identity)
  | loggedOut (logout : LogoutIdentity)
  deriving DecidableEq

/-- The tables, and what has happened, the latest first. -/
structure Store where
  subjects : List Subject
  security : List SubjectSecurity
  sessions : List Session
  logouts : List LogoutIdentity
  history : List Event

def Store.empty : Store where
  subjects := []
  security := []
  sessions := []
  logouts := []
  history := []

/-! ## Sessions -/

/-- `ObserveSubject`; a new row gets the identifier `fresh`. -/
def observeSubject (s : Store) (i : Identity) (fresh : SubjectId) :
    Except String (Store × SubjectId) :=
  match s.subjects.find? fun x => x.issuer = i.issuer && x.subject = i.subject with
  | some x => .ok (s, x.id)
  | none => do
    require (s.subjects.all fun x => x.id ≠ fresh) "observe IAM subject: duplicate key"
    return ({ s with subjects := ⟨fresh, i.issuer, i.subject⟩ :: s.subjects }, fresh)

/-- The watermark of a subject; `AuthorizeSession` inserts a row if there is none. -/
def ensureSecurity (s : Store) (subject : SubjectId) : Store × Time :=
  match s.security.find? fun x => x.subject = subject with
  | some x => (s, x.tokensValidAfter)
  | none => ({ s with security := ⟨subject, 0⟩ :: s.security }, 0)

/-- The row of a token that is seen for the first time. -/
def newSession (id : SessionId) (subject : SubjectId) (hash : TokenHash) (i : Identity) (now : Time) :
    Session where
  id := id
  subject := subject
  tokenHash := hash
  providerSessionId := i.providerSessionId
  issuedAt := i.issuedAt
  expiresAt := i.expiresAt
  lastSeenAt := now
  revoked := false
  derivedFrom := none

/-- The row of a token that is seen again: the same token, of a session that is live. -/
def Session.refreshes (s : Session) (subject : SubjectId) (i : Identity) (policy : SessionPolicy)
    (now : Time) : Bool :=
  s.subject = subject && s.issuedAt = i.issuedAt && s.expiresAt = i.expiresAt && s.live policy now

/-- `AuthorizeSession`; a new row gets the identifier `fresh`. -/
def authorizeSession (s : Store) (subject : SubjectId) (hash : TokenHash) (i : Identity)
    (policy : SessionPolicy) (fresh : SessionId) (now : Time) : Except String Store := do
  require policy.valid "OIDC session policy is invalid"
  require (i.expiresAt ≤ i.issuedAt + policy.maxLifetime) "OIDC token lifetime exceeds server policy"
  let (s, validAfter) := ensureSecurity s subject
  require (validAfter < i.issuedAt) "OIDC token predates the subject revocation watermark"
  require (now < i.expiresAt && now < i.issuedAt + policy.maxLifetime)
    "OIDC session is revoked or outside lifecycle policy"
  match s.sessions.find? fun x => x.tokenHash = hash with
  | none => do
    require (i.issuedAt < i.expiresAt && s.sessions.all fun x => x.id ≠ fresh)
      "authorize OIDC session: constraint violated"
    return { s with sessions := newSession fresh subject hash i now :: s.sessions }
  | some x => do
    require (x.refreshes subject i policy now) "OIDC session is revoked or outside lifecycle policy"
    return { s with
      sessions := update (fun x => x.tokenHash = hash) ({ · with lastSeenAt := now }) s.sessions }

/-- `authenticateOIDCIdentity`.  The subject stays observed if the token is refused. -/
def presentToken (s : Store) (hash : String) (i : Identity) (policy : SessionPolicy)
    (freshSubject : SubjectId) (freshSession : SessionId) (now : Time) : Store :=
  match observeSubject s i freshSubject with
  | .error _ => s
  | .ok (s, subject) =>
    match authorizeSession s subject (.provider hash) i policy freshSession now with
    | .error _ => s
    | .ok s => { s with history := .accepted i :: s.history }

/-- The identity that a platform session is authorized with. -/
def Identity.exchanged (i : Identity) (policy : SessionPolicy) (now : Time) : Identity :=
  { i with issuedAt := now, expiresAt := min i.expiresAt (now + policy.maxLifetime) }

/-- `issueFederatedSession`, with the hash of the token that it generates. -/
def exchangeToken (s : Store) (i : Identity) (policy : SessionPolicy) (platformHash : String)
    (freshSubject : SubjectId) (freshSession : SessionId) (now : Time) : Store :=
  if (i.exchanged policy now).expiresAt ≤ now then s
  else
    match observeSubject s i freshSubject with
    | .error _ => s
    | .ok (s, subject) =>
      match authorizeSession s subject (.platform platformHash) (i.exchanged policy now) policy
          freshSession now with
      | .error _ => s
      | .ok s => { s with history := .accepted i :: s.history }

/-- `AuthorizePlatformSession`. -/
def presentPlatformToken (s : Store) (platformHash : String) (policy : SessionPolicy) (now : Time) :
    Store :=
  { s with
    sessions := update (fun x => x.tokenHash = .platform platformHash && x.live policy now &&
      x.afterWatermark s.security) ({ · with lastSeenAt := now }) s.sessions }

/-! ## Logouts -/

/-- The text whose hash identifies a logout token. -/
def LogoutIdentity.key (l : LogoutIdentity) : String :=
  l.issuer ++ "\x00" ++ l.providerTokenId

def LogoutIdentity.complete (l : LogoutIdentity) : Bool :=
  l.issuer ≠ "" && l.providerTokenId ≠ "" && (l.subject ≠ "" || l.providerSessionId ≠ "") &&
    l.iat < l.exp

/-- `date_trunc('second', …)`. -/
def truncSecond (t : Time) : Time :=
  t / microsPerSecond * microsPerSecond

def raiseWatermark (security : List SubjectSecurity) (subject : SubjectId) (t : Time) :
    List SubjectSecurity :=
  if security.any fun x => x.subject = subject then
    update (fun x => x.subject = subject) (fun x => { x with
      tokensValidAfter := max x.tokensValidAfter t }) security
  else ⟨subject, t⟩ :: security

/-- The session that a logout of a provider session revokes. -/
def LogoutIdentity.names (l : LogoutIdentity) (subjects : List Subject) (x : Session) : Bool :=
  x.providerSessionId = l.providerSessionId && !x.revoked &&
    subjects.any fun y => y.id = x.subject && y.issuer = l.issuer &&
      (l.subject = "" || y.subject = l.subject)

def applyBackchannelLogout (s : Store) (l : LogoutIdentity) : Store :=
  if !l.complete || s.logouts.any (fun e => e.key = l.key) then s
  else
    let s := { s with logouts := l :: s.logouts, history := .loggedOut l :: s.history }
    if l.providerSessionId ≠ "" then
      { s with sessions := update (l.names s.subjects) ({ · with revoked := true }) s.sessions }
    else
      match s.subjects.find? fun x => x.issuer = l.issuer && x.subject = l.subject with
      | none => s
      | some x =>
        { s with
          security := raiseWatermark s.security x.id (truncSecond l.issuedAt)
          sessions := update (fun y => y.subject = x.id && !y.revoked) ({ · with revoked := true })
            s.sessions }

/-! ## Sequences -/

inductive Op
  | present (hash : String) (policy : SessionPolicy) (freshSubject : SubjectId)
      (freshSession : SessionId) (now : Time)
  | exchange (hash : String) (policy : SessionPolicy) (platformHash : String)
      (freshSubject : SubjectId) (freshSession : SessionId) (now : Time)
  | presentPlatform (platformHash : String) (policy : SessionPolicy) (now : Time)
  | logout (l : LogoutIdentity)

/-- One call; `claims` gives what the verifiers read from a provider token. -/
def step (claims : String → Identity) (s : Store) : Op → Store
  | .present hash policy freshSubject freshSession now =>
    presentToken s hash (claims hash) policy freshSubject freshSession now
  | .exchange hash policy platformHash freshSubject freshSession now =>
    exchangeToken s (claims hash) policy platformHash freshSubject freshSession now
  | .presentPlatform platformHash policy now => presentPlatformToken s platformHash policy now
  | .logout l => applyBackchannelLogout s l

end PortageEngine.Iam
