import PortageEngine.Ledger.Schema

/-!
# Identities and sessions

The tables of the session lifecycle (`internal/migrations/sql/00018_iam_session_lifecycle.sql`,
`00019_oidc_backchannel_logout.sql`, `00030`): subjects are named by issuer and subject, each has a
watermark before which no token of it is valid, and a session is the record of one token, by its hash.
A session that a device code was exchanged for is derived from the session that approved the code.
-/

namespace PortageEngine.Iam

open Library
open Ledger (Time)

abbrev SubjectId := Nat

abbrev SessionId := Nat

/-- The SHA-256 of a token.  Tokens of the platform start with `pe1_`, so that no token of a provider
has the same hash. -/
inductive TokenHash
  | provider (hash : String)
  | platform (hash : String)
  deriving DecidableEq

/-- `iam_subjects`. -/
structure Subject where
  id : SubjectId
  issuer : String
  subject : String

/-- `iam_subject_security`. -/
structure SubjectSecurity where
  subject : SubjectId
  tokensValidAfter : Time

/-- `iam_sessions`. -/
structure Session where
  id : SessionId
  subject : SubjectId
  tokenHash : TokenHash
  providerSessionId : String
  issuedAt : Time
  expiresAt : Time
  lastSeenAt : Time
  revoked : Bool
  derivedFrom : Option SessionId

/-- `IAMSessionPolicy`. -/
structure SessionPolicy where
  idleTimeout : Time
  maxLifetime : Time

def SessionPolicy.valid (p : SessionPolicy) : Bool :=
  0 < p.idleTimeout && 0 < p.maxLifetime

/-- The lifecycle conditions on a session that every statement repeats. -/
def Session.live (policy : SessionPolicy) (now : Time) (s : Session) : Bool :=
  !s.revoked && now < s.expiresAt && now < s.lastSeenAt + policy.idleTimeout &&
    now < s.issuedAt + policy.maxLifetime

/-- The session was issued after its subject's watermark. -/
def Session.afterWatermark (security : List SubjectSecurity) (s : Session) : Bool :=
  security.any fun x => x.subject = s.subject && x.tokensValidAfter < s.issuedAt

end PortageEngine.Iam
