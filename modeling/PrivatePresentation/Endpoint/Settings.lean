import PrivatePresentation.Decimal.Integer
import PrivatePresentation.Presentation.Descriptor

/-!
Settings of a running verifier, read from its environment. An empty value counts as none, and a
number that cannot be read leaves the default in place.
-/

namespace PrivatePresentation

/-- The settings of a running verifier. -/
structure VerifierSettings where
  port : Nat
  publicBaseUrl : String
  audience : String
  responseUri : String
  requestLifetime : Nat
  verdictRetention : Nat
  /-- Seconds between two sweeps. -/
  janitorInterval : Nat
  /-- Seconds that a request may wait for its verdict when it does not say. -/
  waitTimeout : Nat
deriving DecidableEq, Repr, Inhabited

namespace VerifierSettings

/-- The value of a variable without white space around it; none if nothing is left. -/
def value? (lookup : String → Option String) (key : String) : Option String :=
  match lookup key with
  | some raw =>
    let value := Text.trim raw
    if value.isEmpty then none else some value
  | none => none

/-- The number of a variable below a bound, else a default. -/
def number (lookup : String → Option String) (key : String) (bound default : Nat) : Nat :=
  ((value? lookup key).bind (Decimal.naturalBelow? bound)).getD default

/-- The settings of an environment. -/
def ofEnvironment (lookup : String → Option String) : VerifierSettings :=
  let port := number lookup "PORT" (1 <<< 16) 8080
  let base := ProtocolConfig.withBaseUrl
    ((value? lookup "ZKATTEST_PUBLIC_BASE_URL").getD ("http://localhost:" ++ toString port))
  let seconds (key : String) (default : Nat) : Nat := number lookup key (1 <<< 64) default
  { port := port
    publicBaseUrl := base.publicBaseUrl
    audience := (value? lookup "ZKATTEST_AUDIENCE").getD base.audience
    responseUri := (value? lookup "ZKATTEST_RESPONSE_URI").getD base.responseUri
    requestLifetime := seconds "ZKATTEST_REQUEST_TTL_SECS" base.requestLifetime
    verdictRetention := seconds "ZKATTEST_VERDICT_RETENTION_SECS" base.verdictRetention
    janitorInterval := seconds "ZKATTEST_JANITOR_INTERVAL_SECS" 30
    waitTimeout := seconds "ZKATTEST_WAIT_TIMEOUT_SECS" 180 }

/-- The part of the settings that requests are made by. -/
def protocol (s : VerifierSettings) : ProtocolConfig where
  audience := s.audience
  publicBaseUrl := s.publicBaseUrl
  responseUri := s.responseUri
  requestLifetime := s.requestLifetime
  verdictRetention := s.verdictRetention

/-- The members that describe settings. -/
def details (s : VerifierSettings) : List (String × Json) :=
  [("port", .nat s.port), ("public_base_url", .string s.publicBaseUrl),
    ("audience", .string s.audience), ("response_uri", .string s.responseUri),
    ("request_ttl_secs", .nat s.requestLifetime),
    ("verdict_retention_secs", .nat s.verdictRetention),
    ("janitor_interval_secs", .nat s.janitorInterval), ("wait_timeout_secs", .nat s.waitTimeout)]

end VerifierSettings
end PrivatePresentation
