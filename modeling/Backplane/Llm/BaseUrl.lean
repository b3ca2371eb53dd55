import Backplane.Llm.Presets

/-!
# Endpoints of presets

A preset may name an endpoint.  The router refuses endpoints that are no place for the provider's
credentials: hosted providers need TLS and a public address, local ones may be at home.

* `Net` : what URLs and host names mean; `Address` : the classes of an address.
* `validateBaseUrl` : the policy.
* `checkProviderBaseUrlConsistency` : the policy, and providers without an endpoint of their own.
-/

namespace Backplane

/-- The classes of an IP address, an IPv4-mapped one taken for what it maps to. -/
structure Address where
  isLinkLocal : Bool := false
  isMulticast : Bool := false
  isUnspecified : Bool := false
  isLoopback : Bool := false
  isPrivate : Bool := false
  isReserved : Bool := false

/-- `_ip_is_blocked` -/
def Address.isBlocked (a : Address) (allowPrivate allowLoopback : Bool) : Bool :=
  if a.isLinkLocal || a.isMulticast || a.isUnspecified then true
  else if a.isLoopback then !allowLoopback
  else if a.isPrivate then !allowPrivate
  else a.isReserved

/-- The world of URLs, and the hosts that the operator allows. -/
structure Net where
  /-- `urlparse`: scheme and host name in lower case; `none`: it raises. -/
  urlparse : String → Option (String × String)
  /-- The address that a host name spells, or those it resolves to. -/
  addresses : String → List Address
  /-- `base_url_allowed_hosts` -/
  allowedHosts : List String := []

/-- `_METADATA_HOSTNAMES` -/
def metadataHostnames : List String :=
  ["metadata.google.internal", "metadata.azure.com", "instance-data.ec2.internal",
    "metadata.ec2.internal"]

/-- `_HOSTED_PROVIDERS` -/
def hostedProviders : List String := ["gemini", "anthropic", "openai", "openai-embeddings"]

/-- `_is_local_provider` -/
def isLocalProvider (provider : String) : Bool :=
  "openai-compatible".toList.isPrefixOf provider.toList || provider = "mcp"

variable (net : Net)

/-- `validate_base_url` -/
def validateBaseUrl (provider baseUrl : String) : Bool :=
  if baseUrl = "" then true
  else match net.urlparse baseUrl with
    | none => false
    | some (scheme, host) =>
      (scheme = "http" || scheme = "https") &&
      (!hostedProviders.contains provider || scheme = "https") && host ≠ "" &&
      (net.allowedHosts.contains host || !metadataHostnames.contains host &&
        (net.addresses host).all fun a =>
          !a.isBlocked (isLocalProvider provider) (isLocalProvider provider))

/-- `_check_provider_base_url_consistency` -/
def checkProviderBaseUrlConsistency (provider : String) (baseUrl : Option String) : Bool :=
  (!PresetFields.needsBaseUrl provider || baseUrl.any fun u => u ≠ "") &&
    baseUrl.all fun u => validateBaseUrl net provider u

end Backplane
