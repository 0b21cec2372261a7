/-
The checks of a forwarded request's target: the SSRF check of its URL, the
match with the resource that was paid for, and the match of the asset.
-/
import X402Guard.PaymentVerification

namespace X402Guard

variable (ext : Externals)

/-- The octets of an IPv4 address, most significant first. -/
def octet (address : BitVec 32) (index : Nat) : Nat :=
  (address >>> (8 * (3 - index))).toNat % 256

/-- `Ipv4Addr::is_loopback`, ... and the CGNAT range. -/
def isPrivateIpv4 (address : BitVec 32) : Bool :=
  let a := octet address 0
  let b := octet address 1
  let c := octet address 2
  a = 127
    || (a = 10 || a = 172 && 16 ≤ b && b ≤ 31 || a = 192 && b = 168)
    || a = 169 && b = 254
    || address = BitVec.allOnes 32
    || address = 0
    || (a = 192 && b = 0 && c = 2 || a = 198 && b = 51 && c = 100
      || a = 203 && b = 0 && c = 113)
    || a = 100 && 64 ≤ b && b ≤ 127

/-- Check if an IP address is in a private or reserved range. -/
def isPrivateIp : IpAddr → Bool
  | .v4 address => isPrivateIpv4 address
  | .v6 address =>
      address = 1 || address = 0
        -- IPv4-mapped
        || address.toNat / 2 ^ 32 = 0xffff
          && isPrivateIpv4 (address.setWidth 32)

def maxUrlLen : Nat := 2048

/-- Validate the target URL: HTTPS, no credentials, no private host. -/
def validateTargetUrl (url : String) : Except AppError Unit := do
  rejectIf (url.utf8ByteSize > maxUrlLen) (.badRequest "target_url too long")
  let parsed ← okOr (.badRequest "invalid target_url") (ext.parseUrl url)
  rejectIf (parsed.scheme ≠ "https")
    (.badRequest "target_url must use HTTPS")
  rejectIf (parsed.username ≠ "" ∨ parsed.password.isSome)
    (.badRequest "target_url must not contain credentials")
  let host ← okOr (.badRequest "target_url must have a valid host")
    parsed.host
  rejectIf (host = "localhost" ∨ host.endsWith ".local" ∨
      host.endsWith ".internal")
    (.badRequest "target_url must not point to local/internal hosts")
  rejectIf ((ext.parseIpAddr host).any isPrivateIp)
    (.badRequest "target_url must not point to private/internal IP")

/-- Validate that `target_url` matches the resource that is paid for. -/
def validateResourceMatch (targetUrl resource : String) :
    Except AppError Unit := do
  let target ← okOr (.badRequest "invalid target_url for resource match")
    (ext.parseUrl targetUrl)
  let resourceUrl ← okOr
    (.badRequest "invalid resource URL in payment requirements")
    (ext.parseUrl resource)
  let pair := fun (a b : String) => "'" ++ a ++ "' vs '" ++ b ++ "'"
  rejectIf (target.scheme ≠ resourceUrl.scheme ∨
      target.host ≠ resourceUrl.host ∨ target.port ≠ resourceUrl.port)
    (.badRequest ("target_url origin does not match payment resource: "
      ++ pair targetUrl resource))
  rejectIf (¬ (target.path = resourceUrl.path ∨
      target.path.startsWith (resourceUrl.path ++ "/") ∨
      resourceUrl.path = "/"))
    (.badRequest ("target_url path does not match payment resource: "
      ++ pair target.path resourceUrl.path))

/-- Validate that the required asset is the USDC of the payment's network. -/
def validateAssetMatch (payment : PaymentPayload)
    (requirements : PaymentRequirements) : Except AppError Unit := do
  let (expectedUsdc, _) ← okOr
    (.badRequest s!"unsupported network: {payment.network}")
    (Usdc.resolveNetwork payment.network)
  let expectedHex := ext.toLowercase (ext.formatAddress expectedUsdc)
  rejectIf (ext.toLowercase requirements.asset ≠ expectedHex)
    (.badRequest ("asset mismatch: requirements.asset='" ++ requirements.asset
      ++ "' does not match expected USDC '" ++ expectedHex
      ++ "' for network '" ++ payment.network ++ "'"))

end X402Guard
