import Backplane.Data.IpAddress

/-!
# Which addresses may be fetched

An agent refuses to fetch from an address that is not public, and the router refuses to send a
hosted provider there.  The two were written apart.

* `addrBlocked` : the agent's check; `ipIsBlocked` : the router's.
* `Guarded` : what the checks are for.
* `addrBlocked_eq` : the two are the same check.
* `addrBlocked_of_carried` : an IPv6 address that carries an IPv4 address is accepted only in its
  mapped form.
* `guarded_iff` : the checks do what they are for on every address but the shared ones.
-/

namespace Backplane

open IpAddress

/-- `_addr_blocked` -/
def addrBlocked (ip : IpAddress) : Bool :=
  let ip := ip.unmapped
  ip.isPrivate || ip.isLoopback || ip.isLinkLocal || ip.isMulticast || ip.isReserved ||
    ip.isUnspecified

/-- `_ip_is_blocked`: the reason, if any. -/
def ipIsBlocked (ip : IpAddress) (allowPrivate allowLoopback : Bool) : Option String :=
  let ip := ip.unmapped
  if ip.isLinkLocal then some "link-local address (cloud-metadata range)"
  else if ip.isMulticast then some "multicast address"
  else if ip.isUnspecified then some "unspecified address"
  else if ip.isLoopback then if allowLoopback then none else some "loopback address"
  else if ip.isPrivate then if allowPrivate then none else some "private address (RFC1918 / ULA)"
  else if ip.isReserved then some "reserved address"
  else none

/-- What the checks are for. -/
structure Guarded (ip : IpAddress) : Prop where
  /-- An accepted address is public. -/
  routable : addrBlocked ip = false → ip.isGlobal = true
  /-- So are the IPv4 addresses inside it. -/
  embedded : addrBlocked ip = false → ∀ v ∈ ip.embedded, addrBlocked (.v4 v) = false
  /-- The router refuses the same for a hosted provider. -/
  agree : (ipIsBlocked ip false false).isSome = true ↔ addrBlocked ip = true

/-- An address that is shared among the customers of a carrier. -/
def Shared (ip : IpAddress) : Prop :=
  ∃ a : IPv4Address, ip = .v4 a ∧ IPv4Address.sharedNetwork.contains a = true

variable {ip : IpAddress} {a : IPv4Address} {v : IPv4Address}

/-! ### The two checks -/

/-- **The router refuses for a hosted provider what an agent refuses.** -/
theorem addrBlocked_eq (ip : IpAddress) :
    (ipIsBlocked ip false false).isSome = addrBlocked ip := by
  unfold ipIsBlocked addrBlocked
  dsimp only
  cases ip.unmapped.isLinkLocal
  · cases ip.unmapped.isMulticast
    · cases ip.unmapped.isUnspecified
      · cases ip.unmapped.isLoopback
        · cases ip.unmapped.isPrivate
          · cases ip.unmapped.isReserved <;> rfl
          · rfl
        · simp
      · simp
    · simp
  · simp

/-! ### What is inside an address -/

theorem addrBlocked_of_unmapped (h : ip.ipv4Mapped = none)
    (hclass : ip.isPrivate = true ∨ ip.isReserved = true) : addrBlocked ip = true := by
  unfold addrBlocked unmapped
  rw [h]
  rcases hclass with h | h <;> simp [h]

theorem addrBlocked_mapped (h : ip.ipv4Mapped = some v) : addrBlocked ip = addrBlocked (.v4 v) := by
  unfold addrBlocked unmapped
  rw [h]
  rfl

/-- An accepted address carries no IPv4 address but in its mapped form. -/
theorem addrBlocked_of_carried {b : IPv6Address}
    (h : IPv6Address.nat64 b = some v ∨ IPv6Address.sixtofour b = some v) :
    addrBlocked (.v6 b) = true := by
  refine addrBlocked_of_unmapped ?_ ?_
  · change IPv6Address.ipv4Mapped b = none
    rw [IPv6Address.ipv4Mapped, if_neg]
    unfold IPv6Address.nat64 IPv6Address.sixtofour at h
    rcases h with h | h
    · split_ifs at h with hb
      omega
    · split_ifs at h with hb
      omega
  · rcases h with h | h
    · exact .inr (IPv6Address.isReserved_of_nat64 b h)
    · exact .inl (IPv6Address.isPrivate_of_sixtofour b h)

theorem embedded_accepted (h : addrBlocked ip = false) (hv : v ∈ ip.embedded) :
    addrBlocked (.v4 v) = false := by
  cases ip with
  | v4 a => exact absurd hv List.not_mem_nil
  | v6 b =>
    simp only [IpAddress.embedded, List.mem_append, Option.mem_toList, Option.mem_def] at hv
    rcases hv with (hmapped | hnat) | hsix
    · rw [← @addrBlocked_mapped (.v6 b) _ hmapped]
      exact h
    · rw [addrBlocked_of_carried (.inl hnat)] at h
      exact absurd h (by simp)
    · rw [addrBlocked_of_carried (.inr hsix)] at h
      exact absurd h (by simp)

/-! ### What is public -/

/-- The shared addresses are in no class that is refused. -/
theorem addrBlocked_shared (h : IPv4Address.sharedNetwork.contains a = true) :
    addrBlocked (.v4 a) = false := by
  have hprivate : IPv4Address.isPrivate a = false := by
    unfold IPv4Address.isPrivate
    rw [Network.any_eq_false_of_apart (by decide) h, Bool.false_and]
  have hloopback : IPv4Address.isLoopback a = false := Network.not_contains_of_apart (by decide) h
  have hlink : IPv4Address.isLinkLocal a = false := Network.not_contains_of_apart (by decide) h
  have hmulticast : IPv4Address.isMulticast a = false :=
    Network.not_contains_of_apart (by decide) h
  have hreserved : IPv4Address.isReserved a = false := Network.not_contains_of_apart (by decide) h
  have hunspecified : IPv4Address.isUnspecified a = false := by
    unfold IPv4Address.isUnspecified
    rw [decide_eq_false_iff_not]
    intro hzero
    rw [hzero] at h
    exact absurd h (by decide)
  change (IPv4Address.isPrivate a || IPv4Address.isLoopback a || IPv4Address.isLinkLocal a ||
    IPv4Address.isMulticast a || IPv4Address.isReserved a || IPv4Address.isUnspecified a) = false
  rw [hprivate, hloopback, hlink, hmulticast, hreserved, hunspecified]
  rfl

theorem isPrivate_of_accepted (h : addrBlocked ip = false) : ip.unmapped.isPrivate = false := by
  unfold addrBlocked at h
  simp only [Bool.or_eq_false_iff] at h
  exact h.1.1.1.1.1

theorem isGlobal_iff (h : addrBlocked ip = false) : ip.isGlobal = true ↔ ¬ Shared ip := by
  have hprivate := isPrivate_of_accepted h
  cases ip with
  | v4 a =>
    change (!IPv4Address.sharedNetwork.contains a && !IPv4Address.isPrivate a) = true ↔ _
    have hp : IPv4Address.isPrivate a = false := hprivate
    rw [hp, Bool.not_false, Bool.and_true, Bool.not_eq_true', ← Bool.not_eq_true, not_iff_not]
    constructor
    · exact fun hs => ⟨a, rfl, hs⟩
    · rintro ⟨b, hb, hs⟩
      obtain rfl := IpAddress.v4.inj hb
      exact hs
  | v6 b =>
    have hshared : ¬ Shared (.v6 b) := fun ⟨_, hb, _⟩ => nomatch hb
    refine iff_of_true ?_ hshared
    change (!IPv6Address.isPrivate b) = true
    rw [Bool.not_eq_true']
    cases hm : IPv6Address.ipv4Mapped b with
    | none =>
      have hsame : (IpAddress.v6 b).unmapped = .v6 b := by
        unfold unmapped
        rw [show (IpAddress.v6 b).ipv4Mapped = none from hm]
      rw [hsame] at hprivate
      exact hprivate
    | some v =>
      have hsame : (IpAddress.v6 b).unmapped = .v4 v := by
        unfold unmapped
        rw [show (IpAddress.v6 b).ipv4Mapped = some v from hm]
      rw [hsame] at hprivate
      unfold IPv6Address.isPrivate
      rw [hm]
      exact hprivate

/-- **The checks do what they are for** on every address but those shared among the customers of a
carrier.  These are not public, and both checks accept them. -/
theorem guarded_iff (ip : IpAddress) : Guarded ip ↔ ¬ Shared ip := by
  constructor
  · rintro h ⟨a, rfl, hs⟩
    have haccepted := addrBlocked_shared hs
    exact (isGlobal_iff haccepted).1 (h.routable haccepted) ⟨a, rfl, hs⟩
  · intro h
    refine ⟨fun haccepted => (isGlobal_iff haccepted).2 h, fun haccepted v hv => ?_, ?_⟩
    · exact embedded_accepted haccepted hv
    · rw [addrBlocked_eq]

/-- `100.64.0.1` -/
theorem shared_accepted : ¬ ∀ ip : IpAddress, Guarded ip := by
  intro h
  let a : IPv4Address := ⟨0x64400001, by decide⟩
  have haccepted : addrBlocked (.v4 a) = false := addrBlocked_shared (by decide)
  exact absurd ((h (.v4 a)).routable haccepted) (by decide)

end Backplane
