import Mathlib.Algebra.Order.Ring.Nat
import Mathlib.Data.Nat.Notation
import Mathlib.Tactic.Common

/-!
# Addresses and their classes

IPv4 and IPv6 addresses, classified as Python's `ipaddress` does.

* `Network` : the addresses that begin with some bits; `Network.contains_eq` : a block says the same
  of all addresses of a smaller one.
* `Network.apart` : two blocks have no address in common.
* `IpAddress.isGlobal` and its siblings : the classes.
* `IpAddress.embedded` : the IPv4 addresses inside an IPv6 address.
-/

namespace Backplane

/-! ### Blocks -/

/-- The addresses of `w` bits that begin with the first `len` bits of `base`. -/
structure Network (w : ℕ) where
  /-- Where the block begins. -/
  base : ℕ
  /-- How many bits its addresses share. -/
  len : ℕ

namespace Network

variable {w a : ℕ} {m n : Network w} {ns : List (Network w)}

/-- The address begins with the bits of the block. -/
def contains (n : Network w) (a : ℕ) : Bool :=
  decide (a / 2 ^ (w - n.len) = n.base / 2 ^ (w - n.len))

/-- The blocks have no address in common. -/
def apart (n m : Network w) : Bool :=
  if m.len ≤ n.len then !m.contains n.base else !n.contains m.base

theorem contains_iff : n.contains a = true ↔ a / 2 ^ (w - n.len) = n.base / 2 ^ (w - n.len) :=
  decide_eq_true_iff

/-- A block says the same of all addresses of a smaller one. -/
theorem contains_eq (hn : n.contains a = true) (hle : m.len ≤ n.len) :
    m.contains a = m.contains n.base := by
  obtain ⟨d, hd⟩ : ∃ d, w - m.len = (w - n.len) + d := ⟨(w - m.len) - (w - n.len), by omega⟩
  unfold contains
  rw [hd, pow_add, ← Nat.div_div_eq_div_mul, contains_iff.1 hn, Nat.div_div_eq_div_mul]

theorem not_contains_of_apart (h : n.apart m = true) (hn : n.contains a = true) :
    m.contains a = false := by
  unfold apart at h
  split_ifs at h with hle
  · rw [contains_eq hn hle]
    simpa using h
  · rw [← Bool.not_eq_true]
    intro hm
    rw [contains_eq hm (not_le.1 hle).le] at hn
    rw [hn] at h
    exact absurd h (by simp)

theorem any_eq_false_of_apart (h : (ns.all fun m => n.apart m) = true) (hn : n.contains a = true) :
    (ns.any fun m => m.contains a) = false := by
  rw [List.any_eq_false]
  intro m hm
  rw [not_contains_of_apart (List.all_eq_true.1 h m hm) hn]
  exact Bool.false_ne_true

end Network

/-! ### IPv4 -/

/-- An IPv4 address. -/
abbrev IPv4Address := Fin (2 ^ 32)

namespace IPv4Address

/-- The block with these four bytes in front. -/
def block (b₁ b₂ b₃ b₄ len : ℕ) : Network 32 :=
  ⟨((b₁ * 256 + b₂) * 256 + b₃) * 256 + b₄, len⟩

/-- Blocks that are not for the public network. -/
def privateNetworks : List (Network 32) :=
  [block 0 0 0 0 8, block 10 0 0 0 8, block 127 0 0 0 8, block 169 254 0 0 16,
    block 172 16 0 0 12, block 192 0 0 0 24, block 192 0 0 170 31, block 192 0 2 0 24,
    block 192 168 0 0 16, block 198 18 0 0 15, block 198 51 100 0 24, block 203 0 113 0 24,
    block 240 0 0 0 4, block 255 255 255 255 32]

/-- Addresses in these blocks that are. -/
def privateNetworksExceptions : List (Network 32) := [block 192 0 0 9 32, block 192 0 0 10 32]

/-- The block shared among the customers of a carrier: neither private nor global. -/
def sharedNetwork : Network 32 := block 100 64 0 0 10

variable (a : IPv4Address)

/-- `is_private` -/
def isPrivate : Bool :=
  (privateNetworks.any fun n => n.contains a) &&
    !privateNetworksExceptions.any fun n => n.contains a

/-- `is_global` -/
def isGlobal : Bool := !sharedNetwork.contains a && !isPrivate a

/-- `is_loopback` -/
def isLoopback : Bool := (block 127 0 0 0 8).contains a

/-- `is_link_local` -/
def isLinkLocal : Bool := (block 169 254 0 0 16).contains a

/-- `is_multicast` -/
def isMulticast : Bool := (block 224 0 0 0 4).contains a

/-- `is_reserved` -/
def isReserved : Bool := (block 240 0 0 0 4).contains a

/-- `is_unspecified` -/
def isUnspecified : Bool := a.val = 0

end IPv4Address

/-! ### IPv6 -/

/-- An IPv6 address. -/
abbrev IPv6Address := Fin (2 ^ 128)

namespace IPv6Address

/-- The block with these four groups in front. -/
def block (g₁ g₂ g₃ g₄ len : ℕ) : Network 128 :=
  ⟨(((g₁ * 65536 + g₂) * 65536 + g₃) * 65536 + g₄) * 2 ^ 64, len⟩

/-- Blocks that are not globally reachable. -/
def privateNetworks : List (Network 128) :=
  [⟨1, 128⟩, ⟨0, 128⟩, ⟨0xffff * 2 ^ 32, 96⟩, block 0x64 0xff9b 1 0 48, block 0x100 0 0 0 64,
    block 0x2001 0 0 0 23, block 0x2001 0xdb8 0 0 32, block 0x2002 0 0 0 16,
    block 0x3fff 0 0 0 20, block 0xfc00 0 0 0 7, block 0xfe80 0 0 0 10]

/-- Addresses in these blocks that are. -/
def privateNetworksExceptions : List (Network 128) :=
  [⟨(0x2001 * 65536 + 1) * 2 ^ 96 + 1, 128⟩, ⟨(0x2001 * 65536 + 1) * 2 ^ 96 + 2, 128⟩,
    block 0x2001 3 0 0 32, block 0x2001 4 0x112 0 48, block 0x2001 0x20 0 0 28,
    block 0x2001 0x30 0 0 28]

/-- Blocks reserved by the standards. -/
def reservedNetworks : List (Network 128) :=
  [block 0 0 0 0 8, block 0x100 0 0 0 8, block 0x200 0 0 0 7, block 0x400 0 0 0 6,
    block 0x800 0 0 0 5, block 0x1000 0 0 0 4, block 0x4000 0 0 0 3, block 0x6000 0 0 0 3,
    block 0x8000 0 0 0 3, block 0xa000 0 0 0 3, block 0xc000 0 0 0 3, block 0xe000 0 0 0 4,
    block 0xf000 0 0 0 5, block 0xf800 0 0 0 6, block 0xfe00 0 0 0 9]

variable (a : IPv6Address)

/-- The low bits of an address, as an IPv4 address. -/
def low (n : ℕ) : IPv4Address := ⟨n % 2 ^ 32, Nat.mod_lt _ (by decide)⟩

/-- `ipv4_mapped`: the address in `::ffff:0:0/96`. -/
def ipv4Mapped : Option IPv4Address := if a.val / 2 ^ 32 = 0xffff then some (low a.val) else none

/-- The address in the translation block `64:ff9b::/96`. -/
def nat64 : Option IPv4Address :=
  if a.val / 2 ^ 32 = (0x64 * 65536 + 0xff9b) * 2 ^ 64 then some (low a.val) else none

/-- `sixtofour`: the address in `2002::/16`. -/
def sixtofour : Option IPv4Address :=
  if a.val / 2 ^ 112 = 0x2002 then some (low (a.val / 2 ^ 80)) else none

/-- `is_private` -/
def isPrivate : Bool :=
  match ipv4Mapped a with
  | some v => IPv4Address.isPrivate v
  | none => (privateNetworks.any fun n => n.contains a) &&
      !privateNetworksExceptions.any fun n => n.contains a

/-- `is_global` -/
def isGlobal : Bool := !isPrivate a

/-- `is_loopback` -/
def isLoopback : Bool := a.val = 1

/-- `is_link_local` -/
def isLinkLocal : Bool := (block 0xfe80 0 0 0 10).contains a

/-- `is_multicast` -/
def isMulticast : Bool := (block 0xff00 0 0 0 8).contains a

/-- `is_reserved` -/
def isReserved : Bool := reservedNetworks.any fun n => n.contains a

/-- `is_unspecified` -/
def isUnspecified : Bool := a.val = 0

/-- What translates to IPv4 is reserved. -/
theorem isReserved_of_nat64 {v : IPv4Address} (h : nat64 a = some v) : isReserved a = true := by
  unfold nat64 at h
  split_ifs at h with ha
  refine List.any_eq_true.2 ⟨block 0 0 0 0 8, List.mem_cons_self, ?_⟩
  rw [Network.contains_iff]
  simp only [block]
  omega

/-- What carries IPv4 is not globally reachable. -/
theorem isPrivate_of_sixtofour {v : IPv4Address} (h : sixtofour a = some v) :
    isPrivate a = true := by
  unfold sixtofour at h
  split_ifs at h with ha
  have hblock : (block 0x2002 0 0 0 16).contains a = true := by
    rw [Network.contains_iff]
    simp only [block]
    omega
  have hmapped : ipv4Mapped a = none := by
    rw [ipv4Mapped, if_neg]
    omega
  have hapart :
      (privateNetworksExceptions.all fun m => (block 0x2002 0 0 0 16).apart m) = true := by
    decide
  unfold isPrivate
  rw [hmapped]
  dsimp only
  rw [Network.any_eq_false_of_apart hapart hblock, Bool.not_false, Bool.and_true]
  exact List.any_eq_true.2 ⟨block 0x2002 0 0 0 16, by simp [privateNetworks], hblock⟩

end IPv6Address

/-! ### Both -/

/-- An address. -/
inductive IpAddress
  | v4 (a : IPv4Address)
  | v6 (a : IPv6Address)
  deriving DecidableEq

namespace IpAddress

/-- `is_private` -/
def isPrivate : IpAddress → Bool
  | v4 a => IPv4Address.isPrivate a
  | v6 a => IPv6Address.isPrivate a

/-- `is_global` -/
def isGlobal : IpAddress → Bool
  | v4 a => IPv4Address.isGlobal a
  | v6 a => IPv6Address.isGlobal a

/-- `is_loopback` -/
def isLoopback : IpAddress → Bool
  | v4 a => IPv4Address.isLoopback a
  | v6 a => IPv6Address.isLoopback a

/-- `is_link_local` -/
def isLinkLocal : IpAddress → Bool
  | v4 a => IPv4Address.isLinkLocal a
  | v6 a => IPv6Address.isLinkLocal a

/-- `is_multicast` -/
def isMulticast : IpAddress → Bool
  | v4 a => IPv4Address.isMulticast a
  | v6 a => IPv6Address.isMulticast a

/-- `is_reserved` -/
def isReserved : IpAddress → Bool
  | v4 a => IPv4Address.isReserved a
  | v6 a => IPv6Address.isReserved a

/-- `is_unspecified` -/
def isUnspecified : IpAddress → Bool
  | v4 a => IPv4Address.isUnspecified a
  | v6 a => IPv6Address.isUnspecified a

/-- `ipv4_mapped`; an IPv4 address has none. -/
def ipv4Mapped : IpAddress → Option IPv4Address
  | v4 _ => none
  | v6 a => IPv6Address.ipv4Mapped a

/-- The IPv4 addresses inside an address. -/
def embedded : IpAddress → List IPv4Address
  | v4 _ => []
  | v6 a => (IPv6Address.ipv4Mapped a).toList ++ (IPv6Address.nat64 a).toList ++
      (IPv6Address.sixtofour a).toList

/-- An IPv4 address in its mapped form stands for the IPv4 address. -/
def unmapped (ip : IpAddress) : IpAddress :=
  match ip.ipv4Mapped with
  | some v => v4 v
  | none => ip

end IpAddress

end Backplane
