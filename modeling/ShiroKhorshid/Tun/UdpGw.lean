/-
# The packets of udpgw

UDP goes through the tunnel as packets of the udpgw protocol: a byte of flags, the number of
a connection in two bytes, the address of the remote end as its bytes stand in memory, and the
data.  Both ends send the same kind of packet, and both read it the same way, so `packet` and
`parse` are written once and used by `UdpGwClient` and `UdpGateway`.

* The flags are independent bits.  The one that says which kind of address follows is set by the
  writer from the address itself, whatever the other flags are (`sentFlags`).
* **What is written is read** (`parse_packet`), for any data, the empty one included: the header has
  a fixed length and the flag gives that of the address, so there is one place to cut.
* **Nothing else is accepted** (`parse_eq_some_iff`): from the bytes that are read as these flags,
  connection, address and data, the same bytes are written again.

The largest packet is known from the largest data (`length_packet_le`); `computeMtu` is that bound,
which each end uses for its own buffers.

The flag for keepalive packets is read here, but this application's client never sends one.  Names
of hosts do not occur: an address is one of IPv4 or of IPv6.
-/
import ShiroKhorshid.Lib.Bytes

namespace ShiroKhorshid.Tun

open Bytes

/-! ## 1. Addresses and flags -/

/-- A `BAddr` that is an IPv4 or an IPv6 address.  Its fields are the numbers that their bytes in
memory spell, the lowest first. -/
inductive BAddr
  | ipv4 (ip : BitVec 32) (port : BitVec 16)
  | ipv6 (ip : BitVec 128) (port : BitVec 16)
deriving DecidableEq

namespace BAddr

/-- `type == BADDR_TYPE_IPV6` -/
def isIPv6 : BAddr → Bool
  | .ipv4 _ _ => false
  | .ipv6 _ _ => true

/-- `struct udpgw_addr_ipv4` or `struct udpgw_addr_ipv6` -/
def bytes : BAddr → List UInt8
  | .ipv4 ip port => leBytes 4 ip.toNat ++ leBytes 2 port.toNat
  | .ipv6 ip port => leBytes 16 ip.toNat ++ leBytes 2 port.toNat

end BAddr

/-- `UDPGW_CLIENT_FLAG_KEEPALIVE` -/
def flagKeepalive : UInt8 := 1

/-- `UDPGW_CLIENT_FLAG_REBIND` -/
def flagRebind : UInt8 := 2

/-- `UDPGW_CLIENT_FLAG_DNS` -/
def flagDns : UInt8 := 4

/-- `UDPGW_CLIENT_FLAG_IPV6` -/
def flagIPv6 : UInt8 := 8

/-- `flags & flag` -/
def hasFlag (flags flag : UInt8) : Bool := flags &&& flag ≠ 0

/-! ## 2. Packets -/

/-- `sizeof(struct udpgw_header)` -/
def udpgwHeaderSize : ℕ := 3

/-- `sizeof(struct udpgw_addr_ipv4)` and `sizeof(struct udpgw_addr_ipv6)` -/
def addrSize : Bool → ℕ
  | false => 6
  | true => 18

/-- `udpgw_compute_mtu`, where the sum fits in an `int` -/
def computeMtu (dgram_mtu : ℕ) : ℕ :=
  udpgwHeaderSize + (max (addrSize false) (addrSize true) + dgram_mtu)

/-- The packet that `connection_send` and `connection_send_to_client` write. -/
def packet (flags : UInt8) (conid : ℕ) (addr : BAddr) (data : List UInt8) : List UInt8 :=
  (if addr.isIPv6 then flags ||| flagIPv6 else flags) :: (leBytes 2 conid ++ (addr.bytes ++ data))

/-- The flags, the connection and what follows. -/
def parseHeader : List UInt8 → Option (UInt8 × ℕ × List UInt8)
  | flags :: c₀ :: c₁ :: rest => some (flags, ofLe [c₀, c₁], rest)
  -- missing header
  | _ => none

/-- The address and what follows; none where an address is missing. -/
def parseAddr (flags : UInt8) (data : List UInt8) : Option (BAddr × List UInt8) :=
  if hasFlag flags flagIPv6 then
    if data.length < addrSize true then none
    else
      some (.ipv6 (BitVec.ofNat 128 (ofLe (data.take 16)))
        (BitVec.ofNat 16 (ofLe ((data.drop 16).take 2))), data.drop (addrSize true))
  else
    if data.length < addrSize false then none
    else
      some (.ipv4 (BitVec.ofNat 32 (ofLe (data.take 4)))
        (BitVec.ofNat 16 (ofLe ((data.drop 4).take 2))), data.drop (addrSize false))

/-- What both ends do with a packet first. -/
def parse (bs : List UInt8) : Option (UInt8 × ℕ × BAddr × List UInt8) := do
  let (flags, conid, rest) ← parseHeader bs
  let (addr, data) ← parseAddr flags rest
  return (flags, conid, addr, data)

/-! ## 3. What is read is what was written -/

theorem hasFlag_or_self (flags : UInt8) : hasFlag (flags ||| flagIPv6) flagIPv6 = true := by
  rcases flags with ⟨⟨flags⟩⟩
  revert flags
  decide +kernel

theorem or_of_hasFlag {flags : UInt8} (h : hasFlag flags flagIPv6 = true) :
    flags ||| flagIPv6 = flags := by
  rcases flags with ⟨⟨flags⟩⟩
  revert flags
  decide +kernel

/-- The other flags stay. -/
theorem hasFlag_or {flag : UInt8} (h : flagIPv6 &&& flag = 0) (flags : UInt8) :
    hasFlag (flags ||| flagIPv6) flag = hasFlag flags flag := by
  have hdistrib : (flags ||| flagIPv6) &&& flag = flags &&& flag ||| flagIPv6 &&& flag :=
    UInt8.toBitVec_inj.mp BitVec.and_or_distrib_right
  rw [hasFlag, hasFlag, hdistrib, h, UInt8.or_zero]

@[simp] theorem BAddr.length_bytes (a : BAddr) : a.bytes.length = addrSize a.isIPv6 := by
  cases a <;> simp [BAddr.bytes, BAddr.isIPv6, addrSize]

theorem ofNat_ofLe_leBytes {k w : ℕ} (hw : 256 ^ k = 2 ^ w) (x : BitVec w) :
    BitVec.ofNat w (ofLe (leBytes k x.toNat)) = x := by
  rw [ofLe_leBytes (hw ▸ x.isLt), BitVec.ofNat_toNat, BitVec.setWidth_eq]

/-- Bytes are those of the number they spell, as a word. -/
theorem leBytes_ofNat_ofLe {k w : ℕ} (hw : 256 ^ k = 2 ^ w) {bs : List UInt8}
    (hlen : bs.length = k) : leBytes k (BitVec.ofNat w (ofLe bs)).toNat = bs := by
  have hlt : ofLe bs < 2 ^ w := hw ▸ hlen ▸ ofLe_lt bs
  rw [BitVec.toNat_ofNat, Nat.mod_eq_of_lt hlt, ← hlen, leBytes_ofLe]

theorem parseAddr_bytes (flags : UInt8) (a : BAddr) (data : List UInt8)
    (hflag : hasFlag flags flagIPv6 = a.isIPv6) :
    parseAddr flags (a.bytes ++ data) = some (a, data) := by
  rw [parseAddr, hflag]
  cases a with
  | ipv4 ip port =>
    have hbytes : (BAddr.ipv4 ip port).bytes ++ data =
        leBytes 4 ip.toNat ++ (leBytes 2 port.toNat ++ data) := by
      rw [BAddr.bytes, List.append_assoc]
    have hlen : ¬ ((BAddr.ipv4 ip port).bytes ++ data).length < addrSize false := by
      simp [BAddr.isIPv6]
    have hdrop : ((BAddr.ipv4 ip port).bytes ++ data).drop (addrSize false) = data :=
      List.drop_left' (BAddr.length_bytes _)
    rw [BAddr.isIPv6, if_neg (by simp), if_neg hlen, hdrop, hbytes,
      List.take_left' (length_leBytes 4 _), List.drop_left' (length_leBytes 4 _),
      List.take_left' (length_leBytes 2 _), ofNat_ofLe_leBytes (by norm_num),
      ofNat_ofLe_leBytes (by norm_num)]
  | ipv6 ip port =>
    have hbytes : (BAddr.ipv6 ip port).bytes ++ data =
        leBytes 16 ip.toNat ++ (leBytes 2 port.toNat ++ data) := by
      rw [BAddr.bytes, List.append_assoc]
    have hlen : ¬ ((BAddr.ipv6 ip port).bytes ++ data).length < addrSize true := by
      simp [BAddr.isIPv6]
    have hdrop : ((BAddr.ipv6 ip port).bytes ++ data).drop (addrSize true) = data :=
      List.drop_left' (BAddr.length_bytes _)
    rw [BAddr.isIPv6, if_pos rfl, if_neg hlen, hdrop, hbytes,
      List.take_left' (length_leBytes 16 _), List.drop_left' (length_leBytes 16 _),
      List.take_left' (length_leBytes 2 _), ofNat_ofLe_leBytes (by norm_num),
      ofNat_ofLe_leBytes (by norm_num)]

/-- What has been read as an address is its bytes. -/
theorem eq_bytes_of_parseAddr {flags : UInt8} {rest data : List UInt8} {a : BAddr}
    (h : parseAddr flags rest = some (a, data)) :
    hasFlag flags flagIPv6 = a.isIPv6 ∧ rest = a.bytes ++ data := by
  have hcut : ∀ k : ℕ, k + 2 ≤ rest.length →
      rest.take k ++ ((rest.drop k).take 2 ++ rest.drop (k + 2)) = rest := by
    intro k _
    rw [← List.drop_drop, List.take_append_drop, List.take_append_drop]
  have hlen : ∀ k : ℕ, k + 2 ≤ rest.length →
      (rest.take k).length = k ∧ ((rest.drop k).take 2).length = 2 := by
    intro k hk
    simp only [List.length_take, List.length_drop]
    omega
  rw [parseAddr] at h
  split at h
  · rename_i hflag
    split at h
    · cases h
    · rename_i hge
      rw [addrSize, not_lt] at hge
      obtain ⟨rfl, rfl⟩ := Prod.mk.inj (Option.some.inj h)
      obtain ⟨hip, hport⟩ := hlen 16 hge
      refine ⟨hflag, ?_⟩
      rw [BAddr.bytes, leBytes_ofNat_ofLe (by norm_num) hip, leBytes_ofNat_ofLe (by norm_num) hport,
        List.append_assoc]
      exact (hcut 16 hge).symm
  · rename_i hflag
    split at h
    · cases h
    · rename_i hge
      rw [addrSize, not_lt] at hge
      obtain ⟨rfl, rfl⟩ := Prod.mk.inj (Option.some.inj h)
      obtain ⟨hip, hport⟩ := hlen 4 hge
      refine ⟨Bool.eq_false_iff.mpr hflag, ?_⟩
      rw [BAddr.bytes, leBytes_ofNat_ofLe (by norm_num) hip, leBytes_ofNat_ofLe (by norm_num) hport,
        List.append_assoc]
      exact (hcut 4 hge).symm

/-- A header is a byte and a number of two bytes. -/
theorem parseHeader_cons {flags : UInt8} {conid : ℕ} (hconid : conid < 65536)
    (rest : List UInt8) :
    parseHeader (flags :: (leBytes 2 conid ++ rest)) = some (flags, conid, rest) := by
  have hspell : ofLe (leBytes 2 conid) = conid := ofLe_leBytes (by norm_num; exact hconid)
  show some (flags, ofLe (leBytes 2 conid), rest) = _
  rw [hspell]

/-- The flags as they stand in the packet. -/
def sentFlags (flags : UInt8) (addr : BAddr) : UInt8 :=
  if addr.isIPv6 then flags ||| flagIPv6 else flags

theorem hasFlag_sentFlags {flags : UInt8} (hflags : hasFlag flags flagIPv6 = false) (a : BAddr) :
    hasFlag (sentFlags flags a) flagIPv6 = a.isIPv6 := by
  rw [sentFlags]
  cases h : a.isIPv6
  · simpa using hflags
  · simpa using hasFlag_or_self flags

theorem hasFlag_sentFlags_of_and {flag : UInt8} (h : flagIPv6 &&& flag = 0) (flags : UInt8)
    (a : BAddr) : hasFlag (sentFlags flags a) flag = hasFlag flags flag := by
  rw [sentFlags]
  split
  · exact hasFlag_or h flags
  · rfl

/-- **A packet is read as it was written**, with the flag that says which kind of address it is. -/
theorem parse_packet {flags : UInt8} {conid : ℕ} (hflags : hasFlag flags flagIPv6 = false)
    (hconid : conid < 65536) (a : BAddr) (data : List UInt8) :
    parseHeader (packet flags conid a data) =
        some (sentFlags flags a, conid, a.bytes ++ data) ∧
      parseAddr (sentFlags flags a) (a.bytes ++ data) = some (a, data) :=
  ⟨parseHeader_cons hconid _, parseAddr_bytes _ a data (hasFlag_sentFlags hflags a)⟩

theorem length_packet (flags : UInt8) (conid : ℕ) (a : BAddr) (data : List UInt8) :
    (packet flags conid a data).length = udpgwHeaderSize + (addrSize a.isIPv6 + data.length) := by
  simp [packet, udpgwHeaderSize]
  omega

/-- What the senders write fits in a packet. -/
theorem length_packet_le (flags : UInt8) (conid : ℕ) (a : BAddr) {data : List UInt8} {mtu : ℕ}
    (hdata : data.length ≤ mtu) : (packet flags conid a data).length ≤ computeMtu mtu := by
  rw [length_packet, computeMtu]
  cases a.isIPv6 <;> simp only [addrSize] <;> omega

/-- **Nothing else is accepted**: the bytes that are read as these flags, connection, address and
data are those, and only those, that are written for them. -/
theorem parse_eq_some_iff {bs : List UInt8} {flags : UInt8} {conid : ℕ} {a : BAddr}
    {data : List UInt8} :
    parse bs = some (flags, conid, a, data) ↔
      conid < 65536 ∧ hasFlag flags flagIPv6 = a.isIPv6 ∧ bs = packet flags conid a data := by
  have hkeep : hasFlag flags flagIPv6 = a.isIPv6 →
      packet flags conid a data = flags :: (leBytes 2 conid ++ (a.bytes ++ data)) := by
    intro hflag
    rw [packet]
    cases h : a.isIPv6
    · rfl
    · rw [h] at hflag
      rw [if_pos rfl, or_of_hasFlag hflag]
  constructor
  · intro h
    match bs with
    | f :: c₀ :: c₁ :: rest =>
      rw [parse, parseHeader] at h
      simp only [Option.bind_eq_bind, Option.bind_some, Option.bind_eq_some_iff] at h
      obtain ⟨⟨a', data'⟩, hparse, heq⟩ := h
      obtain ⟨rfl, rfl, rfl, rfl⟩ : f = flags ∧ ofLe [c₀, c₁] = conid ∧ a' = a ∧ data' = data := by
        simpa using heq
      obtain ⟨hflag, rfl⟩ := eq_bytes_of_parseAddr hparse
      have hspell : leBytes 2 (ofLe [c₀, c₁]) = [c₀, c₁] := leBytes_ofLe [c₀, c₁]
      have hlt : ofLe [c₀, c₁] < 256 ^ 2 := ofLe_lt [c₀, c₁]
      refine ⟨by norm_num at hlt; exact hlt, hflag, ?_⟩
      rw [hkeep hflag, hspell]
      rfl
    | [] => cases h
    | [_] => cases h
    | [_, _] => cases h
  · rintro ⟨hconid, hflag, rfl⟩
    rw [parse, hkeep hflag, parseHeader_cons hconid]
    simp only [Option.bind_eq_bind, Option.bind_some]
    rw [parseAddr_bytes flags a data hflag]
    rfl

end ShiroKhorshid.Tun
