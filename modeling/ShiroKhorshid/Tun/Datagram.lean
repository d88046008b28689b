/-
# UDP datagrams of the device

What `tun2socks` does with the UDP packets of the tunnel device: `process_device_udp_packet` takes
the addresses and the data out of a packet and passes them on to the gateway, and what comes
back is put into a packet for the device (`udpgw_client_handler_received`).  Both use the same
headers and checksums, of IPv4 and IPv6.

* **Numbers in memory.**  A field of a header is the number its bytes make on a little-endian
  machine, as the code reads it, and `ntoh16` and `hton16` turn the bytes round.
* **Headers** are structures of the fields as they stand in memory.  A packet is a list of bytes,
  and reading a header takes as many of them as the header has.
* **Checks.**  `ipv4_check`, `ipv6_check` and `udp_check` compare lengths and leave what follows
  their header.  The checksum is the source's: 16-bit words added up in 32 bits, the carries folded
  back, and the complement; the header below is added as a pseudo header.
* **From the device and to it.**  The two functions of the source, with what they pass on as their
  result; `none` is a packet that is not passed on.

This module has the code only; what is accepted, and that what is built is accepted, is in
`DatagramChecks`.

TCP is in `TcpClient`, and what the gateway's client does with what it is given in `UdpGwClient`.
The log lines are left out.
-/
import ShiroKhorshid.Lib.OnesComplement
import ShiroKhorshid.Tun.UdpGw

namespace ShiroKhorshid.Tun

open Bytes OnesComplement

/-! ## 1. Numbers in memory -/

/-- `hton16` -/
def hton16 (x : ℕ) : BitVec 16 := BitVec.ofNat 16 (ofLe (beBytes 2 x))

/-- `ntoh16` -/
def ntoh16 (x : BitVec 16) : ℕ := ofBe (leBytes 2 x.toNat)

/-- `hton32` -/
def hton32 (x : ℕ) : BitVec 32 := BitVec.ofNat 32 (ofLe (beBytes 4 x))

/-- What bytes in memory are as a number of `w` bits. -/
def load (w : ℕ) (bs : List UInt8) : BitVec w := BitVec.ofNat w (ofLe bs)

/-- The sum of `badvpn_read_be16` at every second byte -/
def sum16 : List UInt8 → ℕ
  | a :: b :: rest => 256 * a.toNat + b.toNat + sum16 rest
  | _ => 0

/-- The last steps of the checksums: the sum is a `uint32_t`, which is folded. -/
def foldSum (t : ℕ) : ℕ := fold 65536 (t % 2 ^ 32)

/-! ## 2. Headers -/

/-- `struct ipv4_header` -/
structure Ipv4Header where
  version4_ihl4 : UInt8
  ds : UInt8
  total_length : BitVec 16
  identification : BitVec 16
  flags3_fragmentoffset13 : BitVec 16
  ttl : UInt8
  protocol : UInt8
  checksum : BitVec 16
  source_address : BitVec 32
  destination_address : BitVec 32
deriving DecidableEq

/-- `struct ipv6_header` -/
structure Ipv6Header where
  version4_tc4 : UInt8
  tc4_fl4 : UInt8
  fl : BitVec 16
  payload_length : BitVec 16
  next_header : UInt8
  hop_limit : UInt8
  source_address : BitVec 128
  destination_address : BitVec 128
deriving DecidableEq

/-- `struct udp_header` -/
structure UdpHeader where
  source_port : BitVec 16
  dest_port : BitVec 16
  length : BitVec 16
  checksum : BitVec 16
deriving DecidableEq

namespace Ipv4Header

def bytes (h : Ipv4Header) : List UInt8 :=
  h.version4_ihl4 :: h.ds :: (leBytes 2 h.total_length.toNat ++ (leBytes 2 h.identification.toNat ++
    (leBytes 2 h.flags3_fragmentoffset13.toNat ++ (h.ttl :: h.protocol ::
      (leBytes 2 h.checksum.toNat ++ (leBytes 4 h.source_address.toNat ++
        leBytes 4 h.destination_address.toNat))))))

/-- The header and what follows. -/
def read : List UInt8 → Option (Ipv4Header × List UInt8)
  | v :: ds :: l₀ :: l₁ :: i₀ :: i₁ :: f₀ :: f₁ :: ttl :: p :: c₀ :: c₁ ::
      s₀ :: s₁ :: s₂ :: s₃ :: d₀ :: d₁ :: d₂ :: d₃ :: rest =>
    some
      (⟨v, ds, load 16 [l₀, l₁], load 16 [i₀, i₁], load 16 [f₀, f₁], ttl, p, load 16 [c₀, c₁],
        load 32 [s₀, s₁, s₂, s₃], load 32 [d₀, d₁, d₂, d₃]⟩, rest)
  | _ => none

/-- `IPV4_GET_VERSION` -/
def version (h : Ipv4Header) : ℕ := h.version4_ihl4.toNat / 16

/-- `IPV4_GET_IHL` -/
def ihl (h : Ipv4Header) : ℕ := h.version4_ihl4.toNat % 16

end Ipv4Header

namespace Ipv6Header

def bytes (h : Ipv6Header) : List UInt8 :=
  h.version4_tc4 :: h.tc4_fl4 :: (leBytes 2 h.fl.toNat ++ (leBytes 2 h.payload_length.toNat ++
    (h.next_header :: h.hop_limit :: (leBytes 16 h.source_address.toNat ++
      leBytes 16 h.destination_address.toNat))))

/-- The header and what follows. -/
def read : List UInt8 → Option (Ipv6Header × List UInt8)
  | v :: t :: f₀ :: f₁ :: l₀ :: l₁ :: n :: hop :: rest =>
    if rest.length < 32 then none
    else
      some
        (⟨v, t, load 16 [f₀, f₁], load 16 [l₀, l₁], n, hop, load 128 (rest.take 16),
          load 128 ((rest.drop 16).take 16)⟩, rest.drop 32)
  | _ => none

end Ipv6Header

namespace UdpHeader

def bytes (h : UdpHeader) : List UInt8 :=
  leBytes 2 h.source_port.toNat ++ (leBytes 2 h.dest_port.toNat ++
    (leBytes 2 h.length.toNat ++ leBytes 2 h.checksum.toNat))

/-- The header and what follows. -/
def read : List UInt8 → Option (UdpHeader × List UInt8)
  | s₀ :: s₁ :: d₀ :: d₁ :: l₀ :: l₁ :: c₀ :: c₁ :: rest =>
    some (⟨load 16 [s₀, s₁], load 16 [d₀, d₁], load 16 [l₀, l₁], load 16 [c₀, c₁]⟩, rest)
  | _ => none

end UdpHeader

/-! ## 3. Checks -/

/-- `IPV4_PROTOCOL_UDP` and `IPV6_NEXT_UDP` -/
def protocolUdp : ℕ := 17

/-- `ipv4_checksum` -/
def ipv4Checksum (header : Ipv4Header) (extra : List UInt8) : BitVec 16 :=
  hton16 (65535 - foldSum (sum16 header.bytes + sum16 extra))

/-- `ipv4_check`: the header and the payload -/
def ipv4Check (data : List UInt8) : Option (Ipv4Header × List UInt8) :=
  match Ipv4Header.read data with
  | none => none
  | some (header, rest) =>
    let header_len := header.ihl * 4
    let total_length := ntoh16 header.total_length
    -- check version
    if header.version ≠ 4 then none
    -- check options
    else if header_len < 20 then none
    else if header_len > data.length then none
    -- check total length
    else if total_length < header_len then none
    else if total_length > data.length then none
    -- check checksum
    else if header.checksum ≠ ipv4Checksum { header with checksum := hton16 0 }
        (rest.take (header_len - 20)) then none
    else some (header, (data.drop header_len).take (total_length - header_len))

/-- `ipv6_check`: the header and the payload -/
def ipv6Check (data : List UInt8) : Option (Ipv6Header × List UInt8) :=
  match Ipv6Header.read data with
  | none => none
  | some (header, rest) =>
    if header.version4_tc4.toNat / 16 ≠ 6 then none
    else if ntoh16 header.payload_length > rest.length then none
    else some (header, rest.take (ntoh16 header.payload_length))

/-- What `udp_checksum` adds for the payload. -/
def sumPayload (payload : List UInt8) : ℕ :=
  if payload.length % 2 = 0 then sum16 payload
  else
    sum16 (payload.take (payload.length - 1)) +
      ntoh16 (hton16 ((payload.getD (payload.length - 1) 0).toNat <<< 8))

/-- The checksum of a datagram with what stands for the header below it. -/
def checksumWith (pseudo : List (List UInt8)) (header : UdpHeader) (payload : List UInt8) :
    BitVec 16 :=
  let t := foldSum ((pseudo.map sum16).sum + sum16 header.bytes + sumPayload payload)
  let t := if t = 0 then 65535 else t
  hton16 (65535 - t)

/-- What `udp_checksum` adds first. -/
def pseudo4 (source_addr dest_addr : BitVec 32) (payload_len : ℕ) : List (List UInt8) :=
  [leBytes 4 source_addr.toNat, leBytes 4 dest_addr.toNat, leBytes 2 (hton16 protocolUdp).toNat,
    leBytes 2 (hton16 (8 + payload_len)).toNat]

/-- What `udp_ip6_checksum` adds first. -/
def pseudo6 (source_addr dest_addr : BitVec 128) (payload_len : ℕ) : List (List UInt8) :=
  [leBytes 16 source_addr.toNat, leBytes 16 dest_addr.toNat,
    leBytes 4 (hton32 (8 + payload_len)).toNat, leBytes 4 (hton32 protocolUdp).toNat]

/-- `udp_checksum` -/
def udpChecksum (header : UdpHeader) (payload : List UInt8) (source_addr dest_addr : BitVec 32) :
    BitVec 16 :=
  checksumWith (pseudo4 source_addr dest_addr payload.length) header payload

/-- `udp_ip6_checksum` -/
def udpIp6Checksum (header : UdpHeader) (payload : List UInt8)
    (source_addr dest_addr : BitVec 128) : BitVec 16 :=
  checksumWith (pseudo6 source_addr dest_addr payload.length) header payload

/-- `udp_check`: the header and the payload -/
def udpCheck (data : List UInt8) : Option (UdpHeader × List UInt8) :=
  match UdpHeader.read data with
  | none => none
  | some (header, rest) =>
    let udp_length := ntoh16 header.length
    if udp_length < 8 then none
    else if udp_length > 8 + rest.length then none
    -- ignore stray data
    else some (header, rest.take (udp_length - 8))

/-! ## 4. From the device and to it -/

/-- What `tun2socks` was started with, as far as it matters here. -/
structure TunOptions where
  /-- whether `udpgw_remote_server_addr` is given -/
  udpgw : Bool
  udpgw_transparent_dns : Bool
  /-- whether `netif_ip6addr` is given -/
  ip6 : Bool
  /-- `netif_ipaddr.ipv4` -/
  netif_ipaddr : BitVec 32
  /-- `BTap_GetMTU(&device)` -/
  mtu : ℤ

/-- `udp_mtu`, as `run` sets it -/
def TunOptions.udp_mtu (o : TunOptions) : ℤ :=
  let udp_mtu := o.mtu - 28
  let udp_mtu := if o.ip6 then max udp_mtu (o.mtu - 48) else udp_mtu
  max udp_mtu 0

/-- What is submitted to the gateway. -/
structure Submitted where
  local_addr : BAddr
  remote_addr : BAddr
  is_dns : Bool
  data : List UInt8
deriving DecidableEq

/-- `process_device_udp_packet` with an IPv4 packet, up to the check of the length -/
def processIpv4 (o : TunOptions) (data : List UInt8) : Option Submitted :=
  -- ignore non-UDP packets
  if data.length < 20 ∨ (data.getD 9 0).toNat ≠ protocolUdp then none
  else do
    let (iph, rest) ← ipv4Check data
    let (udph, payload) ← udpCheck rest
    -- verify UDP checksum
    if udph.checksum ≠ udpChecksum { udph with checksum := 0 } payload iph.source_address
        iph.destination_address then none
    else
      return {
        local_addr := .ipv4 iph.source_address udph.source_port
        remote_addr := .ipv4 iph.destination_address udph.dest_port
        is_dns := o.udpgw_transparent_dns && iph.destination_address = o.netif_ipaddr &&
          udph.dest_port = hton16 53
        data := payload }

/-- The same with an IPv6 packet. -/
def processIpv6 (o : TunOptions) (data : List UInt8) : Option Submitted :=
  -- ignore if IPv6 support is disabled
  if o.ip6 = false then none
  -- ignore non-UDP packets
  else if data.length < 40 ∨ (data.getD 6 0).toNat ≠ protocolUdp then none
  else do
    let (iph, rest) ← ipv6Check data
    let (udph, payload) ← udpCheck rest
    -- verify UDP checksum
    if udph.checksum ≠ udpIp6Checksum { udph with checksum := 0 } payload iph.source_address
        iph.destination_address then none
    else
      return {
        local_addr := .ipv6 iph.source_address udph.source_port
        remote_addr := .ipv6 iph.destination_address udph.dest_port
        is_dns := false
        data := payload }

/-- `process_device_udp_packet` -/
def processDeviceUdpPacket (o : TunOptions) (data : List UInt8) : Option Submitted :=
  -- do nothing if we don't have udpgw
  if o.udpgw = false then none
  else
    let ip_version := if data.length > 0 then (data.getD 0 0).toNat / 16 else 0
    (if ip_version = 4 then processIpv4 o data
      else if ip_version = 6 then processIpv6 o data
      else none).filter fun p => (p.data.length : ℤ) ≤ o.udp_mtu

/-- The IPv4 header of a packet for the device. -/
def ipv4For (source destination : BitVec 32) (data_len : ℕ) : Ipv4Header :=
  let iph : Ipv4Header := {
    version4_ihl4 := UInt8.ofNat (20 / 4 + (4 <<< 4))
    ds := 0
    total_length := hton16 (20 + 8 + data_len)
    identification := hton16 0
    flags3_fragmentoffset13 := hton16 0
    ttl := 64
    protocol := 17
    checksum := hton16 0
    source_address := source
    destination_address := destination }
  { iph with checksum := ipv4Checksum iph [] }

/-- The IPv6 header of a packet for the device. -/
def ipv6For (source destination : BitVec 128) (data_len : ℕ) : Ipv6Header where
  version4_tc4 := UInt8.ofNat (6 <<< 4)
  tc4_fl4 := 0
  fl := hton16 0
  payload_length := hton16 (8 + data_len)
  next_header := 17
  hop_limit := 64
  source_address := source
  destination_address := destination

/-- The UDP header of a packet for the device, before its checksum. -/
def udpFor (source dest : BitVec 16) (data_len : ℕ) : UdpHeader where
  source_port := source
  dest_port := dest
  length := hton16 (8 + data_len)
  checksum := hton16 0

/-- `udpgw_client_handler_received`: the packet for the device; `none` where it is dropped, or the
two addresses are not of one kind -/
def udpgwClientHandlerReceived (o : TunOptions) (local_addr remote_addr : BAddr)
    (data : List UInt8) : Option (List UInt8) :=
  match local_addr, remote_addr with
  | .ipv4 ip port, .ipv4 remote_ip remote_port =>
    -- packet is too large
    if (data.length : ℤ) > 65535 - (20 + 8) ∨ (data.length : ℤ) > o.mtu - (20 + 8) then none
    else
      let iph := ipv4For remote_ip ip data.length
      let udph := udpFor remote_port port data.length
      let udph := { udph with checksum := udpChecksum udph data remote_ip ip }
      some (iph.bytes ++ (udph.bytes ++ data))
  | .ipv6 ip port, .ipv6 remote_ip remote_port =>
    -- IPv6 is disabled
    if o.ip6 = false then none
    -- packet is too large
    else if (data.length : ℤ) > 65535 - 8 ∨ (data.length : ℤ) > o.mtu - (40 + 8) then none
    else
      let iph := ipv6For remote_ip ip data.length
      let udph := udpFor remote_port port data.length
      let udph := { udph with checksum := udpIp6Checksum udph data remote_ip ip }
      some (iph.bytes ++ (udph.bytes ++ data))
  | _, _ => none

end ShiroKhorshid.Tun
