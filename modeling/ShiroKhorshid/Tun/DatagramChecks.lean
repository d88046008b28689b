/-
# What is accepted from the device

A packet is accepted exactly when it is the headers, the options and the data that are read from
it, with lengths that agree, and the sums of the IPv4 header and of the datagram fold to all ones;
but not when a checksum is all ones itself (`processDeviceUdpPacket_eq_some_iff`).  A sender that
follows the protocol writes just that where the checksum comes out as zero, so that one datagram in
sixty-five thousand or so is refused.

* **Sums.**  The sum of 16-bit words is taken apart at any even place (`sum16_append`) and bounded
  by the length (`sum16_le`); so the folded sum is the ones' complement sum, and the check
  of a checksum is that everything sums to all ones (`ipv4Checksum_iff`, `checksumWith_iff`).
* **Headers.**  Reading a header and writing it again gives the bytes back, and the other way round;
  so an accepted packet is the concatenation of what was read from it.
* **The three checks** are each an equivalence (`ipv4Check_eq_some_iff` and its siblings), and the
  result for a whole packet is their composition, once for IPv4 and once for IPv6.

Every packet that is built for the device is accepted, with the addresses and the data it was built
for, turned round (`device_round_trip`): the lengths fit because the data was let in by `udp_mtu`.

It is not claimed that a packet which is accepted was meant for UDP at the sender, nor that options
of an IPv4 header are well formed: they are passed over, as in the source.
-/
import ShiroKhorshid.Tun.Datagram

namespace ShiroKhorshid.Tun

open Bytes OnesComplement

/-! ## 1. Numbers in memory -/

theorem leBytes_load {k w : ℕ} (hw : 256 ^ k = 2 ^ w) {bs : List UInt8} (hlen : bs.length = k) :
    leBytes k (load w bs).toNat = bs :=
  leBytes_ofNat_ofLe hw hlen

theorem load_leBytes {k w : ℕ} (hw : 256 ^ k = 2 ^ w) (x : BitVec w) :
    load w (leBytes k x.toNat) = x :=
  ofNat_ofLe_leBytes hw x

theorem leBytes_hton16 (x : ℕ) : leBytes 2 (hton16 x).toNat = beBytes 2 x :=
  leBytes_load (by norm_num) (length_beBytes 2 x)

theorem leBytes_hton32 (x : ℕ) : leBytes 4 (hton32 x).toNat = beBytes 4 x :=
  leBytes_load (by norm_num) (length_beBytes 4 x)

theorem ntoh16_hton16 {x : ℕ} (h : x < 65536) : ntoh16 (hton16 x) = x := by
  rw [ntoh16, leBytes_hton16, ofBe_beBytes (by norm_num; exact h)]

theorem ntoh16_lt (x : BitVec 16) : ntoh16 x < 65536 := by
  have h := ofBe_lt (leBytes 2 x.toNat)
  rw [length_leBytes] at h
  norm_num at h
  exact h

theorem hton16_ntoh16 (x : BitVec 16) : hton16 (ntoh16 x) = x := by
  have hbytes : beBytes 2 (ofBe (leBytes 2 x.toNat)) = leBytes 2 x.toNat := by
    have h := beBytes_ofBe (leBytes 2 x.toNat)
    rwa [length_leBytes] at h
  rw [hton16, ntoh16, hbytes]
  exact load_leBytes (by norm_num) x

theorem eq_hton16_iff {x : BitVec 16} {y : ℕ} (hy : y < 65536) : x = hton16 y ↔ ntoh16 x = y := by
  constructor
  · rintro rfl
    exact ntoh16_hton16 hy
  · rintro rfl
    exact (hton16_ntoh16 x).symm

/-! ## 2. Sums -/

theorem sum16_cons_cons (a b : UInt8) (l : List UInt8) :
    sum16 (a :: b :: l) = 256 * a.toNat + b.toNat + sum16 l := rfl

theorem sum16_append {l : List UInt8} (h : l.length % 2 = 0) (l' : List UInt8) :
    sum16 (l ++ l') = sum16 l + sum16 l' := by
  induction l using sum16.induct with
  | case1 a b rest ih =>
    have hrest : rest.length % 2 = 0 := by
      simp only [List.length_cons] at h
      omega
    rw [List.cons_append, List.cons_append, sum16_cons_cons, sum16_cons_cons, ih hrest]
    omega
  | case2 l hl =>
    match l with
    | [] => simp [sum16]
    | [_] => simp at h
    | a :: b :: rest => exact absurd rfl (hl a b rest)

theorem sum16_le (l : List UInt8) : sum16 l ≤ 65535 * (l.length / 2) := by
  induction l using sum16.induct with
  | case1 a b rest ih =>
    have ha := a.toNat_lt
    have hb := b.toNat_lt
    have hlen : (a :: b :: rest).length / 2 = rest.length / 2 + 1 := by
      simp only [List.length_cons]
      omega
    rw [sum16_cons_cons, hlen, Nat.mul_add]
    omega
  | case2 l hl =>
    match l with
    | [] => simp [sum16]
    | [_] => simp [sum16]
    | a :: b :: rest => exact absurd rfl (hl a b rest)

/-- A number of two bytes counts as what it is on the wire. -/
theorem sum16_word (x : BitVec 16) (l : List UInt8) :
    sum16 (leBytes 2 x.toNat ++ l) = ntoh16 x + sum16 l := by
  have hword : sum16 (leBytes 2 x.toNat) = ntoh16 x := by
    show 256 * (UInt8.ofNat x.toNat).toNat + (UInt8.ofNat (x.toNat / 256)).toNat + 0 =
      (UInt8.ofNat (x.toNat / 256)).toNat + 256 * ((UInt8.ofNat x.toNat).toNat + 256 * 0)
    omega
  rw [sum16_append (by rw [length_leBytes]), hword]

/-! ## 3. Headers -/

theorem Ipv4Header.read_bytes (h : Ipv4Header) (rest : List UInt8) :
    Ipv4Header.read (h.bytes ++ rest) = some (h, rest) := by
  have hword : ∀ x : BitVec 16, load 16 (leBytes 2 x.toNat) = x := load_leBytes (by norm_num)
  have haddr : ∀ x : BitVec 32, load 32 (leBytes 4 x.toNat) = x := load_leBytes (by norm_num)
  show some ((⟨h.version4_ihl4, h.ds, load 16 (leBytes 2 h.total_length.toNat),
    load 16 (leBytes 2 h.identification.toNat), load 16 (leBytes 2 h.flags3_fragmentoffset13.toNat),
    h.ttl, h.protocol, load 16 (leBytes 2 h.checksum.toNat),
    load 32 (leBytes 4 h.source_address.toNat),
    load 32 (leBytes 4 h.destination_address.toNat)⟩ : Ipv4Header), rest) = _
  rw [hword, hword, hword, hword, haddr, haddr]

theorem Ipv4Header.eq_of_read {data rest : List UInt8} {h : Ipv4Header}
    (hread : Ipv4Header.read data = some (h, rest)) : data = h.bytes ++ rest := by
  have hword : ∀ a b : UInt8, leBytes 2 (load 16 [a, b]).toNat = [a, b] := fun a b =>
    leBytes_load (by norm_num) rfl
  have haddr : ∀ a b c d : UInt8, leBytes 4 (load 32 [a, b, c, d]).toNat = [a, b, c, d] :=
    fun a b c d => leBytes_load (by norm_num) rfl
  unfold Ipv4Header.read at hread
  split at hread
  · obtain ⟨rfl, rfl⟩ := Prod.mk.inj (Option.some.inj hread)
    simp only [Ipv4Header.bytes, hword, haddr]
    rfl
  · cases hread

theorem Ipv6Header.read_bytes (h : Ipv6Header) (rest : List UInt8) :
    Ipv6Header.read (h.bytes ++ rest) = some (h, rest) := by
  have hword : ∀ x : BitVec 16, load 16 (leBytes 2 x.toNat) = x := load_leBytes (by norm_num)
  have haddr : ∀ x : BitVec 128, load 128 (leBytes 16 x.toNat) = x := load_leBytes (by norm_num)
  obtain ⟨r, hr⟩ : ∃ r, r = leBytes 16 h.source_address.toNat ++
      (leBytes 16 h.destination_address.toNat ++ rest) := ⟨_, rfl⟩
  have hbytes : h.bytes ++ rest = h.version4_tc4 :: h.tc4_fl4 :: (leBytes 2 h.fl.toNat ++
      (leBytes 2 h.payload_length.toNat ++ (h.next_header :: h.hop_limit :: r))) := by
    rw [hr, Ipv6Header.bytes]
    simp only [List.cons_append, List.append_assoc]
  have hlen : ¬ r.length < 32 := by
    rw [hr]
    simp only [List.length_append, length_leBytes]
    omega
  have htake : r.take 16 = leBytes 16 h.source_address.toNat := by
    rw [hr]
    exact List.take_left' (length_leBytes 16 _)
  have hdrop : r.drop 16 = leBytes 16 h.destination_address.toNat ++ rest := by
    rw [hr]
    exact List.drop_left' (length_leBytes 16 _)
  have hrest : r.drop 32 = rest := by
    have hsplit : r.drop 32 = (r.drop 16).drop 16 := by rw [List.drop_drop]
    rw [hsplit, hdrop]
    exact List.drop_left' (length_leBytes 16 _)
  rw [hbytes]
  show (if r.length < 32 then none else some ((⟨h.version4_tc4, h.tc4_fl4,
    load 16 (leBytes 2 h.fl.toNat), load 16 (leBytes 2 h.payload_length.toNat), h.next_header,
    h.hop_limit, load 128 (r.take 16), load 128 ((r.drop 16).take 16)⟩ : Ipv6Header),
    r.drop 32)) = _
  rw [if_neg hlen, htake, hdrop, hrest, List.take_left' (length_leBytes 16 _), hword, hword, haddr,
    haddr]

theorem Ipv6Header.eq_of_read {data rest : List UInt8} {h : Ipv6Header}
    (hread : Ipv6Header.read data = some (h, rest)) : data = h.bytes ++ rest := by
  have hword : ∀ a b : UInt8, leBytes 2 (load 16 [a, b]).toNat = [a, b] := fun a b =>
    leBytes_load (by norm_num) rfl
  unfold Ipv6Header.read at hread
  split at hread
  · rename_i v t f₀ f₁ l₀ l₁ n hop r
    split at hread
    · cases hread
    · rename_i hlen
      obtain ⟨rfl, rfl⟩ := Prod.mk.inj (Option.some.inj hread)
      have hsource : leBytes 16 (load 128 (r.take 16)).toNat = r.take 16 :=
        leBytes_load (by norm_num) (by rw [List.length_take]; omega)
      have hdest : leBytes 16 (load 128 ((r.drop 16).take 16)).toNat = (r.drop 16).take 16 :=
        leBytes_load (by norm_num) (by rw [List.length_take, List.length_drop]; omega)
      have hcut : r.take 16 ++ ((r.drop 16).take 16 ++ r.drop 32) = r := by
        have hsplit : r.drop 32 = (r.drop 16).drop 16 := by rw [List.drop_drop]
        rw [hsplit, List.take_append_drop, List.take_append_drop]
      simp only [Ipv6Header.bytes, hword, hsource, hdest, List.cons_append, List.append_assoc,
        List.nil_append, hcut]
  · cases hread

theorem UdpHeader.read_bytes (h : UdpHeader) (rest : List UInt8) :
    UdpHeader.read (h.bytes ++ rest) = some (h, rest) := by
  have hword : ∀ x : BitVec 16, load 16 (leBytes 2 x.toNat) = x := load_leBytes (by norm_num)
  show some ((⟨load 16 (leBytes 2 h.source_port.toNat), load 16 (leBytes 2 h.dest_port.toNat),
    load 16 (leBytes 2 h.length.toNat), load 16 (leBytes 2 h.checksum.toNat)⟩ : UdpHeader),
    rest) = _
  rw [hword, hword, hword, hword]

theorem UdpHeader.eq_of_read {data rest : List UInt8} {h : UdpHeader}
    (hread : UdpHeader.read data = some (h, rest)) : data = h.bytes ++ rest := by
  have hword : ∀ a b : UInt8, leBytes 2 (load 16 [a, b]).toNat = [a, b] := fun a b =>
    leBytes_load (by norm_num) rfl
  unfold UdpHeader.read at hread
  split at hread
  · obtain ⟨rfl, rfl⟩ := Prod.mk.inj (Option.some.inj hread)
    simp only [UdpHeader.bytes, hword]
    rfl
  · cases hread

@[simp] theorem Ipv4Header.length_bytes (h : Ipv4Header) : h.bytes.length = 20 := by
  simp [Ipv4Header.bytes]

@[simp] theorem Ipv6Header.length_bytes (h : Ipv6Header) : h.bytes.length = 40 := by
  simp [Ipv6Header.bytes]

@[simp] theorem UdpHeader.length_bytes (h : UdpHeader) : h.bytes.length = 8 := by
  simp [UdpHeader.bytes]

/-- The checksum counts like any other word. -/
theorem Ipv4Header.sum16_bytes (h : Ipv4Header) :
    sum16 h.bytes = sum16 ({ h with checksum := hton16 0 } : Ipv4Header).bytes +
      ntoh16 h.checksum := by
  have hzero : ntoh16 (hton16 0) = 0 := ntoh16_hton16 (by omega)
  simp only [Ipv4Header.bytes, sum16_cons_cons, sum16_word, hzero]
  omega

theorem UdpHeader.sum16_bytes (h : UdpHeader) :
    sum16 h.bytes = sum16 ({ h with checksum := 0 } : UdpHeader).bytes + ntoh16 h.checksum := by
  have hzero : ntoh16 0 = 0 := by decide
  have hlast : ∀ x : BitVec 16, sum16 (leBytes 2 x.toNat) = ntoh16 x := fun x => by
    have hword := sum16_word x []
    rwa [List.append_nil] at hword
  simp only [UdpHeader.bytes, sum16_word, hlast, hzero]
  omega

/-! ## 4. Checksums -/

theorem foldSum_of_lt {t : ℕ} (h : t < 2 ^ 32) : foldSum t = fold 65536 t := by
  rw [foldSum, Nat.mod_eq_of_lt h]

/-- The check of a sum that is not zero and fits in 32 bits. -/
theorem eq_hton16_foldSum_iff {t : ℕ} (hpos : 0 < t) (hlt : t < 2 ^ 32) (c : BitVec 16) :
    c = hton16 (65535 - foldSum t) ↔ fold 65536 (t + ntoh16 c) = 65535 ∧ ntoh16 c ≠ 65535 := by
  have hc := ntoh16_lt c
  rw [eq_hton16_iff (by omega), foldSum_of_lt hlt]
  exact eq_complement_iff (by omega : 2 < 65536) hpos (by omega)

/-- **The check of the IPv4 header.** -/
theorem ipv4Checksum_iff {h : Ipv4Header} (hversion : h.version = 4) {options : List UInt8}
    (hoptions : options.length ≤ 40) :
    h.checksum = ipv4Checksum { h with checksum := hton16 0 } options ↔
      fold 65536 (sum16 h.bytes + sum16 options) = 65535 ∧ ntoh16 h.checksum ≠ 65535 := by
  obtain ⟨k, hk⟩ : ∃ k : Ipv4Header, k = { h with checksum := hton16 0 } := ⟨_, rfl⟩
  have hsum := h.sum16_bytes
  have hle := sum16_le k.bytes
  have hle' := sum16_le options
  rw [Ipv4Header.length_bytes] at hle
  -- the first byte is not zero
  have hpos : 0 < sum16 k.bytes := by
    have hfirst : h.version4_ihl4.toNat / 16 = 4 := hversion
    have hbytes : sum16 k.bytes = 256 * h.version4_ihl4.toNat + h.ds.toNat +
        sum16 (k.bytes.drop 2) := by
      rw [hk]
      rfl
    omega
  rw [← hk] at hsum ⊢
  have hadd : sum16 h.bytes + sum16 options =
      sum16 k.bytes + sum16 options + ntoh16 h.checksum := by omega
  rw [ipv4Checksum, hadd]
  exact eq_hton16_foldSum_iff (by omega) (by omega) h.checksum

theorem sumPayload_le (payload : List UInt8) :
    sumPayload payload ≤ 65535 * (payload.length / 2 + 1) := by
  rw [sumPayload]
  split
  · have hle := sum16_le payload
    omega
  · rename_i hodd
    have hle := sum16_le (payload.take (payload.length - 1))
    have hlt := ntoh16_lt (hton16 ((payload.getD (payload.length - 1) 0).toNat <<< 8))
    have hlen : (payload.take (payload.length - 1)).length / 2 = payload.length / 2 := by
      rw [List.length_take]
      omega
    rw [hlen] at hle
    omega

/-- **The check of a datagram**, whatever stands for the header below it, if it says the
protocol. -/
theorem checksumWith_iff {pseudo : List (List UInt8)} (hpos : 0 < (pseudo.map sum16).sum)
    (hlt : (pseudo.map sum16).sum ≤ 65535 * 20) (h : UdpHeader) {payload : List UInt8}
    (hlen : payload.length ≤ 65535) :
    h.checksum = checksumWith pseudo { h with checksum := 0 } payload ↔
      fold 65536 ((pseudo.map sum16).sum + sum16 h.bytes + sumPayload payload) = 65535 ∧
        ntoh16 h.checksum ≠ 65535 := by
  obtain ⟨k, hk⟩ : ∃ k : UdpHeader, k = { h with checksum := 0 } := ⟨_, rfl⟩
  obtain ⟨t, ht⟩ : ∃ t, t = (pseudo.map sum16).sum + sum16 k.bytes + sumPayload payload :=
    ⟨_, rfl⟩
  have hsum := h.sum16_bytes
  have hle := sum16_le k.bytes
  have hle' := sumPayload_le payload
  rw [UdpHeader.length_bytes] at hle
  rw [← hk] at hsum ⊢
  have hbound : 65535 * (payload.length / 2 + 1) ≤ 65535 * 32768 :=
    Nat.mul_le_mul_left _ (by omega)
  have htlt : t < 2 ^ 32 := by omega
  have htpos : 0 < t := by omega
  have hfold : foldSum t ≠ 0 := by
    rw [foldSum_of_lt htlt, ne_eq, fold_eq_zero_iff (by omega)]
    omega
  have hadd : (pseudo.map sum16).sum + sum16 h.bytes + sumPayload payload =
      t + ntoh16 h.checksum := by omega
  rw [checksumWith, ← ht, if_neg hfold, hadd]
  exact eq_hton16_foldSum_iff htpos htlt h.checksum

theorem sum16_beBytes_two {x : ℕ} (h : x < 65536) : sum16 (leBytes 2 (hton16 x).toNat) = x := by
  have hword := sum16_word (hton16 x) []
  rw [List.append_nil, ntoh16_hton16 h] at hword
  exact hword

theorem pseudo4_bounds (source dest : BitVec 32) {len : ℕ} :
    0 < ((pseudo4 source dest len).map sum16).sum ∧
      ((pseudo4 source dest len).map sum16).sum ≤ 65535 * 20 := by
  have hprotocol : sum16 (leBytes 2 (hton16 protocolUdp).toNat) = 17 :=
    sum16_beBytes_two (by decide)
  have hsource := sum16_le (leBytes 4 source.toNat)
  have hdest := sum16_le (leBytes 4 dest.toNat)
  have hlen := sum16_le (leBytes 2 (hton16 (8 + len)).toNat)
  rw [length_leBytes] at hsource hdest hlen
  simp only [pseudo4, List.map_cons, List.map_nil, List.sum_cons, List.sum_nil, hprotocol]
  omega

theorem pseudo6_bounds (source dest : BitVec 128) {len : ℕ} :
    0 < ((pseudo6 source dest len).map sum16).sum ∧
      ((pseudo6 source dest len).map sum16).sum ≤ 65535 * 20 := by
  have hprotocol : sum16 (leBytes 4 (hton32 protocolUdp).toNat) = 17 := by
    rw [leBytes_hton32]
    decide
  have hsource := sum16_le (leBytes 16 source.toNat)
  have hdest := sum16_le (leBytes 16 dest.toNat)
  have hlen := sum16_le (leBytes 4 (hton32 (8 + len)).toNat)
  rw [length_leBytes] at hsource hdest hlen
  simp only [pseudo6, List.map_cons, List.map_nil, List.sum_cons, List.sum_nil, hprotocol]
  omega

/-! ## 5. What is read from a packet -/

/-- **What `ipv4_check` accepts.** -/
theorem ipv4Check_eq_some_iff {data payload : List UInt8} {iph : Ipv4Header} :
    ipv4Check data = some (iph, payload) ↔ ∃ options rest,
      data = iph.bytes ++ (options ++ (payload ++ rest)) ∧ iph.version = 4 ∧
      iph.ihl * 4 = 20 + options.length ∧
      ntoh16 iph.total_length = 20 + options.length + payload.length ∧
      fold 65536 (sum16 iph.bytes + sum16 options) = 65535 ∧ ntoh16 iph.checksum ≠ 65535 := by
  have hihl : iph.ihl * 4 ≤ 60 := by
    rw [Ipv4Header.ihl]
    omega
  constructor
  · intro h
    rw [ipv4Check] at h
    split at h
    · cases h
    · rename_i header rest₀ hread
      have hdata := Ipv4Header.eq_of_read hread
      have hlen : data.length = 20 + rest₀.length := by
        rw [hdata, List.length_append, Ipv4Header.length_bytes]
      simp only at h
      split at h
      · cases h
      rename_i hversion
      split at h
      · cases h
      rename_i hmin
      split at h
      · cases h
      rename_i hheader
      split at h
      · cases h
      rename_i htotal
      split at h
      · cases h
      rename_i hfits
      split at h
      · cases h
      rename_i hchecksum
      obtain ⟨rfl, rfl⟩ := Prod.mk.inj (Option.some.inj h)
      rw [not_not] at hversion hchecksum
      have hoptions : (rest₀.take (header.ihl * 4 - 20)).length = header.ihl * 4 - 20 := by
        rw [List.length_take]
        omega
      have hdrop : data.drop (header.ihl * 4) = rest₀.drop (header.ihl * 4 - 20) := by
        have hsplit : header.ihl * 4 = header.bytes.length + (header.ihl * 4 - 20) := by
          rw [Ipv4Header.length_bytes]
          omega
        calc data.drop (header.ihl * 4)
            = (header.bytes ++ rest₀).drop (header.bytes.length + (header.ihl * 4 - 20)) := by
              rw [← hdata, ← hsplit]
          _ = rest₀.drop (header.ihl * 4 - 20) := List.drop_length_add_append _
      have hpayload : ((data.drop (header.ihl * 4)).take
          (ntoh16 header.total_length - header.ihl * 4)).length =
            ntoh16 header.total_length - header.ihl * 4 := by
        rw [List.length_take, List.length_drop]
        omega
      refine ⟨rest₀.take (header.ihl * 4 - 20), (data.drop (header.ihl * 4)).drop
        (ntoh16 header.total_length - header.ihl * 4), ?_, hversion, by omega, by omega,
        (ipv4Checksum_iff hversion (by omega)).mp hchecksum⟩
      rw [List.take_append_drop, hdrop, List.take_append_drop]
      exact hdata
  · rintro ⟨options, rest, rfl, hversion, hlen, htotal, hsum⟩
    have hoptions : options.length ≤ 40 := by omega
    have hcut : iph.ihl * 4 - 20 = options.length := by omega
    have hdrop : (iph.bytes ++ (options ++ (payload ++ rest))).drop (iph.ihl * 4) =
        payload ++ rest := by
      rw [← List.append_assoc]
      refine List.drop_left' ?_
      rw [List.length_append, Ipv4Header.length_bytes]
      exact hlen.symm
    have hall : (iph.bytes ++ (options ++ (payload ++ rest))).length =
        20 + (options.length + (payload.length + rest.length)) := by
      rw [List.length_append, List.length_append, List.length_append, Ipv4Header.length_bytes]
    rw [ipv4Check, Ipv4Header.read_bytes]
    simp only
    rw [if_neg (not_not.mpr hversion), if_neg (by omega), if_neg (by omega), if_neg (by omega),
      if_neg (by omega), hcut, List.take_left' rfl,
      if_neg (not_not.mpr ((ipv4Checksum_iff hversion hoptions).mpr hsum)), hdrop,
      List.take_left' (by omega)]

/-- **What `ipv6_check` accepts.** -/
theorem ipv6Check_eq_some_iff {data payload : List UInt8} {iph : Ipv6Header} :
    ipv6Check data = some (iph, payload) ↔ ∃ rest, data = iph.bytes ++ (payload ++ rest) ∧
      iph.version4_tc4.toNat / 16 = 6 ∧ ntoh16 iph.payload_length = payload.length := by
  constructor
  · intro h
    rw [ipv6Check] at h
    split at h
    · cases h
    · rename_i header rest₀ hread
      have hdata := Ipv6Header.eq_of_read hread
      split at h
      · cases h
      rename_i hversion
      split at h
      · cases h
      rename_i hlen
      obtain ⟨rfl, rfl⟩ := Prod.mk.inj (Option.some.inj h)
      refine ⟨rest₀.drop (ntoh16 header.payload_length), ?_, not_not.mp hversion, ?_⟩
      · rw [List.take_append_drop]
        exact hdata
      · rw [List.length_take]
        omega
  · rintro ⟨rest, rfl, hversion, hlen⟩
    rw [ipv6Check, Ipv6Header.read_bytes]
    simp only
    rw [if_neg (not_not.mpr hversion), if_neg, hlen, List.take_left' rfl]
    rw [List.length_append]
    omega

/-- **What `udp_check` accepts.** -/
theorem udpCheck_eq_some_iff {data payload : List UInt8} {udph : UdpHeader} :
    udpCheck data = some (udph, payload) ↔ ∃ stray, data = udph.bytes ++ (payload ++ stray) ∧
      ntoh16 udph.length = 8 + payload.length := by
  constructor
  · intro h
    rw [udpCheck] at h
    split at h
    · cases h
    · rename_i header rest₀ hread
      have hdata := UdpHeader.eq_of_read hread
      simp only at h
      split at h
      · cases h
      rename_i hmin
      split at h
      · cases h
      rename_i hlen
      obtain ⟨rfl, rfl⟩ := Prod.mk.inj (Option.some.inj h)
      refine ⟨rest₀.drop (ntoh16 header.length - 8), ?_, ?_⟩
      · rw [List.take_append_drop]
        exact hdata
      · rw [List.length_take]
        omega
  · rintro ⟨stray, rfl, hlen⟩
    have hcut : ntoh16 udph.length - 8 = payload.length := by omega
    rw [udpCheck, UdpHeader.read_bytes]
    simp only
    rw [if_neg (by omega), if_neg, hcut, List.take_left' rfl]
    rw [List.length_append]
    omega

/-! ## 6. What is accepted -/

/-- The bytes of a datagram below the IP header, and what the IP payload has besides. -/
def udpBytes (udph : UdpHeader) (payload stray : List UInt8) : List UInt8 :=
  udph.bytes ++ (payload ++ stray)

/-- A UDP datagram in an IPv4 packet.  Nothing is said about fragments. -/
structure Ipv4Datagram (iph : Ipv4Header) (options : List UInt8) (udph : UdpHeader)
    (payload stray : List UInt8) : Prop where
  version : iph.version = 4
  ihl : iph.ihl * 4 = 20 + options.length
  total_length : ntoh16 iph.total_length =
    20 + options.length + (udpBytes udph payload stray).length
  protocol : iph.protocol.toNat = protocolUdp
  sum : fold 65536 (sum16 iph.bytes + sum16 options) = 65535
  length : ntoh16 udph.length = 8 + payload.length
  udp_sum : fold 65536 (((pseudo4 iph.source_address iph.destination_address
    payload.length).map sum16).sum + sum16 udph.bytes + sumPayload payload) = 65535

/-- A UDP datagram in an IPv6 packet. -/
structure Ipv6Datagram (iph : Ipv6Header) (udph : UdpHeader) (payload stray : List UInt8) :
    Prop where
  version : iph.version4_tc4.toNat / 16 = 6
  payload_length : ntoh16 iph.payload_length = (udpBytes udph payload stray).length
  next_header : iph.next_header.toNat = protocolUdp
  length : ntoh16 udph.length = 8 + payload.length
  udp_sum : fold 65536 (((pseudo6 iph.source_address iph.destination_address
    payload.length).map sum16).sum + sum16 udph.bytes + sumPayload payload) = 65535

/-- `data` is a UDP datagram in an IPv4 packet, and `p` what it says; its checksums are not all
ones. -/
def AcceptedIpv4 (o : TunOptions) (data : List UInt8) (p : Submitted) : Prop :=
  ∃ iph options udph stray rest,
    data = iph.bytes ++ (options ++ (udpBytes udph p.data stray ++ rest)) ∧
    Ipv4Datagram iph options udph p.data stray ∧
    ntoh16 iph.checksum ≠ 65535 ∧ ntoh16 udph.checksum ≠ 65535 ∧
    p.local_addr = .ipv4 iph.source_address udph.source_port ∧
    p.remote_addr = .ipv4 iph.destination_address udph.dest_port ∧
    p.is_dns = (o.udpgw_transparent_dns && iph.destination_address = o.netif_ipaddr &&
      udph.dest_port = hton16 53)

/-- The same of an IPv6 packet, where only the datagram has a checksum. -/
def AcceptedIpv6 (data : List UInt8) (p : Submitted) : Prop :=
  ∃ iph udph stray rest,
    data = iph.bytes ++ (udpBytes udph p.data stray ++ rest) ∧
    Ipv6Datagram iph udph p.data stray ∧ ntoh16 udph.checksum ≠ 65535 ∧
    p.local_addr = .ipv6 iph.source_address udph.source_port ∧
    p.remote_addr = .ipv6 iph.destination_address udph.dest_port ∧ p.is_dns = false

theorem length_udpBytes (udph : UdpHeader) (payload stray : List UInt8) :
    (udpBytes udph payload stray).length = 8 + (payload.length + stray.length) := by
  rw [udpBytes, List.length_append, List.length_append, UdpHeader.length_bytes]

theorem Ipv4Header.getD_bytes_nine (h : Ipv4Header) (rest : List UInt8) :
    (h.bytes ++ rest).getD 9 0 = h.protocol := rfl

theorem Ipv6Header.getD_bytes_six (h : Ipv6Header) (rest : List UInt8) :
    (h.bytes ++ rest).getD 6 0 = h.next_header := rfl

theorem udpChecksum_iff (source dest : BitVec 32) (udph : UdpHeader) {payload : List UInt8}
    (hlen : payload.length ≤ 65535) :
    udph.checksum = udpChecksum { udph with checksum := 0 } payload source dest ↔
      fold 65536 (((pseudo4 source dest payload.length).map sum16).sum + sum16 udph.bytes +
        sumPayload payload) = 65535 ∧ ntoh16 udph.checksum ≠ 65535 :=
  checksumWith_iff (pseudo4_bounds source dest).1 (pseudo4_bounds source dest).2 udph hlen

theorem udpIp6Checksum_iff (source dest : BitVec 128) (udph : UdpHeader) {payload : List UInt8}
    (hlen : payload.length ≤ 65535) :
    udph.checksum = udpIp6Checksum { udph with checksum := 0 } payload source dest ↔
      fold 65536 (((pseudo6 source dest payload.length).map sum16).sum + sum16 udph.bytes +
        sumPayload payload) = 65535 ∧ ntoh16 udph.checksum ≠ 65535 :=
  checksumWith_iff (pseudo6_bounds source dest).1 (pseudo6_bounds source dest).2 udph hlen

theorem processIpv4_eq_some_iff {o : TunOptions} {data : List UInt8} {p : Submitted} :
    processIpv4 o data = some p ↔ AcceptedIpv4 o data p := by
  constructor
  · intro h
    rw [processIpv4] at h
    split at h
    · cases h
    rename_i hudp
    rw [not_or, not_not] at hudp
    obtain ⟨⟨iph, below⟩, hcheck, hbelow⟩ := Option.bind_eq_some_iff.mp h
    obtain ⟨⟨udph, payload⟩, hcheck', hsubmit⟩ := Option.bind_eq_some_iff.mp hbelow
    obtain ⟨options, rest, rfl, hversion, hihl, htotal, hsum, hones⟩ :=
      ipv4Check_eq_some_iff.mp hcheck
    obtain ⟨stray, rfl, hlength⟩ := udpCheck_eq_some_iff.mp hcheck'
    simp only at hsubmit
    split at hsubmit
    · cases hsubmit
    rename_i hchecksum
    cases hsubmit
    have hlen : payload.length ≤ 65535 := by
      have hlt := ntoh16_lt udph.length
      omega
    obtain ⟨hsum', hones'⟩ := (udpChecksum_iff _ _ udph hlen).mp (not_not.mp hchecksum)
    exact ⟨iph, options, udph, stray, rest, rfl,
      ⟨hversion, hihl, htotal, hudp.2, hsum, hlength, hsum'⟩, hones, hones', rfl, rfl, rfl⟩
  · rintro ⟨iph, options, udph, stray, rest, rfl, hd, hones, hones', hlocal, hremote, hdns⟩
    have hlen : p.data.length ≤ 65535 := by
      have hlt := ntoh16_lt udph.length
      have hlength := hd.length
      omega
    have hudp : ¬ ((iph.bytes ++ (options ++ (udpBytes udph p.data stray ++ rest))).length < 20 ∨
        ((iph.bytes ++ (options ++ (udpBytes udph p.data stray ++ rest))).getD 9 0).toNat ≠
          protocolUdp) := by
      rw [Ipv4Header.getD_bytes_nine, List.length_append, Ipv4Header.length_bytes, not_or, not_not]
      exact ⟨by omega, hd.protocol⟩
    have hcheck := ipv4Check_eq_some_iff.mpr
      ⟨options, rest, rfl, hd.version, hd.ihl, hd.total_length, hd.sum, hones⟩
    have hcheck' : udpCheck (udpBytes udph p.data stray) = some (udph, p.data) :=
      udpCheck_eq_some_iff.mpr ⟨stray, rfl, hd.length⟩
    have hchecksum := (udpChecksum_iff _ _ udph hlen).mpr ⟨hd.udp_sum, hones'⟩
    rw [processIpv4, if_neg hudp, hcheck]
    simp only [Option.bind_eq_bind, Option.bind_some, hcheck', Option.pure_def]
    rw [if_neg (not_not.mpr hchecksum), ← hlocal, ← hremote, ← hdns]

theorem processIpv6_eq_some_iff {o : TunOptions} {data : List UInt8} {p : Submitted} :
    processIpv6 o data = some p ↔ o.ip6 = true ∧ AcceptedIpv6 data p := by
  constructor
  · intro h
    rw [processIpv6] at h
    split at h
    · cases h
    rename_i hip6
    split at h
    · cases h
    rename_i hudp
    rw [not_or, not_not] at hudp
    obtain ⟨⟨iph, below⟩, hcheck, hbelow⟩ := Option.bind_eq_some_iff.mp h
    obtain ⟨⟨udph, payload⟩, hcheck', hsubmit⟩ := Option.bind_eq_some_iff.mp hbelow
    obtain ⟨rest, rfl, hversion, hlength6⟩ := ipv6Check_eq_some_iff.mp hcheck
    obtain ⟨stray, rfl, hlength⟩ := udpCheck_eq_some_iff.mp hcheck'
    simp only at hsubmit
    split at hsubmit
    · cases hsubmit
    rename_i hchecksum
    cases hsubmit
    have hlen : payload.length ≤ 65535 := by
      have hlt := ntoh16_lt udph.length
      omega
    obtain ⟨hsum', hones'⟩ := (udpIp6Checksum_iff _ _ udph hlen).mp (not_not.mp hchecksum)
    exact ⟨Bool.not_eq_false _ ▸ hip6, iph, udph, stray, rest, rfl,
      ⟨hversion, hlength6, hudp.2, hlength, hsum'⟩, hones', rfl, rfl, rfl⟩
  · rintro ⟨hip6, iph, udph, stray, rest, rfl, hd, hones', hlocal, hremote, hdns⟩
    have hlen : p.data.length ≤ 65535 := by
      have hlt := ntoh16_lt udph.length
      have hlength := hd.length
      omega
    have hudp : ¬ ((iph.bytes ++ (udpBytes udph p.data stray ++ rest)).length < 40 ∨
        ((iph.bytes ++ (udpBytes udph p.data stray ++ rest)).getD 6 0).toNat ≠ protocolUdp) := by
      rw [Ipv6Header.getD_bytes_six, List.length_append, Ipv6Header.length_bytes, not_or, not_not]
      exact ⟨by omega, hd.next_header⟩
    have hcheck := ipv6Check_eq_some_iff.mpr ⟨rest, rfl, hd.version, hd.payload_length⟩
    have hcheck' : udpCheck (udpBytes udph p.data stray) = some (udph, p.data) :=
      udpCheck_eq_some_iff.mpr ⟨stray, rfl, hd.length⟩
    have hchecksum := (udpIp6Checksum_iff _ _ udph hlen).mpr ⟨hd.udp_sum, hones'⟩
    rw [processIpv6, if_neg (by simp [hip6]), if_neg hudp, hcheck]
    simp only [Option.bind_eq_bind, Option.bind_some, hcheck', Option.pure_def]
    rw [if_neg (not_not.mpr hchecksum), ← hlocal, ← hremote, ← hdns]

theorem AcceptedIpv4.version {o : TunOptions} {data : List UInt8} {p : Submitted}
    (h : AcceptedIpv4 o data p) : 0 < data.length ∧ (data.getD 0 0).toNat / 16 = 4 := by
  obtain ⟨iph, options, udph, stray, rest, rfl, hd, -⟩ := h
  rw [List.length_append, Ipv4Header.length_bytes]
  exact ⟨by omega, hd.version⟩

theorem AcceptedIpv6.version {data : List UInt8} {p : Submitted} (h : AcceptedIpv6 data p) :
    0 < data.length ∧ (data.getD 0 0).toNat / 16 = 6 := by
  obtain ⟨iph, udph, stray, rest, rfl, hd, -⟩ := h
  rw [List.length_append, Ipv6Header.length_bytes]
  exact ⟨by omega, hd.version⟩

theorem processDeviceUdpPacket_of_accepted {o : TunOptions} {data : List UInt8} {p : Submitted}
    (hudpgw : o.udpgw = true) (hfits : (p.data.length : ℤ) ≤ o.udp_mtu)
    (haccepted : AcceptedIpv4 o data p ∨ o.ip6 = true ∧ AcceptedIpv6 data p) :
    processDeviceUdpPacket o data = some p := by
  rw [processDeviceUdpPacket, if_neg (by simp [hudpgw])]
  refine Option.filter_eq_some_iff.mpr ⟨?_, decide_eq_true hfits⟩
  rcases haccepted with haccepted | ⟨hip6, haccepted⟩
  · obtain ⟨hpos, hversion⟩ := haccepted.version
    rw [if_pos hpos, if_pos hversion]
    exact processIpv4_eq_some_iff.mpr haccepted
  · obtain ⟨hpos, hversion⟩ := haccepted.version
    rw [if_pos hpos, if_neg (by omega), if_pos hversion]
    exact processIpv6_eq_some_iff.mpr ⟨hip6, haccepted⟩

/-- **What is accepted from the device.** -/
theorem processDeviceUdpPacket_eq_some_iff {o : TunOptions} {data : List UInt8} {p : Submitted} :
    processDeviceUdpPacket o data = some p ↔ o.udpgw = true ∧
      (p.data.length : ℤ) ≤ o.udp_mtu ∧
      (AcceptedIpv4 o data p ∨ o.ip6 = true ∧ AcceptedIpv6 data p) := by
  constructor
  · intro h
    rw [processDeviceUdpPacket] at h
    split at h
    · cases h
    rename_i hudpgw
    obtain ⟨hbranch, hfits⟩ := Option.filter_eq_some_iff.mp h
    refine ⟨Bool.not_eq_false _ ▸ hudpgw, of_decide_eq_true hfits, ?_⟩
    generalize (if data.length > 0 then (data.getD 0 0).toNat / 16 else 0) = version at hbranch
    split at hbranch
    · exact .inl (processIpv4_eq_some_iff.mp hbranch)
    · split at hbranch
      · exact .inr (processIpv6_eq_some_iff.mp hbranch)
      · cases hbranch
  · rintro ⟨hudpgw, hfits, haccepted⟩
    exact processDeviceUdpPacket_of_accepted hudpgw hfits haccepted

/-! ## 7. What is built for the device -/

/-- What a packet between the two addresses is taken for. -/
def received (o : TunOptions) (source destination : BAddr) (data : List UInt8) : Submitted where
  local_addr := source
  remote_addr := destination
  is_dns :=
    match destination with
    | .ipv4 ip port =>
      o.udpgw_transparent_dns && ip = o.netif_ipaddr && port = hton16 53
    | .ipv6 _ _ => false
  data := data

theorem le_udp_mtu_of_ipv4 {o : TunOptions} {n : ℤ} (h : n ≤ o.mtu - (20 + 8)) :
    n ≤ o.udp_mtu := by
  rw [TunOptions.udp_mtu]
  split <;> omega

theorem le_udp_mtu_of_ipv6 {o : TunOptions} {n : ℤ} (hip6 : o.ip6 = true)
    (h : n ≤ o.mtu - (40 + 8)) : n ≤ o.udp_mtu := by
  rw [TunOptions.udp_mtu, if_pos hip6]
  omega

/-- The packet that is built from IPv4 addresses is one that is accepted. -/
theorem acceptedIpv4_built (o : TunOptions) (source destination : BitVec 32)
    (source_port dest_port : BitVec 16) {data : List UInt8} (hlen : data.length ≤ 65535 - (20 + 8))
    {udph : UdpHeader} (hudph : udph = { udpFor source_port dest_port data.length with
      checksum :=
        udpChecksum (udpFor source_port dest_port data.length) data source destination }) :
    AcceptedIpv4 o ((ipv4For source destination data.length).bytes ++ (udph.bytes ++ data))
      (received o (.ipv4 source source_port) (.ipv4 destination dest_port) data) := by
  have hversion : (ipv4For source destination data.length).version = 4 := by
    simp [ipv4For, Ipv4Header.version]
  have hihl : (ipv4For source destination data.length).ihl * 4 = 20 := by
    simp [ipv4For, Ipv4Header.ihl]
  obtain ⟨hsum, hones⟩ := (@ipv4Checksum_iff _ hversion [] (by simp)).mp
    (rfl : (ipv4For source destination data.length).checksum = _)
  have hudp : udph.checksum = udpChecksum { udph with checksum := 0 } data source destination := by
    rw [hudph]
    rfl
  obtain ⟨hsum', hones'⟩ := (udpChecksum_iff source destination udph (by omega)).mp hudp
  have htotal : ntoh16 (ipv4For source destination data.length).total_length =
      20 + 8 + data.length := ntoh16_hton16 (by omega)
  have hlength : ntoh16 udph.length = 8 + data.length := by
    rw [hudph]
    exact ntoh16_hton16 (by omega)
  refine ⟨ipv4For source destination data.length, [], udph, [], [], ?_,
    ⟨hversion, hihl, ?_, rfl, hsum, hlength, hsum'⟩, hones, hones', ?_, ?_, ?_⟩
  · simp only [udpBytes, List.append_nil, List.nil_append, received]
  · rw [htotal, length_udpBytes]
    simp only [List.length_nil, received]
    omega
  · rw [hudph]
    rfl
  · rw [hudph]
    rfl
  · rw [hudph]
    rfl

/-- The same of IPv6 addresses. -/
theorem acceptedIpv6_built (o : TunOptions) (source destination : BitVec 128)
    (source_port dest_port : BitVec 16) {data : List UInt8} (hlen : data.length ≤ 65535 - 8)
    {udph : UdpHeader} (hudph : udph = { udpFor source_port dest_port data.length with
      checksum :=
        udpIp6Checksum (udpFor source_port dest_port data.length) data source destination }) :
    AcceptedIpv6 ((ipv6For source destination data.length).bytes ++ (udph.bytes ++ data))
      (received o (.ipv6 source source_port) (.ipv6 destination dest_port) data) := by
  have hudp : udph.checksum =
      udpIp6Checksum { udph with checksum := 0 } data source destination := by
    rw [hudph]
    rfl
  obtain ⟨hsum, hones⟩ := (udpIp6Checksum_iff source destination udph (by omega)).mp hudp
  have hpayload : ntoh16 (ipv6For source destination data.length).payload_length =
      8 + data.length := ntoh16_hton16 (by omega)
  have hlength : ntoh16 udph.length = 8 + data.length := by
    rw [hudph]
    exact ntoh16_hton16 (by omega)
  refine ⟨ipv6For source destination data.length, udph, [], [], ?_,
    ⟨by simp [ipv6For], ?_, rfl, hlength, hsum⟩, hones, ?_, ?_, rfl⟩
  · simp only [udpBytes, List.append_nil, received]
  · rw [hpayload, length_udpBytes]
    simp only [List.length_nil, received]
    omega
  · rw [hudph]
    rfl
  · rw [hudph]
    rfl

/-- **What is built for the device would be accepted from it**: with the two addresses turned, and
the same data. -/
theorem device_round_trip {o : TunOptions} {local_addr remote_addr : BAddr}
    {data packet : List UInt8} (hudpgw : o.udpgw = true)
    (h : udpgwClientHandlerReceived o local_addr remote_addr data = some packet) :
    (packet.length : ℤ) ≤ o.mtu ∧
      processDeviceUdpPacket o packet = some (received o remote_addr local_addr data) := by
  unfold udpgwClientHandlerReceived at h
  split at h
  · rename_i ip port remote_ip remote_port
    split at h
    · cases h
    rename_i hfits
    rw [not_or] at hfits
    cases h
    have hmtu : (data.length : ℤ) ≤ o.mtu - (20 + 8) := by omega
    constructor
    · rw [List.length_append, List.length_append, Ipv4Header.length_bytes, UdpHeader.length_bytes]
      omega
    · exact processDeviceUdpPacket_of_accepted hudpgw (le_udp_mtu_of_ipv4 hmtu)
        (.inl (acceptedIpv4_built o remote_ip ip remote_port port (by omega) rfl))
  · rename_i ip port remote_ip remote_port
    split at h
    · cases h
    rename_i hip6
    rw [Bool.not_eq_false] at hip6
    split at h
    · cases h
    rename_i hfits
    rw [not_or] at hfits
    cases h
    have hmtu : (data.length : ℤ) ≤ o.mtu - (40 + 8) := by omega
    constructor
    · rw [List.length_append, List.length_append, Ipv6Header.length_bytes, UdpHeader.length_bytes]
      omega
    · exact processDeviceUdpPacket_of_accepted hudpgw (le_udp_mtu_of_ipv6 hip6 hmtu)
        (.inr ⟨hip6, acceptedIpv6_built o remote_ip ip remote_port port (by omega) rfl⟩)
  · cases h

/-- An answer of one byte from port 53. -/
theorem device_round_trip_dns :
    udpgwClientHandlerReceived ⟨true, false, false, 0, 1500⟩ (.ipv4 0x02000001 0x0010)
        (.ipv4 0x01000001 0x3500) [69] =
      some [69, 0, 0, 29, 0, 0, 0, 0, 64, 17, 120, 206, 1, 0, 0, 1, 1, 0, 0, 2, 0, 53, 16, 0, 0, 9,
        168, 164, 69] ∧
    processDeviceUdpPacket ⟨true, false, false, 0, 1500⟩
        [69, 0, 0, 29, 0, 0, 0, 0, 64, 17, 120, 206, 1, 0, 0, 1, 1, 0, 0, 2, 0, 53, 16, 0, 0, 9,
          168, 164, 69] =
      some (received ⟨true, false, false, 0, 1500⟩ (.ipv4 0x01000001 0x3500)
        (.ipv4 0x02000001 0x0010) [69]) :=
  have hbuilt : udpgwClientHandlerReceived ⟨true, false, false, 0, 1500⟩ (.ipv4 0x02000001 0x0010)
        (.ipv4 0x01000001 0x3500) [69] =
      some [69, 0, 0, 29, 0, 0, 0, 0, 64, 17, 120, 206, 1, 0, 0, 1, 1, 0, 0, 2, 0, 53, 16, 0, 0, 9,
        168, 164, 69] := by decide +kernel
  ⟨hbuilt, (device_round_trip rfl hbuilt).2⟩

end ShiroKhorshid.Tun
