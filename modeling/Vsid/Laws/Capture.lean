import Mathlib.Tactic.NormNum
import Vsid.Capture.PacketHandler
import Vsid.Capture.PcapReader

/-!
# Staying inside the captured bytes

No handler compares a header with the end of the buffer. `Fits` says that the headers of a packet
fit into the captured bytes, by the lengths that the packet itself states; `stays_inside_iff` says
for each of the three handlers exactly when it stays inside.
-/

set_option autoImplicit false

namespace Vsid

/-- The headers of the object and the start of its payload are in the captured bytes, and so is the
size of the payload, which has not wrapped around. -/
structure BuiltPacket.Inside (p : BuiltPacket) (captured : Nat) : Prop where
  ipHeader : p.ipHdrStart + sizeofIphdr ≤ captured
  transportHeader : p.transportHdrStart + p.kind.headerSize ≤ captured
  dataStart : p.dataStart ≤ captured
  noWrap : (p.dataStart : Int) ≤ p.pktSize
  dataSize : p.dataSize ≤ captured

/-- A handler has read captured bytes only, and the packet object that it built is inside them. -/
def StaysInside {A α : Type} (inside : A → Prop) (captured : Nat) (built : α → Option BuiltPacket)
    (mem : A → UInt8) (handler : Reads A UInt8 α) : Prop :=
  handler.Within inside mem ∧ ∀ p, built (handler.run mem) = some p → p.Inside captured

theorem staysInside_bind {A α β : Type} {inside : A → Prop} {captured : Nat}
    {built : β → Option BuiltPacket} {mem : A → UInt8} (prog : Reads A UInt8 α)
    (next : α → Reads A UInt8 β) :
    StaysInside inside captured built mem (prog >>= next) ↔
      prog.Within inside mem ∧ StaysInside inside captured built mem (next (prog.run mem)) := by
  unfold StaysInside
  rw [Reads.within_bind, Reads.run_bind, and_assoc]

/-! ## The packet's own lengths -/

section Lengths

variable (start : Nat) (byteAt : Nat → UInt8)

/-- The bytes at `start` look like an IPv4 header. -/
def IsIPv4 : Prop := ipV (byteAt start) = 4

/-- `ip_hdr->protocol`. -/
def protocolAt : UInt8 := byteAt (start + 9)

/-- Where the transport header starts. -/
def transportAt : Nat := start + ipHdrSize (byteAt start)

/-- Where the payload of a TCP packet starts. -/
def tcpDataAt : Nat :=
  transportAt start byteAt + tcpHdrSize (byteAt (transportAt start byteAt + 12))

/-- Where the payload of a UDP packet starts. -/
def udpDataAt : Nat := transportAt start byteAt + sizeofUdphdr

/-- The headers fit into `captured` bytes. -/
structure Fits (captured : Nat) : Prop where
  version : start < captured
  ipHeader : IsIPv4 start byteAt → start + sizeofIphdr ≤ captured
  tcp : IsIPv4 start byteAt → protocolAt start byteAt = ipprotoTcp →
    transportAt start byteAt + sizeofTcphdr ≤ captured ∧ tcpDataAt start byteAt ≤ captured
  udp : IsIPv4 start byteAt → protocolAt start byteAt = ipprotoUdp →
    udpDataAt start byteAt ≤ captured

/-- The size that the handler was told leaves a payload of at most `captured` bytes behind the
headers. -/
structure SizeFits (captured : Nat) (size : Int) : Prop where
  tcp : IsIPv4 start byteAt → protocolAt start byteAt = ipprotoTcp →
    (tcpDataAt start byteAt : Int) ≤ size ∧ size ≤ tcpDataAt start byteAt + captured
  udp : IsIPv4 start byteAt → protocolAt start byteAt = ipprotoUdp →
    (udpDataAt start byteAt : Int) ≤ size ∧ size ≤ udpDataAt start byteAt + captured

end Lengths

/-! ## The shared body -/

theorem dataSize_of_le {p : BuiltPacket} (h : (p.dataStart : Int) ≤ p.pktSize)
    (hsmall : p.pktSize < 2 ^ 64) : (p.dataSize : Int) = p.pktSize - p.dataStart := by
  unfold BuiltPacket.dataSize
  rw [Int.emod_eq_of_lt (by omega) (by omega)]
  omega

/-- When the object is inside, in terms of its pointers. -/
theorem inside_iff {p : BuiltPacket} {captured : Nat} (hsmall : p.pktSize < 2 ^ 64) :
    p.Inside captured ↔
      p.ipHdrStart + sizeofIphdr ≤ captured ∧
        (p.transportHdrStart + p.kind.headerSize ≤ captured ∧ p.dataStart ≤ captured) ∧
        (p.dataStart : Int) ≤ p.pktSize ∧ p.pktSize ≤ p.dataStart + captured := by
  constructor
  · rintro ⟨hip, htransport, hstart, hwrap, hsize⟩
    have hdata := dataSize_of_le hwrap hsmall
    exact ⟨hip, ⟨htransport, hstart⟩, hwrap, by omega⟩
  · rintro ⟨hip, ⟨htransport, hstart⟩, hwrap, hsize⟩
    have hdata := dataSize_of_le hwrap hsmall
    exact ⟨hip, htransport, hstart, hwrap, by omega⟩

section Decode

variable {A : Type} {fetch : Nat → Reads A UInt8 UInt8} {mem : A → UInt8} {inside : A → Prop}
  {byteAt : Nat → UInt8} {captured : Nat}

/-- The packet object of a class, with its pointers. -/
def objectAt (kind : PacketClass) (start dataStart : Nat) (byteAt : Nat → UInt8) (size : Int)
    (ts : Timeval) : BuiltPacket :=
  { kind := kind
    pktSize := size
    ipHdrStart := start
    transportHdrStart := transportAt start byteAt
    dataStart := dataStart
    timestamp := ts }

/-- What the shared body comes to. -/
def decoded (byteAt : Nat → UInt8) (size : Int) (start : Nat) (ts : Timeval) : Decoded :=
  if ipV (byteAt start) = 4 then
    if protocolAt start byteAt = ipprotoIcmp then .icmp
    else if protocolAt start byteAt = ipprotoTcp then
      .packet (objectAt .tcp start (tcpDataAt start byteAt) byteAt size ts)
    else if protocolAt start byteAt = ipprotoUdp then
      .packet (objectAt .udp start (udpDataAt start byteAt) byteAt size ts)
    else if protocolAt start byteAt = ipprotoSctp then .sctp
    else .unknownProtocol
  else if ipV (byteAt start) = 6 then .ipv6
  else .invalidVersion

theorem run_decode (hrun : ∀ i, (fetch i).run mem = byteAt i) (size : Int) (start : Nat)
    (ts : Timeval) : (decode fetch size start ts).run mem = decoded byteAt size start ts := by
  unfold decode decoded protocolAt
  simp only [Reads.run_bind, hrun]
  by_cases hversion : ipV (byteAt start) = 4
  · rw [if_pos hversion, if_pos hversion]
    simp only [Reads.run_bind, hrun]
    split
    · rfl
    · split
      · simp only [Reads.run_bind, hrun]
        rfl
      · split
        · rfl
        · split <;> rfl
  · rw [if_neg hversion, if_neg hversion]
    split <;> rfl

/-- The object has the size that the handler was told. -/
theorem pktSize_of_decoded {size : Int} {start : Nat} {ts : Timeval} {p : BuiltPacket}
    (h : (decoded byteAt size start ts).built = some p) : p.pktSize = size := by
  unfold decoded at h
  split at h
  · split at h
    · cases h
    · split at h
      · cases h
        rfl
      · split at h
        · cases h
          rfl
        · split at h
          · cases h
          · cases h
  · split at h
    · cases h
    · cases h

/-- The reads of the addresses end with the IP header. -/
theorem forall_addresses_iff (start : Nat) :
    (∀ i ∈ List.range' (start + 12) 8, i < captured) ↔ start + sizeofIphdr ≤ captured := by
  unfold sizeofIphdr
  constructor
  · intro h
    have hlast := h (start + 19) (List.mem_range'_1.mpr (by omega))
    omega
  · intro h i hi
    have hle := List.mem_range'_1.mp hi
    omega

/-- **When the shared body stays inside**: the headers fit, and the size that it was told does. -/
theorem decode_staysInside_iff (hrun : ∀ i, (fetch i).run mem = byteAt i)
    (hwithin : ∀ i, (fetch i).Within inside mem ↔ i < captured) {size : Int}
    (hsmall : size < 2 ^ 64) (start : Nat) (ts : Timeval) :
    StaysInside inside captured Decoded.built mem (decode fetch size start ts) ↔
      Fits start byteAt captured ∧ SizeFits start byteAt captured size := by
  unfold StaysInside decode
  by_cases hversion : ipV (byteAt start) = 4
  · simp only [Reads.within_bind, Reads.run_bind, Reads.within_each, hrun, hwithin, hversion,
      if_true, forall_addresses_iff]
    by_cases htcp : byteAt (start + 9) = ipprotoTcp
    · have hicmp : ipprotoTcp ≠ ipprotoIcmp := by decide
      have hudp : ¬ protocolAt start byteAt = ipprotoUdp := by
        rw [protocolAt, htcp]
        decide
      simp only [htcp, if_neg hicmp, if_true, Reads.within_bind, Reads.run_bind, hrun, hwithin,
        Reads.within_pure, Reads.run_pure, Decoded.built, Option.some.injEq, forall_eq']
      rw [inside_iff hsmall]
      constructor
      · rintro ⟨⟨hstart, hip, -⟩, -, hheaders, hsizes⟩
        exact ⟨⟨hstart, fun _ => hip, fun _ _ => hheaders, fun _ h => absurd h hudp⟩,
          fun _ _ => hsizes, fun _ h => absurd h hudp⟩
      · rintro ⟨hfits, hsizes⟩
        have hip := hfits.ipHeader hversion
        have hheaders := hfits.tcp hversion htcp
        have hreads : start + 9 < captured ∧ start + ipHdrSize (byteAt start) + 12 < captured := by
          unfold sizeofIphdr at hip
          unfold transportAt sizeofTcphdr at hheaders
          omega
        exact ⟨⟨hfits.version, hip, hreads.1, hreads.2, trivial⟩, hip, hheaders,
          hsizes.tcp hversion htcp⟩
    · by_cases hudp : byteAt (start + 9) = ipprotoUdp
      · have hicmp : ipprotoUdp ≠ ipprotoIcmp := by decide
        have hnot : ipprotoUdp ≠ ipprotoTcp := by decide
        simp only [hudp, if_neg hicmp, if_neg hnot, if_true, Reads.within_pure, Reads.run_pure,
          Decoded.built, Option.some.injEq, forall_eq']
        rw [inside_iff hsmall]
        constructor
        · rintro ⟨⟨hstart, hip, -⟩, -, hheaders, hsizes⟩
          exact ⟨⟨hstart, fun _ => hip, fun _ h => absurd h htcp, fun _ _ => hheaders.2⟩,
            fun _ h => absurd h htcp, fun _ _ => hsizes⟩
        · rintro ⟨hfits, hsizes⟩
          have hip := hfits.ipHeader hversion
          have hheader := hfits.udp hversion hudp
          have hread : start + 9 < captured := by
            unfold sizeofIphdr at hip
            omega
          exact ⟨⟨hfits.version, hip, hread, trivial⟩, hip, ⟨hheader, hheader⟩,
            hsizes.udp hversion hudp⟩
      · obtain ⟨d, hd, hnone⟩ : ∃ d,
            (if byteAt (start + 9) = ipprotoSctp then (pure .sctp : Reads A UInt8 Decoded)
              else pure .unknownProtocol) = pure d ∧ d.built = none := by
          split
          · exact ⟨_, rfl, rfl⟩
          · exact ⟨_, rfl, rfl⟩
        obtain ⟨d', hd', hnone'⟩ : ∃ d',
            (if byteAt (start + 9) = ipprotoIcmp then (pure .icmp : Reads A UInt8 Decoded)
              else pure d) = pure d' ∧ d'.built = none := by
          split
          · exact ⟨_, rfl, rfl⟩
          · exact ⟨_, rfl, hnone⟩
        simp only [htcp, hudp, if_false, hd, hd', Reads.within_pure, Reads.run_pure, hnone']
        constructor
        · rintro ⟨⟨hstart, hip, -⟩, -⟩
          exact ⟨⟨hstart, fun _ => hip, fun _ h => absurd h htcp, fun _ h => absurd h hudp⟩,
            fun _ h => absurd h htcp, fun _ h => absurd h hudp⟩
        · rintro ⟨hfits, -⟩
          have hip := hfits.ipHeader hversion
          have hread : start + 9 < captured := by
            unfold sizeofIphdr at hip
            omega
          exact ⟨⟨hfits.version, hip, hread, trivial⟩,
            fun p hp => absurd hp.symm (Option.some_ne_none p)⟩
  · obtain ⟨d, hd, hnone⟩ : ∃ d,
        (if ipV (byteAt start) = 6 then (pure .ipv6 : Reads A UInt8 Decoded)
          else pure .invalidVersion) = pure d ∧ d.built = none := by
      split
      · exact ⟨_, rfl, rfl⟩
      · exact ⟨_, rfl, rfl⟩
    simp only [Reads.within_bind, Reads.run_bind, hrun, hwithin, hversion, if_false, hd,
      Reads.within_pure, Reads.run_pure, hnone]
    constructor
    · rintro ⟨⟨hstart, -⟩, -⟩
      exact ⟨⟨hstart, fun h => absurd h hversion, fun h => absurd h hversion,
        fun h => absurd h hversion⟩, fun h => absurd h hversion, fun h => absurd h hversion⟩
    · rintro ⟨hfits, -⟩
      exact ⟨⟨hfits.version, trivial⟩, fun p hp => absurd hp.symm (Option.some_ne_none p)⟩

end Decode

/-! ## The three handlers -/

/-- The size that a payload states fits if the headers do. -/
theorem SizeFits.of_fits {start captured : Nat} {byteAt : Nat → UInt8}
    (h : Fits start byteAt captured) : SizeFits start byteAt captured captured := by
  constructor
  · intro hversion htcp
    have hdata := (h.tcp hversion htcp).2
    omega
  · intro hversion hudp
    have hdata := h.udp hversion hudp
    omega

namespace PacketHandler

/-- The bytes of the payload. -/
def captured (pkt : NfqData) : Nat := pkt.pktLen.toInt.toNat

theorem staysInside_iff (now : Timeval) (pkt : NfqData) :
    StaysInside (· < captured pkt) (captured pkt) Decoded.built pkt.pktData (decodePacket now pkt) ↔
      Fits 0 pkt.pktData (captured pkt) := by
  have hsmall : pkt.pktLen.toInt < 2 ^ 64 := by
    have hlt := pkt.pktLen.toInt_lt
    omega
  unfold decodePacket
  rw [decode_staysInside_iff (Reads.run_byte pkt.pktData) (fun i => Reads.within_byte i) hsmall]
  constructor
  · exact fun h => h.1
  · intro h
    have hversion := h.version
    have hsize : pkt.pktLen.toInt = captured pkt := by
      unfold captured at hversion ⊢
      omega
    rw [hsize]
    exact ⟨h, SizeFits.of_fits h⟩

end PacketHandler

/-- The handler of the classifier or the training program builds a packet. -/
def BuildsPacket (start : Nat) (byteAt : Nat → UInt8) : Prop :=
  IsIPv4 start byteAt ∧
    (protocolAt start byteAt = ipprotoTcp ∨ protocolAt start byteAt = ipprotoUdp)

theorem toInt_of_lt {len : UInt32} (h : len.toNat < 2 ^ 31) : toInt len = len.toNat := by
  unfold toInt
  rw [if_pos h]

theorem toInt_neg {len : UInt32} (h : ¬ len.toNat < 2 ^ 31) : toInt len < 0 := by
  have hlt := len.toNat_lt
  unfold toInt
  rw [if_neg h]
  omega

theorem toInt_lt (len : UInt32) : toInt len < 2 ^ 64 := by
  have hlt := len.toNat_lt
  unfold toInt
  split <;> omega

/-- A length that fits is an `int`, if a packet is built. -/
theorem sizeFits_iff {start : Nat} {byteAt : Nat → UInt8} {len : UInt32}
    (h : Fits start byteAt len.toNat) :
    SizeFits start byteAt len.toNat (toInt len) ↔
      (BuildsPacket start byteAt → len.toNat < 2 ^ 31) := by
  constructor
  · rintro hsizes ⟨hversion, htcp | hudp⟩
    · by_contra hlarge
      have hneg := toInt_neg hlarge
      have hdata := (hsizes.tcp hversion htcp).1
      omega
    · by_contra hlarge
      have hneg := toInt_neg hlarge
      have hdata := (hsizes.udp hversion hudp).1
      omega
  · intro hsmall
    have hfits := SizeFits.of_fits h
    constructor
    · intro hversion htcp
      rw [toInt_of_lt (hsmall ⟨hversion, Or.inl htcp⟩)]
      exact hfits.tcp hversion htcp
    · intro hversion hudp
      rw [toInt_of_lt (hsmall ⟨hversion, Or.inr hudp⟩)]
      exact hfits.udp hversion hudp

/-- The packet object that a reader of capture files has built. -/
def builtOf (decoded : Option Decoded) : Option BuiltPacket := decoded.bind Decoded.built

theorem staysInside_builtOf {A : Type} {inside : A → Prop} {captured : Nat} {mem : A → UInt8}
    (prog : Reads A UInt8 Decoded) :
    StaysInside inside captured builtOf mem (prog >>= fun decoded => pure (some decoded)) ↔
      StaysInside inside captured Decoded.built mem prog := by
  rw [staysInside_bind]
  exact and_congr_right fun _ => and_iff_right (Reads.within_pure _)

/-- The bytes of the library's buffer. -/
def packetBytes (mem : CaptureAddress → UInt8) (i : Nat) : UInt8 := mem (.packet i)

section Congr

variable {start captured : Nat} {byteAt byteAt' : Nat → UInt8}

/-- Which headers there are is said by captured bytes. -/
theorem Fits.sameHeaders (h : Fits start byteAt captured)
    (hsame : ∀ i, i < captured → byteAt i = byteAt' i) :
    (IsIPv4 start byteAt ↔ IsIPv4 start byteAt') ∧
      transportAt start byteAt = transportAt start byteAt' ∧
      (IsIPv4 start byteAt → protocolAt start byteAt = protocolAt start byteAt') := by
  have hstart := hsame start h.version
  refine ⟨?_, ?_, ?_⟩
  · unfold IsIPv4
    rw [hstart]
  · unfold transportAt
    rw [hstart]
  · intro hversion
    have hip := h.ipHeader hversion
    unfold sizeofIphdr at hip
    exact hsame (start + 9) (by omega)

theorem Fits.congr (h : Fits start byteAt captured)
    (hsame : ∀ i, i < captured → byteAt i = byteAt' i) : Fits start byteAt' captured := by
  obtain ⟨hiff, htransport, hprotocol⟩ := h.sameHeaders hsame
  refine ⟨h.version, fun h' => h.ipHeader (hiff.mpr h'), ?_, ?_⟩
  · intro hversion htcp
    have hversion' := hiff.mpr hversion
    obtain ⟨hheader, hdata⟩ := h.tcp hversion' ((hprotocol hversion').trans htcp)
    have hdoff : byteAt (transportAt start byteAt + 12) = byteAt' (transportAt start byteAt + 12) :=
      hsame _ (by unfold sizeofTcphdr at hheader; omega)
    unfold tcpDataAt at hdata ⊢
    rw [← htransport, ← hdoff]
    exact ⟨hheader, hdata⟩
  · intro hversion hudp
    have hversion' := hiff.mpr hversion
    have hdata := h.udp hversion' ((hprotocol hversion').trans hudp)
    unfold udpDataAt at hdata ⊢
    rw [← htransport]
    exact hdata

theorem Fits.buildsPacket_congr (h : Fits start byteAt captured)
    (hsame : ∀ i, i < captured → byteAt i = byteAt' i) :
    BuildsPacket start byteAt ↔ BuildsPacket start byteAt' := by
  obtain ⟨hiff, -, hprotocol⟩ := h.sameHeaders hsame
  unfold BuildsPacket
  constructor
  · rintro ⟨hversion, hbuilds⟩
    exact ⟨hiff.mp hversion, hprotocol hversion ▸ hbuilds⟩
  · rintro ⟨hversion, hbuilds⟩
    have hversion' := hiff.mpr hversion
    exact ⟨hversion', hprotocol hversion' ▸ hbuilds⟩

end Congr

namespace PcapClassifier.PcapReader

theorem run_fetchCopy (mem : CaptureAddress → UInt8) (pkthdr : PcapPkthdr) (i : Nat) :
    (fetchCopy ((List.range pkthdr.len.toNat).map fun i => mem (.packet i)) i).run mem =
      myPacketCpy pkthdr mem i := by
  unfold fetchCopy myPacketCpy
  by_cases hi : i < pkthdr.len.toNat
  · rw [if_pos hi, List.getElem?_map, List.getElem?_range hi]
    rfl
  · rw [if_neg hi, List.getElem?_eq_none (by rw [List.length_map, List.length_range]; omega)]
    rfl

theorem run_handlePacket (datalink : Datalink) (pkthdr : PcapPkthdr)
    (mem : CaptureAddress → UInt8) :
    (handlePacket datalink pkthdr).run mem = datalink.linkHdrLen.map fun start =>
      decoded (myPacketCpy pkthdr mem) (toInt pkthdr.len) start pkthdr.ts := by
  unfold handlePacket
  cases datalink.linkHdrLen with
  | none => rfl
  | some start =>
    simp only [Reads.run_bind, Reads.run_each, Reads.run_byte, Reads.run_pure, Option.map_some]
    rw [run_decode (run_fetchCopy mem pkthdr)]

/-- The copy can be read to its end, and nothing behind it. -/
theorem within_fetchCopy (mem : CaptureAddress → UInt8) (pkthdr : PcapPkthdr) (caplen i : Nat) :
    (fetchCopy ((List.range pkthdr.len.toNat).map fun i => mem (.packet i)) i).Within
      (CaptureAddress.Captured caplen) mem ↔ i < pkthdr.len.toNat := by
  unfold fetchCopy
  by_cases hi : i < pkthdr.len.toNat
  · rw [List.getElem?_map, List.getElem?_range hi]
    exact iff_of_true (Reads.within_pure _) hi
  · rw [List.getElem?_eq_none (by rw [List.length_map, List.length_range]; omega)]
    exact iff_of_false (fun h => (Reads.within_byte _).mp h) hi

theorem staysInside_iff (datalink : Datalink) (pkthdr : PcapPkthdr) (mem : CaptureAddress → UInt8) :
    StaysInside (CaptureAddress.Captured pkthdr.caplen.toNat) pkthdr.caplen.toNat builtOf mem
        (handlePacket datalink pkthdr) ↔
      ∀ start, datalink.linkHdrLen = some start →
        pkthdr.caplen = pkthdr.len ∧ Fits start (packetBytes mem) pkthdr.caplen.toNat ∧
          (BuildsPacket start (packetBytes mem) → pkthdr.len.toNat < 2 ^ 31) := by
  unfold handlePacket
  cases datalink.linkHdrLen with
  | none =>
    refine iff_of_true ⟨Reads.within_pure _, fun p hp => absurd hp.symm (Option.some_ne_none p)⟩ ?_
    exact fun start h => absurd h.symm (Option.some_ne_none start)
  | some start =>
    have hcopy : (∀ i ∈ List.range pkthdr.len.toNat, i < pkthdr.caplen.toNat) ↔
        pkthdr.caplen = pkthdr.len := by
      have hle := UInt32.le_iff_toNat_le.mp pkthdr.caplen_le_len
      rw [← UInt32.toNat_inj]
      constructor
      · intro h
        by_contra hne
        have hlast := h (pkthdr.len.toNat - 1) (List.mem_range.mpr (by omega))
        omega
      · intro h i hi
        rw [h]
        exact List.mem_range.mp hi
    have hreads : (Reads.each (fun i => Reads.byte (CaptureAddress.packet i))
          (List.range pkthdr.len.toNat)).Within (CaptureAddress.Captured pkthdr.caplen.toNat) mem ↔
        pkthdr.caplen = pkthdr.len := by
      rw [Reads.within_each, ← hcopy]
      exact forall₂_congr fun i _ => Reads.within_byte _
    simp only [Option.some.injEq, forall_eq']
    rw [staysInside_bind, hreads, staysInside_builtOf]
    refine and_congr_right fun hwhole => ?_
    have hcopied : (Reads.each (fun i => Reads.byte (CaptureAddress.packet i))
        (List.range pkthdr.len.toNat)).run mem =
          (List.range pkthdr.len.toNat).map fun i => mem (.packet i) := Reads.run_each mem _ _
    have hcopy : ∀ i, i < pkthdr.len.toNat → myPacketCpy pkthdr mem i = packetBytes mem i := by
      intro i hi
      exact if_pos hi
    rw [hcopied, hwhole, decode_staysInside_iff (run_fetchCopy mem pkthdr)
      (within_fetchCopy mem pkthdr _) (toInt_lt _)]
    constructor
    · rintro ⟨hfits, hsizes⟩
      refine ⟨hfits.congr hcopy, ?_⟩
      rw [← hfits.buildsPacket_congr hcopy]
      exact (sizeFits_iff hfits).mp hsizes
    · rintro ⟨hfits, hsmall⟩
      have hfits' := hfits.congr fun i hi => (hcopy i hi).symm
      refine ⟨hfits', (sizeFits_iff hfits').mpr ?_⟩
      rw [hfits'.buildsPacket_congr hcopy]
      exact hsmall

end PcapClassifier.PcapReader

namespace Training.PcapReader

/-- How much of a packet is dumped to the log. -/
def dumped (len : UInt32) : Nat := if len < 2048 then min len.toNat 944 else 0

theorem staysInside_iff (datalink : Datalink) (pkthdr : PcapPkthdr) (mem : CaptureAddress → UInt8) :
    StaysInside (CaptureAddress.Captured pkthdr.caplen.toNat) pkthdr.caplen.toNat builtOf mem
        (handlePacket datalink pkthdr) ↔
      dumped pkthdr.len ≤ pkthdr.caplen.toNat ∧
        ∀ start, datalink.linkHdrLen = some start →
          Fits start (packetBytes mem) pkthdr.caplen.toNat ∧
            SizeFits start (packetBytes mem) pkthdr.caplen.toNat (toInt pkthdr.len) := by
  have hdump : (logHexdump pkthdr.len).Within (CaptureAddress.Captured pkthdr.caplen.toNat) mem ↔
      dumped pkthdr.len ≤ pkthdr.caplen.toNat := by
    unfold logHexdump dumped
    by_cases hshort : pkthdr.len < 2048
    · rw [if_pos hshort, if_pos hshort]
      simp only [Reads.within_bind, Reads.within_each, Reads.within_byte, Reads.within_pure,
        and_true, List.mem_range]
      constructor
      · intro h
        by_contra hmore
        exact absurd (h pkthdr.caplen.toNat (by omega)) (Nat.lt_irrefl _)
      · intro h i hi
        exact Nat.lt_of_lt_of_le hi h
    · rw [if_neg hshort, if_neg hshort]
      exact iff_of_true (Reads.within_pure _) (Nat.zero_le _)
  unfold handlePacket
  rw [staysInside_bind, hdump]
  refine and_congr_right fun _ => ?_
  cases datalink.linkHdrLen with
  | none =>
    refine iff_of_true ⟨Reads.within_pure _, fun p hp => absurd hp.symm (Option.some_ne_none p)⟩ ?_
    exact fun start h => absurd h.symm (Option.some_ne_none start)
  | some start =>
    simp only [Option.some.injEq, forall_eq']
    rw [staysInside_builtOf]
    exact decode_staysInside_iff (fun i => Reads.run_byte mem (.packet i))
      (fun i => Reads.within_byte _) (toInt_lt _) start pkthdr.ts

end Training.PcapReader

/-- **When the handlers stay inside the captured bytes.** In all of them the headers have to fit.
The classifier has to have the whole packet, of less than 2 GiB; the training program has to have
what it dumps, and the length of the packet must not exceed what was captured by more than the
headers. -/
theorem stays_inside_iff (now : Timeval) (pkt : NfqData) (datalink : Datalink)
    (pkthdr : PcapPkthdr) (mem : CaptureAddress → UInt8) :
    (StaysInside (· < PacketHandler.captured pkt) (PacketHandler.captured pkt) Decoded.built
        pkt.pktData (PacketHandler.decodePacket now pkt) ↔
      Fits 0 pkt.pktData (PacketHandler.captured pkt)) ∧
    (StaysInside (CaptureAddress.Captured pkthdr.caplen.toNat) pkthdr.caplen.toNat builtOf mem
        (PcapClassifier.PcapReader.handlePacket datalink pkthdr) ↔
      ∀ start, datalink.linkHdrLen = some start →
        pkthdr.caplen = pkthdr.len ∧ Fits start (packetBytes mem) pkthdr.caplen.toNat ∧
          (BuildsPacket start (packetBytes mem) → pkthdr.len.toNat < 2 ^ 31)) ∧
    (StaysInside (CaptureAddress.Captured pkthdr.caplen.toNat) pkthdr.caplen.toNat builtOf mem
        (Training.PcapReader.handlePacket datalink pkthdr) ↔
      Training.PcapReader.dumped pkthdr.len ≤ pkthdr.caplen.toNat ∧
        ∀ start, datalink.linkHdrLen = some start →
          Fits start (packetBytes mem) pkthdr.caplen.toNat ∧
            SizeFits start (packetBytes mem) pkthdr.caplen.toNat (toInt pkthdr.len)) :=
  ⟨PacketHandler.staysInside_iff now pkt,
    PcapClassifier.PcapReader.staysInside_iff datalink pkthdr mem,
    Training.PcapReader.staysInside_iff datalink pkthdr mem⟩

/-! ## What was not captured does not matter -/

/-- The accessors of an object that is inside read captured bytes. -/
theorem BuiltPacket.view_congr {p : BuiltPacket} {captured : Nat} (h : p.Inside captured)
    (hsize : p.pktSize = captured) (hsmall : p.pktSize < 2 ^ 64) {mem mem' : Nat → UInt8}
    (hsame : ∀ i, i < captured → mem i = mem' i) : p.view mem = p.view mem' := by
  have hip := h.ipHeader
  have htransport := h.transportHeader
  have hdata := dataSize_of_le h.noWrap hsmall
  unfold sizeofIphdr at hip
  have hip' : ∀ i, i < 20 → mem (p.ipHdrStart + i) = mem' (p.ipHdrStart + i) :=
    fun i hi => hsame _ (by omega)
  have htransport' : ∀ i, i < p.kind.headerSize →
      mem (p.transportHdrStart + i) = mem' (p.transportHdrStart + i) :=
    fun i hi => hsame _ (by omega)
  have hheader : 8 ≤ p.kind.headerSize := by cases p.kind <;> decide
  have hload : ∀ i, i + 4 ≤ 20 → load32 mem (p.ipHdrStart + i) = load32 mem' (p.ipHdrStart + i) := by
    intro i hi
    unfold load32
    simp only [Nat.add_assoc]
    rw [hip' i (by omega), hip' (i + 1) (by omega), hip' (i + 2) (by omega),
      hip' (i + 3) (by omega)]
  have hpayload : (List.range p.dataSize).map (fun i => mem (p.dataStart + i)) =
      (List.range p.dataSize).map fun i => mem' (p.dataStart + i) := by
    apply List.map_congr_left
    intro i hi
    have hlt := List.mem_range.mp hi
    exact hsame _ (by omega)
  have hport : load16 mem p.transportHdrStart = load16 mem' p.transportHdrStart := by
    unfold load16
    rw [show mem p.transportHdrStart = _ from htransport' 0 (by omega), htransport' 1 (by omega)]
    rfl
  have hport' : load16 mem (p.transportHdrStart + 2) = load16 mem' (p.transportHdrStart + 2) := by
    unfold load16
    simp only [Nat.add_assoc]
    rw [htransport' 2 (by omega), htransport' (2 + 1) (by omega)]
  unfold view
  rw [hload 12 (by omega), hload 16 (by omega), hport, hport', hpayload]
  cases hkind : p.kind with
  | udp => rfl
  | tcp =>
    rw [htransport' 13 (by rw [hkind]; decide)]

/-- A message whose headers fit is handled as its captured bytes say. -/
theorem PacketHandler.handed_congr {now : Timeval} {pkt : NfqData}
    (h : Fits 0 pkt.pktData (captured pkt)) {mem : Nat → UInt8}
    (hsame : ∀ i, i < captured pkt → pkt.pktData i = mem i) :
    handed now pkt = handed now { pkt with pktData := mem } := by
  obtain ⟨hwithin, hinside⟩ := (staysInside_iff now pkt).mpr h
  have hrun : (decodePacket now pkt).run pkt.pktData =
      (decodePacket now { pkt with pktData := mem }).run mem := (Reads.run_congr hwithin hsame).1
  have hversion := h.version
  unfold handed
  rw [← hrun]
  cases hp : ((decodePacket now pkt).run pkt.pktData).built with
  | none => rfl
  | some p =>
    have hsize : p.pktSize = captured pkt := by
      have hdecoded := hp
      unfold decodePacket at hdecoded
      rw [run_decode (Reads.run_byte pkt.pktData)] at hdecoded
      have htold := pktSize_of_decoded hdecoded
      unfold captured at hversion ⊢
      omega
    have hsmall : p.pktSize < 2 ^ 64 := by
      have hlt := pkt.pktLen.toInt_lt
      unfold captured at hsize
      omega
    exact congrArg some (BuiltPacket.view_congr (hinside p hp) hsize hsmall hsame)

/-! ## Three packets that escape -/

/-- An IPv4 header without options, and a TCP header that claims 60 bytes. -/
def longDoff (i : Nat) : UInt8 :=
  if i = 0 then 0x45 else if i = 9 then ipprotoTcp else if i = 32 then 0xF0 else 0

/-- A message whose payload cannot be got. -/
def noPayload : NfqData :=
  { packetId := some 1, timestamp := none, pktLen := -1, pktData := fun _ => 0 }

/-- A message of 40 bytes. -/
def fortyBytes : NfqData :=
  { packetId := some 1, timestamp := none, pktLen := 40, pktData := longDoff }

/-- A full frame of which a capture kept the first 68 bytes. -/
def cutRecord : PcapPkthdr :=
  { ts := ⟨0, 0⟩, caplen := 68, len := 1514, caplen_le_len := by decide }

/-- Without a payload the handler reads what it has not got; with a data offset beyond the end the
size of the payload wraps around; and more is copied than was captured. -/
theorem three_packets_escape :
    ¬ StaysInside (· < PacketHandler.captured noPayload) (PacketHandler.captured noPayload)
        Decoded.built noPayload.pktData (PacketHandler.decodePacket ⟨0, 0⟩ noPayload) ∧
      (((PacketHandler.decodePacket ⟨0, 0⟩ fortyBytes).run fortyBytes.pktData).built.map
        BuiltPacket.dataSize) = some (2 ^ 64 - 40) ∧
      ¬ StaysInside (CaptureAddress.Captured cutRecord.caplen.toNat) cutRecord.caplen.toNat builtOf
        (fun _ => 0) (PcapClassifier.PcapReader.handlePacket (some .en10mb) cutRecord) := by
  refine ⟨?_, by decide, ?_⟩
  · rw [PacketHandler.staysInside_iff]
    exact fun h => absurd h.version (by decide)
  · rw [PcapClassifier.PcapReader.staysInside_iff]
    exact fun h => absurd (h llEthHdrLen rfl).1 (by decide)

end Vsid
