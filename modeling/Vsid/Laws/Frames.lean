import Vsid.Laws.Capture
import Vsid.Lib.Keyed

/-!
# The two ways of a datagram

A datagram reaches the flow manager as netfilter's payload or as a frame in a capture file. The
netfilter handler takes the end of the payload from the length of the datagram; the reader of the
capture file takes it from the length of the frame, so that padding counts as payload:
`frames_agree_iff`.
-/

set_option autoImplicit false

namespace Vsid

/-- `protocol` of a class. -/
def PacketClass.protocol : PacketClass → UInt8
  | tcp => ipprotoTcp
  | udp => ipprotoUdp

/-- Where the payload of a class starts. -/
def PacketClass.dataAt (start : Nat) (byteAt : Nat → UInt8) : PacketClass → Nat
  | tcp => tcpDataAt start byteAt
  | udp => udpDataAt start byteAt

/-- A well-formed IPv4 datagram that carries TCP or UDP. Its lengths agree with each other. -/
structure Datagram where
  bytes : List UInt8
  kind : PacketClass
  isIPv4 : IsIPv4 0 (bytes.getD · 0)
  ipHeader : sizeofIphdr ≤ ipHdrSize (bytes.getD 0 0)
  totalLength : (BuiltPacket.load16 (bytes.getD · 0) 2).toNat = bytes.length
  protocol : protocolAt 0 (bytes.getD · 0) = kind.protocol
  transportHeader : transportAt 0 (bytes.getD · 0) + kind.headerSize ≤
    kind.dataAt 0 (bytes.getD · 0)
  payload : kind.dataAt 0 (bytes.getD · 0) ≤ bytes.length
  udpLength : kind = .udp →
    (BuiltPacket.load16 (bytes.getD · 0) (transportAt 0 (bytes.getD · 0) + 4)).toNat =
      bytes.length - transportAt 0 (bytes.getD · 0)

namespace Datagram

variable (D : Datagram)

/-- A byte of the datagram. -/
def byteAt (i : Nat) : UInt8 := D.bytes.getD i 0

/-- Where the payload starts. -/
def payloadStart : Nat := D.kind.dataAt 0 D.byteAt

/-- The transport payload: what the total length leaves behind the headers. -/
def data : List UInt8 := D.bytes.drop D.payloadStart

/-- The message that netfilter delivers. Anything may be in memory behind the datagram. -/
def message (id : Option UInt32) (ts : Option Timeval) (rest : Nat → UInt8) : NfqData :=
  { packetId := id, timestamp := ts, pktLen := Int32.ofNat D.bytes.length,
    pktData := fun i => (D.bytes[i]?).getD (rest i) }

end Datagram

/-- An Ethernet frame that carries a datagram, and may be padded behind it. -/
structure Frame (D : Datagram) where
  macs : List UInt8
  macs_length : macs.length = 12
  padding : List UInt8
  length_lt : 12 + 2 + D.bytes.length + padding.length < 2 ^ 32

namespace Frame

variable {D : Datagram} (frame : Frame D)

/-- The bytes of the frame. The type of the frame is IPv4. -/
def bytes : List UInt8 := frame.macs ++ [0x08, 0x00] ++ D.bytes ++ frame.padding

/-- Its record in a capture file, which has all of it. -/
def pkthdr (ts : Timeval) : PcapPkthdr :=
  { ts := ts, caplen := UInt32.ofNat frame.bytes.length, len := UInt32.ofNat frame.bytes.length,
    caplen_le_len := UInt32.le_refl _ }

/-- The memory when the frame is handled. -/
def memory (rest : CaptureAddress → UInt8) : CaptureAddress → UInt8
  | .packet i => (frame.bytes[i]?).getD (rest (.packet i))
  | .heap i => rest (.heap i)

end Frame

/-- Both ways hand over the payload of the datagram, and the same ends and flags. -/
def Agree (D : Datagram) (captured delivered : Option IPv4Packet) : Prop :=
  ∃ p q, captured = some p ∧ delivered = some q ∧ p.data = D.data ∧ q.data = D.data ∧
    p.tuple = q.tuple ∧ p.transport = q.transport

/-! ## Where the datagram lies -/

section Placed

variable {D : Datagram} {mem : Nat → UInt8} {start : Nat}

/-- The datagram is in memory from `start` on. -/
def Datagram.At (D : Datagram) (start : Nat) (mem : Nat → UInt8) : Prop :=
  ∀ i, i < D.bytes.length → mem (start + i) = D.byteAt i

theorem Datagram.headers_le (D : Datagram) :
    sizeofIphdr ≤ transportAt 0 D.byteAt ∧
      transportAt 0 D.byteAt + D.kind.headerSize ≤ D.payloadStart ∧
      D.payloadStart ≤ D.bytes.length := by
  refine ⟨?_, D.transportHeader, D.payload⟩
  unfold transportAt
  rw [Nat.zero_add]
  exact D.ipHeader

theorem transportAt_placed (h : D.At start mem) :
    transportAt start mem = start + transportAt 0 D.byteAt := by
  obtain ⟨hip, htransport, hpayload⟩ := D.headers_le
  have hfirst := h 0 (by unfold sizeofIphdr at hip; omega)
  unfold transportAt
  rw [Nat.zero_add, ← hfirst, Nat.add_zero]

theorem dataAt_placed (h : D.At start mem) :
    D.kind.dataAt start mem = start + D.payloadStart := by
  obtain ⟨hip, htransport, hpayload⟩ := D.headers_le
  have hplace := transportAt_placed h
  unfold Datagram.payloadStart at *
  cases hkind : D.kind with
  | udp =>
    show transportAt start mem + sizeofUdphdr = start + (transportAt 0 D.byteAt + sizeofUdphdr)
    rw [hplace, Nat.add_assoc]
  | tcp =>
    rw [hkind] at htransport hpayload
    have hheader : transportAt 0 D.byteAt + 20 ≤ PacketClass.dataAt 0 D.byteAt .tcp := htransport
    have hdoff := h (transportAt 0 D.byteAt + 12) (by omega)
    show transportAt start mem + tcpHdrSize (mem (transportAt start mem + 12)) =
      start + (transportAt 0 D.byteAt + tcpHdrSize (D.byteAt (transportAt 0 D.byteAt + 12)))
    rw [hplace, Nat.add_assoc start (transportAt 0 D.byteAt) 12, hdoff, Nat.add_assoc]

/-- The shared body builds the object of the datagram. -/
theorem decoded_placed (h : D.At start mem) (size : Int) (ts : Timeval) :
    decoded mem size start ts =
      .packet (objectAt D.kind start (start + D.payloadStart) mem size ts) := by
  obtain ⟨hip, htransport, hpayload⟩ := D.headers_le
  unfold sizeofIphdr at hip
  have hversion : ipV (mem start) = 4 := by
    rw [← Nat.add_zero start, h 0 (by omega)]
    exact D.isIPv4
  have hprotocol : protocolAt start mem = D.kind.protocol := by
    unfold protocolAt
    rw [h 9 (by omega), ← D.protocol]
    rfl
  rw [← dataAt_placed h]
  unfold decoded
  rw [if_pos hversion, hprotocol]
  cases D.kind with
  | tcp => rfl
  | udp => rfl

/-- The accessors for the ends and the flags read the datagram. -/
theorem view_placed (h : D.At start mem) (size size' : Int) (ts ts' : Timeval) :
    ((objectAt D.kind start (start + D.payloadStart) mem size ts).view mem).tuple =
        ((objectAt D.kind 0 D.payloadStart D.byteAt size' ts').view D.byteAt).tuple ∧
      ((objectAt D.kind start (start + D.payloadStart) mem size ts).view mem).transport =
        ((objectAt D.kind 0 D.payloadStart D.byteAt size' ts').view D.byteAt).transport := by
  obtain ⟨hip, htransport, hpayload⟩ := D.headers_le
  have hplace := transportAt_placed h
  have hheader : 8 ≤ D.kind.headerSize := by cases D.kind <;> decide
  unfold sizeofIphdr at hip
  have hload : ∀ i, i + 4 ≤ D.bytes.length → BuiltPacket.load32 mem (start + i) =
      BuiltPacket.load32 D.byteAt i := by
    intro i hi
    unfold BuiltPacket.load32
    simp only [Nat.add_assoc]
    rw [h i (by omega), h (i + 1) (by omega), h (i + 2) (by omega), h (i + 3) (by omega)]
  have hport : ∀ i, i + 2 ≤ D.bytes.length → BuiltPacket.load16 mem (start + i) =
      BuiltPacket.load16 D.byteAt i := by
    intro i hi
    unfold BuiltPacket.load16
    simp only [Nat.add_assoc]
    rw [h i (by omega), h (i + 1) (by omega)]
  have hflags : D.kind = .tcp → mem (start + (transportAt 0 D.byteAt + 13)) =
      D.byteAt (transportAt 0 D.byteAt + 13) := by
    intro hkind
    have htcp : transportAt 0 D.byteAt + 20 ≤ D.payloadStart := by
      rw [hkind] at htransport
      exact htransport
    exact h _ (by omega)
  have hview : ((objectAt D.kind start (start + D.payloadStart) mem size ts).view mem).transport =
      ((objectAt D.kind 0 D.payloadStart D.byteAt size' ts').view D.byteAt).transport := by
    unfold BuiltPacket.view objectAt
    simp only [hplace]
    cases hkind : D.kind with
    | udp => rfl
    | tcp => exact congrArg Transport.tcp (Nat.add_assoc start _ 13 ▸ hflags hkind)
  refine ⟨?_, hview⟩
  unfold IPv4Packet.tuple IPv4Packet.protocol
  rw [hview]
  unfold BuiltPacket.view objectAt
  simp only [hplace, Nat.add_assoc]
  rw [hload 12 (by omega), hload 16 (by omega), hport _ (by omega), hport _ (by omega)]

/-- The payload of an object ends where the bytes do that it was told the length of. -/
theorem data_placed {bytes : List UInt8} (hmem : ∀ i, (hi : i < bytes.length) → mem i = bytes[i])
    (hstart : start + D.payloadStart ≤ bytes.length) (hsmall : bytes.length < 2 ^ 32)
    (ts : Timeval) :
    ((objectAt D.kind start (start + D.payloadStart) mem bytes.length ts).view mem).data =
      bytes.drop (start + D.payloadStart) := by
  have hdata := dataSize_of_le
    (p := objectAt D.kind start (start + D.payloadStart) mem bytes.length ts)
    (Int.ofNat_le.mpr hstart) (by show (bytes.length : Int) < 2 ^ 64; omega)
  have hlength : (objectAt D.kind start (start + D.payloadStart) mem bytes.length ts).dataSize =
      bytes.length - (start + D.payloadStart) := by
    unfold objectAt at hdata ⊢
    simp only at hdata
    omega
  unfold BuiltPacket.view
  rw [hlength]
  exact Keyed.map_range_drop hmem (start + D.payloadStart)

end Placed

/-! ## What each way hands over -/

theorem Datagram.length_lt (D : Datagram) : D.bytes.length < 2 ^ 16 := by
  rw [← D.totalLength]
  exact UInt16.toNat_lt _

/-- The packet that netfilter's way hands over has the payload of the datagram. -/
theorem Datagram.handed_message (D : Datagram) (now : Timeval) (id : Option UInt32)
    (ts : Option Timeval) (rest : Nat → UInt8) :
    ∃ q, PacketHandler.handed now (D.message id ts rest) = some q ∧ q.data = D.data ∧
      ∀ size' ts',
        q.tuple = ((objectAt D.kind 0 D.payloadStart D.byteAt size' ts').view D.byteAt).tuple ∧
        q.transport =
          ((objectAt D.kind 0 D.payloadStart D.byteAt size' ts').view D.byteAt).transport := by
  have hlength := D.length_lt
  have hmem : ∀ i, (hi : i < D.bytes.length) → (D.message id ts rest).pktData i = D.bytes[i] := by
    intro i hi
    show (D.bytes[i]?).getD (rest i) = D.bytes[i]
    rw [List.getElem?_eq_getElem hi, Option.getD_some]
  have hplaced : D.At 0 (D.message id ts rest).pktData := by
    intro i hi
    rw [Nat.zero_add, hmem i hi, Datagram.byteAt, List.getD_eq_getElem?_getD,
      List.getElem?_eq_getElem hi, Option.getD_some]
  have hsize : (D.message id ts rest).pktLen.toInt = D.bytes.length :=
    Int32.toInt_ofNat_of_lt (by omega)
  have hpayload := D.payload
  refine ⟨_, ?_, ?_, fun size' ts' => view_placed hplaced D.bytes.length size' (ts.getD now) ts'⟩
  · unfold PacketHandler.handed PacketHandler.decodePacket
    rw [run_decode (Reads.run_byte _), decoded_placed hplaced, hsize]
    rfl
  · rw [data_placed hmem (by rw [Nat.zero_add]; exact hpayload) (by omega), Nat.zero_add]
    rfl

/-- Behind the link header come the datagram and the padding. -/
theorem Frame.bytes_drop {D : Datagram} (frame : Frame D) :
    frame.bytes.drop llEthHdrLen = D.bytes ++ frame.padding := by
  have hheader : (frame.macs ++ [0x08, 0x00]).length = llEthHdrLen := by
    rw [List.length_append, frame.macs_length]
    rfl
  unfold bytes
  rw [List.append_assoc, ← hheader, List.drop_left]

theorem Frame.bytes_length {D : Datagram} (frame : Frame D) :
    frame.bytes.length = llEthHdrLen + D.bytes.length + frame.padding.length := by
  unfold bytes
  rw [List.length_append, List.length_append, List.length_append, frame.macs_length]
  rfl

/-- The packet that a frame's way hands over has the payload and the padding, if the length of the
frame is an `int`, and something longer than any datagram otherwise. -/
theorem Frame.handed_record {D : Datagram} (frame : Frame D) (ts : Timeval)
    (rest : CaptureAddress → UInt8) :
    ∃ p, PcapClassifier.PcapReader.handed (some .en10mb) (frame.pkthdr ts) (frame.memory rest) =
        some p ∧
      (frame.bytes.length < 2 ^ 31 → p.data = D.data ++ frame.padding) ∧
      (2 ^ 31 ≤ frame.bytes.length → 2 ^ 16 ≤ p.data.length) ∧
      ∀ size' ts',
        p.tuple = ((objectAt D.kind 0 D.payloadStart D.byteAt size' ts').view D.byteAt).tuple ∧
        p.transport =
          ((objectAt D.kind 0 D.payloadStart D.byteAt size' ts').view D.byteAt).transport := by
  have hlength := frame.bytes_length
  have hlt : frame.bytes.length < 2 ^ 32 := by
    have hsmall := frame.length_lt
    unfold llEthHdrLen at hlength
    omega
  have hlen : (frame.pkthdr ts).len.toNat = frame.bytes.length := by
    show (UInt32.ofNat frame.bytes.length).toNat = frame.bytes.length
    exact UInt32.toNat_ofNat_of_lt' hlt
  have hmem : ∀ i, (hi : i < frame.bytes.length) →
      PcapClassifier.PcapReader.myPacketCpy (frame.pkthdr ts) (frame.memory rest) i =
        frame.bytes[i] := by
    intro i hi
    unfold PcapClassifier.PcapReader.myPacketCpy
    rw [hlen, if_pos hi]
    show (frame.bytes[i]?).getD _ = frame.bytes[i]
    rw [List.getElem?_eq_getElem hi, Option.getD_some]
  have hplaced : D.At llEthHdrLen
      (PcapClassifier.PcapReader.myPacketCpy (frame.pkthdr ts) (frame.memory rest)) := by
    intro i hi
    have hbyte : frame.bytes[llEthHdrLen + i]? = D.bytes[i]? := by
      rw [← List.getElem?_drop, frame.bytes_drop, List.getElem?_append_left hi]
    rw [hmem _ (by omega), Datagram.byteAt, List.getD_eq_getElem?_getD, ← hbyte,
      List.getElem?_eq_getElem (by omega), Option.getD_some]
  have hpayload : D.payloadStart ≤ D.bytes.length := D.payload
  have hstart : llEthHdrLen + D.payloadStart ≤ frame.bytes.length := by omega
  refine ⟨_, ?_, ?_, ?_, fun size' ts' =>
    view_placed hplaced (toInt (frame.pkthdr ts).len) size' ts ts'⟩
  · unfold PcapClassifier.PcapReader.handed
    rw [PcapClassifier.PcapReader.run_handlePacket]
    show ((decoded _ _ llEthHdrLen _).built).map _ = _
    rw [decoded_placed hplaced]
    rfl
  · intro hshort
    rw [toInt_of_lt (by rw [hlen]; exact hshort), hlen, data_placed hmem hstart hlt,
      ← List.drop_drop, frame.bytes_drop, List.drop_append_of_le_length hpayload]
    rfl
  · intro hlong
    have htold : toInt (frame.pkthdr ts).len = frame.bytes.length - 2 ^ 32 := by
      unfold toInt
      rw [hlen, if_neg (by omega)]
    unfold BuiltPacket.view BuiltPacket.dataSize objectAt
    simp only [List.length_map, List.length_range, htold]
    unfold llEthHdrLen at hstart ⊢
    omega

/-- **The two ways agree exactly when the frame is not padded.** -/
theorem frames_agree_iff (D : Datagram) (frame : Frame D) (ts now : Timeval)
    (rest : CaptureAddress → UInt8) (id : Option UInt32) (ts' : Option Timeval)
    (rest' : Nat → UInt8) :
    Agree D
        (PcapClassifier.PcapReader.handed (some .en10mb) (frame.pkthdr ts) (frame.memory rest))
        (PacketHandler.handed now (D.message id ts' rest')) ↔
      frame.padding = [] := by
  obtain ⟨p, hp, hshort, hlong, hview⟩ := frame.handed_record ts rest
  obtain ⟨q, hq, hdata, hview'⟩ := D.handed_message now id ts' rest'
  constructor
  · rintro ⟨p', q', hp', hq', hsame, -⟩
    rw [hp] at hp'
    cases hp'
    by_cases hlt : frame.bytes.length < 2 ^ 31
    · rw [hshort hlt] at hsame
      exact List.append_right_eq_self.mp hsame
    · have hmany := hlong (Nat.not_lt.mp hlt)
      have hfew := D.length_lt
      rw [hsame, Datagram.data, List.length_drop] at hmany
      omega
  · intro hnone
    have hlt : frame.bytes.length < 2 ^ 31 := by
      have hfew := D.length_lt
      have hlength := frame.bytes_length
      rw [hnone, List.length_nil] at hlength
      unfold llEthHdrLen at hlength
      omega
    have hsame : p.data = D.data := by rw [hshort hlt, hnone, List.append_nil]
    exact ⟨p, q, hp, hq, hsame, hdata, (hview 0 ts).1.trans (hview' 0 ts).1.symm,
      (hview 0 ts).2.trans (hview' 0 ts).2.symm⟩

/-! ## An empty acknowledgement -/

/-- A TCP segment of 40 bytes, which acknowledges and carries nothing. -/
def emptyAck : Datagram :=
  { bytes :=
      [0x45, 0x00, 0x00, 0x28, 0x00, 0x00, 0x00, 0x00, 0x40, 0x06, 0x00, 0x00, 0x0A, 0x00, 0x00,
        0x01, 0x0A, 0x00, 0x00, 0x02, 0x30, 0x39, 0x00, 0x50, 0x00, 0x00, 0x00, 0x01, 0x00, 0x00,
        0x00, 0x01, 0x50, 0x10, 0x20, 0x00, 0x00, 0x00, 0x00, 0x00]
    kind := .tcp
    isIPv4 := by unfold IsIPv4; decide
    ipHeader := by decide
    totalLength := by decide
    protocol := by decide
    transportHeader := by decide
    payload := by decide
    udpLength := fun h => nomatch h }

/-- Its frame, of the least size that Ethernet has. -/
def paddedFrame : Frame emptyAck :=
  { macs := List.replicate 12 0, macs_length := by decide, padding := List.replicate 6 0,
    length_lt := by decide }

/-- From the capture file the acknowledgement comes with six bytes of payload, and counts as a data
packet. -/
theorem emptyAck_disagrees :
    ¬ Agree emptyAck
        (PcapClassifier.PcapReader.handed (some .en10mb) (paddedFrame.pkthdr ⟨0, 0⟩)
          (paddedFrame.memory fun _ => 0))
        (PacketHandler.handed ⟨0, 0⟩ (emptyAck.message (some 1) none fun _ => 0)) ∧
      (PcapClassifier.PcapReader.handed (some .en10mb) (paddedFrame.pkthdr ⟨0, 0⟩)
        (paddedFrame.memory fun _ => 0)).map Flow.isBareSegment = some false ∧
      (PacketHandler.handed ⟨0, 0⟩ (emptyAck.message (some 1) none fun _ => 0)).map
        Flow.isBareSegment = some true := by
  have hdata : (PcapClassifier.PcapReader.handed (some .en10mb) (paddedFrame.pkthdr ⟨0, 0⟩)
      (paddedFrame.memory fun _ => 0)).map IPv4Packet.data = some [0, 0, 0, 0, 0, 0] := by
    decide +kernel
  refine ⟨?_, by decide +kernel, by decide +kernel⟩
  rintro ⟨p, q, hp, -, hsame, -⟩
  rw [hp, Option.map_some, hsame] at hdata
  exact absurd hdata (by decide)

end Vsid
