import Mathlib.Algebra.Group.Nat.Defs
import Vsid.Capture.IPv4

/-!
# Reading packets from a capture file

`PcapReader::handlePacket`, which the classifier and the training program have in two versions: the
classifier's copies the packet first and builds the packet object over its copy, the training
program's dumps the packet to its log and builds the object over the buffer of the library.

A handler is a program that reads the buffer of the library and, should it run past the end of its
copy, what is behind it on the heap.
-/

set_option autoImplicit false

namespace Vsid

/-- `struct pcap_pkthdr`. No more is captured than there was. -/
structure PcapPkthdr where
  ts : Timeval
  caplen : UInt32
  len : UInt32
  caplen_le_len : caplen ≤ len

/-- The link types that the switch knows, and the others. -/
inductive LinkType where
  | null
  | en10mb
  | slip
  | ppp
  | linuxSll
  | unsupported
deriving DecidableEq, Repr

/-- `LL_ETH_HDR_LEN`. -/
def llEthHdrLen : Nat := 14

/-- `LL_SLL_HDR_LEN`. -/
def llSllHdrLen : Nat := 16

/-- `linkhdrlen`, for the link types that go on from the switch. -/
def LinkType.linkHdrLen : LinkType → Option Nat
  | null => some 4
  | en10mb => some llEthHdrLen
  | slip => some 24
  | ppp => some 24
  | linuxSll => some llSllHdrLen
  | unsupported => none

/-- An address that a handler can get to. -/
inductive CaptureAddress where
  | packet (offset : Nat)
  | heap (offset : Nat)
deriving DecidableEq, Repr

/-- The bytes that were captured. -/
def CaptureAddress.Captured (caplen : Nat) : CaptureAddress → Prop
  | packet offset => offset < caplen
  | heap _ => False

/-- `uint32_t` to `int`. -/
def toInt (len : UInt32) : Int :=
  if len.toNat < 2 ^ 31 then len.toNat else len.toNat - 2 ^ 32

/-- `pcap_datalink` of the capture: `none` when it fails. -/
abbrev Datalink := Option LinkType

/-- The length of the link header, for the captures that go on. -/
def Datalink.linkHdrLen (datalink : Datalink) : Option Nat := datalink.bind LinkType.linkHdrLen

namespace PcapClassifier.PcapReader

/-- A byte of the copy, or of what is behind it. -/
def fetchCopy (copied : List UInt8) (i : Nat) : Reads CaptureAddress UInt8 UInt8 :=
  match copied[i]? with
  | some b => pure b
  | none => Reads.byte (.heap i)

/-- `PcapReader::handlePacket` of the classifier, up to `addPacket`. -/
def handlePacket (datalink : Datalink) (pkthdr : PcapPkthdr) :
    Reads CaptureAddress UInt8 (Option Decoded) :=
  match datalink.linkHdrLen with
  | none => pure none
  | some linkHdrLen => do
    -- `memcpy` of `len` bytes, where `caplen` were captured
    let copied ← Reads.each (fun i => Reads.byte (.packet i)) (List.range pkthdr.len.toNat)
    let decoded ← decode (fetchCopy copied) (toInt pkthdr.len) linkHdrLen pkthdr.ts
    pure (some decoded)

/-- The copy that the packet object looks at, and what is behind it. -/
def myPacketCpy (pkthdr : PcapPkthdr) (mem : CaptureAddress → UInt8) (i : Nat) : UInt8 :=
  if i < pkthdr.len.toNat then mem (.packet i) else mem (.heap i)

/-- The packet that `addPacket` is called with. -/
def handed (datalink : Datalink) (pkthdr : PcapPkthdr) (mem : CaptureAddress → UInt8) :
    Option IPv4Packet :=
  (((handlePacket datalink pkthdr).run mem).bind Decoded.built).map
    (·.view (myPacketCpy pkthdr mem))

end PcapClassifier.PcapReader

namespace Training.PcapReader

/-- The part of `LOG_HEXDUMP` that reads: `format_hexdump` goes through the bytes in rows of
sixteen, as many as fit into its text. -/
def logHexdump (len : UInt32) : Reads CaptureAddress UInt8 Unit :=
  if len < 2048 then do
    let maxlen := 4097 / 69 * 16
    let _ ← Reads.each (fun i => Reads.byte (.packet i)) (List.range (min len.toNat maxlen))
    pure ()
  else pure ()

/-- `PcapReader::handlePacket` of the training program, up to `addPacket`. -/
def handlePacket (datalink : Datalink) (pkthdr : PcapPkthdr) :
    Reads CaptureAddress UInt8 (Option Decoded) := do
  logHexdump pkthdr.len
  match datalink.linkHdrLen with
  | none => pure none
  | some linkHdrLen =>
    let decoded ← decode (fun i => Reads.byte (.packet i)) (toInt pkthdr.len) linkHdrLen pkthdr.ts
    pure (some decoded)

/-- The packet that `addPacket` is called with. -/
def handed (datalink : Datalink) (pkthdr : PcapPkthdr) (mem : CaptureAddress → UInt8) :
    Option IPv4Packet :=
  (((handlePacket datalink pkthdr).run mem).bind Decoded.built).map
    (·.view fun i => mem (.packet i))

end Training.PcapReader

end Vsid
