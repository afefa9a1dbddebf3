import Vsid.Lib.Split
import Vsid.Lib.Yaml
import Vsid.Protocol.Training

/-!
# The list of training files

`TrainingInput::read` reads which captures to train with, and which connection of each uses which
protocol. A connection with an address, a transport or a protocol that is not known is skipped; a
member that is not there, or cannot be converted, is an exception that nobody catches, `none` here.
-/

set_option autoImplicit false

namespace Vsid

/-! ## Addresses -/

/-- A decimal number of an address: no digit more than needed, and at most 255. -/
def octet (digits : List Char) : Option Nat :=
  if digits ≠ [] ∧ digits.all Char.isDigit = true ∧
      (digits.head? = some '0' → digits.length = 1) ∧ Nat.ofDigitChars 10 digits 0 ≤ 255 then
    some (Nat.ofDigitChars 10 digits 0)
  else none

/-- What a function of the C library sees of a text. -/
def cStr (text : String) : List Char := text.toList.takeWhile (· != '\x00')

/-- `inet_pton(AF_INET, …)` as the GNU library has it, into an address in network byte order on a
little-endian machine. -/
def inetPton (src : String) : Option UInt32 :=
  match split ['.'] (cStr src) with
  | [a, b, c, d] => do
    let a ← octet a
    let b ← octet b
    let c ← octet c
    let d ← octet d
    some (UInt32.ofNat (a + 256 * b + 65536 * c + 16777216 * d))
  | _ => none

example : inetPton "10.0.0.1" = some 0x0100000a := by decide

/-- `TrainingInput::strToTransport`. -/
def strToTransport (str : String) : UInt8 :=
  if str = "TCP" then ipprotoTcp else if str = "UDP" then ipprotoUdp else 0

/-! ## Reading -/

/-- `node[key].as<T>()` of a member that has to be there. -/
def Yaml.memberAs {α : Type} (c : Codec α) (node : Yaml) (key : String) : Option α :=
  (node.fieldAs c key).join

/-- `TrainingFile`, with the name of its capture. -/
structure ListedFile extends TrainingFile where
  filename : String

namespace TrainingInput

variable {R : Type}

/-- The part of the body of the inner loop that follows the two addresses: the transport and the
protocol. `some none` is a `continue`. -/
def readLabel (Y : Conversions R) (db : ProtocolModelDb R) (node : Yaml) (srcIp : UInt32)
    (srcPort : UInt16) (dstIp : UInt32) : Option (Option TrainingFlow) := do
  let dstPort ← node.memberAs Y.uint16 "dst_port"
  let transport ← node.memberAs Y.string "transport"
  if strToTransport transport = 0 then some none
  else
    let protocol ← node.memberAs Y.string "protocol"
    if (db.find protocol).isNone then some none
    else
      some (some
        { tuple := ⟨srcIp, srcPort, dstIp, dstPort, strToTransport transport⟩
          protocol := protocol })

/-- The body of the inner loop. -/
def readFlow (Y : Conversions R) (db : ProtocolModelDb R) (node : Yaml) :
    Option (Option TrainingFlow) := do
  let src ← node.memberAs Y.string "src_ip"
  match inetPton src with
  | none => some none
  | some srcIp => do
    let srcPort ← node.memberAs Y.uint16 "src_port"
    let dst ← node.memberAs Y.string "dst_ip"
    match inetPton dst with
    | none => some none
    | some dstIp => readLabel Y db node srcIp srcPort dstIp

/-- The body of the outer loop. -/
def readFile (Y : Conversions R) (db : ProtocolModelDb R) (node : Yaml) : Option ListedFile := do
  let filename ← node.memberAs Y.string "file"
  let items ← Yaml.itemsOf (← node.field "flows")
  let flows ← items.mapM (readFlow Y db)
  some { filename := filename, flows := flows.reduceOption }

/-- `TrainingInput::read`, once the file is loaded. -/
def read (Y : Conversions R) (db : ProtocolModelDb R) (root : Yaml) : Option (List ListedFile) := do
  let items ← root.items
  items.mapM (readFile Y db)

end TrainingInput

end Vsid
