import Vsid.Capture.PacketHandler
import Vsid.Laws.FlowManager

/-!
# One verdict a packet

Whatever `Flow::addPacket` and the manager do with a packet, for the packet object it comes to the
same: its verdict is set, and it is deleted (`Flow.addPacketHeld_snd`,
`FlowManager.addPacketHeld_snd`). So `handlePacket` accepts every packet that netfilter delivers,
once (`handlePacket_accepts_once`).

Without throwing meters the flows are those of `FlowManager.addPacket` (`addPacketHeld_fst`).
-/

set_option autoImplicit false

namespace Vsid

variable (C : NetfilterConfig)

/-! ## The packet object -/

namespace VerdictSetter

theorem setVerdict_accept (v : VerdictSetter) (id : UInt32) :
    (v.setVerdict id nfAccept).calls = v.calls ++ [⟨id, nfAccept, v.queueOpen⟩] ∧
      (v.setVerdict id nfAccept).queueOpen = v.queueOpen := by
  unfold setVerdict
  rw [if_neg (by decide)]
  exact ⟨rfl, rfl⟩

end VerdictSetter

namespace Held

/-- A packet whose verdict was not set is accepted, and then deleted without another call. -/
theorem setVerdict_destroy {h : Held} (hset : h.packet.verdictSetter = true) :
    ((h.setVerdict C).destroy C).handler = h.handler.setAccept C h.packet.pktId ∧
      ((h.setVerdict C).destroy C).packet.pktId = h.packet.pktId ∧
      ((h.setVerdict C).destroy C).packet.verdictSetter = false ∧
      ((h.setVerdict C).destroy C).packet.destroyed = h.packet.destroyed + 1 := by
  have haccepted : h.setVerdict C = h.ask (h.handler.setAccept C h.packet.pktId) := by
    unfold setVerdict acceptPkt
    rw [if_pos hset]
  have hforgot : (h.setVerdict C).packet.verdictSetter = false := by
    rw [haccepted]
    rfl
  have hdestroyed : (h.setVerdict C).dropPkt C = h.setVerdict C := by
    unfold dropPkt
    rw [if_neg (by rw [hforgot]; exact Bool.false_ne_true)]
  unfold destroy
  simp only [hdestroyed]
  rw [haccepted]
  exact ⟨rfl, rfl, rfl, rfl⟩

end Held

/-! ## The flow -/

namespace Flow

variable {R : Type} [Double R]

omit [Double R] in
/-- Every return of the state machine has set the verdict, and nothing else has. -/
theorem advanceHeld_eq (f : Flow R) (p : IPv4Packet) (h : Held) :
    f.advanceHeld C p h =
      ((f.advance p).1, if (f.advance p).2 then h.setVerdict C else h, (f.advance p).2) := by
  unfold advanceHeld advance
  cases f.flowState with
  | new =>
    cases p.transport with
    | udp => rfl
    | tcp flags =>
      simp only
      split
      · rfl
      · split <;> rfl
  | establishing =>
    cases p.transport with
    | udp =>
      simp only
      split <;> rfl
    | tcp flags =>
      simp only
      split
      · rfl
      · split <;> rfl
  | established =>
    cases p.transport with
    | udp => rfl
    | tcp flags =>
      simp only
      split
      · rfl
      · split
        · rfl
        · split <;> rfl
  | finishing =>
    cases p.transport with
    | udp => rfl
    | tcp flags =>
      simp only
      split <;> rfl
  | finished => rfl
  | finishedNotified => rfl

theorem addDataPacketHeld_snd (S : Setup R) (measure : Calculation R) (f : Flow R) (p : IPv4Packet)
    (h : Held) : (f.addDataPacketHeld C S measure p h).2 = h.setVerdict C := by
  unfold addDataPacketHeld
  simp only
  split
  · rfl
  · split <;> rfl

/-- Every way through the function sets the verdict once. -/
theorem addPacketBody_snd (S : Setup R) (measure : Calculation R) (f : Flow R) (p : IPv4Packet)
    (h : Held) : (f.addPacketBody C S measure p h).2 = h.setVerdict C := by
  unfold addPacketBody
  rw [advanceHeld_eq]
  cases (f.advance p).2 with
  | true => rfl
  | false =>
    simp only [Bool.false_eq_true, if_false]
    split
    · rfl
    · exact addDataPacketHeld_snd C S measure _ p h

/-- **`Flow::addPacket` sets the verdict of its packet and deletes it.** -/
theorem addPacketHeld_snd (S : Setup R) (measure : Calculation R) (f : Flow R) (p : IPv4Packet)
    (h : Held) : (f.addPacketHeld C S measure p h).2 = (h.setVerdict C).destroy C := by
  unfold addPacketHeld
  rw [← addPacketBody_snd C S measure f p h]

theorem calculateHeld_quiet (f : Flow R) (p : IPv4Packet) :
    f.calculateHeld Calculation.quiet p = f.calculate p := rfl

/-- Without a throwing meter the flow is that of `Flow.addPacket`. -/
theorem addPacketHeld_fst (S : Setup R) (f : Flow R) (p : IPv4Packet) (h : Held) :
    (f.addPacketHeld C S Calculation.quiet p h).1 = f.addPacket S p := by
  have hdata : ∀ g : Flow R, (g.addDataPacketHeld C S Calculation.quiet p h).1 =
      g.addDataPacket S p := by
    intro g
    unfold addDataPacketHeld addDataPacket
    simp only [calculateHeld_quiet]
    split
    · rfl
    · split <;> rfl
  unfold addPacketHeld addPacketBody addPacket
  rw [advanceHeld_eq]
  obtain ⟨g, returned⟩ := f.advance p
  cases returned with
  | true => rfl
  | false =>
    simp only [Bool.false_eq_true, if_false]
    split
    · rfl
    · exact hdata g

end Flow

/-! ## The manager -/

namespace FlowManager

variable {R : Type} [Double R]

theorem processPacketHeld_snd (S : Setup R) (measure : Calculation R) (m : FlowManager R)
    (p : IPv4Packet) (h : Held) :
    (m.processPacketHeld C S measure p h).2 = (h.setVerdict C).destroy C := by
  unfold processPacketHeld
  generalize m.getFlow S none p = found
  obtain ⟨m', i⟩ := found
  simp only
  cases m'.heap[i]? with
  | none => rfl
  | some f => exact Flow.addPacketHeld_snd C S measure f.decPktsInQueue p h

/-- **Every way through the manager sets the verdict of the packet and deletes it**, also after the
shutdown. -/
theorem addPacketHeld_snd (S : Setup R) (measure : Calculation R) (m : FlowManager R)
    (p : IPv4Packet) (h : Held) :
    (m.addPacketHeld C S measure p h).2 = (h.setVerdict C).destroy C := by
  unfold addPacketHeld
  split
  · rfl
  · generalize m.getFlow S none p = found
    obtain ⟨m', i⟩ := found
    simp only
    cases m'.heap[i]? with
    | none => rfl
    | some f => exact processPacketHeld_snd C S measure _ p h

omit [Double R] in
theorem modifyFlow_of_none {m : FlowManager R} {i : FlowId} (h : m.heap[i]? = none)
    (g : Flow R → Flow R) : m.modifyFlow i g = m := by
  unfold modifyFlow
  rw [List.modify_eq_self (List.getElem?_eq_none_iff.mp h)]

omit [Double R] in
theorem modifyFlow_const {m : FlowManager R} {i : FlowId} {f : Flow R} (h : m.heap[i]? = some f)
    (g : Flow R → Flow R) : m.modifyFlow i (fun _ => g f) = m.modifyFlow i g := by
  have hheap : m.heap.modify i (fun _ => g f) = m.heap.modify i g := by
    apply List.ext_getElem?
    intro j
    by_cases hj : i = j
    · rw [← hj, List.getElem?_modify_eq, List.getElem?_modify_eq, h]
      rfl
    · rw [List.getElem?_modify_ne _ _ hj, List.getElem?_modify_ne _ _ hj]
  unfold modifyFlow
  rw [hheap]

/-- A look-up without a flow has changed nothing, and would come to the same again. -/
theorem getFlow_of_none {S : Setup R} {self : Option Nat} {m m' : FlowManager R} {p : IPv4Packet}
    {i : FlowId} (hget : m.getFlow S self p = (m', i)) (hnone : m'.heap[i]? = none) : m' = m := by
  have hinsert : ∀ m₀ : FlowManager R, m₀.insertFlow S self p = (m', i) → False := by
    intro m₀ h
    have hi : i = m₀.heap.length := by rw [← insertFlow_snd S self m₀ p, h]
    have hheap : m'.heap = m₀.heap ++ [m₀.newFlow S self p] := by rw [← insertFlow_heap, h]
    rw [hheap, hi, List.getElem?_concat_length] at hnone
    cases hnone
  unfold getFlow at hget
  cases hentry : m.flows (S.flowHash p.tuple) with
  | none =>
    rw [hentry] at hget
    exact (hinsert m hget).elim
  | some j =>
    rw [hentry] at hget
    simp only at hget
    cases hflow : m.heap[j]? with
    | none =>
      rw [hflow] at hget
      exact (Prod.mk.inj hget).1.symm
    | some f =>
      rw [hflow] at hget
      simp only at hget
      split at hget
      · exact (hinsert _ hget).elim
      · exact (Prod.mk.inj hget).1.symm

omit [Double R] in
theorem closeFlow_of_none {m : FlowManager R} {i : FlowId} (h : m.heap[i]? = none) :
    m.closeFlow i = m := by
  unfold closeFlow
  rw [h]

theorem processPacketHeld_fst (S : Setup R) (m : FlowManager R) (p : IPv4Packet) (h : Held) :
    (m.processPacketHeld C S Calculation.quiet p h).1 = m.processPacket S none p := by
  unfold processPacketHeld processPacket
  generalize m.getFlow S none p = found
  obtain ⟨m', i⟩ := found
  simp only
  cases hf : m'.heap[i]? with
  | none =>
    have happly : m'.applyPacket S i p = m' := by
      unfold applyPacket
      rw [hf]
    rw [modifyFlow_of_none hf, happly, closeFlow_of_none hf]
  | some f =>
    have hdec : (m'.modifyFlow i Flow.decPktsInQueue).heap[i]? = some f.decPktsInQueue := by
      rw [modifyFlow_heap, if_pos rfl, hf, Option.map_some]
    simp only [applyPacketHeld, Flow.addPacketHeld_fst, applyPacket, hdec]
    rw [modifyFlow_const hdec fun g => g.addPacket S p]

/-- **The flows are those of `FlowManager.addPacket`**, as long as no meter throws. -/
theorem addPacketHeld_fst (S : Setup R) (m : FlowManager R) (p : IPv4Packet) (h : Held) :
    (m.addPacketHeld C S Calculation.quiet p h).1 = m.addPacket S p := by
  unfold addPacketHeld addPacket
  split
  · rfl
  · cases hget : m.getFlow S none p with
    | mk m' i =>
      simp only
      cases hf : m'.heap[i]? with
      | none =>
        have hagain : m'.getFlow S none p = (m', i) := by
          have hsame := getFlow_of_none hget hf
          rw [hsame] at hget ⊢
          exact hget
        rw [modifyFlow_of_none hf]
        unfold processPacket
        rw [hagain]
        simp only
        have happly : m'.applyPacket S i p = m' := by
          unfold applyPacket
          rw [hf]
        rw [modifyFlow_of_none hf, happly, closeFlow_of_none hf]
      | some f => exact processPacketHeld_fst C S _ p h

end FlowManager

/-! ## The handler -/

namespace PacketHandler

variable {R : Type} [Double R]

/-- The handler has accepted the packets `ids`, and the objects that it built for `builtIds` are
deleted. -/
structure Accepts (h h' : PacketHandler R) (ids builtIds : List UInt32) : Prop where
  queueOpen : h'.verdicts.queueOpen = h.verdicts.queueOpen
  calls : h'.verdicts.calls =
    h.verdicts.calls ++ ids.map fun id => ⟨id, nfAccept, h.verdicts.queueOpen⟩
  packets : ∃ built : List PacketObject, h'.packets = h.packets ++ built ∧
    built.map PacketObject.pktId = builtIds ∧
    ∀ o ∈ built, o.verdictSetter = false ∧ o.destroyed = 1

omit [Double R] in
theorem Accepts.nothing {h h' : PacketHandler R} (hverdicts : h'.verdicts = h.verdicts)
    (hpackets : h'.packets = h.packets) : Accepts h h' [] [] := by
  refine ⟨by rw [hverdicts], by rw [hverdicts]; exact (List.append_nil _).symm, [], ?_, rfl, ?_⟩
  · rw [hpackets, List.append_nil]
  · exact fun o ho => absurd ho List.not_mem_nil

omit [Double R] in
theorem Accepts.trans {h₁ h₂ h₃ : PacketHandler R} {ids ids' builtIds builtIds' : List UInt32}
    (h : Accepts h₁ h₂ ids builtIds) (h' : Accepts h₂ h₃ ids' builtIds') :
    Accepts h₁ h₃ (ids ++ ids') (builtIds ++ builtIds') := by
  obtain ⟨built, hpackets, hids, hdone⟩ := h.packets
  obtain ⟨built', hpackets', hids', hdone'⟩ := h'.packets
  refine ⟨h'.queueOpen.trans h.queueOpen, ?_, built ++ built', ?_, ?_, ?_⟩
  · rw [h'.calls, h.calls, h.queueOpen, List.map_append, List.append_assoc]
  · rw [hpackets', hpackets, List.append_assoc]
  · rw [List.map_append, hids, hids']
  · intro o ho
    rcases List.mem_append.mp ho with ho | ho
    · exact hdone o ho
    · exact hdone' o ho

theorem accepts_handOver (S : Setup R) (measure : Calculation R) (h : PacketHandler R)
    (id : UInt32) (p : IPv4Packet) :
    Accepts h (h.handOver C S measure id p) [id] [id] := by
  obtain ⟨hcalls, hopen⟩ := h.verdicts.setVerdict_accept id
  have hset : ∀ v, (Held.mk (PacketObject.new id) v).packet.verdictSetter = true := fun _ => rfl
  unfold handOver
  simp only [FlowManager.addPacketHeld_snd]
  generalize hv : (if (!C.verdictAfterClassification) = true then h.verdicts.setVerdict id nfAccept
    else h.verdicts) = v
  obtain ⟨hhandler, hid, hsetter, hdestroyed⟩ := Held.setVerdict_destroy C (hset v)
  have haccepted : v.setAccept C id = h.verdicts.setVerdict id nfAccept := by
    rw [← hv]
    unfold VerdictSetter.setAccept
    cases C.verdictAfterClassification with
    | false => rfl
    | true => rfl
  refine ⟨?_, ?_, _, rfl, ?_, ?_⟩
  · simp only [hhandler]
    rw [← hopen]
    exact congrArg VerdictSetter.queueOpen haccepted
  · simp only [hhandler]
    exact (congrArg VerdictSetter.calls haccepted).trans hcalls
  · rw [List.map_singleton, hid]
    rfl
  · intro o ho
    cases List.mem_singleton.mp ho
    exact ⟨hsetter, hdestroyed⟩

/-- One packet, whatever its bytes are. -/
theorem accepts_handlePacket (S : Setup R) (measure : Calculation R) (now : Timeval)
    (h : PacketHandler R) (pkt : NfqData) :
    Accepts h (h.handlePacket C S measure now pkt) [pkt.id]
      ((handed now pkt).toList.map fun _ => pkt.id) := by
  obtain ⟨hcalls, hopen⟩ := h.verdicts.setVerdict_accept pkt.id
  unfold handlePacket handed
  generalize (decodePacket now pkt).run pkt.pktData = decoded
  cases decoded with
  | packet p =>
    obtain ⟨hopen, hcalls, hpackets⟩ :=
      accepts_handOver C S measure { h with numPackets := h.numPackets + 1 } pkt.id
        (p.view pkt.pktData)
    exact ⟨hopen, hcalls, hpackets⟩
  | _ =>
    exact ⟨hopen, hcalls, [], (List.append_nil _).symm, rfl, fun o ho => absurd ho List.not_mem_nil⟩

theorem accepts_react (S : Setup R) (h : PacketHandler R) (event : HandlerEvent R) :
    Accepts h (h.react C S event) event.ids event.builtIds := by
  cases event with
  | packet now measure pkt => exact accepts_handlePacket C S measure now h pkt
  | shutdown => exact Accepts.nothing rfl rfl

/-- **Every packet is accepted once.** Whatever the state of the handler and its flows, the bytes of
the packets and the meters that throw, and whether there was a shutdown: each packet is given one
verdict, to accept it, and each packet object is deleted once. -/
theorem accepts_once (S : Setup R) (h : PacketHandler R) (events : List (HandlerEvent R)) :
    (events.foldl (react C S) h).verdicts.calls =
        h.verdicts.calls ++ (events.flatMap HandlerEvent.ids).map
          (fun id => ⟨id, nfAccept, h.verdicts.queueOpen⟩) ∧
      ∃ built : List PacketObject, (events.foldl (react C S) h).packets = h.packets ++ built ∧
        built.map PacketObject.pktId = events.flatMap HandlerEvent.builtIds ∧
        ∀ o ∈ built, o.verdictSetter = false ∧ o.destroyed = 1 := by
  have hrun : Accepts h (events.foldl (react C S) h) (events.flatMap HandlerEvent.ids)
      (events.flatMap HandlerEvent.builtIds) := by
    induction events generalizing h with
    | nil => exact Accepts.nothing rfl rfl
    | cons event events ih => exact (accepts_react C S h event).trans (ih (h.react C S event))
  exact ⟨hrun.calls, hrun.packets⟩

/-- The flows are those of `FlowManager.addPacket` on the packets that are handed over. -/
theorem handlePacket_flowManager (S : Setup R) (now : Timeval) (h : PacketHandler R)
    (pkt : NfqData) :
    (h.handlePacket C S Calculation.quiet now pkt).flowManager =
      (handed now pkt).elim h.flowManager (h.flowManager.addPacket S) := by
  unfold handlePacket handed
  generalize (decodePacket now pkt).run pkt.pktData = decoded
  cases decoded with
  | packet p => exact FlowManager.addPacketHeld_fst C S h.flowManager _ _
  | _ => rfl

end PacketHandler

end Vsid
