import Vsid.Laws.Flow
import Vsid.Laws.Forgetting

/-!
# The manager's bookkeeping

Worker threads need two fields of a flow, its queue and its pending count, that no packet looks at.
`Flow.bare` forgets them, and a packet acts on what is left. `Setup.sequential` is the same program
without worker threads: nothing that a connection does depends on the difference.

`Connection.absorb` is a packet that goes to the open flow without the tests of a look-up, which is
what becomes of a packet that the flow was looked up for before.
-/

set_option autoImplicit false

namespace Vsid

variable {R : Type}

namespace Flow

/-- The flow without the manager's bookkeeping. -/
def bare (f : Flow R) : Flow R := { f with threadQueueId := -1, pktsInQueue := 0 }

theorem forgets_bare : Forgets (bare (R := R)) where
  flowState _ := rfl
  flowClassified _ := rfl
  tooFewPackets _ := rfl
  setFinishedAndNotified _ := rfl
  replaces S f p hzero := by
    have hpkts : f.bare.havePktsInQueue = f.havePktsInQueue := by
      unfold havePktsInQueue
      rw [hzero]
      rfl
    unfold FlowManager.replaces
    rw [hpkts]
    rfl

theorem bare_advance (f : Flow R) (p : IPv4Packet) :
    f.bare.advance p = ((f.advance p).1.bare, (f.advance p).2) :=
  advance_comm bare (fun _ => rfl) (fun _ => rfl) (fun _ => rfl) (fun _ => rfl)
    (fun _ _ => rfl) (fun _ => rfl) f

variable [Double R]

theorem unseen_bare : Unseen (bare (R := R)) where
  tuple _ := rfl
  pktCount _ := rfl
  flowClassified _ := rfl
  divergence _ _ := rfl
  bestDivergence _ := rfl
  bestProtocol _ := rfl
  classifyAs _ _ _ := rfl
  best _ _ _ := rfl

/-- A packet does not look at the bookkeeping. -/
theorem bare_addPacket (S : Setup R) (f : Flow R) (p : IPv4Packet) :
    f.bare.addPacket S p = (f.addPacket S p).bare := by
  have hrest : ∀ g : Flow R, g.bare.addDataPacket S p = (g.addDataPacket S p).bare := by
    intro g
    have hcount : g.bare.countPacket p = (g.countPacket p).bare := rfl
    have hclassified : (g.countPacket p).bare.flowClassified = (g.countPacket p).flowClassified :=
      rfl
    have hpackets : (g.countPacket p).bare.pktCount = (g.countPacket p).pktCount := rfl
    have hmeasured : (((g.countPacket p).bare.calculate p).touch p).classify S =
        ((((g.countPacket p).calculate p).touch p).classify S).bare :=
      unseen_bare.classify S (((g.countPacket p).calculate p).touch p)
    unfold addDataPacket
    simp only [hcount, hclassified, hpackets, hmeasured]
    split
    · rfl
    · split <;> rfl
  unfold addPacket
  rw [bare_advance]
  cases f.advance p with
  | mk g returned =>
    cases returned with
    | true => rfl
    | false =>
      simp only
      split
      · rfl
      · exact hrest g

end Flow

/-! ## Connections -/

/-- A connection without the bookkeeping in its flows. -/
def Connection.bare (c : Connection R) : Connection R := c.map Flow.bare

/-- A note and a record without it. -/
def FlowRecord.bare (r : FlowRecord R) : FlowRecord R := r.map Flow.bare

namespace Connection

theorem bare_finish (c : Connection R) : c.finish.bare = c.bare.finish :=
  Flow.forgets_bare.map_finish c

theorem bare_live (c : Connection R) : c.bare.live = c.live.map FlowRecord.bare := rfl

variable [Double R]

/-- A packet that goes to the open flow as it is, and to none when no flow is open. -/
def absorb (S : Setup R) (c : Connection R) (p : IPv4Packet) : Connection R :=
  (c.modify fun r => r.apply S p).settle

/-- A packet that comes too late for the flow leaves nothing behind. -/
theorem absorb_of_none {S : Setup R} {c : Connection R} (hnone : c.live = none) (p : IPv4Packet) :
    c.absorb S p = c := by
  obtain ⟨past, live⟩ := c
  cases hnone
  rfl

/-- A packet is absorbed by the flow that its look-up comes to. -/
theorem absorb_lookup (S : Setup R) (c : Connection R) (fresh : Flow R) (p : IPv4Packet) :
    (c.lookup S fresh p).absorb S p = c.process S fresh p := rfl

/-- A packet that the open flow takes is absorbed by it. -/
theorem absorb_of_keeps {S : Setup R} {c : Connection R} {r : FlowRecord R} {p : IPv4Packet}
    (hr : c.live = some r) (hkeeps : FlowManager.replaces S r.flow p = false) (fresh : Flow R) :
    c.absorb S p = c.process S fresh p := by
  have hlookup : c.lookup S fresh p = c := by
    unfold lookup
    rw [hr]
    simp only [hkeeps, Bool.false_eq_true, if_false]
  rw [← absorb_lookup S c fresh, hlookup]

theorem bare_modify_apply (S : Setup R) (c : Connection R) (p : IPv4Packet) :
    (c.modify fun r => r.apply S p).bare = c.bare.modify fun r => r.apply S p := by
  refine Forgets.map_modify c fun r _ => ?_
  have hpacket : (r.map Flow.bare).flow.addPacket S p = (r.flow.addPacket S p).bare :=
    Flow.bare_addPacket S r.flow p
  have hbefore : (r.map Flow.bare).flow.flowClassified = r.flow.flowClassified := rfl
  have hafter : (r.flow.addPacket S p).bare.flowClassified =
      (r.flow.addPacket S p).flowClassified := rfl
  unfold FlowRecord.apply
  simp only [hpacket, hbefore, hafter]
  split
  · rw [Forgets.map_tell]
    rfl
  · rfl

/-- A packet acts on the connection without the bookkeeping. -/
theorem bare_process (S : Setup R) {c : Connection R} (hidle : c.Idle) (fresh : Flow R)
    (p : IPv4Packet) : (c.process S fresh p).bare = c.bare.process S fresh.bare p := by
  unfold process
  rw [bare, Flow.forgets_bare.map_settle]
  congr 1
  exact (bare_modify_apply S _ p).trans
    (congrArg (fun k : Connection R => k.modify fun r => r.apply S p)
      (Flow.forgets_bare.map_lookup S hidle fresh p))

end Connection

/-! ## Without worker threads -/

/-- The same program in non-threaded mode. -/
def Setup.sequential (S : Setup R) : Setup R :=
  { S with config := { S.config with workerThreadsPerQueue := 0 } }

theorem Connection.process_sequential [Double R] (S : Setup R) (c : Connection R) (fresh : Flow R)
    (p : IPv4Packet) : c.process S.sequential fresh p = c.process S fresh p := by
  have hsame : S.SameMatching S.sequential := ⟨rfl, rfl, rfl, rfl, rfl⟩
  have hlookup : c.lookup S.sequential fresh p = c.lookup S fresh p := rfl
  unfold process FlowRecord.apply
  simp only [hlookup, Flow.addPacket_congr hsame]

end Vsid
