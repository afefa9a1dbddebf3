import Vsid.Laws.Core
import Vsid.Laws.Forgetting

/-!
# The core of a connection

`Connection.core` forgets of every flow what `Flow.core` forgets. As long as no meter reads stale
bytes, a packet acts on the core alone: `Connection.step` is that action, a function of the
connection and the packet in which neither the allocator nor the manager's bookkeeping occurs
(`core_process`).
-/

set_option autoImplicit false

namespace Vsid

variable {R : Type}

/-- A note with the core of its flow. -/
def Note.core : Note R → Note R
  | finished f => .finished f.core
  | classified f => .classified f.core
  | removed f => .removed f.core

/-- The core of a flow and of what was said about it. -/
def FlowRecord.core (r : FlowRecord R) : FlowRecord R :=
  { flow := r.flow.core, told := r.told.map Note.core }

/-- The core of a connection. -/
def Connection.core (c : Connection R) : Connection R :=
  { past := c.past.map FlowRecord.core, live := c.live.map FlowRecord.core }

@[simp] theorem Note.core_core (note : Note R) : note.core.core = note.core := by
  cases note <;> simp only [core, Flow.core_core]

@[simp] theorem FlowRecord.core_core (r : FlowRecord R) : r.core.core = r.core := by
  simp only [core, Flow.core_core, List.map_map, FlowRecord.mk.injEq, true_and]
  exact List.map_congr_left fun note _ => note.core_core

@[simp] theorem Connection.core_core (c : Connection R) : c.core.core = c.core := by
  simp only [core, List.map_map, Option.map_map, Connection.mk.injEq]
  exact ⟨List.map_congr_left fun r _ => r.core_core,
    Option.map_congr fun r _ => r.core_core⟩

/-! ## The core forgets -/

theorem forgets_core : Forgets (Flow.core (R := R)) where
  flowState _ := rfl
  flowClassified _ := rfl
  tooFewPackets _ := rfl
  setFinishedAndNotified _ := rfl
  replaces S f p hzero := by
    have hpkts : f.core.havePktsInQueue = f.havePktsInQueue := by
      unfold Flow.havePktsInQueue
      rw [hzero]
      rfl
    unfold FlowManager.replaces
    rw [hpkts]
    rfl

theorem Note.core_eq_map (note : Note R) : note.core = note.map Flow.core := by
  cases note <;> rfl

theorem FlowRecord.core_eq_map (r : FlowRecord R) : r.core = r.map Flow.core := by
  unfold core map
  rw [List.map_congr_left fun note _ => note.core_eq_map]

theorem Connection.core_eq_map (c : Connection R) : c.core = c.map Flow.core := by
  unfold core map
  rw [List.map_congr_left fun r _ => r.core_eq_map, funext FlowRecord.core_eq_map]

/-! ## Flow records -/

namespace FlowRecord

theorem core_tell (r : FlowRecord R) (note : Note R) :
    (r.tell note).core = r.core.tell note.core := by
  simp only [core, tell, List.map_append, List.map_cons, List.map_nil]

variable [Double R]

/-- A packet acts on the core of a record. -/
theorem core_apply {S : Setup R} {r r' : FlowRecord R} {p : IPv4Packet} (hcore : r.core = r'.core)
    (hclean : r.flow.readsStaleBytes S p = false) : (r.apply S p).core = (r'.apply S p).core := by
  obtain ⟨f, told⟩ := r
  obtain ⟨f', told'⟩ := r'
  obtain ⟨hflow, htold⟩ := FlowRecord.mk.inj hcore
  have hnew : (f.addPacket S p).core = (f'.addPacket S p).core :=
    Flow.core_addPacket_congr hflow hclean
  have hbefore : f.flowClassified = f'.flowClassified := by
    rw [← Flow.core_flowClassified f, hflow, Flow.core_flowClassified]
  have hafter : (f.addPacket S p).flowClassified = (f'.addPacket S p).flowClassified := by
    rw [← Flow.core_flowClassified, hnew, Flow.core_flowClassified]
  unfold apply
  simp only [hbefore, hafter]
  split
  · rw [core_tell, core_tell]
    simp only [core, modify, Note.core, hnew, htold]
  · simp only [core, modify, hnew, htold]

end FlowRecord

/-! ## Connections -/

namespace Connection

theorem core_finish (c : Connection R) : c.finish.core = c.core.finish := by
  rw [core_eq_map, core_eq_map, forgets_core.map_finish]

theorem core_settle (c : Connection R) : c.settle.core = c.core.settle := by
  rw [core_eq_map, core_eq_map, forgets_core.map_settle]

theorem core_lookup (S : Setup R) {c : Connection R} (hidle : c.Idle) (fresh : Flow R)
    (p : IPv4Packet) : (c.lookup S fresh p).core = c.core.lookup S fresh.core p := by
  rw [core_eq_map, core_eq_map, forgets_core.map_lookup S hidle]

/-- The packet makes a meter of the flow that takes it read stale bytes. -/
def readsStaleBytes (S : Setup R) (c : Connection R) (fresh : Flow R) (p : IPv4Packet) : Bool :=
  (c.lookup S fresh p).live.any fun r => r.flow.readsStaleBytes S p

theorem core_readsStaleBytes (S : Setup R) {c : Connection R} (hidle : c.Idle) (fresh : Flow R)
    (p : IPv4Packet) :
    c.core.readsStaleBytes S fresh.core p = c.readsStaleBytes S fresh p := by
  unfold readsStaleBytes
  rw [← core_lookup S hidle, core]
  cases (c.lookup S fresh p).live with
  | none => rfl
  | some r => exact Flow.core_readsStaleBytes S r.flow p

variable [Double R]

/-- The flow that a packet opens, with nothing of the block it was created in. -/
def freshCore (S : Setup R) (p : IPv4Packet) : Flow R := (Flow.new S p fun _ => 0).core

/-- A packet on the core of a connection. -/
def step (S : Setup R) (c : Connection R) (p : IPv4Packet) : Connection R :=
  (c.process S (freshCore S p) p).core

theorem core_modify_apply {S : Setup R} {c c' : Connection R} {p : IPv4Packet}
    (hcore : c.core = c'.core)
    (hclean : ∀ r, c.live = some r → r.flow.readsStaleBytes S p = false) :
    (c.modify fun r => r.apply S p).core = (c'.modify fun r => r.apply S p).core := by
  obtain ⟨past, live⟩ := c
  obtain ⟨past', live'⟩ := c'
  obtain ⟨hpast, hlive⟩ := Connection.mk.inj hcore
  simp only [core, modify, Connection.mk.injEq]
  refine ⟨hpast, ?_⟩
  cases live with
  | none =>
    cases live' with
    | none => rfl
    | some r' => cases hlive
  | some r =>
    cases live' with
    | none => cases hlive
    | some r' =>
      simp only [Option.map_some]
      exact congrArg some (FlowRecord.core_apply (Option.some.inj hlive) (hclean r rfl))

/-- **A packet acts on the core of its connection.** -/
theorem core_process {S : Setup R} {c : Connection R} {fresh : Flow R} {p : IPv4Packet}
    (hidle : c.Idle) (hfresh : fresh.core = freshCore S p)
    (hclean : c.readsStaleBytes S fresh p = false) :
    (c.process S fresh p).core = c.core.step S p := by
  have hlookup : (c.lookup S fresh p).core = c.core.lookup S (freshCore S p) p := by
    rw [core_lookup S hidle, hfresh]
  have hcc : (c.core.lookup S (freshCore S p) p).core = c.core.lookup S (freshCore S p) p := by
    rw [← hlookup, core_core]
  have hreads : ∀ r, (c.lookup S fresh p).live = some r → r.flow.readsStaleBytes S p = false := by
    intro r hr
    unfold readsStaleBytes at hclean
    rw [hr] at hclean
    exact hclean
  unfold step process
  rw [core_settle, core_settle]
  congr 1
  exact core_modify_apply (hlookup.trans hcc.symm) hreads

end Connection

end Vsid
