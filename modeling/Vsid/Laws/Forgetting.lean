import Vsid.Spec.Connection

/-!
# Forgetting a part of a flow

Two runs of the program can differ inside their flows and still be the same to everyone who looks: a
part of a flow is forgotten by a map `g`. `Forgets g` says that what the operations of a connection
test survives `g`. Mapping a connection by such a `g` commutes with its operations, so that a
simulation up to `g` has to look at single flows only.
-/

set_option autoImplicit false

namespace Vsid

variable {R : Type}

/-- A note about the mapped flow. -/
def Note.map (g : Flow R → Flow R) : Note R → Note R
  | finished f => .finished (g f)
  | classified f => .classified (g f)
  | removed f => .removed (g f)

/-- The mapped flow, and what was said about it. -/
def FlowRecord.map (g : Flow R → Flow R) (r : FlowRecord R) : FlowRecord R :=
  { flow := g r.flow, told := r.told.map (Note.map g) }

/-- Mapping every flow of a connection. -/
def Connection.map (g : Flow R → Flow R) (c : Connection R) : Connection R :=
  { past := c.past.map (FlowRecord.map g), live := c.live.map (FlowRecord.map g) }

/-- What a connection tests of a flow is not forgotten. The pending count is tested too, but a flow
whose count is zero may forget that. -/
structure Forgets (g : Flow R → Flow R) : Prop where
  flowState : ∀ f, (g f).flowState = f.flowState
  flowClassified : ∀ f, (g f).flowClassified = f.flowClassified
  tooFewPackets : ∀ f, FlowManager.tooFewPackets (g f) = FlowManager.tooFewPackets f
  setFinishedAndNotified : ∀ f, g f.setFinishedAndNotified = (g f).setFinishedAndNotified
  replaces : ∀ (S : Setup R) (f : Flow R) (p : IPv4Packet), f.pktsInQueue = 0 →
    FlowManager.replaces S (g f) p = FlowManager.replaces S f p

namespace Forgets

variable {g : Flow R → Flow R}

theorem isFinished (hg : Forgets g) (f : Flow R) : (g f).isFinished = f.isFinished := by
  unfold Flow.isFinished
  rw [hg.flowState]

/-! ## Flow records -/

theorem map_tell (r : FlowRecord R) (note : Note R) :
    (r.tell note).map g = (r.map g).tell (note.map g) := by
  simp only [FlowRecord.map, FlowRecord.tell, List.map_append, List.map_cons, List.map_nil]

theorem map_mark (hg : Forgets g) (r : FlowRecord R) :
    (r.modify Flow.setFinishedAndNotified).map g =
      (r.map g).modify Flow.setFinishedAndNotified := by
  simp only [FlowRecord.map, FlowRecord.modify, hg.setFinishedAndNotified]

theorem map_notifyFinished (hg : Forgets g) (r : FlowRecord R) :
    r.notifyFinished.map g = (r.map g).notifyFinished := by
  unfold FlowRecord.notifyFinished
  have hstate : (r.map g).flow.flowState = r.flow.flowState := hg.flowState r.flow
  have hfew : FlowManager.tooFewPackets (r.map g).flow = FlowManager.tooFewPackets r.flow :=
    hg.tooFewPackets r.flow
  rw [hstate, hfew]
  split
  · rfl
  · split
    · exact hg.map_mark r
    · rw [hg.map_mark, map_tell]
      rfl

theorem map_remove (r : FlowRecord R) : r.remove.map g = (r.map g).remove := map_tell r _

/-! ## Connections -/

theorem map_modify {k k' : FlowRecord R → FlowRecord R} (c : Connection R)
    (hk : ∀ r, c.live = some r → (k r).map g = k' (r.map g)) :
    (c.modify k).map g = (c.map g).modify k' := by
  obtain ⟨past, live⟩ := c
  cases live with
  | none => rfl
  | some r =>
    simp only [Connection.map, Connection.modify, Option.map_some, hk r rfl]

theorem map_retire (c : Connection R) : c.retire.map g = (c.map g).retire := by
  obtain ⟨past, live⟩ := c
  cases live with
  | none =>
    simp only [Connection.map, Connection.retire, Option.map_none, Option.toList_none,
      List.append_nil]
  | some r =>
    simp only [Connection.map, Connection.retire, Option.map_some, Option.toList_some,
      List.map_append, List.map_cons, List.map_nil, map_remove, Option.map_none]

theorem map_finish (hg : Forgets g) (c : Connection R) : c.finish.map g = (c.map g).finish := by
  unfold Connection.finish
  rw [map_retire, map_modify c fun r _ => hg.map_notifyFinished r]

theorem map_settle (hg : Forgets g) (c : Connection R) : c.settle.map g = (c.map g).settle := by
  obtain ⟨past, live⟩ := c
  cases live with
  | none => rfl
  | some r =>
    have hfinish := hg.map_finish { past := past, live := some r }
    unfold Connection.settle
    simp only [Connection.map, Option.map_some]
    have hstate : (r.map g).flow.isFinished = r.flow.isFinished := hg.isFinished r.flow
    rw [hstate]
    split
    · exact hfinish
    · rfl

end Forgets

/-- No packet of the open flow is on the way. -/
def Connection.Idle (c : Connection R) : Prop := ∀ r, c.live = some r → r.flow.pktsInQueue = 0

theorem Forgets.map_lookup {g : Flow R → Flow R} (hg : Forgets g) (S : Setup R) {c : Connection R}
    (hidle : c.Idle) (fresh : Flow R) (p : IPv4Packet) :
    (c.lookup S fresh p).map g = (c.map g).lookup S (g fresh) p := by
  obtain ⟨past, live⟩ := c
  cases live with
  | none => rfl
  | some r =>
    have hfinish := hg.map_finish { past := past, live := some r }
    have hsame : FlowManager.replaces S (r.map g).flow p = FlowManager.replaces S r.flow p :=
      hg.replaces S r.flow p (hidle r rfl)
    unfold Connection.lookup
    simp only [Connection.map, Option.map_some, hsame]
    split
    · exact congrArg (fun k : Connection R => k.start (g fresh)) hfinish
    · rfl

end Vsid
