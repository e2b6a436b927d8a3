import MatterRsServer.Controller.Commands
import MatterRsServer.Lib.Outline

/-!
# What the other tasks touch

The node manager, `interview_node` and `remove_node` neither read nor write the
configuration and take none of its locks. Of the registry's ids they leave all,
but for the one that `remove_node` removes.
-/
namespace MatterRsServer.Controller
open Lib Wire

namespace Memory

/-- Configuration, locks and the set of registered ids are as before. -/
structure Keeps (s s' : Memory) : Prop where
  config : s'.config = s.config
  configLocked : s'.configLocked = s.configLocked
  allocLocked : s'.allocLocked = s.allocLocked
  contains : ∀ id, s'.registry.contains id = s.registry.contains id

instance : Nonempty Memory := ⟨⟨.empty, ⟨"", 1, ∅, ∅⟩, false, false, ∅, [], 0, []⟩⟩

namespace Keeps

theorem refl (s : Memory) : s.Keeps s := ⟨rfl, rfl, rfl, fun _ => rfl⟩

theorem trans {s m s' : Memory} (h : s.Keeps m) (h' : m.Keeps s') : s.Keeps s' where
  config := h'.config.trans h.config
  configLocked := h'.configLocked.trans h.configLocked
  allocLocked := h'.allocLocked.trans h.allocLocked
  contains id := (h'.contains id).trans (h.contains id)

theorem abort (s : Memory) (handle : Nat) : s.Keeps (s.abort handle) := ⟨rfl, rfl, rfl, fun _ => rfl⟩

theorem cancelGrace (s : Memory) (id : NodeId) : s.Keeps (s.cancelGrace id) := by
  unfold Memory.cancelGrace
  split
  · exact ⟨rfl, rfl, rfl, fun _ => rfl⟩
  · exact refl s

theorem startGrace (s : Memory) (id : NodeId) : s.Keeps (s.startGrace id) := by
  unfold Memory.startGrace
  split
  · exact refl s
  · exact ⟨rfl, rfl, rfl, fun _ => rfl⟩

theorem takeGrace (s : Memory) (id : NodeId) : s.Keeps (s.takeGrace id).2 :=
  ⟨rfl, rfl, rfl, fun _ => rfl⟩

theorem abortAll (s : Memory) : s.Keeps s.abortAll := by
  have hfold : ∀ (l : List (NodeId × Nat)) (m : Memory), s.Keeps m →
      s.Keeps (l.foldl (fun m e => m.abort e.2) m) := by
    intro l
    induction l with
    | nil => exact fun m hm => hm
    | cons e l ih => exact fun m hm => ih _ (hm.trans (abort m e.2))
  exact hfold _ _ ⟨rfl, rfl, rfl, fun _ => rfl⟩

theorem pushHistory (s : Memory) (event : MatterNodeEvent) : s.Keeps (s.pushHistory event) :=
  ⟨rfl, rfl, rfl, fun _ => rfl⟩

theorem setAvailable (s : Memory) (id : NodeId) (available : Bool) :
    s.Keeps (s.setAvailable id available).2 := by
  refine ⟨rfl, rfl, rfl, fun j => ?_⟩
  rw [Registry.contains_eq, Registry.contains_eq, get?_setAvailable]
  split
  next hj => subst hj; simp
  · rfl

theorem replaceAttributes (s : Memory) (id : NodeId) (attributes : Attributes) (now : String) :
    s.Keeps (s.replaceAttributes id attributes now) := by
  refine ⟨rfl, rfl, rfl, fun j => ?_⟩
  rw [Registry.contains_eq, Registry.contains_eq, get?_replaceAttributes]
  split
  next hj => subst hj; simp
  · rfl

theorem setAttribute (s : Memory) (id : NodeId) (path : String) (value : Json) :
    s.Keeps (s.setAttribute id path value) := by
  refine ⟨rfl, rfl, rfl, fun j => ?_⟩
  rw [Registry.contains_eq, Registry.contains_eq, get?_setAttribute]
  split
  next hj => subst hj; simp
  · rfl

end Keeps

end Memory

/-- What the node manager puts out: broadcasts other than `node_added`, and node files. -/
inductive IsReport : Effect → Prop where
  | nodeUpdated (nd : MatterNodeData) : IsReport (.send (.nodeUpdated nd))
  | attributeUpdated (id : NodeId) (path : String) (value : Json) :
      IsReport (.send (.attributeUpdated id path value))
  | nodeEvent (event : MatterNodeEvent) : IsReport (.send (.nodeEvent event))
  | save (record : NodeRecord) : IsReport (.save record)

/-- Accesses and outputs among which are those of the events that report no connection state. -/
structure Refreshes (A : Memory → Memory → Prop) (E : Effect → Prop) : Prop where
  refl : ∀ s, A s s
  setAttribute : ∀ s id path value, A s (s.setAttribute id path value)
  replaceAttributes : ∀ s id attributes now, A s (s.replaceAttributes id attributes now)
  pushHistory : ∀ s event, A s (s.pushHistory event)
  report : ∀ e, IsReport e → E e

/-- Accesses and outputs among which are those of the node manager and the commands. -/
structure Admits (A : Memory → Memory → Prop) (E : Effect → Prop) : Prop where
  keeps : ∀ s s', s.Keeps s' → A s s'
  report : ∀ e, IsReport e → E e
  reply : ∀ result, E (.reply result)

variable {A : Memory → Memory → Prop} {E : Effect → Prop}

theorem Admits.refreshes (h : Admits A E) : Refreshes A E where
  refl s := h.keeps _ _ (.refl s)
  setAttribute s id path value := h.keeps _ _ (.setAttribute s id path value)
  replaceAttributes s id attributes now := h.keeps _ _ (.replaceAttributes s id attributes now)
  pushHistory s event := h.keeps _ _ (.pushHistory s event)
  report := h.report

namespace Within

section Refreshes

variable (h : Refreshes A E)

include h

theorem read {α : Type} {f : Memory → α} {k : α → Task} (hk : ∀ a, (k a).Within A E) :
    Prog.Within A E (.read f k) :=
  Prog.Within.step h.refl fun _ => hk _

theorem emitNodeUpdated (id : NodeId) {k : Task} (hk : k.Within A E) :
    (Controller.emitNodeUpdated id k).Within A E := by
  apply read h
  intro nd
  cases nd with
  | none => exact hk
  | some nd => exact ⟨h.report _ (.nodeUpdated nd), hk⟩

theorem persist (id : NodeId) {k : Task} (hk : k.Within A E) :
    (Controller.persist id k).Within A E := by
  apply read h
  intro record
  cases record with
  | none => exact hk
  | some record => exact ⟨h.report _ (.save record), hk⟩

theorem applyChanges (id : NodeId) (changes : List (String × Json)) {k : Task}
    (hk : k.Within A E) : (Controller.applyChanges id changes k).Within A E := by
  induction changes with
  | nil => exact hk
  | cons change rest ih =>
    apply Prog.Within.step
    · exact fun s => h.setAttribute s id change.1 change.2
    · exact fun _ => ⟨h.report _ (.attributeUpdated id _ _), ih⟩

theorem ifKnown (id : NodeId) {arm k : Task} (harm : arm.Within A E) (hk : k.Within A E) :
    (Controller.ifKnown id arm k).Within A E := by
  apply read h
  intro known
  cases known
  · exact hk
  · exact harm

theorem replacement (id : NodeId) (attributes : Attributes) (now : String) {k : Task}
    (hk : k.Within A E) :
    Prog.Within A E (.modify (fun s => s.replaceAttributes id attributes now) <|
      Controller.persist id <| Controller.emitNodeUpdated id k) := by
  apply Prog.Within.step
  · exact fun s => h.replaceAttributes s id attributes now
  · exact fun _ => persist h id (emitNodeUpdated h id hk)

/-- Events that report no connection state. -/
theorem refreshment {ev : StackEvent} (hev : ∀ id state, ev ≠ .nodeState id state) (now : String)
    {k : Task} (hk : k.Within A E) : (Controller.handleEvent ev now k).Within A E := by
  cases ev with
  | nodeState id state => exact absurd rfl (hev id state)
  | primingSnapshot id attributes =>
    exact ifKnown h id (replacement h id attributes now hk) hk
  | attributesChanged id changes =>
    exact ifKnown h id (applyChanges h id changes (persist h id hk)) hk
  | nodeEvent id event =>
    apply ifKnown h id _ hk
    apply Prog.Within.step
    · exact fun s => h.pushHistory s _
    · exact fun _ => ⟨h.report _ (.nodeEvent _), hk⟩

end Refreshes

variable (h : Admits A E)

include h

theorem setAvailable (id : NodeId) (available : Bool) {k : Task} (hk : k.Within A E) :
    Prog.Within A E (.modifyGet (fun s => s.setAvailable id available) fun changed =>
      if changed = some true then Controller.emitNodeUpdated id k else k) := by
  apply Prog.Within.step
  · exact fun s => h.keeps _ _ (.setAvailable s id available)
  · intro s
    dsimp only
    split
    · exact emitNodeUpdated h.refreshes id hk
    · exact hk

theorem handleNodeState (id : NodeId) (state : NodeConnState) {k : Task} (hk : k.Within A E) :
    (Controller.handleNodeState id k state).Within A E := by
  cases state with
  | connected maxIntervalSecs =>
    apply Prog.Within.step
    · exact fun s => h.keeps _ _ (.cancelGrace s id)
    · exact fun _ => setAvailable h id true hk
  | reconnecting =>
    refine Prog.Within.step (fun s => h.keeps _ _ (.refl s)) fun s => ?_
    dsimp only
    split
    · exact Prog.Within.step (fun s => h.keeps _ _ (.startGrace s id)) fun _ => hk
    · exact hk

theorem handleEvent (ev : StackEvent) (now : String) {k : Task} (hk : k.Within A E) :
    (Controller.handleEvent ev now k).Within A E := by
  cases ev with
  | nodeState id state => exact ifKnown h.refreshes id (handleNodeState h id state hk) hk
  | primingSnapshot | attributesChanged | nodeEvent =>
    exact refreshment h.refreshes (fun _ _ heq => by cases heq) now hk

theorem handleGraceExpiry (id : NodeId) {k : Task} (hk : k.Within A E) :
    (Controller.handleGraceExpiry id k).Within A E := by
  apply Prog.Within.step
  · exact fun s => h.keeps _ _ (.takeGrace s id)
  · intro s
    cases (s.takeGrace id).1 with
    | none => exact hk
    | some handle => exact setAvailable h id false hk

theorem nodeManager (inputs : List Input) : (Controller.nodeManager inputs).Within A E := by
  induction inputs with
  | nil => exact Prog.Within.step (fun s => h.keeps _ _ (.abortAll s)) fun _ => trivial
  | cons input rest ih =>
    cases input with
    | event ev now => exact handleEvent h ev now ih
    | graceExpired id => exact handleGraceExpiry h id ih

theorem ensureNode (id : NodeId) {k : Task} (hk : k.Within A E) :
    (Controller.ensureNode id k).Within A E := by
  apply read h.refreshes
  intro known
  cases known
  · exact ⟨h.reply _, trivial⟩
  · exact hk

theorem interviewNode (id : NodeId) (interview : Except StackError Attributes) (now : String)
    (hcall : E (.stack (.interview id))) :
    (Controller.interviewNode id interview now).Within A E := by
  apply ensureNode h id
  refine ⟨hcall, ?_⟩
  cases interview with
  | error e => exact ⟨h.reply _, trivial⟩
  | ok attributes => exact replacement h.refreshes id attributes now ⟨h.reply _, trivial⟩

end Within

end MatterRsServer.Controller
