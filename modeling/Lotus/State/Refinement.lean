import Lotus.State.View

/-!
# The layered tree refines a stack of whole maps

`TreeOp` is one call on a state tree with an ID address.
-/

namespace Lotus

open Layers

/-- A call on a state tree. A mutation that fails leaves the actor as it was. -/
inductive TreeOp where
  | setActor (id : UInt64) (act : Actor)
  | getActor (id : UInt64)
  | deleteActor (id : UInt64)
  | mutateActor (id : UInt64) (f : Actor → Except TreeErr Actor)
  | snapshot
  | revert
  | clearSnapshot

/-- What a call returns: an actor for `GetActor`, otherwise only whether it failed. -/
inductive TreeAnswer where
  | actor (r : Except TreeErr Actor)
  | done (r : Except TreeErr Unit)

namespace StateTree

variable (init : InitActor)

/-- One call on the tree; `none` is the index panic of `ClearSnapshot` on a single layer. -/
def stepTree : TreeOp → StateTree → Option (TreeAnswer × StateTree)
  | .setActor id act, t =>
    let r := setActor init (.id id) act t
    some (.done r.1, r.2)
  | .getActor id, t =>
    let r := getActor init (.id id) t
    some (.actor r.1, r.2)
  | .deleteActor id, t =>
    let r := deleteActor init (.id id) t
    some (.done r.1, r.2)
  | .mutateActor id f, t =>
    let r := mutateActor init (.id id) (fun act => (f act).map fun act' => (act', ())) t
    some (.done r.1, r.2)
  | .snapshot, t => some (.done (.ok ()), t.snapshot)
  | .revert, t => some (.done (.ok ()), t.revert)
  | .clearSnapshot, t => t.clearSnapshot.map fun t' => (.done (.ok ()), t')

def runTree : List TreeOp → StateTree → Option (List TreeAnswer × StateTree)
  | [], t => some ([], t)
  | op :: ops, t =>
    (stepTree init op t).bind fun (ans, t') =>
      (runTree ops t').map fun (rest, t'') => (ans :: rest, t'')

end StateTree

open StateTree (lookupAnswer)

/-- One call on the reference machine. -/
def stepStack : TreeOp → Stack Address Actor → TreeAnswer × Stack Address Actor
  | .setActor id act, s => (.done (.ok ()), s.set (.id id) act)
  | .getActor id, s => (.actor (lookupAnswer s.cur (.id id)), s)
  | .deleteActor id, s =>
    match lookupAnswer s.cur (.id id) with
    | .ok _ => (.done (.ok ()), s.erase (.id id))
    | .error err => (.done (.error err), s)
  | .mutateActor id f, s =>
    match (lookupAnswer s.cur (.id id)).bind f with
    | .ok act' => (.done (.ok ()), s.set (.id id) act')
    | .error err => (.done (.error err), s)
  | .snapshot, s => (.done (.ok ()), s.snapshot)
  | .revert, s => (.done (.ok ()), s.revert)
  | .clearSnapshot, s => (.done (.ok ()), s.clear)

/-- A sequence of calls on the reference machine. -/
def runStack : List TreeOp → Stack Address Actor → List TreeAnswer × Stack Address Actor
  | [], s => ([], s)
  | op :: ops, s =>
    let r := stepStack op s
    let rs := runStack ops r.2
    (r.1 :: rs.1, rs.2)

/-- With `d` snapshots open, the calls revert and clear only open snapshots. The VM takes a snapshot
before it runs a message or a sub-call, reverts it at most once and then clears it. -/
def Balanced : ℕ → List TreeOp → Prop
  | _, [] => True
  | d, .snapshot :: ops => Balanced (d + 1) ops
  | d, .revert :: ops => 0 < d ∧ Balanced d ops
  | d, .clearSnapshot :: ops => 0 < d ∧ Balanced (d - 1) ops
  | d, .setActor _ _ :: ops | d, .getActor _ :: ops | d, .deleteActor _ :: ops
  | d, .mutateActor _ _ :: ops => Balanced d ops

lemma Balanced.tail {op : TreeOp} {ops : List TreeOp} {s : Stack Address Actor}
    (h : Balanced s.saved.length (op :: ops)) : Balanced (stepStack op s).2.saved.length ops := by
  cases op with
  | setActor id act => exact h
  | getActor id => exact h
  | deleteActor id =>
    simp only [stepStack]
    cases lookupAnswer s.cur (.id id) <;> exact h
  | mutateActor id f =>
    simp only [stepStack]
    cases (lookupAnswer s.cur (.id id)).bind f <;> exact h
  | snapshot => exact h
  | revert => exact h.2
  | clearSnapshot => simpa [stepStack, Stack.clear] using h.2

lemma Balanced.head {op : TreeOp} {ops : List TreeOp} {d : ℕ} (h : Balanced d (op :: ops)) :
    Balanced d [op] := by
  cases op with
  | setActor | getActor | deleteActor | mutateActor | snapshot => trivial
  | revert | clearSnapshot => exact ⟨h.1, trivial⟩

namespace StateTree

def stack (t : StateTree) : Stack Address Actor :=
  Stack.ofLayers t.base t.top.actors (t.below.map (·.actors))

@[simp] lemma stack_cur (t : StateTree) : t.stack.cur = t.view := rfl

@[simp] lemma stack_saved_length (t : StateTree) : t.stack.saved.length = t.below.length := by
  rw [stack, Stack.ofLayers, Stack.views_length, List.length_map]

lemma Reads.stack_eq {t t' : StateTree} (h : Reads t t') : t'.stack = t.stack := by
  have hbase : t'.base = t.base := by
    funext a
    rw [base, base, h.root_eq]
  have hcur : t'.stack.cur = t.stack.cur := h.view_eq
  rw [stack, stack] at *
  grind [Stack.ofLayers, Stack.mk.injEq, h.below_eq]

lemma stack_snapsWrite_put (t : StateTree) (a : Address) (act : Actor) :
    (t.snapsWrite a (.put act)).stack = t.stack.set a act :=
  Stack.ofLayers_put _ _ _ _ _

lemma stack_snapsWrite_del (t : StateTree) (a : Address) :
    (t.snapsWrite a .del).stack = t.stack.erase a :=
  Stack.ofLayers_del _ _ _ _

variable (init : InitActor)

lemma getActor_id (id : UInt64) (t : StateTree) :
    ∃ t', Reads t t' ∧ getActor init (.id id) t = (lookupAnswer t.view (.id id), t') := by
  obtain ⟨t', hreads, heq⟩ := getActorAt_spec (.id id) t
  refine ⟨t', hreads, ?_⟩
  have hrun : getActor init (.id id) t = getActorAt (.id id) t := rfl
  rw [hrun, heq]

lemma deleteActor_id (id : UInt64) (t : StateTree) :
    ∃ t', Reads t t' ∧ deleteActor init (.id id) t =
      match lookupAnswer t.view (.id id) with
      | .ok _ => (.ok (), t'.snapsWrite (.id id) .del)
      | .error err => (.error err, t') := by
  obtain ⟨t', hreads, heq⟩ := getActor_id init id t
  refine ⟨t', hreads, ?_⟩
  have hrun : deleteActor init (.id id) t =
      (getActor init (.id id) >>= fun _ => Act.modify (·.snapsWrite (.id id) .del)) t := rfl
  rw [hrun, Act.bind_apply, heq]
  cases lookupAnswer t.view (.id id) <;> rfl

lemma mutateActor_id {β : Type} (id : UInt64) (f : Actor → Except TreeErr (Actor × β))
    (t : StateTree) :
    ∃ t', Reads t t' ∧ mutateActor init (.id id) f t =
      match (lookupAnswer t.view (.id id)).bind f with
      | .ok (act', out) => (.ok out, t'.snapsWrite (.id id) (.put act'))
      | .error err => (.error err, t') := by
  obtain ⟨t', hreads, heq⟩ := getActor_id init id t
  refine ⟨t', hreads, ?_⟩
  rw [mutateActor, Act.bind_apply, heq]
  rcases lookupAnswer t.view (.id id) with err | act
  · rfl
  · rcases hf : f act with err | ⟨act', out⟩
    · simp only [Except.bind, hf]
      rfl
    · simp only [Except.bind, hf]
      rfl

lemma stepTree_refines (op : TreeOp) (t : StateTree) (h : Balanced t.below.length [op]) :
    ∃ t', stepTree init op t = some ((stepStack op t.stack).1, t') ∧
      t'.stack = (stepStack op t.stack).2 := by
  cases op with
  | setActor id act => exact ⟨_, rfl, stack_snapsWrite_put t (.id id) act⟩
  | getActor id =>
    obtain ⟨t', hreads, heq⟩ := getActor_id init id t
    refine ⟨t', ?_, hreads.stack_eq⟩
    simp only [stepTree, heq, stepStack, stack_cur]
  | deleteActor id =>
    obtain ⟨t', hreads, heq⟩ := deleteActor_id init id t
    simp only [stepTree, heq, stepStack, stack_cur]
    rcases lookupAnswer t.view (.id id) with err | act
    · exact ⟨t', rfl, hreads.stack_eq⟩
    · refine ⟨t'.snapsWrite (.id id) .del, rfl, ?_⟩
      rw [stack_snapsWrite_del, hreads.stack_eq]
  | mutateActor id f =>
    obtain ⟨t', hreads, heq⟩ :=
      mutateActor_id init id (fun act => (f act).map fun act' => (act', ())) t
    simp only [stepTree, heq, stepStack, stack_cur]
    rcases lookupAnswer t.view (.id id) with err | act
    · exact ⟨t', rfl, hreads.stack_eq⟩
    · rcases hf : f act with err | act'
      · grind [Except.bind, Except.map, hreads.stack_eq]
      · simp only [Except.bind, hf, Except.map]
        refine ⟨t'.snapsWrite (.id id) (.put act'), rfl, ?_⟩
        rw [stack_snapsWrite_put, hreads.stack_eq]
  | snapshot => exact ⟨_, rfl, Stack.ofLayers_snapshot _ _ _⟩
  | revert =>
    obtain ⟨next, rest, hbelow⟩ := List.exists_cons_of_length_pos h.1
    refine ⟨_, rfl, ?_⟩
    simp only [stepStack, stack, revert, hbelow, List.map_cons, newStateSnapLayer]
    exact Stack.ofLayers_revert _ _ _ _
  | clearSnapshot =>
    obtain ⟨next, rest, hbelow⟩ := List.exists_cons_of_length_pos h.1
    refine ⟨_, by simp only [stepTree, clearSnapshot, mergeLastLayer, hbelow]; rfl, ?_⟩
    simp only [stepStack, stack, hbelow, List.map_cons]
    exact Stack.ofLayers_clear _ _ _ _

/-- Balanced calls on the tree give the answers of the reference machine, started on the maps that
the tree stands for, and leave a tree that stands for the maps it ends with. -/
theorem runTree_refines_runStack (ops : List TreeOp) (t : StateTree)
    (h : Balanced t.below.length ops) :
    ∃ t', runTree init ops t = some ((runStack ops t.stack).1, t') ∧
      t'.stack = (runStack ops t.stack).2 := by
  induction ops generalizing t with
  | nil => exact ⟨t, rfl, rfl⟩
  | cons op ops ih =>
    obtain ⟨t1, hstep, hstack⟩ := stepTree_refines init op t h.head
    have hrest : Balanced t1.below.length ops := by
      have htail : Balanced (stepStack op t.stack).2.saved.length ops :=
        Balanced.tail (by rwa [stack_saved_length])
      rwa [← hstack, stack_saved_length] at htail
    obtain ⟨t2, hrun, hend⟩ := ih t1 hrest
    rw [hstack] at hrun hend
    refine ⟨t2, ?_, hend⟩
    simp only [runTree, hstep, Option.bind_some, hrun, Option.map_some, runStack]

def revertedDelete : List TreeOp :=
  [.setActor 7 ⟨⟨[]⟩, ⟨[]⟩, 0, 10⟩, .snapshot, .getActor 7, .deleteActor 7, .getActor 7, .revert,
    .getActor 7, .clearSnapshot]

theorem revertedDelete_refines : Balanced newStateTree.below.length revertedDelete ∧
      ∃ t', runTree .closed revertedDelete newStateTree =
          some ((runStack revertedDelete newStateTree.stack).1, t') ∧
        t'.stack = (runStack revertedDelete newStateTree.stack).2 := by
  have h : Balanced newStateTree.below.length revertedDelete := by
    simp [revertedDelete, Balanced]
  exact ⟨h, runTree_refines_runStack .closed revertedDelete newStateTree h⟩

end StateTree

end Lotus
