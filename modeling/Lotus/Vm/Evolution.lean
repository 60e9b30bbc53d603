import Lotus.State.Access
import Lotus.Vm.Ledger
import Lotus.Vm.Send

/-!
# Execution refines the ledger

`Grows vm es vm'` says what execution may do to a VM while it records the events `es`.
-/

namespace Lotus

open VM Machine StateTree Act

/-! ## The relations -/

/-- What any code may do to a VM under an open snapshot while it records the events `es`: it
writes to the innermost layer only, and the address caches only gain entries. -/
structure Extends (vm : VM) (es : List Event) (vm' : VM) : Prop where
  log_eq : vm'.log = vm.log ++ es
  height_eq : vm'.blockHeight = vm.blockHeight
  root_eq : vm'.cstate.root = vm.cstate.root
  below_eq : vm'.cstate.below = vm.cstate.below
  cache_mono : ∀ a id, vm.cstate.resolveAddress a = some id → vm'.cstate.resolveAddress a = some id

namespace Extends

lemma refl (vm : VM) : Extends vm [] vm := ⟨(List.append_nil _).symm, rfl, rfl, rfl, fun _ _ h => h⟩

lemma trans {vm1 vm2 vm3 : VM} {es1 es2 : List Event} (h1 : Extends vm1 es1 vm2)
    (h2 : Extends vm2 es2 vm3) : Extends vm1 (es1 ++ es2) vm3 where
  log_eq := by rw [h2.log_eq, h1.log_eq, List.append_assoc]
  height_eq := h2.height_eq.trans h1.height_eq
  root_eq := h2.root_eq.trans h1.root_eq
  below_eq := h2.below_eq.trans h1.below_eq
  cache_mono a id h := h2.cache_mono a id (h1.cache_mono a id h)

variable {vm : VM}

lemma of_reads {t : StateTree} (h : Reads vm.cstate t) : Extends vm [] { vm with cstate := t } :=
  ⟨(List.append_nil _).symm, rfl, h.root_eq, h.below_eq, h.cache_mono⟩

lemma of_write {t : StateTree} (h : Reads vm.cstate t) (a : Address) (op : StreeOp) :
    Extends vm [] { vm with cstate := t.snapsWrite a op } :=
  ⟨(List.append_nil _).symm, rfl, h.root_eq, h.below_eq, h.cache_mono⟩

variable {es : List Event} {vm' : VM}

lemma resolves (h : Extends vm es vm') {init : InitActor} {addr id : Address}
    (hres : Resolves init vm.cstate addr id) :
    Resolves init vm'.cstate addr id := hres.mono h.cache_mono

/-- Closing the snapshot that a stretch of code started with keeps what it did. -/
lemma close (h : Extends vm.snapshot es vm') :
    vm'.clearSnapshot.cstate.view = vm'.cstate.view ∧ Extends vm es vm'.clearSnapshot := by
  obtain ⟨t, ht, hroot, hbelow, hview, hcache⟩ := clearSnapshot_spec h.below_eq
  have hvm : vm'.clearSnapshot = { vm' with cstate := t } := by
    rw [VM.clearSnapshot, ht, Option.getD_some]
  rw [hvm]
  refine ⟨hview, h.log_eq, h.height_eq, hroot.trans h.root_eq, hbelow, fun a id ha => ?_⟩
  have hsnap : vm.snapshot.cstate.resolveAddress a = some id := by
    rwa [VM.snapshot, resolveAddress_snapshot]
  rw [hcache]
  exact h.cache_mono a id hsnap

lemma view_revert (h : Extends vm.snapshot es vm') : vm'.revert.cstate.view = vm.cstate.view := by
  have hroot : vm'.cstate.base = vm.cstate.base := by
    funext a
    rw [base, base, h.root_eq]
    rfl
  rw [VM.revert, StateTree.view_revert, hroot, h.below_eq]
  rfl

lemma revert (h : Extends vm.snapshot es vm') : Extends vm.snapshot es vm'.revert := by
  refine ⟨h.log_eq, h.height_eq, h.root_eq, h.below_eq, fun a id ha => ?_⟩
  have hlayers : vm'.revert.cstate = { vm.snapshot.cstate with root := vm'.cstate.root } := by
    simp only [VM.revert, StateTree.revert, h.below_eq]
    rfl
  rwa [hlayers]

end Extends

/-- What execution may do to a VM: it moves the ledger along a run. -/
structure Grows (vm : VM) (es : List Event) (vm' : VM) : Prop extends Extends vm es vm' where
  run : Run vm.cstate.view es vm'.cstate.view

namespace Grows

lemma refl (vm : VM) : Grows vm [] vm := ⟨.refl vm, .refl _⟩

lemma trans {vm1 vm2 vm3 : VM} {es1 es2 : List Event} (h1 : Grows vm1 es1 vm2)
    (h2 : Grows vm2 es2 vm3) : Grows vm1 (es1 ++ es2) vm3 :=
  ⟨h1.toExtends.trans h2.toExtends, .trans h1.run h2.run⟩

variable {t : StateTree} {vm : VM}

lemma of_reads (h : Reads vm.cstate t) : Grows vm [] { vm with cstate := t } := by
  refine ⟨.of_reads h, ?_⟩
  rw [show ({ vm with cstate := t } : VM).cstate.view = vm.cstate.view from h.view_eq]
  exact .refl _

lemma of_write {a : Address} {op : StreeOp} (h : Reads vm.cstate t)
    (hrun : Run vm.cstate.view [] (Function.update vm.cstate.view a op.read)) :
    Grows vm [] { vm with cstate := t.snapsWrite a op } := by
  refine ⟨.of_write h a op, ?_⟩
  simp only [view_snapsWrite, h.view_eq]
  exact hrun

lemma of_write_event {a : Address} {op : StreeOp} {e : Event} (h : Reads vm.cstate t)
    (hrun : Run vm.cstate.view [e] (Function.update vm.cstate.view a op.read)) :
    Grows vm [e] { vm with cstate := t.snapsWrite a op, log := vm.log ++ [e] } := by
  refine ⟨⟨rfl, rfl, h.root_eq, h.below_eq, h.cache_mono⟩, ?_⟩
  simp only [view_snapsWrite, h.view_eq]
  exact hrun

lemma of_note (vm : VM) {e : Event} (h : e.IsNote) :
    Grows vm [e] { vm with log := vm.log ++ [e] } :=
  ⟨⟨rfl, rfl, rfl, rfl, fun _ _ h => h⟩, .note _ h⟩

lemma close {vm' : VM} {es : List Event} (h : Grows vm.snapshot es vm') :
    Grows vm es vm'.clearSnapshot := by
  obtain ⟨hview, hext⟩ := h.toExtends.close
  refine ⟨hext, ?_⟩
  have hrun := h.run
  rw [VM.snapshot, view_snapshot] at hrun
  rwa [hview]

lemma undo {vm' : VM} {es : List Event} (h : Grows vm.snapshot es vm') :
    Grows vm es vm'.revert.clearSnapshot := by
  obtain ⟨hview, hext⟩ := h.toExtends.revert.close
  refine ⟨hext, ?_⟩
  have hrun := h.run
  rw [VM.snapshot, view_snapshot] at hrun
  rw [hview, h.toExtends.view_revert]
  exact hrun.revert

end Grows

def meterAll (gasAvailable : Int64) : Int64 → List Event → Int64
  | used, [] => used
  | used, .charged gas :: es => meterAll gasAvailable (meter gasAvailable used gas.total) es
  | used, _ :: es => meterAll gasAvailable used es

lemma meterAll_append (gasAvailable used : Int64) (es1 es2 : List Event) :
    meterAll gasAvailable used (es1 ++ es2) =
      meterAll gasAvailable (meterAll gasAvailable used es1) es2 := by
  induction es1 generalizing used with
  | nil => rfl
  | cons e es1 ih => cases e <;> exact ih _

def Silent (es : List Event) : Prop := ∀ gas, .charged gas ∉ es

lemma Silent.meterAll_eq {es : List Event} (h : Silent es) (gasAvailable used : Int64) :
    meterAll gasAvailable used es = used := by
  induction es with
  | nil => rfl
  | cons e es ih =>
    have hes : Silent es := fun gas hgas => h gas (.tail _ hgas)
    cases e with
    | charged gas => exact absurd List.mem_cons_self (h gas)
    | created | registered | deleted | fatal | newAddress | mark | round => exact ih hes

structure SameFrame (rt rt' : Runtime) : Prop where
  vmsg_eq : rt'.vmsg = rt.vmsg
  height_eq : rt'.height = rt.height
  gasAvailable_eq : rt'.gasAvailable = rt.gasAvailable
  origin_eq : rt'.origin = rt.origin
  originNonce_eq : rt'.originNonce = rt.originNonce

lemma SameFrame.refl (rt : Runtime) : SameFrame rt rt := ⟨rfl, rfl, rfl, rfl, rfl⟩

lemma SameFrame.trans {rt1 rt2 rt3 : Runtime} (h1 : SameFrame rt1 rt2) (h2 : SameFrame rt2 rt3) :
    SameFrame rt1 rt3 :=
  ⟨h2.vmsg_eq.trans h1.vmsg_eq, h2.height_eq.trans h1.height_eq,
    h2.gasAvailable_eq.trans h1.gasAvailable_eq, h2.origin_eq.trans h1.origin_eq,
    h2.originNonce_eq.trans h1.originNonce_eq⟩

structure Evolves (m m' : Machine) : Prop where
  frame : SameFrame m.rt m'.rt
  grows : ∃ es, Grows m.vm es m'.vm ∧
    m'.rt.gasUsed = meterAll m.rt.gasAvailable m.rt.gasUsed es

instance : IsPreorder Machine Evolves where
  refl m := ⟨.refl _, [], .refl _, rfl⟩
  trans := by
    rintro m1 m2 m3 ⟨hf1, es1, h1, hg1⟩ ⟨hf2, es2, h2, hg2⟩
    refine ⟨hf1.trans hf2, es1 ++ es2, h1.trans h2, ?_⟩
    rw [hg2, hf1.gasAvailable_eq, hg1, meterAll_append]

def Machine.setTree (m : Machine) (t : StateTree) : Machine :=
  { m with vm := { m.vm with cstate := t } }

def Machine.record (m : Machine) (e : Event) : Machine :=
  { m with vm := { m.vm with log := m.vm.log ++ [e] } }

lemma Evolves.setTree_of_reads {m : Machine} {t : StateTree} (h : Reads m.vm.cstate t) :
    Evolves m (m.setTree t) :=
  ⟨.refl _, [], .of_reads h, rfl⟩

lemma Evolves.trans {m1 m2 m3 : Machine} (h1 : Evolves m1 m2) (h2 : Evolves m2 m3) :
    Evolves m1 m3 := IsTrans.trans _ _ _ h1 h2

lemma Evolves.record (m : Machine) {e : Event} (h : e.IsNote) (hsilent : Silent [e]) :
    Evolves m (m.record e) :=
  ⟨.refl _, [e], .of_note m.vm h, (hsilent.meterAll_eq _ _).symm⟩

lemma Evolves.of_frame {vm : VM} {rt rt' : Runtime} (h : SameFrame rt rt')
    (hgas : rt'.gasUsed = rt.gasUsed) : Evolves ⟨vm, rt⟩ ⟨vm, rt'⟩ :=
  ⟨h, [], .refl _, hgas⟩

variable {ε α β : Type} {x : Act StateTree TreeErr α} {t : StateTree}

lemma attempt_tree_ok {m : Machine} {a : α} (h : x m.vm.cstate = (.ok a, t)) :
    (onVM (onTree x)).attempt m = ((.ok (.ok a) : Except ε _), m.setTree t) := by
  simp only [attempt_apply, onVM, onTree, zoom_apply, h]
  rfl

lemma attempt_tree_error {m : Machine} {err : TreeErr} (h : x m.vm.cstate = (.error err, t)) :
    (onVM (onTree x)).attempt m = ((.ok (.error err) : Except ε _), m.setTree t) := by
  simp only [attempt_apply, onVM, onTree, zoom_apply, h]
  rfl

lemma keeps_lookupID (init : InitActor) (addr : Address) : Keeps Reads (lookupID init addr) :=
  lookupID_reads init addr

lemma keeps_getActor (init : InitActor) (addr : Address) :
    Keeps Reads (StateTree.getActor init addr) := getActor_reads init addr

lemma orRaise_of_ok (err : ActorError) {vm : VM} {a : α} (h : x vm.cstate = (.ok a, t)) :
    orRaise x err vm = (.ok a, { vm with cstate := t }) := by
  have hattempt : (onTree x).attempt vm =
      ((.ok (.ok a) : Except Fault _), { vm with cstate := t }) := by
    rw [attempt_apply, onTree, zoom_apply, h]
  rw [orRaise, Act.bind_of_ok hattempt]
  rfl

lemma orRaise_of_error (err : ActorError) {vm : VM} {e : TreeErr}
    (h : x vm.cstate = (.error e, t)) : orRaise x err vm = raise err { vm with cstate := t } := by
  have hattempt : (onTree x).attempt vm =
      ((.ok (.error e) : Except Fault _), { vm with cstate := t }) := by
    rw [attempt_apply, onTree, zoom_apply, h]
  rw [orRaise, Act.bind_of_ok hattempt]

lemma orRaise_eq_ok {err : ActorError} {vm vm' : VM} {a : α} (h : orRaise x err vm = (.ok a, vm')) :
    ∃ t, x vm.cstate = (.ok a, t) ∧ vm' = { vm with cstate := t } := by
  rcases hx : x vm.cstate with ⟨e | a', t⟩
  · rw [orRaise_of_error err hx, raise] at h
    obtain ⟨_, _, _, hfail⟩ := Act.bind_eq_ok h
    cases hfail
  · rw [orRaise_of_ok err hx] at h
    cases h
    exact ⟨t, rfl, rfl⟩

end Lotus
