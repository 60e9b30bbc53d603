import Lotus.State.Refinement

/-!
# Flushing the pending layer

`Flush` writes the pending operations of the only layer to the HAMT, in the order in which Go ranges
over a map, and leaves the layer as it is.
-/

namespace Lotus

open Layers List

namespace StateTree

variable {es : List (Σ _ : Address, StreeOp)}

/-- The loop ends without error exactly when the HAMT has every key that is to be deleted. -/
lemma flushEntries_ok_iff (hes : es.NodupKeys) (root : Hamt) :
    (flushEntries es root).1 = .ok () ↔ ∀ a, ⟨a, .del⟩ ∈ es → a ∈ root := by
  induction es generalizing root with
  | nil => simp [flushEntries]
  | cons e es ih =>
    obtain ⟨addr, op⟩ := e
    rw [nodupKeys_cons] at hes
    -- the entries that follow have other keys, so what this one writes does not matter to them
    have hne : ∀ a, ⟨a, .del⟩ ∈ es → a ≠ addr := by grind
    cases op with
    | put act =>
      rw [flushEntries, ih hes.2]
      constructor <;> simp_all
    | del =>
      rw [flushEntries]
      by_cases hmem : addr ∈ root <;> simp_all

lemma flushEntries_lookup (hes : es.NodupKeys) {root : Hamt}
    (h : (flushEntries es root).1 = .ok ()) (a : Address) :
    (∀ op, ⟨a, op⟩ ∈ es → (flushEntries es root).2.lookup a = op.read) ∧
      (a ∉ es.keys → (flushEntries es root).2.lookup a = root.lookup a) := by
  induction es generalizing root with
  | nil => exact ⟨nofun, fun _ => rfl⟩
  | cons e es ih =>
    obtain ⟨addr, op⟩ := e
    rw [nodupKeys_cons] at hes
    -- one iteration: it writes `op` at `addr` and the loop goes on
    obtain ⟨root', hloop, hself, hother⟩ : ∃ root' : Hamt,
        flushEntries (⟨addr, op⟩ :: es) root = flushEntries es root' ∧
        root'.lookup addr = op.read ∧ ∀ b, b ≠ addr → root'.lookup b = root.lookup b := by
      cases op with
      | put act =>
        exact ⟨_, rfl, Finmap.lookup_insert _, fun b hb => Finmap.lookup_insert_of_ne _ hb⟩
      | del =>
        by_cases hmem : addr ∈ root
        · refine ⟨root.erase addr, ?_, Finmap.lookup_erase _ _,
            fun b hb => Finmap.lookup_erase_ne hb⟩
          rw [flushEntries, if_pos hmem]
        · rw [flushEntries, if_neg hmem] at h
          cases h
    grind

def DeletesPersisted (t : StateTree) : Prop :=
  ∀ addr, t.top.actors.lookup addr = some .del → addr ∈ t.root

variable {t : StateTree}

lemma IterationOrder.nodupKeys (h : IterationOrder t es) : es.NodupKeys := by
  rw [← Multiset.coe_nodupKeys, h]
  exact t.top.actors.nodupKeys

lemma IterationOrder.mem_iff (h : IterationOrder t es) (addr : Address) (op : StreeOp) :
    ⟨addr, op⟩ ∈ es ↔ t.top.actors.lookup addr = some op := by
  rw [← Multiset.mem_coe, h]
  exact Finmap.mem_lookup_iff.symm

def FlushSound (init : InitActor) (es : List (Σ _ : Address, StreeOp)) (t : StateTree) : Prop :=
  ∃ c, (flush es t).1 = .ok c ∧
    ∀ id, (getActor init (.id id) (loadStateTree c)).1 = (getActor init (.id id) (flush es t).2).1

variable (init : InitActor)

lemma flush_view (hlayer : t.below = []) (hes : IterationOrder t es) (h : DeletesPersisted t) :
    ∃ c, flush es t = (.ok c, { t with root := c }) ∧ (loadStateTree c).view = t.view ∧
      ({ t with root := c } : StateTree).view = t.view := by
  have hok : (flushEntries es t.root).1 = .ok () :=
    (flushEntries_ok_iff hes.nodupKeys t.root).mpr fun a ha => h a ((hes.mem_iff a .del).mp ha)
  have hlookup := fun a => flushEntries_lookup hes.nodupKeys hok a
  generalize hr : flushEntries es t.root = r at hok hlookup
  have hrun : flush es t = (.ok r.2, { t with root := r.2 }) := by
    rw [flush, if_neg (not_not.mpr hlayer), hr]
    simp only [hok]
    rfl
  have hview : ∀ a, t.view a = r.2.lookup a := by
    intro a
    have hlayers : t.layers.map (·.actors) = [t.top.actors] := by simp [layers, hlayer]
    rcases hop : t.top.actors.lookup a with - | op
    · have hkeys : a ∉ es.keys := by
        grind [exists_of_mem_keys, hes.mem_iff]
      rw [(hlookup a).2 hkeys, view, hlayers, view_of_miss _ (by simp [hop]), base]
    · rw [(hlookup a).1 op ((hes.mem_iff a op).mpr hop), view, hlayers,
        view_of_hit _ (w := op) (by simp [hop])]
  refine ⟨r.2, hrun, ?_, ?_⟩
  · funext a
    rw [hview a]
    rfl
  · funext a
    rw [hview a]
    rcases hop : t.top.actors.lookup a with - | op
    · rw [view, layers, view_of_miss _ (by simp [hop, hlayer]), base]
    · have hmem := (hes.mem_iff a op).mpr hop
      rw [view, layers, view_of_hit _ (w := op) (by simp [hop, hlayer]), (hlookup a).1 op hmem]

lemma flushSound_iff (hlayer : t.below = []) (hes : IterationOrder t es) :
    FlushSound init es t ↔ DeletesPersisted t := by
  constructor
  · rintro ⟨c, hok, -⟩ addr haddr
    have hloop : (flushEntries es t.root).1 = .ok () := by
      rw [flush, if_neg (not_not.mpr hlayer)] at hok
      rcases hr : (flushEntries es t.root).1 with err | u
      · simp only [hr] at hok
        cases hok
      · rfl
    exact (flushEntries_ok_iff hes.nodupKeys t.root).mp hloop addr
      ((hes.mem_iff addr .del).mpr haddr)
  · intro h
    obtain ⟨c, hrun, hload, hkeep⟩ := flush_view hlayer hes h
    refine ⟨c, by rw [hrun], fun id => ?_⟩
    obtain ⟨t1, -, h1⟩ := getActor_id init id (loadStateTree c)
    obtain ⟨t2, -, h2⟩ := getActor_id init id (flush es t).2
    rw [h1, h2, hload, hrun, hkeep]

/-! ## Runs of calls and flushes -/

inductive FlushStep where
  | call (op : TreeOp)
  | flush (es : List (Σ _ : Address, StreeOp))

/-- The steps can be taken from `t`: no call panics, and every flush finds a single layer and ranges
over it in some order. -/
def Admissible : List FlushStep → StateTree → Prop
  | [], _ => True
  | .call op :: steps, t => ∃ r, stepTree init op t = some r ∧ Admissible steps r.2
  | .flush es :: steps, t =>
    t.below = [] ∧ IterationOrder t es ∧ Admissible steps (flush es t).2

/-- `P` holds of every tree that is flushed along the steps, with the order of the flush. -/
def AtFlushes (P : List (Σ _ : Address, StreeOp) → StateTree → Prop) :
    List FlushStep → StateTree → Prop
  | [], _ => True
  | .call op :: steps, t => ∀ r, stepTree init op t = some r → AtFlushes P steps r.2
  | .flush es :: steps, t => P es t ∧ AtFlushes P steps (flush es t).2

lemma atFlushes_congr {P Q : List (Σ _ : Address, StreeOp) → StateTree → Prop}
    (h : ∀ es t, t.below = [] → IterationOrder t es → (P es t ↔ Q es t))
    (steps : List FlushStep) (t : StateTree) (hsteps : Admissible init steps t) :
    AtFlushes init P steps t ↔ AtFlushes init Q steps t := by
  induction steps generalizing t with
  | nil => exact Iff.rfl
  | cons s steps ih =>
    cases s with
    | call op =>
      obtain ⟨r, hr, hrest⟩ := hsteps
      simp_all [AtFlushes, Option.some.injEq, forall_eq']
    | flush es =>
      obtain ⟨hlayer, hes, hrest⟩ := hsteps
      exact and_congr (h es t hlayer hes) (ih _ hrest)

/-- Along every run of calls and flushes, all flushes round-trip exactly when each of them finds its
pending deletions in the HAMT. -/
theorem flushes_sound_iff (steps : List FlushStep) (t : StateTree)
    (hsteps : Admissible init steps t) :
    AtFlushes init (FlushSound init) steps t ↔
      AtFlushes init (fun _ t => DeletesPersisted t) steps t :=
  atFlushes_congr init (fun _ _ hlayer hes => flushSound_iff init hlayer hes) steps t hsteps

def setThenFlush : List FlushStep :=
  [.call (.setActor 7 ⟨⟨[]⟩, ⟨[]⟩, 0, 10⟩), .flush [⟨.id 7, .put ⟨⟨[]⟩, ⟨[]⟩, 0, 10⟩⟩],
    .call (.getActor 7)]

theorem setThenFlush_sound : Admissible .closed setThenFlush newStateTree ∧
      AtFlushes .closed (FlushSound .closed) setThenFlush newStateTree := by
  have h : Admissible .closed setThenFlush newStateTree := ⟨_, rfl, rfl, rfl, _, rfl, trivial⟩
  refine ⟨h, (flushes_sound_iff .closed setThenFlush newStateTree h).mpr ?_⟩
  rintro r hr
  cases hr
  refine ⟨fun addr haddr => ?_, fun r _ => trivial⟩
  by_cases heq : addr = .id 7
  · subst heq
    cases haddr
  · have hnone : Finmap.lookup addr (∅ : Layer Address StreeOp) = some .del :=
      (Finmap.lookup_insert_of_ne ∅ heq).symm.trans haddr
    cases hnone

def createThenDelete : List FlushStep :=
  [.call (.setActor 7 ⟨⟨[]⟩, ⟨[]⟩, 0, 10⟩), .call (.deleteActor 7), .flush [⟨.id 7, .del⟩]]

def deleteThenFlushTwice : List FlushStep :=
  [.call (.deleteActor 7), .flush [⟨.id 7, .del⟩], .flush [⟨.id 7, .del⟩]]

theorem flush_fails_on_unpersisted_delete : (Admissible .closed createThenDelete newStateTree ∧
      ¬AtFlushes .closed (FlushSound .closed) createThenDelete newStateTree) ∧
    (Admissible .closed deleteThenFlushTwice
        (loadStateTree (Finmap.singleton (.id 7) ⟨⟨[]⟩, ⟨[]⟩, 0, 10⟩)) ∧
      ¬AtFlushes .closed (FlushSound .closed) deleteThenFlushTwice
        (loadStateTree (Finmap.singleton (.id 7) ⟨⟨[]⟩, ⟨[]⟩, 0, 10⟩))) := by
  refine ⟨⟨⟨_, rfl, _, rfl, rfl, rfl, trivial⟩, ?_⟩, ⟨⟨_, rfl, rfl, rfl, rfl, rfl, trivial⟩, ?_⟩⟩
  · rintro h
    obtain ⟨⟨c, hc, -⟩, -⟩ := h _ rfl _ rfl
    cases hc
  · rintro h
    obtain ⟨-, ⟨c, hc, -⟩, -⟩ := h _ rfl
    cases hc

end StateTree

end Lotus
